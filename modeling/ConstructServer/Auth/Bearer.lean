import Mathlib.Data.List.Pairwise
import ConstructServer.Auth.Sessions

/-!
# Which bearers are accepted

Nothing in the claims of a token says which kind it is, and the check of a bearer reads the claims
only. A bearer is accepted as long as the token whose payload it has lives, so a refresh token is an
access token with a longer life.
-/

namespace ConstructServer.Auth

open Queue Redis Machine

section

variable (cfg : AuthConfig) (env : AuthEnv)

/-- Whatever else a request with the bearer has in its headers, it is accepted only if the bearer
was made by `create_token_for_device` and within the lifetime of access tokens since then. -/
def ProperBearer (token : Text) : Prop :=
  ∀ metadata claims, extractBearerToken metadata = .ok token →
    verifyAccessToken cfg.manager env.now metadata = .ok claims →
      ∃ t ∈ env.minted, t.kind = .access ∧ t.claims = claims ∧ (∃ jti userId deviceId,
          cfg.manager.createTokenForDevice t.createdAt t.nonce jti userId deviceId =
            some (token, jti, claims.exp)) ∧
        timestamp env.now < timestamp t.createdAt + cfg.manager.ttl .access

/-- If the bearer has the payload of a token that has not expired, then that is an access token and
the bearer has no footer. -/
def OnlyAccess (token : Text) : Prop :=
  ∀ t ∈ env.minted, timestamp env.now < t.claims.exp →
    payloadText token = some (cfg.manager.lib.payload64 t.nonce t.claims) →
      t.kind = .access ∧ token = t.text cfg.manager.lib

end

section

variable {cfg : AuthConfig} {env : AuthEnv} {token : Text} {metadata : Metadata} {claims : Claims}

theorem verifyToken_of_verifyAccessToken (hto : extractBearerToken metadata = .ok token)
    (h : verifyAccessToken cfg.manager env.now metadata = .ok claims) :
    cfg.manager.verifyToken env.now token = .ok claims := by
  simp only [verifyAccessToken, hto] at h
  split at h
  · cases h
  · rename_i claims' hv
    split_ifs at h
    cases h
    exact hv

theorem verifyAccessToken_of_verifyToken (hto : extractBearerToken metadata = .ok token)
    (h : cfg.manager.verifyToken env.now token = .ok claims) :
    verifyAccessToken cfg.manager env.now ⟨metadata.authorization, none, none⟩ = .ok claims := by
  have he : extractBearerToken ⟨metadata.authorization, none, none⟩ = .ok token := hto
  simp [verifyAccessToken, he, h]

theorem EnvInvariant.eq_of_jti_eq (h : EnvInvariant cfg env) {t t' : Minted} (ht : t ∈ env.minted)
    (ht' : t' ∈ env.minted) (heq : t.claims.jti = t'.claims.jti) : t = t' := by
  have : Std.Symm fun a b : Minted => a.claims.jti ≠ b.claims.jti := ⟨fun _ _ => Ne.symm⟩
  by_contra hne
  exact h.distinct.forall ht ht' hne heq

theorem eq_of_create {m : AuthManager} {kind : TokenKind} {now : Nat} {nonce : Nonce} {jti : String}
    {userId : Uuid} {deviceId : Option String} {exp : Int}
    (h : m.create kind now nonce jti userId deviceId = some (token, jti, exp)) :
    ∃ text, token = v4Public ++ text ∧ payloadText token = some text := by
  unfold AuthManager.create at h
  obtain ⟨token', hs, heq⟩ := Option.map_eq_some_iff.mp h
  obtain ⟨rfl, -⟩ := Prod.mk.inj heq
  unfold AuthManager.signPaseto at hs
  split_ifs at hs
  obtain rfl := Option.some_inj.mp hs
  refine ⟨_, rfl, ?_⟩
  have hap := payloadText_append (m.lib.payload64 nonce (m.claimsFor kind now jti userId deviceId))
    [] (m.lib.dot_not_mem_encode64 _) (.inl rfl)
  rwa [List.append_nil] at hap

theorem EnvInvariant.exp_eq (h : EnvInvariant cfg env) {t : Minted} (ht : t ∈ env.minted) :
    t.claims.exp = timestamp t.createdAt + cfg.manager.ttl t.kind := by
  obtain ⟨-, jti, userId, deviceId, hcl, -⟩ := h.minted t ht
  rw [hcl]
  rfl

/-- In every reachable state, a bearer that was not forged is accepted properly exactly if it is no
refresh token that has not expired and no token with a footer. -/
theorem properBearer_iff {s : AuthState} {as : List AuthAction}
    {devices : String → Option DeviceRow} {users : Uuid → Option (Option String)}
    (hrun : run (AuthState.step cfg) (.init devices users) as = some s)
    (hbearer : extractBearerToken metadata = .ok token)
    (hunforged : Unforged cfg.manager.lib s.env.minted token) :
    ProperBearer cfg s.env token ↔ OnlyAccess cfg s.env token := by
  have hinv := EnvInvariant.of_run hrun
  constructor
  · intro hproper t ht hexp hpayload
    obtain ⟨-, jti, userId, deviceId, hclaims, -⟩ := hinv.minted t ht
    have hissuer : t.claims.iss = cfg.manager.issuer := by rw [hclaims]; rfl
    have hverify := verifyAccessToken_of_verifyToken hbearer (verifyToken_minted hpayload hissuer hexp)
    obtain ⟨t', ht', hkind, hclaims', ⟨jti', userId', deviceId', hcreate⟩, -⟩ :=
      hproper ⟨metadata.authorization, none, none⟩ t.claims hbearer hverify
    -- The token that was accepted has the same id, so it is this one.
    obtain rfl : t = t' := hinv.eq_of_jti_eq ht ht' (congrArg Claims.jti hclaims'.symm)
    obtain ⟨text, htext, hpayload'⟩ := eq_of_create hcreate
    refine ⟨hkind, ?_⟩
    rw [htext, Option.some_inj.mp (hpayload'.symm.trans hpayload)]
    rfl
  · intro honly metadata' claims hbearer' hverify
    obtain ⟨t, ht, rfl, hpayload, hexp⟩ := exists_minted_of_verifyToken
      (verifyToken_of_verifyAccessToken hbearer' hverify) hunforged
    obtain ⟨hkind, rfl⟩ := honly t ht hexp hpayload
    obtain ⟨-, jti, userId, deviceId, hclaims, hcreate⟩ := hinv.minted t ht
    rw [hkind] at hcreate
    refine ⟨t, ht, hkind, rfl, ⟨jti, userId, deviceId, hcreate⟩, ?_⟩
    rw [← hkind, ← hinv.exp_eq ht]
    exact hexp

/-- The access token of a device that has signed in is a proper bearer. -/
theorem properBearer_signIn :
    ∃ s, run (AuthState.step demoConfig) (.init demoDevices demoUsers) (demoSignIn "phone") =
        some s ∧ ProperBearer demoConfig s.env (demoText .access "access" "phone") := by
  obtain ⟨s, hrun, hnow, hminted⟩ := reaches (AuthState.step demoConfig) (.init demoDevices demoUsers)
    (demoSignIn "phone") (fun s => s.env.now = 0 ∧ s.env.minted = [demoToken .refresh "refresh" "phone",
    demoToken .access "access" "phone"]) (by decide +kernel)
  have hbearer : extractBearerToken (demoBearer (demoText .access "access" "phone")) =
      .ok (demoText .access "access" "phone") := by
    decide +kernel
  refine ⟨s, hrun, (properBearer_iff hrun hbearer (unforged_text ?_)).mpr ?_⟩
  · rw [hminted]
    exact List.mem_cons_of_mem _ List.mem_cons_self
  · unfold OnlyAccess
    rw [hminted, hnow]
    decide +kernel

/-- Two hours after a device has signed in the messaging service accepts its refresh token, where
access tokens live for one hour. -/
theorem refresh_token_is_a_bearer : ∃ s, run (AuthState.step demoConfig) (.init demoDevices demoUsers)
        (demoSignIn "phone" ++ [.tick 7200000,
          .check (demoBearer (demoText .refresh "refresh" "phone")), demoStep "", demoStep ""]) =
        some s ∧ s.env.now = 7200000 ∧ s.accepted.map Prod.snd = [(demoToken .refresh "refresh" "phone").claims] ∧
      ¬ ProperBearer demoConfig s.env (demoText .refresh "refresh" "phone") := by
  obtain ⟨s, hrun, hnow, hminted, haccepted⟩ := reaches (AuthState.step demoConfig)
    (.init demoDevices demoUsers) (demoSignIn "phone" ++ [.tick 7200000,
    .check (demoBearer (demoText .refresh "refresh" "phone")), demoStep "", demoStep ""])
    (fun s => s.env.now = 7200000 ∧ s.env.minted = [demoToken .refresh "refresh" "phone",
    demoToken .access "access" "phone"] ∧ s.accepted.map Prod.snd = [(demoToken .refresh "refresh" "phone").claims])
    (by decide +kernel)
  refine ⟨s, hrun, hnow, haccepted, fun hproper => ?_⟩
  have hbearer : extractBearerToken (demoBearer (demoText .refresh "refresh" "phone")) =
      .ok (demoText .refresh "refresh" "phone") := by
    decide +kernel
  have hverify : verifyAccessToken demoConfig.manager 7200000 (demoBearer (demoText .refresh "refresh" "phone")) =
        .ok (demoToken .refresh "refresh" "phone").claims := by
    decide +kernel
  obtain ⟨t, ht, hkind, hclaims, -⟩ := hproper _ _ hbearer (hnow ▸ hverify)
  rw [hminted] at ht
  have hnone : ∀ t ∈ [demoToken .refresh "refresh" "phone", demoToken .access "access" "phone"],
      t.kind = .access → t.claims ≠ (demoToken .refresh "refresh" "phone").claims := by
    decide
  exact hnone t ht hkind hclaims

end

end ConstructServer.Auth
