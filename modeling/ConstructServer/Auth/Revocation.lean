import ConstructServer.Auth.Bearer

/-!
# Revoked devices

`deactivate_device_unless_primary` makes a device inactive and leaves a marker in Redis for as long
as an access token lives. An access token from before the marker expires before the marker does. A
refresh or an authentication that has looked up the device before it was made inactive creates its
tokens at any time after, and these outlive the marker.
-/

namespace ConstructServer.Auth

open Queue Redis Machine List

section

def Marked (env : AuthEnv) (deviceId : String) : Prop := deviceId ∈ env.marks.map Prod.fst

instance {env : AuthEnv} {deviceId : String} : Decidable (Marked env deviceId) :=
  inferInstanceAs (Decidable (_ ∈ _))

def AuthCall.mintsFor : AuthCall → Option String
  | .refresh _ claims (.mintAccess _) => claims.deviceId
  | .authenticate deviceId (.mintAccess _) => some deviceId
  | _ => none

def AuthCall.decidesOn : AuthCall → Option (Uuid × String)
  | .deactivate userId deviceId .user => some (userId, deviceId)
  | .logout _ userId _ (.deactivate deviceId .user) => some (userId, deviceId)
  | _ => none

def AuthCall.bearerClaims : AuthCall → Option Claims
  | .check _ claims _ => some claims
  | _ => none

structure CallCareful (env : AuthEnv) (input : StepInput) (call : AuthCall) : Prop where
  mint : ∀ deviceId ∈ call.mintsFor, ¬ Marked env deviceId
  user : ∀ p ∈ call.decidesOn, input.outcome = .ok →
    env.users p.1 ≠ none ∧ env.users p.1 ≠ some (some p.2)
  check : ∀ claims ∈ call.bearerClaims, timestamp env.now < claims.exp

instance {env : AuthEnv} {input : StepInput} {call : AuthCall} :
    Decidable (CallCareful env input call) :=
  decidable_of_iff (_ ∧ _ ∧ _) ⟨fun h => ⟨h.1, h.2.1, h.2.2⟩, fun h => ⟨h.mint, h.user, h.check⟩⟩

/-- What a step may do so that a revocation is final. -/
def RevocationCareful (cfg : AuthConfig) (s : AuthState) : AuthAction → Prop
  | .check metadata => ∀ token, extractBearerToken metadata = .ok token →
    Unforged cfg.manager.lib s.env.minted token ∧ ∀ t ∈ s.env.minted, t.kind = .refresh →
      payloadText token ≠ some (cfg.manager.lib.payload64 t.nonce t.claims)
  | .step i input => ∀ call ∈ s.running[i]?, CallCareful s.env input call
  | _ => True

instance {cfg : AuthConfig} {s : AuthState} : DecidablePred (RevocationCareful cfg s) := fun a => by
  cases a <;> dsimp only [RevocationCareful] <;> infer_instance

end

section

variable {cfg : AuthConfig} {env env' : AuthEnv} {s s' : AuthState} {input : StepInput}
  {call : AuthCall} {next : Option AuthCall} {claims : Claims} {deviceId : String}

theorem Marked.mono (h : Marked env deviceId) (hle : EnvLE env env') : Marked env' deviceId :=
  map_subset Prod.fst hle.marks h

def CallMarked (env : AuthEnv) : AuthCall → Prop
  | .deactivate _ deviceId .sessions => Marked env deviceId
  | .logout _ _ _ (.deactivate deviceId .sessions) => Marked env deviceId
  | .check before claims phase => (∀ deviceId ∈ before.revoked, Marked env deviceId) ∧
    (∃ t ∈ env.minted, t.kind = .access ∧ t.claims = claims) ∧
      ∀ deviceId, phase = .device deviceId → claims.deviceId = some deviceId
  | _ => True

theorem CallMarked.mono (h : CallMarked env call) (hle : EnvLE env env') : CallMarked env' call := by
  unfold CallMarked at h ⊢
  split at h
  · exact h.mono hle
  · exact h.mono hle
  · obtain ⟨hbe, ⟨t, ht, hki, hcl⟩, hp⟩ := h
    exact ⟨fun d hd => (hbe d hd).mono hle, ⟨t, hle.minted ht, hki, hcl⟩, hp⟩
  · trivial

structure RevocationInvariant (cfg : AuthConfig) (s : AuthState) : Prop where
  env : EnvInvariant cfg s.env
  before : ∀ p ∈ s.env.marks, ∀ t ∈ s.env.minted, t.kind = .access → t.claims.deviceId = some p.1 →
    t.createdAt ≤ p.2
  answered : ∀ deviceId ∈ s.answered.revoked, Marked s.env deviceId
  running : ∀ call ∈ s.running, CallMarked s.env call
  accepted : ∀ p ∈ s.accepted, ∀ deviceId ∈ p.1.revoked, p.2.deviceId ≠ some deviceId

theorem AdvanceCase.minted (h : AdvanceCase cfg s input call (s', next)) {t : Minted}
    (ht : t ∈ s'.env.minted) :
    t ∈ s.env.minted ∨ (t.kind = .access → t.claims.deviceId = call.mintsFor) := by
  cases h with
  | failed _ env _ hm => exact .inl (hm ▸ ht)
  | refreshes before claims phase phase' env hca =>
    cases hca with
    | looked => exact .inl ht
    | mintedAccess =>
      rcases mem_cons.mp ht with rfl | ht
      · exact .inr fun _ => rfl
      · exact .inl ht
    | mintedRefresh =>
      rcases mem_cons.mp ht with rfl | ht
      · exact .inr nofun
      · exact .inl ht
  | refreshed before claims phase env pair hca => cases hca <;> exact .inl ht
  | authenticates deviceId phase phase' env hca =>
    cases hca with
    | unblocked | looked | stored => exact .inl ht
    | mintedAccess =>
      rcases mem_cons.mp ht with rfl | ht
      · exact .inr fun _ => rfl
      · exact .inl ht
    | mintedRefresh =>
      rcases mem_cons.mp ht with rfl | ht
      · exact .inr nofun
      · exact .inl ht
  | authenticated deviceId phase env pair hca => cases hca; exact .inl ht
  | deactivates userId deviceId phase phase' env hca => cases hca <;> exact .inl ht
  | deactivated userId deviceId phase env result hca => cases hca <;> exact .inl ht
  | logsOut _ _ _ _ _ _ hca | logoutFailed _ _ _ _ _ _ hca => exact .inl (minted_logout hca ▸ ht)
  | loggedOut _ _ _ _ _ _ _ hca => exact .inl (minted_logout hca ▸ ht)
  | checks | accepts => exact .inl ht

theorem EnvStep.mem_marks (h : EnvStep cfg env input env') {p : String × Nat} (hp : p ∈ env'.marks) :
    p ∈ env.marks ∨ p.2 = env.now := by
  cases h with
  | mark deviceId revokedDevices hm =>
    rcases mem_cons.mp hp with rfl | hp
    · exact .inr rfl
    · exact .inl hp
  | same | mint | store | deactivate | invalidate => exact .inl hp

theorem EnvStep.now_eq (h : EnvStep cfg env input env') : env'.now = env.now := by
  cases h <;> rfl

theorem RevocationInvariant.before_advance (h : RevocationInvariant cfg s)
    (hca : CallCareful s.env input call) (hcas : AdvanceCase cfg s input call (s', next)) :
    ∀ p ∈ s'.env.marks, ∀ t ∈ s'.env.minted, t.kind = .access → t.claims.deviceId = some p.1 →
      t.createdAt ≤ p.2 := by
  intro p hp t ht hki hde
  rcases hcas.envStep.mem_marks hp with hp | hn
  · rcases hcas.minted ht with ht | hmi
    · exact h.before p hp t ht hki hde
    · exact absurd (mem_map_of_mem hp) (hca.mint p.1 ((hmi hki).symm.trans hde))
  · have hcr := ((h.env.step hcas.envStep).minted t ht).1
    rwa [hcas.envStep.now_eq, ← hn] at hcr

theorem DeactivateCase.marked_of_ok {userId : Uuid} {phase : DeactivatePhase} {result : DeviceDeactivation}
    (h : DeactivateCase cfg env input userId deviceId phase (env', .done (.ok result)))
    (hu : phase = .user → input.outcome = .ok → env.users userId ≠ none ∧ env.users userId ≠ some (some deviceId))
    (hse : phase = .sessions → Marked env deviceId) : Marked env' deviceId := by
  cases h with
  | kept _ hok hke =>
    obtain ⟨hs, ho⟩ := hu rfl hok
    rcases hke with hno | hp
    · exact absurd hno hs
    · exact absurd hp ho
  | updated _ hr =>
    rcases hr with ⟨_, hr⟩ | ⟨_, hr⟩
    · cases hr
    · cases hr
  | marked => exact mem_cons_self
  | ended => exact hse rfl

theorem DeactivateCase.marked_of_next {userId : Uuid} {phase : DeactivatePhase}
    (h : DeactivateCase cfg env input userId deviceId phase (env', .next .sessions)) : Marked env' deviceId := by
  cases h with
  | updated _ hr =>
    rcases hr with ⟨_, hr⟩ | ⟨_, hr⟩
    · cases hr
    · cases hr
  | marked => exact mem_cons_self

theorem RevocationInvariant.answered_advance (h : RevocationInvariant cfg s)
    (hcal : CallMarked s.env call) (hca : CallCareful s.env input call)
    (hcas : AdvanceCase cfg s input call (s', next)) : ∀ deviceId ∈ s'.answered.revoked, Marked s'.env deviceId := by
  have hle := hcas.envStep.le
  cases hcas with
  | deactivated userId deviceId phase env result hcas =>
    intro d hd
    rcases mem_cons.mp hd with rfl | hd
    · refine hcas.marked_of_ok ?_ ?_
      · rintro rfl
        exact hca.user (userId, d) rfl
      · rintro rfl
        exact hcal
    · exact (h.answered d hd).mono hle
  | loggedOut claims userId allDevices phase env answered ha hcas =>
    subst ha
    intro d hd
    cases hcas with
    | deactivated deviceId phase _ result hcas =>
      rcases mem_cons.mp hd with rfl | hd
      · refine hcas.marked_of_ok ?_ ?_
        · rintro rfl
          exact hca.user (userId, d) rfl
        · rintro rfl
          exact hcal
      · exact (h.answered d hd).mono hle
    | inactive | expired | invalidated | revokes => exact (h.answered d hd).mono hle
  | _ => exact fun d hd => (h.answered d hd).mono hle

theorem CallMarked.advance (h : CallMarked s.env call)
    (hca : AdvanceCase cfg s input call (s', next)) : ∀ call' ∈ next, CallMarked s'.env call' := by
  rintro call' hc'
  cases hca with
  | failed | refreshed | authenticated | deactivated | logoutFailed | loggedOut | accepts => cases hc'
  | refreshes | authenticates => cases hc'; trivial
  | deactivates userId deviceId phase phase' env hca =>
    cases hc'
    cases phase' with
    | sessions => exact hca.marked_of_next
    | user | update | mark => trivial
  | logsOut claims userId allDevices phase phase' env hca =>
    cases hc'
    cases phase' with
    | deactivate deviceId phase' =>
      cases phase' with
      | sessions =>
        cases hca with
        | deactivates deviceId phase phase' env hca => exact hca.marked_of_next
        | expired _ _ hr =>
          rcases afterInvalidate_eq_next hr.symm with ⟨-, heq⟩ | ⟨_, -, heq⟩ <;> cases heq
        | invalidated _ _ _ _ hr =>
          rcases hr with hr | ⟨_, hr⟩
          · rcases afterInvalidate_eq_next hr.symm with ⟨-, heq⟩ | ⟨_, -, heq⟩ <;> cases heq
          · cases hr
        | revokes _ _ _ hr =>
          rcases hr with ⟨_, hr⟩ | hr <;> cases hr
      | user | update | mark => trivial
    | active | remaining | invalidate | revokeAll => trivial
  | checks before claims phase phase' hp =>
    cases hc'
    refine ⟨h.1, h.2.1, ?_⟩
    rintro d rfl
    obtain ⟨-, -, d', hd', hde⟩ := check_next hp
    cases hd'
    exact hde

theorem RevocationInvariant.accepted_advance (h : RevocationInvariant cfg s)
    (hcal : CallMarked s.env call) (hca : CallCareful s.env input call)
    (hcas : AdvanceCase cfg s input call (s', next)) :
    ∀ p ∈ s'.accepted, ∀ deviceId ∈ p.1.revoked, p.2.deviceId ≠ some deviceId := by
  cases hcas with
  | accepts before claims phase hph =>
    intro p hp d hd hde
    rcases mem_cons.mp hp with rfl | hp
    · obtain ⟨hma, ⟨t, ht, hki, rfl⟩, hna⟩ := hcal
      obtain ⟨⟨_, time⟩, hm, rfl⟩ := mem_map.mp (hma d hd)
      rcases check_accepts hph with ⟨-, -, hno⟩ | ⟨d', rfl, hno⟩
      · rw [hno] at hde
        cases hde
      · cases Option.some_inj.mp ((hna d' rfl).symm.trans hde)
        have he : t.claims.exp ≤ timestamp time + cfg.manager.ttl .access := by
          have hcr := h.before _ hm t ht hki hde
          rw [h.env.exp_eq ht, hki]
          unfold timestamp
          omega
        have hs := h.env.marker_isSome hm he (hca.check _ rfl)
        rw [hno] at hs
        cases hs
    · exact h.accepted p hp d hd hde
  | _ => exact h.accepted

theorem access_of_careful {metadata : Metadata} (hca : RevocationCareful cfg s (.check metadata))
    (hv : verifyAccessToken cfg.manager s.env.now metadata = .ok claims) :
    ∃ t ∈ s.env.minted, t.kind = .access ∧ t.claims = claims := by
  cases hto : extractBearerToken metadata with
  | error e =>
    simp only [verifyAccessToken, hto] at hv
    cases hv
  | ok token =>
    obtain ⟨hu, hre⟩ := hca token hto
    obtain ⟨t, ht, rfl, hp, -⟩ := exists_minted_of_verifyToken (verifyToken_of_verifyAccessToken hto hv) hu
    refine ⟨t, ht, ?_, rfl⟩
    cases hki : t.kind with
    | access => rfl
    | refresh => exact absurd hp (hre t ht hki)

theorem RevocationInvariant.start (h : RevocationInvariant cfg s) (hca : CallMarked s.env call) :
    RevocationInvariant cfg { s with running := s.running ++ [call] } where
  env := h.env
  before := h.before
  answered := h.answered
  running call' hc' := by
    rcases mem_append.mp hc' with hc' | hc'
    · exact h.running call' hc'
    · rwa [mem_singleton.mp hc']
  accepted := h.accepted

theorem RevocationInvariant.step {a : AuthAction} (h : RevocationInvariant cfg s)
    (hca : RevocationCareful cfg s a) (hst : s.step cfg a = some s') : RevocationInvariant cfg s' := by
  cases step_case hst with
  | tick ms =>
    have hle : EnvLE s.env { s.env with now := s.env.now + ms } := .tick s.env ms
    exact ⟨h.env.tick ms, h.before, fun d hd => (h.answered d hd).mono hle,
      fun call hcal => (h.running call hcal).mono hle, h.accepted⟩
  | refused => exact h
  | refresh | authenticate | deactivate => exact h.start trivial
  | logout token allDevices claims userId phase hv hf =>
    refine h.start ?_
    cases phase with
    | active | remaining => trivial
    | invalidate | revokeAll | deactivate => cases hf
  | check metadata claims hv =>
    exact h.start ⟨h.answered, access_of_careful hca hv, nofun⟩
  | step i input call s'' next hcal hcas =>
    have hca := hca call hcal
    have hm := h.running call (mem_of_getElem? hcal)
    have hle := hcas.envStep.le
    have hbe := h.before_advance hca hcas
    have ha := h.answered_advance hm hca hcas
    have hac := h.accepted_advance hm hca hcas
    refine ⟨h.env.step hcas.envStep, hbe, ha, fun call' hc' => ?_, hac⟩
    rcases mem_or_mem_of_replace hc' with hc' | hc'
    · exact (h.running call' (hcas.running_eq ▸ hc')).mono hle
    · exact hm.advance hcas call' hc'

end

section

variable {cfg : AuthConfig} {s : AuthState} {as : List AuthAction}
  {devices : String → Option DeviceRow} {users : Uuid → Option (Option String)}

theorem revocationInvariant_init : RevocationInvariant cfg (.init devices users) where
  env := envInvariant_init devices users
  before := by rintro _ ⟨⟩
  answered := by rintro _ ⟨⟩
  running := by rintro _ ⟨⟩
  accepted := by rintro _ ⟨⟩

/-- In a careful run no check that begins after a device was revoked accepts a token of the device,
however long after. -/
theorem revoked_device_rejected
    (hcareful : Along (AuthState.step cfg) (RevocationCareful cfg) (.init devices users) as)
    (hrun : run (AuthState.step cfg) (.init devices users) as = some s) :
    ∀ p ∈ s.accepted, ∀ deviceId ∈ p.1.revoked, p.2.deviceId ≠ some deviceId :=
  (run_invariant (P := RevocationInvariant cfg) (fun h hcareful hstep => h.step hcareful hstep)
    revocationInvariant_init hcareful hrun).accepted

def demoRevoked : List AuthAction :=
  demoSignIn "tablet" ++ [.authenticate "phone" 0 (List.replicate 64 0), demoStep "", demoStep "",
    demoStep "access2", demoStep "refresh2", demoStep "", demoStep "", demoStep "",
    .deactivate demoUser "tablet", demoStep "", demoStep "", demoStep "", demoStep "",
    .check (demoBearer (demoText .access "access" "tablet")), demoStep "", demoStep "",
    .check (demoBearer (demoText .access "access2" "phone")), demoStep "", demoStep ""]

theorem demoRevoked_rejected :
    ∃ s, run (AuthState.step demoConfig) (.init demoDevices demoUsers) demoRevoked = some s ∧
      s.accepted.map (fun p => (p.1.revoked, p.2.jti)) = [(["tablet"], "access2")] ∧
      ∀ p ∈ s.accepted, ∀ deviceId ∈ p.1.revoked, p.2.deviceId ≠ some deviceId :=
  reaches_with (by decide +kernel) fun _ hrun _ => revoked_device_rejected (by decide +kernel) hrun

def demoLateToken : Minted :=
  ⟨.access, demoConfig.manager.claimsFor .access 10000 "access2" demoUser (some "tablet"), demoNonce,
    10000⟩

/-- The refresh of the tablet has looked up the device, and then the tablet is revoked. -/
def demoRace : List AuthAction :=
  let step : AuthAction := .step 1 ⟨.ok, "", demoNonce, none⟩
  demoSignIn "tablet" ++ [.refresh (demoText .refresh "refresh" "tablet"), demoStep "",
    .deactivate demoUser "tablet", step, step, step, step,
    .tick 10000, demoStep "access2", demoStep "refresh2", demoStep "",
    .tick 3595000, .check (demoBearer (demoLateToken.text plainLib)), demoStep "", demoStep ""]

/-- After the marker has expired a token of the device is accepted, which is still inactive. -/
theorem revoked_device_accepted :
    ∃ s, run (AuthState.step demoConfig) (.init demoDevices demoUsers) demoRace = some s ∧
      (s.env.devices "tablet").map DeviceRow.isActive = some false ∧
      ∃ p ∈ s.accepted, "tablet" ∈ p.1.revoked ∧ p.2.deviceId = some "tablet" :=
  reaches _ _ _ _ (by decide +kernel)

end

end ConstructServer.Auth
