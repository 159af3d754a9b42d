import ConstructServer.Auth.Revocation

/-!
# Sessions that are logged out

A logout puts the id of the access token into the blocklist, and deactivates the device of the token
unless it is the primary device of the account. Nothing else ends the refresh token of the session:
an inactive device cannot refresh, but the primary device goes on.
-/

namespace ConstructServer.Auth

open Queue Redis Machine Keyspace List

section

def LogoutCallCareful (env : AuthEnv) (input : StepInput) : AuthCall → Prop
  | .logout claims _ allDevices (.active deviceId) => allDevices = false → input.outcome = .ok →
    (env.devices deviceId).map DeviceRow.isActive = some true ∨
      ∃ p ∈ env.marks, p.1 = deviceId ∧ claims.iat ≤ timestamp p.2
  | .logout _ userId _ (.deactivate deviceId .user) => input.outcome = .ok →
    env.users userId ≠ none ∧ env.users userId ≠ some (some deviceId)
  | .check _ claims _ => timestamp env.now < claims.exp
  | _ => True

instance {env : AuthEnv} {input : StepInput} : DecidablePred (LogoutCallCareful env input) := fun a => by
  cases a with
  | logout _ _ _ phase =>
    rcases phase with _ | _ | _ | _ | ⟨_, _ | _⟩ <;> dsimp only [LogoutCallCareful] <;> infer_instance
  | _ => dsimp only [LogoutCallCareful]; infer_instance

def LogoutCareful (cfg : AuthConfig) (s : AuthState) : AuthAction → Prop
  | .logout token allDevices => Unforged cfg.manager.lib s.env.minted token ∧
    (allDevices = false → ∀ claims, cfg.manager.verifyToken s.env.now token = .ok claims →
      ∃ deviceId ∈ claims.deviceId, deviceId ≠ "")
  | .step i input => ∀ call ∈ s.running[i]?, LogoutCallCareful s.env input call
  | _ => True

instance {cfg : AuthConfig} {s : AuthState} : DecidablePred (LogoutCareful cfg s)
  | .logout .. => inferInstanceAs (Decidable (_ ∧ _))
  | .step .. => inferInstanceAs (Decidable (∀ call ∈ _, _))
  | .tick _ | .refresh _ | .authenticate .. | .deactivate .. | .check _ => isTrue trivial

end

section

def Created (env : AuthEnv) (claims : Claims) : Prop := ∃ t ∈ env.minted, t.claims = claims

def Inactive (env : AuthEnv) (deviceId : String) : Prop :=
  (env.devices deviceId).map DeviceRow.isActive ≠ some true

def MarkedSince (env : AuthEnv) (claims : Claims) : Prop :=
  ∃ p ∈ env.marks, claims.deviceId = some p.1 ∧ claims.iat ≤ timestamp p.2

/-- Why an access token is not accepted any more. -/
inductive Blocked (env : AuthEnv) (claims : Claims) : Prop
  | expired (hexp : claims.exp ≤ timestamp env.now)
  | invalidated (deadline : Nat)
    (hkey : env.invalidated (invalidatedTokenKey claims.jti) = some ⟨(), some deadline⟩)
    (hdeadline : claims.exp * 1000 ≤ deadline)
  | marked (hmarked : MarkedSince env claims)

structure Ended (env : AuthEnv) (claims : Claims) : Prop where
  created : Created env claims
  device : ∃ deviceId, claims.deviceId = some deviceId ∧ Inactive env deviceId
  blocked : Blocked env claims

def IsAccess (cfg : AuthConfig) (deviceId : Option String) (t : Minted) : Prop :=
  t.claims.exp = t.claims.iat + cfg.manager.ttl .access ∧ t.claims.deviceId = deviceId

def OtherDevices (before : Before) (claims : Claims) : Prop :=
  ∀ a ∈ before.loggedOut, a.deviceId ≠ claims.deviceId

def RefreshEnded (cfg : AuthConfig) (env : AuthEnv) (before : Before) (claims : Claims) :
    RefreshPhase → Prop
  | .lookup deviceId => claims.deviceId = some deviceId ∧
    ∀ a ∈ before.loggedOut, ∃ deviceId, a.deviceId = some deviceId ∧ Inactive env deviceId
  | .mintAccess _ => OtherDevices before claims
  | .mintRefresh _ access => OtherDevices before claims ∧ IsAccess cfg claims.deviceId access
  | .rotate _ access refresh => OtherDevices before claims ∧ IsAccess cfg claims.deviceId access ∧
    refresh.claims.deviceId = claims.deviceId

def AuthenticateEnded (cfg : AuthConfig) (deviceId : String) : AuthenticatePhase → Prop
  | .mintRefresh _ access => IsAccess cfg (some deviceId) access
  | .store _ access refresh _ => IsAccess cfg (some deviceId) access ∧
    refresh.claims.deviceId = some deviceId
  | _ => True

def LogoutEnded (env : AuthEnv) (claims : Claims) (allDevices : Bool) : LogoutPhase → Prop
  | .active deviceId => claims.deviceId = some deviceId
  | .remaining => True
  | .invalidate seconds => claims.exp * 1000 ≤ (env.now : Int) + seconds * 1000
  | .revokeAll _ => allDevices = true
  | .deactivate deviceId phase => claims.deviceId = some deviceId ∧ Blocked env claims ∧
    (phase ≠ .user → phase ≠ .update → Inactive env deviceId)

def CallEnded (cfg : AuthConfig) (env : AuthEnv) : AuthCall → Prop
  | .refresh before claims phase => RefreshEnded cfg env before claims phase
  | .authenticate deviceId phase => AuthenticateEnded cfg deviceId phase
  | .deactivate .. => True
  | .logout claims _ allDevices phase => Created env claims ∧
    (allDevices = false → ∃ deviceId ∈ claims.deviceId, deviceId ≠ "") ∧
      LogoutEnded env claims allDevices phase
  | .check before claims phase => (∀ a ∈ before.loggedOut, Ended env a) ∧
    ∀ deviceId, phase = .device deviceId → claims.deviceId = some deviceId ∧
      (claims ∈ before.loggedOut → MarkedSince env claims)

structure LogoutInvariant (cfg : AuthConfig) (s : AuthState) : Prop where
  env : EnvInvariant cfg s.env
  answered : ∀ a ∈ s.answered.loggedOut, Ended s.env a
  running : ∀ call ∈ s.running, CallEnded cfg s.env call
  sessions : ∀ pair ∈ s.sessions, IsAccess cfg pair.2.claims.deviceId pair.1
  refreshed : ∀ p ∈ s.refreshed, OtherDevices p.1 p.2
  accepted : ∀ p ∈ s.accepted, p.2 ∈ p.1.loggedOut → p.2.exp ≠ p.2.iat + cfg.manager.ttl .access

end

section

variable {cfg : AuthConfig} {env env' : AuthEnv} {s s' : AuthState} {input : StepInput}
  {call : AuthCall} {next : Option AuthCall} {claims : Claims}

theorem Created.mono (h : Created env claims) (hle : EnvLE env env') : Created env' claims := by
  obtain ⟨t, ht, heq⟩ := h
  exact ⟨t, hle.minted ht, heq⟩

theorem MarkedSince.mono (h : MarkedSince env claims) (hle : EnvLE env env') : MarkedSince env' claims := by
  obtain ⟨p, hp, hsi⟩ := h
  exact ⟨p, hle.marks hp, hsi⟩

def KeepsBlocked (env env' : AuthEnv) : Prop :=
  ∀ claims, Created env claims → Blocked env claims → Blocked env' claims

theorem Ended.mono (h : Ended env claims) (hle : EnvLE env env') (hke : KeepsBlocked env env') :
    Ended env' claims := by
  obtain ⟨deviceId, hde, hin⟩ := h.device
  exact ⟨h.created.mono hle, ⟨deviceId, hde, hle.inactive deviceId hin⟩, hke claims h.created h.blocked⟩

variable {before : Before}

theorem RefreshEnded.mono {phase : RefreshPhase}
    (h : RefreshEnded cfg env before claims phase) (hle : EnvLE env env') :
    RefreshEnded cfg env' before claims phase := by
  cases phase with
  | lookup deviceId =>
    refine ⟨h.1, fun a ha => ?_⟩
    obtain ⟨deviceId', hde, hin⟩ := h.2 a ha
    exact ⟨deviceId', hde, hle.inactive deviceId' hin⟩
  | mintAccess | mintRefresh | rotate => exact h

variable {allDevices : Bool} {phase : LogoutPhase}

theorem LogoutEnded.mono (hcr : Created env claims)
    (h : LogoutEnded env claims allDevices phase) (hle : EnvLE env env')
    (hke : KeepsBlocked env env') : LogoutEnded env' claims allDevices phase := by
  cases phase with
  | active | remaining | revokeAll => exact h
  | invalidate seconds =>
    have hn := hle.now
    simp only [LogoutEnded] at h ⊢
    omega
  | deactivate deviceId phase =>
    obtain ⟨hde, hb, hin⟩ := h
    exact ⟨hde, hke claims hcr hb, fun hus hu => hle.inactive deviceId (hin hus hu)⟩

theorem CallEnded.mono (h : CallEnded cfg env call) (hle : EnvLE env env')
    (hke : KeepsBlocked env env') : CallEnded cfg env' call := by
  cases call with
  | refresh before claims phase => exact RefreshEnded.mono h hle
  | authenticate | deactivate => exact h
  | logout claims userId allDevices phase =>
    obtain ⟨hcr, hde, hp⟩ := h
    exact ⟨hcr.mono hle, hde, hp.mono hcr hle hke⟩
  | check before claims phase =>
    refine ⟨fun a ha => (h.1 a ha).mono hle hke, fun deviceId hp => ?_⟩
    obtain ⟨hde, hm⟩ := h.2 deviceId hp
    exact ⟨hde, fun hcl => (hm hcl).mono hle⟩

theorem keepsBlocked_tick (env : AuthEnv) (ms : Nat) :
    KeepsBlocked env { env with now := env.now + ms } := by
  intro claims _ hb
  cases hb with
  | expired he =>
    refine .expired ?_
    unfold timestamp at he ⊢
    push_cast
    omega
  | invalidated deadline hk hd => exact .invalidated deadline hk hd
  | marked hm => exact .marked hm

variable {userId : Uuid}

theorem LogoutCase.invalidated_or {result : CallStep LogoutPhase (Except AppError Unit)}
    (h : LogoutCase cfg env input claims userId allDevices phase (env', result)) :
    env'.invalidated = env.invalidated ∨ ∃ seconds, phase = .invalidate seconds ∧
      env.invalidated.setEx env.now (invalidatedTokenKey claims.jti) () seconds = some env'.invalidated := by
  cases h with
  | invalidated seconds invalidated result hk hr => exact .inr ⟨seconds, rfl, hk⟩
  | deactivates _ _ _ _ hca | deactivated _ _ _ _ hca | failed _ _ _ _ hca =>
    cases hca <;> exact .inl rfl
  | refused | inactive | active | lives | expired | revokes => exact .inl rfl

theorem AdvanceCase.invalidated_or (h : AdvanceCase cfg s input call (s', next)) :
    s'.env.invalidated = s.env.invalidated ∨ ∃ claims userId allDevices seconds,
      call = .logout claims userId allDevices (.invalidate seconds) ∧
        s.env.invalidated.setEx s.env.now (invalidatedTokenKey claims.jti) () seconds = some s'.env.invalidated := by
  cases h with
  | failed _ _ _ _ hin => exact .inl hin
  | refreshes _ _ _ _ _ hca | refreshed _ _ _ _ _ hca => cases hca <;> exact .inl rfl
  | authenticates _ _ _ _ hca | authenticated _ _ _ _ hca => cases hca <;> exact .inl rfl
  | deactivates _ _ _ _ _ hca | deactivated _ _ _ _ _ hca => cases hca <;> exact .inl rfl
  | logsOut claims userId allDevices phase _ _ hca
  | logoutFailed claims userId allDevices phase _ _ hca
  | loggedOut claims userId allDevices phase _ _ _ hca =>
    rcases hca.invalidated_or with heq | ⟨seconds, rfl, hk⟩
    · exact .inl heq
    · exact .inr ⟨claims, userId, allDevices, seconds, rfl, hk⟩
  | checks | accepts => exact .inl rfl

theorem blocked_of_setEx {seconds : Nat} (hset : env'.invalidated =
      env.invalidated.set env.now (invalidatedTokenKey claims.jti) () (some seconds))
    (hs : LogoutEnded env claims allDevices (.invalidate seconds)) : Blocked env' claims := by
  refine .invalidated (env.now + seconds * 1000) ?_ ?_
  · rw [hset]
    exact set_apply_self
  · simp only [LogoutEnded] at hs
    omega

theorem keepsBlocked_advance (hinv : EnvInvariant cfg s.env) (hcal : CallEnded cfg s.env call)
    (hca : AdvanceCase cfg s input call (s', next)) : KeepsBlocked s.env s'.env := by
  intro claims hcr hb
  cases hb with
  | expired he => exact .expired (hca.envStep.now_eq ▸ he)
  | marked hm => exact .marked (hm.mono hca.envStep.le)
  | invalidated deadline hk hd =>
    rcases hca.invalidated_or with heq | ⟨claims', userId, allDevices, seconds, rfl, hset⟩
    · exact .invalidated deadline (heq ▸ hk) hd
    · obtain ⟨-, -, hset⟩ := setEx_eq_some_iff.mp hset
      obtain ⟨⟨t', ht', rfl⟩, -, hs⟩ := hcal
      obtain ⟨t, ht, rfl⟩ := hcr
      by_cases hjt : t.claims.jti = t'.claims.jti
      · -- Tokens with one id are the same, so the deadline is again that of the token.
        obtain rfl := hinv.eq_of_jti_eq ht ht' hjt
        exact blocked_of_setEx hset hs
      · refine .invalidated deadline ?_ hd
        have hne : invalidatedTokenKey t.claims.jti ≠ invalidatedTokenKey t'.claims.jti := fun heq =>
          hjt (String.append_right_inj _ |>.mp heq)
        rw [hset, set_apply_of_ne hne]
        exact hk

/-! ### The steps of the calls -/

theorem afterLookup_eq_next {phase : RefreshPhase} (h : .next phase = afterLookup claims) :
    ∃ userId, phase = .mintAccess userId := by
  unfold afterLookup at h
  split at h
  · cases h
  · rename_i userId hu
    cases h
    exact ⟨userId, rfl⟩

variable {pair : TokenPair}

theorem afterLookup_ne_ok : .done (.ok pair) ≠ afterLookup claims := by
  unfold afterLookup
  split <;> nofun

theorem RefreshEnded.of_next {phase phase' : RefreshPhase} (h : RefreshEnded cfg env before claims phase)
    (hca : RefreshCase cfg env input claims phase (env', .next phase')) :
    RefreshEnded cfg env' before claims phase' := by
  cases hca with
  | looked deviceId _ hac hr =>
    obtain ⟨userId, rfl⟩ := afterLookup_eq_next hr
    intro a ha heq
    obtain ⟨deviceId', hde, hin⟩ := h.2 a ha
    obtain rfl : deviceId' = deviceId := Option.some_inj.mp (hde.symm.trans (heq.trans h.1))
    exact hin hac
  | mintedAccess => exact ⟨h, rfl, rfl⟩
  | mintedRefresh => exact ⟨h.1, h.2, rfl⟩

theorem RefreshEnded.of_done {phase : RefreshPhase} (h : RefreshEnded cfg env before claims phase)
    (hca : RefreshCase cfg env input claims phase (env', .done (.ok pair))) :
    OtherDevices before claims ∧ IsAccess cfg pair.2.claims.deviceId pair.1 := by
  cases hca with
  | looked deviceId _ ha hr => exact absurd hr afterLookup_ne_ok
  | rotated userId access refresh store _ hr =>
    obtain ⟨ho, hac, hre⟩ := h
    rw [hr pair rfl, hre]
    exact ⟨ho, hac⟩

variable {deviceId : String}

theorem AuthenticateEnded.of_next {phase phase' : AuthenticatePhase}
    (h : AuthenticateEnded cfg deviceId phase)
    (hca : AuthenticateCase cfg env input deviceId phase (env', .next phase')) :
    AuthenticateEnded cfg deviceId phase' := by
  cases hca with
  | unblocked | looked => trivial
  | mintedAccess => exact ⟨rfl, rfl⟩
  | mintedRefresh => exact ⟨h, rfl⟩
  | stored => exact h

theorem AuthenticateEnded.of_done {phase : AuthenticatePhase} (h : AuthenticateEnded cfg deviceId phase)
    (hca : AuthenticateCase cfg env input deviceId phase (env', .done (.ok pair))) :
    IsAccess cfg pair.2.claims.deviceId pair.1 := by
  cases hca with
  | returned => exact h.2 ▸ h.1

theorem DeactivateCase.inactive_next {phase phase' : DeactivatePhase}
    (hca : DeactivateCase cfg env input userId deviceId phase (env', .next phase'))
    (h : phase ≠ .user → phase ≠ .update → Inactive env deviceId) (hu : phase' ≠ .update) :
    Inactive env' deviceId := by
  cases hca with
  | found => exact absurd rfl hu
  | updated => exact not_active_deactivateDevice env deviceId
  | marked => exact h nofun nofun

theorem DeactivateCase.inactive_of_ok {phase : DeactivatePhase} {result : DeviceDeactivation}
    (hca : DeactivateCase cfg env input userId deviceId phase (env', .done (.ok result)))
    (hu : phase = .user → input.outcome = .ok → env.users userId ≠ none ∧ env.users userId ≠ some (some deviceId))
    (h : phase ≠ .user → phase ≠ .update → Inactive env deviceId) : Inactive env' deviceId := by
  cases hca with
  | kept _ hok hke =>
    obtain ⟨hs, ho⟩ := hu rfl hok
    rcases hke with hno | hp
    · exact absurd hno hs
    · exact absurd hp ho
  | updated => exact not_active_deactivateDevice env deviceId
  | marked | ended => exact h nofun nofun

theorem logoutEnded_afterInvalidate (h : afterInvalidate claims allDevices = .next phase)
    (hb : Blocked env claims) :
    LogoutEnded env claims allDevices phase := by
  rcases afterInvalidate_eq_next h with ⟨ha, rfl⟩ | ⟨deviceId, hde, rfl⟩
  · exact ha
  · exact ⟨hde, hb, fun hne => absurd rfl hne⟩

theorem LogoutEnded.of_next {phase phase' : LogoutPhase}
    (hcr : Created env claims) (h : LogoutEnded env claims allDevices phase) (hke : KeepsBlocked env env')
    (hca : LogoutCase cfg env input claims userId allDevices phase (env', .next phase')) :
    LogoutEnded env' claims allDevices phase' := by
  cases hca with
  | active => trivial
  | lives seconds hs =>
    simp only [LogoutEnded]
    unfold timestamp at hs
    omega
  | expired _ he hr => exact logoutEnded_afterInvalidate hr.symm (.expired he)
  | invalidated seconds invalidated _ hk hr =>
    obtain ⟨-, -, hset⟩ := setEx_eq_some_iff.mp hk
    rcases hr with hr | ⟨_, hr⟩
    · exact logoutEnded_afterInvalidate hr.symm (blocked_of_setEx hset h)
    · cases hr
  | revokes _ _ _ hr =>
    rcases hr with ⟨_, hr⟩ | hr
    · cases hr
      exact h
    · cases hr
  | deactivates deviceId phase phase' _ hca =>
    obtain ⟨hde, hb, hin⟩ := h
    exact ⟨hde, hke claims hcr hb, fun _ hu => hca.inactive_next hin hu⟩

theorem ended_of_loggedOut (hcal : CallEnded cfg env (.logout claims userId false phase))
    (hca : LogoutCallCareful env input (.logout claims userId false phase))
    (hle : EnvLE env env') (hke : KeepsBlocked env env')
    (hcas : LogoutCase cfg env input claims userId false phase (env', .done (.ok ()))) : Ended env' claims := by
  obtain ⟨hcr, hde, hph⟩ := hcal
  obtain ⟨deviceId', hd', hne⟩ := hde rfl
  cases hcas with
  | inactive deviceId hok hin =>
    refine ⟨hcr, ⟨deviceId, hph, hin⟩, ?_⟩
    rcases hca rfl hok with ha | ⟨p, hp, rfl, hia⟩
    · exact absurd ha hin
    · exact .marked ⟨p, hp, hph, hia⟩
  | expired _ _ hr =>
    exact absurd ((afterInvalidate_eq_done hr.symm).2 deviceId' hd') hne
  | invalidated _ _ _ _ hr =>
    rcases hr with hr | ⟨_, hr⟩
    · exact absurd ((afterInvalidate_eq_done hr.symm).2 deviceId' hd') hne
    · cases hr
  | revokes => cases hph
  | deactivated deviceId phase _ result hcas =>
    obtain ⟨hde, hb, hin⟩ := hph
    refine ⟨hcr.mono hle, ⟨deviceId, hde, hcas.inactive_of_ok ?_ hin⟩, hke claims hcr hb⟩
    rintro rfl
    exact hca

theorem markedSince_of_check (h : Ended env claims) (hl : timestamp env.now < claims.exp)
    (hk : env.invalidated.get env.now (invalidatedTokenKey claims.jti) = none) : MarkedSince env claims := by
  cases h.blocked with
  | expired he => exact absurd hl (by omega)
  | invalidated deadline hk' hd =>
    have hle : env.now ≤ deadline := by
      unfold timestamp at hl
      omega
    rw [get_of_le hk' hle] at hk
    cases hk
  | marked hm => exact hm

theorem CallEnded.advance (h : CallEnded cfg s.env call)
    (hca : LogoutCallCareful s.env input call) (hke : KeepsBlocked s.env s'.env)
    (hcas : AdvanceCase cfg s input call (s', next)) : ∀ call' ∈ next, CallEnded cfg s'.env call' := by
  have hle := hcas.envStep.le
  rintro call' hc'
  cases hcas with
  | failed | refreshed | authenticated | deactivated | logoutFailed | loggedOut | accepts => cases hc'
  | refreshes before claims phase phase' env hcas =>
    cases hc'
    exact RefreshEnded.of_next h hcas
  | authenticates deviceId phase phase' env hcas =>
    cases hc'
    exact AuthenticateEnded.of_next h hcas
  | deactivates =>
    cases hc'
    trivial
  | logsOut claims userId allDevices phase phase' env hcas =>
    cases hc'
    obtain ⟨hcr, hde, hp⟩ := h
    exact ⟨hcr.mono hle, hde, hp.of_next hcr hke hcas⟩
  | checks before claims phase phase' hp =>
    cases hc'
    obtain ⟨rfl, hk, deviceId, rfl, hde⟩ := check_next hp
    refine ⟨h.1, fun deviceId' heq => ?_⟩
    cases heq
    exact ⟨hde, fun hcl => markedSince_of_check (h.1 claims hcl) hca hk⟩

theorem LogoutInvariant.answered_advance (h : LogoutInvariant cfg s)
    (hcal : CallEnded cfg s.env call) (hca : LogoutCallCareful s.env input call)
    (hke : KeepsBlocked s.env s'.env) (hcas : AdvanceCase cfg s input call (s', next)) :
    ∀ a ∈ s'.answered.loggedOut, Ended s'.env a := by
  have hle := hcas.envStep.le
  cases hcas with
  | loggedOut claims userId allDevices phase env answered han hcas =>
    subst han
    intro a ha
    cases allDevices with
    | true => exact (h.answered a ha).mono hle hke
    | false =>
      rcases mem_cons.mp ha with rfl | ha
      · exact ended_of_loggedOut hcal hca hle hke hcas
      · exact (h.answered a ha).mono hle hke
  | _ => exact fun a ha => (h.answered a ha).mono hle hke

theorem LogoutInvariant.sessions_advance (h : LogoutInvariant cfg s)
    (hcal : CallEnded cfg s.env call) (hca : AdvanceCase cfg s input call (s', next)) :
    ∀ pair ∈ s'.sessions, IsAccess cfg pair.2.claims.deviceId pair.1 := by
  cases hca with
  | refreshed before claims phase env pair hca =>
    exact forall_mem_cons.mpr ⟨(RefreshEnded.of_done hcal hca).2, h.sessions⟩
  | authenticated deviceId phase env pair hca =>
    exact forall_mem_cons.mpr ⟨AuthenticateEnded.of_done hcal hca, h.sessions⟩
  | _ => exact h.sessions

theorem LogoutInvariant.refreshed_advance (h : LogoutInvariant cfg s)
    (hcal : CallEnded cfg s.env call) (hca : AdvanceCase cfg s input call (s', next)) :
    ∀ p ∈ s'.refreshed, OtherDevices p.1 p.2 := by
  cases hca with
  | refreshed before claims phase env pair hca =>
    exact forall_mem_cons.mpr ⟨(RefreshEnded.of_done hcal hca).1, h.refreshed⟩
  | _ => exact h.refreshed

theorem LogoutInvariant.accepted_advance (h : LogoutInvariant cfg s)
    (hcal : CallEnded cfg s.env call) (hca : LogoutCallCareful s.env input call)
    (hcas : AdvanceCase cfg s input call (s', next)) :
    ∀ p ∈ s'.accepted, p.2 ∈ p.1.loggedOut → p.2.exp ≠ p.2.iat + cfg.manager.ttl .access := by
  cases hcas with
  | accepts before claims phase hp =>
    refine forall_mem_cons.mpr ⟨fun hcl he => ?_, h.accepted⟩
    rcases check_accepts hp with ⟨-, -, hno⟩ | ⟨deviceId, rfl, hno⟩
    · obtain ⟨deviceId, hde, -⟩ := (hcal.1 claims hcl).device
      rw [hno] at hde
      cases hde
    · obtain ⟨hde, hm⟩ := hcal.2 deviceId rfl
      obtain ⟨⟨deviceId', time⟩, hma, hd', hia⟩ := hm hcl
      cases Option.some_inj.mp (hde.symm.trans hd')
      have hbe : claims.exp ≤ timestamp time + cfg.manager.ttl .access :=
        he.le.trans (Int.add_le_add_right hia _)
      have hs := h.env.marker_isSome hma hbe hca
      rw [hno] at hs
      cases hs
  | _ => exact h.accepted

end

section

variable {cfg : AuthConfig} {s s' : AuthState} {as : List AuthAction} {call : AuthCall}
  {devices : String → Option DeviceRow} {users : Uuid → Option (Option String)}

theorem LogoutInvariant.start (h : LogoutInvariant cfg s) (hca : CallEnded cfg s.env call) :
    LogoutInvariant cfg { s with running := s.running ++ [call] } where
  env := h.env
  answered := h.answered
  running call' hc' := by
    rcases mem_append.mp hc' with hc' | hc'
    · exact h.running call' hc'
    · rwa [mem_singleton.mp hc']
  sessions := h.sessions
  refreshed := h.refreshed
  accepted := h.accepted

theorem LogoutInvariant.step {a : AuthAction} (h : LogoutInvariant cfg s)
    (hca : LogoutCareful cfg s a) (hst : s.step cfg a = some s') : LogoutInvariant cfg s' := by
  cases step_case hst with
  | tick ms =>
    have hle : EnvLE s.env { s.env with now := s.env.now + ms } := .tick s.env ms
    have hke := keepsBlocked_tick s.env ms
    exact ⟨h.env.tick ms, fun a ha => (h.answered a ha).mono hle hke,
      fun call hcal => (h.running call hcal).mono hle hke, h.sessions, h.refreshed, h.accepted⟩
  | refused => exact h
  | refresh token claims phase hf =>
    refine h.start ?_
    cases phase with
    | lookup deviceId => exact ⟨hf, fun a ha => (h.answered a ha).device⟩
    | mintAccess userId =>
      intro a ha heq
      obtain ⟨deviceId, hde, -⟩ := (h.answered a ha).device
      rw [heq, hf] at hde
      cases hde
    | mintRefresh | rotate => cases hf
  | authenticate | deactivate => exact h.start trivial
  | logout token allDevices claims userId phase hv hf =>
    obtain ⟨hu, hde⟩ := hca
    obtain ⟨t, ht, rfl, -, -⟩ := exists_minted_of_verifyToken hv hu
    refine h.start ⟨⟨t, ht, rfl⟩, fun hal => hde hal _ hv, ?_⟩
    cases phase with
    | active deviceId => exact hf
    | remaining => trivial
    | invalidate | revokeAll | deactivate => cases hf
  | check metadata claims hv => exact h.start ⟨h.answered, nofun⟩
  | step i input call s'' next hcal hcas =>
    have hca := hca call hcal
    have hen := h.running call (mem_of_getElem? hcal)
    have hke := keepsBlocked_advance h.env hen hcas
    have hle := hcas.envStep.le
    have han := h.answered_advance hen hca hke hcas
    have hse := h.sessions_advance hen hcas
    have hre := h.refreshed_advance hen hcas
    have hac := h.accepted_advance hen hca hcas
    refine ⟨h.env.step hcas.envStep, han, fun call' hc' => ?_, hse, hre, hac⟩
    rcases mem_or_mem_of_replace hc' with hc' | hc'
    · exact (h.running call' (hcas.running_eq ▸ hc')).mono hle hke
    · exact hen.advance hca hke hcas call' hc'

theorem logoutInvariant_init : LogoutInvariant cfg (.init devices users) where
  env := envInvariant_init devices users
  answered := by rintro _ ⟨⟩
  running := by rintro _ ⟨⟩
  sessions := by rintro _ ⟨⟩
  refreshed := by rintro _ ⟨⟩
  accepted := by rintro _ ⟨⟩

/-- In a careful run, for every two tokens that were handed out together: after the access token was
logged out no refresh with the refresh token succeeds, and the messaging service does not accept the
access token. -/
theorem logged_out_session_over
    (hcareful : Along (AuthState.step cfg) (LogoutCareful cfg) (.init devices users) as)
    (hrun : run (AuthState.step cfg) (.init devices users) as = some s) : ∀ pair ∈ s.sessions,
      (∀ p ∈ s.refreshed, pair.1.claims ∈ p.1.loggedOut → p.2 ≠ pair.2.claims) ∧
      ∀ p ∈ s.accepted, pair.1.claims ∈ p.1.loggedOut → p.2 ≠ pair.1.claims := by
  have hinv := run_invariant (P := LogoutInvariant cfg)
    (fun h hcareful hstep => h.step hcareful hstep) logoutInvariant_init hcareful hrun
  intro pair hpair
  obtain ⟨hexp, hdevice⟩ := hinv.sessions pair hpair
  constructor
  · intro p hp hloggedOut heq
    exact hinv.refreshed p hp _ hloggedOut (hdevice.trans (congrArg Claims.deviceId heq.symm))
  · intro p hp hloggedOut heq
    rw [← heq] at hloggedOut hexp
    exact hinv.accepted p hp hloggedOut hexp

def demoLogout : List AuthAction :=
  demoSignIn "tablet" ++ [.authenticate "phone" 0 (List.replicate 64 0), demoStep "", demoStep "",
    demoStep "access2", demoStep "refresh2", demoStep "", demoStep "", demoStep "",
    .logout (demoText .access "access" "tablet") false, demoStep "", demoStep "", demoStep "",
    demoStep "", demoStep "", demoStep "", demoStep "",
    .refresh (demoText .refresh "refresh" "tablet"), demoStep "",
    .check (demoBearer (demoText .access "access" "tablet")), demoStep "",
    .refresh (demoText .refresh "refresh2" "phone"), demoStep "", demoStep "access3",
    demoStep "refresh3", demoStep ""]

theorem demoLogout_over :
    ∃ s, run (AuthState.step demoConfig) (.init demoDevices demoUsers) demoLogout = some s ∧
      s.refreshed.map (fun p => (p.1.loggedOut.map Claims.jti, p.2.jti)) = [(["access"], "refresh2")] ∧
      s.accepted.map (fun p => p.2.jti) = [] ∧ ∀ pair ∈ s.sessions,
        (∀ p ∈ s.refreshed, pair.1.claims ∈ p.1.loggedOut → p.2 ≠ pair.2.claims) ∧
        ∀ p ∈ s.accepted, pair.1.claims ∈ p.1.loggedOut → p.2 ≠ pair.1.claims :=
  reaches_with₂ (by decide +kernel) fun _ hrun _ _ => logged_out_session_over (by decide +kernel) hrun

def demoPrimaryLogout : List AuthAction :=
  demoSignIn "phone" ++ [.logout (demoText .access "access" "phone") false, demoStep "", demoStep "",
    demoStep "", demoStep "", .refresh (demoText .refresh "refresh" "phone"), demoStep "",
    demoStep "access2", demoStep "refresh2", demoStep ""]

/-- The refresh token of the primary device is as good after a logout as before. -/
theorem primary_refreshes_after_logout :
    ∃ s, run (AuthState.step demoConfig) (.init demoDevices demoUsers) demoPrimaryLogout = some s ∧
      ∃ pair ∈ s.sessions, ∃ p ∈ s.refreshed, pair.1.claims ∈ p.1.loggedOut ∧ p.2 = pair.2.claims :=
  reaches _ _ _ _ (by decide +kernel)

end

end ConstructServer.Auth
