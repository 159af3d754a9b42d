import ConstructServer.Identity.Accounts

/-!
# A recovery that fails

A recovery commits its steps one by one: it deactivates the devices of the account, marks them
revoked, deletes the refresh tokens, and only then checks the signed pre-key of the new device and
inserts it. Where a later step fails, what came before it stays. A failed recovery leaves the
account as it was exactly if its claim is refused, or if there was nothing to take away and the new
device is refused.
-/

namespace ConstructServer.Identity

open Calls Redis.Keyspace List
open Queue (Bytes)
open Redis (Keyspace)
open Auth (refreshTokenKey userTokensKey revokedDeviceKey)

/-! ### The standing of an account -/

namespace IdentityState

def Owned (s : IdentityState) (user : Uuid) (device : String) : Prop :=
  ∃ row, s.devices.get? device = some row ∧ row.userId = some user

def Active (s : IdentityState) (user : Uuid) (device : String) : Prop :=
  ∃ row, s.devices.get? device = some row ∧ row.userId = some user ∧ row.isActive = true

def primary (s : IdentityState) (user : Uuid) : Option String :=
  ((s.users.get? user).map UserRow.primaryDeviceId).join

def Marked (s : IdentityState) (device : String) : Prop :=
  (s.revokedDevices.get s.now (revokedDeviceKey device)).isSome = true

def Live (s : IdentityState) (jti : String) : Prop :=
  (s.refreshTokens.get s.now (refreshTokenKey jti)).isSome = true

def tokensOf (s : IdentityState) (user : Uuid) : List String :=
  (s.userTokens.get s.now (userTokensKey user.toStr)).getD []

end IdentityState

def Token.Valid (token : Token) (s : IdentityState) : Prop :=
  s.now / 1000 < token.expiresAt ∧
    if token.isRefresh then s.Live token.jti else ¬s.Marked token.deviceId

structure SameStanding (user : Uuid) (s t : IdentityState) : Prop where
  active : ∀ device, t.Active user device ↔ s.Active user device
  primary : t.primary user = s.primary user
  tokens : ∀ token : Token, token.userId = user → (token.Valid t ↔ token.Valid s)

/-! ### The condition -/

structure Claimed (cfg : IdentityConfig) (s : IdentityState) (req : RecoverRequest) (deviceId : String)
    (keys : DevicePublicKeys) (user : Uuid) (row : UserRow) : Prop where
  identifier : req.identifier ≠ ""
  publicKey : req.recoveryPublicKey ≠ []
  signature : req.recoverySignature ≠ []
  length : req.recoveryPublicKey.length = hybridRecoveryKeyLen
  account : s.lookup (recoveryKey cfg req.identifier) = some (user, row)
  claim : checkRecovery cfg s.now row req deviceId keys = .ok ()

def CanMark (cfg : IdentityConfig) (s : IdentityState) : Prop :=
  s.now + max cfg.accessTokenTtl 1 * 1000 ≤ Keyspace.maxDeadline

def GetsOn (cfg : IdentityConfig) (s : IdentityState) (user : Uuid) : Prop :=
  CanMark cfg s ∨ ∀ device, ¬s.Owned user device

/-- The constraints of the table let the row in. -/
structure Admits (cfg : IdentityConfig) (s : IdentityState) (data : CreateDeviceData) (user : Uuid) :
    Prop where
  fits : (cfg.jsonb data.cryptoSuites && fitsDeviceId data.deviceId) = true
  id : s.devices.get? data.deviceId = none
  identityKey : ∀ p ∈ s.devices.rows, p.2.identityPublic ≠ data.identityPublic
  account : (s.users.get? user).isSome = true

def recoveredDevice (cfg : IdentityConfig) (deviceId : String) (keys : DevicePublicKeys) :
    CreateDeviceData :=
  ⟨deviceId, cfg.serverHostname, keys.verifyingKey, keys.identityPublic, keys.signedPrekeyPublic,
    keys.signedPrekeySignature, jsonSuite keys.cryptoSuite, false⟩

/-- There is nothing to take away from the account, and the new device is refused. -/
structure Harmless (cfg : IdentityConfig) (s : IdentityState) (user : Uuid) (deviceId : String)
    (keys : DevicePublicKeys) : Prop where
  inactive : ∀ device, ¬s.Active user device
  marked : CanMark cfg s → ∀ device, s.Owned user device → s.Marked device
  tokens : GetsOn cfg s user → ∀ jti ∈ s.tokensOf user, ¬s.Live jti
  refused : GetsOn cfg s user →
    ¬(verifySpkSignature cfg.crypto keys.verifyingKey keys.signedPrekeyPublic
        keys.signedPrekeySignature = .ok () ∧ Admits cfg s (recoveredDevice cfg deviceId keys) user)

/-- The request fails at its claim, or it is harmless. -/
def HarmlessRequest (cfg : IdentityConfig) (s : IdentityState) (req : RecoverRequest) : Prop :=
  ∀ deviceId keys user row, req.newDevice = some ⟨deviceId, some keys⟩ →
    Claimed cfg s req deviceId keys user row → Harmless cfg s user deviceId keys

variable {cfg : IdentityConfig} {s t t' : IdentityState} {user : Uuid} {deviceId : String}
  {keys : DevicePublicKeys} {req : RecoverRequest} {row : UserRow} {data : CreateDeviceData}

/-! ### What does not change the standing -/

/-- The state differs at most where no standing depends on it: in the other half of a recovery key,
in markers that were there and in refresh tokens that were gone. -/
structure Calm (s t : IdentityState) : Prop where
  now : t.now = s.now
  devices : t.devices = s.devices
  primary : ∀ user, (t.users.get? user).map UserRow.primaryDeviceId =
    (s.users.get? user).map UserRow.primaryDeviceId
  marked : ∀ device, t.Marked device ↔ s.Marked device
  live : ∀ jti, t.Live jti ↔ s.Live jti

theorem Calm.refl : Calm s s := ⟨rfl, rfl, fun _ => rfl, fun _ => Iff.rfl, fun _ => Iff.rfl⟩

theorem Calm.sameStanding (h : Calm s t) : SameStanding user s t := by
  refine ⟨fun device => ?_, ?_, fun token _ => ?_⟩
  · rw [IdentityState.Active, h.devices, IdentityState.Active]
  · exact congrArg Option.join (h.primary user)
  · rw [Token.Valid, Token.Valid, h.now, h.live, h.marked]

theorem Calm.admits (h : Calm s t) : Admits cfg t data user ↔ Admits cfg s data user := by
  have hac : (t.users.get? user).isSome = (s.users.get? user).isSome := by
    rw [← Option.isSome_map, h.primary user, Option.isSome_map]
  constructor
  · rintro ⟨hf, hid, hk, hu⟩
    rw [h.devices] at hid hk
    exact ⟨hf, hid, hk, hac ▸ hu⟩
  · rintro ⟨hf, hid, hk, hu⟩
    rw [← h.devices] at hid hk
    exact ⟨hf, hid, hk, hac ▸ hu⟩

/-! ### Single statements -/

theorem effect_createDevice_of_ok {pick : Pick} (h : s.insertDevice cfg data user = .ok t) :
    s.effect cfg (.createDevice data user) pick = some (.ok (), t) := by
  simp only [IdentityState.effect, h]

namespace IdentityState

def deactivate (s : IdentityState) (user : Uuid) : IdentityState :=
  { s with devices := s.devices.modify fun _ row =>
      if row.userId = some user then { row with isActive := false } else row }

def mark (cfg : IdentityConfig) (s : IdentityState) (device : String) : IdentityState :=
  { s with revokedDevices :=
      s.revokedDevices.set s.now (revokedDeviceKey device) () (some (max cfg.accessTokenTtl 1)) }

def dropToken (s : IdentityState) (jti : String) : IdentityState :=
  { s with refreshTokens := s.refreshTokens.del (refreshTokenKey jti) }

end IdentityState

theorem revokedDeviceKey_injective : Function.Injective revokedDeviceKey := fun _ _ h =>
  String.append_right_inj _ |>.mp h

theorem refreshTokenKey_injective : Function.Injective refreshTokenKey := fun _ _ h =>
  String.append_right_inj _ |>.mp h

variable {device : String}

theorem effect_markDeviceRevoked_iff {pick : Pick} {x : Unit} :
    s.effect cfg (.markDeviceRevoked device) pick = some (x, t) ↔ CanMark cfg s ∧ t = s.mark cfg device := by
  simp only [IdentityState.effect, Option.map_eq_some_iff, setEx_eq_some_iff]
  constructor
  · rintro ⟨ks, ⟨-, hr, rfl⟩, heq⟩
    exact ⟨hr, (Prod.mk.inj heq).2.symm⟩
  · rintro ⟨hr, rfl⟩
    exact ⟨_, ⟨by omega, hr, rfl⟩, rfl⟩

theorem marked_mark {device device' : String} :
    (s.mark cfg device).Marked device' ↔ device' = device ∨ s.Marked device' := by
  unfold IdentityState.Marked IdentityState.mark
  by_cases hde : device' = device
  · rw [hde, get_set_self]
    simp
  · rw [get_set_of_ne (revokedDeviceKey_injective.ne hde), or_iff_right hde]

theorem live_dropToken {jti jti' : String} : (s.dropToken jti).Live jti' ↔ jti' ≠ jti ∧ s.Live jti' := by
  unfold IdentityState.Live IdentityState.dropToken
  by_cases hjt : jti' = jti
  · rw [hjt, get_del_self]
    simp
  · rw [get_del_of_ne (refreshTokenKey_injective.ne hjt), and_iff_right hjt]

theorem owned_deactivate {user' : Uuid} : (s.deactivate user).Owned user' device ↔ s.Owned user' device := by
  unfold IdentityState.Owned IdentityState.deactivate
  simp only [Table.get?_modify, Option.map_eq_some_iff]
  constructor
  · rintro ⟨_, ⟨row, hr, rfl⟩, ho⟩
    refine ⟨row, hr, ?_⟩
    split at ho <;> exact ho
  · rintro ⟨row, hr, ho⟩
    refine ⟨_, ⟨row, hr, rfl⟩, ?_⟩
    split <;> exact ho

theorem deactivate_of_inactive (h : ∀ device, ¬s.Active user device) : s.deactivate user = s := by
  have hr : (s.devices.modify fun _ row =>
      if row.userId = some user then { row with isActive := false } else row) = s.devices := by
    apply Table.modify_eq_self
    intro device row hro
    split
    · rename_i ho
      have hin : row.isActive = false := by
        by_contra ha
        exact h device ⟨row, Table.get?_eq_some_iff.mpr hro, ho, by simpa using ha⟩
      rw [← hin]
    · rfl
  exact congrArg (fun devices => { s with devices }) hr

theorem not_active_deactivate : ¬(s.deactivate user).Active user device := by
  rintro ⟨row, hr, ho, ha⟩
  unfold IdentityState.deactivate at hr
  rw [Table.get?_modify] at hr
  obtain ⟨row', -, rfl⟩ := Option.map_eq_some_iff.mp hr
  split at ha
  · cases ha
  · rename_i hot
    rw [if_neg hot] at ho
    exact hot ho

theorem Admits.deactivate (user' : Uuid) (h : Admits cfg s data user) :
    Admits cfg (s.deactivate user') data user := by
  refine ⟨h.fits, ?_, fun p hp => ?_, h.account⟩
  · rw [IdentityState.deactivate, Table.get?_modify, h.id, Option.map_none]
  · obtain ⟨p', hp', rfl⟩ := mem_map.mp hp
    show DeviceRow.identityPublic (if _ then _ else _) ≠ _
    split <;> exact h.identityKey p' hp'

/-! ### A recovery that is refused or harmless -/

abbrev recoveryAlone : Discipline IdentityStatement (Input Pick) IdentityState Unit :=
  Discipline.alone IdentityStatement (Input Pick) IdentityState Unit

variable {n : Nat}

theorem Calm.updateUser (user : Uuid) (h : Calm s t) {f : UserRow → UserRow}
    (hf : ∀ row, (f row).primaryDeviceId = row.primaryDeviceId) : Calm s (t.updateUser user f) := by
  refine ⟨h.now, h.devices, fun other => ?_, h.marked, h.live⟩
  rw [← h.primary other, IdentityState.updateUser, Table.get?_modify, Option.map_map]
  apply Option.map_congr
  intro row _
  show UserRow.primaryDeviceId (if other = user then f row else row) = row.primaryDeviceId
  split
  · exact hf row
  · rfl

theorem Calm.mark (h : Calm s t) (hm : s.Marked device) : Calm s (t.mark cfg device) := by
  refine ⟨h.now, h.devices, h.primary, fun other => ?_, h.live⟩
  rw [marked_mark, h.marked]
  exact ⟨fun h => h.elim (· ▸ hm) id, .inr⟩

theorem Calm.dropToken (h : Calm s t) {jti : String} (hde : ¬s.Live jti) : Calm s (t.dropToken jti) := by
  refine ⟨h.now, h.devices, h.primary, h.marked, fun other => ?_⟩
  rw [live_dropToken, h.live]
  exact ⟨And.right, fun hl => ⟨fun heq => hde (heq ▸ hl), hl⟩⟩

theorem safe_verifyRecoverySignature : recoveryAlone.Safe (fun _ => identityExec cfg) n ()
      (verifyRecoverySignature cfg req deviceId keys).run
      (endsIn (Calm s) fun user t => (Calm s t ∧ t.userTokens = s.userTokens) ∧
        req.recoveryPublicKey.length = hybridRecoveryKeyLen ∧
        ∃ row, s.lookup (recoveryKey cfg req.identifier) = some (user, row) ∧
          checkRecovery cfg s.now row req deviceId keys = .ok ()) s := by
  refine safe_then (fun _ t => s = t ∧ req.recoveryPublicKey.length = hybridRecoveryKeyLen)
    (safe_ensure (fun hl => ⟨rfl, hl⟩) fun _ => .refl) ?_
  rintro _ _ ⟨rfl, hl⟩
  refine safe_then (fun found t => s = t ∧ found = ⟨s.now, s.lookup (recoveryKey cfg req.identifier)⟩)
    (safe_alone .refl fun he => ?_) ?_
  · cases he
    exact ⟨.refl, rfl, rfl⟩
  rintro _ _ ⟨rfl, rfl⟩
  cases hf : s.lookup (recoveryKey cfg req.identifier) with
  | none => exact .refl
  | some found =>
    obtain ⟨user, row⟩ := found
    refine safe_then (fun _ t => s = t ∧ checkRecovery cfg s.now row req deviceId keys = .ok ())
      (safe_check (fun _ hok => ⟨rfl, hok⟩) .refl) ?_
    rintro _ _ ⟨rfl, hcl⟩
    refine safe_then (fun _ t => Calm s t ∧ t.userTokens = s.userTokens) ?_ fun _ _ ht => ⟨ht, hl, row, rfl, hcl⟩
    unfold completeRecoveryKey
    split
    · refine safe_alone .refl fun he => ?_
      cases he
      have hca := Calm.updateUser user (.refl (s := s)) (f := fun row =>
        if row.recoveryMldsaPublicKey = none then
          { row with recoveryMldsaPublicKey := some (req.recoveryPublicKey.drop 32) }
        else row) fun row => by split <;> rfl
      exact ⟨hca, hca, rfl⟩
    · exact ⟨.refl, rfl⟩

theorem safe_markDevicesRevoked (devices : List String)
    (hm : CanMark cfg s → ∀ device ∈ devices, s.Marked device)
    (ht : Calm s t ∧ t.userTokens = s.userTokens) :
    recoveryAlone.Safe (fun _ => identityExec cfg) n () (markDevicesRevoked devices).run
      (endsIn (Calm s) fun _ t => (Calm s t ∧ t.userTokens = s.userTokens) ∧ (devices ≠ [] → CanMark cfg s)) t := by
  induction devices generalizing t with
  | nil => exact ⟨ht, fun hne => absurd rfl hne⟩
  | cons device devices ih =>
    refine safe_then (fun _ t => (Calm s t ∧ t.userTokens = s.userTokens) ∧ CanMark cfg s)
      (safe_alone ht.1 fun he => ?_) fun _ t ht => ?_
    · obtain ⟨hca, rfl⟩ := effect_markDeviceRevoked_iff.mp he
      have hc' : CanMark cfg s := by rwa [CanMark, ← ht.1.now]
      have hcal : Calm s (t.mark cfg device) := ht.1.mark (hm hc' device mem_cons_self)
      exact ⟨hcal, ⟨hcal, ht.2⟩, hc'⟩
    · refine (ih (fun hca device hde => hm hca device (mem_cons_of_mem _ hde)) ht.1).mono fun r t hr => ?_
      cases r with
      | ok a => exact ⟨hr.1, fun _ => ht.2⟩
      | error e => exact hr

theorem safe_markAccountDevicesRevoked (hma : CanMark cfg s → ∀ device, s.Owned user device → s.Marked device)
    (ht : Calm s t ∧ t.userTokens = s.userTokens) :
    recoveryAlone.Safe (fun _ => identityExec cfg) n () (markAccountDevicesRevoked user).run
      (endsIn (Calm s) fun _ t => (Calm s t ∧ t.userTokens = s.userTokens) ∧ GetsOn cfg s user) t := by
  refine safe_then (fun devices t => (Calm s t ∧ t.userTokens = s.userTokens) ∧
      ∀ device, device ∈ devices ↔ s.Owned user device)
    (safe_alone ht.1 fun he => ?_) fun devices t ht => ?_
  · cases he
    refine ⟨ht.1, ht, fun device => ?_⟩
    rw [ht.1.devices]
    simp [IdentityState.Owned, Table.get?_eq_some_iff]
  · refine (safe_markDevicesRevoked devices (fun hca device hde => hma hca device ((ht.2 device).mp hde)) ht.1).mono
      fun r t hr => ?_
    cases r with
    | error e => exact hr
    | ok a =>
      refine ⟨hr.1, ?_⟩
      by_cases hni : devices = []
      · refine .inr fun device ho => ?_
        have hm := (ht.2 device).mpr ho
        rw [hni] at hm
        cases hm
      · exact .inl (hr.2 hni)

theorem safe_deleteTokens (jtis : List String) (hde : ∀ jti ∈ jtis, ¬s.Live jti) (ht : Calm s t) :
    recoveryAlone.Safe (fun _ => identityExec cfg) n () (deleteTokens jtis).run
      (endsIn (Calm s) fun _ t => Calm s t) t := by
  induction jtis generalizing t with
  | nil => exact ht
  | cons jti jtis ih =>
    refine safe_then (fun _ t => Calm s t) (safe_attempt_alone (fun _ => ht) fun he => ?_)
      fun _ t ht => ih (fun jti hjt => hde jti (mem_cons_of_mem _ hjt)) ht
    cases he
    have hca := ht.dropToken (hde jti mem_cons_self)
    exact ⟨fun _ => hca, hca⟩

theorem safe_revokeAllUserTokens (hde : ∀ jti ∈ s.tokensOf user, ¬s.Live jti)
    (ht : Calm s t ∧ t.userTokens = s.userTokens) :
    recoveryAlone.Safe (fun _ => identityExec cfg) n () (revokeAllUserTokens user.toStr).run
      (endsIn (Calm s) fun _ t => Calm s t) t := by
  refine safe_then (fun r t => Calm s t ∧ ∀ jti ∈ r.toOption.getD [], ¬s.Live jti)
    (safe_attempt_alone (fun _ => ⟨ht.1, nofun⟩) fun he => ?_) fun r t hr => ?_
  · cases he
    refine ⟨fun _ => ⟨ht.1, nofun⟩, ht.1, fun jti hjt => hde jti ?_⟩
    rw [IdentityState.tokensOf, ← ht.1.now, ← ht.2]
    exact hjt
  · refine safe_then (fun _ t => Calm s t) (safe_deleteTokens _ hr.2 hr.1) fun _ t ht => ?_
    refine safe_then (fun _ t => Calm s t) (safe_attempt_alone (fun _ => ht) fun he => ?_) fun _ t ht => ht
    cases he
    have hca : Calm s { t with userTokens := t.userTokens.del (userTokensKey user.toStr) } :=
      ⟨ht.now, ht.devices, ht.primary, ht.marked, ht.live⟩
    exact ⟨fun _ => hca, hca⟩

theorem admits_of_insertDevice (h : s.insertDevice cfg data user = .ok t) : Admits cfg s data user := by
  obtain ⟨hf, hid, hk, hu, -⟩ := insertDevice_eq_ok_iff.mp h
  exact ⟨hf, hid, hk, hu⟩

theorem safe_createDevice_refused (ht : Calm s t) (hn : ¬Admits cfg s data user) {word : String} :
    recoveryAlone.Safe (fun _ => identityExec cfg) n () (createDevice data user word).run
      (endsIn (Calm s) fun _ _ => False) t := by
  refine safe_then (fun created t => Calm s t ∧ ∃ e, created = .error e) (safe_alone ht fun {_ x t'} he => ?_) ?_
  · simp only [IdentityState.effect] at he
    split at he
    · rename_i hin
      exact absurd (ht.admits.mp (admits_of_insertDevice hin)) hn
    · rename_i e _
      cases he
      exact ⟨ht, ht, e, rfl⟩
  · rintro _ t ⟨ht, e, rfl⟩
    exact safe_check_mapError (fun _ h => by cases h) ht

theorem safe_takeOver (h : Harmless cfg s user deviceId keys) (ht : Calm s t ∧ t.userTokens = s.userTokens) :
    recoveryAlone.Safe (fun _ => identityExec cfg) n () (takeOver cfg user deviceId keys).run
      (endsIn (Calm s) fun _ _ => False) t := by
  refine safe_then (fun _ t => Calm s t ∧ t.userTokens = s.userTokens)
    (safe_alone ht.1 fun he => ?_) fun _ t ht => ?_
  · have hin : t.deactivate user = t := by
      refine deactivate_of_inactive fun device => ?_
      rw [IdentityState.Active, ht.1.devices]
      exact h.inactive device
    cases he
    rw [← IdentityState.deactivate, hin]
    exact ⟨ht.1, ht⟩
  refine safe_then _ (safe_markAccountDevicesRevoked h.marked ht) fun _ t ht => ?_
  refine safe_then _ (safe_revokeAllUserTokens (h.tokens ht.2) ht.1) fun _ t ht' => ?_
  refine safe_then (fun _ t => Calm s t ∧ verifySpkSignature cfg.crypto keys.verifyingKey
      keys.signedPrekeyPublic keys.signedPrekeySignature = .ok ())
    (safe_check (fun _ hsp => ⟨ht', hsp⟩) ht') fun _ t hsp => ?_
  have hn : ¬Admits cfg s (recoveredDevice cfg deviceId keys) user :=
    fun ha => h.refused ht.2 ⟨hsp.2, ha⟩
  exact safe_then _ (safe_createDevice_refused hsp.1 hn) fun _ _ => False.elim

theorem safe_recoverAccount (h : HarmlessRequest cfg s req) :
    recoveryAlone.Safe (fun _ => identityExec cfg) n () (recoverAccount cfg req).run
      (endsIn (Calm s) fun _ _ => False) s := by
  refine safe_then (fun _ t => s = t ∧ req.identifier ≠ "") (safe_ensure (fun hid => ⟨rfl, hid⟩) fun _ => .refl) ?_
  rintro _ _ ⟨rfl, hid⟩
  refine safe_then (fun _ t => s = t ∧ req.recoveryPublicKey ≠ [])
    (safe_ensure (fun hk => ⟨rfl, hk⟩) fun _ => .refl) ?_
  rintro _ _ ⟨rfl, hk⟩
  refine safe_then (fun _ t => s = t ∧ req.recoverySignature ≠ [])
    (safe_ensure (fun hsi => ⟨rfl, hsi⟩) fun _ => .refl) ?_
  rintro _ _ ⟨rfl, hsi⟩
  split
  · exact .refl
  · exact .refl
  · rename_i deviceId keys hde
    refine safe_then _ (safe_mapErr safe_verifyRecoverySignature) fun user t ht => ?_
    obtain ⟨hca, hl, row, hac, hcl⟩ := ht
    exact safe_takeOver (h deviceId keys user row hde ⟨hid, hk, hsi, hl, hac, hcl⟩) hca

/-! ### Recoveries that change the account -/

theorem runs_verifyRecoverySignature (h : Claimed cfg s req deviceId keys user row) :
    ∃ users, (∀ other, (users.get? other).isSome = (s.users.get? other).isSome) ∧
      Runs (identityExec cfg) (verifyRecoverySignature cfg req deviceId keys).run s (.ok user) { s with users } := by
  have hco : ∃ users, (∀ other, (users.get? other).isSome = (s.users.get? other).isSome) ∧
      Runs (identityExec cfg) (completeRecoveryKey user row (req.recoveryPublicKey.drop 32)).run s
        (.ok ()) { s with users } := by
    unfold completeRecoveryKey
    split
    · refine ⟨_, fun other => ?_, runs_effect .none rfl⟩
      rw [Table.get?_modify, Option.isSome_map]
    · exact ⟨s.users, fun _ => rfl, rfl, rfl⟩
  obtain ⟨users, hs, hru⟩ := hco
  refine ⟨users, hs, runs_ok (runs_pass h.length) (runs_ok (runs_effect .none rfl) ?_)⟩
  simp only [h.account]
  exact runs_ok (runs_passed h.claim) (runs_ok hru ⟨rfl, rfl⟩)

theorem runs_recoverAccount (h : Claimed cfg s req deviceId keys user row)
    (hde : req.newDevice = some ⟨deviceId, some keys⟩) :
    ∃ users, (∀ other, (users.get? other).isSome = (s.users.get? other).isSome) ∧
      ∀ {r t}, Runs (identityExec cfg) (takeOver cfg user deviceId keys).run { s with users } r t →
        Runs (identityExec cfg) (recoverAccount cfg req).run s r t := by
  obtain ⟨users, hs, hru⟩ := runs_verifyRecoverySignature h
  refine ⟨users, hs, fun hta => ?_⟩
  refine runs_ok (runs_pass h.identifier) (runs_ok (runs_pass h.publicKey) (runs_ok (runs_pass h.signature) ?_))
  simp only [hde]
  exact runs_ok (runs_mapErr.mpr ⟨_, hru, rfl⟩) hta

theorem runs_markDevicesRevoked (devices : List String) (h : CanMark cfg s) :
    ∃ ks, Runs (identityExec cfg) (markDevicesRevoked devices).run s (.ok ())
        { s with revokedDevices := ks } ∧
      ∀ device, device ∈ devices ∨ s.Marked device →
        IdentityState.Marked { s with revokedDevices := ks } device := by
  induction devices generalizing s with
  | nil => exact ⟨s.revokedDevices, ⟨rfl, rfl⟩, fun _ hde => hde.resolve_left nofun⟩
  | cons device devices ih =>
    obtain ⟨ks, hru, hm⟩ := ih (s := s.mark cfg device) h
    refine ⟨ks, runs_ok (a := ()) (runs_effect .none (effect_markDeviceRevoked_iff.mpr ⟨h, rfl⟩)) hru, ?_⟩
    intro device' hde
    apply hm device'
    rw [marked_mark]
    rcases hde with hme | ho
    · rcases mem_cons.mp hme with heq | hr
      · exact .inr (.inl heq)
      · exact .inl hr
    · exact .inr (.inr ho)

theorem runs_markAccountDevicesRevoked (h : GetsOn cfg s user) :
    ∃ ks, Runs (identityExec cfg) (markAccountDevicesRevoked user).run s (.ok ())
        { s with revokedDevices := ks } ∧
      ∀ device, s.Owned user device → IdentityState.Marked { s with revokedDevices := ks } device := by
  have hl : ∀ device, device ∈ (s.devices.rows.filter fun p => p.2.userId = some user).map Prod.fst ↔
      s.Owned user device := fun device => by
    simp [IdentityState.Owned, Table.get?_eq_some_iff]
  rcases h with hca | hno
  · obtain ⟨ks, hru, hm⟩ := runs_markDevicesRevoked
      ((s.devices.rows.filter fun p => p.2.userId = some user).map Prod.fst) hca
    exact ⟨ks, runs_ok (runs_effect .none rfl) hru, fun device ho => hm device (.inl ((hl device).mpr ho))⟩
  · have hni : (s.devices.rows.filter fun p => p.2.userId = some user).map Prod.fst = [] :=
      eq_nil_iff_forall_not_mem.mpr fun device hde => hno device ((hl device).mp hde)
    refine ⟨s.revokedDevices, runs_ok (runs_effect .none rfl) ?_, fun device ho => absurd ho (hno device)⟩
    rw [hni]
    exact ⟨rfl, rfl⟩

theorem runs_deleteTokens (cfg : IdentityConfig) (s : IdentityState) (jtis : List String) :
    ∃ ks, Runs (identityExec cfg) (deleteTokens jtis).run s (.ok ()) { s with refreshTokens := ks } ∧
      ∀ jti, IdentityState.Live { s with refreshTokens := ks } jti → jti ∉ jtis ∧ s.Live jti := by
  induction jtis generalizing s with
  | nil => exact ⟨s.refreshTokens, ⟨rfl, rfl⟩, fun _ hl => ⟨nofun, hl⟩⟩
  | cons jti jtis ih =>
    obtain ⟨ks, hru, hl⟩ := ih (s.dropToken jti)
    refine ⟨ks, runs_ok (runs_attempt (runs_effect .none rfl)) hru, fun other hot => ?_⟩
    obtain ⟨hn, ho⟩ := hl other hot
    rw [live_dropToken] at ho
    exact ⟨fun hm => (mem_cons.mp hm).elim ho.1 hn, ho.2⟩

theorem runs_revokeAllUserTokens (cfg : IdentityConfig) (s : IdentityState) (user : Uuid) :
    ∃ ks us, Runs (identityExec cfg) (revokeAllUserTokens user.toStr).run s (.ok ())
        { s with refreshTokens := ks, userTokens := us } ∧
      ∀ jti ∈ s.tokensOf user,
        ¬IdentityState.Live { s with refreshTokens := ks, userTokens := us } jti := by
  obtain ⟨ks, hru, hl⟩ := runs_deleteTokens cfg s (s.tokensOf user)
  refine ⟨ks, _, runs_ok (runs_attempt (runs_effect .none rfl)) (runs_ok hru
    (runs_ok (runs_attempt (runs_effect .none rfl)) ⟨rfl, rfl⟩)), fun jti hjt hst => ?_⟩
  exact (hl jti hst).1 hjt

theorem runs_takeAway (deviceId : String) (keys : DevicePublicKeys) (h : GetsOn cfg s user) :
    ∃ t : IdentityState, t.now = s.now ∧ t.users = s.users ∧ t.devices = (s.deactivate user).devices ∧
      (∀ device, s.Owned user device → t.Marked device) ∧ (∀ jti ∈ s.tokensOf user, ¬t.Live jti) ∧
      ∀ {e t'}, Runs (identityExec cfg) (do
          check (verifySpkSignature cfg.crypto keys.verifyingKey keys.signedPrekeyPublic
            keys.signedPrekeySignature)
          createDevice (recoveredDevice cfg deviceId keys) user "").run t (.error e) t' →
        Runs (identityExec cfg) (takeOver cfg user deviceId keys).run s (.error e) t' := by
  have hon : GetsOn cfg (s.deactivate user) user :=
    h.imp id fun hno device ho => hno device (owned_deactivate.mp ho)
  obtain ⟨ks, hm, hma⟩ := runs_markAccountDevicesRevoked hon
  obtain ⟨tokens, lists, hdr, hde⟩ := runs_revokeAllUserTokens cfg
    { s.deactivate user with revokedDevices := ks } user
  refine ⟨{ s.deactivate user with revokedDevices := ks, refreshTokens := tokens, userTokens := lists },
    rfl, rfl, rfl, fun device ho => hma device (owned_deactivate.mpr ho), hde,
    fun hr => ?_⟩
  refine runs_ok (runs_effect .none rfl) (runs_ok hm (runs_ok hdr ?_))
  rcases runs_andThen.mp hr with ⟨a, t₁, hch, hcr⟩ | ⟨e, he, hch⟩
  · exact runs_ok hch (runs_error hcr)
  · cases he
    exact runs_error hch

theorem runs_takeOver_failed (deviceId : String) (keys : DevicePublicKeys) (h : GetsOn cfg s user) :
    ∃ e t, Runs (identityExec cfg) (takeOver cfg user deviceId keys).run s (.error e) t ∧
      t.now = s.now ∧ (∀ device, s.Owned user device → t.Marked device) ∧
        ∀ jti ∈ s.tokensOf user, ¬t.Live jti := by
  obtain ⟨t, hn, -, -, hm, hde, hru⟩ :=
    runs_takeAway deviceId keys h
  cases hsp : verifySpkSignature cfg.crypto keys.verifyingKey keys.signedPrekeyPublic
      keys.signedPrekeySignature with
  | error e => exact ⟨e, t, hru (runs_error ⟨hsp.symm, rfl⟩), hn, hm, hde⟩
  | ok a =>
    exact ⟨_, t, hru (runs_ok (runs_passed hsp) (runs_error (runs_failure .none))), hn, hm, hde⟩

theorem runs_takeOver_created (h : GetsOn cfg s user)
    (hsp : verifySpkSignature cfg.crypto keys.verifyingKey keys.signedPrekeyPublic
      keys.signedPrekeySignature = .ok ()) (ha : Admits cfg s (recoveredDevice cfg deviceId keys) user) :
    ∃ e t, Runs (identityExec cfg) (takeOver cfg user deviceId keys).run s (.error e) t ∧
      t.Active user deviceId := by
  obtain ⟨t, -, hu, hde, -, -, hru⟩ :=
    runs_takeAway deviceId keys h
  obtain ⟨hf, hid, hk, hus⟩ := ha.deactivate user
  rw [← hde] at hid hk
  have hin := insertDevice_eq_ok_iff.mpr ⟨hf, hid, hk, hu ▸ hus, rfl⟩
  refine ⟨_, _, hru (runs_ok (runs_passed hsp) (runs_error (runs_lost .none (effect_createDevice_of_ok hin)))), ?_⟩
  refine ⟨(recoveredDevice cfg deviceId keys).row user t.now, ?_, rfl, rfl⟩
  show (t.devices.insertNew deviceId _).get? deviceId = _
  rw [Table.get?_insertNew_self, show t.devices.get? deviceId = none from hid, Option.none_or]

/-! ### Every failed recovery -/

/-- **When a failed recovery is harmless.** A recovery that answers with an error leaves the active
devices, the primary device and the tokens as they were, whatever fails, exactly if its claim is
refused, or there is nothing to take away and the new device is refused. -/
theorem failed_recovery_unchanged_iff (cfg : IdentityConfig) (s : IdentityState) (req : RecoverRequest) :
    (∀ e t, Runs (identityExec cfg) (recoverAccount cfg req).run s (.error e) t →
      ∀ user row, s.lookup (recoveryKey cfg req.identifier) = some (user, row) → SameStanding user s t) ↔
      HarmlessRequest cfg s req := by
  constructor
  · intro h deviceId keys user row hdevice hclaimed
    obtain ⟨users, hsome, hruns⟩ := runs_recoverAccount hclaimed hdevice
    -- The state in which the take-over begins.
    let s₁ : IdentityState := { s with users }
    have hsame : ∀ {e t}, Runs (identityExec cfg) (takeOver cfg user deviceId keys).run s₁ (.error e) t →
        SameStanding user s t := fun htake => h _ _ (hruns htake) user row hclaimed.account
    refine ⟨fun device hactive => ?_, fun hcan device howned => ?_, fun hon jti hjti hlive => ?_,
      fun hon hcreates => ?_⟩
    · -- The statement that deactivates the devices takes effect, and its answer is lost.
      have hlost : Runs (identityExec cfg) (takeOver cfg user deviceId keys).run s₁ (.error _)
          (s₁.deactivate user) := runs_error (runs_lost .none rfl)
      exact not_active_deactivate (((hsame hlost).active device).mpr hactive)
    · obtain ⟨e, t, htake, hnow, hmarked, -⟩ :=
        runs_takeOver_failed (s := s₁) deviceId keys (.inl hcan)
      by_contra hnot
      have hvalid : Token.Valid ⟨"", false, user, device, s.now / 1000 + 1⟩ s :=
        ⟨Nat.lt_succ_self _, hnot⟩
      exact (((hsame htake).tokens _ rfl).mpr hvalid).2 (hmarked device howned)
    · obtain ⟨e, t, htake, hnow, -, hdead⟩ :=
        runs_takeOver_failed (s := s₁) deviceId keys hon
      have hvalid : Token.Valid ⟨jti, true, user, "", s.now / 1000 + 1⟩ s :=
        ⟨Nat.lt_succ_self _, hlive⟩
      exact hdead jti hjti (((hsame htake).tokens _ rfl).mpr hvalid).2
    · obtain ⟨hspk, hadmits⟩ := hcreates
      have hadmits₁ : Admits cfg s₁ (recoveredDevice cfg deviceId keys) user :=
        ⟨hadmits.fits, hadmits.id, hadmits.identityKey, (hsome user).trans hadmits.account⟩
      obtain ⟨e, t, htake, hactive⟩ := runs_takeOver_created (s := s₁) hon hspk hadmits₁
      obtain ⟨row', hrow', -⟩ := ((hsame htake).active deviceId).mp hactive
      cases hrow'.symm.trans hadmits.id
  · intro h e t hruns user row _
    exact Calm.sameStanding ((safe_recoverAccount (n := 0) h).of_runs hruns)

/-! ### A recovery with a bad signed pre-key -/

def phoneAccount : IdentityState where
  __ := demoAccounts
  devices := Table.empty.insertNew "d" (CreateDeviceData.row ⟨"d", "h", replicate 32 0,
    replicate 16 1, [0], replicate 64 0, "[]", false⟩ demoUser 0)
  refreshTokens := Keyspace.set .empty 0 (refreshTokenKey "r") demoUser.toStr none
  userTokens := Keyspace.set .empty 0 (userTokensKey demoUser.toStr) ["r"] none

@[irreducible] def badPrekeyRecovery : RecoverRequest where
  identifier := demoUser.toStr
  recoveryPublicKey := replicate hybridRecoveryKeyLen 0
  recoverySignature := [0]
  timestamp := 0
  newDevice := some ⟨"x", some { demoDeviceKeys 2 with signedPrekeySignature := [] }⟩

/-- The recovery is refused, and the account has no active device any more. -/
theorem failed_recovery_locks_out :
    ∃ e t, Runs (identityExec demoConfig) (recoverAccount demoConfig badPrekeyRecovery).run phoneAccount
        (.error e) t ∧
          (phoneAccount.lookup (recoveryKey demoConfig badPrekeyRecovery.identifier)).map Prod.fst =
        some demoUser ∧ phoneAccount.Active demoUser "d" ∧ (∀ device, ¬t.Active demoUser device) ∧
      ¬SameStanding demoUser phoneAccount t := by
  have hend : (execute (identityExec demoConfig) (recoverAccount demoConfig badPrekeyRecovery).run
      (replicate 8 ⟨.ok, .none⟩) phoneAccount).map
        (fun p => (p.1.toOption.isNone, p.2.devices.rows.all fun q => !q.2.isActive)) =
          some (true, true) := by decide +kernel
  obtain ⟨⟨r, t⟩, hexecute, hout⟩ := Option.map_eq_some_iff.mp hend
  obtain ⟨hrefused, hall⟩ := Prod.mk.inj hout
  have hactive : phoneAccount.Active demoUser "d" := ⟨_, rfl, rfl, rfl⟩
  have hnone : ∀ device, ¬t.Active demoUser device := by
    rintro device ⟨row, hrow, -, hon⟩
    have hoff := all_eq_true.mp hall _ (Table.get?_eq_some_iff.mp hrow)
    rw [hon] at hoff
    cases hoff
  have hruns := runs_of_execute hexecute
  cases r with
  | ok response => cases hrefused
  | error e =>
    exact ⟨e, t, hruns, by decide +kernel, hactive, hnone,
      fun hsame => hnone "d" ((hsame.active "d").mpr hactive)⟩

end ConstructServer.Identity
