import ConstructServer.Identity.Accounts

/-!
# Device ids that certify themselves

The id of a device is meant to be computed from its identity key. A registration checks that it is;
a linked device, a join request and a recovery bring an id of their own, which is stored as it
comes. If all of these name the computed id, then every stored device has it: a join request keeps
its key under its id until it is approved.
-/

namespace ConstructServer.Identity

open Calls Machine Redis.Keyspace List
open Queue (Bytes)
open Redis (Keyspace)

def SelfCertifying (cfg : IdentityConfig) (s : IdentityState) : Prop :=
  ∀ device row, s.devices.get? device = some row → device = computedDeviceId cfg row.identityPublic

def CertifiedJoin (cfg : IdentityConfig) (device : String) (payload : Bytes) : Prop :=
  ∀ data, decodeStored cfg payload = some data →
    device = computedDeviceId cfg data.identityPublic

def CertifiedJoins (cfg : IdentityConfig) (ks : Keyspace Bytes) : Prop :=
  ∀ device c, ks (joinRequestKey device) = some c → CertifiedJoin cfg device c.value

structure Certified (cfg : IdentityConfig) (s : IdentityState) : Prop where
  devices : SelfCertifying cfg s
  joins : CertifiedJoins cfg s.joinRequests

def NamesComputedId (cfg : IdentityConfig) : IdentityCall → Prop
  | .recover req => ∀ device ∈ req.newDevice, ∀ keys ∈ device.publicKeys,
      device.deviceId = computedDeviceId cfg keys.identityPublic
  | .confirmLink req => ∀ keys ∈ req.publicKeys,
      req.deviceId = computedDeviceId cfg keys.identityPublic
  | .submitJoin req => ∀ data ∈ (req.data cfg).toOption,
      req.pendingDeviceId = computedDeviceId cfg data.identityPublic
  | _ => True

variable {cfg : IdentityConfig} {s s' : IdentityState} {q : IdentityStatement}

/-! ### What one statement does -/

def BringsComputedId (cfg : IdentityConfig) : IdentityStatement → Prop
  | .createDevice data _ | .createUser _ data =>
    data.deviceId = computedDeviceId cfg data.identityPublic
  | .storeJoin device payload => CertifiedJoin cfg device payload
  | _ => True

theorem joinRequestKey_injective : Function.Injective joinRequestKey := fun _ _ h =>
  String.append_right_inj _ |>.mp h

section

variable {ks : Keyspace Bytes} {device : String}

theorem CertifiedJoins.set (h : CertifiedJoins cfg ks) {now : Nat} {payload : Bytes}
    {ttl : Option Nat} (hp : CertifiedJoin cfg device payload) :
    CertifiedJoins cfg (ks.set now (joinRequestKey device) payload ttl) := by
  intro device' c hc
  by_cases hde : device' = device
  · rw [hde, set_apply_self] at hc
    cases hc
    exact hde ▸ hp
  · rw [set_apply_of_ne (joinRequestKey_injective.ne hde)] at hc
    exact h device' c hc

theorem CertifiedJoins.del (h : CertifiedJoins cfg ks) :
    CertifiedJoins cfg (ks.del (joinRequestKey device)) := by
  intro device' c hc
  by_cases hde : device' = device
  · rw [hde, Keyspace.del, Function.update_self] at hc
    cases hc
  · rw [del_apply_of_ne (joinRequestKey_injective.ne hde)] at hc
    exact h device' c hc

end

theorem Certified.insert {data : CreateDeviceData} {user : Uuid} (hs : Certified cfg s)
    (hde : s'.devices = s.devices.insertNew data.deviceId (data.row user s.now))
    (hjo : s'.joinRequests = s.joinRequests)
    (hda : data.deviceId = computedDeviceId cfg data.identityPublic) : Certified cfg s' := by
  refine ⟨fun device row hg => ?_, fun device c hc => ?_⟩
  · rw [hde, Table.get?_insertNew] at hg
    split at hg
    · rename_i heq
      rcases Option.or_eq_some_iff.mp hg with ho | ⟨-, hn⟩
      · exact heq ▸ hs.devices _ row ho
      · cases hn
        exact heq.trans hda
    · exact hs.devices device row hg
  · rw [hjo] at hc
    exact hs.joins device c hc

theorem IdentityEffect.certified (h : IdentityEffect cfg s q s') (hq : BringsComputedId cfg q)
    (hs : Certified cfg s) : Certified cfg s' := by
  cases h with
  | aside | storeMldsa | setPrimaryDevice | markRecoveryUsed | storeApproved | setPow => exact ⟨hs.devices, hs.joins⟩
  | revokeAllDevices user =>
    refine ⟨fun device row hg => ?_, hs.joins⟩
    rw [Table.get?_modify] at hg
    obtain ⟨row', ho, rfl⟩ := Option.map_eq_some_iff.mp hg
    -- Only the flag of a row changes.
    split
    · exact hs.devices device row' ho
    · exact hs.devices device row' ho
  | createDevice hin =>
    obtain ⟨-, -, -, -, rfl⟩ := insertDevice_eq_ok_iff.mp hin
    exact hs.insert rfl rfl hq
  | createUser _ hin =>
    obtain ⟨-, rfl⟩ := insertUser_eq_some hin
    exact hs.insert rfl rfl hq
  | storeJoin device payload => exact ⟨hs.devices, hs.joins.set hq⟩
  | consumeJoin device => exact ⟨hs.devices, hs.joins.del⟩

/-! ### What the calls write -/

/-- The calls promise each other nothing, and name computed ids. -/
def certifiedIds (cfg : IdentityConfig) :
    Discipline IdentityStatement (Input Pick) IdentityState IdentityCall where
  inv := Certified cfg
  fresh _ _ := True
  rely _ _ _ _ := True
  begins c _ := NamesComputedId cfg c
  compat _ _ := True
  care _ _ _ _ := True
  refl _ _ _ := trivial
  trans _ _ := trivial

variable {n : Nat} {c : IdentityCall} {α : Type}

theorem keeps_certified {t t' : IdentityState} (h : Certified cfg t') : (certifiedIds cfg).Keeps n c t t' :=
  ⟨h, fun _ _ _ => trivial, fun _ _ _ _ => trivial⟩

theorem certified_exec {input : Input Pick} {r : Option q.Reply} (hs : Certified cfg s)
    (hq : BringsComputedId cfg q) (he : identityExec cfg q input s = some (r, s')) : Certified cfg s' := by
  cases fallible_case he with
  | failed => exact hs
  | effect hef _ => exact (identityEffect_of_effect hef).certified hq hs

theorem safe_of_brings {p : Program IdentityStatement (fun q => Option q.Reply) α}
    {post : α → IdentityState → Prop} (hp : p.Asks (BringsComputedId cfg)) (hpo : ∀ a t, post a t) :
    (certifiedIds cfg).Safe (fun _ => identityExec cfg) n c p post s :=
  Discipline.safe_of_keeps (fun _ => True) (fun _ _ _ _ => trivial)
    (fun _ _ _ _ _ hq hinv _ _ he => ⟨keeps_certified (certified_exec hinv hq he), trivial⟩)
    (fun a t _ => hpo a t) hp trivial

theorem bringsComputedId_of_aside (q : IdentityStatement) (hq : q.isAside = true) :
    BringsComputedId cfg q := by
  cases q <;> trivial

theorem asks_recoverAccount_certified {req : RecoverRequest} (hre : NamesComputedId cfg (.recover req)) :
    (recoverAccount cfg req).run.Asks (BringsComputedId cfg) := by
  refine asks_recoverAccount bringsComputedId_of_aside (fun _ _ => trivial) (fun _ => trivial) ?_
    (fun _ _ => trivial) fun _ => trivial
  intro device hde keys hke data user hid hk
  show data.deviceId = computedDeviceId cfg data.identityPublic
  rw [hid, hk]
  exact hre device hde keys hke

theorem asks_confirmDeviceLink_certified {req : ConfirmLinkRequest}
    (hre : NamesComputedId cfg (.confirmLink req)) :
    (confirmDeviceLink cfg req).run.Asks (BringsComputedId cfg) := by
  refine asks_confirmDeviceLink bringsComputedId_of_aside fun keys hke data user hid hk => ?_
  show data.deviceId = computedDeviceId cfg data.identityPublic
  rw [hid, hk]
  exact hre keys hke

theorem asks_submitJoinRequest_certified {req : JoinRequestPayload}
    (hre : NamesComputedId cfg (.submitJoin req)) :
    (submitJoinRequest cfg req).run.Asks (BringsComputedId cfg) := by
  refine asks_submitJoinRequest bringsComputedId_of_aside fun data hda stored hst => ?_
  rw [decodeStored, cfg.unpackJoin_packJoin] at hst
  cases hst
  exact hre data (by rw [hda]; rfl)

theorem asks_registerDevice_certified {ip : String} {req : RegisterRequest} :
    (registerDevice cfg ip req).run.Asks (BringsComputedId cfg) :=
  asks_registerDevice bringsComputedId_of_aside (fun _ _ => trivial) fun hid _ => hid.symm

theorem safe_statement_certified {E : Type} {e : E} {post : q.Reply → Prop}
    (hq : BringsComputedId cfg q) (hpo : ∀ {t t' pick x}, Certified cfg t →
      t.effect cfg q pick = some (x, t') → post x) :
    (certifiedIds cfg).Safe (fun _ => identityExec cfg) n c (statement q e).run (onOk fun x _ => post x) s := by
  refine safe_demand fun t input r t' hinv _ _ he => ?_
  refine ⟨keeps_certified (certified_exec hinv hq he), ?_⟩
  cases fallible_case he with
  | failed => trivial
  | effect hef hr =>
    cases r with
    | none => trivial
    | some y => exact hr y rfl ▸ hpo hinv hef

theorem safe_approveJoinRequest_certified {sub : String} {req : ApproveJoinRequest} :
    (certifiedIds cfg).Safe (fun _ => identityExec cfg) n c (approveJoinRequest cfg sub req).run
      (onOk fun _ _ => True) s := by
  have ha : ∀ {β : Type} (r : Except Status β) (t : IdentityState), onOk (fun _ _ => True) r t := by
    rintro β (e | b) t <;> trivial
  refine safe_then (fun _ _ => True) (safe_ensure (fun _ => trivial) fun _ => trivial) fun _ t _ => ?_
  split
  · trivial
  · refine safe_then (fun payload _ => ∀ p ∈ payload, CertifiedJoin cfg req.pendingDeviceId p)
      (safe_statement_certified (q := .consumeJoin _) trivial fun {t t' pick x} ht he => ?_) fun payload t hp => ?_
    · cases he
      intro payload hg
      obtain ⟨cell, hce, -, rfl⟩ := get_eq_some_iff.mp hg
      exact ht.joins _ cell hce
    · split
      · trivial
      · rename_i payload
        split
        · trivial
        · rename_i data hda
          refine safe_of_brings ?_ fun r t => ha r t
          refine asks_then (asks_deviceMissing bringsComputedId_of_aside _) fun _ => ?_
          refine asks_then asks_check fun _ => ?_
          refine asks_then (asks_createDevice (hp payload rfl data hda)) fun _ => ?_
          refine asks_then (asks_linkTokens bringsComputedId_of_aside _ _ _) fun _ => ?_
          exact asks_next trivial fun _ => trivial

theorem safe_identityBody_certified (hc : NamesComputedId cfg c) :
    (certifiedIds cfg).Safe (fun _ => identityExec cfg) n c (identityBody cfg c s)
      ((certifiedIds cfg).Ends (fun _ _ _ s => s) n c) s := by
  have hen : ∀ (a : IdentityAnswer) t,
      (certifiedIds cfg).Ends (fun _ _ _ s => s) n c a t := fun a t hinv => keeps_certified hinv
  cases c with
  | recover req => exact safe_of_brings (asks_conclude (asks_recoverAccount_certified hc)) hen
  | confirmLink req => exact safe_of_brings (asks_conclude (asks_confirmDeviceLink_certified hc)) hen
  | submitJoin req => exact safe_of_brings (asks_conclude (asks_submitJoinRequest_certified hc)) hen
  | approveJoin sub req =>
    refine safe_conclude (safe_approveJoinRequest_certified.mono fun r t _ => ?_)
    cases r with
    | ok | error => exact hen _ t
  | checkJoin pendingDeviceId =>
    exact safe_of_brings (asks_conclude (asks_checkJoinRequestStatus bringsComputedId_of_aside _)) hen
  | register ip req => exact safe_of_brings (asks_conclude asks_registerDevice_certified) hen
  | issueChallenge challenge difficulty ip ttl =>
    exact safe_of_brings (asks_conclude (asks_demand trivial)) hen

/-! ### Any number of calls -/

/-- Every stored device has the id computed from its identity key, as long as every link, join
request and recovery names the computed id. -/
theorem device_ids_self_certifying (cfg : IdentityConfig) {s : IdentityState} (hs : Certified cfg s)
    {as : List IdentityAction} {pool : IdentityPool}
    (hcareful : Along (identityStep cfg) (certifiedIds cfg).Careful (.init s) as)
    (hrun : run (identityStep cfg) (.init s) as = some pool) : SelfCertifying cfg pool.store :=
  (identity_run_invariant (D := certifiedIds cfg)
    (fun _ _ _ _ _ hbegins => safe_identityBody_certified hbegins)
    (fun _ _ hinv => ⟨⟨hinv.devices, hinv.joins⟩, fun _ _ => trivial, fun _ _ => trivial⟩)
    hs (fun _ => trivial) hcareful hrun).devices

/-! ### A linked device -/

instance decidableNamesComputedId (cfg : IdentityConfig) :
    (c : IdentityCall) → Decidable (NamesComputedId cfg c) := fun c => by
  cases c <;> dsimp only [NamesComputedId] <;> infer_instance

attribute [reducible] certifiedIds

def linkAs (deviceId : String) : List IdentityAction :=
  identityCall (.confirmLink ⟨"t", deviceId, some (demoDeviceKeys 1), []⟩)
    [.none, .none, .none, .jti "a", .jti "r", .none, .none, .none, .none]

theorem certified_demoAccounts : Certified demoConfig demoAccounts := by
  constructor
  · intro device row hg
    cases hg
  · intro device c hc
    cases hc

def IdentityState.deviceKeys (s : IdentityState) : List (String × Bytes) :=
  s.devices.rows.map fun p => (p.1, p.2.identityPublic)

/-- The device names its own id. -/
theorem device_ids_self_certifying_demo : ∃ pool, run (identityStep demoConfig) (.init demoAccounts)
        (linkAs "01010101010101010101010101010101") = some pool ∧
      pool.store.deviceKeys = [("01010101010101010101010101010101", replicate 16 1)] ∧
      SelfCertifying demoConfig pool.store :=
  reaches_with (by decide +kernel) fun _ hrun _ =>
    device_ids_self_certifying demoConfig certified_demoAccounts (by decide +kernel) hrun

/-- The device names another id, and is stored under it. -/
theorem linked_device_chooses_id :
    ∃ pool, run (identityStep demoConfig) (.init demoAccounts) (linkAs "x") = some pool ∧
      pool.store.deviceKeys = [("x", replicate 16 1)] ∧ ¬SelfCertifying demoConfig pool.store := by
  obtain ⟨pool, hrun, hkeys, hget⟩ := reaches (identityStep demoConfig) (.init demoAccounts) (linkAs "x")
    (fun pool => pool.store.deviceKeys = [("x", replicate 16 1)] ∧
    pool.store.devices.get? "x" = some (CreateDeviceData.row ⟨"x", "h", replicate 32 0, replicate 16 1,
    [0], replicate 64 0, "[\"Curve25519+Ed25519\"]", false⟩ demoUser 0))
    (by decide +kernel)
  exact ⟨pool, hrun, hkeys, fun h => absurd (h "x" _ hget) (by decide +kernel)⟩

end ConstructServer.Identity
