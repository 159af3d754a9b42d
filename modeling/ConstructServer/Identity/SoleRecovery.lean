import ConstructServer.Identity.FailedRecovery

/-!
# Recoveries of one account

A recovery reads the time of the last one before it does anything, and writes its own time when
everything is done. Two recoveries that overlap both find the account free; a device that is linked
while a recovery is under way stays active beside the new one. Without such overlaps the account
goes to exactly one device, and not again for seven days.
-/

namespace ConstructServer.Identity

open Calls Machine List Option
open Queue (Bytes)

def cooldown : Nat := 7 * 24 * 3600 * 1000

/-- A recovery that has read the account and not answered. -/
structure Underway where
  session : Nat
  user : Uuid
  revoked : Bool

/-- A recovery that has succeeded, with the state in which it answered. -/
structure Recovery where
  user : Uuid
  device : String
  state : IdentityState

structure RecoveryLog where
  underway : List Underway
  done : List Recovery

def RecoveryLog.empty : RecoveryLog := ⟨[], []⟩

def RecoverRequest.deviceId (req : RecoverRequest) : String :=
  (req.newDevice.map NewDevice.deviceId).getD ""

def noteRecovery (n : Nat) (q : IdentityStatement) (_ : q.Reply) (s : IdentityState) (g : RecoveryLog) :
    RecoveryLog :=
  match q with
  | .selectRecovery key => match s.lookup key with
    | some (user, _) => { g with underway := ⟨n, user, false⟩ :: g.underway }
    | none => g
  | .revokeAllDevices _ =>
    { g with underway := g.underway.map fun p => if p.session = n then { p with revoked := true } else p }
  | _ => g

def finishRecovery (n : Nat) (call : IdentityCall) (answer : IdentityAnswer) (s : IdentityState)
    (g : RecoveryLog) : RecoveryLog where
  underway := g.underway.filter fun p => p.session ≠ n
  done := match call, answer with
    | .recover req, .recovered response =>
      ⟨response.tokens.accessToken.userId, req.deviceId, s⟩ :: g.done
    | _, _ => g.done

def recoveryWatch : Watcher IdentityCall RecoveryLog := ⟨id, noteRecovery, finishRecovery⟩

variable {cfg : IdentityConfig} {s s' : IdentityState} {g : RecoveryLog} {q : IdentityStatement}
  {user u : Uuid} {n : Nat} {c : IdentityCall}

/-! ### What a statement leaves of other accounts -/

def IdentityStatement.touches : IdentityStatement → Option Uuid
  | .revokeAllDevices user | .createDevice _ user | .setPrimaryDevice user _ => some user
  | _ => none

theorem get?_updateUser {f : UserRow → UserRow} : (s.updateUser user f).users.get? u =
      (s.users.get? u).map fun row => if u = user then f row else row :=
  Table.get?_modify

variable {device : String}

theorem active_insert {data : CreateDeviceData} {now : Nat}
    (hd : s'.devices = s.devices.insertNew data.deviceId (data.row user now))
    (hf : s.devices.get? data.deviceId = none) :
    s'.Active u device ↔ s.Active u device ∨ device = data.deviceId ∧ u = user := by
  unfold IdentityState.Active
  rw [hd, Table.get?_insertNew]
  by_cases hde : device = data.deviceId
  · rw [if_pos hde, hf, hde, hf, Option.none_or]
    constructor
    · rintro ⟨row, hr, ho, -⟩
      cases hr
      exact .inr ⟨rfl, (some.inj ho).symm⟩
    · rintro (⟨row, hr, -⟩ | ⟨-, rfl⟩)
      · cases hr
      · exact ⟨_, rfl, rfl, rfl⟩
  · rw [if_neg hde]
    exact ⟨.inl, fun h => h.resolve_right fun hn => hde hn.1⟩

theorem active_deactivate_of_ne (h : user ≠ u) : (s.deactivate user).Active u device ↔
    s.Active u device := by
  unfold IdentityState.Active IdentityState.deactivate
  simp only [Table.get?_modify, Option.map_eq_some_iff]
  constructor
  · rintro ⟨_, ⟨row, hr, rfl⟩, ho, ha⟩
    split at ho
    · rename_i ho'
      exact absurd (some.inj (ho'.symm.trans ho)) h
    · rename_i hot
      rw [if_neg hot] at ha
      exact ⟨row, hr, ho, ha⟩
  · rintro ⟨row, hr, ho, ha⟩
    have hot : row.userId ≠ some user := fun ho' =>
      h (some.inj (ho'.symm.trans ho))
    exact ⟨row, ⟨row, hr, if_neg hot⟩, ho, ha⟩

theorem primary_updateUser {f : UserRow → UserRow}
    (hf : user = u → ∀ row, (f row).primaryDeviceId = row.primaryDeviceId) :
    (s.updateUser user f).primary u = s.primary u := by
  rw [IdentityState.primary, get?_updateUser, Option.map_map, IdentityState.primary]
  refine congrArg Option.join (Option.map_congr fun row _ => ?_)
  show UserRow.primaryDeviceId (if u = user then f row else row) = row.primaryDeviceId
  split
  · rename_i heq
    exact hf heq.symm row
  · rfl

theorem IdentityEffect.standing (h : IdentityEffect cfg s q s') (hto : q.touches ≠ some u)
    (hkn : (s.users.get? u).isSome = true) :
    (∀ device, s'.Active u device ↔ s.Active u device) ∧ s'.primary u = s.primary u := by
  cases h with
  | storeMldsa user key =>
    exact ⟨fun _ => Iff.rfl, primary_updateUser fun _ row => by split <;> rfl⟩
  | revokeAllDevices user =>
    exact ⟨fun _ => active_deactivate_of_ne fun heq => hto (congrArg some heq), rfl⟩
  | createDevice hin =>
    obtain ⟨-, hf, -, -, rfl⟩ := insertDevice_eq_ok_iff.mp hin
    refine ⟨fun device => ?_, rfl⟩
    rw [active_insert rfl hf]
    exact or_iff_left fun hn => hto (congrArg some hn.2.symm)
  | setPrimaryDevice user device =>
    exact ⟨fun _ => Iff.rfl, primary_updateUser fun heq => absurd (congrArg some heq) hto⟩
  | markRecoveryUsed user => exact ⟨fun _ => Iff.rfl, primary_updateUser fun _ _ => rfl⟩
  | @createUser _ _ user _ hn hin =>
    obtain ⟨hf, rfl⟩ := insertUser_eq_some hin
    -- The account is a new one.
    have hne : u ≠ user := by
      rintro rfl
      rw [hn] at hkn
      cases hkn
    refine ⟨fun device => ?_, ?_⟩
    · rw [active_insert rfl hf]
      exact or_iff_left fun hn => hne hn.2
    · rw [IdentityState.primary, Table.get?_modify, Table.get?_insertNew_of_ne hne,
        IdentityState.primary, Option.map_map]
      refine congrArg Option.join (Option.map_congr fun row _ => ?_)
      show UserRow.primaryDeviceId (if u = user then _ else row) = row.primaryDeviceId
      rw [if_neg hne]
  | _ => exact ⟨fun _ => Iff.rfl, rfl⟩

theorem IdentityEffect.account (h : IdentityEffect cfg s q s') {row : UserRow}
    (hr : s.users.get? u = some row) : ∃ row', s'.users.get? u = some row' ∧
      (row'.lastRecoveryAt = row.lastRecoveryAt ∨ row'.lastRecoveryAt = some s.now) := by
  have hu : ∀ {user f}, (∀ row : UserRow, (f row).lastRecoveryAt = row.lastRecoveryAt ∨
      (f row).lastRecoveryAt = some s.now) →
      ∃ row', (s.updateUser user f).users.get? u = some row' ∧
        (row'.lastRecoveryAt = row.lastRecoveryAt ∨ row'.lastRecoveryAt = some s.now) := by
    intro user f hf
    refine ⟨_, by rw [get?_updateUser, hr]; rfl, ?_⟩
    split
    · exact hf row
    · exact .inl rfl
  cases h with
  | storeMldsa user key => exact hu fun row => .inl (by split <;> rfl)
  | setPrimaryDevice user device => exact hu fun row => .inl rfl
  | markRecoveryUsed user => exact hu fun row => .inr rfl
  | createDevice hin =>
    obtain ⟨-, -, -, -, rfl⟩ := insertDevice_eq_ok_iff.mp hin
    exact ⟨row, hr, .inl rfl⟩
  | @createUser _ _ user _ hn hin =>
    obtain ⟨-, rfl⟩ := insertUser_eq_some hin
    have hne : u ≠ user := by
      rintro rfl
      cases hr.symm.trans hn
    refine ⟨row, ?_, .inl rfl⟩
    rw [Table.get?_modify, Table.get?_insertNew_of_ne hne, hr]
    exact congrArg some (if_neg hne)
  | _ => exact ⟨row, hr, .inl rfl⟩

/-! ### The invariant -/

def Recovery.Sole (r : Recovery) : Prop :=
  (∀ device, r.state.Active r.user device ↔ device = r.device) ∧ r.state.primary r.user = some r.device

def Recovery.After (r r' : Recovery) : Prop :=
  r.user = r'.user → r'.state.now + cooldown ≤ r.state.now

structure RecoveryInv (w : IdentityState × RecoveryLog) : Prop where
  one : ∀ p ∈ w.2.underway, ∀ p' ∈ w.2.underway, p.user = p'.user → p.session = p'.session
  known : ∀ p ∈ w.2.underway, (w.1.users.get? p.user).isSome = true
  past : ∀ r ∈ w.2.done, r.state.now ≤ w.1.now ∧ ∃ row last, w.1.users.get? r.user = some row ∧
    row.lastRecoveryAt = some last ∧ r.state.now ≤ last
  sole : ∀ r ∈ w.2.done, r.Sole
  apart : w.2.done.Pairwise Recovery.After

def IdentityCall.isRecovery : IdentityCall → Bool
  | .recover _ => true
  | _ => false

/-- A recovery relies on it that no other of the same account succeeds meanwhile, and that the
devices stay as it left them once it has deactivated them. So a recovery reads an account only while
no other of it is under way, and a device is linked only while none has deactivated the devices. -/
def soleRecovery : Discipline IdentityStatement (Input Pick) (IdentityState × RecoveryLog) IdentityCall where
  inv := RecoveryInv
  fresh n w := ∀ p ∈ w.2.underway, p.session ≠ n
  rely n _ w w' := w.1.now ≤ w'.1.now ∧ ∀ p ∈ w.2.underway, p.session = n →
    p ∈ w'.2.underway ∧ (∀ r ∈ w'.2.done, r.user = p.user → r ∈ w.2.done) ∧
    (p.revoked = true → (∀ device, w'.1.Active p.user device ↔ w.1.Active p.user device) ∧
      w'.1.primary p.user = w.1.primary p.user)
  begins _ _ := True
  compat _ _ := True
  care c q _ w := match q with
    | .selectRecovery key => ∀ account ∈ w.1.lookup key, ∀ p ∈ w.2.underway, p.user ≠ account.1
    | .createDevice _ user => c.isRecovery = false →
        ∀ p ∈ w.2.underway, p.user = user → p.revoked = false
    | _ => True
  refl _ _ _ := ⟨le_rfl, fun _ hp _ => ⟨hp, fun _ hr _ => hr, fun _ => ⟨fun _ => Iff.rfl, rfl⟩⟩⟩
  trans := by
    rintro n c w w₁ w₂ ⟨hnow, h⟩ ⟨hnow', h'⟩
    refine ⟨hnow.trans hnow', fun p hp hn => ?_⟩
    obtain ⟨hp₁, hdone, hstanding⟩ := h p hp hn
    obtain ⟨hp₂, hdone', hstanding'⟩ := h' p hp₁ hn
    refine ⟨hp₂, fun r hr huser => hdone r (hdone' r hr huser) huser, fun hrevoked => ?_⟩
    obtain ⟨hactive, hprimary⟩ := hstanding hrevoked
    obtain ⟨hactive', hprimary'⟩ := hstanding' hrevoked
    exact ⟨fun device => (hactive' device).trans (hactive device), hprimary'.trans hprimary⟩

variable {w w' : IdentityState × RecoveryLog} {pick : Pick} {input : Input Pick} {x : q.Reply}

theorem get?_of_lookup {key : RecoveryKey} {row : UserRow} (h : s.lookup key = some (u, row)) :
    s.users.get? u = some row := by
  cases key with
  | id user =>
    obtain ⟨row', hr, heq⟩ := Option.map_eq_some_iff.mp h
    cases heq
    exact hr
  | usernameHash hash => exact Table.get?_eq_some_iff.mpr (mem_of_find?_eq_some h)

theorem noteRecovery_done : (noteRecovery n q x s g).done = g.done := by
  unfold noteRecovery
  split
  · split <;> rfl
  · rfl
  · rfl

theorem mem_noteRecovery_of_ne {p : Underway} (hp : p ∈ g.underway) (hn : p.session ≠ n) :
    p ∈ (noteRecovery n q x s g).underway := by
  unfold noteRecovery
  split
  · split
    · exact mem_cons_of_mem _ hp
    · exact hp
  · exact mem_map.mpr ⟨p, hp, if_neg hn⟩
  · exact hp

theorem mem_noteRecovery {p : Underway} (hp : p ∈ (noteRecovery n q x s g).underway) :
    (∃ p' ∈ g.underway, p'.session = p.session ∧ p'.user = p.user) ∨
      p.session = n ∧ ∃ key row, q = .selectRecovery key ∧ s.lookup key = some (p.user, row) := by
  unfold noteRecovery at hp
  split at hp
  · rename_i key _
    split at hp
    · rename_i user row hl
      rcases mem_cons.mp hp with rfl | hp
      · exact .inr ⟨rfl, key, row, rfl, hl⟩
      · exact .inl ⟨p, hp, rfl, rfl⟩
    · exact .inl ⟨p, hp, rfl, rfl⟩
  · obtain ⟨p', hp', rfl⟩ := mem_map.mp hp
    refine .inl ⟨p', hp', ?_⟩
    split <;> exact ⟨rfl, rfl⟩
  · exact .inl ⟨p, hp, rfl, rfl⟩

theorem keeps_recovery (hinv : RecoveryInv w) (hca : soleRecovery.care c q input w)
    (hot : ∀ p ∈ w.2.underway, p.session ≠ n → p.revoked = true → q.touches ≠ some p.user)
    (h : watchedEffect cfg recoveryWatch n q pick w = some (x, w')) : soleRecovery.Keeps n c w w' := by
  obtain ⟨he, hno⟩ := noted_eq_some h
  have he := identityEffect_of_effect he
  have hd : w'.2.done = w.2.done := by rw [hno]; exact noteRecovery_done
  -- A session that has just read an account is alone in it.
  have hne : ∀ p ∈ w'.2.underway, (∃ p' ∈ w.2.underway, p'.session = p.session ∧ p'.user = p.user) ∨
      p.session = n ∧ (w.1.users.get? p.user).isSome = true ∧ ∀ p' ∈ w.2.underway, p'.user ≠ p.user := by
    intro p hp
    rw [hno] at hp
    rcases mem_noteRecovery hp with hol | ⟨hn, key, row, rfl, hl⟩
    · exact .inl hol
    · refine .inr ⟨hn, ?_, fun p' hp' => hca _ hl p' hp'⟩
      rw [get?_of_lookup hl]
      rfl
  refine ⟨⟨fun p hp p' hp' hus => ?_, fun p hp => ?_, fun r hr => ?_, ?_, ?_⟩, fun n' hn' hf p hp => ?_,
    fun n' _ hn' _ => ⟨he.now_eq.ge, fun p hp hse => ?_⟩⟩
  · rcases hne p hp with ⟨o, ho, hs, hu⟩ | ⟨hs, -, hoth⟩
    · rcases hne p' hp' with ⟨o', ho', hs', hu'⟩ | ⟨hs', -, hot'⟩
      · rw [← hs, ← hs']
        exact hinv.one o ho o' ho' (by rw [hu, hu', hus])
      · exact absurd (hu.trans hus) (hot' o ho)
    · rcases hne p' hp' with ⟨o', ho', hs', hu'⟩ | ⟨hs', -, -⟩
      · exact absurd (hu'.trans hus.symm) (hoth o' ho')
      · rw [hs, hs']
  · have hso : (w.1.users.get? p.user).isSome = true := by
      rcases hne p hp with ⟨o, ho, -, hu⟩ | ⟨-, hkn, -⟩
      · exact hu ▸ hinv.known o ho
      · exact hkn
    obtain ⟨row, hro⟩ := Option.isSome_iff_exists.mp hso
    obtain ⟨row', hr', -⟩ := he.account hro
    rw [hr']
    rfl
  · rw [hd] at hr
    obtain ⟨hnow, row, last, hro, hla, hle⟩ := hinv.past r hr
    obtain ⟨row', hr', heq | heq⟩ := he.account hro
    · exact ⟨he.now_eq ▸ hnow, row', last, hr', heq.trans hla, hle⟩
    · exact ⟨he.now_eq ▸ hnow, row', w.1.now, hr', heq, hnow⟩
  · rw [hd]
    exact hinv.sole
  · rw [hd]
    exact hinv.apart
  · rcases hne p hp with ⟨o, ho, hs, -⟩ | ⟨hs, -, -⟩
    · exact hs ▸ hf o ho
    · exact hs ▸ Nat.ne_of_lt hn'
  · have hpn : p.session ≠ n := fun heq => hn' (hse.symm.trans heq)
    refine ⟨hno ▸ mem_noteRecovery_of_ne hp hpn, fun r hr _ => hd ▸ hr, fun hre => ?_⟩
    exact he.standing (hot p hp hpn hre) (hinv.known p hp)

/-! ### Calls that do not recover an account -/

def IdentityStatement.links : IdentityStatement → Bool
  | .revokeAllDevices _ | .setPrimaryDevice .. => false
  | _ => true

variable {α : Type}

/-- The call recovers, or links, as agreed. -/
abbrev RecoversSafely (cfg : IdentityConfig) :=
  soleRecovery.Safe (α := α) (fun n => fallible (watchedEffect cfg recoveryWatch n))

theorem safe_links {p : Program IdentityStatement (fun q => Option q.Reply) α}
    {post : α → IdentityState × RecoveryLog → Prop} (hc : c.isRecovery = false)
    (hp : p.Asks fun q => q.links = true) (hpo : ∀ a w, post a w) : RecoversSafely cfg n c p post w := by
  refine Discipline.safe_of_keeps (fun _ => True) (fun _ _ _ _ => trivial)
    (fun q input w r w' hq hinv _ hca he => ⟨?_, trivial⟩) (fun a w _ => hpo a w) hp trivial
  cases fallible_case he with
  | failed => exact .refl hinv
  | effect hef _ =>
    refine keeps_recovery hinv hca (fun p hp _ hr hto => ?_) hef
    cases q with
    | createDevice data user =>
      rw [hca hc p hp (some.inj hto).symm] at hr
      cases hr
    | revokeAllDevices | setPrimaryDevice => cases hq
    | _ => cases hto

theorem links_of_aside (q : IdentityStatement) (hq : q.isAside = true) : q.links = true := by
  cases q <;> first | rfl | cases hq

theorem asks_identityBody_links (hc : c.isRecovery = false) :
    (identityBody cfg c s).Asks fun q => q.links = true := by
  cases c with
  | recover req => cases hc
  | confirmLink req =>
    exact asks_conclude (asks_confirmDeviceLink links_of_aside fun _ _ _ _ _ _ => rfl)
  | submitJoin req => exact asks_conclude (asks_submitJoinRequest links_of_aside fun _ _ => rfl)
  | approveJoin sub req =>
    exact asks_conclude (asks_approveJoinRequest links_of_aside rfl (fun _ _ => rfl) fun _ => rfl)
  | checkJoin pendingDeviceId =>
    exact asks_conclude (asks_checkJoinRequestStatus links_of_aside _)
  | register ip req =>
    exact asks_conclude (asks_registerDevice links_of_aside (fun _ _ => rfl) fun _ _ => rfl)
  | issueChallenge challenge difficulty ip ttl => exact asks_conclude (asks_demand rfl)

/-! ### A recovery step by step -/

/-- The recovery has read the account, whose last recovery is long ago. -/
structure Takes (n : Nat) (user : Uuid) (w : IdentityState × RecoveryLog) : Prop where
  underway : ⟨n, user, false⟩ ∈ w.2.underway
  spaced : ∀ r ∈ w.2.done, r.user = user → r.state.now + cooldown ≤ w.1.now

/-- The recovery has deactivated the devices. Then at most `only` is active, and `pointed` says that
it is the primary device. -/
structure Stage (n : Nat) (user : Uuid) (only : Option String) (pointed : Bool)
    (w : IdentityState × RecoveryLog) : Prop where
  underway : ⟨n, user, true⟩ ∈ w.2.underway
  spaced : ∀ r ∈ w.2.done, r.user = user → r.state.now + cooldown ≤ w.1.now
  active : ∀ device, w.1.Active user device ↔ only = some device
  primary : pointed = true → w.1.primary user = only

variable {only : Option String} {pointed : Bool}

theorem Takes.stable (h : Takes n user w) (hre : soleRecovery.rely n c w w') : Takes n user w' := by
  obtain ⟨hn, hre⟩ := hre
  obtain ⟨hu, hd, -⟩ := hre _ h.underway rfl
  exact ⟨hu, fun r hr hus => (h.spaced r (hd r hr hus) hus).trans hn⟩

theorem Stage.stable (h : Stage n user only pointed w) (hre : soleRecovery.rely n c w w') :
    Stage n user only pointed w' := by
  obtain ⟨hn, hre⟩ := hre
  obtain ⟨hu, hd, hs⟩ := hre _ h.underway rfl
  obtain ⟨ha, hpr⟩ := hs rfl
  exact ⟨hu, fun r hr hus => (h.spaced r (hd r hr hus) hus).trans hn,
    fun device => (ha device).trans (h.active device), fun hp => hpr.trans (h.primary hp)⟩

theorem keeps_own (hinv : RecoveryInv w) (hca : soleRecovery.care c q input w) {b : Bool}
    (hu : ⟨n, user, b⟩ ∈ w.2.underway) (hto : ∀ u, q.touches = some u → u = user)
    (h : watchedEffect cfg recoveryWatch n q pick w = some (x, w')) : soleRecovery.Keeps n c w w' := by
  refine keeps_recovery hinv hca (fun p hp hn _ hq => ?_) h
  exact hn (hinv.one p hp _ hu (hto _ hq))

theorem Stage.effect (hst : Stage n user only pointed w) (hinv : RecoveryInv w)
    (hto : q.touches = none) (h : watchedEffect cfg recoveryWatch n q pick w = some (x, w')) :
    Stage n user only pointed w' := by
  obtain ⟨he, hno⟩ := noted_eq_some h
  have he := identityEffect_of_effect he
  obtain ⟨ha, hpr⟩ := he.standing (u := user) (by rw [hto]; nofun)
    (hinv.known _ hst.underway)
  refine ⟨?_, fun r hr hu => ?_, fun device => (ha device).trans (hst.active device),
    fun hp => hpr.trans (hst.primary hp)⟩
  · rw [hno]
    show _ ∈ (noteRecovery n q x w.1 w.2).underway
    unfold noteRecovery
    split
    · split
      · exact mem_cons_of_mem _ hst.underway
      · exact hst.underway
    · cases hto
    · exact hst.underway
  · rw [hno] at hr
    rw [he.now_eq]
    exact hst.spaced r (noteRecovery_done (x := x) ▸ hr) hu

theorem cooldown_of_elapsed {now last : Nat} (h : ¬(elapsed now last).tdiv (24 * 3600 * 1000) < 7) :
    last + cooldown ≤ now := by
  unfold elapsed at h
  unfold cooldown
  rcases le_total 0 ((now : Int) - last) with hpo | hn
  · rw [Int.tdiv_eq_ediv_of_nonneg hpo] at h
    omega
  · have hf : (now : Int) - last = -(last - now) := by omega
    rw [hf, Int.neg_tdiv, Int.tdiv_eq_ediv_of_nonneg (by omega)] at h
    omega

variable {keys : DevicePublicKeys} {req : RecoverRequest} {deviceId : String}

theorem cooldown_of_checkRecovery {now last : Nat} {row : UserRow}
    (h : checkRecovery cfg now row req deviceId keys = .ok ()) (hl : row.lastRecoveryAt = some last) :
    last + cooldown ≤ now := by
  unfold checkRecovery at h
  split at h
  · cases h
  · split at h
    · cases h
    · rename_i hco
      rw [hl, Option.any_some, decide_eq_true_eq] at hco
      exact cooldown_of_elapsed hco

theorem safe_verifyRecoverySignature_sole : RecoversSafely cfg n c
      (verifyRecoverySignature cfg req deviceId keys).run (onOk fun user w => Takes n user w) w := by
  refine safe_then (fun _ _ => True) (safe_ensure (fun _ => trivial) fun _ => trivial) fun _ w _ => ?_
  refine safe_then (fun found w => ∀ user row, found.row = some (user, row) →
      ⟨n, user, false⟩ ∈ w.2.underway ∧ found.now ≤ w.1.now ∧
      ∀ r ∈ w.2.done, r.user = user → ∃ last, row.lastRecoveryAt = some last ∧ r.state.now ≤ last)
    (safe_effect (fun _ => True) (fun _ _ => trivial) trivial (fun _ => trivial)
      fun {input w x w'} hinv _ hca he => ?_) fun found w hf => ?_
  · refine ⟨keeps_recovery hinv hca (fun _ _ _ _ => nofun) he, trivial, ?_⟩
    obtain ⟨hse, hno⟩ := noted_eq_some he
    obtain ⟨rfl, hst⟩ := Prod.mk.inj (some.inj hse)
    intro user row hl
    have hd : w'.2.done = w.2.done := by rw [hno]; exact noteRecovery_done
    refine ⟨?_, hst ▸ le_rfl, fun r hr hus => ?_⟩
    · rw [hno]
      show _ ∈ (noteRecovery n _ _ w.1 w.2).underway
      simp only [noteRecovery, show w.1.lookup _ = _ from hl]
      exact mem_cons_self
    · rw [hd] at hr
      obtain ⟨-, row', last, hr', hla, hle⟩ := hinv.past r hr
      rw [hus, get?_of_lookup hl] at hr'
      cases hr'
      exact ⟨last, hla, hle⟩
  · split
    · trivial
    · rename_i user row hro
      obtain ⟨hu, hn, hpa⟩ := hf user row hro
      refine safe_then (fun _ w => Takes n user w) (safe_check (fun _ hcl => ?_) trivial) fun _ w hw => ?_
      · refine ⟨hu, fun r hr hus => ?_⟩
        obtain ⟨last, hla, hle⟩ := hpa r hr hus
        have hsp := cooldown_of_checkRecovery hcl hla
        omega
      · refine safe_then (fun _ w => Takes n user w) ?_ fun _ _ hw => hw
        unfold completeRecoveryKey
        split
        · refine safe_effect (Takes n user) Takes.stable hw (fun _ => trivial)
            fun {input w x w'} hinv hw hca he => ?_
          refine ⟨keeps_own hinv hca hw.underway nofun he, trivial, ?_⟩
          obtain ⟨hs, hno⟩ := noted_eq_some he
          refine ⟨hno ▸ hw.underway, fun r hr hus => ?_⟩
          rw [hno] at hr
          rw [(identityEffect_of_effect hs).now_eq]
          exact hw.spaced r hr hus
        · exact hw

theorem safe_stage {p : Program IdentityStatement (fun q => Option q.Reply) α}
    {post : α → IdentityState × RecoveryLog → Prop} (hp : p.Asks fun q => q.isAside = true)
    (hw : Stage n user only pointed w) (hpo : ∀ a w, Stage n user only pointed w → post a w) :
    RecoversSafely cfg n c p post w := by
  refine Discipline.safe_of_keeps (Stage n user only pointed) (fun _ _ => Stage.stable)
    (fun q input w r w' hq hinv hw hca hexe => ?_) hpo hp hw
  have hto : q.touches = none := by
    cases q <;> first | rfl | cases hq
  cases fallible_case hexe with
  | failed => exact ⟨.refl hinv, hw⟩
  | effect he _ =>
    refine ⟨keeps_own hinv hca hw.underway (fun u hu => ?_) he, hw.effect hinv hto he⟩
    rw [hto] at hu
    cases hu

theorem safe_createDevice_sole {data : CreateDeviceData} {word : String} (hw : Stage n user none pointed w) :
    RecoversSafely cfg n c
      (createDevice data user word).run (onOk fun _ w => Stage n user (some data.deviceId) false w) w := by
  refine safe_then (fun created w => created = .ok () → Stage n user (some data.deviceId) false w)
    (safe_effect (Stage n user none pointed) Stage.stable hw (fun _ => trivial)
      fun {input w x w'} hinv hw hca he => ?_)
    fun created w hw => safe_check_mapError (fun _ hcre => hw hcre) trivial
  refine ⟨keeps_own hinv hca hw.underway (fun u hu => (some.inj hu).symm) he, trivial, ?_⟩
  rintro rfl
  obtain ⟨hcr, hno⟩ := noted_eq_some he
  simp only [IdentityState.effect] at hcr
  split at hcr
  · rename_i t hin
    obtain ⟨-, rfl⟩ := Prod.mk.inj (some.inj hcr)
    obtain ⟨-, hf, -, -, heq⟩ := insertDevice_eq_ok_iff.mp hin
    refine ⟨hno ▸ hw.underway, fun r hr hus => ?_, fun device => ?_, fun hpo => by cases hpo⟩
    · rw [hno] at hr
      rw [heq]
      exact hw.spaced r hr hus
    · rw [heq, active_insert rfl hf, hw.active]
      simp [eq_comm]
  · cases hcr

variable {e : Status}

theorem safe_setPrimaryDevice_sole (hw : Stage n user (some device) pointed w) : RecoversSafely cfg n c
      (statement (.setPrimaryDevice user device) e).run (onOk fun _ w => Stage n user (some device) true w) w := by
  refine safe_effect (Stage n user (some device) pointed) Stage.stable hw (fun _ => trivial)
    fun {input w x w'} hinv hw hca he => ?_
  refine ⟨keeps_own hinv hca hw.underway (fun u hu => (some.inj hu).symm) he, trivial, ?_⟩
  obtain ⟨hset, hno⟩ := noted_eq_some he
  obtain ⟨-, hst⟩ := Prod.mk.inj (some.inj hset)
  obtain ⟨row, hro⟩ := Option.isSome_iff_exists.mp (hinv.known _ hw.underway)
  refine ⟨hno ▸ hw.underway, fun r hr hus => ?_, fun device => ?_, fun _ => ?_⟩
  · rw [hno] at hr
    rw [← hst]
    exact hw.spaced r hr hus
  · rw [← hst]
    exact hw.active device
  · rw [← hst, IdentityState.primary, get?_updateUser, hro]
    simp

theorem safe_revokeAllDevices_sole (hw : Takes n user w) : RecoversSafely cfg n c
      (statement (.revokeAllDevices user) e).run (onOk fun _ w => Stage n user none false w) w := by
  refine safe_effect (Takes n user) Takes.stable hw (fun _ => trivial) fun {input w x w'} hinv hw hca he => ?_
  refine ⟨keeps_own hinv hca hw.underway (fun u hu => (some.inj hu).symm) he, trivial, ?_⟩
  obtain ⟨hre, hno⟩ := noted_eq_some he
  obtain ⟨-, hst⟩ := Prod.mk.inj (some.inj hre)
  refine ⟨?_, fun r hr hus => ?_, fun device => ?_, nofun⟩
  · rw [hno]
    exact mem_map.mpr ⟨_, hw.underway, if_pos rfl⟩
  · rw [hno] at hr
    rw [← hst]
    exact hw.spaced r hr hus
  · rw [← hst]
    exact ⟨fun ha => absurd ha not_active_deactivate, nofun⟩

theorem safe_signToken_sole {isRefresh : Bool} (hw : Stage n user only pointed w) : RecoversSafely cfg n c
      (statement (.signToken isRefresh user device) e).run
      (onOk fun token w => token.userId = user ∧ Stage n user only pointed w) w := by
  refine safe_effect (Stage n user only pointed) Stage.stable hw (fun _ => trivial)
    fun {input w x w'} hinv hw hca he => ?_
  refine ⟨keeps_own hinv hca hw.underway nofun he, trivial, ?_, hw.effect hinv rfl he⟩
  obtain ⟨hs, -⟩ := noted_eq_some he
  simp only [IdentityState.effect] at hs
  split at hs
  · split at hs
    · cases hs
    · obtain ⟨rfl, -⟩ := Prod.mk.inj (some.inj hs)
      rfl
  · cases hs

/-- The recovery is about to answer. -/
structure Returned (n : Nat) (user : Uuid) (device : String) (w : IdentityState × RecoveryLog) : Prop where
  stage : Stage n user (some device) true w
  used : ∃ row, w.1.users.get? user = some row ∧ row.lastRecoveryAt = some w.1.now

theorem safe_markRecoveryUsed_sole (hw : Stage n user (some device) true w) : RecoversSafely cfg n c
      (statement (.markRecoveryUsed user) e).run (onOk fun _ w => Returned n user device w) w := by
  refine safe_effect (Stage n user (some device) true) Stage.stable hw (fun _ => trivial)
    fun {input w x w'} hinv hw hca he => ?_
  refine ⟨keeps_own hinv hca hw.underway nofun he, trivial, hw.effect hinv rfl he, ?_⟩
  obtain ⟨hm, -⟩ := noted_eq_some he
  obtain ⟨-, hst⟩ := Prod.mk.inj (some.inj hm)
  obtain ⟨row, hr⟩ := Option.isSome_iff_exists.mp (hinv.known _ hw.underway)
  refine ⟨{ row with lastRecoveryAt := some w.1.now }, ?_, ?_⟩
  · rw [← hst, get?_updateUser, hr]
    simp
  · rw [← hst]
    rfl

theorem safe_takeOver_sole (hw : Takes n user w) :
    RecoversSafely cfg n c (takeOver cfg user deviceId keys).run
      (onOk fun response w => response.tokens.accessToken.userId = user ∧ Returned n user deviceId w) w := by
  -- What only touches other keys, and never ends the call with a result of its own.
  have ha : ∀ {β : Type} {only pointed} {p : IdentityHandler β} {w},
      p.run.Asks (fun q => q.isAside = true) → Stage n user only pointed w →
      RecoversSafely cfg n c p.run
        (onOk fun _ w => Stage n user only pointed w) w := by
    intro β only pointed p w hp hw
    refine safe_stage hp hw fun r w hw => ?_
    cases r with
    | ok a => exact hw
    | error e => trivial
  refine safe_then _ (safe_revokeAllDevices_sole hw) fun _ w hw => ?_
  refine safe_then _ (ha (asks_markAccountDevicesRevoked (fun _ => id) user) hw) fun _ w hw => ?_
  refine safe_then _ (ha (asks_revokeAllUserTokens (fun _ => id) _) hw) fun _ w hw => ?_
  refine safe_then (fun _ w => Stage n user none false w) (safe_check (fun _ _ => hw) trivial) fun _ w hw => ?_
  refine safe_then _ (safe_createDevice_sole hw) fun _ w hw => ?_
  refine safe_then _ (safe_setPrimaryDevice_sole hw) fun _ w hw => ?_
  refine safe_then _ (safe_signToken_sole hw) fun accessToken w hw => ?_
  refine safe_then _ (safe_signToken_sole hw.2) fun refreshToken w hw' => ?_
  refine safe_then _ (ha (asks_attempt (asks_storeRefreshToken (fun _ => id) _ _)) hw'.2) fun _ w hw'' => ?_
  refine safe_then _ (safe_markRecoveryUsed_sole hw'') fun _ w hre => ?_
  exact ⟨hw.1, hre⟩

theorem safe_recoverAccount_sole : RecoversSafely cfg n c (recoverAccount cfg req).run
      (onOk fun response w => Returned n response.tokens.accessToken.userId req.deviceId w) w := by
  refine safe_then (fun _ _ => True) (safe_ensure (fun _ => trivial) fun _ => trivial) fun _ w _ => ?_
  refine safe_then (fun _ _ => True) (safe_ensure (fun _ => trivial) fun _ => trivial) fun _ w _ => ?_
  refine safe_then (fun _ _ => True) (safe_ensure (fun _ => trivial) fun _ => trivial) fun _ w _ => ?_
  split
  · trivial
  · trivial
  · rename_i deviceId keys hde
    refine safe_then _ (safe_mapErr safe_verifyRecoverySignature_sole) fun user w hw => ?_
    refine (safe_takeOver_sole hw).mono fun r w hr => ?_
    cases r with
    | error e => trivial
    | ok response =>
      obtain ⟨rfl, hre⟩ := hr
      have hna : req.deviceId = deviceId := by rw [RecoverRequest.deviceId, hde]; rfl
      exact hna ▸ hre

/-! ### The end of a call -/

theorem keeps_close (hinv : RecoveryInv w) :
    soleRecovery.Keeps n c w (w.1, ⟨w.2.underway.filter fun p => p.session ≠ n, w.2.done⟩) := by
  have hs : ∀ {p}, p ∈ w.2.underway.filter (fun p => p.session ≠ n) → p ∈ w.2.underway :=
    fun hp => (mem_filter.mp hp).1
  refine ⟨⟨fun p hp p' hp' => hinv.one p (hs hp) p' (hs hp'), fun p hp => hinv.known p (hs hp),
    hinv.past, hinv.sole, hinv.apart⟩, fun n' _ hf p hp => hf p (hs hp),
    fun n' _ hn' _ => ⟨le_rfl, fun p hp hse => ?_⟩⟩
  refine ⟨mem_filter.mpr ⟨hp, ?_⟩, fun _ hr _ => hr, fun _ => ⟨fun _ => Iff.rfl, rfl⟩⟩
  simpa [hse] using hn'

theorem keeps_done (hinv : RecoveryInv w) (h : Returned n user device w) : soleRecovery.Keeps n c w
      (w.1, ⟨w.2.underway.filter fun p => p.session ≠ n, ⟨user, device, w.1⟩ :: w.2.done⟩) := by
  obtain ⟨hinv', hf', hr'⟩ := keeps_close (n := n) (c := c) hinv
  obtain ⟨row, hro, hu⟩ := h.used
  refine ⟨⟨hinv'.one, hinv'.known, fun r hr => ?_, fun r hr => ?_, ?_⟩, hf',
    fun n' c' hn' hc' => ⟨le_rfl, fun p hp hse => ?_⟩⟩
  · rcases mem_cons.mp hr with rfl | hr
    · exact ⟨le_rfl, row, w.1.now, hro, hu, le_rfl⟩
    · exact hinv.past r hr
  · rcases mem_cons.mp hr with rfl | hr
    · exact ⟨fun device' => (h.stage.active device').trans (by simp [eq_comm]), h.stage.primary rfl⟩
    · exact hinv.sole r hr
  · exact pairwise_cons.mpr ⟨fun r hr hus => h.stage.spaced r hr hus.symm, hinv.apart⟩
  · obtain ⟨hp', hd, hs⟩ := (hr' n' c' hn' hc').2 p hp hse
    refine ⟨hp', fun r hr hus => ?_, hs⟩
    rcases mem_cons.mp hr with rfl | hr
    · -- Another session would have the same account under way.
      exact absurd (hse.symm.trans (hinv.one p hp _ h.stage.underway hus.symm)) hn'
    · exact hr

theorem safe_identityBody_sole : RecoversSafely cfg n c
      (identityBody cfg c w.1) (soleRecovery.Ends (watchedEnd recoveryWatch) n c) w := by
  cases c with
  | recover req =>
    refine safe_conclude (safe_recoverAccount_sole.mono fun r w hr => ?_)
    cases r with
    | ok response => exact fun hinv => keeps_done hinv hr
    | error status => exact fun hinv => keeps_close hinv
  | _ => exact safe_links rfl (asks_identityBody_links rfl) fun _ _ hinv => keeps_close hinv

/-- In every run in which a recovery reads an account only while no other of it is under way, and a
device is linked only while none has deactivated the devices: when a recovery succeeds, its device
is the only active one of the account and the primary one, and two recoveries of one account are at
least seven days apart. -/
theorem recoveries_exclusive (cfg : IdentityConfig) {s : IdentityState} {as : List IdentityAction}
    {pool : WatchedPool IdentityCall RecoveryLog}
    (hcareful : Along (watchedStep cfg recoveryWatch) soleRecovery.Careful (.init (s, .empty)) as)
    (hrun : run (watchedStep cfg recoveryWatch) (.init (s, .empty)) as = some pool) :
    (∀ r ∈ pool.store.2.done, r.Sole) ∧ pool.store.2.done.Pairwise Recovery.After := by
  have hinit : RecoveryInv (s, .empty) := ⟨nofun, nofun, nofun, nofun, .nil⟩
  have hinv := watched_run_invariant (D := soleRecovery)
    (fun _ _ _ _ _ _ => safe_identityBody_sole) (fun ms w hinv => ?_) hinit (fun _ => nofun) hcareful hrun
  · exact ⟨hinv.sole, hinv.apart⟩
  · refine ⟨⟨hinv.one, hinv.known, fun r hr => ?_, hinv.sole, hinv.apart⟩, fun _ hfresh => hfresh,
      fun _ _ => ⟨Nat.le_add_right _ _, fun _ hp _ =>
        ⟨hp, fun _ hr _ => hr, fun _ => ⟨fun _ => Iff.rfl, rfl⟩⟩⟩⟩
    obtain ⟨hnow, hlast⟩ := hinv.past r hr
    exact ⟨hnow.trans (Nat.le_add_right _ _), hlast⟩

/-! ### Two recoveries at once -/

attribute [reducible] soleRecovery

instance decidableSoleCare (c : IdentityCall) (q : IdentityStatement) (input : Input Pick)
    (w : IdentityState × RecoveryLog) : Decidable (soleRecovery.care c q input w) := by
  apply @IdentityStatement.casesOn (fun q => Decidable (soleRecovery.care c q input w)) q <;> intros <;> infer_instance

def recoverAs (deviceId : String) (b : UInt8) : IdentityCall :=
  .recover ⟨demoUser.toStr, replicate hybridRecoveryKeyLen 0, [0], 0,
    some ⟨deviceId, some (demoDeviceKeys b)⟩⟩

def recoverPicks (before : Nat) (access refresh : String) : List Pick :=
  replicate before .none ++ [.jti access, .jti refresh] ++ replicate 4 .none

/-- The device takes the account over from the phone. -/
theorem recoveries_exclusive_demo :
    ∃ pool, run (watchedStep demoConfig recoveryWatch) (.init (phoneAccount, .empty))
        (identityCall (recoverAs "x" 2) (recoverPicks 10 "a" "b")) = some pool ∧
      pool.store.2.done.map (fun r => (r.user, r.device)) = [(demoUser, "x")] ∧
      (∀ r ∈ pool.store.2.done, r.Sole) ∧ pool.store.2.done.Pairwise Recovery.After :=
  reaches_with (by decide +kernel) fun _ hrun _ => recoveries_exclusive demoConfig (by decide +kernel) hrun

def overlappingRecoveries : List IdentityAction :=
  [.start (recoverAs "x" 2), .step 0 ⟨.ok, .none⟩, .start (recoverAs "y" 3), .step 1 ⟨.ok, .none⟩] ++
    (recoverPicks 9 "a" "b" ++ recoverPicks 10 "c" "d").map fun pick => .step 0 ⟨.ok, pick⟩

/-- Both recoveries succeed. -/
theorem recoveries_overlap : ∃ pool, run (watchedStep demoConfig recoveryWatch)
    (.init (phoneAccount, .empty))
        overlappingRecoveries = some pool ∧ pool.store.2.done.map (fun r => (r.user, r.device, r.state.now)) =
        [(demoUser, "y", 0), (demoUser, "x", 0)] ∧ ¬pool.store.2.done.Pairwise Recovery.After := by
  refine reaches_with (by decide +kernel) fun pool _ hout hafter => ?_
  obtain ⟨r, rest, hdone, hr, hrest⟩ := map_eq_cons_iff.mp hout
  obtain ⟨r', rest', rfl, hr', -⟩ := map_eq_cons_iff.mp hrest
  rw [hdone] at hafter
  have hspaced := (pairwise_cons.mp hafter).1 r' mem_cons_self
  simp only [Prod.mk.injEq] at hr hr'
  have hle := hspaced (hr.1.trans hr'.1.symm)
  unfold cooldown at hle
  omega

end ConstructServer.Identity
