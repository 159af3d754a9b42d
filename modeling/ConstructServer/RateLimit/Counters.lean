import ConstructServer.Library.Machine
import ConstructServer.Library.RedisKeys

/-!
# Counters of the hour

Two limits count in Redis with one atomic script each. The issuance of tokens has a counter for
every user and hour, whose key is named before the script runs; sends have one counter for every
sender, whose hour begins with the first send. One clock is read by the service and by Redis.
-/

namespace ConstructServer.RateLimit

open Redis Machine Keyspace Option Function

/-! ### The issuance of tokens -/

section

abbrev HourCounters := Nat → Option (Cell Nat)

def hourAt (now : Nat) : Nat := now / 1000 / 3600

/-- The script of `try_reserve_token_issuance`. -/
def reserveScript (counters : HourCounters) (now hour : Nat) (grant cap : UInt32) : HourCounters × Nat :=
  let cell := (counters hour).filter (·.live now)
  let count := (cell.map Cell.value).getD 0
  if grant.toNat = 0 ∨ cap.toNat < count + grant.toNat then (counters, 0)
  else
    let newcount := count + grant.toNat
    let deadline := if newcount = grant.toNat then some (now + 3600 * 1000) else cell.bind Cell.deadline
    (update counters hour (some ⟨newcount, deadline⟩), grant.toNat)

/-- A call of `try_reserve_token_issuance` that has named its key. -/
structure Reservation where
  hour : Nat
  grant : UInt32
  cap : UInt32
deriving DecidableEq

/-- Reservations of one user, with those that were granted, newest first. -/
structure Issuance where
  now : Nat
  counters : HourCounters
  waiting : List Reservation
  granted : List Reservation

inductive IssuanceAction
  | tick (ms : Nat)
  | call (grant cap : UInt32)
  | script (i : Nat) (o : Outcome)

def Issuance.empty : Issuance := ⟨0, fun _ => none, [], []⟩

def Issuance.step (s : Issuance) : IssuanceAction → Option Issuance
  | .tick ms => some { s with now := s.now + ms }
  | .call grant cap => some { s with waiting := s.waiting ++ [⟨hourAt s.now, grant, cap⟩] }
  | .script i o => s.waiting[i]?.map fun r =>
      let (counters, reserved) := reserveScript s.counters s.now r.hour r.grant r.cap
      { s with
        counters := if o = .failed then s.counters else counters
        waiting := s.waiting.eraseIdx i
        granted := if o = .ok ∧ reserved ≠ 0 then r :: s.granted else s.granted }

def issued (hour : Nat) (granted : List Reservation) : Nat :=
  ((granted.filter (·.hour = hour)).map (·.grant.toNat)).sum

def WithinCaps : List Reservation → Prop
  | [] => True
  | r :: rs => issued r.hour (r :: rs) ≤ r.cap.toNat ∧ WithinCaps rs

def InHour (s : Issuance) : IssuanceAction → Prop
  | .script i _ => ∀ r ∈ s.waiting[i]?, hourAt s.now = r.hour
  | _ => True

instance (s : Issuance) : (a : IssuanceAction) → Decidable (InHour s a)
  | .script i _ => inferInstanceAs (Decidable (∀ r ∈ s.waiting[i]?, _))
  | .tick _ | .call .. => isTrue trivial

/-- A counter outlives the hour of its key. -/
structure Issuance.Expiring (s : Issuance) : Prop where
  waiting : ∀ r ∈ s.waiting, r.hour * 3600000 ≤ s.now
  expires : ∀ h, ∀ c ∈ s.counters h, ∃ d, c.deadline = some d ∧ (h + 1) * 3600000 ≤ d

structure Issuance.Counted (s : Issuance) : Prop extends s.Expiring where
  counted : ∀ h, issued h s.granted ≤ ((s.counters h).map Cell.value).getD 0
  within : WithinCaps s.granted

variable {s t : Issuance} {r : Reservation} {counters : HourCounters} {now : Nat}

/-- The cell that a granted reservation writes: the first one of a counter sets its deadline. -/
def Adds (counters : HourCounters) (now : Nat) (r : Reservation) (c : Cell Nat) : Prop :=
  ∃ count, c.value = count + r.grant.toNat ∧ c.value ≤ r.cap.toNat ∧
    ((∀ c' ∈ counters r.hour, c'.live now → c'.value = 0) ∧ count = 0 ∧ c.deadline = some (now + 3600 * 1000) ∨
      ∃ c' ∈ counters r.hour, c'.live now ∧ count = c'.value ∧ c.deadline = c'.deadline)

theorem reserveScript_cases (counters : HourCounters) (now : Nat) (r : Reservation) :
    reserveScript counters now r.hour r.grant r.cap = (counters, 0) ∨ ∃ c, Adds counters now r c ∧
      r.grant.toNat ≠ 0 ∧
      reserveScript counters now r.hour r.grant r.cap =
        (update counters r.hour (some c), r.grant.toNat) := by
  simp only [reserveScript]
  by_cases h : r.grant.toNat = 0 ∨
      r.cap.toNat < (((counters r.hour).filter (·.live now)).map Cell.value).getD 0 + r.grant.toNat
  · exact .inl (if_pos h)
  · rw [if_neg h]
    push Not at h
    refine .inr ⟨_, ⟨_, rfl, h.2, ?_⟩, h.1, rfl⟩
    cases hc : (counters r.hour).filter (·.live now) with
    | none => exact .inl ⟨fun c hm hl => absurd hl (filter_eq_none_iff.mp hc c hm), rfl, by simp⟩
    | some c =>
      obtain ⟨hm, hl⟩ := filter_eq_some_iff.mp hc
      by_cases hz : c.value = 0
      · refine .inl ⟨fun c' hm' _ => ?_, by simpa using hz, by simp [hz]⟩
        rwa [← some_inj.mp (hm.symm.trans hm')]
      · exact .inr ⟨c, hm, hl, by simp, by simp [hz]⟩

theorem step_script {i : Nat} {o : Outcome} (hst : s.step (.script i o) = some t) :
    ∃ r, s.waiting[i]? = some r ∧ t.now = s.now ∧ t.waiting ⊆ s.waiting ∧
      (t.counters = s.counters ∧ t.granted = s.granted ∨
        ∃ c, Adds s.counters s.now r c ∧ t.counters = update s.counters r.hour (some c) ∧
          (t.granted = s.granted ∨ t.granted = r :: s.granted)) := by
  obtain ⟨r, hr, rfl⟩ := map_eq_some_iff.mp hst
  refine ⟨r, hr, rfl, fun _ => List.mem_of_mem_eraseIdx, ?_⟩
  rcases reserveScript_cases s.counters s.now r with he | ⟨c, ha, hz, he⟩
  · exact .inl (by simp [he])
  · rw [he]
    cases o with
    | ok => exact .inr ⟨c, ha, rfl, .inr (if_pos ⟨rfl, hz⟩)⟩
    | lost => exact .inr ⟨c, ha, rfl, .inl rfl⟩
    | failed => exact .inl ⟨rfl, rfl⟩

theorem Issuance.Expiring.step {a : IssuanceAction} (h : s.Expiring) (hst : s.step a = some t) :
    t.Expiring := by
  cases a with
  | tick ms =>
    obtain rfl := some.inj hst
    exact ⟨fun r hr => (h.waiting r hr).trans (Nat.le_add_right _ _), h.expires⟩
  | call grant cap =>
    obtain rfl := some.inj hst
    refine ⟨fun r hr => ?_, h.expires⟩
    rcases mem_concat hr with hr | rfl
    · exact h.waiting r hr
    · simp only [hourAt]
      omega
  | script i o =>
    obtain ⟨r, hr, hn, hw, hc⟩ := step_script hst
    have hh := h.waiting r (List.mem_of_getElem? hr)
    refine ⟨fun r' hr' => hn ▸ h.waiting r' (hw hr'), fun hour c' hc' => ?_⟩
    rcases hc with ⟨hc, -⟩ | ⟨c, ⟨count, -, -, hd⟩, hc, -⟩
    · exact h.expires hour c' (hc ▸ hc')
    · rw [hc, update_apply] at hc'
      split_ifs at hc' with he
      · obtain rfl := some.inj hc'
        rcases hd with ⟨-, -, hd⟩ | ⟨c'', hc'', -, -, hd⟩
        · refine ⟨_, hd, ?_⟩
          rw [he, Nat.succ_mul]
          exact Nat.add_le_add_right hh _
        · exact he ▸ hd ▸ h.expires _ c'' hc''
      · exact h.expires hour c' hc'

theorem issued_cons (hour : Nat) (rs : List Reservation) :
    issued hour (r :: rs) = (if r.hour = hour then r.grant.toNat else 0) + issued hour rs := by
  by_cases h : r.hour = hour <;> simp [issued, h]

theorem Issuance.Expiring.value_of_adds {c : Cell Nat} (h : s.Expiring) (hin : hourAt s.now = r.hour)
    (ha : Adds s.counters s.now r c) :
    c.value = ((s.counters r.hour).map Cell.value).getD 0 + r.grant.toNat ∧ c.value ≤ r.cap.toNat := by
  obtain ⟨count, hv, hcap, hc⟩ := ha
  refine ⟨?_, hcap⟩
  rw [hv]
  congr 1
  rcases hc with ⟨hz, rfl, -⟩ | ⟨c', hc', -, rfl, -⟩
  · cases hr : s.counters r.hour with
    | none => rfl
    | some c' =>
      -- the deadline is after the hour that the clock shows
      obtain ⟨d, hd, hle⟩ := h.expires _ c' hr
      refine (hz c' hr ?_).symm
      rw [Cell.live, hd, all_some, decide_eq_true_eq]
      unfold hourAt at hin
      omega
  · rw [hc']
    rfl

theorem Issuance.Counted.step {a : IssuanceAction} (h : s.Counted) (hin : InHour s a)
    (hst : s.step a = some t) :
    t.Counted := by
  suffices hs : (∀ hour, issued hour t.granted ≤ ((t.counters hour).map Cell.value).getD 0) ∧ WithinCaps t.granted from
    ⟨h.toExpiring.step hst, hs.1, hs.2⟩
  cases a with
  | tick | call =>
    obtain rfl := some.inj hst
    exact ⟨h.counted, h.within⟩
  | script i o =>
    obtain ⟨r, hr, -, -, hc⟩ := step_script hst
    rcases hc with ⟨hc, hg⟩ | ⟨c, ha, hc, hg⟩
    · exact ⟨hc ▸ hg ▸ h.counted, hg ▸ h.within⟩
    · obtain ⟨hv, hcap⟩ := h.value_of_adds (hin r hr) ha
      have hi := h.counted r.hour
      rw [hc]
      rcases hg with hg | hg <;> rw [hg]
      · refine ⟨fun hour => ?_, h.within⟩
        rw [update_apply]
        split_ifs with he
        · subst he
          simp only [map_some, getD_some]
          omega
        · exact h.counted hour
      · refine ⟨fun hour => ?_, ?_, h.within⟩
        · rw [issued_cons, update_apply]
          split_ifs with he he' he'
          · subst he
            simp only [map_some, getD_some, hv]
            omega
          · exact absurd he.symm he'
          · exact absurd he'.symm he
          · simpa using h.counted hour
        · rw [issued_cons, if_pos rfl]
          omega

/-- **What is granted under the key of an hour is within the cap** when every script runs in the
hour that its key names; a counter always expires, and a refusal leaves the counters as they are. -/
theorem issuance_within_cap {actions : List IssuanceAction}
    (hrun : run Issuance.step .empty actions = some s) :
    (Along Issuance.step InHour .empty actions → WithinCaps s.granted) ∧
      (∀ h, ∀ c ∈ s.counters h, c.deadline.isSome) ∧
      ∀ r : Reservation, (reserveScript s.counters s.now r.hour r.grant r.cap).2 = 0 →
        (reserveScript s.counters s.now r.hour r.grant r.cap).1 = s.counters := by
  have hempty : Issuance.empty.Expiring := ⟨by simp [Issuance.empty], by simp [Issuance.empty]⟩
  refine ⟨fun hin => ?_, fun h c hc => ?_, fun r hr => ?_⟩
  · refine (run_invariant Issuance.Counted.step ?_ hin hrun).within
    exact ⟨hempty, fun _ => le_rfl, trivial⟩
  · have he := run_invariant (G := fun _ _ => True) (fun h _ => Issuance.Expiring.step h) hempty
      (along_of_forall fun _ _ => trivial) hrun
    obtain ⟨d, hd, -⟩ := he.expires h c hc
    exact hd ▸ rfl
  · rcases reserveScript_cases s.counters s.now r with he | ⟨c, -, hz, he⟩
    · rw [he]
    · rw [he] at hr
      exact absurd hr hz

/-- The first half of the cap is reserved, then the other one, and a third reservation is refused.
-/
theorem issuance_within_cap_demo :
    ∃ s, run Issuance.step .empty [.call 2 3, .call 1 3, .script 0 .ok, .tick 1000, .script 0 .ok,
        .call 1 3, .script 0 .ok] = some s ∧ s.granted.map (·.grant) = [1, 2] ∧ WithinCaps s.granted :=
  reaches_with (by decide +kernel) fun _ hrun _ => (issuance_within_cap hrun).1 (by decide +kernel)

/-- **The counter of an hour is gone before the last script that names it**: a call that names its
key in the last millisecond of the hour is granted the whole cap once more. -/
theorem late_script_doubles_the_cap :
    ∃ s, run Issuance.step .empty [.call 1 1, .script 0 .ok, .tick 3599999, .call 1 1, .tick 2,
        .script 0 .ok] = some s ∧ s.granted = [⟨0, 1, 1⟩, ⟨0, 1, 1⟩] ∧ issued 0 s.granted = 2 :=
  reaches _ _ _ _ (by decide +kernel)

end

/-! ### Sends -/

section

/-- The script of `check_hourly_rate`: whether the send is counted, with its count or the time to
wait. An error of Redis ends the script where it is. -/
def hourlyScript (ks : Keyspace Nat) (now : Nat) (k : String) (limit : UInt32) :
    Keyspace Nat × Option (Bool × Int) :=
  let current := (ks.get now k).getD 0
  if limit.toNat ≤ current then
    let ttl := ks.ttl now k
    if ttl < 0 then
      match ks.expire now k 3600 with
      | some ks' => (ks', some (false, 3600))
      | none => (ks, none)
    else (ks, some (false, ttl))
  else
    let counted := ks.incr now k
    if current + 1 = 1 then
      match counted.expire now k 3600 with
      | some ks' => (ks', some (true, 1))
      | none => (counted, none)
    else (counted, some (true, current + 1))

def hourKey (userId : String) : String := "rate:msg:\x7b" ++ userId ++ "\x7d:hour"

/-- The check of one send: with an error of Redis, it is allowed. A refusal says how long to wait.
-/
def checkHourlyRate (ks : Keyspace Nat) (now : Nat) (userId : String) (limit : UInt32) (o : Outcome) :
    Keyspace Nat × Except Nat Int :=
  let (ks', reply) := hourlyScript ks now (hourKey userId) limit
  match o, reply with
  | .ok, some (true, value) => (ks', .ok value)
  | .ok, some (false, value) => (ks', .error (max value 1).toNat)
  | .failed, _ => (ks, .ok 0)
  | _, _ => (ks', .ok 0)

structure SendCounter where
  now : Nat
  counters : Keyspace Nat
  allowed : Nat

inductive SendAction
  | tick (ms : Nat)
  | check (limit : UInt32) (o : Outcome)

def SendCounter.empty : SendCounter := ⟨0, .empty, 0⟩

def SendCounter.before (userId : String) (s : SendCounter) : Nat :=
  if (s.counters.get s.now (hourKey userId)).isSome then s.allowed else 0

def SendCounter.step (userId : String) (s : SendCounter) : SendAction → Option SendCounter
  | .tick ms => some { s with now := s.now + ms }
  | .check limit o =>
    let (counters, answer) := checkHourlyRate s.counters s.now userId limit o
    some ⟨s.now, counters, if answer.isOk then s.before userId + 1 else s.before userId⟩

def Answered (s : SendCounter) : SendAction → Prop
  | .check _ o => o = .ok ∧ s.now + 3600 * 1000 ≤ Keyspace.maxDeadline
  | .tick _ => True

instance (s : SendCounter) : (a : SendAction) → Decidable (Answered s a)
  | .check .. => inferInstanceAs (Decidable (_ ∧ _))
  | .tick _ => isTrue trivial

def Bounded (ks : Keyspace Nat) (now : Nat) (k : String) : Prop :=
  ∀ c ∈ ks k, ∀ d ∈ c.deadline, d ≤ now + 3600 * 1000

variable {userId k : String} {ks ks' : Keyspace Nat} {now : Nat} {limit : UInt32}

theorem Bounded.expire (h : Bounded ks now k) (he : ks.expire now k 3600 = some ks') :
    Bounded ks' now k := by
  cases hc : ks.cell now k with
  | some c =>
    intro c' hc' d hd
    rw [expire_apply_self he hc] at hc'
    obtain rfl := some.inj hc'
    exact (some.inj hd).ge
  | none =>
    unfold Keyspace.expire at he
    rw [hc] at he
    split_ifs at he with hr hz
    · cases hz
    · exact some.inj he ▸ h

theorem Bounded.incr (h : Bounded ks now k) : Bounded (ks.incr now k) now k := by
  intro c hc d hd
  rw [Keyspace.incr, update_self] at hc
  obtain rfl := some.inj hc
  cases hk : ks.cell now k with
  | none => simp [hk] at hd
  | some c => exact h c (cell_eq_some_iff.mp hk).1 d (by simpa [hk] using hd)

theorem Bounded.ttl_le (h : Bounded ks now k) : ks.ttl now k ≤ 3600 := by
  unfold Keyspace.ttl
  split
  · decide
  · decide
  · next v d hc =>
    have := h _ (cell_eq_some_iff.mp hc).1 d rfl
    omega

theorem hourlyScript_cases {reply : Option (Bool × Int)} (h : Bounded ks now k)
    (he : hourlyScript ks now k limit = (ks', reply)) : Bounded ks' now k ∧
      ((∃ t, reply = some (false, t) ∧ t ≤ 3600 ∧ ks'.get now k = ks.get now k) ∨
        (∃ n, reply = some (true, n)) ∧ (ks.get now k).getD 0 + 1 ≤ limit.toNat ∧
          ks'.get now k = some ((ks.get now k).getD 0 + 1) ∨
        reply = none ∧ Keyspace.maxDeadline < now + 3600 * 1000) := by
  have hincr : (ks.incr now k).get now k = some ((ks.get now k).getD 0 + 1) := get_modify_self
  simp only [hourlyScript] at he
  split_ifs at he with hl ht hc
  · split at he <;> obtain ⟨rfl, rfl⟩ := Prod.mk.inj he
    · next hx => exact ⟨h.expire hx, .inl ⟨_, rfl, le_rfl, get_expire_self hx (by decide)⟩⟩
    · next hx => exact ⟨h, .inr (.inr ⟨rfl, expire_eq_none_iff.mp hx⟩)⟩
  · obtain ⟨rfl, rfl⟩ := Prod.mk.inj he
    exact ⟨h, .inl ⟨_, rfl, h.ttl_le, rfl⟩⟩
  · split at he <;> obtain ⟨rfl, rfl⟩ := Prod.mk.inj he
    · next hx =>
      exact ⟨h.incr.expire hx, .inr (.inl ⟨⟨_, rfl⟩, not_le.mp hl,
        (get_expire_self hx (by decide)).trans hincr⟩)⟩
    · next hx => exact ⟨h.incr, .inr (.inr ⟨rfl, expire_eq_none_iff.mp hx⟩)⟩
  · obtain ⟨rfl, rfl⟩ := Prod.mk.inj he
    exact ⟨h.incr, .inr (.inl ⟨⟨_, rfl⟩, not_le.mp hl, hincr⟩)⟩

theorem checkHourlyRate_cases {o : Outcome} {answer : Except Nat Int} (h : Bounded ks now (hourKey userId))
    (he : checkHourlyRate ks now userId limit o = (ks', answer)) : Bounded ks' now (hourKey userId) ∧
      ((∃ d, answer = .error d ∧ 1 ≤ d ∧ d ≤ 3600 ∧ ks'.get now (hourKey userId) = ks.get now (hourKey userId)) ∨
        answer.isOk = true ∧ (ks.get now (hourKey userId)).getD 0 + 1 ≤ limit.toNat ∧
          ks'.get now (hourKey userId) = some ((ks.get now (hourKey userId)).getD 0 + 1) ∨
        answer.isOk = true ∧ (o = .ok → Keyspace.maxDeadline < now + 3600 * 1000)) := by
  unfold checkHourlyRate at he
  cases hs : hourlyScript ks now (hourKey userId) limit
  rw [hs] at he
  obtain ⟨hb, hc⟩ := hourlyScript_cases h hs
  cases o with
  | failed =>
    obtain ⟨rfl, rfl⟩ := Prod.mk.inj he
    exact ⟨h, .inr (.inr ⟨rfl, fun ho => by cases ho⟩)⟩
  | lost =>
    obtain ⟨rfl, rfl⟩ := Prod.mk.inj he
    exact ⟨hb, .inr (.inr ⟨rfl, fun ho => by cases ho⟩)⟩
  | ok =>
    rcases hc with ⟨t, hr, ht, hg⟩ | ⟨⟨n, hr⟩, hn, hg⟩ | ⟨hr, hd⟩
    · subst hr
      obtain ⟨rfl, rfl⟩ := Prod.mk.inj he
      exact ⟨hb, .inl ⟨_, rfl, by omega, by omega, hg⟩⟩
    · subst hr
      obtain ⟨rfl, rfl⟩ := Prod.mk.inj he
      exact ⟨hb, .inr (.inl ⟨rfl, hn, hg⟩)⟩
    · subst hr
      obtain ⟨rfl, rfl⟩ := Prod.mk.inj he
      exact ⟨hb, .inr (.inr ⟨rfl, fun _ => hd⟩)⟩

variable {s t : SendCounter}

theorem step_check {o : Outcome} (hst : s.step userId (.check limit o) = some t) :
    ∃ ks answer, checkHourlyRate s.counters s.now userId limit o = (ks, answer) ∧
      t = ⟨s.now, ks, if answer.isOk then s.before userId + 1 else s.before userId⟩ := by
  cases he : checkHourlyRate s.counters s.now userId limit o
  simp only [SendCounter.step, he] at hst
  exact ⟨_, _, rfl, (some.inj hst).symm⟩

theorem Bounded.step {a : SendAction} (h : Bounded s.counters s.now (hourKey userId))
    (hst : s.step userId a = some t) : Bounded t.counters t.now (hourKey userId) := by
  cases a with
  | tick ms =>
    obtain rfl := some.inj hst
    exact fun c hc d hd => (h c hc d hd).trans (by dsimp only; omega)
  | check limit o =>
    obtain ⟨ks, answer, he, rfl⟩ := step_check hst
    exact (checkHourlyRate_cases h he).1

def SendCounter.Counts (userId : String) (s : SendCounter) : Prop :=
  Bounded s.counters s.now (hourKey userId) ∧ ∀ v ∈ s.counters.get s.now (hourKey userId), s.allowed ≤ v

theorem SendCounter.Counts.check {o : Outcome} (h : s.Counts userId) (ha : Answered s (.check limit o))
    (hst : s.step userId (.check limit o) = some t) : t.Counts userId ∧
      ((checkHourlyRate s.counters s.now userId limit o).2.isOk = true → t.allowed ≤ limit.toNat) := by
  obtain ⟨ks, answer, he, rfl⟩ := step_check hst
  obtain ⟨hb, hc⟩ := checkHourlyRate_cases h.1 he
  have hbefore : s.before userId ≤ (s.counters.get s.now (hourKey userId)).getD 0 := by
    unfold SendCounter.before
    cases hg : s.counters.get s.now (hourKey userId) with
    | none => simp
    | some v => simpa using h.2 v hg
  rw [he]
  rcases hc with ⟨d, rfl, -, -, hg⟩ | ⟨hok, hn, hg⟩ | ⟨-, hd⟩
  · refine ⟨⟨hb, fun v hv => ?_⟩, fun hok => by cases hok⟩
    rw [hg] at hv
    exact hbefore.trans (by rw [hv]; rfl)
  · simp only [hok, if_true]
    refine ⟨⟨hb, fun v hv => ?_⟩, fun _ => (Nat.succ_le_succ hbefore).trans hn⟩
    obtain rfl := some.inj (hg.symm.trans hv)
    exact Nat.succ_le_succ hbefore
  · exact absurd (hd ha.1) (not_lt.mpr ha.2)

theorem SendCounter.Counts.step {a : SendAction} (h : s.Counts userId) (ha : Answered s a)
    (hst : s.step userId a = some t) : t.Counts userId := by
  cases a with
  | tick ms =>
    refine ⟨h.1.step hst, ?_⟩
    obtain rfl := some.inj hst
    exact fun v hv => h.2 v (get_mono (Nat.le_add_right _ _) hv)
  | check limit o => exact (h.check ha hst).1

/-- **As long as Redis answers, the sends of a window are within the limit** of each check that
allows one; in every run a refusal leaves the count and names a delay between a second and an hour.
-/
theorem sends_within_limit {actions : List SendAction}
    (hrun : run (SendCounter.step userId) .empty actions = some s) :
    (Along (SendCounter.step userId) Answered .empty actions → ∀ limit o t, Answered s (.check limit o) →
      s.step userId (.check limit o) = some t →
      (checkHourlyRate s.counters s.now userId limit o).2.isOk = true → t.allowed ≤ limit.toNat) ∧
    ∀ limit o ks d, checkHourlyRate s.counters s.now userId limit o = (ks, .error d) →
      ks.get s.now (hourKey userId) = s.counters.get s.now (hourKey userId) ∧ 1 ≤ d ∧ d ≤ 3600 := by
  have hempty : Bounded SendCounter.empty.counters 0 (hourKey userId) := fun c hc => by cases hc
  refine ⟨fun hans limit o t ha hst => ?_, fun limit o ks d he => ?_⟩
  · have hs := run_invariant SendCounter.Counts.step ⟨hempty, fun v hv => by cases hv⟩ hans hrun
    exact (hs.check ha hst).2
  · have hb := run_invariant (G := fun _ _ => True) (fun h _ => Bounded.step h) hempty
      (along_of_forall fun _ _ => trivial) hrun
    rcases (checkHourlyRate_cases hb he).2 with ⟨d', hd, hd₁, hd₂, hg⟩ | ⟨hok, -⟩ | ⟨hok, -⟩
    · cases hd
      exact ⟨hg, hd₁, hd₂⟩
    · cases hok
    · cases hok

theorem sends_within_limit_demo : ∃ s, run (SendCounter.step "u") .empty [.check 2 .ok, .tick 1500] = some s ∧
      ∀ t, s.step "u" (.check 2 .ok) = some t → t.allowed ≤ 2 := by
  obtain ⟨s, hrun, hg⟩ := reaches (SendCounter.step "u") .empty [.check 2 .ok, .tick 1500]
    (fun s => (checkHourlyRate s.counters s.now "u" 2 .ok).2.isOk = true ∧
      s.now + 3600 * 1000 ≤ Keyspace.maxDeadline) (by decide +kernel)
  exact ⟨s, hrun, fun t ht =>
    (sends_within_limit hrun).1 (by decide +kernel) 2 .ok t ⟨rfl, hg.2⟩ ht hg.1⟩

/-- **A send that Redis does not answer is allowed** and not counted. -/
theorem failing_open_passes_the_limit :
    ∃ s, run (SendCounter.step "u") .empty [.check 1 .ok, .check 1 .failed] = some s ∧ s.allowed = 2 :=
  reaches _ _ _ _ (by decide +kernel)

end

end ConstructServer.RateLimit
