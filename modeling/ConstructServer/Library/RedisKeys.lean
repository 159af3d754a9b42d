import Mathlib.Data.Finset.Card
import Mathlib.Logic.Function.Basic
import ConstructServer.Library.RedisStream

/-!
# Redis keys with a time to live

A keyspace maps keys to values, some with a deadline in milliseconds. A key past its deadline is
gone for every command.
-/

namespace Redis

open Option Function

/-- A value and, unless it stays, the last time at which it is there. -/
structure Cell (ν : Type*) where
  value : ν
  deadline : Option Nat

def Cell.live {ν : Type*} (c : Cell ν) (now : Nat) : Bool := c.deadline.all (now ≤ ·)

theorem Cell.live_mono {ν : Type*} {c : Cell ν} {now now' : Nat} (h : now ≤ now')
    (hl : c.live now' = true) : c.live now = true := by
  unfold Cell.live at hl ⊢
  cases hd : c.deadline with
  | none => rfl
  | some d =>
    rw [hd, all_some, decide_eq_true_eq] at hl
    simpa using le_trans h hl

abbrev Keyspace (ν : Type*) := String → Option (Cell ν)

namespace Keyspace

variable {ν : Type*} (ks : Keyspace ν) (now : Nat) (k : String)

def empty : Keyspace ν := fun _ => none

def cell : Option (Cell ν) := (ks k).filter (·.live now)

def get : Option ν := (ks.cell now k).map Cell.value

/-- A write with an optional time to live in seconds. -/
def set (v : ν) (ttl : Option Nat) : Keyspace ν :=
  update ks k (some ⟨v, ttl.map (now + · * 1000)⟩)

/-- `SET NX`: a write that is done only if the key is not there. -/
def setNX (v : ν) (ttl : Option Nat) : Keyspace ν × Bool :=
  if (ks.get now k).isSome then (ks, false) else (ks.set now k v ttl, true)

/-- `INCR`: the deadline stays; a key that is not there starts at zero and without one. -/
def incr (ks : Keyspace Nat) (now : Nat) (k : String) : Keyspace Nat :=
  let c := (ks.cell now k).getD ⟨0, none⟩
  update ks k (some { c with value := c.value + 1 })

/-- `PERSIST`. -/
def persist : Keyspace ν :=
  match ks.cell now k with
  | some c => update ks k (some { c with deadline := none })
  | none => ks

/-- The last millisecond that a deadline can be. -/
def maxDeadline : Nat := 2 ^ 63 - 1

/-- `EXPIRE` with a time to live in seconds: out of range is an error, and zero removes the key. -/
def expire (ttl : Nat) : Option (Keyspace ν) :=
  if maxDeadline < now + ttl * 1000 then none
  else if ttl = 0 then some (update ks k none)
  else
    match ks.cell now k with
    | some c => some (update ks k (some { c with deadline := some (now + ttl * 1000) }))
    | none => some ks

/-- `SETEX`: a time to live of zero or out of range is an error. -/
def setEx (v : ν) (ttl : Nat) : Option (Keyspace ν) :=
  if ttl = 0 ∨ maxDeadline < now + ttl * 1000 then none else some (ks.set now k v (some ttl))

/-- `TTL`: in seconds and rounded, or why there is none. -/
def ttl : Int :=
  match ks.cell now k with
  | none => -2
  | some ⟨_, none⟩ => -1
  | some ⟨_, some deadline⟩ => ((deadline - now + 500) / 1000 : Nat)

/-- `SMEMBERS`; a key that is not there is the empty set. -/
def smembers {α : Type*} (ks : Keyspace (Finset α)) (now : Nat) (k : String) : Finset α :=
  (ks.get now k).getD ∅

/-- `SADD` of one member; the deadline stays. -/
def sadd {α : Type*} [DecidableEq α] (ks : Keyspace (Finset α)) (now : Nat) (k : String) (x : α) :
    Keyspace (Finset α) :=
  let c := (ks.cell now k).getD ⟨∅, none⟩
  update ks k (some { c with value := insert x c.value })

/-- A write to a part of a value, such as `HSET`: the deadline stays, and a key that is not there
starts with `init` and without one. -/
def modify (init : ν) (f : ν → ν) : Keyspace ν :=
  let c := (ks.cell now k).getD ⟨init, none⟩
  update ks k (some { c with value := f c.value })

/-- `DEL`. -/
def del : Keyspace ν := update ks k none

variable {ks now k} {k' : String} {v : ν} {ttl : Option Nat} {ks' : Keyspace ν} {c : Cell ν}

theorem cell_eq_some_iff : ks.cell now k = some c ↔ ks k = some c ∧ c.live now = true :=
  filter_eq_some_iff

theorem get_eq_some_iff : ks.get now k = some v ↔ ∃ c, ks k = some c ∧ c.live now = true ∧ c.value = v := by
  simp only [get, map_eq_some_iff, cell_eq_some_iff, and_assoc]

/-- Commands on a key see what is under it. -/
theorem cell_congr (h : ks' k = ks k) : ks'.cell now k = ks.cell now k := by
  rw [cell, h, cell]

theorem get_congr (h : ks' k = ks k) : ks'.get now k = ks.get now k := by
  rw [get, cell_congr h, get]

@[simp]
theorem get_empty : (empty : Keyspace ν).get now k = none := rfl

@[simp]
theorem get_del_self : (ks.del k).get now k = none := by
  simp [get, cell, del]

theorem del_apply_of_ne (h : k' ≠ k) : ks.del k k' = ks k' := update_of_ne h _ _

theorem set_apply_of_ne (h : k' ≠ k) : ks.set now k v ttl k' = ks k' := update_of_ne h _ _

theorem set_apply_self : ks.set now k v ttl k = some ⟨v, ttl.map (now + · * 1000)⟩ :=
  update_self _ _ _

theorem deadline_of_set {ttl : Nat} (h : c ∈ ks.set now k v (some ttl) k) :
    c.deadline = some (now + ttl * 1000) := by
  rw [set_apply_self, mem_some_iff] at h
  subst h
  rfl

/-- `SET NX` writes exactly if the key is not there. -/
theorem setNX_eq {fresh : Bool} (h : ks.setNX now k v ttl = (ks', fresh)) :
    (fresh = true ∧ ks.get now k = none ∧ ks' = ks.set now k v ttl) ∨
      (fresh = false ∧ (ks.get now k).isSome ∧ ks' = ks) := by
  unfold setNX at h
  split_ifs at h with hg
  · exact .inr ⟨(Prod.mk.inj h).2.symm, hg, (Prod.mk.inj h).1.symm⟩
  · exact .inl ⟨(Prod.mk.inj h).2.symm, by simpa using hg, (Prod.mk.inj h).1.symm⟩

/-- A key is there until its deadline. -/
theorem get_of_le {d : Nat} (h : ks k = some ⟨v, some d⟩) (hle : now ≤ d) : ks.get now k = some v :=
  get_eq_some_iff.mpr ⟨_, h, by simp [Cell.live, hle], rfl⟩

theorem get_set_self {ttl : Nat} : (ks.set now k v (some ttl)).get now k = some v :=
  get_of_le set_apply_self (Nat.le_add_right _ _)

theorem get_set_of_ne {now' : Nat} (h : k' ≠ k) : (ks.set now k v ttl).get now' k' = ks.get now' k' :=
  get_congr (set_apply_of_ne h)

theorem get_del_of_ne (h : k' ≠ k) : (ks.del k).get now k' = ks.get now k' :=
  get_congr (del_apply_of_ne h)

theorem isSome_of_isSome_get (h : (ks.get now k).isSome) : (ks k).isSome := by
  obtain ⟨v, hv⟩ := isSome_iff_exists.mp h
  obtain ⟨c, hc, -⟩ := get_eq_some_iff.mp hv
  rw [hc]
  rfl

/-- Time only takes keys away. -/
theorem get_mono {now' : Nat} (h : now ≤ now') (hg : ks.get now' k = some v) : ks.get now k = some v := by
  obtain ⟨c, hc, hl, hva⟩ := get_eq_some_iff.mp hg
  exact get_eq_some_iff.mpr ⟨c, hc, Cell.live_mono h hl, hva⟩

theorem modify_apply_of_ne {init : ν} {f : ν → ν} (h : k' ≠ k) : ks.modify now k init f k' = ks k' :=
  update_of_ne h _ _

theorem modify_apply_self {init : ν} {f : ν → ν} :
    ks.modify now k init f k = some { (ks.cell now k).getD ⟨init, none⟩ with
      value := f ((ks.cell now k).getD ⟨init, none⟩).value } :=
  update_self _ _ _

/-- A write to a part of a value is seen at once. -/
theorem get_modify_self {init : ν} {f : ν → ν} :
    (ks.modify now k init f).get now k = some (f ((ks.get now k).getD init)) := by
  refine get_eq_some_iff.mpr ⟨_, modify_apply_self, ?_, ?_⟩
  · cases hc : ks.cell now k with
    | none => rfl
    | some c => exact (cell_eq_some_iff.mp hc).2
  · rw [get]
    cases ks.cell now k <;> rfl

theorem incr_apply_of_ne {ks : Keyspace Nat} (h : k' ≠ k) : ks.incr now k k' = ks k' :=
  update_of_ne h _ _

theorem incr_apply_self {ks : Keyspace Nat} {c : Cell Nat} (h : ks k = some c)
    (hl : c.live now = true) : ks.incr now k k = some { c with value := c.value + 1 } := by
  simp [incr, cell_eq_some_iff.mpr ⟨h, hl⟩]

section

variable {ttl : Nat}

theorem expire_eq_none_iff : ks.expire now k ttl = none ↔ maxDeadline < now + ttl * 1000 := by
  unfold expire
  split_ifs with hr hz
  · simp [hr]
  · simp [hr]
  · split <;> simp [hr]

theorem setEx_eq_some_iff : ks.setEx now k v ttl = some ks' ↔
    ttl ≠ 0 ∧ now + ttl * 1000 ≤ maxDeadline ∧ ks' = ks.set now k v (some ttl) := by
  unfold setEx
  split_ifs with h
  · simp only [false_iff, not_and]
    intro hne hle
    omega
  · rw [some_inj, eq_comm]
    refine ⟨fun heq => ⟨?_, ?_, heq⟩, fun heq => heq.2.2⟩ <;> omega

theorem expire_apply_of_ne (h : ks.expire now k ttl = some ks') (hne : k' ≠ k) : ks' k' = ks k' := by
  unfold expire at h
  split_ifs at h
  · obtain rfl := some_inj.mp h
    exact update_of_ne hne _ _
  · split at h
    · obtain rfl := some_inj.mp h
      exact update_of_ne hne _ _
    · obtain rfl := some_inj.mp h
      rfl

theorem expire_apply_self (h : ks.expire now k ttl = some ks') (hc : ks.cell now k = some c) :
    ks' k = if ttl = 0 then none else some { c with deadline := some (now + ttl * 1000) } := by
  unfold expire at h
  split_ifs at h ⊢
  · obtain rfl := some_inj.mp h
    exact update_self _ _ _
  · rw [hc] at h
    obtain rfl := some_inj.mp h
    exact update_self _ _ _

theorem get_expire_self (h : ks.expire now k ttl = some ks') (hpo : 0 < ttl) :
    ks'.get now k = ks.get now k := by
  cases hc : ks.cell now k with
  | some c =>
    have hse := expire_apply_self h hc
    rw [if_neg (Nat.ne_of_gt hpo)] at hse
    rw [get_of_le hse (by omega), get, hc]
    rfl
  | none =>
    unfold expire at h
    rw [hc] at h
    split_ifs at h
    · omega
    · cases h
      rfl

end

section

variable {α : Type*} {sets sets' : Keyspace (Finset α)}

theorem smembers_congr (h : sets' k = sets k) : sets'.smembers now k = sets.smembers now k := by
  rw [smembers, get_congr h, smembers]

@[simp]
theorem smembers_del_self : (sets.del k).smembers now k = ∅ := by
  rw [smembers, get_del_self, getD_none]

/-- A deadline does not bring members. -/
theorem smembers_expire_subset {ttl : Nat} (h : sets.expire now k ttl = some sets') :
    sets'.smembers now k ⊆ sets.smembers now k := by
  unfold smembers get
  cases hc : sets.cell now k with
  | none =>
    have hno : sets'.cell now k = none := by
      unfold expire at h
      split_ifs at h
      · obtain rfl := some_inj.mp h
        simp [cell]
      · rw [hc] at h
        obtain rfl := some_inj.mp h
        exact hc
    rw [hno]
  | some c =>
    cases hc' : sets'.cell now k with
    | none => exact Finset.empty_subset _
    | some c' =>
      have hse := expire_apply_self h hc
      rw [(cell_eq_some_iff.mp hc').1] at hse
      split_ifs at hse
      obtain rfl := some_inj.mp hse
      exact Finset.Subset.refl _

variable [DecidableEq α] {x : α}

theorem sadd_apply_of_ne (h : k' ≠ k) : sets.sadd now k x k' = sets k' := update_of_ne h _ _

/-- The key of a member that is added is there. -/
theorem cell_sadd_self : (sets.sadd now k x).cell now k =
    some ⟨insert x (sets.smembers now k), (sets.cell now k).bind Cell.deadline⟩ := by
  unfold sadd smembers get
  rw [cell_eq_some_iff, update_self]
  cases hc : sets.cell now k with
  | none => exact ⟨rfl, rfl⟩
  | some c => exact ⟨rfl, (cell_eq_some_iff.mp hc).2⟩

@[simp]
theorem smembers_sadd_self : (sets.sadd now k x).smembers now k = insert x (sets.smembers now k) := by
  rw [smembers, get, cell_sadd_self, map_some, getD_some]

end

section

variable {log : List (String × Nat)} {ttl : Nat}

/-- The keys of the log were written at the times beside them, each for the same number of seconds,
and are there until then. -/
def Logged (ks : Keyspace ν) (now ttl : Nat) (log : List (String × Nat)) : Prop :=
  ∀ e ∈ log, e.2 ≤ now ∧
    (now ≤ e.2 + ttl * 1000 → ∃ v, ks e.1 = some ⟨v, some (e.2 + ttl * 1000)⟩)

theorem logged_nil : ks.Logged now ttl [] := fun _ he => by cases he

theorem Logged.tick {now' : Nat} (h : ks.Logged now ttl log) (hle : now ≤ now') :
    ks.Logged now' ttl log := by
  intro e he
  obtain ⟨hti, hce⟩ := h e he
  exact ⟨hti.trans hle, fun hl => hce (hle.trans hl)⟩

/-- A key that is not there was written long enough ago. -/
theorem Logged.expired (h : ks.Logged now ttl log) (hg : ks.get now k = none) {time : Nat}
    (hm : (k, time) ∈ log) : time + ttl * 1000 < now := by
  by_contra hlt
  obtain ⟨v, hce⟩ := (h _ hm).2 (by omega)
  rw [get_of_le hce (by omega)] at hg
  cases hg

/-- A key that is not there is written and logged. -/
theorem Logged.set (h : ks.Logged now ttl log) (hg : ks.get now k = none) (v : ν) :
    (ks.set now k v (some ttl)).Logged now ttl (log ++ [(k, now)]) := by
  intro e he
  rcases List.mem_append.mp he with ho | hn
  · obtain ⟨hti, hce⟩ := h e ho
    refine ⟨hti, fun hlt => ?_⟩
    have hne : e.1 ≠ k := by
      rintro rfl
      have hexp := h.expired hg ho
      omega
    obtain ⟨v', hce⟩ := hce hlt
    exact ⟨v', by rw [Keyspace.set, update_of_ne hne, hce]⟩
  · rw [List.mem_singleton.mp hn]
    exact ⟨le_rfl, fun _ => ⟨v, by simp [Keyspace.set]⟩⟩

theorem Logged.incr {ks : Keyspace Nat} (h : ks.Logged now ttl log) :
    (ks.incr now k).Logged now ttl log := by
  intro e he
  obtain ⟨hti, hce⟩ := h e he
  refine ⟨hti, fun hlt => ?_⟩
  obtain ⟨v, hce⟩ := hce hlt
  by_cases hk : e.1 = k
  · refine ⟨v + 1, ?_⟩
    rw [← hk, incr_apply_self hce (by simp [Cell.live, hlt])]
  · exact ⟨v, by rw [incr_apply_of_ne hk, hce]⟩

end

end Keyspace

end Redis
