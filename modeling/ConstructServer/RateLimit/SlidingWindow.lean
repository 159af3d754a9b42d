import Mathlib.Data.List.Induction
import ConstructServer.Library.Table

/-!
# The sliding window of the media service

The limiter keeps the times of the calls it allowed and forgets those that are a window old. A call
reads the clock before it takes the lock, so the times of successive calls may run backwards a
little; by as much, the window in which the limit holds is shorter.
-/

namespace ConstructServer.RateLimit

open List

/-- Times are counted in the units of the clock. -/
structure SlidingWindowLimiter (κ : Type) where
  inner : Table κ (List Nat)
  max : Nat
  window : Nat

namespace SlidingWindowLimiter

variable {κ : Type} [DecidableEq κ] {l : SlidingWindowLimiter κ} {k key : κ} {now δ : Nat}

def new (maxPerWindow window : Nat) : SlidingWindowLimiter κ := ⟨.empty, Nat.max maxPerWindow 1, window⟩

def set (l : SlidingWindowLimiter κ) (key : κ) (entries : List Nat) : Table κ (List Nat) :=
  (l.inner.insertNew key []).modify fun k es => if k = key then entries else es

def entries (l : SlidingWindowLimiter κ) (key : κ) : List Nat := (l.inner.get? key).getD []

def live (l : SlidingWindowLimiter κ) (key : κ) (now : Nat) : List Nat :=
  (l.entries key).filter fun t => now - t < l.window

def prune (map : Table κ (List Nat)) : Table κ (List Nat) :=
  if 10000 < map.rows.length then map.filter fun _ es => es ≠ [] else map

def checkAndRecord (l : SlidingWindowLimiter κ) (key : κ) (now : Nat) : Bool × SlidingWindowLimiter κ :=
  if l.max ≤ (l.live key now).length then (false, { l with inner := l.set key (l.live key now) })
  else (true, { l with inner := prune (l.set key (l.live key now ++ [now])) })

def serve (s : (κ → List Nat) × SlidingWindowLimiter κ) (call : κ × Nat) :
    (κ → List Nat) × SlidingWindowLimiter κ :=
  let (ok, l) := s.2.checkAndRecord call.1 call.2
  (fun k => s.1 k ++ if k = call.1 ∧ ok then [call.2] else [], l)

def allowed (l : SlidingWindowLimiter κ) (calls : List (κ × Nat)) (key : κ) : List Nat :=
  (calls.foldl serve (fun _ => [], l)).1 key

theorem get?_set {es : List Nat} :
    (l.set key es).get? k = if k = key then some es else l.inner.get? k := by
  rw [set, Table.get?_modify, Table.get?_insertNew]
  by_cases hk : k = key
  · cases l.inner.get? key <;> simp [hk]
  · cases l.inner.get? k <;> simp [hk]

theorem getD_get?_prune {map : Table κ (List Nat)} :
    ((prune map).get? k).getD [] = (map.get? k).getD [] := by
  unfold prune
  split
  · rw [Table.get?_filter]
    rcases map.get? k with _ | _ | _ <;> rfl
  · rfl

theorem entries_checkAndRecord :
    (l.checkAndRecord key now).2.entries k = if k = key then
      l.live key now ++ (if (l.checkAndRecord key now).1 then [now] else []) else l.entries k := by
  unfold checkAndRecord
  split
  · rw [entries, get?_set]
    split <;> simp [entries]
  · rw [entries, getD_get?_prune, get?_set]
    split <;> simp [entries]

theorem checkAndRecord_fst : (l.checkAndRecord key now).1 = true ↔ (l.live key now).length < l.max := by
  unfold checkAndRecord
  split <;> simp_all

theorem checkAndRecord_limits :
    (l.checkAndRecord key now).2.max = l.max ∧ (l.checkAndRecord key now).2.window = l.window := by
  unfold checkAndRecord
  split <;> exact ⟨rfl, rfl⟩

/-- After the calls of a run: the entries still have every allowed call that was no window old at
any call, and the limit holds. A clock is at most `δ` behind that of an earlier call. -/
structure Keeps (l₀ : SlidingWindowLimiter κ) (δ : Nat) (calls : List (κ × Nat))
    (s : (κ → List Nat) × SlidingWindowLimiter κ) : Prop where
  max_eq : s.2.max = l₀.max
  window_eq : s.2.window = l₀.window
  kept : ∀ k m, (∀ c ∈ calls, c.2 ≤ m) →
    ((s.1 k).filter fun t => m - t < l₀.window).Sublist (s.2.entries k)
  bounded : ∀ k start, ((s.1 k).countP fun t => start ≤ t ∧ t + δ < start + l₀.window) ≤ l₀.max

variable {l₀ : SlidingWindowLimiter κ} {calls : List (κ × Nat)} {s : (κ → List Nat) × SlidingWindowLimiter κ}

theorem Keeps.live {m : Nat} (h : Keeps l₀ δ calls s) (hm : ∀ c ∈ calls, c.2 ≤ m) (hnow : now ≤ m) :
    ((s.1 key).filter fun t => m - t < l₀.window).Sublist (s.2.live key now) := by
  have hli := (h.kept key m hm).filter fun t => now - t < l₀.window
  rw [filter_filter] at hli
  rw [SlidingWindowLimiter.live, h.window_eq]
  refine (filter_congr fun t _ => ?_) ▸ hli
  have : m - t < l₀.window → now - t < l₀.window := by omega
  simpa using this

theorem Keeps.step {c : κ × Nat} (h : Keeps l₀ δ calls s) (hlag : ∀ d ∈ calls, d.2 ≤ c.2 + δ) :
    Keeps l₀ δ (calls ++ [c]) (serve s c) where
  max_eq := checkAndRecord_limits.1.trans h.max_eq
  window_eq := checkAndRecord_limits.2.trans h.window_eq
  kept := by
    intro k m hm
    simp only [mem_append, mem_singleton, or_imp, forall_and, forall_eq] at hm
    simp only [serve, filter_append, entries_checkAndRecord]
    by_cases hk : k = c.1
    · subst hk
      simpa using (h.live hm.1 hm.2).append filter_sublist
    · simpa [hk] using h.kept k m hm.1
  bounded := by
    intro k start
    simp only [serve, countP_append]
    split_ifs with hac
    · obtain ⟨rfl, hok⟩ := hac
      rw [checkAndRecord_fst, h.max_eq] at hok
      rw [countP_singleton]
      split_ifs with hin
      · -- The allowed calls of this time are all still among the entries.
        have hsu : ((s.1 c.1).filter fun t => start ≤ t ∧ t + δ < start + l₀.window).Sublist (s.2.live c.1 c.2) := by
          refine .trans (monotone_filter_right _ fun t ht => ?_) (h.live hlag (Nat.le_add_right _ _))
          simp only [decide_eq_true_eq] at ht hin ⊢
          omega
        rw [countP_eq_length_filter]
        exact Nat.lt_of_le_of_lt hsu.length_le hok
      · exact h.bounded c.1 start
    · exact h.bounded k start

/-- In any time that is shorter than the window by the lag of the clocks, at most the limit of a
key's calls are allowed. -/
theorem allowed_in_window_le {maxPerWindow window δ : Nat} {calls : List (κ × Nat)}
    (hlag : calls.Pairwise fun c d => c.2 ≤ d.2 + δ) (key : κ) (start : Nat) :
    ((allowed (new maxPerWindow window) calls key).countP fun t => start ≤ t ∧ t + δ < start + window) ≤
      Nat.max maxPerWindow 1 := by
  refine @Keeps.bounded κ _ (new maxPerWindow window) δ calls _ ?_ key start
  induction calls using List.reverseRecOn with
  | nil => exact ⟨rfl, rfl, fun _ _ _ => nil_sublist _, fun _ _ => Nat.zero_le _⟩
  | append_singleton calls c ih =>
    rw [pairwise_append] at hlag
    rw [foldl_concat]
    exact (ih hlag.1).step fun d hd => hlag.2.2 d hd c (mem_singleton_self c)

/-- Of four calls with clocks that run backwards by one, two are allowed at first and one later. -/
theorem two_allowed_in_nine :
    ((allowed (new 2 10) [((), 1), ((), 0), ((), 3), ((), 10)] ()).countP fun t => 0 ≤ t ∧ t + 1 < 0 + 10) ≤ 2 :=
  allowed_in_window_le (by decide) () 0

end SlidingWindowLimiter

end ConstructServer.RateLimit
