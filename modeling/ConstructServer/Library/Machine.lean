import Mathlib.Data.List.Basic

/-!
# Machines with a partial step function

A machine is a partial step function on states: an action names everything the environment
chooses (the interleaving, the clock, which calls fail), so that a schedule determines the run.
A condition on steps is asked of every step of a run, in the state the step starts from.
-/

namespace Machine

open List Option

variable {σ α : Type*} {step : σ → α → Option σ} {G H : σ → α → Prop} {P : σ → Prop}
  {s t : σ} {a : α} {as bs : List α}

/-- The state after a schedule; `none` if one of its steps is not enabled. -/
def run (step : σ → α → Option σ) (s : σ) : List α → Option σ
  | [] => some s
  | a :: as => (step s a).bind fun t => run step t as

@[simp]
theorem run_nil : run step s [] = some s := rfl

theorem run_cons : run step s (a :: as) = (step s a).bind fun t => run step t as := rfl

theorem run_cons_eq_some : run step s (a :: as) = some t ↔ ∃ u, step s a = some u ∧
    run step u as = some t := by
  rw [run_cons, bind_eq_some_iff]

theorem run_append : run step s (as ++ bs) = (run step s as).bind fun t => run step t bs := by
  induction as generalizing s with
  | nil => rfl
  | cons a as ih => simp only [cons_append, run_cons, bind_assoc, ih]

/-- Every step of the run meets `G` in the state it starts from. -/
def Along (step : σ → α → Option σ) (G : σ → α → Prop) (s : σ) : List α → Prop
  | [] => True
  | a :: as => G s a ∧ ∀ t ∈ step s a, Along step G t as

@[simp]
theorem along_nil : Along step G s [] := trivial

theorem along_cons : Along step G s (a :: as) ↔ G s a ∧ ∀ t ∈ step s a, Along step G t as :=
  Iff.rfl

instance decidableAlong [∀ s a, Decidable (G s a)] :
    (s : σ) → (as : List α) → Decidable (Along step G s as)
  | _, [] => isTrue trivial
  | s, a :: as =>
    match h : step s a with
    | none => decidable_of_iff (G s a) (by simp [along_cons, h])
    | some t =>
      have : Decidable (Along step G t as) := decidableAlong t as
      decidable_of_iff (G s a ∧ Along step G t as) (by simp [along_cons, h])

theorem run_invariant (hst : ∀ {s a t}, P s → G s a → step s a = some t → P t)
    (hs : P s) (hg : Along step G s as) (hr : run step s as = some t) : P t := by
  induction as generalizing s with
  | nil =>
    obtain rfl : s = t := by simpa using hr
    exact hs
  | cons a as ih =>
    obtain ⟨u, hu, hr⟩ := run_cons_eq_some.mp hr
    exact ih (hst hs hg.1 hu) (hg.2 u hu) hr

/-- A schedule that is evaluated leads to a state of which `P` holds. -/
theorem reaches (step : σ → α → Option σ) (s : σ) (as : List α) (P : σ → Prop) [DecidablePred P]
    (h : (run step s as).map (fun t => decide (P t)) = some true) : ∃ t, run step s as = some t ∧ P t := by
  obtain ⟨t, hru, hP⟩ := map_eq_some_iff.mp h
  exact ⟨t, hru, of_decide_eq_true hP⟩

/-- Of such a state there is more to say than what is evaluated. -/
theorem reaches_with {P Q : σ → Prop} [DecidablePred P]
    (h : (run step s as).map (fun t => decide (P t)) = some true) (hQ : ∀ t, run step s as = some t → P t → Q t) :
    ∃ t, run step s as = some t ∧ P t ∧ Q t := by
  obtain ⟨t, hru, hP⟩ := reaches step s as P h
  exact ⟨t, hru, hP, hQ t hru hP⟩

theorem reaches_with₂ {P P' Q : σ → Prop} [DecidablePred P] [DecidablePred P']
    (h : (run step s as).map (fun t => decide (P t ∧ P' t)) = some true)
    (hQ : ∀ t, run step s as = some t → P t → P' t → Q t) : ∃ t, run step s as = some t ∧ P t ∧
      P' t ∧ Q t := by
  obtain ⟨t, hru, hP, hP'⟩ := reaches step s as (fun t => P t ∧ P' t) h
  exact ⟨t, hru, hP, hP', hQ t hru hP hP'⟩

/-- A condition that always holds is met along every run. -/
theorem along_of_forall (h : ∀ s a, G s a) : Along step G s as := by
  induction as generalizing s with
  | nil => trivial
  | cons a as ih => exact ⟨h s a, fun t _ => ih⟩

section

variable {π : Type*} {pool : List π} {i : Nat} {p q : π} {next : Option π}

/-- The pool after its process `i` has moved on to `next`, or has ended. -/
def replace (pool : List π) (i : Nat) (next : Option π) : List π :=
  pool.take i ++ next.toList ++ pool.drop (i + 1)

theorem mem_or_mem_of_replace (h : q ∈ replace pool i next) : q ∈ pool ∨ q ∈ next := by
  simp only [replace, mem_append, mem_toList] at h
  rcases h with (h | h) | h
  · exact .inl (mem_of_mem_take h)
  · exact .inr h
  · exact .inl (mem_of_mem_drop h)

theorem mem_replace_none_or_mem (h : q ∈ replace pool i next) : q ∈ replace pool i none ∨ q ∈ next := by
  simp only [replace, mem_append, mem_toList] at h ⊢
  tauto

theorem mem_of_mem_replace_none (h : q ∈ replace pool i none) : q ∈ pool :=
  (mem_or_mem_of_replace h).resolve_right (by simp)

theorem mem_replace_of_next (h : q ∈ next) : q ∈ replace pool i next := by
  simp [replace, mem_def.mp h]

theorem mem_concat {x a : α} {l : List α} (h : x ∈ l ++ [a]) : x ∈ l ∨ x = a :=
  (mem_append.mp h).imp_right mem_singleton.mp

variable (next) in
/-- The other processes are still in the pool. -/
theorem mem_replace_or_eq (hp : pool[i]? = some p) (hq : q ∈ pool) : q ∈ replace pool i next ∨ q = p := by
  obtain ⟨hi, rfl⟩ := List.getElem?_eq_some_iff.mp hp
  rw [← take_append_drop i pool, drop_eq_getElem_cons hi] at hq
  simp only [replace, mem_append, mem_cons] at hq ⊢
  rcases hq with hq | rfl | hq
  · exact .inl (.inl (.inl hq))
  · exact .inr rfl
  · exact .inl (.inr hq)

variable (next) in
theorem countP_replace (P : π → Bool) (hp : pool[i]? = some p) :
    (replace pool i next).countP P + (if P p then 1 else 0) = pool.countP P + next.toList.countP P := by
  obtain ⟨hi, rfl⟩ := List.getElem?_eq_some_iff.mp hp
  have hpo : pool.countP P =
      (pool.take i).countP P + ((if P pool[i] then 1 else 0) + (pool.drop (i + 1)).countP P) := by
    conv_lhs => rw [← take_append_drop i pool, drop_eq_getElem_cons hi]
    rw [countP_append, countP_cons]
    omega
  rw [hpo, replace, countP_append, countP_append]
  omega

end

end Machine
