import Mathlib.Data.List.Nodup

/-!
# Values that are handed out once

Sessions take values out of a stock, and a log keeps who took what. As long as no value that was
taken before comes into the stock again, no value is taken twice.
-/

namespace Handout

variable {ν : Type} {stock stock' : ν → Prop} {log log' : List (Nat × ν)} {n m : Nat}

structure UsedOnce (stock : ν → Prop) (log : List (Nat × ν)) : Prop where
  unused : ∀ v, stock v → v ∉ log.map Prod.snd
  nodup : (log.map Prod.snd).Nodup

/-- Session `n` takes a value, or the stock changes; what is new in the stock was not taken before.
-/
inductive Step (n : Nat) (stock : ν → Prop) (log : List (Nat × ν)) (stock' : ν → Prop) :
    List (Nat × ν) → Prop
  | keep (hstock : ∀ v, stock' v → stock v ∨ v ∉ log.map Prod.snd) : Step n stock log stock' log
  | take (v : ν) (hv : stock v) (hstock : ∀ w, stock' w → stock w ∧ w ≠ v) :
      Step n stock log stock' ((n, v) :: log)

theorem UsedOnce.step (h : UsedOnce stock log) (hst : Step n stock log stock' log') :
    UsedOnce stock' log' := by
  cases hst with
  | keep hs => exact ⟨fun v hv => (hs v hv).elim (h.unused v) id, h.nodup⟩
  | take v hv hs =>
    constructor
    · intro w hw hm
      obtain ⟨hs, hne⟩ := hs w hw
      rcases List.mem_cons.mp hm with heq | hm
      · exact hne heq
      · exact h.unused w hs hm
    · exact List.nodup_cons.mpr ⟨h.unused v hv, h.nodup⟩

def taken (n : Nat) (log : List (Nat × ν)) : List ν :=
  ((log.filter fun p => p.1 = n).map Prod.snd).reverse

theorem taken_cons_self {v : ν} : taken n ((n, v) :: log) = taken n log ++ [v] := by
  simp [taken]

theorem taken_cons_of_ne {v : ν} (h : m ≠ n) : taken n ((m, v) :: log) = taken n log := by
  simp [taken, h]

theorem Step.taken_of_ne (h : Step m stock log stock' log') (hne : m ≠ n) : taken n log' = taken n log := by
  cases h with
  | keep => rfl
  | take v => exact taken_cons_of_ne hne

theorem mem_taken {v : ν} : v ∈ taken n log ↔ (n, v) ∈ log := by
  simp [taken]

theorem UsedOnce.nodup_taken (h : UsedOnce stock log) : (taken n log).Nodup :=
  List.nodup_reverse.mpr (h.nodup.sublist (List.filter_sublist.map _))

theorem UsedOnce.nodup_flatMap_taken (h : UsedOnce stock log) {sessions : List Nat}
    (hse : sessions.Nodup) : (sessions.flatMap fun n => taken n log).Nodup := by
  refine List.nodup_flatMap.mpr ⟨fun _ _ => h.nodup_taken, hse.imp fun {n m} hne => ?_⟩
  intro v hn hm
  have heq := List.inj_on_of_nodup_map h.nodup (mem_taken.mp hn) (mem_taken.mp hm) rfl
  exact hne (congrArg Prod.fst heq)

end Handout
