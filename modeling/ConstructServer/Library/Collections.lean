import Mathlib.Data.List.AList
import Mathlib.Data.List.Sort

/-!
# Maps filled by a loop, unordered iteration and stable sorting

What a program that collects values in a hash map and then sorts them depends on: a later
insert replaces an earlier one, the values come out in an order nobody chose, and a stable sort
keeps that order only between equal keys.
-/

namespace Collections

open List

section

variable {κ ν : Type*} [DecidableEq κ]

def insertAll (l : List (κ × ν)) (m : AList fun _ : κ => ν) : AList fun _ : κ => ν :=
  l.foldl (fun m p => m.insert p.1 p.2) m

def values (m : AList fun _ : κ => ν) : List ν := m.entries.map Sigma.snd

theorem mem_values {m : AList fun _ : κ => ν} {v : ν} : v ∈ values m ↔ ∃ k, m.lookup k = some v := by
  simp only [values, mem_map, Sigma.exists, exists_eq_right]
  exact exists_congr fun k => AList.mem_lookup_iff.symm

variable {l : List (κ × ν)} {m : AList fun _ : κ => ν} {k : κ} {v : ν}

theorem lookup_insertAll_of_not_mem (h : ∀ v, (k, v) ∉ l) : (insertAll l m).lookup k = m.lookup k := by
  induction l generalizing m with
  | nil => rfl
  | cons p l ih =>
    have hp : k ≠ p.1 := by
      rintro rfl
      exact h p.2 (by simp)
    have hl : ∀ v, (k, v) ∉ l := fun v hv => h v (by simp [hv])
    exact (ih hl).trans (AList.lookup_insert_ne hp)

theorem exists_lookup_insertAll {R : ν → ν → Prop} (hre : ∀ v, R v v)
    (hl : l.Pairwise fun a b => a.1 = b.1 → R a.2 b.2) (h : (k, v) ∈ l) :
    ∃ v', (insertAll l m).lookup k = some v' ∧ (k, v') ∈ l ∧ R v v' := by
  induction l generalizing m v with
  | nil => exact absurd h not_mem_nil
  | cons p l ih =>
    obtain ⟨hp, hr⟩ := pairwise_cons.mp hl
    obtain rfl | h := mem_cons.mp h
    · by_cases hk : ∃ w, (k, w) ∈ l
      · obtain ⟨w, hw⟩ := hk
        obtain ⟨v', hlo, hm, -⟩ := ih hr hw
        exact ⟨v', hlo, mem_cons_of_mem _ hm, hp _ hm rfl⟩
      · refine ⟨v, ?_, mem_cons_self, hre v⟩
        have hla := lookup_insertAll_of_not_mem (m := m.insert k v) (not_exists.mp hk)
        exact hla.trans (AList.lookup_insert m)
    · obtain ⟨v', hlo, hm, hR⟩ := ih hr h
      exact ⟨v', hlo, mem_cons_of_mem _ hm, hR⟩

theorem mem_of_lookup_insertAll (h : (insertAll l m).lookup k = some v) :
    (k, v) ∈ l ∨ (∀ w, (k, w) ∉ l) ∧ m.lookup k = some v := by
  by_cases hk : ∃ w, (k, w) ∈ l
  · obtain ⟨w, hw⟩ := hk
    obtain ⟨v', hl, hm, -⟩ :=
      exists_lookup_insertAll (R := fun _ _ => True) (m := m) (fun _ => trivial)
        (pairwise_of_forall fun _ _ _ => trivial) hw
    obtain rfl := Option.some.inj (hl.symm.trans h)
    exact .inl hm
  · rw [lookup_insertAll_of_not_mem (not_exists.mp hk)] at h
    exact .inr ⟨not_exists.mp hk, h⟩

end

/-- An order in which the values of a hash map are visited: any permutation. -/
structure IterOrder (ν : Type*) where
  order : List ν → List ν
  perm : ∀ l, (order l).Perm l

def IterOrder.identity (ν : Type*) : IterOrder ν := ⟨id, List.Perm.refl⟩

@[simp]
theorem IterOrder.mem_order {ν : Type*} (o : IterOrder ν) {l : List ν} {v : ν} : v ∈ o.order l ↔ v ∈ l :=
  (o.perm l).mem_iff

@[simp]
theorem IterOrder.order_nil {ν : Type*} (o : IterOrder ν) : o.order [] = [] :=
  (o.perm []).eq_nil

section

variable {α β : Type*} [LinearOrder β] {f : α → β} {R : α → α → Prop} {a : α} {l : List α}

def StableLE (f : α → β) (R : α → α → Prop) (a b : α) : Prop := f a < f b ∨ f a = f b ∧ R a b

theorem StableLE.le {b : α} (h : StableLE f R a b) : f a ≤ f b :=
  h.elim le_of_lt fun h => h.1.le

theorem pairwise_orderedInsert_stable (ha : ∀ b ∈ l, R a b) (hl : l.Pairwise (StableLE f R)) :
    (l.orderedInsert (fun a b => f a ≤ f b) a).Pairwise (StableLE f R) := by
  induction l with
  | nil => simp
  | cons b l ih =>
    obtain ⟨hb, hl⟩ := pairwise_cons.mp hl
    rw [orderedInsert_cons]
    split_ifs with hab
    · refine pairwise_cons.mpr ⟨fun c hc => ?_, pairwise_cons.mpr ⟨hb, hl⟩⟩
      have hac : f a ≤ f c := by
        obtain rfl | hc := mem_cons.mp hc
        · exact hab
        · exact hab.trans (hb c hc).le
      exact hac.lt_or_eq.imp id fun h => ⟨h, ha c hc⟩
    · refine pairwise_cons.mpr ⟨fun c hc => ?_, ih (fun c hc => ha c (by simp [hc])) hl⟩
      obtain rfl | hc := (mem_orderedInsert _).mp hc
      · exact .inl (not_le.mp hab)
      · exact hb c hc

theorem pairwise_insertionSort_stable (hl : l.Pairwise R) :
    (l.insertionSort fun a b => f a ≤ f b).Pairwise (StableLE f R) := by
  induction l with
  | nil => simp
  | cons a l ih =>
    obtain ⟨ha, hl⟩ := pairwise_cons.mp hl
    rw [insertionSort_cons]
    refine pairwise_orderedInsert_stable (fun b hb => ha b ?_) (ih hl)
    exact (mem_insertionSort _).mp hb

end

end Collections
