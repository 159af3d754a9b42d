import Mathlib.Data.List.Nodup

/-!
# Tables with a primary key

Rows in the order in which they were inserted, no two with the same key, and the four statements on
them: update, delete, insert unless the key is taken, and look-up.
-/

structure Table (κ ρ : Type) where
  rows : List (κ × ρ)
  unique : (rows.map Prod.fst).Nodup

namespace Table

open List

variable {κ ρ : Type}

def empty : Table κ ρ := ⟨[], nodup_nil⟩

/-- `UPDATE`: every row gets a new value, which may be the old one. -/
def modify (f : κ → ρ → ρ) (t : Table κ ρ) : Table κ ρ where
  rows := t.rows.map fun (k, r) => (k, f k r)
  unique := by
    rw [map_map]
    exact t.unique

/-- `DELETE`: the rows for which `keep` fails go away. -/
def filter (keep : κ → ρ → Bool) (t : Table κ ρ) : Table κ ρ where
  rows := t.rows.filter fun (k, r) => keep k r
  unique := t.unique.sublist (filter_sublist.map _)

variable [DecidableEq κ]

def get? (t : Table κ ρ) (k : κ) : Option ρ := (t.rows.find? fun p => p.1 = k).map Prod.snd

/-- `INSERT … ON CONFLICT DO NOTHING`. -/
def insertNew (k : κ) (r : ρ) (t : Table κ ρ) : Table κ ρ :=
  if h : k ∈ t.rows.map Prod.fst then t else
    { rows := t.rows ++ [(k, r)]
      unique := by
        rw [map_append]
        refine t.unique.append (nodup_singleton _) fun a ha hk => h ?_
        rwa [mem_singleton.mp hk] at ha }

variable {t : Table κ ρ} {k k' : κ} {r : ρ}

theorem get?_eq_some_iff : t.get? k = some r ↔ (k, r) ∈ t.rows := by
  simp only [get?, Option.map_eq_some_iff]
  constructor
  · rintro ⟨⟨k', r'⟩, hf, rfl⟩
    have hk : k' = k := by simpa using List.find?_some hf
    exact hk ▸ mem_of_find?_eq_some hf
  · intro hm
    have hs : (t.rows.find? fun p => p.1 = k).isSome :=
      List.find?_isSome.mpr ⟨(k, r), hm, decide_eq_true rfl⟩
    obtain ⟨p, hp⟩ := Option.isSome_iff_exists.mp hs
    have hk : p.1 = k := by simpa using List.find?_some hp
    -- The keys are unique, so the row that is found is the one that is meant.
    exact ⟨p, hp, congrArg Prod.snd (inj_on_of_nodup_map t.unique (mem_of_find?_eq_some hp) hm hk)⟩

theorem get?_eq_none_iff : t.get? k = none ↔ k ∉ t.rows.map Prod.fst := by
  rw [Option.eq_none_iff_forall_ne_some, mem_map, not_exists]
  constructor
  · rintro h ⟨k', r⟩ ⟨hm, rfl⟩
    exact h r (get?_eq_some_iff.mpr hm)
  · intro h r hg
    exact h (k, r) ⟨get?_eq_some_iff.mp hg, rfl⟩

@[simp] theorem get?_empty : (empty : Table κ ρ).get? k = none := rfl

@[simp] theorem get?_modify {f : κ → ρ → ρ} : (t.modify f).get? k = (t.get? k).map (f k) := by
  ext r
  rw [get?_eq_some_iff, Option.map_eq_some_iff]
  simp only [modify, mem_map, Prod.mk.injEq, Prod.exists]
  constructor
  · rintro ⟨k', r', hm, rfl, rfl⟩
    exact ⟨r', get?_eq_some_iff.mpr hm, rfl⟩
  · rintro ⟨r', hg, rfl⟩
    exact ⟨k, r', get?_eq_some_iff.mp hg, rfl, rfl⟩

omit [DecidableEq κ] in
/-- An update that leaves every row as it is. -/
theorem modify_eq_self {f : κ → ρ → ρ} (h : ∀ k r, (k, r) ∈ t.rows → f k r = r) : t.modify f = t := by
  have hr : (t.modify f).rows = t.rows := by
    refine (map_congr_left fun p hp => ?_).trans (map_id _)
    show (p.1, f p.1 p.2) = p
    rw [h p.1 p.2 hp]
  cases t
  exact (Table.mk.injEq ..).mpr hr

@[simp] theorem get?_filter {keep : κ → ρ → Bool} : (t.filter keep).get? k = (t.get? k).filter (keep k) := by
  ext r
  rw [get?_eq_some_iff, Option.filter_eq_some_iff, get?_eq_some_iff]
  simp only [filter, mem_filter]

theorem get?_insertNew :
    (t.insertNew k r).get? k' = if k' = k then (t.get? k).or (some r) else t.get? k' := by
  unfold insertNew
  split
  · rename_i hm
    split
    · rename_i hk
      obtain ⟨r', hr'⟩ : ∃ r', t.get? k = some r' := by
        by_contra hno
        exact get?_eq_none_iff.mp (Option.eq_none_iff_forall_ne_some.mpr (not_exists.mp hno)) hm
      rw [hk, hr', Option.some_or]
    · rfl
  · rename_i hm
    ext r'
    rw [get?_eq_some_iff]
    simp only [mem_append, mem_singleton, Prod.mk.injEq]
    split
    · rename_i hk
      rw [get?_eq_none_iff.mpr hm, Option.none_or, Option.some.injEq, hk]
      constructor
      · rintro (hr | ⟨-, rfl⟩)
        · exact absurd (mem_map_of_mem hr) hm
        · rfl
      · rintro rfl
        exact .inr ⟨rfl, rfl⟩
    · rename_i hk
      rw [get?_eq_some_iff]
      exact ⟨fun h => h.resolve_right fun h => hk h.1, .inl⟩

theorem get?_insertNew_self : (t.insertNew k r).get? k = (t.get? k).or (some r) := by
  rw [get?_insertNew, if_pos rfl]

theorem get?_insertNew_of_ne (h : k' ≠ k) : (t.insertNew k r).get? k' = t.get? k' := by
  rw [get?_insertNew, if_neg h]

end Table
