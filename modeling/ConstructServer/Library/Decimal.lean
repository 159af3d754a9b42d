import Mathlib.Data.List.Basic

/-!
# Decimal text of unsigned 64-bit integers

Reading and writing `u64` values the way the Rust standard library does: `str::parse::<u64>`
takes one optional `+` and at least one ASCII digit, and refuses a value that does not fit.
-/

namespace Decimal

def dropPlus : List Char → List Char
  | '+' :: ds => ds
  | ds => ds

/-- `str::parse::<u64>`. -/
def parseU64 (s : List Char) : Option UInt64 :=
  let ds := dropPlus s
  if ds ≠ [] ∧ ds.all Char.isDigit ∧ Nat.ofDigitChars 10 ds 0 < UInt64.size then
    some (UInt64.ofNat (Nat.ofDigitChars 10 ds 0))
  else none

def printU64 (n : UInt64) : List Char := Nat.toDigits 10 n.toNat

/-- `str::split_once`: the text before and after the first separator. -/
def splitOnce (sep : Char) : List Char → Option (List Char × List Char)
  | [] => none
  | c :: cs => if c = sep then some ([], cs) else (splitOnce sep cs).map fun p => (c :: p.1, p.2)

theorem isDigit_of_mem_printU64 {n : UInt64} {c : Char} (h : c ∈ printU64 n) : c.isDigit :=
  Nat.isDigit_of_mem_toDigits (by decide) (by decide) h

theorem length_printU64_le (n : UInt64) : (printU64 n).length ≤ 20 :=
  (Nat.length_toDigits_le_iff (by decide) (by decide)).mpr (Nat.lt_trans n.toNat_lt (by decide))

theorem utf8Size_of_isDigit {c : Char} (h : c.isDigit) : c.utf8Size = 1 :=
  Char.utf8Size_eq_one_iff.mpr (UInt32.le_iff_toNat_le.mpr
    (Nat.le_trans (Char.isDigit_iff_toNat.mp h).2 (by decide)))

theorem utf8ByteSize_ofList {l : List Char} (h : ∀ c ∈ l, c.utf8Size = 1) :
    (String.ofList l).utf8ByteSize = l.length := by
  induction l with
  | nil => rfl
  | cons c l ih =>
    rw [← List.singleton_append, String.ofList_append, String.utf8ByteSize_append,
      ih fun d hd => h d (by simp [hd]), ← String.singleton_eq_ofList,
      String.utf8ByteSize_singleton, h c (by simp), List.length_append, List.length_singleton]

theorem dash_not_mem_printU64 (n : UInt64) : '-' ∉ printU64 n :=
  fun h => absurd (isDigit_of_mem_printU64 h) (by decide)

variable {s : List Char}

theorem dropPlus_of_isDigit (h : ∀ c ∈ s, c.isDigit) : dropPlus s = s := by
  unfold dropPlus
  split
  · exact absurd (h '+' (by simp)) (by decide)
  · rfl

theorem mem_dropPlus_of_ne {c : Char} (hc : c ≠ '+') (h : c ∈ s) : c ∈ dropPlus s := by
  unfold dropPlus
  split
  · simpa [hc] using h
  · exact h

theorem parseU64_printU64 (n : UInt64) : parseU64 (printU64 n) = some n := by
  have hdi : ∀ c ∈ printU64 n, c.isDigit := fun c hc => isDigit_of_mem_printU64 hc
  have hne : printU64 n ≠ [] := Nat.toDigits_ne_nil
  have hva : Nat.ofDigitChars 10 (printU64 n) 0 = n.toNat := Nat.ofDigitChars_ten_toDigits
  have hlt : n.toNat < UInt64.size := n.toNat_lt
  simpa [parseU64, dropPlus_of_isDigit hdi, hva, hne, hlt] using hdi

theorem parseU64_eq_none_of_dash (h : '-' ∈ s) : parseU64 s = none := by
  have hm : '-' ∈ dropPlus s := mem_dropPlus_of_ne (by decide) h
  have ha : (dropPlus s).all Char.isDigit = false := by
    rw [List.all_eq_false]
    exact ⟨'-', hm, by decide⟩
  simp [parseU64, ha]

theorem splitOnce_append {sep : Char} {s t : List Char} (h : sep ∉ s) :
    splitOnce sep (s ++ sep :: t) = some (s, t) := by
  induction s with
  | nil => simp [splitOnce]
  | cons c s ih =>
    have hc : c ≠ sep := fun hc => h (by simp [hc])
    have hs : sep ∉ s := fun hs => h (by simp [hs])
    simp [splitOnce, hc, ih hs]

theorem splitOnce_eq_none_iff {sep : Char} : splitOnce sep s = none ↔ sep ∉ s := by
  induction s with
  | nil => simp [splitOnce]
  | cons c s ih =>
    by_cases hc : c = sep
    · simp [splitOnce, hc]
    · simp [splitOnce, hc, ih, Ne.symm hc]

theorem splitOnce_eq_some_iff {sep : Char} {s a b : List Char} :
    splitOnce sep s = some (a, b) ↔ s = a ++ sep :: b ∧ sep ∉ a := by
  constructor
  · induction s generalizing a with
    | nil => simp [splitOnce]
    | cons c s ih =>
      by_cases hc : c = sep
      · simp only [splitOnce, hc, if_true, Option.some.injEq, Prod.mk.injEq]
        rintro ⟨rfl, rfl⟩
        simp
      · simp only [splitOnce, hc, if_false, Option.map_eq_some_iff, Prod.mk.injEq, Prod.exists]
        rintro ⟨a', b', h, rfl, rfl⟩
        obtain ⟨rfl, ha⟩ := ih h
        simp [ha, Ne.symm hc]
  · rintro ⟨rfl, ha⟩
    exact splitOnce_append ha

end Decimal
