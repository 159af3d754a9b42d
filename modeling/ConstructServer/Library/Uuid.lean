import Mathlib.Data.List.Basic

/-!
# UUIDs and their spellings

A UUID is 32 hexadecimal digits. Its text has one canonical spelling, lower case with hyphens;
the parser also takes it without hyphens, in braces, as a URN, and in either letter case.
-/

structure Uuid where
  digits : List (Fin 16)
  length_digits : digits.length = 32
deriving DecidableEq

namespace Uuid

def zeroDigit : Fin 16 := ⟨0, by decide⟩

def hexValue (c : Char) : Option (Fin 16) :=
  if '0' ≤ c ∧ c ≤ '9' then some (Fin.ofNat 16 (c.toNat - '0'.toNat))
  else if 'a' ≤ c ∧ c ≤ 'f' then some (Fin.ofNat 16 (c.toNat - 'a'.toNat + 10))
  else if 'A' ≤ c ∧ c ≤ 'F' then some (Fin.ofNat 16 (c.toNat - 'A'.toNat + 10))
  else none

def digit (k : Nat) : Fin 16 := Fin.ofNat 16 k

def hexChar (d : Fin 16) : Char := d.val.digitChar

theorem hexValue_hexChar (d : Fin 16) : hexValue (hexChar d) = some d := by
  revert d
  decide

def hexValues : List Char → Option (List (Fin 16))
  | [] => some []
  | c :: cs => (hexValue c).bind fun d => (hexValues cs).map (d :: ·)

theorem hexValues_map_hexChar (ds : List (Fin 16)) : hexValues (ds.map hexChar) = some ds := by
  induction ds with
  | nil => rfl
  | cons d ds ih => simp [hexValues, hexValue_hexChar, ih]

def parseSimple (cs : List Char) : Option Uuid :=
  (hexValues cs).bind fun ds => if h : ds.length = 32 then some ⟨ds, h⟩ else none

def hyphenate (cs : List Char) : List Char :=
  cs.take 8 ++ '-' :: ((cs.drop 8).take 4 ++ '-' :: ((cs.drop 12).take 4 ++
    '-' :: ((cs.drop 16).take 4 ++ '-' :: cs.drop 20)))

/-- The characters of the five groups, if there is a hyphen between any two of them. -/
def dropHyphens (cs : List Char) : Option (List Char) :=
  if [8, 13, 18, 23].all fun i => cs[i]? = some '-' then
    some (cs.take 8 ++ ((cs.drop 9).take 4 ++ ((cs.drop 14).take 4 ++
      ((cs.drop 19).take 4 ++ cs.drop 24))))
  else none

def parseHyphenated (cs : List Char) : Option Uuid := (dropHyphens cs).bind parseSimple

/-- `Uuid::parse_str`: a text of 32 characters has no hyphens; with hyphens it may stand alone, in
braces or after `urn:uuid:`. -/
def parseStr (s : String) : Option Uuid :=
  let cs := s.toList
  if cs.length = 32 then parseSimple cs
  else if cs.length = 36 then parseHyphenated cs
  else if cs.length = 38 ∧ cs.head? = some '\x7b' ∧ cs.getLast? = some '\x7d' then
    parseHyphenated cs.tail.dropLast
  else if cs.length = 45 ∧ cs.take 9 = "urn:uuid:".toList then parseHyphenated (cs.drop 9)
  else none

/-- The canonical spelling: lower case, with hyphens. -/
def toStr (u : Uuid) : String := String.ofList (hyphenate (u.digits.map hexChar))

def repeated (d : Fin 16) : Uuid := ⟨List.replicate 32 d, List.length_replicate⟩

theorem dropHyphens_hyphenate {cs : List Char} (h : cs.length = 32) :
    dropHyphens (hyphenate cs) = some cs := by
  -- A list of 32 characters is its characters; then both functions compute.
  iterate 32
    rcases cs with _ | ⟨_, cs⟩
    · simp at h
  rcases cs with _ | ⟨_, cs⟩
  · rfl
  · simp at h

theorem length_hyphenate {cs : List Char} (h : cs.length = 32) : (hyphenate cs).length = 36 := by
  simp only [hyphenate, List.length_append, List.length_cons, List.length_take, List.length_drop]
  omega

/-- The canonical spelling reads back. -/
@[simp]
theorem parseStr_toStr (u : Uuid) : parseStr u.toStr = some u := by
  have hl : (u.digits.map hexChar).length = 32 := by simp [u.length_digits]
  simp only [parseStr, toStr, String.toList_ofList, length_hyphenate hl, parseHyphenated,
    dropHyphens_hyphenate hl, Option.bind_some, parseSimple, hexValues_map_hexChar]
  simp [u.length_digits]

theorem toStr_injective : Function.Injective toStr := by
  intro u v h
  have huv := congrArg parseStr h
  simpa using huv

/-- Every spelling is short. -/
theorem length_le_of_parseStr {s : String} {u : Uuid} (h : parseStr s = some u) : s.toList.length ≤ 45 := by
  simp only [parseStr] at h
  split_ifs at h <;> omega

end Uuid
