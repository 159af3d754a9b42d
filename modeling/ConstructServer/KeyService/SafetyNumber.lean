import Mathlib.Data.String.Basic
import ConstructServer.Library.Service
import ConstructServer.Identity.Signatures

/-!
# Safety numbers

Two accounts compare a number made of their ids and identity keys, the smaller id first. The keys
are found by the ids that Postgres reads, but the ids are compared and hashed as they were sent.
-/

namespace ConstructServer.KeyService

open Calls List
open Queue (Bytes utf8 utf8_injective)
open Identity (utf8_append_inj)

/-- An id as it was sent, and the key of the account. -/
structure Party where
  id : String
  key : Bytes

/-- The hashed bytes: a version, and the party with the smaller id first. -/
def hashedBytes (our their : Party) : Bytes :=
  let ordered := if our.id < their.id then (our, their) else (their, our)
  0 :: utf8 ordered.1.id ++ ordered.1.key ++ utf8 ordered.2.id ++ ordered.2.key

def digitGroup (hash : Bytes) (i : Nat) : String :=
  let value := ((hash.drop (i * 5)).take 5).foldl (fun n b => n * 256 + b.toNat) 0 % 1000000000000
  let digits := Nat.toDigits 10 value
  String.ofList (replicate (12 - digits.length) '0' ++ digits)

def calculateSafetyNumber (sha256 : Bytes → Bytes) (our their : Party) : String :=
  " ".intercalate ((List.range 5).map (digitGroup (sha256 (hashedBytes our their))))

/-- `get_identity_key`, with the cast to `uuid` and the oldest active device of an account. -/
def getIdentityKey (cast : String → Option Uuid) (keys : Uuid → Option Bytes) (id missing : String) :
    Except Status Bytes :=
  match cast id with
  | none => .error ⟨.internal, "invalid input syntax for type uuid"⟩
  | some account => (keys account).elim (.error ⟨.notFound, missing⟩) .ok

/-- `verify_safety_number`: whether the number is the expected one, and the number. -/
def verifySafetyNumber (sha256 : Bytes → Bytes) (cast : String → Option Uuid) (keys : Uuid → Option Bytes)
    (ourUserId theirUserId expected : String) : Except Status (Bool × String) := do
  if ourUserId = "" ∨ theirUserId = "" then
    throw ⟨.invalidArgument, "our_user_id and their_user_id are required"⟩
  if expected = "" then throw ⟨.invalidArgument, "expected_safety_number is required"⟩
  let ourKey ← getIdentityKey cast keys ourUserId "Our user not found"
  let theirKey ← getIdentityKey cast keys theirUserId "Their user not found"
  let actual := calculateSafetyNumber sha256 ⟨ourUserId, ourKey⟩ ⟨theirUserId, theirKey⟩
  return (actual.toList.filter (· ≠ ' ') = expected.toList.filter (· ≠ ' '), actual)

theorem length_eq_of_forall_byte {x y : Bytes} {f g : UInt8 → Bytes}
    (h : ∀ c, x ++ c :: f c = y ++ c :: g c) :
    x.length = y.length := by
  have key : ∀ {x y : Bytes} {f g : UInt8 → Bytes}, (∀ c, x ++ c :: f c = y ++ c :: g c) →
      ¬ x.length < y.length := by
    intro x y f g h hlt
    have hc := congrArg (fun l => l[x.length]?) (h (y[x.length] + 1))
    simp [List.getElem?_append_left hlt, List.getElem?_eq_getElem hlt] at hc
  have hle := key h
  have hge := key fun c => (h c).symm
  omega

theorem ids_of_hashedBytes {a a' b b' : String} (h : ∀ kA kB : Bytes, kA.length = 32 → kB.length = 32 →
    hashedBytes ⟨a, kA⟩ ⟨b, kB⟩ = hashedBytes ⟨b', kB⟩ ⟨a', kA⟩) : a = a' ∧ b = b' := by
  have hk : ∀ c d : UInt8, _ := fun c d => h (c :: replicate 31 c) (d :: replicate 31 d) rfl rfl
  simp only [hashedBytes] at hk
  split_ifs at hk <;> simp only [List.cons_append, List.append_assoc, List.cons.injEq, true_and] at hk
  all_goals have hle := length_eq_of_forall_byte fun c => hk c c
  · cases (List.append_inj (hk 0 1) hle).2
  · obtain ⟨ha, hr⟩ := List.append_inj (hk 0 0) hle
    have hb := List.append_cancel_right (List.append_cancel_left (List.cons.inj hr).2)
    exact ⟨utf8_injective ha, utf8_injective hb⟩
  · obtain ⟨hb, hr⟩ := List.append_inj (hk 0 0) hle
    have ha := List.append_cancel_right (List.append_cancel_left (List.cons.inj hr).2)
    exact ⟨utf8_injective ha, utf8_injective hb⟩
  · cases (List.append_inj (hk 0 1) hle).2

theorem hashedBytes_comm {p q : Party} (hne : p.id ≠ q.id) : hashedBytes p q = hashedBytes q p := by
  simp only [hashedBytes]
  by_cases hlt : p.id < q.id
  · rw [if_pos hlt, if_neg hlt.asymm]
  · rw [if_neg hlt, if_pos (lt_of_le_of_ne (not_lt.mp hlt) hne.symm)]

def Party.Canonical (p : Party) : Prop := (∃ u : Uuid, p.id = u.toStr) ∧ p.key.length = 32

variable {p q p' q' : Party}

theorem Party.Canonical.length_id (hp : p.Canonical) : p.id.toList.length = 36 := by
  obtain ⟨⟨u, hu⟩, -⟩ := hp
  rw [hu, Uuid.toStr, String.toList_ofList]
  exact Uuid.length_hyphenate (by simp [u.length_digits])

theorem Party.append_inj (hp : p.Canonical) (hp' : p'.Canonical) (hq : q.Canonical) (hq' : q'.Canonical)
    (h : utf8 p.id ++ (p.key ++ (utf8 q.id ++ q.key)) = utf8 p'.id ++ (p'.key ++ (utf8 q'.id ++ q'.key))) :
    p = p' ∧ q = q' := by
  obtain ⟨hpi, h⟩ := utf8_append_inj (hp.length_id.trans hp'.length_id.symm) h
  obtain ⟨hpk, h⟩ := List.append_inj h (hp.2.trans hp'.2.symm)
  obtain ⟨hqi, hqk⟩ := utf8_append_inj (hq.length_id.trans hq'.length_id.symm) h
  cases p
  cases q
  simp_all

theorem parties_of_hashedBytes (hp : p.Canonical) (hq : q.Canonical) (hp' : p'.Canonical)
    (hq' : q'.Canonical)
    (h : hashedBytes p q = hashedBytes p' q') : p = p' ∧ q = q' ∨ p = q' ∧ q = p' := by
  simp only [hashedBytes, List.cons_append, List.append_assoc, List.cons.injEq, true_and] at h
  split_ifs at h
  · exact .inl (Party.append_inj hp hp' hq hq' h)
  · exact .inr (Party.append_inj hp hq' hq hp' h)
  · exact .inr (Party.append_inj hq hp' hp hq' h).symm
  · exact .inl (Party.append_inj hq hq' hp hp' h).symm

variable {cast : String → Option Uuid} {A B : Uuid} {a a' b b' : String}

theorem verifySafetyNumber_eq {sha256 : Bytes → Bytes} {keys : Uuid → Option Bytes} {e : String}
    {kA kB : Bytes}
    (hem : cast "" = none) (he : e ≠ "") (ha : cast a = some A) (hb : cast b = some B) (hA : keys A = some kA)
    (hB : keys B = some kB) : (verifySafetyNumber sha256 cast keys a b e).map Prod.snd =
      .ok (calculateSafetyNumber sha256 ⟨a, kA⟩ ⟨b, kB⟩) := by
  have hna : a ≠ "" := fun h => by simp [h, hem] at ha
  have hnb : b ≠ "" := fun h => by simp [h, hem] at hb
  simp [verifySafetyNumber, hna, hnb, he, getIdentityKey, ha, hb, hA, hB]
  rfl

/-- Both accounts see one number, whatever their keys of the given kind. -/
def NumbersAgree (cast : String → Option Uuid) (a b a' b' e e' : String) (A B : Uuid)
    (Kind : Bytes → Prop) : Prop :=
  ∀ sha256 keys kA kB, keys A = some kA → keys B = some kB → Kind kA → Kind kB →
    (verifySafetyNumber sha256 cast keys a b e).map Prod.snd =
      (verifySafetyNumber sha256 cast keys b' a' e').map Prod.snd

theorem numbersAgree_iff (hem : cast "" = none) (ha : cast a = some A) (ha' : cast a' = some A)
    (hb : cast b = some B) (hb' : cast b' = some B) (hne : A ≠ B) {e e' : String} (he : e ≠ "")
    (he' : e' ≠ "") {Kind : Bytes → Prop} (hKind : ∀ k, k.length = 32 → Kind k) :
    NumbersAgree cast a b a' b' e e' A B Kind ↔ a = a' ∧ b = b' := by
  constructor
  · intro h
    refine ids_of_hashedBytes fun kA kB hkA hkB => ?_
    by_contra hdi
    -- A hash that tells the two inputs apart.
    let keys : Uuid → Option Bytes := fun u => if u = A then some kA else some kB
    have hA : keys A = some kA := if_pos rfl
    have hB : keys B = some kB := if_neg hne.symm
    have hnu := h (fun x => replicate 32 (if x = hashedBytes ⟨a, kA⟩ ⟨b, kB⟩ then 0 else 1)) keys
      kA kB hA hB (hKind kA hkA) (hKind kB hkB)
    rw [verifySafetyNumber_eq hem he ha hb hA hB, verifySafetyNumber_eq hem he' hb' ha' hB hA] at hnu
    simp only [calculateSafetyNumber, if_true, if_neg (Ne.symm hdi)] at hnu
    exact absurd (Except.ok.inj hnu) (by decide +kernel)
  · rintro ⟨rfl, rfl⟩ sha256 keys kA kB hA hB - -
    have hab : a ≠ b := by
      rintro rfl
      exact hne (Option.some.inj (ha.symm.trans hb))
    rw [verifySafetyNumber_eq hem he ha hb hA hB, verifySafetyNumber_eq hem he' hb' ha' hB hA,
      calculateSafetyNumber, hashedBytes_comm hab, calculateSafetyNumber]

/-- Two accounts see one number exactly when they spell both ids alike, whether the keys are whole
or of any length. The hashed bytes determine the accounts and keys when the ids are canonical. -/
theorem safety_numbers_agree_iff (hem : cast "" = none) (ha : cast a = some A) (ha' : cast a' = some A)
    (hb : cast b = some B) (hb' : cast b' = some B) (hne : A ≠ B) {e e' : String} (he : e ≠ "")
    (he' : e' ≠ "") :
    (NumbersAgree cast a b a' b' e e' A B (·.length = 32) ↔ a = a' ∧ b = b') ∧
      (NumbersAgree cast a b a' b' e e' A B (fun _ => True) ↔ a = a' ∧ b = b') ∧
      ∀ p q p' q' : Party, p.Canonical → q.Canonical → p'.Canonical → q'.Canonical →
        hashedBytes p q = hashedBytes p' q' → p = p' ∧ q = q' ∨ p = q' ∧ q = p' :=
  ⟨numbersAgree_iff hem ha ha' hb hb' hne he he' fun _ h => h,
    numbersAgree_iff hem ha ha' hb hb' hne he he' fun _ _ => trivial,
    fun _ _ _ _ hp hq hp' hq' => parties_of_hashedBytes hp hq hp' hq'⟩

def alice : Uuid := .repeated (Uuid.digit 10)

def bob : Uuid := .repeated (Uuid.digit 11)

def someKeys (_ : Uuid) : Option Bytes := some (replicate 32 0)

/-- In lower case with hyphens and in upper case without, an id gives other bytes to the hash; the
identity as the hash tells them apart. -/
theorem spelled_apart_numbers_differ :
    let spelled := String.ofList (replicate 32 'A')
    Uuid.parseStr spelled = some alice ∧
      (verifySafetyNumber id Uuid.parseStr someKeys alice.toStr bob.toStr "0").map Prod.snd ≠
        (verifySafetyNumber id Uuid.parseStr someKeys bob.toStr spelled "0").map Prod.snd := by
  intro spelled
  have ha := Uuid.parseStr_toStr alice
  have hb := Uuid.parseStr_toStr bob
  have hs : Uuid.parseStr spelled = some alice := by decide +kernel
  refine ⟨hs, ?_⟩
  rw [verifySafetyNumber_eq (by decide) (by decide) ha hb rfl rfl, verifySafetyNumber_eq (by decide) (by decide) hb hs rfl rfl]
  exact fun h => absurd (Except.ok.inj h) (by decide +kernel)

/-- The condition at two canonical ids. -/
theorem spelled_alike_numbers_agree :
    (verifySafetyNumber id Uuid.parseStr someKeys alice.toStr bob.toStr "0").map Prod.snd =
      (verifySafetyNumber id Uuid.parseStr someKeys bob.toStr alice.toStr "0").map Prod.snd := by
  have ha := Uuid.parseStr_toStr alice
  have hb := Uuid.parseStr_toStr bob
  have he : "0" ≠ "" := by decide
  have hag := safety_numbers_agree_iff (by decide) ha ha hb hb (by decide) he he
  exact hag.1.mpr ⟨rfl, rfl⟩ id someKeys _ _ rfl rfl rfl rfl

end ConstructServer.KeyService
