import ConstructServer.Library.Uuid
import ConstructServer.Queue.Envelope

/-!
# What a signature determines

The signed text of an invite joins nine fields with `|`, which two of them may contain. The signed
bytes of a sender certificate are its fields without separators; only the user id at the front and
the times at the end keep their places. In both, a boundary between two fields can move.
-/

namespace ConstructServer.Identity

open List

open Queue (Bytes utf8 utf8_injective)
open Framing (beBytes beBytes_injective hexByte hexEncode hexEncode_injective)

/-! ### Invites -/

structure InviteToken where
  v : UInt32
  jti : Uuid
  uuid : Uuid
  deviceId : String
  server : String
  ts : Int64
  sig : String
  username : Option String
  ttl : UInt32
  addr : Bytes

inductive InviteValidationError
  | unsupportedVersion (v : UInt32)
  | invalidDeviceID
  | invalidServer
  | invalidTimestamp
  | invalidSignature
  | invalidTtl
  | invalidAddress

namespace InviteToken

def fields (t : InviteToken) : List String :=
  [t.v.toNat.repr, t.jti.toStr, t.uuid.toStr, t.deviceId, t.server, toString t.ts.toInt, t.username.getD "",
    t.ttl.toNat.repr, hexEncode t.addr]

/-- The signed text, `canonical_string`. -/
def canonicalString (t : InviteToken) : Except InviteValidationError String :=
  if t.v ≠ 5 then .error (.unsupportedVersion t.v) else .ok ("|".intercalate t.fields)

/-- The format checks at the time `now`; `decode` reads base64. -/
def validate (decode : String → Option Bytes) (now : Int64) (t : InviteToken) :
    Except InviteValidationError Unit :=
  if t.v ≠ 5 then .error (.unsupportedVersion t.v)
  else if t.deviceId.utf8ByteSize ≠ 32 ∨
      ¬ t.deviceId.toList.all fun c => ('0' ≤ c ∧ c ≤ '9') ∨ ('a' ≤ c ∧ c ≤ 'f') then
    .error .invalidDeviceID
  else if t.server = "" ∨ '.' ∉ t.server.toList then .error .invalidServer
  else if t.ttl < 60 then .error .invalidTtl
  else if t.addr.length ≠ 32 then .error .invalidAddress
  else if t.ts ≤ 0 ∨ now + 300 < t.ts then .error .invalidTimestamp
  else if (decode t.sig).map List.length ≠ some 64 then .error .invalidSignature
  else .ok ()

/-- The signed fields agree; no user name is the empty one. -/
def SameFields (x y : InviteToken) : Prop :=
  x.jti = y.jti ∧ x.uuid = y.uuid ∧ x.deviceId = y.deviceId ∧ x.server = y.server ∧ x.ts = y.ts ∧
    x.username.getD "" = y.username.getD "" ∧ x.ttl = y.ttl ∧ x.addr = y.addr

instance (x y : InviteToken) : Decidable (SameFields x y) := inferInstanceAs (Decidable (_ ∧ _))

end InviteToken

theorem append_bar_inj {a b r s : List Char} (hc : a.count '|' = b.count '|')
    (h : a ++ '|' :: r = b ++ '|' :: s) : a = b ∧ r = s := by
  induction a generalizing b with
  | nil =>
    cases b with
    | nil => exact ⟨rfl, (List.cons.inj h).2⟩
    | cons d b =>
      obtain rfl := (List.cons.inj h).1
      simp at hc
  | cons c a ih =>
    cases b with
    | nil =>
      obtain rfl := (List.cons.inj h).1
      simp at hc
    | cons d b =>
      obtain ⟨rfl, ht⟩ := List.cons.inj h
      obtain ⟨rfl, rfl⟩ := ih (by simpa [count_cons] using hc) ht
      exact ⟨rfl, rfl⟩

theorem intercalate_bar_inj {xs ys : List (List Char)} (hc : xs.map (List.count '|') = ys.map (List.count '|'))
    (h : ['|'].intercalate xs = ['|'].intercalate ys) : xs = ys := by
  induction xs generalizing ys with
  | nil => exact (map_eq_nil_iff.mp hc.symm).symm
  | cons x xs ih =>
    obtain ⟨y, ys, rfl⟩ := exists_cons_of_ne_nil (fun hy => by simp [hy] at hc : ys ≠ [])
    obtain ⟨hxy, hc⟩ := List.cons.inj hc
    match xs, ys with
    | [], [] => simpa [List.intercalate] using h
    | [], _ :: _ | _ :: _, [] => cases hc
    | x' :: xs, y' :: ys =>
      obtain ⟨rfl, hr⟩ := append_bar_inj hxy (by simpa [List.intercalate] using h)
      rw [ih hc (by simpa [List.intercalate] using hr)]

theorem count_intercalate_bar (xs : List (List Char)) :
    (['|'].intercalate xs).count '|' = (xs.map (List.count '|')).sum + (xs.length - 1) := by
  induction xs with
  | nil => rfl
  | cons x xs ih =>
    cases xs with
    | nil => simp [List.intercalate]
    | cons y xs =>
      simp [List.intercalate] at ih ⊢
      omega

theorem bar_not_mem_toDigits (n : Nat) : '|' ∉ Nat.toDigits 10 n :=
  fun h => absurd (Nat.isDigit_of_mem_toDigits (by decide) (by decide) h) (by decide)

theorem repr_injective : Function.Injective Nat.repr := by
  intro m n h
  have hd : Nat.toDigits 10 m = Nat.toDigits 10 n := String.ofList_inj.mp h
  rw [← @Nat.ofDigitChars_ten_toDigits m, hd, Nat.ofDigitChars_ten_toDigits]

theorem toString_of_pos {n : Int} (h : 0 < n) : toString n = n.toNat.repr := by
  rw [← Int.toNat_of_nonneg h.le]
  rfl

theorem digitChar_ne_bar {n : Nat} (h : n < 16) : n.digitChar ≠ '|' := by
  revert n
  decide

theorem bar_not_mem_hexEncode (bytes : Bytes) : '|' ∉ (hexEncode bytes).toList := by
  rw [hexEncode, String.toList_ofList]
  intro h
  obtain ⟨b, -, hb⟩ := mem_flatMap.mp h
  have hlt : b.toNat < 256 := b.toNat_lt
  simp only [hexByte, mem_cons, not_mem_nil, or_false] at hb
  rcases hb with hb | hb
  · exact digitChar_ne_bar (by omega) hb.symm
  · exact digitChar_ne_bar (by omega) hb.symm

theorem bar_not_mem_toStr (u : Uuid) : '|' ∉ u.toStr.toList := by
  have hd : '|' ∉ u.digits.map Uuid.hexChar := by
    intro h
    obtain ⟨d, -, hd⟩ := mem_map.mp h
    exact digitChar_ne_bar d.isLt hd
  rw [Uuid.toStr, String.toList_ofList]
  grind [Uuid.hyphenate, mem_of_mem_take, mem_of_mem_drop]

namespace InviteToken

theorem count_fields {decode : String → Option Bytes} {now : Int64} {t : InviteToken}
    (h : t.validate decode now = .ok ()) :
    0 < t.ts.toInt ∧ t.canonicalString = .ok ("|".intercalate t.fields) ∧
      (t.fields.map String.toList).map (List.count '|') =
        [0, 0, 0, 0, t.server.toList.count '|', 0, (t.username.getD "").toList.count '|', 0, 0] := by
  unfold validate at h
  split_ifs at h with hv hd hs ht ha hts hsi
  simp only [not_or, not_not, Int64.le_iff_toInt_le] at hv hd hts
  have hpo : 0 < t.ts.toInt := not_le.mp hts.1
  have hba : '|' ∉ t.deviceId.toList :=
    fun hba => absurd (all_eq_true.mp hd.2 '|' hba) (by decide)
  refine ⟨hpo, if_neg (not_not_intro hv), ?_⟩
  simp [fields, toString_of_pos hpo, count_eq_zero, hba, bar_not_mem_toDigits, bar_not_mem_toStr,
    bar_not_mem_hexEncode]

/-- Valid invites with one signed text have the same signed fields exactly when their servers
contain equally many separators. -/
theorem canonicalString_inj_iff {decode : String → Option Bytes} {now later : Int64} {x y : InviteToken}
    (hx : x.validate decode now = .ok ()) (hy : y.validate decode later = .ok ()) {s : String}
    (hsx : x.canonicalString = .ok s) (hsy : y.canonicalString = .ok s) :
    x.SameFields y ↔ x.server.toList.count '|' = y.server.toList.count '|' := by
  obtain ⟨hpx, hcx, hfx⟩ := count_fields hx
  obtain ⟨hpy, hcy, hfy⟩ := count_fields hy
  refine ⟨fun h => by rw [h.2.2.2.1], fun hse => ?_⟩
  have hjo := congrArg String.toList (Except.ok.inj ((hcx.symm.trans hsx).trans (hsy.symm.trans hcy)))
  have hba : "|".toList = ['|'] := rfl
  simp only [String.toList_intercalate, hba] at hjo
  have hun : (x.username.getD "").toList.count '|' = (y.username.getD "").toList.count '|' := by
    -- Both texts have as many separators, and only the user names are left to differ.
    have hco := congrArg (List.count '|') hjo
    rw [count_intercalate_bar, count_intercalate_bar, hfx, hfy] at hco
    simp only [sum_cons, sum_nil, fields, length_map, length_cons] at hco
    omega
  have hfi := intercalate_bar_inj (by rw [hfx, hfy, hse, hun]) hjo
  simp only [fields, map_cons, List.cons.injEq, String.toList_inj, and_true, toString_of_pos hpx,
    toString_of_pos hpy] at hfi
  obtain ⟨-, hj, hu, hd, hs, ht, hn, htt, ha⟩ := hfi
  have hti := repr_injective ht
  exact ⟨Uuid.toStr_injective hj, Uuid.toStr_injective hu, hd, hs, Int64.toInt_inj.mp (by omega), hn,
    UInt32.toNat_inj.mp (repr_injective htt), hexEncode_injective ha⟩

def ofServer (server : String) (ts : Int64) (username : String) : InviteToken :=
  ⟨5, .repeated (Uuid.digit 1), .repeated (Uuid.digit 2), "0123456789abcdef0123456789abcdef", server, ts, "", some username,
    300, List.replicate 32 7⟩

def anySignature (_ : String) : Option Bytes := some (List.replicate 64 0)

/-- An empty user name is signed as none at all; a separator in the server changes the fields. -/
theorem signature_determines_invite :
    (ofServer "a.b" 5 "").SameFields { ofServer "a.b" 5 "" with username := none, sig := "s" } ∧
      ¬ (ofServer "c.d" 5 "6|u").SameFields (ofServer "c.d|5" 6 "u") :=
  have hsame : "|".intercalate (ofServer "c.d|5" 6 "u").fields =
      "|".intercalate (ofServer "c.d" 5 "6|u").fields := by
    decide +kernel
  ⟨(@canonicalString_inj_iff anySignature 0 0 _ _ rfl rfl _ rfl rfl).mpr rfl,
    mt (@canonicalString_inj_iff anySignature 0 0 (ofServer "c.d" 5 "6|u") (ofServer "c.d|5" 6 "u") rfl rfl
      _ rfl (congrArg Except.ok hsame)).mp (by decide +kernel)⟩

/-- The time of one invite passes for the end of the other's server. -/
theorem signature_moves_separator :
    let x := ofServer "a.b" 5 "6|u"
    let y := ofServer "a.b|5" 6 "u"
    (x.validate anySignature 0).isOk ∧ (y.validate anySignature 0).isOk ∧
      (∃ s, x.canonicalString = .ok s ∧ y.canonicalString = .ok s) ∧ ¬ x.SameFields y := by
  refine ⟨by decide +kernel, by decide +kernel, ⟨_, rfl, congrArg Except.ok ?_⟩, by decide +kernel⟩
  decide +kernel

end InviteToken

/-! ### Sender certificates -/

/-- The signed fields of a `SenderCertificate`. -/
structure SenderCertificate where
  senderUserId : String
  senderDomain : String
  senderIdentityKey : Bytes
  senderDeviceId : String
  issuedAt : Int64
  expiresAt : Int64
deriving DecidableEq

/-- `i64::to_be_bytes`. -/
def toBeBytes (n : Int64) : Bytes := beBytes 8 n.toUInt64.toNat

/-- `build_sender_cert_sign_payload`. -/
def buildSenderCertSignPayload (c : SenderCertificate) : Bytes :=
  utf8 c.senderUserId ++ utf8 c.senderDomain ++ c.senderIdentityKey ++ utf8 c.senderDeviceId ++
    toBeBytes c.issuedAt ++ toBeBytes c.expiresAt

theorem toBeBytes_injective : Function.Injective toBeBytes := by
  intro m n h
  have hmn := beBytes_injective m.toUInt64.toNat_lt n.toUInt64.toNat_lt h
  exact congrArg Int64.ofUInt64 (UInt64.toNat_inj.mp hmn)

theorem utf8_cons (c : Char) (l : List Char) :
    utf8 (String.ofList (c :: l)) = String.utf8EncodeChar c ++ utf8 (String.ofList l) := by
  simp [utf8, String.toUTF8, List.utf8Encode]

theorem utf8EncodeChar_append_inj {c d : Char} {r t : Bytes}
    (h : String.utf8EncodeChar c ++ r = String.utf8EncodeChar d ++ t) : c = d := by
  have hc := ByteArray.utf8DecodeChar?_utf8EncodeChar_append (b := r.toByteArray) (c := c)
  rw [← toByteArray_append, h, toByteArray_append,
    ByteArray.utf8DecodeChar?_utf8EncodeChar_append] at hc
  exact (Option.some.inj hc).symm

theorem utf8_append_inj {s s' : String} {r r' : Bytes} (hl : s.toList.length = s'.toList.length)
    (h : utf8 s ++ r = utf8 s' ++ r') : s = s' ∧ r = r' := by
  obtain ⟨l, rfl⟩ : ∃ l, s = String.ofList l := ⟨s.toList, by simp⟩
  obtain ⟨l', rfl⟩ : ∃ l, s' = String.ofList l := ⟨s'.toList, by simp⟩
  simp only [String.toList_ofList] at hl
  induction l generalizing l' with
  | nil =>
    obtain rfl := length_eq_zero_iff.mp hl.symm
    exact ⟨rfl, append_cancel_left h⟩
  | cons c l ih =>
    rcases l' with _ | ⟨c', l'⟩
    · cases hl
    rw [utf8_cons, utf8_cons, append_assoc, append_assoc] at h
    obtain rfl := utf8EncodeChar_append_inj h
    obtain ⟨hs, hr⟩ := ih l' (append_cancel_left h) (Nat.succ.inj hl)
    exact ⟨by rw [String.ofList_inj.mp hs], hr⟩

/-- Certificates with the same signed bytes are the same exactly when neither boundary of the
identity key moves. -/
theorem buildSenderCertSignPayload_inj_iff (c d : SenderCertificate)
    (hc : c.senderUserId.toList.length = 36) (hd : d.senderUserId.toList.length = 36)
    (h : buildSenderCertSignPayload c = buildSenderCertSignPayload d) :
    c = d ↔ (utf8 c.senderDomain).length = (utf8 d.senderDomain).length ∧
      c.senderIdentityKey.length = d.senderIdentityKey.length := by
  constructor
  · rintro rfl
    exact ⟨rfl, rfl⟩
  · rintro ⟨hdo, hke⟩
    simp only [buildSenderCertSignPayload] at h
    obtain ⟨h, hex⟩ := append_inj' h (by simp [toBeBytes])
    obtain ⟨h, his⟩ := append_inj' h (by simp [toBeBytes])
    simp only [append_assoc] at h
    obtain ⟨hus, h⟩ := utf8_append_inj (hc.trans hd.symm) h
    obtain ⟨hdom, h⟩ := append_inj h hdo
    obtain ⟨hkey, hdev⟩ := append_inj h hke
    obtain ⟨⟩ := c
    obtain ⟨⟩ := d
    simp_all [utf8_injective.eq_iff, toBeBytes_injective.eq_iff]

def certificateOf (domain : String) (key : Bytes) : SenderCertificate :=
  ⟨"11111111-1111-1111-1111-111111111111", domain, key, "d", 0, 86400⟩

/-- One signature is good for two certificates: the first byte of the key ends the domain. -/
theorem signature_moves_boundary :
    buildSenderCertSignPayload (certificateOf "a" [0x62, 1]) = buildSenderCertSignPayload (certificateOf "ab" [1]) ∧
      certificateOf "a" [0x62, 1] ≠ certificateOf "ab" [1] := by
  decide +kernel

/-- The last byte of the key begins the device's name: one signature, two certificates. -/
theorem signature_determines_certificate :
    certificateOf "a" [1, 0x78] ≠ { certificateOf "a" [1] with senderDeviceId := "xd" } :=
  mt (buildSenderCertSignPayload_inj_iff (certificateOf "a" [1, 0x78])
    { certificateOf "a" [1] with senderDeviceId := "xd" } (by decide +kernel) (by decide +kernel)
    (by decide +kernel)).mp (by decide +kernel)

end ConstructServer.Identity
