import ConstructServer.Library.Uuid
import ConstructServer.Library.Decimal
import ConstructServer.Queue.Envelope

/-!
# Access and refresh tokens

A token is the text `v4.public.` and the base64 of a nonce, the claims and a signature over both; a
second dot begins a footer, which is not signed and not read. Access tokens and refresh tokens have
the same claims and are signed with the same key. They differ in their lifetime only.
-/

namespace ConstructServer.Auth

open Queue List

structure Claims where
  sub : String
  jti : String
  exp : Int
  iat : Int
  iss : String
  deviceId : Option String
deriving DecidableEq

abbrev Nonce := { b : Bytes // b.length = 32 }

abbrev Text := List Char

def pasetoV4PublicHeader : String := "paseto.v4.public."

def pasetoMinPayloadLen : Nat := 32 + 64

def preAuth (nonce message : Bytes) : Bytes := utf8 pasetoV4PublicHeader ++ nonce ++ message

/-- JSON, base64 and Ed25519 with the keys of the servers. -/
structure PasetoLib where
  encodeClaims : Claims → Bytes
  decodeClaims : Bytes → Option Claims
  encode64 : Bytes → Text
  decode64 : Text → Option Bytes
  sign : Bytes → Bytes
  verify : Bytes → Bytes → Bool
  previous : List (Bytes → Bytes → Bool)
  decode_encodeClaims : ∀ c, decodeClaims (encodeClaims c) = some c
  encodeClaims_ne_nil : ∀ c, encodeClaims c ≠ []
  decode64_eq_some_iff : ∀ s b, decode64 s = some b ↔ s = encode64 b
  dot_not_mem_encode64 : ∀ b, '.' ∉ encode64 b
  length_sign : ∀ m, (sign m).length = 64
  verify_sign : ∀ m, verify m (sign m) = true

inductive VerifyError
  | unsupportedFormat
  | badBase64
  | tooShort (len : Nat)
  | emptyMessage
  | badSignature
  | badClaims
  | issuerMismatch (expected got : String)
  | expired (exp now : Int)

structure AuthManager where
  lib : PasetoLib
  canSign : Bool
  accessTokenTtlHours : Int
  refreshTokenTtlDays : Int
  issuer : String

def timestamp (ms : Nat) : Int := (ms : Int) / 1000

section

variable (m : AuthManager)

def v4Public : Text := "v4.public.".toList

def PasetoLib.payload64 (lib : PasetoLib) (nonce : Nonce) (claims : Claims) : Text :=
  let message := lib.encodeClaims claims
  lib.encode64 (nonce.1 ++ message ++ lib.sign (preAuth nonce.1 message))

def AuthManager.signPaseto (nonce : Nonce) (claims : Claims) : Option Text :=
  if m.canSign then some (v4Public ++ m.lib.payload64 nonce claims) else none

inductive TokenKind
  | access
  | refresh
deriving DecidableEq

def AuthManager.ttl : TokenKind → Int
  | .access => m.accessTokenTtlHours * 3600
  | .refresh => m.refreshTokenTtlDays * 86400

def AuthManager.claimsFor (kind : TokenKind) (now : Nat) (jti : String) (userId : Uuid)
    (deviceId : Option String) : Claims :=
  ⟨userId.toStr, jti, timestamp now + m.ttl kind, timestamp now, m.issuer, deviceId⟩

def AuthManager.create (kind : TokenKind) (now : Nat) (nonce : Nonce) (jti : String) (userId : Uuid)
    (deviceId : Option String) : Option (Text × String × Int) :=
  let claims := m.claimsFor kind now jti userId deviceId
  (m.signPaseto nonce claims).map fun token => (token, jti, claims.exp)

def AuthManager.createTokenForDevice (now : Nat) (nonce : Nonce) (jti : String) (userId : Uuid)
    (deviceId : Option String) : Option (Text × String × Int) :=
  m.create .access now nonce jti userId deviceId

def AuthManager.createRefreshTokenForDevice (now : Nat) (nonce : Nonce) (jti : String)
    (userId : Uuid) (deviceId : Option String) : Option (Text × String × Int) :=
  m.create .refresh now nonce jti userId deviceId

end

section

variable (m : AuthManager)

def payloadText (token : Text) : Option Text :=
  if v4Public <+: token then some ((token.drop 10).takeWhile (· ≠ '.')) else none

def AuthManager.validateClaims (now : Nat) (claims : Claims) : Except VerifyError Unit :=
  if claims.iss ≠ m.issuer then .error (.issuerMismatch m.issuer claims.iss)
  else if claims.exp ≤ timestamp now then .error (.expired claims.exp (timestamp now))
  else .ok ()

def PasetoLib.verifies (lib : PasetoLib) (message signature : Bytes) : Bool :=
  lib.verify message signature || lib.previous.any fun key => key message signature

def splitPayload (payload : Bytes) : Bytes × Bytes × Bytes :=
  (payload.take 32, (payload.drop 32).take (payload.length - 64 - 32),
    payload.drop (payload.length - 64))

def AuthManager.verifyToken (now : Nat) (token : Text) : Except VerifyError Claims :=
  match payloadText token with
  | none => .error .unsupportedFormat
  | some text =>
    match m.lib.decode64 text with
    | none => .error .badBase64
    | some payload =>
      if payload.length < pasetoMinPayloadLen then .error (.tooShort payload.length)
      else
        let (nonce, message, signature) := splitPayload payload
        if message = [] then .error .emptyMessage
        else if m.lib.verifies (preAuth nonce message) signature = false then .error .badSignature
        else
          match m.lib.decodeClaims message with
          | none => .error .badClaims
          | some claims => (m.validateClaims now claims).map fun _ => claims

/-- The headers of a request that are read. -/
structure Metadata where
  authorization : Option Text
  xUserId : Option String
  xDeviceId : Option String

inductive Status
  | unauthenticated (message : String)
  | permissionDenied (message : String)
  | invalidArgument (message : String)
  | internal (message : String)
  | unavailable (message : String)
deriving DecidableEq

def trim (cs : List Char) : List Char :=
  ((cs.dropWhile Char.isWhitespace).reverse.dropWhile Char.isWhitespace).reverse

def bearer : Text := "Bearer ".toList

def extractBearerToken (metadata : Metadata) : Except Status Text :=
  match metadata.authorization with
  | none => .error (.unauthenticated "Missing authentication")
  | some value =>
    if bearer <+: value ∧ trim (value.drop 7) ≠ [] then .ok (trim (value.drop 7))
    else .error (.unauthenticated "Missing authentication")

def verifyAccessToken (now : Nat) (metadata : Metadata) : Except Status Claims :=
  match extractBearerToken metadata with
  | .error e => .error e
  | .ok token =>
    match m.verifyToken now token with
    | .error _ => .error (.unauthenticated "Invalid or expired token")
    | .ok claims =>
      if metadata.xUserId.all (· = claims.sub) = false then
        .error (.permissionDenied "x-user-id does not match authenticated user")
      else if metadata.xDeviceId.all (fun header => claims.deviceId.all (header = ·)) = false then
        .error (.permissionDenied "x-device-id does not match authenticated device")
      else .ok claims

end

/-- Whether a result that is there has a property. -/
instance decidableForallOk {ε α : Type} {P : α → Prop} [DecidablePred P] :
    (x : Except ε α) → Decidable (∀ a, x = .ok a → P a)
  | .error _ => isTrue nofun
  | .ok a => decidable_of_iff (P a) ⟨fun h _ heq => Except.ok.inj heq ▸ h, fun h => h a rfl⟩

section

structure Minted where
  kind : TokenKind
  claims : Claims
  nonce : Nonce
  createdAt : Nat
deriving DecidableEq

variable {lib : PasetoLib} {m : AuthManager} {minted : List Minted} {token : Text} {now : Nat}
  {nonce : Nonce} {claims : Claims}

def Minted.text (lib : PasetoLib) (t : Minted) : Text := v4Public ++ lib.payload64 t.nonce t.claims

def Unforged (lib : PasetoLib) (minted : List Minted) (token : Text) : Prop :=
  ∀ text payload, payloadText token = some text → lib.decode64 text = some payload →
    pasetoMinPayloadLen ≤ payload.length →
    let (nonce, message, signature) := splitPayload payload
    lib.verifies (preAuth nonce message) signature = true →
      ∃ t ∈ minted, preAuth nonce message = preAuth t.nonce.1 (lib.encodeClaims t.claims) ∧
        signature = lib.sign (preAuth nonce message)

instance : Decidable (Unforged lib minted token) :=
  decidable_of_iff (∀ text ∈ payloadText token, ∀ payload ∈ lib.decode64 text,
    pasetoMinPayloadLen ≤ payload.length →
    lib.verifies (preAuth (splitPayload payload).1 (splitPayload payload).2.1)
      (splitPayload payload).2.2 = true →
      ∃ t ∈ minted, preAuth (splitPayload payload).1 (splitPayload payload).2.1 =
          preAuth t.nonce.1 (lib.encodeClaims t.claims) ∧
        (splitPayload payload).2.2 =
          lib.sign (preAuth (splitPayload payload).1 (splitPayload payload).2.1))
    ⟨fun h text payload htext hpayload => h text htext payload hpayload,
      fun h text htext payload hpayload => h text payload htext hpayload⟩

theorem splitPayload_append {nonce message signature : Bytes} (hno : nonce.length = 32)
    (hsi : signature.length = 64) : splitPayload (nonce ++ message ++ signature) = (nonce, message, signature) := by
  have hl : (nonce ++ message ++ signature).length = 32 + message.length + 64 := by
    rw [length_append, length_append, hno, hsi]
  have hmi : 32 + message.length + 64 - 64 - 32 = message.length := by omega
  have hla : 32 + message.length + 64 - 64 = (nonce ++ message).length := by
    rw [length_append, hno]
    omega
  have hf : (32 : Nat) = nonce.length := hno.symm
  rw [splitPayload, hl, hmi, hla, drop_left, hf, append_assoc,
    take_left, drop_left, take_left]

theorem append_of_splitPayload {payload nonce message signature : Bytes}
    (hl : pasetoMinPayloadLen ≤ payload.length) (hsp : splitPayload payload = (nonce, message, signature)) :
    payload = nonce ++ message ++ signature ∧ nonce.length = 32 := by
  unfold pasetoMinPayloadLen at hl
  obtain ⟨hno, hr⟩ := Prod.mk.inj hsp
  obtain ⟨hme, hsi⟩ := Prod.mk.inj hr
  subst hno hme hsi
  refine ⟨?_, by rw [length_take]; omega⟩
  have hdr : payload.drop (payload.length - 64) =
      (payload.drop 32).drop (payload.length - 64 - 32) := by
    rw [drop_drop]
    congr 1
    omega
  rw [hdr, append_assoc, take_append_drop, take_append_drop]

theorem preAuth_inj {nonce nonce' message message' : Bytes} (hl : nonce.length = nonce'.length)
    (h : preAuth nonce message = preAuth nonce' message') : nonce = nonce' ∧ message = message' := by
  rw [preAuth, preAuth, append_assoc, append_assoc] at h
  exact append_inj (append_cancel_left h) hl

theorem validateClaims_eq_ok_iff :
    m.validateClaims now claims = .ok () ↔ claims.iss = m.issuer ∧ timestamp now < claims.exp := by
  unfold AuthManager.validateClaims
  split_ifs with his he
  · simp [his]
  · simp [he.not_gt]
  · exact ⟨fun _ => ⟨not_not.mp his, not_le.mp he⟩, fun _ => rfl⟩

theorem payloadText_append (text footer : Text) (hd : '.' ∉ text) (hf : footer = [] ∨ footer.head? = some '.') :
    payloadText (v4Public ++ text ++ footer) = some text := by
  have hl : v4Public.length = 10 := by decide
  have ht : ∀ c ∈ text, decide (c ≠ '.') = true := fun c hc =>
    decide_eq_true fun heq => hd (heq ▸ hc)
  have hst : footer.takeWhile (fun c => decide (c ≠ '.')) = [] := by
    rcases hf with rfl | hh
    · rfl
    · obtain ⟨rest, rfl⟩ := List.head?_eq_some_iff.mp hh
      rfl
  rw [payloadText, append_assoc, if_pos (prefix_append _ _), ← hl, drop_left,
    takeWhile_append_of_pos ht, hst, append_nil]

theorem verifyToken_minted (hp : payloadText token = some (m.lib.payload64 nonce claims))
    (his : claims.iss = m.issuer)
    (he : timestamp now < claims.exp) : m.verifyToken now token = .ok claims := by
  have hsp := @splitPayload_append nonce.1 (m.lib.encodeClaims claims)
    (m.lib.sign (preAuth nonce.1 (m.lib.encodeClaims claims))) nonce.2 (m.lib.length_sign _)
  have hl : ¬ (nonce.1 ++ m.lib.encodeClaims claims ++
      m.lib.sign (preAuth nonce.1 (m.lib.encodeClaims claims))).length < pasetoMinPayloadLen := by
    rw [length_append, length_append, nonce.2, m.lib.length_sign, pasetoMinPayloadLen]
    omega
  have hve : m.lib.verifies (preAuth nonce.1 (m.lib.encodeClaims claims))
      (m.lib.sign (preAuth nonce.1 (m.lib.encodeClaims claims))) = true := by
    rw [PasetoLib.verifies, m.lib.verify_sign, Bool.true_or]
  have hva : m.validateClaims now claims = .ok () := validateClaims_eq_ok_iff.mpr ⟨his, he⟩
  simp only [AuthManager.verifyToken, hp, PasetoLib.payload64,
    (m.lib.decode64_eq_some_iff _ _).mpr rfl, if_neg hl, hsp,
    if_neg (m.lib.encodeClaims_ne_nil claims), hve, m.lib.decode_encodeClaims, hva]
  rfl

theorem unforged_text {t : Minted} (ht : t ∈ minted) : Unforged lib minted (t.text lib) := by
  intro text payload hte hp _
  have ho := payloadText_append (lib.payload64 t.nonce t.claims) [] (lib.dot_not_mem_encode64 _) (.inl rfl)
  rw [append_nil] at ho
  obtain rfl := Option.some_inj.mp (ho.symm.trans hte)
  obtain rfl := Option.some_inj.mp (((lib.decode64_eq_some_iff _ _).mpr rfl).symm.trans hp)
  rw [splitPayload_append t.nonce.2 (lib.length_sign _)]
  exact fun _ => ⟨t, ht, rfl, rfl⟩

theorem exists_minted_of_verifyToken (h : m.verifyToken now token = .ok claims)
    (hu : Unforged m.lib minted token) :
    ∃ t ∈ minted, claims = t.claims ∧ payloadText token = some (m.lib.payload64 t.nonce t.claims) ∧
      timestamp now < claims.exp := by
  unfold AuthManager.verifyToken at h
  split at h
  · cases h
  rename_i text hte
  split at h
  · cases h
  rename_i payload hp
  split_ifs at h with hsh
  rcases hsp : splitPayload payload with ⟨nonce, message, signature⟩
  rw [hsp] at h
  dsimp only at h
  split_ifs at h with hem hve
  rw [Bool.not_eq_false] at hve
  split at h
  · cases h
  rename_i claims' hcl
  have hf := hu text payload hte hp (not_lt.mp hsh)
  rw [hsp] at hf
  obtain ⟨t, ht, hpr, hsi⟩ := hf hve
  obtain ⟨hpa, hno⟩ := append_of_splitPayload (not_lt.mp hsh) hsp
  obtain ⟨rfl, rfl⟩ := preAuth_inj (hno.trans t.nonce.2.symm) hpr
  obtain rfl : t.claims = claims' :=
    Option.some_inj.mp ((m.lib.decode_encodeClaims t.claims).symm.trans hcl)
  have ht' : text = m.lib.payload64 t.nonce t.claims := by
    rw [PasetoLib.payload64, ← hsi, ← hpa]
    exact (m.lib.decode64_eq_some_iff _ _).mp hp
  cases hva : m.validateClaims now t.claims with
  | error e =>
    rw [hva] at h
    cases h
  | ok =>
    rw [hva] at h
    cases h
    exact ⟨t, ht, rfl, by rw [hte, ht'], (validateClaims_eq_ok_iff.mp hva).2⟩

end

section

def encodeChars : List Char → Bytes
  | [] => [0]
  | c :: cs =>
    1 :: .ofNat (c.toNat / 65536) :: .ofNat (c.toNat / 256) :: .ofNat c.toNat :: encodeChars cs

def decodeChars : Bytes → Option (List Char × Bytes)
  | [] => none
  | flag :: rest =>
    if flag = 0 then some ([], rest)
    else
      match rest with
      | b₂ :: b₁ :: b₀ :: rest => (decodeChars rest).map fun (cs, rest) =>
        (Char.ofNat (b₂.toNat * 65536 + b₁.toNat * 256 + b₀.toNat) :: cs, rest)
      | _ => none

theorem decodeChars_encodeChars (cs : List Char) (rest : Bytes) :
    decodeChars (encodeChars cs ++ rest) = some (cs, rest) := by
  induction cs with
  | nil =>
    rw [encodeChars, singleton_append]
    unfold decodeChars
    rfl
  | cons c cs ih =>
    have hch : (UInt8.ofNat (c.toNat / 65536)).toNat * 65536 +
        (UInt8.ofNat (c.toNat / 256)).toNat * 256 + (UInt8.ofNat c.toNat).toNat = c.toNat := by
      have hlt : c.toNat < 1114112 := by
        rcases c.valid with h | h <;> simp only [Char.toNat] <;> omega
      simp only [UInt8.toNat_ofNat']
      omega
    simp only [encodeChars, cons_append, decodeChars, if_neg (by decide : (1 : UInt8) ≠ 0), ih,
      hch, Option.map_some, Char.ofNat_toNat]

def encodeInt (i : Int) : Bytes :=
  encodeChars ((if i < 0 then '-' else '+') :: Nat.toDigits 10 i.natAbs)

def decodeInt (bytes : Bytes) : Option (Int × Bytes) :=
  match decodeChars bytes with
  | some (sign :: digits, rest) =>
    let n : Int := Nat.ofDigitChars 10 digits 0
    some (if sign = '-' then -n else n, rest)
  | _ => none

theorem decodeInt_encodeInt (i : Int) (rest : Bytes) : decodeInt (encodeInt i ++ rest) = some (i, rest) := by
  simp only [decodeInt, encodeInt, decodeChars_encodeChars, Nat.ofDigitChars_ten_toDigits]
  by_cases hi : i < 0
  · simp only [hi, if_true]
    congr 2
    omega
  · simp only [hi, if_false, if_neg (by decide : ¬ '+' = '-')]
    congr 2
    omega

def plainEncode (c : Claims) : Bytes :=
  encodeChars c.sub.toList ++ (encodeChars c.jti.toList ++ (encodeInt c.exp ++ (encodeInt c.iat ++
    (encodeChars c.iss.toList ++ encodeChars (match c.deviceId with
      | none => []
      | some d => '1' :: d.toList)))))

def plainDecode (bytes : Bytes) : Option Claims := do
  let (sub, bytes) ← decodeChars bytes
  let (jti, bytes) ← decodeChars bytes
  let (exp, bytes) ← decodeInt bytes
  let (iat, bytes) ← decodeInt bytes
  let (iss, bytes) ← decodeChars bytes
  let (device, _) ← decodeChars bytes
  pure ⟨.ofList sub, .ofList jti, exp, iat, .ofList iss, device.head?.map fun _ => .ofList device.tail⟩

theorem plainDecode_plainEncode (c : Claims) : plainDecode (plainEncode c) = some c := by
  obtain ⟨sub, jti, exp, iat, iss, device⟩ := c
  have hl : ∀ cs, decodeChars (encodeChars cs) = some (cs, []) := fun cs => by
    simpa using decodeChars_encodeChars cs []
  cases device <;>
    simp [plainDecode, plainEncode, decodeChars_encodeChars, decodeInt_encodeInt, hl]

def plain64 (bytes : Bytes) : Text := bytes.map fun b => Char.ofNat (b.toNat + 256)

def plainBytes (text : Text) : Bytes := text.map fun c => .ofNat c.toNat

theorem toNat_plainChar (b : UInt8) : (Char.ofNat (b.toNat + 256)).toNat = b.toNat + 256 := by
  have hch : ∀ n < 256, (Char.ofNat (n + 256)).toNat = n + 256 := by
    decide +kernel
  exact hch b.toNat b.toNat_lt

theorem plainBytes_plain64 (bytes : Bytes) : plainBytes (plain64 bytes) = bytes := by
  have hby : ∀ b : UInt8, UInt8.ofNat (Char.ofNat (b.toNat + 256)).toNat = b := fun b => by
    rw [toNat_plainChar, ← UInt8.toNat_inj, UInt8.toNat_ofNat', Nat.add_mod_right]
    exact Nat.mod_eq_of_lt b.toNat_lt
  rw [plainBytes, plain64, map_map]
  exact (map_congr_left fun b _ => hby b).trans (map_id _)

def plainSign (message : Bytes) : Bytes := (message ++ List.replicate 64 0).take 64

def plainLib : PasetoLib where
  encodeClaims := plainEncode
  decodeClaims := plainDecode
  encode64 := plain64
  decode64 text := if text = plain64 (plainBytes text) then some (plainBytes text) else none
  sign := plainSign
  verify message signature := signature = plainSign message
  previous := []
  decode_encodeClaims := plainDecode_plainEncode
  encodeClaims_ne_nil c := by
    unfold plainEncode
    cases c.sub.toList <;> simp [encodeChars]
  decode64_eq_some_iff text bytes := by
    constructor
    · intro h
      split_ifs at h with heq
      rwa [← Option.some_inj.mp h]
    · rintro rfl
      rw [plainBytes_plain64, if_pos rfl]
  dot_not_mem_encode64 bytes := by
    rw [plain64, mem_map]
    rintro ⟨b, -, hb⟩
    have hnat := toNat_plainChar b
    rw [hb] at hnat
    have hdot : '.'.toNat = 46 := rfl
    omega
  length_sign message := by
    rw [plainSign, length_take, length_append, length_replicate]
    omega
  verify_sign message := decide_eq_true rfl

end

end ConstructServer.Auth
