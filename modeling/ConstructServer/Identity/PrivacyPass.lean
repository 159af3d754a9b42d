import Mathlib.Algebra.Field.ZMod
import ConstructServer.Library.Dleq
import ConstructServer.Library.Service
import ConstructServer.Queue.Envelope

/-!
# Privacy Pass tokens

A client blinds the point of a nonce, the server multiplies the blinded point with its key, and the
client takes the blinding away: what is left is the point of the nonce times the key, which the
server recognises when the token is redeemed, without having seen it. A proof over the whole batch
shows that every point was multiplied with the published key.
-/

namespace ConstructServer.Identity

open Calls List
open Queue (Bytes utf8)

abbrev Bytes32 : Type := { b : Bytes // b.length = 32 }

abbrev Bytes64 : Type := { b : Bytes // b.length = 64 }

/-- The group of ristretto points and the field of its scalars, as the library provides them, and
the hashes. -/
structure Ristretto (F G : Type) [Field F] [AddCommGroup G] [Module F G] where
  basepoint : G
  compress : G → Bytes32
  decompress : Bytes32 → Option G
  decompress_compress : ∀ p, decompress (compress p) = some p
  toBytes : F → Bytes32
  fromCanonicalBytes : Bytes32 → Option F
  fromCanonicalBytes_toBytes : ∀ x, fromCanonicalBytes (toBytes x) = some x
  fromBytesModOrder : Bytes32 → F
  sha512 : Bytes → Bytes
  /-- `Scalar::from_hash` of the SHA-512 of the bytes. -/
  scalarFromHash : Bytes → F
  /-- `RistrettoPoint::from_hash` of the SHA-512 of the bytes. -/
  pointFromHash : Bytes → G
  /-- HKDF-SHA512 without salt, to 32 bytes. -/
  hkdf : (ikm info : Bytes) → Bytes32

section

variable {F G : Type} [Field F] [AddCommGroup G] [Module F G] [DecidableEq F] [DecidableEq G]
  (R : Ristretto F G)

/-! ### Tokens -/

def ppHkdfInfo : Bytes := utf8 "ConstructPP-v1"

def hashToRistretto (data : Bytes) : G := R.pointFromHash data

def deriveToken (n : Bytes32) (nonce : Bytes32) : Bytes32 := R.hkdf (n.1 ++ nonce.1) ppHkdfInfo

def verifyToken (token nonce key : Bytes32) : Bool :=
  let k := R.fromBytesModOrder key
  let t := hashToRistretto R nonce.1
  let n := k • t
  decide (deriveToken R (R.compress n) nonce = token)

def blind (r : F) (nonce : Bytes32) : G := r • hashToRistretto R nonce.1

def finalize (r : F) (nonce evaluated : Bytes32) : Option Bytes32 :=
  (R.decompress evaluated).map fun z => deriveToken R (R.compress (r⁻¹ • z)) nonce

/-! ### The proof of a batch -/

def dleqDomain : Bytes := utf8 "ConstructPP-DLEQ-v1"

def dleqHashToScalar (parts : List Bytes) : F := R.scalarFromHash parts.flatten

def decompressNonidentity (bytes : Bytes32) : Option G := (R.decompress bytes).filter (· ≠ 0)

def issuerPublicKey (key : Bytes32) : Bytes32 :=
  R.compress (R.fromBytesModOrder key • R.basepoint)

def decompressPairs : List (Bytes32 × Bytes32) → Option (List (G × G))
  | [] => some []
  | (b, z) :: pairs => do
    let bPoint ← decompressNonidentity R b
    let zPoint ← decompressNonidentity R z
    let points ← decompressPairs pairs
    pure ((bPoint, zPoint) :: points)

def batchSeed (publicKey : Bytes32) (pairs : List (Bytes32 × Bytes32)) : Bytes :=
  R.sha512 (dleqDomain ++ [0x00] ++ publicKey.1 ++ (pairs.map fun p => p.1.1 ++ p.2.1).flatten)

/-- The weights of a batch, from the index `i` on; the index is an `u32`. -/
def weights (seed : Bytes) : Nat → List (Bytes32 × Bytes32) → List F
  | _, [] => []
  | i, (b, z) :: pairs =>
    dleqHashToScalar R [dleqDomain, [0x01], seed, Framing.beBytes 4 (i % 2 ^ 32), b.1, z.1] ::
      weights seed (i + 1) pairs

def computeComposites (publicKey : Bytes32) (blinded evaluated : List Bytes32) : Option (G × G) :=
  if blinded = [] ∨ blinded.length ≠ evaluated.length then none
  else do
    let pairs := blinded.zip evaluated
    let points ← decompressPairs R pairs
    let d := weights R (batchSeed R publicKey pairs) 0 pairs
    pure (Dleq.combine 0 (d.zip (points.map Prod.fst)), Dleq.combine 0 (d.zip (points.map Prod.snd)))

def dleqChallenge (publicKey : Bytes32) (m zc a1 a2 : G) : F :=
  dleqHashToScalar R [dleqDomain, [0x03], publicKey.1, (R.compress m).1, (R.compress zc).1,
    (R.compress a1).1, (R.compress a2).1]

def dleqBytes (proof : Dleq.Proof F) : Bytes64 :=
  ⟨(R.toBytes proof.challenge).1 ++ (R.toBytes proof.response).1, by
    rw [length_append, (R.toBytes _).2, (R.toBytes _).2]⟩

def generateDleqProof (key : Bytes32) (blinded evaluated : List Bytes32) : Option Bytes64 := do
  let k := R.fromBytesModOrder key
  let publicKey := issuerPublicKey R key
  let (m, zc) ← computeComposites R publicKey blinded evaluated
  -- The nonce is the hash of the key and of the statement.
  let t := dleqHashToScalar R
    [dleqDomain, [0x02], (R.toBytes k).1, (R.compress m).1, (R.compress zc).1]
  let a1 := t • R.basepoint
  let a2 := t • m
  let c := dleqChallenge R publicKey m zc a1 a2
  pure (dleqBytes R ⟨c, t + c * k⟩)

def firstHalf (proof : Bytes64) : Bytes32 := ⟨proof.1.take 32, by rw [length_take, proof.2]; rfl⟩

def secondHalf (proof : Bytes64) : Bytes32 := ⟨proof.1.drop 32, by rw [length_drop, proof.2]⟩

def verifyDleqProof (issuerPublic : Bytes32) (blinded evaluated : List Bytes32) (proof : Bytes64) :
    Bool :=
  match R.fromCanonicalBytes (firstHalf proof), R.fromCanonicalBytes (secondHalf proof) with
  | some c, some s => match R.decompress issuerPublic with
    | none => false
    | some kPoint => match computeComposites R issuerPublic blinded evaluated with
      | none => false
      | some (m, zc) =>
        let a1 := s • R.basepoint - c • kPoint
        let a2 := s • m - c • zc
        decide (dleqChallenge R issuerPublic m zc a1 a2 = c)
  | _, _ => false

/-! ### The call -/

structure IssueTokensResponse where
  evaluatedPoints : List Bytes
  serverPubkey : Bytes
  dleqProof : Bytes
  issuerKeyVersion : Nat

def decodePoint (raw : Bytes) : Except Status (G × Bytes32) :=
  if h : raw.length = 32 then
    match R.decompress ⟨raw, h⟩ with
    | none => .error ⟨.invalidArgument, "blinded point: not on ristretto255"⟩
    | some point =>
      if point = 0 then .error ⟨.invalidArgument, "blinded point: identity point not allowed"⟩
      else .ok (point, ⟨raw, h⟩)
  else .error ⟨.invalidArgument, "each blinded point must be exactly 32 bytes"⟩

def decodePoints : List Bytes → Except Status (List (G × Bytes32))
  | [] => .ok []
  | raw :: raws => do
    let point ← decodePoint R raw
    let points ← decodePoints raws
    pure (point :: points)

/-- What is issued for the points that were granted. Without a proof the tokens are issued all the
same. -/
def issueGranted (key : Bytes32) (version : Nat) (decoded : List (G × Bytes32)) : IssueTokensResponse :=
  let k := R.fromBytesModOrder key
  let evaluated := decoded.map fun p => R.compress (k • p.1)
  { evaluatedPoints := evaluated.map Subtype.val
    serverPubkey := (issuerPublicKey R key).1
    dleqProof := ((generateDleqProof R key (decoded.map Prod.snd) evaluated).map Subtype.val).getD []
    issuerKeyVersion := version }

/-- `issue_tokens` of a signed-in account with the cap of its tier; `reserved` is what the hourly
counter grants. -/
def issueTokens (key : Option Bytes32) (version cap : Nat) (mature : Bool) (reserved : Except String Nat)
    (points : List Bytes) : Except Status IssueTokensResponse :=
  match key with
  | none => .error ⟨.unavailable, "privacy pass: token issuance not configured"⟩
  | some key =>
    if points = [] ∨ 20 < points.length then
      .error ⟨.invalidArgument, "blinded_points: must have 1–20 entries"⟩
    else do
      let decoded ← decodePoints R points
      let grant ← reserved.mapError fun e => ⟨.resourceExhausted, "rate limit error: " ++ e⟩
      let tier := if mature then "" else ", new-account tier"
      if grant = 0 then
        .error ⟨.resourceExhausted, s!"token issuance rate limit exceeded ({cap}/hr{tier})"⟩
      else .ok (issueGranted R key version (decoded.take grant))

/-! ### A batch and its proof -/

variable {R} {key : Bytes32} {decoded : List (G × Bytes32)}

def Decoded (R : Ristretto F G) (decoded : List (G × Bytes32)) : Prop :=
  ∀ b ∈ decoded, R.decompress b.2 = some b.1 ∧ b.1 ≠ 0

omit [DecidableEq F] in
theorem decompressNonidentity_eq_some {bytes : Bytes32} {p : G} (h : R.decompress bytes = some p)
    (hp : p ≠ 0) : decompressNonidentity R bytes = some p := by
  rw [decompressNonidentity, h, Option.filter_some, if_pos (by simpa using hp)]

omit [DecidableEq F] in
theorem decompressPairs_evaluated {k : F} (hk : k ≠ 0) (hde : Decoded R decoded) :
    decompressPairs R (decoded.map fun b => (b.2, R.compress (k • b.1))) =
      some (decoded.map fun b => (b.1, k • b.1)) := by
  induction decoded with
  | nil => rfl
  | cons b decoded ih =>
    obtain ⟨hb, hne⟩ := hde b mem_cons_self
    have hmu : k • b.1 ≠ 0 := by
      intro hze
      apply hne
      rw [← inv_smul_smul₀ hk b.1, hze, smul_zero]
    have hz : decompressNonidentity R (R.compress (k • b.1)) = some (k • b.1) :=
      decompressNonidentity_eq_some (R.decompress_compress _) hmu
    have hr := ih fun b' hb' => hde b' (mem_cons_of_mem _ hb')
    simp only [map_cons, decompressPairs, decompressNonidentity_eq_some hb hne, hz, hr]
    rfl

omit [DecidableEq F] in
theorem computeComposites_evaluated {k : F} (hk : k ≠ 0) (hde : Decoded R decoded)
    (hne : decoded ≠ []) (publicKey : Bytes32) : ∃ m, computeComposites R publicKey (decoded.map Prod.snd)
      (decoded.map fun b => R.compress (k • b.1)) = some (m, k • m) := by
  have hpa : (decoded.map Prod.snd).zip (decoded.map fun b => R.compress (k • b.1)) =
      decoded.map fun b => (b.2, R.compress (k • b.1)) := zip_map' ..
  have hsh : ¬(decoded.map Prod.snd = [] ∨
      (decoded.map Prod.snd).length ≠ (decoded.map fun b => R.compress (k • b.1)).length) := by
    simp [hne]
  unfold computeComposites
  dsimp only
  rw [if_neg hsh, hpa, decompressPairs_evaluated hk hde]
  -- The weights are the same for both composites.
  generalize weights R _ 0 _ = d
  refine ⟨Dleq.combine 0 (d.zip (decoded.map Prod.fst)), ?_⟩
  have hco := Dleq.combine_smul k 0 (d.zip (decoded.map Prod.fst))
  rw [smul_zero] at hco
  rw [← hco]
  show some (Dleq.combine 0 _, Dleq.combine 0 _) = _
  simp only [map_map, zip_map_right]
  rfl

omit [DecidableEq F] [DecidableEq G] in
theorem firstHalf_dleqBytes (proof : Dleq.Proof F) :
    firstHalf (dleqBytes R proof) = R.toBytes proof.challenge := by
  apply Subtype.ext
  show ((R.toBytes proof.challenge).1 ++ _).take 32 = _
  rw [take_append_of_le_length (R.toBytes _).2.ge, take_of_length_le (R.toBytes _).2.le]

omit [DecidableEq F] [DecidableEq G] in
theorem secondHalf_dleqBytes (proof : Dleq.Proof F) :
    secondHalf (dleqBytes R proof) = R.toBytes proof.response := by
  apply Subtype.ext
  show ((R.toBytes proof.challenge).1 ++ _).drop 32 = _
  rw [drop_append_of_le_length (R.toBytes _).2.ge, drop_of_length_le (R.toBytes _).2.le, nil_append]

theorem verifyDleqProof_generate {blinded evaluated : List Bytes32} {m : G}
    (h : computeComposites R (issuerPublicKey R key) blinded evaluated =
      some (m, R.fromBytesModOrder key • m)) : ∃ proof, generateDleqProof R key blinded evaluated = some proof ∧
      verifyDleqProof R (issuerPublicKey R key) blinded evaluated proof = true := by
  let k := R.fromBytesModOrder key
  let t := dleqHashToScalar R
    [dleqDomain, [0x02], (R.toBytes k).1, (R.compress m).1, (R.compress (k • m)).1]
  let hash := dleqChallenge R (issuerPublicKey R key) m (k • m)
  let proof := Dleq.prove hash t k R.basepoint m
  have hg : generateDleqProof R key blinded evaluated = some (dleqBytes R proof) := by
    unfold generateDleqProof
    dsimp only
    rw [h]
    rfl
  refine ⟨_, hg, ?_⟩
  unfold verifyDleqProof
  rw [firstHalf_dleqBytes, secondHalf_dleqBytes, R.fromCanonicalBytes_toBytes, R.fromCanonicalBytes_toBytes, h]
  simp only [issuerPublicKey, R.decompress_compress]
  exact Dleq.verify_prove hash t k R.basepoint m

omit [DecidableEq F] [DecidableEq G] in
theorem verifyToken_finalize {r : F} (hr : r ≠ 0) (nonce : Bytes32) :
    ∃ token, finalize R r nonce (R.compress (R.fromBytesModOrder key • blind R r nonce)) = some token ∧
      verifyToken R token nonce key = true := by
  have hu : r⁻¹ • R.fromBytesModOrder key • blind R r nonce =
      R.fromBytesModOrder key • hashToRistretto R nonce.1 := by
    rw [smul_comm, blind, inv_smul_smul₀ hr]
  refine ⟨_, ?_, decide_eq_true rfl⟩
  rw [finalize, R.decompress_compress, Option.map_some, hu]

omit [DecidableEq F] in
theorem decodePoints_of_decoded (hde : Decoded R decoded) :
    decodePoints R (decoded.map fun b => b.2.1) = .ok decoded := by
  induction decoded with
  | nil => rfl
  | cons b decoded ih =>
    obtain ⟨hb, hne⟩ := hde b mem_cons_self
    have hpo : decodePoint R b.2.1 = .ok b := by
      unfold decodePoint
      rw [dif_pos b.2.2, show R.decompress ⟨b.2.1, b.2.2⟩ = some b.1 from hb]
      simp [hne]
    rw [map_cons, decodePoints, hpo, ih fun b' hb' => hde b' (mem_cons_of_mem _ hb')]
    rfl

/-- **Issuance is correct.** For an issuer key that is not zero and blinded points that are valid,
of which a prefix of `m` is granted: the call answers with the points of the prefix times the key,
the proof is accepted for them against the public key that is returned, and each of them is a token
for its nonce once the blinding is taken away. -/
theorem issuance_correct (R : Ristretto F G) (key : Bytes32) (hkey : R.fromBytesModOrder key ≠ 0)
    (version cap : Nat) (mature : Bool) (decoded : List (G × Bytes32)) (hdecoded : Decoded R decoded)
    (m : Nat) (hpos : 0 < m) (hle : m ≤ decoded.length) :
    let k := R.fromBytesModOrder key
    let response := issueGranted R key version (decoded.take m)
    let blinded := (decoded.take m).map Prod.snd
    let evaluated := (decoded.take m).map fun b => R.compress (k • b.1)
    (decoded.length ≤ 20 → issueTokens R (some key) version cap mature (.ok m)
      (decoded.map fun b => b.2.1) = .ok response) ∧
    response.evaluatedPoints = evaluated.map Subtype.val ∧
    response.serverPubkey = (issuerPublicKey R key).1 ∧
    (∃ proof : Bytes64, response.dleqProof = proof.1 ∧
      verifyDleqProof R (issuerPublicKey R key) blinded evaluated proof = true) ∧
    ∀ b ∈ decoded.take m, ∀ r nonce, r ≠ 0 → b.1 = blind R r nonce →
      ∃ token, finalize R r nonce (R.compress (k • b.1)) = some token ∧
        verifyToken R token nonce key = true := by
  have htake : Decoded R (decoded.take m) := fun b hb => hdecoded b (mem_of_mem_take hb)
  have hne : decoded ≠ [] := ne_nil_of_length_pos (hpos.trans_le hle)
  refine ⟨fun hmany => ?_, rfl, rfl, ?_, fun b _ r nonce hr hb => ?_⟩
  · have hcount : ¬((decoded.map fun b => b.2.1) = [] ∨ 20 < (decoded.map fun b => b.2.1).length) := by
      simp [hne, hmany]
    unfold issueTokens
    dsimp only
    rw [if_neg hcount, decodePoints_of_decoded hdecoded]
    exact if_neg hpos.ne'
  · have htakene : decoded.take m ≠ [] := by
      rw [Ne, take_eq_nil_iff, not_or]
      exact ⟨hpos.ne', hne⟩
    obtain ⟨composite, hcomposite⟩ :=
      computeComposites_evaluated hkey htake htakene (issuerPublicKey R key)
    obtain ⟨proof, hproof, haccepted⟩ := verifyDleqProof_generate hcomposite
    refine ⟨proof, ?_, haccepted⟩
    simp only [issueGranted, hproof, Option.map_some, Option.getD_some]
  · rw [hb]
    exact verifyToken_finalize hr nonce

end

/-! ### A group of three points -/

def tinyEncode (x : ZMod 3) : Bytes32 := ⟨UInt8.ofNat x.val :: replicate 31 0, rfl⟩

def tinyDecode (bytes : Bytes32) : ZMod 3 := ((bytes.1.headD 0).toNat : ZMod 3)

theorem tinyDecode_tinyEncode : ∀ x, tinyDecode (tinyEncode x) = x := by decide

theorem length_padded (bytes : Bytes) : ((bytes ++ replicate 32 0).take 32).length = 32 := by simp

def tinyRistretto : Ristretto (ZMod 3) (ZMod 3) where
  basepoint := 1
  compress := tinyEncode
  decompress bytes := some (tinyDecode bytes)
  decompress_compress p := congrArg some (tinyDecode_tinyEncode p)
  toBytes := tinyEncode
  fromCanonicalBytes bytes := some (tinyDecode bytes)
  fromCanonicalBytes_toBytes x := congrArg some (tinyDecode_tinyEncode x)
  fromBytesModOrder := tinyDecode
  sha512 := id
  scalarFromHash data := (data.length : ZMod 3)
  pointFromHash _ := 1
  hkdf ikm _ := ⟨(ikm ++ replicate 32 0).take 32, length_padded ikm⟩

/-- Two points are blinded with one and two, and the first of them is granted. -/
theorem issuance_correct_tiny : issueTokens tinyRistretto (some (tinyEncode 2)) 1 120 true (.ok 1)
        [(tinyEncode 1).1, (tinyEncode 2).1] = .ok (issueGranted tinyRistretto (tinyEncode 2) 1 [(1, tinyEncode 1)]) ∧
    ∃ proof : Bytes64, (issueGranted tinyRistretto (tinyEncode 2) 1 [(1, tinyEncode 1)]).dleqProof = proof.1 ∧
        verifyDleqProof tinyRistretto (issuerPublicKey tinyRistretto (tinyEncode 2)) [tinyEncode 1]
          [tinyEncode 2] proof = true := by
  obtain ⟨hissued, -, -, hproof, -⟩ := issuance_correct tinyRistretto (tinyEncode 2) (by decide) 1 120 true
    [(1, tinyEncode 1), (2, tinyEncode 2)] (by unfold Decoded; decide) 1 (by decide) (by decide)
  exact ⟨hissued (by decide), hproof⟩

end ConstructServer.Identity
