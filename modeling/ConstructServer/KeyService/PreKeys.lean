import ConstructServer.Library.RedisKeys
import ConstructServer.Library.Service
import ConstructServer.Library.Table
import ConstructServer.Library.Uuid
import ConstructServer.Queue.Envelope

/-!
# The pre-keys of a device

A device uploads signed pre-keys, a hybrid identity and one-time keys of two kinds; a bundle is
served from what is stored and takes a one-time key of each kind out of the pool. The calls run
statement by statement, each of which can fail, and statements of other calls run in between. Only a
transaction that has updated the row of a device keeps the others from it until it commits.
-/

namespace ConstructServer.KeyService

open Calls Option
open Queue (Bytes utf8)
open Redis (Keyspace)

/-! ### What is stored -/

structure KeyRef where
  device : String
  keyId : UInt32
deriving DecidableEq

structure KyberOneTimePreKey where
  publicKey : Bytes
  signature : Bytes
  createdAt : Option UInt64
  hybridSignature : Option Bytes
deriving DecidableEq

/-- A one-time key; once it is expired it is kept for a while and not served. -/
structure OneTimeRow (ρ : Type) where
  key : ρ
  expiredAt : Option Nat

structure SignedPreKey where
  keyId : UInt32
  publicKey : Bytes
  signature : Bytes

structure KyberSignedPreKey where
  keyId : UInt32
  publicKey : Bytes
  signature : Bytes
  createdAt : UInt64

structure DeviceRow where
  userId : Option Uuid
  isActive : Bool
  verifyingKey : Bytes
  registeredAt : Nat
  signedPrekeyPublic : Bytes
  signedPrekeyId : UInt32
  signedPrekeySignature : Option Bytes
  signedPrekeyHybridSignature : Option Bytes
  spkRotationEpoch : Nat
  kyberSignedPreKey : Option Bytes
  kyberSignedPreKeyId : Option UInt32
  kyberSignedPreKeySignature : Option Bytes
  kyberSignedPreKeyCreatedAt : Option UInt64
  kyberSignedPreKeyHybridSignature : Option Bytes
  kyberSpkRotationEpoch : Nat
  hybridIdentityKey : Option Bytes
  hybridIdentitySignature : Option Bytes
  supportsPqRatchet : Bool

/-- A bundle: what the row of the device says, and the one-time keys taken out for it. -/
structure PreKeyBundle where
  deviceId : String
  device : DeviceRow
  oneTimePrekey : Option (UInt32 × Bytes)
  kyberOneTimePreKey : Option (UInt32 × KyberOneTimePreKey)

/-- What the SELECT of `store_hybrid_identity` reads. -/
structure HybridVerifyRow where
  verifyingKey : Bytes
  signedPrekeyPublic : Bytes
  kyberSignedPreKey : Option Bytes
  kyberSignedPreKeyCreatedAt : Option UInt64
deriving DecidableEq

/-! ### The checks -/

/-- The signature schemes. -/
structure Crypto where
  verifyingKey : Bytes → Except String Unit
  ed25519 : (key message signature : Bytes) → Bool
  hybrid : (key message signature : Bytes) → Except String Unit

def kyberPublicKeySize : Nat := 1568

def ed25519SignatureSize : Nat := 64

def hybridSigPublicKeySize : Nat := 1984

def hybridSignatureSize : Nat := 3373

def kyberSpkMaxAgeSecs : Nat := 30 * 24 * 3600

def kyberCreatedAtMaxSkewSecs : Nat := 24 * 3600

def maxPrekeysPerUpload : Nat := 200

def maxStoredPrekeys : Nat := 1000

def maxReplacesPerHour : Nat := 6

def validateSize (kind : String) (size : Nat) (b : Bytes) : Except String Unit :=
  if b.length ≠ size then
    .error s!"Invalid {kind} size: expected {size} bytes, got {b.length}"
  else .ok ()

def validateKyberPublicKey : Bytes → Except String Unit :=
  validateSize "ML-KEM-1024 public key" kyberPublicKeySize

def validateHybridSignature : Bytes → Except String Unit :=
  validateSize "hybrid signature" hybridSignatureSize

def validateEd25519Signature : Bytes → Except String Unit :=
  validateSize "Ed25519 signature" ed25519SignatureSize

def buildPrekeySignMessage (suiteId : UInt8) (publicKey : Bytes) : Bytes :=
  utf8 "KonstruktX3DH-v1" ++ [0x00, suiteId] ++ publicKey

def buildKyberPrekeySignMessageV2 (createdAt : UInt64) (publicKey : Bytes) : Bytes :=
  buildPrekeySignMessage 0x11 (Framing.beBytes 8 createdAt.toNat ++ publicKey)

def verifyEd25519 (cr : Crypto) (name failure : String) (verifyingKey message signature : Bytes) :
    Except String Unit :=
  if verifyingKey.length ≠ 32 then .error "verifying_key must be 32 bytes" else
    match cr.verifyingKey verifyingKey with
    | .error e => .error ("Invalid verifying key: " ++ e)
    | .ok () =>
      if signature.length ≠ 64 then .error (name ++ " must be 64 bytes")
      else if cr.ed25519 verifyingKey message signature then .ok ()
      else .error failure

def verifyPrekeySignature (cr : Crypto) (verifyingKey : Bytes) (suiteId : UInt8)
    (publicKey signature : Bytes) : Except String Unit :=
  verifyEd25519 cr "signature" "Prekey signature verification failed" verifyingKey
    (buildPrekeySignMessage suiteId publicKey) signature

def verifyKyberPrekeySignatureV2 (cr : Crypto) (verifyingKey : Bytes) (createdAt : UInt64)
    (publicKey signature : Bytes) : Except String Unit :=
  verifyEd25519 cr "signature" "Kyber prekey signature verification failed" verifyingKey
    (buildKyberPrekeySignMessageV2 createdAt publicKey) signature

def verifyHybridIdentityCrosssign (cr : Crypto) (verifyingKey hybridIdentityKey signature : Bytes) :
    Except String Unit :=
  verifyEd25519 cr "hybrid_identity_signature" "Hybrid identity cross-signature verification failed"
    verifyingKey (utf8 "KonstruktHybridId-v1" ++ hybridIdentityKey) signature

def checkKyberPrekeyV2 (cr : Crypto) (verifyingKey publicKey : Bytes) (createdAt : UInt64)
    (signature : Bytes) (now : Nat) (maxAgeSecs : Option Nat) : Except String Unit := do
  validateKyberPublicKey publicKey
  validateEd25519Signature signature
  if createdAt = 0 then
    throw "Kyber prekey created_at is required (PQXDH v2)"
  if createdAt.toNat > now + kyberCreatedAtMaxSkewSecs then
    throw s!"Kyber prekey created_at is in the future: {createdAt} > {now}"
  if maxAgeSecs.any (now - createdAt.toNat > ·) then
    throw s!"Kyber signed pre-key is older than {maxAgeSecs.getD 0 / 86400} days by its signed created_at"
  verifyKyberPrekeySignatureV2 cr verifyingKey createdAt publicKey signature

def checkKyberPrekeyHybridV2 (cr : Crypto) (hybridIdentityKey : Option Bytes) (publicKey : Bytes)
    (createdAt : UInt64) (hybridSignature : Bytes) : Except String Unit :=
  match hybridIdentityKey with
  | none => .error "Kyber prekey hybrid signature provided but device has no hybrid identity key"
  | some hybridKey => do
    validateHybridSignature hybridSignature
    (cr.hybrid hybridKey (buildKyberPrekeySignMessageV2 createdAt publicKey)
      hybridSignature).mapError ("Kyber prekey hybrid signature verification failed: " ++ ·)

/-- The checks of `rotate_signed_prekey`. -/
def checkSignedPrekey (cr : Crypto) (verifyingKey : Bytes) (hybridIdentityKey : Option Bytes)
    (key : SignedPreKey) (hybridSig : Option Bytes) : Except String Unit := do
  (verifyPrekeySignature cr verifyingKey 0x01 key.publicKey key.signature).mapError
    ("Classic SPK signature verification failed: " ++ ·)
  match hybridSig with
  | none => pure ()
  | some sig => do
    validateHybridSignature sig
    match hybridIdentityKey with
    | none =>
      throw "signed_pre_key_hybrid_signature provided but device has no hybrid identity key"
    | some hybridKey =>
      (cr.hybrid hybridKey (buildPrekeySignMessage 0x01 key.publicKey) sig).mapError
        ("SPK hybrid signature verification failed: " ++ ·)

structure KyberRotation where
  key : KyberSignedPreKey
  hybridSig : Option Bytes

/-- The checks of `upload_kyber_signed_prekey`. -/
def checkKyberSignedPrekey (cr : Crypto) (verifyingKey : Bytes) (hybridIdentityKey : Option Bytes)
    (rotation : KyberRotation) (now : Nat) : Except String Unit := do
  checkKyberPrekeyV2 cr verifyingKey rotation.key.publicKey rotation.key.createdAt
    rotation.key.signature now (some kyberSpkMaxAgeSecs)
  match rotation.hybridSig with
  | none => pure ()
  | some sig =>
    checkKyberPrekeyHybridV2 cr hybridIdentityKey rotation.key.publicKey rotation.key.createdAt sig

inductive UploadRefusal
  | tooManyInRequest
  | tooManyStored

def uploadAllowed (heldClassic heldKyber newClassic newKyber : Nat) (replaceExisting : Bool) :
    Except UploadRefusal Unit :=
  if newClassic > maxPrekeysPerUpload ∨ newKyber > maxPrekeysPerUpload then
    .error .tooManyInRequest
  else
    let (heldClassic, heldKyber) := if replaceExisting then (0, 0) else (heldClassic, heldKyber)
    if heldClassic + newClassic > maxStoredPrekeys ∨ heldKyber + newKyber > maxStoredPrekeys then
      .error .tooManyStored
    else .ok ()

/-! ### The statements -/

/-- A successful upload that replaced the keys of its device: the tables when it answered, and the
keys that were served since it began. -/
structure Replacement where
  deviceId : String
  preKeys : List (UInt32 × Bytes)
  kyberPreKeys : List (UInt32 × Bytes)
  classic : Table KeyRef (OneTimeRow Bytes)
  kyber : Table KeyRef (OneTimeRow KyberOneTimePreKey)
  served : List (KeyRef × Bytes)
  servedKyber : List (KeyRef × Bytes)

structure KeyState where
  /-- The time in seconds. -/
  now : Nat
  devices : Table String DeviceRow
  oneTimePrekeys : Table KeyRef (OneTimeRow Bytes)
  kyberOneTimePreKeys : Table KeyRef (OneTimeRow KyberOneTimePreKey)
  replaces : Keyspace Nat
  served : List (Nat × KeyRef × Bytes)
  servedKyber : List (Nat × KeyRef × Bytes)
  answered : List (Nat × List PreKeyBundle)
  replaced : List Replacement

/-- Why the signed pre-keys were not stored. -/
inductive SignedPreKeyError
  | classic (e : String)
  | kyber (e : String)

/-- The statements of the calls. Where a key was checked with what an earlier statement has read,
the statement that writes it also names what was read; it makes no use of it. -/
inductive KeyStatement
  | countClassic (device : String)
  | countKyber (device : String)
  | countReplace (device : String)
  | beginTransaction
  | commitTransaction
  | selectKeys (device : String)
  | rotate (device : String) (key : SignedPreKey) (hybridSig : Option Bytes)
      (kyber : Option KyberRotation) (read : Option Bytes)
  | storeKyber (device : String) (rotation : KyberRotation) (read : Option Bytes)
  | selectHybridVerify (device : String)
  | storeHybrid (device : String) (key signature : Bytes) (spkSig kyberSig : Option Bytes)
      (read : HybridVerifyRow)
  | deviceExists (device : String)
  | expireClassic (device : String)
  | expireKyber (device : String)
  | insertClassic (ref : KeyRef) (key : Bytes)
  | insertKyber (ref : KeyRef) (key : KyberOneTimePreKey) (read : Option Bytes)
  | setSupportsPqRatchet (device : String) (supports : Bool)
  | selectDevice (user : String) (device : Option String)
  | selectActiveDevices (user : String)
  | selectDevices (user : String) (devices : Option (List String))
  | consumeClassic (device : String)
  | consumeKyber (device : String)
  | deleteExpiredClassic
  | deleteExpiredKyber

/-- The verifying key and the hybrid identity of an active device, and the time of the query. -/
structure DeviceKeys where
  now : Nat
  row : Option (Bytes × Option Bytes)

abbrev KeyStatement.Reply : KeyStatement → Type
  | .countClassic _ | .countKyber _ | .countReplace _ => Nat
  | .selectKeys _ => DeviceKeys
  | .rotate .. => Except SignedPreKeyError Unit
  | .storeKyber .. | .deviceExists _ => Bool
  | .selectHybridVerify _ => Option HybridVerifyRow
  | .selectDevice .. => Option (String × DeviceRow)
  | .selectActiveDevices _ => List String
  | .selectDevices .. => List (String × DeviceRow)
  | .consumeClassic _ => Option (UInt32 × Bytes)
  | .consumeKyber _ => Option (UInt32 × KyberOneTimePreKey)
  | _ => Unit

def databaseError : String := "database error"

def OneTimeRow.expire {ρ : Type} (now : Nat) (row : OneTimeRow ρ) : OneTimeRow ρ :=
  if row.expiredAt = none then { row with expiredAt := some now } else row

def activeCount {ρ : Type} (t : Table KeyRef (OneTimeRow ρ)) (device : String) : Nat :=
  t.rows.countP fun (ref, row) => ref.device = device ∧ row.expiredAt = none

def expireAll {ρ : Type} (now : Nat) (device : String) (t : Table KeyRef (OneTimeRow ρ)) :
    Table KeyRef (OneTimeRow ρ) :=
  t.modify fun ref row => if ref.device = device then row.expire now else row

def deleteExpired {ρ : Type} (now : Nat) (t : Table KeyRef (OneTimeRow ρ)) :
    Table KeyRef (OneTimeRow ρ) :=
  t.filter fun _ row => row.expiredAt.all (now - 48 * 3600 ≤ ·)

def activeKey {ρ : Type} (t : Table KeyRef (OneTimeRow ρ)) (ref : KeyRef) : Option ρ :=
  ((t.get? ref).filter fun row => row.expiredAt = none).map OneTimeRow.key

section

variable {ρ : Type} {t : Table KeyRef (OneTimeRow ρ)} {ref ref' : KeyRef} {k : ρ}

theorem activeKey_eq_some_iff : activeKey t ref = some k ↔ t.get? ref = some ⟨k, none⟩ := by
  simp only [activeKey, map_eq_some_iff, filter_eq_some_iff, decide_eq_true_eq]
  constructor
  · rintro ⟨⟨key, expiredAt⟩, ⟨hg, rfl⟩, rfl⟩
    exact hg
  · intro hg
    exact ⟨_, ⟨hg, rfl⟩, rfl⟩

theorem activeKey_expireAll {now : Nat} {device : String} : activeKey (expireAll now device t) ref =
      if ref.device = device then none else activeKey t ref := by
  simp only [activeKey, expireAll, Table.get?_modify]
  cases t.get? ref with
  | none => simp
  | some row =>
    split
    · cases hr : row.expiredAt <;> simp [OneTimeRow.expire, hr]
    · rfl

theorem activeKey_deleteExpired {now : Nat} : activeKey (deleteExpired now t) ref = activeKey t ref := by
  ext k
  rw [activeKey_eq_some_iff, activeKey_eq_some_iff, deleteExpired, Table.get?_filter, filter_eq_some_iff]
  exact and_iff_left rfl

theorem activeKey_insertNew : activeKey (t.insertNew ref ⟨k, none⟩) ref' =
      if ref' = ref ∧ t.get? ref = none then some k else activeKey t ref' := by
  simp only [activeKey, Table.get?_insertNew]
  by_cases hr : ref' = ref
  · subst hr
    cases t.get? ref' <;> simp
  · simp [hr]

theorem activeKey_remove :
    activeKey (t.filter fun r _ => r ≠ ref) ref' = if ref' = ref then none else activeKey t ref' := by
  simp only [activeKey, Table.get?_filter]
  by_cases hr : ref' = ref
  · cases t.get? ref' <;> simp [hr]
  · cases t.get? ref' <;> simp [hr]

theorem activeKey_expireOne {now : Nat} :
    activeKey (t.modify fun r row => if r = ref then row.expire now else row) ref' =
      if ref' = ref then none else activeKey t ref' := by
  simp only [activeKey, Table.get?_modify]
  cases t.get? ref' with
  | none => simp
  | some row =>
    by_cases hr : ref' = ref
    · cases hro : row.expiredAt <;> simp [hr, OneTimeRow.expire, hro]
    · simp [hr]

end

namespace KeyState

def activeDevice (s : KeyState) (device : String) : Option DeviceRow :=
  (s.devices.get? device).filter (·.isActive)

def updateDevice (s : KeyState) (device : String) (f : DeviceRow → DeviceRow) : KeyState :=
  { s with devices := s.devices.modify fun id row => if id = device then f row else row }

/-- The update of a device `WHERE is_active`. -/
def updateActive (s : KeyState) (device : String) (f : DeviceRow → DeviceRow) : KeyState :=
  s.updateDevice device fun row => if row.isActive then f row else row

def devicesOf (s : KeyState) (user : Uuid) : List (String × DeviceRow) :=
  s.devices.rows.filter fun (_, row) => row.userId = some user ∧ row.isActive

end KeyState

def firstRegistered : List (String × DeviceRow) → Option (String × DeviceRow)
  | [] => none
  | p :: ps => match firstRegistered ps with
    | some p' => if p'.2.registeredAt < p.2.registeredAt then some p' else some p
    | none => some p

def DeviceRow.rotate (key : SignedPreKey) (hybridSig : Option Bytes) (row : DeviceRow) : DeviceRow :=
  { row with
    signedPrekeyPublic := key.publicKey
    signedPrekeyId := key.keyId
    signedPrekeySignature := some key.signature
    signedPrekeyHybridSignature := hybridSig
    spkRotationEpoch := row.spkRotationEpoch + 1 }

def DeviceRow.storeKyber (rotation : KyberRotation) (row : DeviceRow) : DeviceRow :=
  { row with
    kyberSignedPreKey := some rotation.key.publicKey
    kyberSignedPreKeyId := some rotation.key.keyId
    kyberSignedPreKeySignature := some rotation.key.signature
    kyberSignedPreKeyHybridSignature := rotation.hybridSig
    kyberSignedPreKeyCreatedAt := some rotation.key.createdAt
    kyberSpkRotationEpoch := row.kyberSpkRotationEpoch + 1 }

def DeviceRow.storeHybrid (key signature : Bytes) (spkSig kyberSig : Option Bytes) (row : DeviceRow) :
    DeviceRow :=
  { row with
    hybridIdentityKey := some key
    hybridIdentitySignature := some signature
    signedPrekeyHybridSignature := spkSig
    kyberSignedPreKeyHybridSignature := kyberSig }

def DeviceRow.hybridVerify (row : DeviceRow) : HybridVerifyRow :=
  ⟨row.verifyingKey, row.signedPrekeyPublic, row.kyberSignedPreKey, row.kyberSignedPreKeyCreatedAt⟩

namespace KeyState

/-- The rest of the transaction of a rotation. The other calls wait for it, so the row that the
second part reads is the one that the first part has updated. An error rolls both back. -/
def rotate (cr : Crypto) (s : KeyState) (device : String) (key : SignedPreKey)
    (hybridSig : Option Bytes) (kyber : Option KyberRotation) : Except SignedPreKeyError KeyState :=
  match s.devices.get? device with
  | none => .error (.classic databaseError)
  | some _ =>
    let s' := s.updateDevice device (·.rotate key hybridSig)
    match kyber with
    | none => .ok s'
    | some rotation =>
      match s'.activeDevice device with
      | none => .error (.kyber "Failed to fetch device verifying key")
      | some row =>
        match checkKyberSignedPrekey cr row.verifyingKey row.hybridIdentityKey rotation s.now with
        | .error e => .error (.kyber e)
        | .ok () => .ok (s'.updateActive device (·.storeKyber rotation))

/-- What a statement does and answers. Which of the active keys is consumed is not determined, since
those that another call has locked are passed over. -/
def effect (cr : Crypto) (session : Nat) (q : KeyStatement) (choice : Option UInt32) (s : KeyState) :
    Option (q.Reply × KeyState) :=
  match q with
  | .countClassic device => some (activeCount s.oneTimePrekeys device, s)
  | .countKyber device => some (activeCount s.kyberOneTimePreKeys device, s)
  | .countReplace device =>
    -- The script: `INCR`, and `EXPIRE` on the first one.
    let key := "prekey_replace:" ++ device
    let replaces := s.replaces.incr (s.now * 1000) key
    let count := (replaces.get (s.now * 1000) key).getD 0
    let expiring := if count = 1 then replaces.expire (s.now * 1000) key 3600 else some replaces
    some (count, { s with replaces := expiring.getD replaces })
  | .beginTransaction => some ((), s)
  | .commitTransaction => some ((), s)
  | .selectKeys device => some (⟨s.now, (s.activeDevice device).map fun row =>
      (row.verifyingKey, row.hybridIdentityKey)⟩, s)
  | .rotate device key hybridSig kyber _ => match s.rotate cr device key hybridSig kyber with
    | .ok s' => some (.ok (), s')
    | .error e => some (.error e, s)
  | .storeKyber device rotation _ => some ((s.activeDevice device).isSome,
      s.updateActive device (·.storeKyber rotation))
  | .selectHybridVerify device => some ((s.activeDevice device).map DeviceRow.hybridVerify, s)
  | .storeHybrid device key signature spkSig kyberSig _ => some ((),
      s.updateActive device (·.storeHybrid key signature spkSig kyberSig))
  | .deviceExists device => some ((s.activeDevice device).isSome, s)
  | .expireClassic device => some ((),
      { s with oneTimePrekeys := expireAll s.now device s.oneTimePrekeys })
  | .expireKyber device => some ((),
      { s with kyberOneTimePreKeys := expireAll s.now device s.kyberOneTimePreKeys })
  | .insertClassic ref key => some ((),
      { s with oneTimePrekeys := s.oneTimePrekeys.insertNew ref ⟨key, none⟩ })
  | .insertKyber ref key _ => some ((),
      { s with kyberOneTimePreKeys := s.kyberOneTimePreKeys.insertNew ref ⟨key, none⟩ })
  | .setSupportsPqRatchet device supports => some ((),
      s.updateActive device fun row => { row with supportsPqRatchet := supports })
  | .selectDevice user device => (Uuid.parseStr user).map fun user => (match device with
      | some device => (s.activeDevice device).bind fun row =>
          if row.userId = some user then some (device, row) else none
      | none => firstRegistered (s.devicesOf user), s)
  | .selectActiveDevices user => (Uuid.parseStr user).map fun user =>
      ((s.devicesOf user).map Prod.fst, s)
  | .selectDevices user devices => (Uuid.parseStr user).map fun user =>
      ((s.devicesOf user).filter fun (device, _) => devices.all (device ∈ ·), s)
  | .consumeClassic device => match choice with
    | none => some (none, s)
    | some id => (activeKey s.oneTimePrekeys ⟨device, id⟩).map fun key => (some (id, key),
        { s with
          oneTimePrekeys := s.oneTimePrekeys.filter fun ref _ => ref ≠ ⟨device, id⟩
          served := (session, ⟨device, id⟩, key) :: s.served })
  | .consumeKyber device => match choice with
    | none => some (none, s)
    | some id => (activeKey s.kyberOneTimePreKeys ⟨device, id⟩).map fun key => (some (id, key),
        { s with
          kyberOneTimePreKeys := s.kyberOneTimePreKeys.modify fun ref row =>
            if ref = ⟨device, id⟩ then row.expire s.now else row
          servedKyber := (session, ⟨device, id⟩, key.publicKey) :: s.servedKyber })
  | .deleteExpiredClassic => some ((),
      { s with oneTimePrekeys := deleteExpired s.now s.oneTimePrekeys })
  | .deleteExpiredKyber => some ((),
      { s with kyberOneTimePreKeys := deleteExpired s.now s.kyberOneTimePreKeys })

end KeyState

/-- What a statement does to the one-time keys. -/
inductive KeyEffect (session : Nat) (s : KeyState) : KeyStatement → KeyState → Prop
  | aside {q : KeyStatement} (devices : Table String DeviceRow) (replaces : Keyspace Nat) :
      KeyEffect session s q { s with devices := devices, replaces := replaces }
  | expireClassic (device : String) : KeyEffect session s (.expireClassic device)
      { s with oneTimePrekeys := expireAll s.now device s.oneTimePrekeys }
  | expireKyber (device : String) : KeyEffect session s (.expireKyber device)
      { s with kyberOneTimePreKeys := expireAll s.now device s.kyberOneTimePreKeys }
  | insertClassic (ref : KeyRef) (key : Bytes) : KeyEffect session s (.insertClassic ref key)
      { s with oneTimePrekeys := s.oneTimePrekeys.insertNew ref ⟨key, none⟩ }
  | insertKyber (ref : KeyRef) (key : KyberOneTimePreKey) (read : Option Bytes) :
      KeyEffect session s (.insertKyber ref key read)
        { s with kyberOneTimePreKeys := s.kyberOneTimePreKeys.insertNew ref ⟨key, none⟩ }
  | consumeClassic (device : String) (id : UInt32) {key : Bytes}
      (hkey : activeKey s.oneTimePrekeys ⟨device, id⟩ = some key) :
      KeyEffect session s (.consumeClassic device)
        { s with
          oneTimePrekeys := s.oneTimePrekeys.filter fun ref _ => ref ≠ ⟨device, id⟩
          served := (session, ⟨device, id⟩, key) :: s.served }
  | consumeKyber (device : String) (id : UInt32) {key : KyberOneTimePreKey}
      (hkey : activeKey s.kyberOneTimePreKeys ⟨device, id⟩ = some key) :
      KeyEffect session s (.consumeKyber device)
        { s with
          kyberOneTimePreKeys := s.kyberOneTimePreKeys.modify fun ref row =>
            if ref = ⟨device, id⟩ then row.expire s.now else row
          servedKyber := (session, ⟨device, id⟩, key.publicKey) :: s.servedKyber }
  | deleteExpiredClassic : KeyEffect session s .deleteExpiredClassic
      { s with oneTimePrekeys := deleteExpired s.now s.oneTimePrekeys }
  | deleteExpiredKyber : KeyEffect session s .deleteExpiredKyber
      { s with kyberOneTimePreKeys := deleteExpired s.now s.kyberOneTimePreKeys }

theorem rotate_effect {cr : Crypto} {s s' : KeyState} {device : String} {key : SignedPreKey}
    {hybridSig : Option Bytes} {kyber : Option KyberRotation}
    (h : s.rotate cr device key hybridSig kyber = .ok s') :
    s' = { s with devices := s'.devices } := by
  simp only [KeyState.rotate] at h
  split at h
  · cases h
  · split at h
    · cases h
      rfl
    · split at h
      · cases h
      · split at h
        · cases h
        · cases h
          rfl

section

variable {cr : Crypto} {session : Nat} {s s' : KeyState} {device : String} {key : SignedPreKey}
  {hybridSig read : Option Bytes} {kyber : Option KyberRotation} {choice : Option UInt32}

theorem effect_rotate_of_ok (h : s.rotate cr device key hybridSig kyber = .ok s') :
    s.effect cr session (.rotate device key hybridSig kyber read) choice = some (.ok (), s') := by
  simp only [KeyState.effect, h]

theorem effect_rotate_of_error {e : SignedPreKeyError}
    (h : s.rotate cr device key hybridSig kyber = .error e) :
    s.effect cr session (.rotate device key hybridSig kyber read) choice = some (.error e, s) := by
  simp only [KeyState.effect, h]

end

theorem keyEffect_of_effect {cr : Crypto} {session : Nat} {q : KeyStatement} {choice : Option UInt32}
    {s s' : KeyState} {x : q.Reply}
    (h : s.effect cr session q choice = some (x, s')) : KeyEffect session s q s' := by
  cases q with
  | rotate device key hybridSig kyber read =>
    cases hro : s.rotate cr device key hybridSig kyber with
    | ok t =>
      rw [effect_rotate_of_ok hro] at h
      cases h
      rw [rotate_effect hro]
      exact .aside _ _
    | error e =>
      rw [effect_rotate_of_error hro] at h
      cases h
      exact .aside _ _
  | selectDevice | selectActiveDevices | selectDevices =>
    obtain ⟨u, -, hu⟩ := map_eq_some_iff.mp h
    cases hu
    exact .aside _ _
  | consumeClassic device =>
    cases choice with
    | none =>
      cases h
      exact .aside _ _
    | some id =>
      obtain ⟨key, hk, hs⟩ := map_eq_some_iff.mp h
      cases hs
      exact .consumeClassic device id hk
  | consumeKyber device =>
    cases choice with
    | none =>
      cases h
      exact .aside _ _
    | some id =>
      obtain ⟨key, hk, hs⟩ := map_eq_some_iff.mp h
      cases hs
      exact .consumeKyber device id hk
  | expireClassic device =>
    cases h
    exact .expireClassic device
  | expireKyber device =>
    cases h
    exact .expireKyber device
  | insertClassic ref key =>
    cases h
    exact .insertClassic ref key
  | insertKyber ref key read =>
    cases h
    exact .insertKyber ref key read
  | deleteExpiredClassic =>
    cases h
    exact .deleteExpiredClassic
  | deleteExpiredKyber =>
    cases h
    exact .deleteExpiredKyber
  | _ =>
    cases h
    exact .aside _ _

/-! ### The calls -/

/-- A part of a call whose errors are texts. -/
abbrev KeyCore (α : Type) : Type := Fallible KeyStatement KeyStatement.Reply String α

abbrev KeyHandler (α : Type) : Type := Fallible KeyStatement KeyStatement.Reply Status α

/-- A statement whose failure ends the call. -/
abbrev statement {E : Type} (q : KeyStatement) (e : E) :
    Fallible KeyStatement KeyStatement.Reply E q.Reply :=
  demand q e

def storeSignedPreKeys (cr : Crypto) (device : String)
    (signed : Option (SignedPreKey × Option Bytes)) (kyber : Option KyberRotation) :
    Fallible KeyStatement KeyStatement.Reply SignedPreKeyError Unit := do
  statement .beginTransaction (.classic databaseError)
  match signed, kyber with
  | some (key, hybridSig), kyber => do
    let keys ← statement (.selectKeys device) (.classic databaseError)
    match keys.row with
    | none => throw (.classic s!"Device not found or inactive: {device}")
    | some (verifyingKey, hybridKey) => do
      check ((checkSignedPrekey cr verifyingKey hybridKey key hybridSig).mapError .classic)
      check (← statement (.rotate device key hybridSig kyber hybridKey) (.classic databaseError))
  | none, some rotation => do
    let keys ← statement (.selectKeys device) (.kyber "Failed to fetch device verifying key")
    match keys.row with
    | none => throw (.kyber "Failed to fetch device verifying key")
    | some (verifyingKey, hybridKey) => do
      check ((checkKyberSignedPrekey cr verifyingKey hybridKey rotation keys.now).mapError .kyber)
      ensure (← statement (.storeKyber device rotation hybridKey) (.kyber databaseError))
        (.kyber databaseError)
  | none, none => statement .commitTransaction (.classic databaseError)

def persisted (verify : Bytes → Except String Unit) (sig : Option Bytes) : Option Bytes :=
  sig.filter fun sig => (validateHybridSignature sig).isOk && (verify sig).isOk

def spkSigToPersist (cr : Crypto) (hybridKey : Bytes) (row : HybridVerifyRow) :
    Option Bytes → Option Bytes :=
  persisted (cr.hybrid hybridKey (buildPrekeySignMessage 0x01 row.signedPrekeyPublic))

def kyberSigToPersist (cr : Crypto) (hybridKey : Bytes) (row : HybridVerifyRow)
    (sig : Option Bytes) : Option Bytes :=
  match row.kyberSignedPreKey, row.kyberSignedPreKeyCreatedAt with
  | some kyber, some createdAt =>
    persisted (cr.hybrid hybridKey (buildKyberPrekeySignMessageV2 createdAt kyber)) sig
  | _, _ => none

structure HybridIdentityUpload where
  hybridIdentityKey : Bytes
  hybridIdentitySignature : Bytes
  signedPrekeyHybridSignature : Option Bytes
  kyberPreKeyHybridSignature : Option Bytes

def storeHybridIdentity (cr : Crypto) (device : String) (upload : HybridIdentityUpload) :
    KeyCore Unit := do
  check (validateSize "hybrid_identity_key" hybridSigPublicKeySize upload.hybridIdentityKey)
  check (validateEd25519Signature upload.hybridIdentitySignature)
  match ← statement (.selectHybridVerify device) databaseError with
  | none => throw s!"Device not found or inactive: {device}"
  | some row => do
    check (verifyHybridIdentityCrosssign cr row.verifyingKey upload.hybridIdentityKey
      upload.hybridIdentitySignature)
    statement (.storeHybrid device upload.hybridIdentityKey upload.hybridIdentitySignature
      (spkSigToPersist cr upload.hybridIdentityKey row upload.signedPrekeyHybridSignature)
      (kyberSigToPersist cr upload.hybridIdentityKey row upload.kyberPreKeyHybridSignature) row)
      databaseError

structure KyberUpload where
  keyId : UInt32
  publicKey : Bytes
  signature : Bytes
  createdAt : UInt64
  hybridSignature : Bytes

def KyberUpload.stored (k : KyberUpload) : KyberOneTimePreKey :=
  ⟨k.publicKey, k.signature, some k.createdAt, some k.hybridSignature⟩

def checkKyberKeys (cr : Crypto) (verifyingKey : Bytes) (hybridKey : Option Bytes) (now : Nat) :
    List KyberUpload → Except String Unit
  | [] => .ok ()
  | k :: ks => do
    checkKyberPrekeyV2 cr verifyingKey k.publicKey k.createdAt k.signature now none
    checkKyberPrekeyHybridV2 cr hybridKey k.publicKey k.createdAt k.hybridSignature
    checkKyberKeys cr verifyingKey hybridKey now ks

def checkedKyberKeys (cr : Crypto) (device : String) (kyber : List KyberUpload) :
    KeyCore (Option Bytes) :=
  if kyber.isEmpty then pure none else do
    let keys ← statement (.selectKeys device) "Failed to fetch device verifying key"
    match keys.row with
    | none => throw "Failed to fetch device verifying key"
    | some (verifyingKey, hybridKey) => do
      check (checkKyberKeys cr verifyingKey hybridKey keys.now kyber)
      pure hybridKey

def expireExisting (device : String) (replaceExisting : Bool) : KeyCore Unit :=
  if replaceExisting then do
    statement (.expireClassic device) databaseError
    statement (.expireKyber device) databaseError
  else pure ()

def insertClassicKeys (device : String) : List (UInt32 × Bytes) → KeyCore Unit
  | [] => pure ()
  | (id, key) :: keys => do
    statement (.insertClassic ⟨device, id⟩ key) databaseError
    insertClassicKeys device keys

def insertKyberKeys (device : String) (read : Option Bytes) : List KyberUpload → KeyCore Unit
  | [] => pure ()
  | k :: ks => do
    statement (.insertKyber ⟨device, k.keyId⟩ k.stored read) databaseError
    insertKyberKeys device read ks

/-- `upload_prekeys`: the one-time keys, and how many of each kind are active then. -/
def storePrekeys (cr : Crypto) (device : String) (preKeys : List (UInt32 × Bytes))
    (replaceExisting : Bool) (kyber : List KyberUpload) : KeyCore (Nat × Nat) := do
  ensure (← statement (.deviceExists device) databaseError) "Device not found or inactive"
  let hybridKey ← checkedKyberKeys cr device kyber
  expireExisting device replaceExisting
  insertClassicKeys device preKeys
  insertKyberKeys device hybridKey kyber
  let classicCount ← statement (.countClassic device) databaseError
  let kyberCount ← statement (.countKyber device) databaseError
  pure (classicCount, kyberCount)

def setDeviceSupportsPqRatchet (device : String) (supports : Bool) : KeyCore Unit := do
  ensure (← statement (.deviceExists device) databaseError) "Device not found or inactive"
  statement (.setSupportsPqRatchet device supports) databaseError

structure UploadRequest where
  deviceId : String
  preKeys : List (UInt32 × Bytes)
  kyberPreKeys : List KyberUpload
  replaceExisting : Bool
  signedPreKey : Option SignedPreKey
  kyberSignedPreKey : Option KyberSignedPreKey
  hybridIdentityKey : Option Bytes
  hybridIdentitySignature : Option Bytes
  signedPreKeyHybridSignature : Option Bytes
  kyberSignedPreKeyHybridSignature : Option Bytes
  supportsPqRatchet : Bool

def UploadRequest.hybridIdentity (req : UploadRequest) : Option HybridIdentityUpload :=
  (req.hybridIdentityKey.filter fun key => !key.isEmpty).map fun key =>
    ⟨key, req.hybridIdentitySignature.getD [], req.signedPreKeyHybridSignature,
      req.kyberSignedPreKeyHybridSignature⟩

def UploadRefusal.status : UploadRefusal → Status
  | .tooManyInRequest =>
    ⟨.invalidArgument, s!"at most {maxPrekeysPerUpload} one-time keys of each kind per upload"⟩
  | .tooManyStored => ⟨.resourceExhausted,
      s!"a device holds at most {maxStoredPrekeys} active one-time keys of each kind"⟩

def limitReplaces (device : String) (replaceExisting : Bool) : KeyHandler Unit :=
  if replaceExisting then do
    let count ← statement (.countReplace device)
      ⟨.unavailable, "Service temporarily unavailable"⟩
    ensure (count ≤ maxReplacesPerHour)
      ⟨.resourceExhausted, s!"at most {maxReplacesPerHour} replacing uploads per hour"⟩
  else pure ()

def internalError (e : String) : Status := ⟨.internal, e⟩

def SignedPreKeyError.text : SignedPreKeyError → String
  | .classic e | .kyber e => e

def admitUpload (authedDeviceId : String) (req : UploadRequest) : KeyHandler Unit := do
  ensure (req.deviceId ≠ "") ⟨.invalidArgument, "device_id is required"⟩
  ensure (req.deviceId = authedDeviceId)
    ⟨.permissionDenied, "device_id does not match authenticated device"⟩
  ensure (req.preKeys ≠ [] ∨ req.kyberPreKeys ≠ [] ∨ req.hybridIdentity.isSome)
    ⟨.invalidArgument, "pre_keys, kyber_pre_keys, or hybrid identity required"⟩
  let heldClassic ← statement (.countClassic req.deviceId) (internalError databaseError)
  let heldKyber ← statement (.countKyber req.deviceId) (internalError databaseError)
  check ((uploadAllowed heldClassic heldKyber req.preKeys.length req.kyberPreKeys.length
    req.replaceExisting).mapError UploadRefusal.status)
  limitReplaces req.deviceId req.replaceExisting

def uploadSigned (cr : Crypto) (req : UploadRequest) : KeyHandler Unit :=
  mapErr (fun e => internalError e.text) (storeSignedPreKeys cr req.deviceId
    (req.signedPreKey.map fun key => (key, none))
    (req.kyberSignedPreKey.map fun key => ⟨key, none⟩))

def uploadHybrid (cr : Crypto) (req : UploadRequest) : KeyHandler Unit :=
  match req.hybridIdentity with
  | none => pure ()
  | some upload =>
    mapErr (fun e => ⟨.invalidArgument, s!"hybrid identity rejected: {e}"⟩)
      (storeHybridIdentity cr req.deviceId upload)

/-- `upload_pre_keys`, with the device of the bearer token. The four parts are committed one by
one. -/
def uploadPreKeys (cr : Crypto) (authedDeviceId : String) (req : UploadRequest) :
    KeyHandler (Nat × Nat) := do
  admitUpload authedDeviceId req
  uploadSigned cr req
  uploadHybrid cr req
  let counts ← mapErr internalError
    (storePrekeys cr req.deviceId req.preKeys req.replaceExisting req.kyberPreKeys)
  mapErr internalError (setDeviceSupportsPqRatchet req.deviceId req.supportsPqRatchet)
  pure counts

structure RotateRequest where
  deviceId : String
  newSignedPreKey : Option SignedPreKey
  signedPreKeyHybridSignature : Option Bytes
  newKyberSignedPreKey : Option KyberSignedPreKey
  kyberSignedPreKeyHybridSignature : Option Bytes

def rotateError : SignedPreKeyError → Status
  | .classic e => internalError e
  | .kyber e => internalError s!"Kyber SPK rotation failed: {e}"

def rotateSignedPreKey (cr : Crypto) (authedDeviceId : String) (req : RotateRequest) :
    KeyHandler Unit := do
  ensure (req.deviceId ≠ "") ⟨.invalidArgument, "device_id is required"⟩
  ensure (req.deviceId = authedDeviceId)
    ⟨.permissionDenied, "device_id does not match authenticated device"⟩
  match req.newSignedPreKey with
  | none => throw ⟨.invalidArgument, "new_signed_pre_key is required"⟩
  | some key => do
    ensure (key.publicKey ≠ [] ∧ key.signature ≠ [])
      ⟨.invalidArgument, "public_key and signature are required"⟩
    mapErr rotateError (storeSignedPreKeys cr req.deviceId
      (some (key, req.signedPreKeyHybridSignature))
      (req.newKyberSignedPreKey.map fun key => ⟨key, req.kyberSignedPreKeyHybridSignature⟩))

def consumeIf {α : Type} (consumeOtpk : Bool) (p : KeyCore (Option α)) : KeyCore (Option α) :=
  if consumeOtpk then p else pure none

def serveBundle (consumeOtpk : Bool) (device : String) (row : DeviceRow) : KeyCore PreKeyBundle := do
  let otp ← consumeIf consumeOtpk (statement (.consumeClassic device) databaseError)
  let kyberOtp ← consumeIf consumeOtpk (statement (.consumeKyber device) databaseError)
  pure ⟨device, row, otp, kyberOtp⟩

def serveBundles (consumeOtpk : Bool) : List (String × DeviceRow) → KeyCore (List PreKeyBundle)
  | [] => pure []
  | (device, row) :: devices => do
    let bundle ← serveBundle consumeOtpk device row
    let bundles ← serveBundles consumeOtpk devices
    pure (bundle :: bundles)

/-- `get_pre_key_bundle`, once it is decided whether a one-time key is consumed. -/
def getPreKeyBundle (user : String) (device : Option String) (consumeOtpk : Bool) :
    KeyHandler PreKeyBundle := do
  ensure (user ≠ "") ⟨.invalidArgument, "user_id is required"⟩
  match ← statement (.selectDevice user device) (internalError databaseError) with
  | none => throw ⟨.notFound, "User or device not found"⟩
  | some (device, row) => mapErr internalError (serveBundle consumeOtpk device row)

structure PreKeyBundleSet where
  bundles : List PreKeyBundle
  unavailable : List String
  activeDevices : List String

/-- `get_pre_key_bundles`, once it is decided whether one-time keys are consumed. -/
def getPreKeyBundles (user : String) (devices : Option (List String)) (consumeOtpk : Bool) :
    KeyHandler PreKeyBundleSet := do
  ensure (user ≠ "") ⟨.invalidArgument, "user_id is required"⟩
  let activeDevices ← statement (.selectActiveDevices user) (internalError databaseError)
  let rows ← statement (.selectDevices user devices) (internalError databaseError)
  let bundles ← mapErr internalError (serveBundles consumeOtpk rows)
  pure ⟨bundles, (devices.getD []).filter (· ∉ bundles.map PreKeyBundle.deviceId), activeDevices⟩

/-! ### Any number of calls -/

inductive KeyCall
  | getBundle (user : String) (device : Option String) (consumeOtpk : Bool)
  | getBundles (user : String) (devices : Option (List String)) (consumeOtpk : Bool)
  | upload (authedDeviceId : String) (req : UploadRequest)
  | rotate (authedDeviceId : String) (req : RotateRequest)
  | cleanupClassic
  | cleanupKyber

inductive KeyAnswer
  | bundles (bundles : List PreKeyBundle)
  | uploaded (served servedKyber : Nat)
  | rotated
  | cleaned
  | refused (status : Status)

def KeyHandler.answer {α : Type} (p : KeyHandler α) (f : α → KeyAnswer) :
    Program KeyStatement (fun q => Option q.Reply) KeyAnswer :=
  p.run >>= fun
    | .ok a => .done (f a)
    | .error status => .done (.refused status)

def keyBody (cr : Crypto) (call : KeyCall) (s : KeyState) :
    Program KeyStatement (fun q => Option q.Reply) KeyAnswer :=
  match call with
  | .getBundle user device consumeOtpk =>
    (getPreKeyBundle user device consumeOtpk).answer fun bundle => .bundles [bundle]
  | .getBundles user devices consumeOtpk =>
    (getPreKeyBundles user devices consumeOtpk).answer fun set => .bundles set.bundles
  | .upload authedDeviceId req => (uploadPreKeys cr authedDeviceId req).answer fun _ =>
      .uploaded s.served.length s.servedKyber.length
  | .rotate authedDeviceId req => (rotateSignedPreKey cr authedDeviceId req).answer fun _ => .rotated
  | .cleanupClassic => .ask .deleteExpiredClassic fun _ => .done .cleaned
  | .cleanupKyber => .ask .deleteExpiredKyber fun _ => .done .cleaned

def since {α : Type} (log : List (Nat × α)) (n : Nat) : List α :=
  (log.take (log.length - n)).map Prod.snd

def keyFinish (session : Nat) (call : KeyCall) (answer : KeyAnswer) (s : KeyState) : KeyState :=
  match call, answer with
  | _, .bundles bundles => { s with answered := (session, bundles) :: s.answered }
  | .upload _ req, .uploaded served servedKyber =>
    if req.replaceExisting then
      { s with replaced := ⟨req.deviceId, req.preKeys,
          req.kyberPreKeys.map fun k => (k.keyId, k.publicKey), s.oneTimePrekeys,
          s.kyberOneTimePreKeys, since s.served served, since s.servedKyber servedKyber⟩ ::
            s.replaced }
    else s
  | _, _ => s

def keyTick (seconds : Nat) (s : KeyState) : KeyState := { s with now := s.now + seconds }

abbrev KeyPool : Type :=
  Pool KeyStatement (fun q => Option q.Reply) KeyAnswer KeyCall KeyState

abbrev KeyAction : Type := Action (Input (Option UInt32)) KeyCall Nat

def keyExec (cr : Crypto) (session : Nat) (q : KeyStatement) (input : Input (Option UInt32))
    (s : KeyState) : Option (Option q.Reply × KeyState) :=
  fallible (KeyState.effect cr session) q input s

def keyStep (cr : Crypto) (pool : KeyPool) (a : KeyAction) : Option KeyPool :=
  pool.step (keyExec cr) (keyBody cr) keyFinish keyTick a

theorem key_run_invariant {D : Discipline KeyStatement (Input (Option UInt32)) KeyState KeyCall}
    {cr : Crypto} {s : KeyState} {as : List KeyAction} {pool : KeyPool}
    (hbo : D.SafeBodies (keyExec cr) (keyBody cr) keyFinish) (hti : D.Bears keyTick) (hin : D.inv s)
    (hf : ∀ n, D.fresh n s) (hca : Machine.Along (keyStep cr) D.Careful (.init s) as)
    (hru : Machine.run (keyStep cr) (.init s) as = some pool) : D.inv pool.store :=
  D.run_invariant hbo hti hin hf hca hru

/-! ### Which statements a call asks for -/

def KeyStatement.writesKeys : KeyStatement → Bool
  | .rotate .. | .storeKyber .. | .storeHybrid .. | .expireClassic _ | .expireKyber _
  | .insertClassic .. | .insertKyber .. => true
  | _ => false

section

variable {P : KeyStatement → Prop} (hP : ∀ q, q.writesKeys = false → P q)
include hP

theorem asks_admitUpload {authedDeviceId : String} {req : UploadRequest} :
    (admitUpload authedDeviceId req).run.Asks P := by
  refine asks_guard fun _ => asks_guard fun _ => asks_guard fun _ => ?_
  refine asks_next (hP _ rfl) fun _ => asks_next (hP _ rfl) fun _ => ?_
  refine asks_then asks_check fun _ => ?_
  unfold limitReplaces
  split
  · exact asks_next (hP _ rfl) fun _ => asks_ensure
  · trivial

theorem asks_setDeviceSupportsPqRatchet {device : String} {supports : Bool} :
    (setDeviceSupportsPqRatchet device supports).run.Asks P :=
  asks_next (hP _ rfl) fun _ => asks_guard fun _ => asks_demand (hP _ rfl)

variable {consumeOtpk : Bool}

theorem asks_serveBundle {device : String} {row : DeviceRow} :
    (serveBundle consumeOtpk device row).run.Asks P := by
  cases consumeOtpk with
  | false => trivial
  | true =>
    exact asks_next (hP _ rfl) fun _ => asks_next (hP _ rfl) fun _ => trivial

theorem asks_serveBundles {devices : List (String × DeviceRow)} :
    (serveBundles consumeOtpk devices).run.Asks P := by
  induction devices with
  | nil => trivial
  | cons p devices ih => exact asks_then (asks_serveBundle hP) fun _ => asks_then ih fun _ => trivial

theorem asks_getPreKeyBundle {user : String} {device : Option String} :
    (getPreKeyBundle user device consumeOtpk).run.Asks P := by
  refine asks_guard fun _ => asks_next (hP _ rfl) fun found => ?_
  cases found with
  | none => trivial
  | some p => exact asks_mapErr (asks_serveBundle hP)

theorem asks_getPreKeyBundles {user : String} {devices : Option (List String)} :
    (getPreKeyBundles user devices consumeOtpk).run.Asks P := by
  refine asks_guard fun _ => asks_next (hP _ rfl) fun _ => ?_
  refine asks_next (hP _ rfl) fun _ => ?_
  exact asks_then (asks_mapErr (asks_serveBundles hP)) fun _ => trivial

omit hP in
theorem asks_answer {α : Type} {p : KeyHandler α} {f : α → KeyAnswer} (hp : p.run.Asks P) :
    (p.answer f).Asks P := by
  refine Program.asks_bind hp fun r => ?_
  cases r <;> trivial

theorem asks_keyBody {cr : Crypto} {c : KeyCall} {s : KeyState}
    (hu : ∀ authedDeviceId req, c = .upload authedDeviceId req → (uploadPreKeys cr authedDeviceId req).run.Asks P)
    (hro : ∀ authedDeviceId req, c = .rotate authedDeviceId req →
      (rotateSignedPreKey cr authedDeviceId req).run.Asks P) : (keyBody cr c s).Asks P := by
  cases c with
  | getBundle user device consumeOtpk => exact asks_answer (asks_getPreKeyBundle hP)
  | getBundles user devices consumeOtpk => exact asks_answer (asks_getPreKeyBundles hP)
  | upload authedDeviceId req => exact asks_answer (hu authedDeviceId req rfl)
  | rotate authedDeviceId req => exact asks_answer (hro authedDeviceId req rfl)
  | cleanupClassic | cleanupKyber => exact ⟨hP _ rfl, fun _ => trivial⟩

end

/-! ### A small instance -/

def demoCrypto : Crypto where
  verifyingKey _ := .ok ()
  ed25519 _ _ _ := true
  hybrid _ _ _ := .ok ()

def demoUser : String := "00000000-0000-0000-0000-000000000000"

def demoRow : DeviceRow where
  userId := Uuid.parseStr demoUser
  isActive := true
  verifyingKey := List.replicate 32 0
  registeredAt := 0
  signedPrekeyPublic := [1]
  signedPrekeyId := 1
  signedPrekeySignature := some [1]
  signedPrekeyHybridSignature := none
  spkRotationEpoch := 0
  kyberSignedPreKey := none
  kyberSignedPreKeyId := none
  kyberSignedPreKeySignature := none
  kyberSignedPreKeyCreatedAt := none
  kyberSignedPreKeyHybridSignature := none
  kyberSpkRotationEpoch := 0
  hybridIdentityKey := none
  hybridIdentitySignature := none
  supportsPqRatchet := false

def demoKeys : KeyState where
  now := 0
  devices := Table.empty.insertNew "d" demoRow
  oneTimePrekeys := .empty
  kyberOneTimePreKeys := .empty
  replaces := .empty
  served := []
  servedKyber := []
  answered := []
  replaced := []

def demoUpload (preKeys : List (UInt32 × Bytes)) (replaceExisting : Bool) : UploadRequest where
  deviceId := "d"
  preKeys := preKeys
  kyberPreKeys := []
  replaceExisting := replaceExisting
  signedPreKey := none
  kyberSignedPreKey := none
  hybridIdentityKey := none
  hybridIdentitySignature := none
  signedPreKeyHybridSignature := none
  kyberSignedPreKeyHybridSignature := none
  supportsPqRatchet := false

def keyCall (call : KeyCall) (choices : List (Option UInt32)) : List KeyAction :=
  .start call :: choices.map fun choice => .step 0 ⟨.ok, choice⟩

end ConstructServer.KeyService
