import ConstructServer.Auth.Sessions
import ConstructServer.KeyService.PreKeys

/-!
# Accounts and their devices

A device comes into an account in four ways: it registers the account with a proof of work, it is
linked with a token that another device shows, its join request is approved, or it recovers the
account with the recovery key. The rows are in the database, everything that passes is in Redis. The
calls run statement by statement, each of which can fail, and statements of other calls run in
between.
-/

namespace ConstructServer.Identity

open Calls Machine Redis.Keyspace Option Function List
open Queue (Bytes utf8)
open Redis (Keyspace)
open Auth (refreshTokenKey userTokensKey revokedDeviceKey TokenStore RevokePhase)
open KeyService (Crypto)

/-! ### What is stored -/

structure UserRow where
  usernameHash : Option Bytes
  recoveryPublicKey : Option Bytes
  recoveryMldsaPublicKey : Option Bytes
  /-- In milliseconds. -/
  lastRecoveryAt : Option Nat
  primaryDeviceId : Option String

structure DeviceRow where
  userId : Option Uuid
  serverHostname : String
  verifyingKey : Bytes
  identityPublic : Bytes
  signedPrekeyPublic : Bytes
  signedPrekeySignature : Bytes
  cryptoSuites : String
  registeredAt : Nat
  isActive : Bool
  supportsPqRatchet : Bool
deriving DecidableEq

structure CreateDeviceData where
  deviceId : String
  serverHostname : String
  verifyingKey : Bytes
  identityPublic : Bytes
  signedPrekeyPublic : Bytes
  signedPrekeySignature : Bytes
  cryptoSuites : String
  supportsPqRatchet : Bool

def CreateDeviceData.row (data : CreateDeviceData) (user : Uuid) (now : Nat) : DeviceRow where
  userId := some user
  serverHostname := data.serverHostname
  verifyingKey := data.verifyingKey
  identityPublic := data.identityPublic
  signedPrekeyPublic := data.signedPrekeyPublic
  signedPrekeySignature := data.signedPrekeySignature
  cryptoSuites := data.cryptoSuites
  registeredAt := now
  isActive := true
  supportsPqRatchet := data.supportsPqRatchet

structure JoinRequestData where
  pendingDeviceId : String
  identityPublic : Bytes
  verifyingKey : Bytes
  signedPrekeyPublic : Bytes
  signedPrekeySignature : Bytes
  deviceName : String
  platform : String

/-- A join request as the previous build wrote it, with the keys in base64. -/
structure LegacyJoinRequestData where
  pendingDeviceId : String
  identityPublicB64 : String
  verifyingKeyB64 : String
  signedPrekeyPublicB64 : String
  signedPrekeySignatureB64 : String
  deviceName : String
  platform : String

/-- A token that the server has signed. -/
structure Token where
  jti : String
  isRefresh : Bool
  userId : Uuid
  deviceId : String
  /-- In seconds. -/
  expiresAt : Nat

structure JoinApproved where
  accessToken : Token
  refreshToken : Token
  userId : Uuid

structure PowChallengeRecord where
  difficulty : Nat
  used : Bool
  requesterIp : Option String
  /-- In milliseconds. -/
  expiresAt : Nat

structure IdentityState where
  /-- The time in milliseconds. -/
  now : Nat
  users : Table Uuid UserRow
  devices : Table String DeviceRow
  /-- `revoked_device:{device_id}`. -/
  revokedDevices : Keyspace Unit
  /-- `refresh_token:{jti}`, with the account. -/
  refreshTokens : Keyspace String
  /-- `user_tokens:{user_id}`. -/
  userTokens : Keyspace (List String)
  /-- `device_link:{token}`, with the account. -/
  deviceLinks : Keyspace String
  /-- `device_link_result:{token}`. -/
  deviceLinkResults : Keyspace (String × String × Bytes)
  /-- `join_req:{pending_device_id}`. -/
  joinRequests : Keyspace Bytes
  /-- `join_approved:{pending_device_id}`. -/
  joinApproved : Keyspace JoinApproved
  /-- `pow:ch:{challenge}`. -/
  powChallenges : Keyspace PowChallengeRecord
  /-- `pow:ipreg:{ip}`, with the time of each registration. -/
  powRegistrations : Keyspace (List (String × Nat))
  jtis : List String

/-! ### Libraries and configuration -/

/-- What the server is configured with, and the libraries that it calls. -/
structure IdentityConfig where
  crypto : Crypto
  sha256 : Bytes → Bytes
  hashUsername : String → Bytes
  trim : String → String
  toLowercase : String → String
  fresh : (timestamp now : Int) → Bool
  claimSignable : (publicKey : Bytes) → (timestamp : Int) → (deviceId : String) →
    (verifyingKey identityPublic : Bytes) → Option Bytes
  jsonb : String → Bool
  packJoin : JoinRequestData → Bytes
  unpackJoin : Bytes → Option JoinRequestData
  unpackJoin_packJoin : ∀ data, unpackJoin (packJoin data) = some data
  legacyJoin : Bytes → Option LegacyJoinRequestData
  base64 : String → Option Bytes
  verifyPow : (challenge : String) → (nonce : UInt64) → (hash : String) → (difficulty : Nat) → Bool
  serverHostname : String
  instanceDomain : String
  /-- Both in seconds. -/
  accessTokenTtl : Nat
  refreshTokenTtl : Nat
  maxRegistrationsPerHour : Nat
  powDifficulty : Nat

def computedDeviceId (cfg : IdentityConfig) (identityPublic : Bytes) : String :=
  Framing.hexEncode ((cfg.sha256 identityPublic).take 16)

/-! ### The statements -/

inductive CreateDeviceError
  | identityKeyConflict
  | other

/-- How an account is looked up for its recovery. -/
inductive RecoveryKey
  | id (user : Uuid)
  | usernameHash (hash : Bytes)

/-- The account, and the time at which it was read. -/
structure RecoveryLookup where
  now : Nat
  row : Option (Uuid × UserRow)

inductive IdentityStatement
  | selectRecovery (key : RecoveryKey)
  | storeMldsa (user : Uuid) (key : Bytes)
  | revokeAllDevices (user : Uuid)
  | selectDeviceIds (user : Uuid)
  | markDeviceRevoked (device : String)
  | smembersTokens (user : String)
  | delToken (jti : String)
  | delTokens (user : String)
  | createDevice (data : CreateDeviceData) (user : Uuid)
  | setPrimaryDevice (user : Uuid) (device : String)
  | signToken (isRefresh : Bool) (user : Uuid) (device : String)
  | setToken (jti user : String)
  | saddToken (jti user : String)
  | expireTokens (user : String)
  | markRecoveryUsed (user : Uuid)
  | consumeLink (token : String)
  | deviceExists (device : String)
  | storeLinkResult (token user device : String) (proof : Bytes)
  | storeJoin (device : String) (payload : Bytes)
  | getJoin (device : String)
  | consumeJoin (device : String)
  | storeApproved (device : String) (value : JoinApproved)
  | getApproved (device : String)
  | trimRegistrations (ip : String)
  | countRegistrations (ip : String)
  | getPow (challenge : String)
  | ttlPow (challenge : String)
  | setPow (challenge : String) (record : PowChallengeRecord) (ttl : Option Nat)
  | addRegistration (ip challenge : String)
  | expireRegistrations (ip : String)
  | selectUsername (hash : Bytes)
  | createUser (usernameHash : Option Bytes) (data : CreateDeviceData)

abbrev IdentityStatement.Reply : IdentityStatement → Type
  | .selectRecovery _ => RecoveryLookup
  | .revokeAllDevices _ | .countRegistrations _ => Nat
  | .selectDeviceIds _ | .smembersTokens _ => List String
  | .createDevice .. => Except CreateDeviceError Unit
  | .signToken .. => Token
  | .consumeLink _ => Option String
  | .deviceExists _ | .selectUsername _ => Bool
  | .getJoin _ | .consumeJoin _ => Option Bytes
  | .getApproved _ => Option JoinApproved
  | .getPow _ => Nat × Option PowChallengeRecord
  | .ttlPow _ => Int
  | .createUser .. => Option Uuid
  | _ => Unit

/-- What is random: the id of a token, or of an account. -/
inductive Pick
  | none
  | jti (jti : String)
  | user (id : Uuid)

def deviceLinkKey (token : String) : String := "device_link:" ++ token

def deviceLinkResultKey (token : String) : String := "device_link_result:" ++ token

def joinRequestKey (device : String) : String := "join_req:" ++ device

def joinApprovedKey (device : String) : String := "join_approved:" ++ device

def powChallengeKey (challenge : String) : String := "pow:ch:" ++ challenge

def powRegistrationsKey (ip : String) : String := "pow:ipreg:" ++ ip

def fitsDeviceId (device : String) : Bool :=
  decide (device.length ≤ 32) && decide ('\x00' ∉ device.toList)

/-- `SADD`; the members are listed in the order in which they were added. -/
def addMember (ks : Keyspace (List String)) (now : Nat) (k member : String) : Keyspace (List String) :=
  let c := (ks.cell now k).getD ⟨[], none⟩
  update ks k (some { c with value := if member ∈ c.value then c.value else c.value ++ [member] })

/-- `ZADD`. -/
def addScore (ks : Keyspace (List (String × Nat))) (now : Nat) (k member : String) (score : Nat) :
    Keyspace (List (String × Nat)) :=
  let c := (ks.cell now k).getD ⟨[], none⟩
  update ks k (some { c with value := (member, score) :: c.value.filter (·.1 ≠ member) })

/-- `ZREMRANGEBYSCORE` from the least score. -/
def trimScores (ks : Keyspace (List (String × Nat))) (now : Nat) (k : String) (cutoff : Int) :
    Keyspace (List (String × Nat)) :=
  match ks.cell now k with
  | some c => update ks k (some { c with value := c.value.filter (cutoff < ·.2) })
  | none => ks

namespace IdentityState

def updateUser (s : IdentityState) (user : Uuid) (f : UserRow → UserRow) : IdentityState :=
  { s with users := s.users.modify fun id row => if id = user then f row else row }

/-- `insert_device_impl`. The row must have a new id and a new identity key. -/
def insertDevice (cfg : IdentityConfig) (s : IdentityState) (data : CreateDeviceData) (user : Uuid) :
    Except CreateDeviceError IdentityState :=
  if ¬(cfg.jsonb data.cryptoSuites && fitsDeviceId data.deviceId) then .error .other
  else if (s.devices.get? data.deviceId).isSome then .error .other
  else if s.devices.rows.any fun p => p.2.identityPublic = data.identityPublic then
    .error .identityKeyConflict
  else if (s.users.get? user).isNone then .error .other
  else .ok { s with devices := s.devices.insertNew data.deviceId (data.row user s.now) }

def insertUser (cfg : IdentityConfig) (s : IdentityState) (user : Uuid) (usernameHash : Option Bytes)
    (data : CreateDeviceData) : Option IdentityState :=
  -- The index on the hash leaves out accounts without a name.
  if usernameHash.any fun h => s.users.rows.any fun p => p.2.usernameHash = some h then none
  else
    let t := { s with users := s.users.insertNew user ⟨usernameHash, none, none, none, none⟩ }
    match t.insertDevice cfg data user with
    | .ok t => some (t.updateUser user fun row => { row with primaryDeviceId := some data.deviceId })
    | .error _ => none

def lookup (s : IdentityState) : RecoveryKey → Option (Uuid × UserRow)
  | .id user => (s.users.get? user).map fun row => (user, row)
  | .usernameHash hash => s.users.rows.find? fun p => p.2.usernameHash = some hash

/-- What a statement does and answers. There is no answer where the command is an error. -/
def effect (cfg : IdentityConfig) (q : IdentityStatement) (pick : Pick) (s : IdentityState) :
    Option (q.Reply × IdentityState) :=
  match q with
  | .selectRecovery key => some (⟨s.now, s.lookup key⟩, s)
  | .storeMldsa user key => some ((), s.updateUser user fun row =>
      if row.recoveryMldsaPublicKey = none then { row with recoveryMldsaPublicKey := some key } else row)
  | .revokeAllDevices user => some
      (s.devices.rows.countP fun p => p.2.userId = some user ∧ p.2.isActive,
        { s with devices := s.devices.modify fun _ row =>
            if row.userId = some user then { row with isActive := false } else row })
  | .selectDeviceIds user => some
      ((s.devices.rows.filter fun p => p.2.userId = some user).map Prod.fst, s)
  | .markDeviceRevoked device =>
    (s.revokedDevices.setEx s.now (revokedDeviceKey device) () (max cfg.accessTokenTtl 1)).map
      fun ks => ((), { s with revokedDevices := ks })
  | .smembersTokens user => some ((s.userTokens.get s.now (userTokensKey user)).getD [], s)
  | .delToken jti => some ((), { s with refreshTokens := s.refreshTokens.del (refreshTokenKey jti) })
  | .delTokens user => some ((), { s with userTokens := s.userTokens.del (userTokensKey user) })
  | .createDevice data user => match s.insertDevice cfg data user with
    | .ok s' => some (.ok (), s')
    | .error e => some (.error e, s)
  | .setPrimaryDevice user device => some ((),
      s.updateUser user fun row => { row with primaryDeviceId := some device })
  | .signToken isRefresh user device => match pick with
    | .jti jti =>
      let ttl := if isRefresh then cfg.refreshTokenTtl else cfg.accessTokenTtl
      if jti ∈ s.jtis then none
      else some (⟨jti, isRefresh, user, device, s.now / 1000 + ttl⟩, { s with jtis := jti :: s.jtis })
    | _ => none
  | .setToken jti user =>
    (s.refreshTokens.setEx s.now (refreshTokenKey jti) user cfg.refreshTokenTtl).map
      fun ks => ((), { s with refreshTokens := ks })
  | .saddToken jti user => some ((),
      { s with userTokens := addMember s.userTokens s.now (userTokensKey user) jti })
  | .expireTokens user =>
    (s.userTokens.expire s.now (userTokensKey user) cfg.refreshTokenTtl).map
      fun ks => ((), { s with userTokens := ks })
  | .markRecoveryUsed user => some ((),
      s.updateUser user fun row => { row with lastRecoveryAt := some s.now })
  | .consumeLink token => some (s.deviceLinks.get s.now (deviceLinkKey token),
      { s with deviceLinks := s.deviceLinks.del (deviceLinkKey token) })
  | .deviceExists device => some ((s.devices.get? device).isSome, s)
  | .storeLinkResult token user device proof =>
    -- The lengths of both ids have to fit into a byte.
    if 255 < (utf8 user).length ∨ 255 < (utf8 device).length then none
    else (s.deviceLinkResults.setEx s.now (deviceLinkResultKey token) (user, device, proof)
      (15 * 60)).map fun ks => ((), { s with deviceLinkResults := ks })
  | .storeJoin device payload =>
    (s.joinRequests.setEx s.now (joinRequestKey device) payload (10 * 60)).map
      fun ks => ((), { s with joinRequests := ks })
  | .getJoin device => some (s.joinRequests.get s.now (joinRequestKey device), s)
  | .consumeJoin device => some (s.joinRequests.get s.now (joinRequestKey device),
      { s with joinRequests := s.joinRequests.del (joinRequestKey device) })
  | .storeApproved device value =>
    (s.joinApproved.setEx s.now (joinApprovedKey device) value (2 * 60)).map
      fun ks => ((), { s with joinApproved := ks })
  | .getApproved device => some (s.joinApproved.get s.now (joinApprovedKey device), s)
  | .trimRegistrations ip => some ((),
      { s with
        powRegistrations :=
          trimScores s.powRegistrations s.now (powRegistrationsKey ip) (s.now - 60 * 60 * 1000) })
  | .countRegistrations ip => some
      (((s.powRegistrations.get s.now (powRegistrationsKey ip)).getD []).countP
        fun p => (s.now : Int) - 60 * 60 * 1000 ≤ p.2, s)
  | .getPow challenge => some ((s.now, s.powChallenges.get s.now (powChallengeKey challenge)), s)
  | .ttlPow challenge => some (s.powChallenges.ttl s.now (powChallengeKey challenge), s)
  | .setPow challenge record ttl => match ttl with
    | some ttl => (s.powChallenges.setEx s.now (powChallengeKey challenge) record ttl).map
        fun ks => ((), { s with powChallenges := ks })
    | none => some ((),
        { s with powChallenges := s.powChallenges.set s.now (powChallengeKey challenge) record none })
  | .addRegistration ip challenge => some ((),
      { s with
        powRegistrations :=
          addScore s.powRegistrations s.now (powRegistrationsKey ip) challenge s.now })
  | .expireRegistrations ip =>
    (s.powRegistrations.expire s.now (powRegistrationsKey ip) 3600).map
      fun ks => ((), { s with powRegistrations := ks })
  | .selectUsername hash => some (s.users.rows.any fun p => p.2.usernameHash = some hash, s)
  | .createUser usernameHash data => match pick with
    | .user id =>
      if (s.users.get? id).isSome then none
      else match s.insertUser cfg id usernameHash data with
        | some s' => some (some id, s')
        | none => some (none, s)
    | _ => none

end IdentityState

/-! ### Tokens -/

abbrev IdentityHandler (α : Type) : Type :=
  Fallible IdentityStatement IdentityStatement.Reply Status α

/-- A statement whose failure ends the call, or the part of it. -/
abbrev statement {E : Type} (q : IdentityStatement) (e : E) :
    Fallible IdentityStatement IdentityStatement.Reply E q.Reply :=
  demand q e

def databaseError : String := "database error"

def internalError (e : String) : Status := ⟨.internal, e⟩

def deleteTokens : List String → IdentityHandler Unit
  | [] => pure ()
  | jti :: jtis => do
    let _ ← attempt (statement (.delToken jti) ())
    deleteTokens jtis

/-- `revoke_all_user_tokens`. No error ends it: a failed read counts as empty. -/
def revokeAllUserTokens (user : String) : IdentityHandler Unit := do
  let jtis ← attempt (statement (.smembersTokens user) ())
  deleteTokens (jtis.toOption.getD [])
  let _ ← attempt (statement (.delTokens user) ())

def storeRefreshToken (jti user : String) :
    Fallible IdentityStatement IdentityStatement.Reply String Unit := do
  statement (.setToken jti user) databaseError
  statement (.saddToken jti user) databaseError
  statement (.expireTokens user) databaseError

structure AuthTokens where
  userId : String
  accessToken : Token
  refreshToken : Token

/-! ### Recovery -/

structure DevicePublicKeys where
  verifyingKey : Bytes
  identityPublic : Bytes
  signedPrekeyPublic : Bytes
  signedPrekeySignature : Bytes
  cryptoSuite : String

structure NewDevice where
  deviceId : String
  publicKeys : Option DevicePublicKeys

structure RecoverRequest where
  identifier : String
  recoveryPublicKey : Bytes
  recoverySignature : Bytes
  timestamp : Int
  newDevice : Option NewDevice

structure RecoverResponse where
  tokens : AuthTokens
  devicesRevoked : Nat

def hybridRecoveryKeyLen : Nat := 32 + 1952

def recoveryKey (cfg : IdentityConfig) (identifier : String) : RecoveryKey :=
  match Uuid.parseStr (cfg.trim identifier) with
  | some user => .id user
  | none => .usernameHash (cfg.hashUsername (cfg.toLowercase (cfg.trim identifier)))

def elapsed (now last : Nat) : Int := now - last

/-- What `verify_recovery_signature_at` checks once it has read the account. -/
def checkRecovery (cfg : IdentityConfig) (now : Nat) (row : UserRow) (req : RecoverRequest)
    (deviceId : String) (keys : DevicePublicKeys) : Except String Unit :=
  match row.recoveryPublicKey with
  | none => .error "Recovery not set up for this account"
  | some recoveryPublicKey =>
    if row.lastRecoveryAt.any fun last => (elapsed now last).tdiv (24 * 3600 * 1000) < 7 then
      let remaining := 7 * 24 * 3600 - (elapsed now (row.lastRecoveryAt.getD 0)).tdiv 1000
      .error s!"Recovery cooldown active. Try again in {remaining} seconds"
    else if req.recoveryPublicKey.take 32 ≠ recoveryPublicKey then .error "Invalid recovery signature"
    else if row.recoveryMldsaPublicKey.any (· ≠ req.recoveryPublicKey.drop 32) then
      .error "Invalid recovery signature"
    else if ¬(cfg.fresh req.timestamp (now / 1000) ∧
        row.lastRecoveryAt.all fun last => ((last / 1000 : Nat) : Int) < req.timestamp) then
      .error "Invalid recovery signature: the claim is not fresh"
    else match cfg.claimSignable req.recoveryPublicKey req.timestamp deviceId keys.verifyingKey
        keys.identityPublic with
      | none => .error "Invalid recovery claim"
      | some message =>
        (cfg.crypto.hybrid req.recoveryPublicKey message req.recoverySignature).mapError
          fun _ => "Invalid recovery signature"

def completeRecoveryKey (user : Uuid) (row : UserRow) (mldsa : Bytes) :
    Fallible IdentityStatement IdentityStatement.Reply String Unit :=
  if row.recoveryMldsaPublicKey = none then statement (.storeMldsa user mldsa) databaseError
  else pure ()

def verifyRecoverySignature (cfg : IdentityConfig) (req : RecoverRequest) (deviceId : String)
    (keys : DevicePublicKeys) : Fallible IdentityStatement IdentityStatement.Reply String Uuid := do
  ensure (req.recoveryPublicKey.length = hybridRecoveryKeyLen)
    s!"Invalid recovery key: expected {hybridRecoveryKeyLen}-byte hybrid public key"
  let found ← statement (.selectRecovery (recoveryKey cfg req.identifier)) databaseError
  match found.row with
  | none => throw "Account not found"
  | some (user, row) => do
    check (checkRecovery cfg found.now row req deviceId keys)
    completeRecoveryKey user row (req.recoveryPublicKey.drop 32)
    pure user

def textContains (text part : String) : Bool := decide (part.toList <:+: text.toList)

def recoveryStatus (msg : String) : Status :=
  if textContains msg "not found" then ⟨.notFound, msg⟩
  else if textContains msg "not set up" then ⟨.failedPrecondition, msg⟩
  else if textContains msg "cooldown" then ⟨.resourceExhausted, msg⟩
  else if textContains msg "Invalid" then ⟨.permissionDenied, msg⟩
  else internalError msg

def verifySpkSignature (cr : Crypto) (verifyingKey signedPrekeyPublic signedPrekeySignature : Bytes) :
    Except Status Unit :=
  if verifyingKey.length ≠ 32 then .error ⟨.invalidArgument, "verifying_key must be 32 bytes"⟩
  else if (cr.verifyingKey verifyingKey).isOk = false then
    .error ⟨.invalidArgument, "verifying_key is not a valid Ed25519 key"⟩
  else if signedPrekeySignature.length ≠ 64 then
    .error ⟨.invalidArgument, "signed_prekey_signature must be 64 bytes"⟩
  else if cr.ed25519 verifyingKey (KeyService.buildPrekeySignMessage 0x01 signedPrekeyPublic)
      signedPrekeySignature then .ok ()
  else .error ⟨.invalidArgument, "signed_prekey_signature verification failed"⟩

def internalServerError : Status := internalError "Internal server error"

def markDevicesRevoked : List String → IdentityHandler Unit
  | [] => pure ()
  | device :: devices => do
    statement (.markDeviceRevoked device) internalServerError
    markDevicesRevoked devices

def markAccountDevicesRevoked (user : Uuid) : IdentityHandler Unit := do
  let devices ← statement (.selectDeviceIds user) internalServerError
  markDevicesRevoked devices

def jsonSuite (suite : String) : String := "[\"" ++ suite ++ "\"]"

def CreateDeviceError.text : CreateDeviceError → String
  | .identityKeyConflict => "IDENTITY_KEY_CONFLICT: identity key already registered by another device"
  | .other => "Failed to create device: " ++ databaseError

def createDeviceStatus (word : String) : CreateDeviceError → Status
  | .identityKeyConflict => ⟨.alreadyExists, "Identity key already registered by another device"⟩
  | .other => internalError (word ++ CreateDeviceError.text .other)

/-- `create_device`, where a failed statement is an error like any other. -/
def createDevice (data : CreateDeviceData) (user : Uuid) (word : String) : IdentityHandler Unit := do
  let created ← statement (.createDevice data user) (createDeviceStatus word .other)
  check (created.mapError (createDeviceStatus word))

def takeOver (cfg : IdentityConfig) (user : Uuid) (deviceId : String) (keys : DevicePublicKeys) :
    IdentityHandler RecoverResponse := do
  let devicesRevoked ← statement (.revokeAllDevices user) (internalError databaseError)
  markAccountDevicesRevoked user
  revokeAllUserTokens user.toStr
  check (verifySpkSignature cfg.crypto keys.verifyingKey keys.signedPrekeyPublic
    keys.signedPrekeySignature)
  createDevice ⟨deviceId, cfg.serverHostname, keys.verifyingKey, keys.identityPublic,
    keys.signedPrekeyPublic, keys.signedPrekeySignature, jsonSuite keys.cryptoSuite, false⟩ user ""
  statement (.setPrimaryDevice user deviceId) (internalError databaseError)
  let accessToken ← statement (.signToken false user deviceId) (internalError databaseError)
  let refreshToken ← statement (.signToken true user deviceId) (internalError databaseError)
  let _ ← attempt (storeRefreshToken refreshToken.jti user.toStr)
  statement (.markRecoveryUsed user) (internalError databaseError)
  pure ⟨⟨user.toStr, accessToken, refreshToken⟩, devicesRevoked⟩

def recoverAccount (cfg : IdentityConfig) (req : RecoverRequest) : IdentityHandler RecoverResponse := do
  ensure (req.identifier ≠ "") ⟨.invalidArgument, "identifier is required"⟩
  ensure (req.recoveryPublicKey ≠ []) ⟨.invalidArgument, "hybrid recovery_public_key is required"⟩
  ensure (req.recoverySignature ≠ []) ⟨.invalidArgument, "recovery_signature is required"⟩
  match req.newDevice with
  | none => throw ⟨.invalidArgument, "new_device is required"⟩
  | some ⟨_, none⟩ => throw ⟨.invalidArgument, "new_device.public_keys is required"⟩
  | some ⟨deviceId, some keys⟩ => do
    let user ← mapErr recoveryStatus (verifyRecoverySignature cfg req deviceId keys)
    takeOver cfg user deviceId keys

/-! ### Linking and joining -/

def linkTokens (user : Uuid) (userId deviceId : String) : IdentityHandler AuthTokens := do
  let accessToken ← statement (.signToken false user deviceId)
    (internalError ("Failed to create access token: " ++ databaseError))
  let refreshToken ← statement (.signToken true user deviceId)
    (internalError ("Failed to create refresh token: " ++ databaseError))
  mapErr (fun e => internalError ("Failed to store refresh token: " ++ e))
    (storeRefreshToken refreshToken.jti userId)
  pure ⟨userId, accessToken, refreshToken⟩

structure ConfirmLinkRequest where
  linkToken : String
  deviceId : String
  publicKeys : Option DevicePublicKeys
  linkKeyProof : Bytes

def deviceMissing (deviceId : String) : IdentityHandler Unit := do
  ensure ((← statement (.deviceExists deviceId) (internalError databaseError)) = false)
    ⟨.alreadyExists, "device_id already registered"⟩

def confirmDeviceLink (cfg : IdentityConfig) (req : ConfirmLinkRequest) : IdentityHandler AuthTokens := do
  ensure (req.linkToken ≠ "") ⟨.invalidArgument, "link_token is required"⟩
  ensure (req.deviceId ≠ "") ⟨.invalidArgument, "device_id is required"⟩
  match req.publicKeys with
  | none => throw ⟨.invalidArgument, "public_keys is required"⟩
  | some keys => do
    ensure (req.linkKeyProof = [] ∨ req.linkKeyProof.length = 32)
      ⟨.invalidArgument, "link_key_proof must be 32 bytes"⟩
    match ← statement (.consumeLink req.linkToken)
        (internalError ("Redis error: " ++ databaseError)) with
    | none => throw ⟨.unauthenticated, "invalid or expired link token"⟩
    | some userId => match Uuid.parseStr userId with
      | none => throw (internalError "invalid user id in link token")
      | some user => do
        deviceMissing req.deviceId
        check (verifySpkSignature cfg.crypto keys.verifyingKey keys.signedPrekeyPublic
          keys.signedPrekeySignature)
        createDevice ⟨req.deviceId, cfg.instanceDomain, keys.verifyingKey, keys.identityPublic,
          keys.signedPrekeyPublic, keys.signedPrekeySignature, jsonSuite keys.cryptoSuite, false⟩ user
          "Failed to create device: "
        let tokens ← linkTokens user userId req.deviceId
        -- The result is for the device that issued the token; without it the link still stands.
        let _ ← attempt (statement (.storeLinkResult req.linkToken userId req.deviceId req.linkKeyProof) ())
        pure tokens

/-- A key of a join request, in binary or as older clients send it. -/
structure JoinKey where
  binary : Bytes
  base64 : String

structure JoinRequestPayload where
  pendingDeviceId : String
  identityPublic : JoinKey
  verifyingKey : JoinKey
  signedPrekeyPublic : JoinKey
  signedPrekeySignature : JoinKey
  deviceName : String
  platform : String

def takeKey (cfg : IdentityConfig) (key : JoinKey) (field : String) : Except Status Bytes :=
  if key.binary ≠ [] then .ok key.binary
  else if key.base64 = "" then .error ⟨.invalidArgument, s!"{field} is required"⟩
  else match cfg.base64 key.base64 with
    | some bytes => .ok bytes
    | none => .error ⟨.invalidArgument, s!"invalid base64 in {field}_b64"⟩

def JoinRequestPayload.data (cfg : IdentityConfig) (req : JoinRequestPayload) :
    Except Status JoinRequestData := do
  let identityPublic ← takeKey cfg req.identityPublic "identity_public"
  let verifyingKey ← takeKey cfg req.verifyingKey "verifying_key"
  let signedPrekeyPublic ← takeKey cfg req.signedPrekeyPublic "signed_prekey_public"
  let signedPrekeySignature ← takeKey cfg req.signedPrekeySignature "signed_prekey_signature"
  pure ⟨req.pendingDeviceId, identityPublic, verifyingKey, signedPrekeyPublic, signedPrekeySignature,
    req.deviceName, req.platform⟩

def submitJoinRequest (cfg : IdentityConfig) (req : JoinRequestPayload) : IdentityHandler String := do
  ensure (req.pendingDeviceId ≠ "") ⟨.invalidArgument, "pending_device_id is required"⟩
  let data ← check (req.data cfg)
  deviceMissing req.pendingDeviceId
  statement (.storeJoin req.pendingDeviceId (cfg.packJoin data))
    (internalError ("Failed to store join request: " ++ databaseError))
  pure req.pendingDeviceId

/-- `JoinRequestData::decode_stored`. -/
def decodeStored (cfg : IdentityConfig) (payload : Bytes) : Option JoinRequestData :=
  match cfg.unpackJoin payload with
  | some data => some data
  | none => do
    let legacy ← cfg.legacyJoin payload
    let identityPublic ← cfg.base64 legacy.identityPublicB64
    let verifyingKey ← cfg.base64 legacy.verifyingKeyB64
    let signedPrekeyPublic ← cfg.base64 legacy.signedPrekeyPublicB64
    let signedPrekeySignature ← cfg.base64 legacy.signedPrekeySignatureB64
    pure ⟨legacy.pendingDeviceId, identityPublic, verifyingKey, signedPrekeyPublic,
      signedPrekeySignature, legacy.deviceName, legacy.platform⟩

structure ApproveJoinRequest where
  pendingDeviceId : String
  cryptoSuite : String

def approvedDevice (cfg : IdentityConfig) (req : ApproveJoinRequest) (data : JoinRequestData) :
    CreateDeviceData :=
  ⟨req.pendingDeviceId, cfg.instanceDomain, data.verifyingKey, data.identityPublic,
    data.signedPrekeyPublic, data.signedPrekeySignature,
    jsonSuite (if req.cryptoSuite = "" then "Curve25519+Ed25519" else req.cryptoSuite), false⟩

/-- `approve_join_request`, with the account of the bearer token. -/
def approveJoinRequest (cfg : IdentityConfig) (sub : String) (req : ApproveJoinRequest) :
    IdentityHandler AuthTokens := do
  ensure (req.pendingDeviceId ≠ "") ⟨.invalidArgument, "pending_device_id is required"⟩
  match Uuid.parseStr sub with
  | none => throw (internalError "invalid user id in token")
  | some user =>
    match ← statement (.consumeJoin req.pendingDeviceId)
        (internalError ("Redis error: " ++ databaseError)) with
    | none => throw ⟨.notFound, "join request not found or expired"⟩
    | some payload => match decodeStored cfg payload with
      | none => throw (internalError "invalid join request data")
      | some data => do
        deviceMissing req.pendingDeviceId
        check (verifySpkSignature cfg.crypto data.verifyingKey data.signedPrekeyPublic
          data.signedPrekeySignature)
        createDevice (approvedDevice cfg req data) user "Failed to create device: "
        let tokens ← linkTokens user user.toStr req.pendingDeviceId
        statement (.storeApproved req.pendingDeviceId ⟨tokens.accessToken, tokens.refreshToken, user⟩)
          (internalError ("Failed to store approval: " ++ databaseError))
        pure tokens

inductive JoinStatus
  | approved (tokens : AuthTokens)
  | pending
  | expired

def checkJoinRequestStatus (pendingDeviceId : String) : IdentityHandler JoinStatus := do
  ensure (pendingDeviceId ≠ "") ⟨.invalidArgument, "pending_device_id is required"⟩
  match ← statement (.getApproved pendingDeviceId) (internalError ("Redis error: " ++ databaseError)) with
  | some value => pure (.approved ⟨value.userId.toStr, value.accessToken, value.refreshToken⟩)
  | none => do
    let payload ← statement (.getJoin pendingDeviceId) (internalError ("Redis error: " ++ databaseError))
    pure (if payload.isSome then .pending else .expired)

/-! ### Registration -/

/-- The errors of a registration; the client does not see the text of `other`. -/
inductive AppError
  | validation (msg : String)
  | tooManyRequests (msg : String)
  | conflict (msg : String)
  | other (msg : String)

def appErrorToStatus : AppError → Status
  | .validation msg => ⟨.invalidArgument, msg⟩
  | .tooManyRequests msg => ⟨.resourceExhausted, msg⟩
  | .conflict msg => ⟨.alreadyExists, msg⟩
  | .other _ => internalServerError

abbrev Registration (α : Type) : Type :=
  Fallible IdentityStatement IdentityStatement.Reply AppError α

structure PowSolution where
  challenge : String
  nonce : UInt64
  hash : String

structure RegisterRequest where
  username : Option String
  deviceId : String
  publicKeys : DevicePublicKeys
  supportsPqRatchet : Bool
  powSolution : PowSolution

/-- The delay of `adaptive_pow_params`, in seconds. -/
def retryAfterSecs (count : Nat) : Nat :=
  let tier := count / 10
  if 2 ≤ tier then min (30 * 2 ^ min (tier - 2) 6) 3600 else 0

def limitRegistrations (cfg : IdentityConfig) (ip : String) : Registration Unit :=
  if 0 < cfg.maxRegistrationsPerHour ∧ ip ≠ "unknown" then do
    statement (.trimRegistrations ip) (.other ("Failed to check rate limit: " ++ databaseError))
    let count ← statement (.countRegistrations ip)
      (.other ("Failed to check rate limit: " ++ databaseError))
    let retry := retryAfterSecs count
    let limit := cfg.maxRegistrationsPerHour
    ensure (count < limit) (if 0 < retry then
        .tooManyRequests s!"Too many registrations from this IP. Retry after {retry}s"
      else .validation s!"Rate limit exceeded: max {limit} registrations per hour from this IP")
  else pure ()

def isNameChar (c : Char) : Bool := c.isAlphanum || c == '_'

def checkFields (cfg : IdentityConfig) (req : RegisterRequest) : Except AppError Unit := do
  if (utf8 req.deviceId).length ≠ 32 then
    throw (.validation "device_id must be exactly 32 characters (16 bytes hex)")
  if ¬req.deviceId.toList.all fun c => (Uuid.hexValue c).isSome then
    throw (.validation "device_id must be hex characters (0-9a-f)")
  if cfg.toLowercase req.deviceId ≠ req.deviceId then
    throw (.validation "device_id must be lowercase")
  match req.username.map cfg.toLowercase with
  | none => pure ()
  | some name => do
    if (utf8 name).length < 3 ∨ 20 < (utf8 name).length then
      throw (.validation "username must be 3-20 characters")
    if ¬name.toList.all isNameChar then
      throw (.validation "username can only contain letters, numbers, and underscores")
  if req.publicKeys.verifyingKey.length ≠ 32 then
    throw (.validation "verifying_key must be exactly 32 bytes (Ed25519)")
  if req.publicKeys.signedPrekeySignature.length ≠ 64 then
    throw (.validation "signed_prekey_signature must be exactly 64 bytes (Ed25519 signature)")
  (verifySpkSignature cfg.crypto req.publicKeys.verifyingKey req.publicKeys.signedPrekeyPublic
    req.publicKeys.signedPrekeySignature).mapError fun status => .validation status.message

def checkRegistration (cfg : IdentityConfig) (req : RegisterRequest) : Except AppError Unit := do
  checkFields cfg req
  if computedDeviceId cfg req.publicKeys.identityPublic ≠ req.deviceId then
    throw (.validation "device_id must be SHA256(identity_public)[0..16]")

def checkPow (cfg : IdentityConfig) (solution : PowSolution) (now : Nat)
    (record : Option PowChallengeRecord) : Except AppError Unit :=
  match record with
  | none => .error (.validation "Invalid or expired PoW challenge")
  | some record =>
    if record.expiresAt < now then .error (.validation "PoW challenge expired")
    else if record.used then .error (.validation "PoW challenge already used")
    else if cfg.verifyPow solution.challenge solution.nonce solution.hash record.difficulty then .ok ()
    else .error (.validation "Invalid PoW solution")

/-- `mark_pow_challenge_used`: reads the record again and writes it back for the time it has left.
-/
def markPowChallengeUsed (challenge : String) :
    Fallible IdentityStatement IdentityStatement.Reply String Unit := do
  match (← statement (.getPow challenge) databaseError).2 with
  | none => pure ()
  | some record => do
    let ttl ← statement (.ttlPow challenge) databaseError
    statement (.setPow challenge { record with used := true }
      (if 0 < ttl then some ttl.toNat else none)) databaseError
    match record.requesterIp with
    | none => pure ()
    | some ip => do
      statement (.addRegistration ip challenge) databaseError
      statement (.expireRegistrations ip) databaseError

def RegisterRequest.device (cfg : IdentityConfig) (req : RegisterRequest) : CreateDeviceData :=
  ⟨req.deviceId, cfg.instanceDomain, req.publicKeys.verifyingKey, req.publicKeys.identityPublic,
    req.publicKeys.signedPrekeyPublic, req.publicKeys.signedPrekeySignature,
    jsonSuite req.publicKeys.cryptoSuite, req.supportsPqRatchet⟩

def usernameFree : Option Bytes → Registration Unit
  | none => pure ()
  | some hash => do
    let taken ← attempt (statement (.selectUsername hash) ())
    ensure (taken.toOption ≠ some true) (.conflict "Username is already taken")

def createAccount (cfg : IdentityConfig) (req : RegisterRequest) : Registration AuthTokens := do
  let usernameHash := ((req.username.map cfg.toLowercase).filter (· ≠ "")).map cfg.hashUsername
  usernameFree usernameHash
  -- The conflict of identity keys is not told apart: the error has lost its code on the way here.
  match ← statement (.createUser usernameHash (req.device cfg)) (.other databaseError) with
  | none => throw (.other databaseError)
  | some user => do
    let accessToken ← statement (.signToken false user req.deviceId) (.other databaseError)
    let refreshToken ← statement (.signToken true user req.deviceId) (.other databaseError)
    let _ ← attempt (storeRefreshToken refreshToken.jti user.toStr)
    pure ⟨user.toStr, accessToken, refreshToken⟩

/-- `register_device_core`, with the tag of the address of the client. -/
def registerDevice (cfg : IdentityConfig) (ip : String) (req : RegisterRequest) :
    Registration AuthTokens := do
  limitRegistrations cfg ip
  check (checkRegistration cfg req)
  let found ← attempt (statement (.deviceExists req.deviceId) ())
  ensure (found.toOption ≠ some true) (.conflict "Device already exists")
  let (now, record) ← statement (.getPow req.powSolution.challenge)
    (.other ("Failed to fetch PoW challenge: " ++ databaseError))
  check (checkPow cfg req.powSolution now record)
  mapErr (fun e => .other ("Failed to mark challenge as used: " ++ e))
    (markPowChallengeUsed req.powSolution.challenge)
  createAccount cfg req

/-- The record that `create_pow_challenge` stores, for at least a second. -/
def createPowChallenge (challenge : String) (difficulty : Nat) (ip : Option String) (now ttl : Nat) :
    Registration Unit :=
  statement (.setPow challenge ⟨difficulty, false, ip, now + ttl * 1000⟩ (some (max ttl 1)))
    (.other databaseError)

/-! ### Any number of calls -/

inductive IdentityCall
  | recover (req : RecoverRequest)
  | confirmLink (req : ConfirmLinkRequest)
  | submitJoin (req : JoinRequestPayload)
  | approveJoin (sub : String) (req : ApproveJoinRequest)
  | checkJoin (pendingDeviceId : String)
  | register (ip : String) (req : RegisterRequest)
  | issueChallenge (challenge : String) (difficulty : Nat) (ip : Option String) (ttl : Nat)

inductive IdentityAnswer
  | recovered (response : RecoverResponse)
  | linked (tokens : AuthTokens)
  | submitted (pendingDeviceId : String)
  | approved (tokens : AuthTokens)
  | joinStatus (status : JoinStatus)
  | registered (tokens : AuthTokens)
  | issued
  | refused (status : Status)

def identityBody (cfg : IdentityConfig) (call : IdentityCall) (s : IdentityState) :
    Program IdentityStatement (fun q => Option q.Reply) IdentityAnswer :=
  match call with
  | .recover req => conclude .recovered .refused (recoverAccount cfg req)
  | .confirmLink req => conclude .linked .refused (confirmDeviceLink cfg req)
  | .submitJoin req => conclude .submitted .refused (submitJoinRequest cfg req)
  | .approveJoin sub req => conclude .approved .refused (approveJoinRequest cfg sub req)
  | .checkJoin pendingDeviceId =>
    conclude .joinStatus .refused (checkJoinRequestStatus pendingDeviceId)
  | .register ip req => conclude .registered (fun e => .refused (appErrorToStatus e))
      (registerDevice cfg ip req)
  | .issueChallenge challenge difficulty ip ttl => conclude (fun _ => .issued)
      (fun e => .refused (appErrorToStatus e)) (createPowChallenge challenge difficulty ip s.now ttl)

def identityExec (cfg : IdentityConfig) (q : IdentityStatement) (input : Input Pick)
    (s : IdentityState) : Option (Option q.Reply × IdentityState) :=
  fallible (IdentityState.effect cfg) q input s

def IdentityState.tick (ms : Nat) (s : IdentityState) : IdentityState := { s with now := s.now + ms }

abbrev IdentityPool : Type :=
  Pool IdentityStatement (fun q => Option q.Reply) IdentityAnswer IdentityCall IdentityState

abbrev IdentityAction : Type := Action (Input Pick) IdentityCall Nat

def identityStep (cfg : IdentityConfig) (pool : IdentityPool) (a : IdentityAction) :
    Option IdentityPool :=
  pool.step (fun _ => identityExec cfg) (identityBody cfg) (fun _ _ _ s => s) IdentityState.tick a

variable {cfg : IdentityConfig}

theorem identity_run_invariant {D : Discipline IdentityStatement (Input Pick) IdentityState IdentityCall}
    {s : IdentityState} {as : List IdentityAction} {pool : IdentityPool}
    (hbo : D.SafeBodies (fun _ => identityExec cfg) (identityBody cfg) fun _ _ _ s => s)
    (hti : D.Bears fun ms s => s.tick ms) (hin : D.inv s) (hf : ∀ n, D.fresh n s)
    (hca : Along (identityStep cfg) D.Careful (.init s) as)
    (hru : run (identityStep cfg) (.init s) as = some pool) : D.inv pool.store :=
  D.run_invariant hbo hti hin hf hca hru

/-! ### The calls under watch -/

/-- A log beside the store: what is noted at a statement of a session, and when its call returns.
What is known of a call beside its request, such as who has made it, is for the log only. -/
structure Watcher (κ γ : Type) where
  call : κ → IdentityCall
  note : Nat → (q : IdentityStatement) → q.Reply → IdentityState → γ → γ
  finish : Nat → κ → IdentityAnswer → IdentityState → γ → γ

section

variable {κ γ : Type} (cfg : IdentityConfig) (watch : Watcher κ γ)

def watchedEffect (n : Nat) (q : IdentityStatement) (pick : Pick) (w : IdentityState × γ) :
    Option (q.Reply × (IdentityState × γ)) :=
  noted (IdentityState.effect cfg) watch.note n q pick w

def watchedEnd (n : Nat) (call : κ) (answer : IdentityAnswer) (w : IdentityState × γ) :
    IdentityState × γ :=
  (w.1, watch.finish n call answer w.1 w.2)

abbrev WatchedPool (κ γ : Type) : Type :=
  Pool IdentityStatement (fun q => Option q.Reply) IdentityAnswer κ (IdentityState × γ)

abbrev WatchedAction (κ : Type) : Type := Action (Input Pick) κ Nat

def watchedStep (pool : WatchedPool κ γ) (a : WatchedAction κ) : Option (WatchedPool κ γ) :=
  pool.step (fun n => fallible (watchedEffect cfg watch n))
    (fun call w => identityBody cfg (watch.call call) w.1) (watchedEnd watch)
    (fun ms w => (w.1.tick ms, w.2)) a

variable {cfg watch} {s : IdentityState} {g : γ} {as : List (WatchedAction κ)} {pool : WatchedPool κ γ}

theorem watched_run_invariant {D : Discipline IdentityStatement (Input Pick) (IdentityState × γ) κ}
    (hbo : D.SafeBodies (fun n => fallible (watchedEffect cfg watch n))
      (fun c w => identityBody cfg (watch.call c) w.1) (watchedEnd watch))
    (hti : D.Bears fun ms w => (w.1.tick ms, w.2)) (hin : D.inv (s, g)) (hf : ∀ n, D.fresh n (s, g))
    (hca : Along (watchedStep cfg watch) D.Careful (.init (s, g)) as)
    (hru : run (watchedStep cfg watch) (.init (s, g)) as = some pool) : D.inv pool.store :=
  D.run_invariant hbo hti hin hf hca hru

end

/-! ### What one statement does -/

section

variable {cfg : IdentityConfig} {s s' : IdentityState} {data : CreateDeviceData} {user : Uuid}

theorem insertDevice_eq_ok_iff : s.insertDevice cfg data user = .ok s' ↔
    (cfg.jsonb data.cryptoSuites && fitsDeviceId data.deviceId) = true ∧
      s.devices.get? data.deviceId = none ∧
    (∀ p ∈ s.devices.rows, p.2.identityPublic ≠ data.identityPublic) ∧ (s.users.get? user).isSome = true ∧
    s' = { s with devices := s.devices.insertNew data.deviceId (data.row user s.now) } := by
  have han : (s.devices.rows.any fun p => p.2.identityPublic = data.identityPublic) = true ↔
      ¬∀ p ∈ s.devices.rows, p.2.identityPublic ≠ data.identityPublic := by
    simp
  unfold IdentityState.insertDevice
  constructor
  · intro h
    split at h
    · cases h
    · rename_i hf
      split at h
      · cases h
      · rename_i hid
        split at h
        · cases h
        · rename_i hk
          split at h
          · cases h
          · rename_i hu
            cases h
            refine ⟨not_not.mp hf, by simpa using hid, not_not.mp (mt han.mpr hk), ?_, rfl⟩
            simpa [isSome_iff_ne_none] using hu
  · rintro ⟨hf, hid, hk, hu, rfl⟩
    rw [if_neg (not_not_intro hf), if_neg (by simp [hid]), if_neg (mt han.mp (not_not_intro hk)),
      if_neg (by simpa [isSome_iff_ne_none] using hu)]

theorem insertUser_eq_some {usernameHash : Option Bytes}
    (h : s.insertUser cfg user usernameHash data = some s') : s.devices.get? data.deviceId = none ∧
    s' = { s with
      users := (s.users.insertNew user ⟨usernameHash, none, none, none, none⟩).modify fun id row =>
        if id = user then { row with primaryDeviceId := some data.deviceId } else row
      devices := s.devices.insertNew data.deviceId (data.row user s.now) } := by
  simp only [IdentityState.insertUser] at h
  split at h
  · cases h
  · split at h
    · rename_i t hde
      cases h
      obtain ⟨-, hf, -, -, rfl⟩ := insertDevice_eq_ok_iff.mp hde
      exact ⟨hf, rfl⟩
    · cases h

end

/-- What a statement does to the tables, the join requests and the challenges. -/
inductive IdentityEffect (cfg : IdentityConfig) (s : IdentityState) :
    IdentityStatement → IdentityState → Prop
  | aside {q : IdentityStatement} (revokedDevices : Keyspace Unit) (refreshTokens : Keyspace String)
      (userTokens : Keyspace (List String)) (deviceLinks : Keyspace String)
      (deviceLinkResults : Keyspace (String × String × Bytes))
      (powRegistrations : Keyspace (List (String × Nat))) (jtis : List String)
      (hjtis : ∀ jti ∈ s.jtis, jti ∈ jtis) :
      IdentityEffect cfg s q
        { s with
          revokedDevices, refreshTokens, userTokens, deviceLinks, deviceLinkResults,
          powRegistrations, jtis }
  | storeMldsa (user : Uuid) (key : Bytes) : IdentityEffect cfg s (.storeMldsa user key)
      (s.updateUser user fun row => if row.recoveryMldsaPublicKey = none then
        { row with recoveryMldsaPublicKey := some key } else row)
  | revokeAllDevices (user : Uuid) : IdentityEffect cfg s (.revokeAllDevices user)
      { s with
        devices := s.devices.modify fun _ row =>
          if row.userId = some user then { row with isActive := false } else row }
  | createDevice {data : CreateDeviceData} {user : Uuid} {s' : IdentityState}
      (h : s.insertDevice cfg data user = .ok s') :
      IdentityEffect cfg s (.createDevice data user) s'
  | setPrimaryDevice (user : Uuid) (device : String) :
      IdentityEffect cfg s (.setPrimaryDevice user device)
        (s.updateUser user fun row => { row with primaryDeviceId := some device })
  | markRecoveryUsed (user : Uuid) : IdentityEffect cfg s (.markRecoveryUsed user)
      (s.updateUser user fun row => { row with lastRecoveryAt := some s.now })
  | storeJoin (device : String) (payload : Bytes) : IdentityEffect cfg s (.storeJoin device payload)
      { s with
        joinRequests := s.joinRequests.set s.now (joinRequestKey device) payload (some (10 * 60)) }
  | consumeJoin (device : String) : IdentityEffect cfg s (.consumeJoin device)
      { s with joinRequests := s.joinRequests.del (joinRequestKey device) }
  | storeApproved (device : String) (value : JoinApproved) :
      IdentityEffect cfg s (.storeApproved device value)
        { s with
          joinApproved := s.joinApproved.set s.now (joinApprovedKey device) value (some (2 * 60)) }
  | setPow (challenge : String) (record : PowChallengeRecord) (ttl : Option Nat) (h : ttl ≠ some 0) :
      IdentityEffect cfg s (.setPow challenge record ttl)
        { s with
          powChallenges := s.powChallenges.set s.now (powChallengeKey challenge) record ttl }
  | createUser {usernameHash : Option Bytes} {data : CreateDeviceData} {user : Uuid}
      {s' : IdentityState} (hnew : s.users.get? user = none)
      (h : s.insertUser cfg user usernameHash data = some s') :
      IdentityEffect cfg s (.createUser usernameHash data) s'

theorem identityEffect_of_effect {q : IdentityStatement} {pick : Pick}
    {s s' : IdentityState} {x : q.Reply}
    (h : s.effect cfg q pick = some (x, s')) : IdentityEffect cfg s q s' := by
  cases q with
  | storeMldsa user key =>
    cases h
    exact .storeMldsa user key
  | revokeAllDevices user =>
    cases h
    exact .revokeAllDevices user
  | markDeviceRevoked | setToken | expireTokens =>
    obtain ⟨ks, -, heq⟩ := map_eq_some_iff.mp h
    cases heq
    exact .aside _ _ _ _ _ _ _ fun _ => id
  | createDevice data user =>
    simp only [IdentityState.effect] at h
    split at h
    · rename_i t hin
      cases h
      exact .createDevice hin
    · cases h
      exact .aside _ _ _ _ _ _ _ fun _ => id
  | setPrimaryDevice user device =>
    cases h
    exact .setPrimaryDevice user device
  | signToken isRefresh user device =>
    simp only [IdentityState.effect] at h
    split at h
    · split at h
      · cases h
      · cases h
        exact .aside _ _ _ _ _ _ _ fun _ => List.mem_cons_of_mem _
    · cases h
  | markRecoveryUsed user =>
    cases h
    exact .markRecoveryUsed user
  | storeLinkResult token user device proof =>
    simp only [IdentityState.effect] at h
    split at h
    · cases h
    · obtain ⟨ks, -, heq⟩ := map_eq_some_iff.mp h
      cases heq
      exact .aside _ _ _ _ _ _ _ fun _ => id
  | storeJoin device payload =>
    simp only [IdentityState.effect] at h
    obtain ⟨ks, hks, heq⟩ := map_eq_some_iff.mp h
    cases heq
    obtain ⟨-, -, rfl⟩ := setEx_eq_some_iff.mp hks
    exact .storeJoin device payload
  | consumeJoin device =>
    cases h
    exact .consumeJoin device
  | storeApproved device value =>
    simp only [IdentityState.effect] at h
    obtain ⟨ks, hks, heq⟩ := map_eq_some_iff.mp h
    cases heq
    obtain ⟨-, -, rfl⟩ := setEx_eq_some_iff.mp hks
    exact .storeApproved device value
  | setPow challenge record ttl =>
    cases ttl with
    | none =>
      cases h
      exact .setPow challenge record none nofun
    | some ttl =>
      simp only [IdentityState.effect] at h
      obtain ⟨ks, hks, heq⟩ := map_eq_some_iff.mp h
      cases heq
      obtain ⟨hne, -, rfl⟩ := setEx_eq_some_iff.mp hks
      exact .setPow challenge record (some ttl) fun hz => hne (Option.some.inj hz)
  | expireRegistrations ip =>
    simp only [IdentityState.effect] at h
    obtain ⟨ks, -, heq⟩ := map_eq_some_iff.mp h
    cases heq
    exact .aside _ _ _ _ _ _ _ fun _ => id
  | createUser usernameHash data =>
    simp only [IdentityState.effect] at h
    split at h
    · split at h
      · cases h
      · rename_i hn
        have hno := not_isSome_iff_eq_none.mp hn
        split at h
        · rename_i t hin
          cases h
          exact .createUser hno hin
        · cases h
          exact .aside _ _ _ _ _ _ _ fun _ => id
    · cases h
  | _ =>
    cases h
    exact .aside _ _ _ _ _ _ _ fun _ => id

theorem IdentityEffect.now_eq {q : IdentityStatement} {s s' : IdentityState}
    (h : IdentityEffect cfg s q s') : s'.now = s.now := by
  cases h with
  | createDevice hin =>
    obtain ⟨-, -, -, -, rfl⟩ := insertDevice_eq_ok_iff.mp hin
    rfl
  | createUser _ hin =>
    obtain ⟨-, rfl⟩ := insertUser_eq_some hin
    rfl
  | _ => rfl

/-! ### Which statements a call asks for -/

def IdentityStatement.isAside : IdentityStatement → Bool
  | .storeMldsa .. | .revokeAllDevices _ | .createDevice .. | .setPrimaryDevice ..
  | .markRecoveryUsed _ | .storeJoin .. | .consumeJoin _ | .storeApproved .. | .setPow ..
  | .createUser .. => false
  | _ => true

section

variable {P : IdentityStatement → Prop} (hP : ∀ q, q.isAside = true → P q)
include hP

theorem asks_deleteTokens (jtis : List String) : (deleteTokens jtis).run.Asks P := by
  induction jtis with
  | nil => trivial
  | cons jti jtis ih => exact asks_then (asks_attempt (asks_demand (hP _ rfl))) fun _ => ih

theorem asks_revokeAllUserTokens (user : String) : (revokeAllUserTokens user).run.Asks P := by
  refine asks_then (asks_attempt (asks_demand (hP _ rfl))) fun _ => ?_
  refine asks_then (asks_deleteTokens hP _) fun _ => ?_
  exact asks_then (asks_attempt (asks_demand (hP _ rfl))) fun _ => trivial

theorem asks_storeRefreshToken (jti user : String) : (storeRefreshToken jti user).run.Asks P :=
  asks_next (hP _ rfl) fun _ => asks_next (hP _ rfl) fun _ =>
    asks_demand (hP _ rfl)

theorem asks_markAccountDevicesRevoked (user : Uuid) : (markAccountDevicesRevoked user).run.Asks P := by
  refine asks_next (hP _ rfl) fun devices => ?_
  induction devices with
  | nil => trivial
  | cons device devices ih => exact asks_next (hP _ rfl) fun _ => ih

theorem asks_linkTokens (user : Uuid) (userId deviceId : String) :
    (linkTokens user userId deviceId).run.Asks P := by
  refine asks_next (hP _ rfl) fun _ => asks_next (hP _ rfl) fun _ => ?_
  exact asks_then (asks_mapErr (asks_storeRefreshToken hP _ _)) fun _ => trivial

theorem asks_deviceMissing (deviceId : String) : (deviceMissing deviceId).run.Asks P :=
  asks_next (hP _ rfl) fun _ => asks_ensure

variable {cfg : IdentityConfig}

omit hP in
theorem asks_limitRegistrations {ip : String} (htr : P (.trimRegistrations ip))
    (hco : P (.countRegistrations ip)) : (limitRegistrations cfg ip).run.Asks P := by
  unfold limitRegistrations
  split
  · exact asks_next htr fun _ => asks_next hco fun _ => asks_ensure
  · trivial

theorem asks_checkJoinRequestStatus (pendingDeviceId : String) :
    (checkJoinRequestStatus pendingDeviceId).run.Asks P := by
  refine asks_guard fun _ => asks_next (hP _ rfl) fun value => ?_
  cases value with
  | some value => trivial
  | none => exact asks_next (hP _ rfl) fun _ => trivial

theorem asks_createAccount {req : RegisterRequest}
    (hcr : ∀ hash, P (.createUser hash (req.device cfg))) : (createAccount cfg req).run.Asks P := by
  refine asks_then ?_ fun _ => asks_next (hcr _) fun created => ?_
  · unfold usernameFree
    split
    · trivial
    · exact asks_then (asks_attempt (asks_demand (hP _ rfl))) fun _ => asks_ensure
  · split
    · trivial
    · refine asks_next (hP _ rfl) fun _ => asks_next (hP _ rfl) fun _ => ?_
      exact asks_then (asks_attempt (asks_storeRefreshToken hP _ _)) fun _ => trivial

theorem asks_markPowChallengeUsed {challenge : String}
    (hset : ∀ record ttl, P (.setPow challenge record ttl)) :
    (markPowChallengeUsed challenge).run.Asks P := by
  refine asks_next (hP _ rfl) fun found => ?_
  split
  · trivial
  · refine asks_next (hP _ rfl) fun _ => asks_next (hset _ _) fun _ => ?_
    split
    · trivial
    · exact asks_next (hP _ rfl) fun _ => asks_demand (hP _ rfl)

omit hP in
theorem asks_createDevice {data : CreateDeviceData} {user : Uuid} {word : String}
    (h : P (.createDevice data user)) : (createDevice data user word).run.Asks P :=
  asks_next h fun _ => asks_check

theorem asks_takeOver {user : Uuid} {deviceId : String} {keys : DevicePublicKeys}
    (hre : P (.revokeAllDevices user))
    (hcr : ∀ data, data.deviceId = deviceId → data.identityPublic = keys.identityPublic → P (.createDevice data user))
    (hp : P (.setPrimaryDevice user deviceId)) (hu : P (.markRecoveryUsed user)) :
    (takeOver cfg user deviceId keys).run.Asks P := by
  refine asks_next hre fun _ => ?_
  refine asks_then (asks_markAccountDevicesRevoked hP _) fun _ => ?_
  refine asks_then (asks_revokeAllUserTokens hP _) fun _ => asks_then asks_check fun _ => ?_
  refine asks_then (asks_createDevice (hcr _ rfl rfl)) fun _ => ?_
  refine asks_next hp fun _ => asks_next (hP _ rfl) fun _ => ?_
  refine asks_next (hP _ rfl) fun _ => ?_
  refine asks_then (asks_attempt (asks_storeRefreshToken hP _ _)) fun _ => ?_
  exact asks_next hu fun _ => trivial

theorem asks_verifyRecoverySignature {req : RecoverRequest}
    {deviceId : String} {keys : DevicePublicKeys} (hml : ∀ user key, P (.storeMldsa user key)) :
    (verifyRecoverySignature cfg req deviceId keys).run.Asks P := by
  refine asks_guard fun _ => asks_next (hP _ rfl) fun found => ?_
  split
  · trivial
  · refine asks_then asks_check fun _ => asks_then ?_ fun _ => trivial
    unfold completeRecoveryKey
    split
    · exact asks_demand (hml _ _)
    · trivial

theorem asks_recoverAccount {req : RecoverRequest}
    (hml : ∀ user key, P (.storeMldsa user key)) (hre : ∀ user, P (.revokeAllDevices user))
    (hcr : ∀ device ∈ req.newDevice, ∀ keys ∈ device.publicKeys, ∀ data user,
      data.deviceId = device.deviceId → data.identityPublic = keys.identityPublic → P (.createDevice data user))
    (hp : ∀ user device, P (.setPrimaryDevice user device))
    (hu : ∀ user, P (.markRecoveryUsed user)) : (recoverAccount cfg req).run.Asks P := by
  refine asks_guard fun _ => asks_guard fun _ => asks_guard fun _ => ?_
  split
  · trivial
  · trivial
  · rename_i deviceId keys hde
    refine asks_then (asks_mapErr (asks_verifyRecoverySignature hP hml)) fun user => ?_
    exact asks_takeOver hP (hre user) (fun data hid hk => hcr _ hde keys rfl data user hid hk) (hp user _) (hu user)

theorem asks_confirmDeviceLink {req : ConfirmLinkRequest}
    (hcr : ∀ keys ∈ req.publicKeys, ∀ data user, data.deviceId = req.deviceId →
      data.identityPublic = keys.identityPublic → P (.createDevice data user)) :
    (confirmDeviceLink cfg req).run.Asks P := by
  refine asks_guard fun _ => asks_guard fun _ => ?_
  split
  · trivial
  · rename_i keys hke
    refine asks_guard fun _ => asks_next (hP _ rfl) fun userId => ?_
    split
    · trivial
    · split
      · trivial
      · refine asks_then (asks_deviceMissing hP _) fun _ => asks_then asks_check fun _ => ?_
        refine asks_then (asks_createDevice (hcr keys hke _ _ rfl rfl)) fun _ => ?_
        refine asks_then (asks_linkTokens hP _ _ _) fun _ => ?_
        exact asks_then (asks_attempt (asks_demand (hP _ rfl))) fun _ => trivial

theorem asks_submitJoinRequest {req : JoinRequestPayload}
    (hst : ∀ data, req.data cfg = .ok data → P (.storeJoin req.pendingDeviceId (cfg.packJoin data))) :
    (submitJoinRequest cfg req).run.Asks P := by
  refine asks_guard fun _ => asks_check_then fun data hda => ?_
  refine asks_then (asks_deviceMissing hP _) fun _ => ?_
  exact asks_next (hst data hda) fun _ => trivial

theorem asks_approveJoinRequest {sub : String} {req : ApproveJoinRequest}
    (hco : P (.consumeJoin req.pendingDeviceId)) (hcr : ∀ data user, P (.createDevice data user))
    (hst : ∀ value, P (.storeApproved req.pendingDeviceId value)) : (approveJoinRequest cfg sub req).run.Asks P := by
  refine asks_guard fun _ => ?_
  split
  · trivial
  · refine asks_next hco fun payload => ?_
    split
    · trivial
    · split
      · trivial
      · refine asks_then (asks_deviceMissing hP _) fun _ => asks_then asks_check fun _ => ?_
        refine asks_then (asks_createDevice (hcr _ _)) fun _ => ?_
        refine asks_then (asks_linkTokens hP _ _ _) fun _ => ?_
        exact asks_next (hst _) fun _ => trivial

theorem asks_registerDevice {ip : String} {req : RegisterRequest}
    (hpo : ∀ record ttl, P (.setPow req.powSolution.challenge record ttl))
    (hcr : computedDeviceId cfg req.publicKeys.identityPublic = req.deviceId →
      ∀ hash, P (.createUser hash (req.device cfg))) : (registerDevice cfg ip req).run.Asks P := by
  refine asks_then (asks_limitRegistrations (hP _ rfl) (hP _ rfl)) fun _ => asks_check_then fun _ hch => ?_
  refine asks_then (asks_attempt (asks_demand (hP _ rfl))) fun _ => asks_guard fun _ => ?_
  refine asks_next (hP _ rfl) fun _ => asks_then asks_check fun _ => ?_
  refine asks_then (asks_mapErr (asks_markPowChallengeUsed hP hpo)) fun _ => ?_
  refine asks_createAccount hP (hcr ?_)
  -- The last check of a registration is that of the id.
  obtain ⟨_, -, hid⟩ := bind_eq_ok.mp hch
  split at hid
  · cases hid
  · rename_i heq
    exact not_not.mp heq

end

/-! ### A small instance -/

def plainPack (data : JoinRequestData) : Bytes :=
  Auth.encodeChars data.pendingDeviceId.toList ++ (Auth.encodeChars (Auth.plain64 data.identityPublic) ++
    (Auth.encodeChars (Auth.plain64 data.verifyingKey) ++
      (Auth.encodeChars (Auth.plain64 data.signedPrekeyPublic) ++
        (Auth.encodeChars (Auth.plain64 data.signedPrekeySignature) ++
          (Auth.encodeChars data.deviceName.toList ++ Auth.encodeChars data.platform.toList)))))

def plainUnpack (bytes : Bytes) : Option JoinRequestData := do
  let (pendingDeviceId, bytes) ← Auth.decodeChars bytes
  let (identityPublic, bytes) ← Auth.decodeChars bytes
  let (verifyingKey, bytes) ← Auth.decodeChars bytes
  let (signedPrekeyPublic, bytes) ← Auth.decodeChars bytes
  let (signedPrekeySignature, bytes) ← Auth.decodeChars bytes
  let (deviceName, bytes) ← Auth.decodeChars bytes
  let (platform, _) ← Auth.decodeChars bytes
  pure ⟨.ofList pendingDeviceId, Auth.plainBytes identityPublic, Auth.plainBytes verifyingKey,
    Auth.plainBytes signedPrekeyPublic, Auth.plainBytes signedPrekeySignature, .ofList deviceName,
    .ofList platform⟩

theorem plainUnpack_plainPack (data : JoinRequestData) : plainUnpack (plainPack data) = some data := by
  have hl : ∀ cs, Auth.decodeChars (Auth.encodeChars cs) = some (cs, []) := fun cs => by
    simpa using Auth.decodeChars_encodeChars cs []
  simp [plainUnpack, plainPack, Auth.decodeChars_encodeChars, hl, Auth.plainBytes_plain64]

def demoConfig : IdentityConfig where
  crypto := KeyService.demoCrypto
  sha256 := id
  hashUsername := utf8
  trim := id
  toLowercase := id
  fresh _ _ := true
  claimSignable _ _ _ _ _ := some []
  jsonb _ := true
  packJoin := plainPack
  unpackJoin := plainUnpack
  unpackJoin_packJoin := plainUnpack_plainPack
  legacyJoin _ := none
  base64 _ := none
  verifyPow _ _ _ _ := true
  serverHostname := "h"
  instanceDomain := "h"
  accessTokenTtl := 3600
  refreshTokenTtl := 86400
  maxRegistrationsPerHour := 0
  powDifficulty := 0

def demoUser : Uuid := Auth.demoUser

def demoDeviceKeys (b : UInt8) : DevicePublicKeys where
  verifyingKey := replicate 32 0
  identityPublic := replicate 16 b
  signedPrekeyPublic := [0]
  signedPrekeySignature := replicate 64 0
  cryptoSuite := "Curve25519+Ed25519"

def demoAccounts : IdentityState where
  now := 0
  users := Table.empty.insertNew demoUser ⟨none, some (replicate 32 0), none, none, none⟩
  devices := .empty
  revokedDevices := .empty
  refreshTokens := .empty
  userTokens := .empty
  deviceLinks := Keyspace.set .empty 0 (deviceLinkKey "t") demoUser.toStr none
  deviceLinkResults := .empty
  joinRequests := .empty
  joinApproved := .empty
  powChallenges := .empty
  powRegistrations := .empty
  jtis := []

def identityCall (call : IdentityCall) (picks : List Pick) : List IdentityAction :=
  .start call :: picks.map fun pick => .step 0 ⟨.ok, pick⟩

section

/-- The keys of the refresh tokens, the members of an index in no order. -/
def IdentityState.tokenStore (s : IdentityState) : TokenStore where
  tokens := s.refreshTokens
  index := fun k => (s.userTokens k).map fun c => ⟨c.value.toFinset, c.deadline⟩

/-- The next command of a revocation that is under way. -/
def revokeStep (user : String) (now : Nat) (s : TokenStore × Option RevokePhase)
    (command : String × Redis.Outcome) : Option (TokenStore × Option RevokePhase) :=
  s.2.bind fun phase => phase.step user now s.1 command.1 command.2

variable {cfg : IdentityConfig} {s s' : IdentityState} {user : String} {r : Except Status Unit}

theorem smembers_tokenStore : s.tokenStore.index.smembers s.now (userTokensKey user) =
    ((s.userTokens.get s.now (userTokensKey user)).getD []).toFinset := by
  simp only [IdentityState.tokenStore, Keyspace.smembers, Keyspace.get, Keyspace.cell]
  cases s.userTokens (userTokensKey user) with
  | none => rfl
  | some c =>
    simp only [Option.map_some, Option.filter_some, Redis.Cell.live]
    split <;> rfl

theorem tokenStore_delTokens : IdentityState.tokenStore { s with
      userTokens := s.userTokens.del (userTokensKey user) } =
    { s.tokenStore with index := s.tokenStore.index.del (userTokensKey user) } := by
  simp only [IdentityState.tokenStore, Keyspace.del, TokenStore.mk.injEq, true_and]
  funext k
  by_cases hk : k = userTokensKey user <;> simp [hk]

theorem deleteTokens_commands {jtis : List String} (hn : jtis.Nodup)
    (h : Runs (identityExec cfg) (deleteTokens jtis >>= fun _ =>
      attempt (statement (.delTokens user) ()) >>= fun _ => pure ()).run s r s') :
    ∃ commands, run (revokeStep user s.now) (s.tokenStore, some (.del jtis.toFinset)) commands =
      some (s'.tokenStore, none) := by
  induction jtis generalizing s with
  | nil =>
    obtain ⟨input, reply, s₁, he, -, rfl⟩ := h
    rcases failed_or_effect he with ⟨rfl, -⟩ | ⟨x, he, -⟩
    · exact ⟨[("", .failed)], rfl⟩
    · cases he
      rw [tokenStore_delTokens]
      exact ⟨[("", .ok)], rfl⟩
  | cons jti jtis ih =>
    obtain ⟨hjti, hn⟩ := List.nodup_cons.mp hn
    have herase : (jti :: jtis).toFinset.erase jti = jtis.toFinset := by simp [hjti]
    obtain ⟨input, reply, s₁, he, h⟩ := h
    rcases failed_or_effect he with ⟨rfl, -⟩ | ⟨x, he, -⟩
    · obtain ⟨commands, hrun⟩ := ih hn h
      refine ⟨(jti, .failed) :: commands, ?_⟩
      simpa [run_cons, revokeStep, RevokePhase.step, herase, hjti] using hrun
    · cases he
      obtain ⟨commands, hrun⟩ := ih hn h
      refine ⟨(jti, .ok) :: commands, ?_⟩
      simpa [run_cons, revokeStep, RevokePhase.step, herase, hjti, IdentityState.tokenStore] using hrun

/-- **The revocation of a recovery is that of `Auth.RevokePhase`**: its tokens come in the order of
the list, and every run of it is a run of these commands. -/
theorem revokeAllUserTokens_commands
    (hn : ((s.userTokens.get s.now (userTokensKey user)).getD []).Nodup)
    (h : Runs (identityExec cfg) (revokeAllUserTokens user).run s r s') :
    ∃ commands, run (revokeStep user s.now) (s.tokenStore, some .smembers) commands =
      some (s'.tokenStore, none) := by
  obtain ⟨input, reply, s₁, he, h⟩ := h
  rcases failed_or_effect he with ⟨rfl, rfl⟩ | ⟨x, he, hx⟩
  · obtain ⟨commands, hrun⟩ := deleteTokens_commands List.nodup_nil h
    exact ⟨("", .failed) :: commands, hrun⟩
  · cases he
    cases reply with
    | none =>
      obtain ⟨commands, hrun⟩ := deleteTokens_commands List.nodup_nil h
      exact ⟨("", .failed) :: commands, hrun⟩
    | some jtis =>
      obtain rfl := hx jtis rfl
      obtain ⟨commands, hrun⟩ := deleteTokens_commands hn h
      refine ⟨("", .ok) :: commands, ?_⟩
      rw [run_cons, revokeStep]
      simp only [Option.bind_some, RevokePhase.step, if_true, smembers_tokenStore]
      exact hrun

end

end ConstructServer.Identity
