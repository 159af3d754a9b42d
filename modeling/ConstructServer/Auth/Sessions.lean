import ConstructServer.Auth.RefreshTokens
import ConstructServer.Auth.Paseto
import ConstructServer.Auth.Freshness

/-!
# Sessions of devices

Tokens are created by a refresh or by a device that authenticates itself, a device is deactivated
and a session is logged out, and the messaging service checks the bearer of a request. All of these
run side by side, one query, one Redis command or one reading of the clock at a time, and any query
or command may fail or lose its reply.
-/

namespace ConstructServer.Auth

open Queue Redis Machine Keyspace List Option

inductive DeviceRefusal
  | notFound
  | removed

inductive AppError
  | auth (message : String)
  | internal (message : String)
  | validation (message : String)
  | deviceRefused (refusal : DeviceRefusal)
  | unknown

structure DeviceRow where
  userId : Option Uuid
  verifyingKey : Bytes
  isActive : Bool

structure AuthConfig where
  manager : AuthManager
  verifySignature : Bytes → Bytes → Bytes → Bool

/-- The tables, Redis and the clock, and what was done with them. -/
structure AuthEnv where
  now : Nat
  devices : String → Option DeviceRow
  users : Uuid → Option (Option String)
  store : TokenStore
  invalidated : Keyspace Unit
  revokedDevices : Keyspace Unit
  minted : List Minted
  marks : List (String × Nat)

/-- What the environment chooses for a step. -/
structure StepInput where
  outcome : Outcome
  jti : String
  nonce : Nonce
  blocked : Option String

inductive CallStep (φ ρ : Type)
  | next (phase : φ)
  | done (result : ρ)

section

variable (cfg : AuthConfig) (env : AuthEnv) (input : StepInput)

def invalidatedTokenKey (jti : String) : String := "invalidated_token:" ++ jti

def revokedDeviceKey (deviceId : String) : String := "revoked_device:" ++ deviceId

/-- Two tokens that were handed out together, the access token first. -/
abbrev TokenPair := Minted × Minted

section

def newToken (kind : TokenKind) (userId : Uuid) (deviceId : Option String) : Minted :=
  ⟨kind, cfg.manager.claimsFor kind env.now input.jti userId deviceId, input.nonce, env.now⟩

def AuthEnv.fresh : Bool := env.minted.all fun t => t.claims.jti ≠ input.jti

end

def refreshRefusal (active : Option Bool) : Option DeviceRefusal :=
  match active with
  | none => some .notFound
  | some false => some .removed
  | some true => none

/-- The part of `refresh_tokens` after the check of the token. -/
inductive RefreshPhase
  | lookup (deviceId : String)
  | mintAccess (userId : Uuid)
  | mintRefresh (userId : Uuid) (access : Minted)
  | rotate (userId : Uuid) (access refresh : Minted)

def afterLookup (claims : Claims) : CallStep RefreshPhase (Except AppError TokenPair) :=
  match Uuid.parseStr claims.sub with
  | none => .done (.error (.validation "Invalid user ID in refresh token"))
  | some userId => .next (.mintAccess userId)

def refreshStart (refreshToken : Text) :
    Except AppError (Claims × CallStep RefreshPhase (Except AppError TokenPair)) :=
  match cfg.manager.verifyToken env.now refreshToken with
  | .error _ => .error (.auth "Invalid or expired refresh token")
  | .ok claims => .ok (claims, match claims.deviceId with
    | some deviceId => .next (.lookup deviceId)
    | none => afterLookup claims)

def RefreshPhase.step (claims : Claims) :
    RefreshPhase → Option (AuthEnv × CallStep RefreshPhase (Except AppError TokenPair))
  | .lookup deviceId =>
    if input.outcome ≠ .ok then some (env, .done (.error (.internal "Cannot verify device")))
    else
      match refreshRefusal ((env.devices deviceId).map DeviceRow.isActive) with
      | some refusal => some (env, .done (.error (.deviceRefused refusal)))
      | none => some (env, afterLookup claims)
  | .mintAccess userId =>
    if env.fresh input = false then none
    else
      match cfg.manager.createTokenForDevice env.now input.nonce input.jti userId claims.deviceId with
      | none => some (env, .done (.error .unknown))
      | some _ =>
        let access := newToken cfg env input .access userId claims.deviceId
        some ({ env with minted := access :: env.minted }, .next (.mintRefresh userId access))
  | .mintRefresh userId access =>
    if env.fresh input = false then none
    else
      match cfg.manager.createRefreshTokenForDevice env.now input.nonce input.jti userId
          claims.deviceId with
      | none => some (env, .done (.error .unknown))
      | some _ =>
        let refresh := newToken cfg env input .refresh userId claims.deviceId
        some ({ env with minted := refresh :: env.minted }, .next (.rotate userId access refresh))
  | .rotate userId access refresh =>
    if input.outcome = .failed then
      some (env, .done (.error (.auth "Cannot verify refresh token")))
    else
      let (store, reply) := env.store.rotate userId.toStr (cfg.manager.ttl .refresh).toNat env.now
        claims.jti refresh.claims.jti
      some ({ env with store }, .done (
        if input.outcome = .lost then .error (.auth "Cannot verify refresh token")
        else
          match reply with
          | .nil => .error (.auth "Refresh token was already used or revoked")
          | .error => .error (.auth "Cannot verify refresh token")
          | .value uid =>
            if uid ≠ claims.sub then .error (.auth "Token validation failed")
            else .ok (access, refresh)))

/-- The part of `authenticate_device_core` after the check of the timestamp. -/
inductive AuthenticatePhase
  | blocked (signedAt : Int64) (signature : Bytes)
  | lookup (signedAt : Int64) (signature : Bytes)
  | mintAccess (userId : Uuid)
  | mintRefresh (userId : Uuid) (access : Minted)
  | store (userId : Uuid) (access refresh : Minted) (phase : StorePhase)

def authenticateStart (signedAt : Int64) (signature : Bytes) : Except AppError AuthenticatePhase :=
  (Freshness.checkAge (.validation "Timestamp expired (must be within ±5 minutes)")
    (.ofInt (timestamp env.now)) signedAt).map fun _ => .blocked signedAt signature

def AuthenticatePhase.step (deviceId : String) :
    AuthenticatePhase → Option (AuthEnv × CallStep AuthenticatePhase (Except AppError TokenPair))
  | .blocked signedAt signature =>
    -- A failed read does not block.
    match if input.outcome = .ok then input.blocked else none with
    | some reason =>
      some (env, .done (.error (.auth ("Authentication temporarily blocked: " ++ reason))))
    | none => some (env, .next (.lookup signedAt signature))
  | .lookup signedAt signature =>
    if input.outcome ≠ .ok then some (env, .done (.error (.internal "Database error")))
    else
      match env.devices deviceId with
      | none => some (env, .done (.error (.deviceRefused .notFound)))
      | some device =>
        if device.isActive = false then some (env, .done (.error (.deviceRefused .removed)))
        else if signature.length ≠ 64 then
          some (env, .done (.error (.validation "Invalid signature length (expected 64 bytes)")))
        else if cfg.verifySignature device.verifyingKey (utf8 (deviceId ++ toString signedAt))
            signature = false then
          some (env, .done (.error (.auth "Invalid signature")))
        else
          match device.userId with
          | none => some (env, .done (.error (.internal "Device has no user_id")))
          | some userId => some (env, .next (.mintAccess userId))
  | .mintAccess userId =>
    if env.fresh input = false then none
    else
      match cfg.manager.createTokenForDevice env.now input.nonce input.jti userId deviceId with
      | none => some (env, .done (.error .unknown))
      | some _ =>
        let access := newToken cfg env input .access userId deviceId
        some ({ env with minted := access :: env.minted }, .next (.mintRefresh userId access))
  | .mintRefresh userId access =>
    if env.fresh input = false then none
    else
      match cfg.manager.createRefreshTokenForDevice env.now input.nonce input.jti userId deviceId with
      | none => some (env, .done (.error .unknown))
      | some _ =>
        let refresh := newToken cfg env input .refresh userId deviceId
        some ({ env with minted := refresh :: env.minted },
          .next (.store userId access refresh .setEx))
  | .store userId access refresh phase =>
    -- An error of the store is only logged.
    let result := phase.step userId.toStr (cfg.manager.ttl .refresh).toNat env.now env.store
      refresh.claims.jti input.outcome
    some ({ env with store := result.1 }, match result.2 with
      | some phase => .next (.store userId access refresh phase)
      | none => .done (.ok (access, refresh)))

inductive DeviceDeactivation
  | deactivated
  | refusedPrimary
  | alreadyInactive
  | noSuchUser

inductive DeactivatePhase
  | user
  | update
  | mark (deactivated : Bool)
  | sessions

def AuthEnv.deactivateDevice (deviceId : String) : AuthEnv :=
  let row := (env.devices deviceId).map fun row => { row with isActive := false }
  { env with devices := Function.update env.devices deviceId row }

def accessTokenTtlSecs : Nat := (max (cfg.manager.ttl .access) 1).toNat

/-- `deactivate_device_unless_primary`. -/
def DeactivatePhase.step (userId : Uuid) (deviceId : String) :
    DeactivatePhase → AuthEnv × CallStep DeactivatePhase (Except AppError DeviceDeactivation)
  | .user =>
    if input.outcome ≠ .ok then
      (env, .done (.error (.internal "Cannot complete request (user lookup failed)")))
    else
      match env.users userId with
      | none => (env, .done (.ok .noSuchUser))
      | some primaryDeviceId =>
        if primaryDeviceId = some deviceId then (env, .done (.ok .refusedPrimary))
        else (env, .next .update)
  | .update =>
    let error := CallStep.done (.error (.internal "Cannot complete request (device deactivation failed)"))
    if input.outcome = .failed then (env, error)
    else
      let active := (env.devices deviceId).any DeviceRow.isActive
      (env.deactivateDevice deviceId, if input.outcome = .ok then .next (.mark active) else error)
  | .mark deactivated =>
    let error := CallStep.done (.error (.internal "Cannot complete request (device revoke marker failed)"))
    if input.outcome = .failed then (env, error)
    else
      match env.revokedDevices.setEx env.now (revokedDeviceKey deviceId) () (accessTokenTtlSecs cfg) with
      | none => (env, error)
      | some revokedDevices =>
        ({ env with revokedDevices, marks := (deviceId, env.now) :: env.marks },
          if input.outcome = .lost then error
          else if deactivated then .next .sessions
          else .done (.ok .alreadyInactive))
  | .sessions =>
    if input.outcome ≠ .ok then
      (env, .done (.error (.internal "Cannot complete request (session revoke failed)")))
    else (env, .done (.ok .deactivated))

/-- The part of `logout` after the check of the token. -/
inductive LogoutPhase
  | active (deviceId : String)
  | remaining
  | invalidate (seconds : Nat)
  | revokeAll (phase : RevokePhase)
  | deactivate (deviceId : String) (phase : DeactivatePhase)

def logoutStart (accessToken : Text) : Except Status (Claims × Uuid × LogoutPhase) :=
  if accessToken = [] then .error (.invalidArgument "access_token is required")
  else
    match cfg.manager.verifyToken env.now accessToken with
    | .error _ => .error (.unauthenticated "invalid access token")
    | .ok claims =>
      match Uuid.parseStr claims.sub with
      | none => .error (.internal "invalid user id in token")
      | some userId => .ok (claims, userId, match claims.deviceId with
        | some deviceId => .active deviceId
        | none => .remaining)

def afterInvalidate (claims : Claims) (allDevices : Bool) : CallStep LogoutPhase (Except AppError Unit) :=
  if allDevices then .next (.revokeAll .smembers)
  else
    match claims.deviceId.filter (· ≠ "") with
    | none => .done (.ok ())
    | some deviceId => .next (.deactivate deviceId .user)

def LogoutPhase.step (claims : Claims) (userId : Uuid) (allDevices : Bool) :
    LogoutPhase → Option (AuthEnv × CallStep LogoutPhase (Except AppError Unit))
  | .active deviceId =>
    if input.outcome ≠ .ok then some (env, .done (.error (.internal "Cannot verify token")))
    else if (env.devices deviceId).map DeviceRow.isActive = some true then some (env, .next .remaining)
    else some (env, .done (.ok ()))
  | .remaining =>
    let seconds := (claims.exp - timestamp env.now).toNat
    if 0 < seconds then some (env, .next (.invalidate seconds))
    else some (env, afterInvalidate claims allDevices)
  | .invalidate seconds =>
    let error := CallStep.done
      (.error (.internal "Cannot complete logout (token blocklist unavailable)"))
    if input.outcome = .failed then some (env, error)
    else
      match env.invalidated.setEx env.now (invalidatedTokenKey claims.jti) () seconds with
      | none => some (env, error)
      | some invalidated =>
        some ({ env with invalidated },
          if input.outcome = .ok then afterInvalidate claims allDevices else error)
  | .revokeAll phase =>
    (phase.step userId.toStr env.now env.store input.jti input.outcome).map fun (store, next) =>
      ({ env with store }, match next with
        | some phase => .next (.revokeAll phase)
        | none => .done (.ok ()))
  | .deactivate deviceId phase =>
    let (env, result) := phase.step cfg env input userId deviceId
    some (env, match result with
      | .next phase => .next (.deactivate deviceId phase)
      | .done result => .done (result.map fun _ => ()))

/-- The part of `extract_authed_identity` after the check of the token. -/
inductive CheckPhase
  | invalidated
  | device (deviceId : String)

def checkStart (metadata : Metadata) : Option (Claims × Uuid) :=
  match verifyAccessToken cfg.manager env.now metadata with
  | .error _ => none
  | .ok claims => (Uuid.parseStr claims.sub).map fun userId => (claims, userId)

/-- The result is whether the token is accepted. -/
def CheckPhase.step (claims : Claims) : CheckPhase → CallStep CheckPhase Bool
  | .invalidated =>
    if input.outcome ≠ .ok then .done false
    else if (env.invalidated.get env.now (invalidatedTokenKey claims.jti)).isSome then .done false
    else
      match claims.deviceId with
      | some deviceId => .next (.device deviceId)
      | none => .done true
  | .device deviceId =>
    if input.outcome ≠ .ok then .done false
    else if (env.revokedDevices.get env.now (revokedDeviceKey deviceId)).isSome then .done false
    else .done true

end

/-- What had been answered when a call began: the devices that were revoked and the access tokens
that were logged out. -/
structure Before where
  revoked : List String
  loggedOut : List Claims

inductive AuthCall
  | refresh (before : Before) (claims : Claims) (phase : RefreshPhase)
  | authenticate (deviceId : String) (phase : AuthenticatePhase)
  | deactivate (userId : Uuid) (deviceId : String) (phase : DeactivatePhase)
  | logout (claims : Claims) (userId : Uuid) (allDevices : Bool) (phase : LogoutPhase)
  | check (before : Before) (claims : Claims) (phase : CheckPhase)

structure AuthState where
  env : AuthEnv
  running : List AuthCall
  sessions : List TokenPair
  refreshed : List (Before × Claims)
  accepted : List (Before × Claims)
  /-- The devices for which `deactivate_device_unless_primary` has returned `Ok`, and the access
  tokens for which a logout of one device was answered `Ok`. -/
  answered : Before

inductive AuthAction
  | tick (ms : Nat)
  | refresh (refreshToken : Text)
  | authenticate (deviceId : String) (signedAt : Int64) (signature : Bytes)
  | deactivate (userId : Uuid) (deviceId : String)
  | logout (accessToken : Text) (allDevices : Bool)
  | check (metadata : Metadata)
  | step (i : Nat) (input : StepInput)

section

variable (cfg : AuthConfig)

def AuthState.refreshNext (s : AuthState) (before : Before) (claims : Claims) (env : AuthEnv) :
    CallStep RefreshPhase (Except AppError TokenPair) → AuthState × Option AuthCall
  | .next phase => ({ s with env }, some (.refresh before claims phase))
  | .done (.ok pair) =>
    ({ s with env, sessions := pair :: s.sessions, refreshed := (before, claims) :: s.refreshed }, none)
  | .done (.error _) => ({ s with env }, none)

def AuthState.advance (s : AuthState) (input : StepInput) :
    AuthCall → Option (AuthState × Option AuthCall)
  | .refresh before claims phase =>
    (phase.step cfg s.env input claims).map fun (env, result) =>
      s.refreshNext before claims env result
  | .authenticate deviceId phase =>
    (phase.step cfg s.env input deviceId).map fun (env, result) => match result with
      | .next phase => ({ s with env }, some (.authenticate deviceId phase))
      | .done (.ok pair) => ({ s with env, sessions := pair :: s.sessions }, none)
      | .done (.error _) => ({ s with env }, none)
  | .deactivate userId deviceId phase =>
    let (env, result) := phase.step cfg s.env input userId deviceId
    match result with
    | .next phase => some ({ s with env }, some (.deactivate userId deviceId phase))
    | .done (.ok _) => some ({ s with
        env, answered.revoked := deviceId :: s.answered.revoked }, none)
    | .done (.error _) => some ({ s with env }, none)
  | .logout claims userId allDevices phase =>
    (phase.step cfg s.env input claims userId allDevices).map fun (env, result) => match result with
      | .next phase => ({ s with env }, some (.logout claims userId allDevices phase))
      | .done (.ok _) => ({ s with
          env
          answered := ⟨match phase with
            | .deactivate deviceId _ => deviceId :: s.answered.revoked
            | _ => s.answered.revoked,
            if allDevices then s.answered.loggedOut else claims :: s.answered.loggedOut⟩ }, none)
      | .done (.error _) => ({ s with env }, none)
  | .check before claims phase =>
    match phase.step s.env input claims with
    | .next phase => some (s, some (.check before claims phase))
    | .done true => some ({ s with accepted := (before, claims) :: s.accepted }, none)
    | .done false => some (s, none)

def AuthState.step (s : AuthState) : AuthAction → Option AuthState
  | .tick ms => some { s with env.now := s.env.now + ms }
  | .refresh refreshToken =>
    match refreshStart cfg s.env refreshToken with
    | .error _ => some s
    | .ok (claims, result) =>
      let (s, call) := s.refreshNext s.answered claims s.env result
      some { s with running := s.running ++ call.toList }
  | .authenticate deviceId signedAt signature =>
    match authenticateStart s.env signedAt signature with
    | .error _ => some s
    | .ok phase => some { s with running := s.running ++ [.authenticate deviceId phase] }
  | .deactivate userId deviceId =>
    some { s with running := s.running ++ [.deactivate userId deviceId .user] }
  | .logout accessToken allDevices =>
    match logoutStart cfg s.env accessToken with
    | .error _ => some s
    | .ok (claims, userId, phase) =>
      some { s with running := s.running ++ [.logout claims userId allDevices phase] }
  | .check metadata =>
    match checkStart cfg s.env metadata with
    | none => some s
    | some (claims, _) =>
      some { s with running := s.running ++ [.check s.answered claims .invalidated] }
  | .step i input =>
    match s.running[i]? with
    | none => none
    | some call => (s.advance cfg input call).map fun (s, next) =>
      { s with running := Machine.replace s.running i next }

def AuthState.init (devices : String → Option DeviceRow) (users : Uuid → Option (Option String)) :
    AuthState :=
  ⟨⟨0, devices, users, ⟨Keyspace.empty, Keyspace.empty⟩, Keyspace.empty, Keyspace.empty, [], []⟩, [], [],
    [], [], ⟨[], []⟩⟩

end

section

variable (cfg : AuthConfig) (env : AuthEnv) (input : StepInput)

inductive RefreshCase (claims : Claims) :
    RefreshPhase → AuthEnv × CallStep RefreshPhase (Except AppError TokenPair) → Prop
  | refused (phase : RefreshPhase) (e : AppError) : RefreshCase claims phase (env, .done (.error e))
  | looked (deviceId : String) (result : CallStep RefreshPhase (Except AppError TokenPair))
    (hactive : (env.devices deviceId).map DeviceRow.isActive = some true)
    (hresult : result = afterLookup claims) : RefreshCase claims (.lookup deviceId) (env, result)
  | mintedAccess (userId : Uuid) (hfresh : env.fresh input = true)
    (hsign : cfg.manager.canSign = true) :
    RefreshCase claims (.mintAccess userId)
      ({ env with minted := newToken cfg env input .access userId claims.deviceId :: env.minted },
        .next (.mintRefresh userId (newToken cfg env input .access userId claims.deviceId)))
  | mintedRefresh (userId : Uuid) (access : Minted) (hfresh : env.fresh input = true)
    (hsign : cfg.manager.canSign = true) :
    RefreshCase claims (.mintRefresh userId access)
      ({ env with minted := newToken cfg env input .refresh userId claims.deviceId :: env.minted },
        .next (.rotate userId access (newToken cfg env input .refresh userId claims.deviceId)))
  | rotated (userId : Uuid) (access refresh : Minted) (store : TokenStore)
    (result : Except AppError TokenPair)
    (hresult : ∀ pair, result = .ok pair → pair = (access, refresh)) :
    RefreshCase claims (.rotate userId access refresh) ({ env with store }, .done result)

inductive AuthenticateCase (deviceId : String) :
    AuthenticatePhase → AuthEnv × CallStep AuthenticatePhase (Except AppError TokenPair) → Prop
  | refused (phase : AuthenticatePhase) (e : AppError) :
    AuthenticateCase deviceId phase (env, .done (.error e))
  | unblocked (signedAt : Int64) (signature : Bytes) :
    AuthenticateCase deviceId (.blocked signedAt signature) (env, .next (.lookup signedAt signature))
  | looked (signedAt : Int64) (signature : Bytes) (userId : Uuid) :
    AuthenticateCase deviceId (.lookup signedAt signature) (env, .next (.mintAccess userId))
  | mintedAccess (userId : Uuid) (hfresh : env.fresh input = true)
    (hsign : cfg.manager.canSign = true) :
    AuthenticateCase deviceId (.mintAccess userId)
      ({ env with minted := newToken cfg env input .access userId deviceId :: env.minted },
        .next (.mintRefresh userId (newToken cfg env input .access userId deviceId)))
  | mintedRefresh (userId : Uuid) (access : Minted) (hfresh : env.fresh input = true)
    (hsign : cfg.manager.canSign = true) :
    AuthenticateCase deviceId (.mintRefresh userId access)
      ({ env with minted := newToken cfg env input .refresh userId deviceId :: env.minted },
        .next (.store userId access (newToken cfg env input .refresh userId deviceId) .setEx))
  | stored (userId : Uuid) (access refresh : Minted) (phase phase' : StorePhase) (store : TokenStore) :
    AuthenticateCase deviceId (.store userId access refresh phase)
      ({ env with store }, .next (.store userId access refresh phase'))
  | returned (userId : Uuid) (access refresh : Minted) (phase : StorePhase) (store : TokenStore) :
    AuthenticateCase deviceId (.store userId access refresh phase)
      ({ env with store }, .done (.ok (access, refresh)))

inductive DeactivateCase (userId : Uuid) (deviceId : String) : DeactivatePhase →
    AuthEnv × CallStep DeactivatePhase (Except AppError DeviceDeactivation) → Prop
  | refused (phase : DeactivatePhase) (e : AppError) :
    DeactivateCase userId deviceId phase (env, .done (.error e))
  | kept (result : DeviceDeactivation) (hok : input.outcome = .ok)
    (huser : env.users userId = none ∨ env.users userId = some (some deviceId)) :
    DeactivateCase userId deviceId .user (env, .done (.ok result))
  | found : DeactivateCase userId deviceId .user (env, .next .update)
  | updated (result : CallStep DeactivatePhase (Except AppError DeviceDeactivation))
    (hresult : (∃ b, result = .next (.mark b)) ∨ ∃ e, result = .done (.error e)) :
    DeactivateCase userId deviceId .update (env.deactivateDevice deviceId, result)
  | marked (deactivated : Bool) (revokedDevices : Keyspace Unit)
    (result : CallStep DeactivatePhase (Except AppError DeviceDeactivation))
    (hmark : env.revokedDevices.setEx env.now (revokedDeviceKey deviceId) ()
      (accessTokenTtlSecs cfg) = some revokedDevices)
    (hresult : result = .next .sessions ∨ (∃ r, result = .done (.ok r)) ∨
      ∃ e, result = .done (.error e)) :
    DeactivateCase userId deviceId (.mark deactivated)
      ({ env with revokedDevices, marks := (deviceId, env.now) :: env.marks }, result)
  | ended : DeactivateCase userId deviceId .sessions (env, .done (.ok .deactivated))

inductive LogoutCase (claims : Claims) (userId : Uuid) (allDevices : Bool) : LogoutPhase →
    AuthEnv × CallStep LogoutPhase (Except AppError Unit) → Prop
  | refused (phase : LogoutPhase) (e : AppError) :
    LogoutCase claims userId allDevices phase (env, .done (.error e))
  | inactive (deviceId : String) (hok : input.outcome = .ok)
    (hinactive : (env.devices deviceId).map DeviceRow.isActive ≠ some true) :
    LogoutCase claims userId allDevices (.active deviceId) (env, .done (.ok ()))
  | active (deviceId : String) :
    LogoutCase claims userId allDevices (.active deviceId) (env, .next .remaining)
  | lives (seconds : Nat) (hseconds : claims.exp - timestamp env.now ≤ seconds) :
    LogoutCase claims userId allDevices .remaining (env, .next (.invalidate seconds))
  | expired (result : CallStep LogoutPhase (Except AppError Unit))
    (hexp : claims.exp ≤ timestamp env.now) (hresult : result = afterInvalidate claims allDevices) :
    LogoutCase claims userId allDevices .remaining (env, result)
  | invalidated (seconds : Nat) (invalidated : Keyspace Unit)
    (result : CallStep LogoutPhase (Except AppError Unit))
    (hkey : env.invalidated.setEx env.now (invalidatedTokenKey claims.jti) () seconds =
      some invalidated)
    (hresult : result = afterInvalidate claims allDevices ∨ ∃ e, result = .done (.error e)) :
    LogoutCase claims userId allDevices (.invalidate seconds) ({ env with invalidated }, result)
  | revokes (phase : RevokePhase) (store : TokenStore)
    (result : CallStep LogoutPhase (Except AppError Unit))
    (hresult : (∃ phase, result = .next (.revokeAll phase)) ∨ result = .done (.ok ())) :
    LogoutCase claims userId allDevices (.revokeAll phase) ({ env with store }, result)
  | deactivates (deviceId : String) (phase phase' : DeactivatePhase) (env' : AuthEnv)
    (hcase : DeactivateCase cfg env input userId deviceId phase (env', .next phase')) :
    LogoutCase claims userId allDevices (.deactivate deviceId phase)
      (env', .next (.deactivate deviceId phase'))
  | deactivated (deviceId : String) (phase : DeactivatePhase) (env' : AuthEnv)
    (result : DeviceDeactivation)
    (hcase : DeactivateCase cfg env input userId deviceId phase (env', .done (.ok result))) :
    LogoutCase claims userId allDevices (.deactivate deviceId phase) (env', .done (.ok ()))
  | failed (deviceId : String) (phase : DeactivatePhase) (env' : AuthEnv) (e : AppError)
    (hcase : DeactivateCase cfg env input userId deviceId phase (env', .done (.error e))) :
    LogoutCase claims userId allDevices (.deactivate deviceId phase) (env', .done (.error e))

end

section

variable {cfg : AuthConfig} {env : AuthEnv} {input : StepInput} {claims : Claims}

theorem canSign_of_create {m : AuthManager} {kind : TokenKind} {now : Nat} {nonce : Nonce}
    {jti : String} {userId : Uuid} {deviceId : Option String} {created : Text × String × Int}
    (h : m.create kind now nonce jti userId deviceId = some created) : m.canSign = true := by
  by_contra hs
  simp only [AuthManager.create, AuthManager.signPaseto, if_neg hs, map_none] at h
  cases h

theorem refresh_case {phase : RefreshPhase}
    {result : AuthEnv × CallStep RefreshPhase (Except AppError TokenPair)}
    (h : phase.step cfg env input claims = some result) : RefreshCase cfg env input claims phase result := by
  cases phase with
  | lookup deviceId =>
    simp only [RefreshPhase.step] at h
    split_ifs at h
    · cases h
      exact .refused _ _
    · cases ha : (env.devices deviceId).map DeviceRow.isActive with
      | none =>
        rw [ha] at h
        cases h
        exact .refused _ _
      | some active =>
        rw [ha] at h
        cases active with
        | false =>
          cases h
          exact .refused _ _
        | true =>
          cases h
          exact .looked deviceId _ ha rfl
  | mintAccess userId =>
    simp only [RefreshPhase.step] at h
    split_ifs at h with hfr
    rw [Bool.not_eq_false] at hfr
    split at h
    · cases h
      exact .refused _ _
    · rename_i hcr
      cases h
      exact .mintedAccess userId hfr (canSign_of_create hcr)
  | mintRefresh userId access =>
    simp only [RefreshPhase.step] at h
    split_ifs at h with hfr
    rw [Bool.not_eq_false] at hfr
    split at h
    · cases h
      exact .refused _ _
    · rename_i hcr
      cases h
      exact .mintedRefresh userId access hfr (canSign_of_create hcr)
  | rotate userId access refresh =>
    simp only [RefreshPhase.step] at h
    split_ifs at h with hf hl
    · cases h
      exact .refused _ _
    · cases h
      exact .rotated userId access refresh _ _ (by rintro _ ⟨⟩)
    · cases h
      refine .rotated userId access refresh _ _ fun pair hpa => ?_
      split at hpa
      · cases hpa
      · cases hpa
      · split_ifs at hpa
        cases hpa
        rfl

theorem authenticate_case {deviceId : String} {phase : AuthenticatePhase}
    {result : AuthEnv × CallStep AuthenticatePhase (Except AppError TokenPair)}
    (h : phase.step cfg env input deviceId = some result) : AuthenticateCase cfg env input deviceId phase result := by
  cases phase with
  | blocked signedAt signature =>
    simp only [AuthenticatePhase.step] at h
    split at h
    · cases h
      exact .refused _ _
    · cases h
      exact .unblocked _ _
  | lookup signedAt signature =>
    simp only [AuthenticatePhase.step] at h
    split_ifs at h
    · cases h
      exact .refused _ _
    all_goals
      split at h
      · cases h
        exact .refused _ _
      · split_ifs at h
        all_goals first
          | cases h
            exact .refused _ _
          | split at h
            · cases h
              exact .refused _ _
            · cases h
              exact .looked _ _ _
  | mintAccess userId =>
    simp only [AuthenticatePhase.step] at h
    split_ifs at h with hf
    rw [Bool.not_eq_false] at hf
    split at h
    · cases h
      exact .refused _ _
    · rename_i hcr
      cases h
      exact .mintedAccess userId hf (canSign_of_create hcr)
  | mintRefresh userId access =>
    simp only [AuthenticatePhase.step] at h
    split_ifs at h with hf
    rw [Bool.not_eq_false] at hf
    split at h
    · cases h
      exact .refused _ _
    · rename_i hcr
      cases h
      exact .mintedRefresh userId access hf (canSign_of_create hcr)
  | store userId access refresh phase =>
    simp only [AuthenticatePhase.step] at h
    cases h
    split
    · exact .stored userId access refresh phase _ _
    · exact .returned userId access refresh phase _

theorem deactivate_case (userId : Uuid) (deviceId : String) (phase : DeactivatePhase) :
    DeactivateCase cfg env input userId deviceId phase (phase.step cfg env input userId deviceId) := by
  cases phase with
  | user =>
    simp only [DeactivatePhase.step]
    split_ifs with hok
    · exact .refused _ _
    · rw [not_not] at hok
      split
      · rename_i hno
        exact .kept _ hok (.inl hno)
      · rename_i primaryDeviceId hu
        split_ifs with hp
        · exact .kept _ hok (.inr (hp ▸ hu))
        · exact .found
  | update =>
    simp only [DeactivatePhase.step]
    split_ifs
    · exact .refused _ _
    · exact .updated _ (.inl ⟨_, rfl⟩)
    · exact .updated _ (.inr ⟨_, rfl⟩)
  | mark deactivated =>
    simp only [DeactivatePhase.step]
    split_ifs
    · exact .refused _ _
    all_goals
      split
      · exact .refused _ _
      · rename_i revokedDevices hm
        refine .marked _ _ _ hm ?_
        first
          | exact .inr (.inr ⟨_, rfl⟩)
          | exact .inl rfl
          | exact .inr (.inl ⟨_, rfl⟩)
  | sessions =>
    simp only [DeactivatePhase.step]
    split_ifs
    · exact .refused _ _
    · exact .ended

variable {allDevices : Bool}

theorem logout_case {userId : Uuid} {phase : LogoutPhase}
    {result : AuthEnv × CallStep LogoutPhase (Except AppError Unit)}
    (h : phase.step cfg env input claims userId allDevices = some result) :
    LogoutCase cfg env input claims userId allDevices phase result := by
  cases phase with
  | active deviceId =>
    simp only [LogoutPhase.step] at h
    split_ifs at h with hok ha
    · cases h
      exact .refused _ _
    · cases h
      exact .active _
    · cases h
      exact .inactive deviceId (not_not.mp hok) ha
  | remaining =>
    simp only [LogoutPhase.step] at h
    split_ifs at h with hpo
    · cases h
      exact .lives _ (Int.self_le_toNat _)
    · cases h
      exact .expired _ (by omega) rfl
  | invalidate seconds =>
    simp only [LogoutPhase.step] at h
    split_ifs at h
    · cases h
      exact .refused _ _
    all_goals
      split at h
      · cases h
        exact .refused _ _
      · rename_i invalidated hk
        cases h
        refine .invalidated seconds _ _ hk ?_
        first
          | exact .inl rfl
          | exact .inr ⟨_, rfl⟩
  | revokeAll phase =>
    simp only [LogoutPhase.step] at h
    obtain ⟨⟨store, next⟩, -, rfl⟩ := map_eq_some_iff.mp h
    refine .revokes phase store _ ?_
    cases next with
    | none => exact .inr rfl
    | some next => exact .inl ⟨next, rfl⟩
  | deactivate deviceId phase =>
    have hca := @deactivate_case cfg env input userId deviceId phase
    simp only [LogoutPhase.step] at h
    cases h
    generalize phase.step cfg env input userId deviceId = result at hca
    obtain ⟨env', result⟩ := result
    match result with
    | .next phase' => exact .deactivates deviceId phase phase' env' hca
    | .done (.ok result) => exact .deactivated deviceId phase env' result hca
    | .done (.error e) => exact .failed deviceId phase env' e hca

theorem afterInvalidate_eq_next {phase : LogoutPhase}
    (h : afterInvalidate claims allDevices = .next phase) : allDevices = true ∧ phase = .revokeAll .smembers ∨
      ∃ deviceId, claims.deviceId = some deviceId ∧ phase = .deactivate deviceId .user := by
  unfold afterInvalidate at h
  split_ifs at h with ha
  · cases h
    exact .inl ⟨ha, rfl⟩
  · split at h
    · cases h
    · rename_i deviceId hde
      cases h
      exact .inr ⟨deviceId, (filter_eq_some_iff.mp hde).1, rfl⟩

theorem afterInvalidate_eq_done {result : Except AppError Unit}
    (h : afterInvalidate claims allDevices = .done result) :
    allDevices = false ∧ ∀ deviceId ∈ claims.deviceId, deviceId = "" := by
  unfold afterInvalidate at h
  split_ifs at h with ha
  split at h
  · rename_i hno
    refine ⟨Bool.eq_false_of_not_eq_true ha, fun deviceId hde => ?_⟩
    simpa using filter_eq_none_iff.mp hno deviceId hde
  · cases h

theorem check_next {phase phase' : CheckPhase} (h : phase.step env input claims = .next phase') :
    phase = .invalidated ∧ env.invalidated.get env.now (invalidatedTokenKey claims.jti) = none ∧
      ∃ deviceId, phase' = .device deviceId ∧ claims.deviceId = some deviceId := by
  cases phase with
  | invalidated =>
    simp only [CheckPhase.step] at h
    split_ifs at h with hok hk
    split at h
    · rename_i deviceId hde
      cases h
      exact ⟨rfl, not_isSome_iff_eq_none.mp hk, deviceId, rfl, hde⟩
    · cases h
  | device deviceId =>
    simp only [CheckPhase.step] at h
    split_ifs at h

theorem check_accepts {phase : CheckPhase} (h : phase.step env input claims = .done true) :
    (phase = .invalidated ∧ env.invalidated.get env.now (invalidatedTokenKey claims.jti) = none ∧
      claims.deviceId = none) ∨ ∃ deviceId, phase = .device deviceId ∧
      env.revokedDevices.get env.now (revokedDeviceKey deviceId) = none := by
  cases phase with
  | invalidated =>
    simp only [CheckPhase.step] at h
    split_ifs at h with hok hk
    · cases h
    · cases h
    · split at h
      · cases h
      · rename_i hde
        exact .inl ⟨rfl, not_isSome_iff_eq_none.mp hk, hde⟩
  | device deviceId =>
    simp only [CheckPhase.step] at h
    split_ifs at h with hok hk
    · cases h
    · cases h
    · exact .inr ⟨deviceId, rfl, not_isSome_iff_eq_none.mp hk⟩

end

section

variable {cfg : AuthConfig} {env env' : AuthEnv} {input : StepInput} {claims : Claims}

/-- What a step of any call does to the tables, to Redis and to the tokens. -/
inductive EnvStep (cfg : AuthConfig) (env : AuthEnv) (input : StepInput) : AuthEnv → Prop
  | same : EnvStep cfg env input env
  | mint (kind : TokenKind) (userId : Uuid) (deviceId : Option String)
    (hfresh : env.fresh input = true) (hsign : cfg.manager.canSign = true) :
    EnvStep cfg env input
      { env with minted := newToken cfg env input kind userId deviceId :: env.minted }
  | store (store : TokenStore) : EnvStep cfg env input { env with store }
  | deactivate (deviceId : String) : EnvStep cfg env input (env.deactivateDevice deviceId)
  | mark (deviceId : String) (revokedDevices : Keyspace Unit)
    (hmark : env.revokedDevices.setEx env.now (revokedDeviceKey deviceId) ()
      (accessTokenTtlSecs cfg) = some revokedDevices) :
    EnvStep cfg env input { env with revokedDevices, marks := (deviceId, env.now) :: env.marks }
  | invalidate (jti : String) (seconds : Nat) (invalidated : Keyspace Unit)
    (hkey : env.invalidated.setEx env.now (invalidatedTokenKey jti) () seconds = some invalidated) :
    EnvStep cfg env input { env with invalidated }

theorem RefreshCase.envStep {phase : RefreshPhase}
    {result : AuthEnv × CallStep RefreshPhase (Except AppError TokenPair)}
    (h : RefreshCase cfg env input claims phase result) : EnvStep cfg env input result.1 := by
  cases h with
  | refused | looked => exact .same
  | mintedAccess _ hf hs | mintedRefresh _ _ hf hs => exact .mint _ _ _ hf hs
  | rotated => exact .store _

variable {deviceId : String}

theorem AuthenticateCase.envStep {phase : AuthenticatePhase}
    {result : AuthEnv × CallStep AuthenticatePhase (Except AppError TokenPair)}
    (h : AuthenticateCase cfg env input deviceId phase result) : EnvStep cfg env input result.1 := by
  cases h with
  | refused | unblocked | looked => exact .same
  | mintedAccess _ hf hs | mintedRefresh _ _ hf hs => exact .mint _ _ _ hf hs
  | stored | returned => exact .store _

theorem DeactivateCase.envStep {userId : Uuid} {phase : DeactivatePhase}
    {result : AuthEnv × CallStep DeactivatePhase (Except AppError DeviceDeactivation)}
    (h : DeactivateCase cfg env input userId deviceId phase result) : EnvStep cfg env input result.1 := by
  cases h with
  | refused | kept | found | ended => exact .same
  | updated => exact .deactivate _
  | marked _ _ _ hm => exact .mark _ _ hm

theorem LogoutCase.envStep {userId : Uuid} {allDevices : Bool} {phase : LogoutPhase}
    {result : AuthEnv × CallStep LogoutPhase (Except AppError Unit)}
    (h : LogoutCase cfg env input claims userId allDevices phase result) : EnvStep cfg env input result.1 := by
  cases h with
  | refused | inactive | active | lives | expired => exact .same
  | invalidated _ _ _ hk => exact .invalidate _ _ _ hk
  | revokes => exact .store _
  | deactivates _ _ _ _ hca | deactivated _ _ _ _ hca | failed _ _ _ _ hca => exact hca.envStep

/-- What holds of the tokens and markers in every state. -/
structure EnvInvariant (cfg : AuthConfig) (env : AuthEnv) : Prop where
  minted : ∀ t ∈ env.minted, t.createdAt ≤ env.now ∧ ∃ jti userId deviceId,
    t.claims = cfg.manager.claimsFor t.kind t.createdAt jti userId deviceId ∧
      cfg.manager.create t.kind t.createdAt t.nonce jti userId deviceId =
        some (t.text cfg.manager.lib, jti, t.claims.exp)
  distinct : env.minted.Pairwise fun a b => a.claims.jti ≠ b.claims.jti
  marks : ∀ p ∈ env.marks, p.2 ≤ env.now ∧ ∃ e,
    env.revokedDevices (revokedDeviceKey p.1) = some ⟨(), some e⟩ ∧
      p.2 + accessTokenTtlSecs cfg * 1000 ≤ e

theorem EnvInvariant.step (h : EnvInvariant cfg env) (hst : EnvStep cfg env input env') :
    EnvInvariant cfg env' := by
  cases hst with
  | same => exact h
  | mint kind userId deviceId hf hs =>
    refine ⟨fun t ht => ?_, pairwise_cons.mpr ⟨fun t ht => ?_, h.distinct⟩, h.marks⟩
    · rcases mem_cons.mp ht with rfl | ht
      · refine ⟨le_rfl, input.jti, userId, deviceId, rfl, ?_⟩
        simp only [AuthManager.create, AuthManager.signPaseto, if_pos hs, map_some]
        rfl
      · exact h.minted t ht
    · have hne := all_eq_true.mp hf t ht
      exact (of_decide_eq_true hne).symm
  | store | deactivate | invalidate => exact ⟨h.minted, h.distinct, h.marks⟩
  | mark deviceId revokedDevices hm =>
    obtain ⟨-, -, rfl⟩ := setEx_eq_some_iff.mp hm
    refine ⟨h.minted, h.distinct, fun p hp => ?_⟩
    by_cases hk : revokedDeviceKey p.1 = revokedDeviceKey deviceId
    · -- The marker is written anew, and stays longer than it would have.
      have hn : p.2 ≤ env.now := by
        rcases mem_cons.mp hp with rfl | hp
        · exact le_rfl
        · exact (h.marks p hp).1
      refine ⟨hn, _, ?_, Nat.add_le_add_right hn _⟩
      rw [hk]
      exact set_apply_self
    · rcases mem_cons.mp hp with rfl | hp
      · exact absurd rfl hk
      · obtain ⟨hn, e, he, hle⟩ := h.marks p hp
        exact ⟨hn, e, (set_apply_of_ne hk).trans he, hle⟩

theorem EnvInvariant.tick (h : EnvInvariant cfg env) (ms : Nat) :
    EnvInvariant cfg { env with now := env.now + ms } where
  minted t ht := ⟨Nat.le_add_right_of_le (h.minted t ht).1, (h.minted t ht).2⟩
  distinct := h.distinct
  marks p hp := ⟨Nat.le_add_right_of_le (h.marks p hp).1, (h.marks p hp).2⟩

/-- Tokens and markers are never taken back, and no device becomes active. -/
structure EnvLE (env env' : AuthEnv) : Prop where
  now : env.now ≤ env'.now
  minted : env.minted ⊆ env'.minted
  marks : env.marks ⊆ env'.marks
  inactive : ∀ deviceId, (env.devices deviceId).map DeviceRow.isActive ≠ some true →
    (env'.devices deviceId).map DeviceRow.isActive ≠ some true

theorem not_active_deactivateDevice (env : AuthEnv) (deviceId : String) :
    ((env.deactivateDevice deviceId).devices deviceId).map DeviceRow.isActive ≠ some true := by
  simp [AuthEnv.deactivateDevice]

theorem EnvStep.le (h : EnvStep cfg env input env') : EnvLE env env' := by
  cases h with
  | same | store | invalidate => exact ⟨le_rfl, Subset.refl _, Subset.refl _, fun _ => id⟩
  | mint => exact ⟨le_rfl, subset_cons_self _ _, Subset.refl _, fun _ => id⟩
  | mark => exact ⟨le_rfl, Subset.refl _, subset_cons_self _ _, fun _ => id⟩
  | deactivate deviceId =>
    refine ⟨le_rfl, Subset.refl _, Subset.refl _, fun deviceId' hin => ?_⟩
    by_cases heq : deviceId' = deviceId
    · rw [heq]
      exact not_active_deactivateDevice env deviceId
    · have ho : (env.deactivateDevice deviceId).devices deviceId' = env.devices deviceId' :=
        Function.update_of_ne heq _ _
      rwa [ho]

theorem EnvLE.tick (env : AuthEnv) (ms : Nat) : EnvLE env { env with now := env.now + ms } :=
  ⟨Nat.le_add_right _ _, Subset.refl _, Subset.refl _, fun _ => id⟩

theorem EnvInvariant.marker_isSome (h : EnvInvariant cfg env) {time : Nat}
    (hm : (deviceId, time) ∈ env.marks) {exp : Int}
    (hexp : exp ≤ timestamp time + cfg.manager.ttl .access) (hl : timestamp env.now < exp) :
    (env.revokedDevices.get env.now (revokedDeviceKey deviceId)).isSome := by
  obtain ⟨-, e, he, hle⟩ := h.marks _ hm
  rw [get_of_le he]
  · rfl
  · have ht : cfg.manager.ttl .access ≤ accessTokenTtlSecs cfg := by
      unfold accessTokenTtlSecs
      omega
    unfold timestamp at hexp hl
    omega

end

section

variable {cfg : AuthConfig} {s s' : AuthState} {input : StepInput} {call : AuthCall}
  {next : Option AuthCall}

inductive AdvanceCase (cfg : AuthConfig) (s : AuthState) (input : StepInput) :
    AuthCall → AuthState × Option AuthCall → Prop
  | failed (call : AuthCall) (env : AuthEnv) (henv : EnvStep cfg s.env input env)
    (hminted : env.minted = s.env.minted) (hinvalidated : env.invalidated = s.env.invalidated) :
    AdvanceCase cfg s input call ({ s with env }, none)
  | refreshes (before : Before) (claims : Claims) (phase phase' : RefreshPhase) (env : AuthEnv)
    (hcase : RefreshCase cfg s.env input claims phase (env, .next phase')) :
    AdvanceCase cfg s input (.refresh before claims phase)
      ({ s with env }, some (.refresh before claims phase'))
  | refreshed (before : Before) (claims : Claims) (phase : RefreshPhase) (env : AuthEnv)
    (pair : TokenPair) (hcase : RefreshCase cfg s.env input claims phase (env, .done (.ok pair))) :
    AdvanceCase cfg s input (.refresh before claims phase)
      ({ s with
        env, sessions := pair :: s.sessions, refreshed := (before, claims) :: s.refreshed }, none)
  | authenticates (deviceId : String) (phase phase' : AuthenticatePhase) (env : AuthEnv)
    (hcase : AuthenticateCase cfg s.env input deviceId phase (env, .next phase')) :
    AdvanceCase cfg s input (.authenticate deviceId phase)
      ({ s with env }, some (.authenticate deviceId phase'))
  | authenticated (deviceId : String) (phase : AuthenticatePhase) (env : AuthEnv) (pair : TokenPair)
    (hcase : AuthenticateCase cfg s.env input deviceId phase (env, .done (.ok pair))) :
    AdvanceCase cfg s input (.authenticate deviceId phase)
      ({ s with env, sessions := pair :: s.sessions }, none)
  | deactivates (userId : Uuid) (deviceId : String) (phase phase' : DeactivatePhase) (env : AuthEnv)
    (hcase : DeactivateCase cfg s.env input userId deviceId phase (env, .next phase')) :
    AdvanceCase cfg s input (.deactivate userId deviceId phase)
      ({ s with env }, some (.deactivate userId deviceId phase'))
  | deactivated (userId : Uuid) (deviceId : String) (phase : DeactivatePhase) (env : AuthEnv)
    (result : DeviceDeactivation)
    (hcase : DeactivateCase cfg s.env input userId deviceId phase (env, .done (.ok result))) :
    AdvanceCase cfg s input (.deactivate userId deviceId phase)
      ({ s with env, answered.revoked := deviceId :: s.answered.revoked }, none)
  | logsOut (claims : Claims) (userId : Uuid) (allDevices : Bool) (phase phase' : LogoutPhase)
    (env : AuthEnv)
    (hcase : LogoutCase cfg s.env input claims userId allDevices phase (env, .next phase')) :
    AdvanceCase cfg s input (.logout claims userId allDevices phase)
      ({ s with env }, some (.logout claims userId allDevices phase'))
  | logoutFailed (claims : Claims) (userId : Uuid) (allDevices : Bool) (phase : LogoutPhase)
    (env : AuthEnv) (e : AppError)
    (hcase : LogoutCase cfg s.env input claims userId allDevices phase (env, .done (.error e))) :
    AdvanceCase cfg s input (.logout claims userId allDevices phase) ({ s with env }, none)
  | loggedOut (claims : Claims) (userId : Uuid) (allDevices : Bool) (phase : LogoutPhase)
    (env : AuthEnv) (answered : Before)
    (hanswered : answered = ⟨match phase with
      | .deactivate deviceId _ => deviceId :: s.answered.revoked
      | _ => s.answered.revoked,
      if allDevices then s.answered.loggedOut else claims :: s.answered.loggedOut⟩)
    (hcase : LogoutCase cfg s.env input claims userId allDevices phase (env, .done (.ok ()))) :
    AdvanceCase cfg s input (.logout claims userId allDevices phase)
      ({ s with env, answered }, none)
  | checks (before : Before) (claims : Claims) (phase phase' : CheckPhase)
    (hphase : phase.step s.env input claims = .next phase') :
    AdvanceCase cfg s input (.check before claims phase) (s, some (.check before claims phase'))
  | accepts (before : Before) (claims : Claims) (phase : CheckPhase)
    (hphase : phase.step s.env input claims = .done true) :
    AdvanceCase cfg s input (.check before claims phase)
      ({ s with accepted := (before, claims) :: s.accepted }, none)

theorem minted_logout {claims : Claims} {userId : Uuid} {allDevices : Bool}
    {phase : LogoutPhase} {env : AuthEnv} {result : CallStep LogoutPhase (Except AppError Unit)}
    (h : LogoutCase cfg s.env input claims userId allDevices phase (env, result)) : env.minted = s.env.minted := by
  cases h with
  | deactivates _ _ _ _ hca | deactivated _ _ _ _ hca | failed _ _ _ _ hca =>
    cases hca <;> rfl
  | _ => rfl

theorem advance_case (h : s.advance cfg input call = some (s', next)) :
    AdvanceCase cfg s input call (s', next) := by
  cases call with
  | refresh before claims phase =>
    obtain ⟨⟨env, result⟩, hp, hr⟩ := map_eq_some_iff.mp h
    have hca := refresh_case hp
    match result, hr with
    | .next phase', hr =>
      cases hr
      exact .refreshes before claims phase phase' env hca
    | .done (.ok pair), hr =>
      cases hr
      exact .refreshed before claims phase env pair hca
    | .done (.error e), hr =>
      cases hr
      exact .failed _ env hca.envStep (by cases hca <;> rfl) (by cases hca <;> rfl)
  | authenticate deviceId phase =>
    obtain ⟨⟨env, result⟩, hp, hr⟩ := map_eq_some_iff.mp h
    have hca := authenticate_case hp
    match result, hr with
    | .next phase', hr =>
      cases hr
      exact .authenticates deviceId phase phase' env hca
    | .done (.ok pair), hr =>
      cases hr
      exact .authenticated deviceId phase env pair hca
    | .done (.error e), hr =>
      cases hr
      exact .failed _ env hca.envStep (by cases hca; rfl) (by cases hca; rfl)
  | deactivate userId deviceId phase =>
    have hca := @deactivate_case cfg s.env input userId deviceId phase
    simp only [AuthState.advance] at h
    generalize phase.step cfg s.env input userId deviceId = result at h hca
    obtain ⟨env, result⟩ := result
    match result, h with
    | .next phase', h =>
      cases h
      exact .deactivates userId deviceId phase phase' env hca
    | .done (.ok result), h =>
      cases h
      exact .deactivated userId deviceId phase env result hca
    | .done (.error e), h =>
      cases h
      exact .failed _ env hca.envStep (by cases hca <;> rfl) (by cases hca <;> rfl)
  | logout claims userId allDevices phase =>
    obtain ⟨⟨env, result⟩, hp, hr⟩ := map_eq_some_iff.mp h
    have hca := logout_case hp
    match result, hr with
    | .next phase', hr =>
      cases hr
      exact .logsOut claims userId allDevices phase phase' env hca
    | .done (.ok _), hr =>
      cases hr
      exact .loggedOut claims userId allDevices phase env _ rfl hca
    | .done (.error e), hr =>
      cases hr
      exact .logoutFailed claims userId allDevices phase env e hca
  | check before claims phase =>
    simp only [AuthState.advance] at h
    split at h
    · rename_i phase' hp
      cases h
      exact .checks before claims phase phase' hp
    · rename_i hp
      cases h
      exact .accepts before claims phase hp
    · cases h
      exact .failed _ s.env .same rfl rfl

theorem AdvanceCase.envStep (h : AdvanceCase cfg s input call (s', next)) :
    EnvStep cfg s.env input s'.env := by
  cases h with
  | failed _ _ he => exact he
  | refreshes _ _ _ _ _ hca | refreshed _ _ _ _ _ hca => exact hca.envStep
  | authenticates _ _ _ _ hca | authenticated _ _ _ _ hca => exact hca.envStep
  | deactivates _ _ _ _ _ hca | deactivated _ _ _ _ _ hca => exact hca.envStep
  | logsOut _ _ _ _ _ _ hca | logoutFailed _ _ _ _ _ _ hca => exact hca.envStep
  | loggedOut _ _ _ _ _ _ _ hca => exact hca.envStep
  | checks | accepts => exact .same

theorem AdvanceCase.running_eq (h : AdvanceCase cfg s input call (s', next)) : s'.running = s.running := by
  cases h <;> rfl

def FirstRefresh (claims : Claims) : RefreshPhase → Prop
  | .lookup deviceId => claims.deviceId = some deviceId
  | .mintAccess _ => claims.deviceId = none
  | _ => False

def FirstLogout (claims : Claims) : LogoutPhase → Prop
  | .active deviceId => claims.deviceId = some deviceId
  | .remaining => claims.deviceId = none
  | _ => False

inductive StepCase (cfg : AuthConfig) (s : AuthState) : AuthAction → AuthState → Prop
  | tick (ms : Nat) : StepCase cfg s (.tick ms) { s with env.now := s.env.now + ms }
  | refused (a : AuthAction) : StepCase cfg s a s
  | refresh (token : Text) (claims : Claims) (phase : RefreshPhase)
    (hfirst : FirstRefresh claims phase) :
    StepCase cfg s (.refresh token)
      { s with running := s.running ++ [.refresh s.answered claims phase] }
  | authenticate (deviceId : String) (signedAt : Int64) (signature : Bytes) :
    StepCase cfg s (.authenticate deviceId signedAt signature)
      { s with running := s.running ++ [.authenticate deviceId (.blocked signedAt signature)] }
  | deactivate (userId : Uuid) (deviceId : String) :
    StepCase cfg s (.deactivate userId deviceId)
      { s with running := s.running ++ [.deactivate userId deviceId .user] }
  | logout (token : Text) (allDevices : Bool) (claims : Claims) (userId : Uuid) (phase : LogoutPhase)
    (hverify : cfg.manager.verifyToken s.env.now token = .ok claims)
    (hfirst : FirstLogout claims phase) :
    StepCase cfg s (.logout token allDevices)
      { s with running := s.running ++ [.logout claims userId allDevices phase] }
  | check (metadata : Metadata) (claims : Claims)
    (hverify : verifyAccessToken cfg.manager s.env.now metadata = .ok claims) :
    StepCase cfg s (.check metadata)
      { s with running := s.running ++ [.check s.answered claims .invalidated] }
  | step (i : Nat) (input : StepInput) (call : AuthCall) (s' : AuthState) (next : Option AuthCall)
    (hcall : s.running[i]? = some call) (hcase : AdvanceCase cfg s input call (s', next)) :
    StepCase cfg s (.step i input) { s' with running := Machine.replace s'.running i next }

theorem refresh_stepCase {token : Text} (h : s.step cfg (.refresh token) = some s') :
    StepCase cfg s (.refresh token) s' := by
  simp only [AuthState.step] at h
  split at h
  · cases h
    exact .refused _
  · rename_i claims result hst
    simp only [refreshStart] at hst
    split at hst
    · cases hst
    · cases hst
      split at h
      · rename_i deviceId hde
        cases h
        exact .refresh token claims _ hde
      · rename_i hde
        unfold afterLookup at h
        split at h
        · cases h
          simp only [AuthState.refreshNext, toList_none, append_nil]
          exact .refused _
        · cases h
          exact .refresh token claims _ hde

theorem logout_stepCase {token : Text} {allDevices : Bool}
    (h : s.step cfg (.logout token allDevices) = some s') : StepCase cfg s (.logout token allDevices) s' := by
  simp only [AuthState.step] at h
  split at h
  · cases h
    exact .refused _
  · rename_i claims userId phase hst
    cases h
    simp only [logoutStart] at hst
    split_ifs at hst
    split at hst
    · cases hst
    · rename_i claims' hv
      split at hst
      · cases hst
      · cases hst
        refine .logout token allDevices claims userId _ hv ?_
        split
        · assumption
        · assumption

theorem step_case {a : AuthAction} (h : s.step cfg a = some s') : StepCase cfg s a s' := by
  cases a with
  | tick ms =>
    cases h
    exact .tick ms
  | refresh token => exact refresh_stepCase h
  | authenticate deviceId signedAt signature =>
    simp only [AuthState.step, authenticateStart, Freshness.checkAge] at h
    split_ifs at h
    · cases h
      exact .refused _
    · cases h
      exact .authenticate deviceId signedAt signature
  | deactivate userId deviceId =>
    cases h
    exact .deactivate userId deviceId
  | logout token allDevices => exact logout_stepCase h
  | check metadata =>
    simp only [AuthState.step] at h
    split at h
    · cases h
      exact .refused _
    · rename_i claims userId hst
      cases h
      simp only [checkStart] at hst
      split at hst
      · cases hst
      · rename_i claims' hv
        obtain ⟨userId', -, heq⟩ := map_eq_some_iff.mp hst
        cases heq
        exact .check metadata claims hv
  | step i input =>
    simp only [AuthState.step] at h
    split at h
    · cases h
    · rename_i call hca
      obtain ⟨⟨s'', next⟩, ha, rfl⟩ := map_eq_some_iff.mp h
      exact .step i input call s'' next hca (advance_case ha)

theorem env_step {a : AuthAction} (h : s.step cfg a = some s') :
    (∃ ms, s'.env = { s.env with now := s.env.now + ms }) ∨
      ∃ input, EnvStep cfg s.env input s'.env := by
  cases step_case h with
  | tick ms => exact .inl ⟨ms, rfl⟩
  | step i input call s'' next hcal hca => exact .inr ⟨input, hca.envStep⟩
  | refused | refresh | authenticate | deactivate | logout | check => exact .inl ⟨0, rfl⟩

theorem EnvInvariant.of_step {a : AuthAction} (h : EnvInvariant cfg s.env)
    (hst : s.step cfg a = some s') : EnvInvariant cfg s'.env := by
  rcases env_step hst with ⟨ms, he⟩ | ⟨input, he⟩
  · rw [he]
    exact h.tick ms
  · exact h.step he

theorem envInvariant_init (devices : String → Option DeviceRow) (users : Uuid → Option (Option String)) :
    EnvInvariant cfg (AuthState.init devices users).env where
  minted := by rintro _ ⟨⟩
  distinct := .nil
  marks := by rintro _ ⟨⟩

theorem EnvInvariant.of_run {as : List AuthAction} {devices : String → Option DeviceRow}
    {users : Uuid → Option (Option String)}
    (hru : run (AuthState.step cfg) (.init devices users) as = some s) : EnvInvariant cfg s.env :=
  run_invariant (P := fun s => EnvInvariant cfg s.env) (G := fun _ _ => True)
    (fun h _ hst => h.of_step hst) (envInvariant_init devices users)
    (along_of_forall fun _ _ => trivial) hru

end

section

def demoConfig : AuthConfig := ⟨⟨plainLib, true, 1, 30, "construct"⟩, fun _ _ _ => true⟩

def demoUser : Uuid := ⟨replicate 32 Uuid.zeroDigit, rfl⟩

def demoDevices (deviceId : String) : Option DeviceRow :=
  if deviceId = "phone" ∨ deviceId = "tablet" then some ⟨some demoUser, [], true⟩ else none

def demoUsers (userId : Uuid) : Option (Option String) :=
  if userId = demoUser then some (some "phone") else none

def demoNonce : Nonce := ⟨replicate 32 0, rfl⟩

def demoStep (jti : String) : AuthAction := .step 0 ⟨.ok, jti, demoNonce, none⟩

def demoToken (kind : TokenKind) (jti deviceId : String) : Minted :=
  ⟨kind, demoConfig.manager.claimsFor kind 0 jti demoUser (some deviceId), demoNonce, 0⟩

def demoText (kind : TokenKind) (jti deviceId : String) : Text :=
  (demoToken kind jti deviceId).text plainLib

def demoSignIn (deviceId : String) : List AuthAction :=
  [.authenticate deviceId 0 (replicate 64 0), demoStep "", demoStep "", demoStep "access",
    demoStep "refresh", demoStep "", demoStep "", demoStep ""]

def demoBearer (text : Text) : Metadata := ⟨some (bearer ++ text), none, none⟩

end

end ConstructServer.Auth
