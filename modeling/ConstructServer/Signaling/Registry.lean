import Mathlib.Data.List.Perm.Basic
import ConstructServer.Library.RedisKeys
import ConstructServer.Library.Service

/-!
# The call registry

Every instance of the signaling service keeps the calls that it has seen, the call that each user is
in and the streams that are open on it in maps of its own; Redis has a hash for each call, a pointer
for each user who is in one, the set of the calls and a key for each device that is online. The maps
of an instance shadow Redis: a call is looked up there first. Each access to a map is atomic under
its lock, and so is each Redis command; the commands of a pipeline are not executed as one.
-/

namespace ConstructServer.Signaling

open Redis Calls Function

/-! ### Calls -/

/-- Times are in seconds or, where the name says so, in milliseconds. -/
structure CallState where
  callId : String
  callerUserId : String
  calleeUserId : String
  callerDeviceId : String
  acceptedCalleeDeviceId : Option String
  createdAt : Nat
  offeredAtMs : Nat
  ringingAtMs : Option Nat
  answeredAtMs : Option Nat
  callerLastKeepaliveAt : Nat
  calleeLastKeepaliveAt : Nat

inductive CallRole
  | caller
  | callee
deriving DecidableEq

def CallState.roleOf (state : CallState) (userId : String) : Option CallRole :=
  if state.callerUserId = userId then some .caller
  else if state.calleeUserId = userId then some .callee
  else none

/-- The fields of `call:{id}` that are read. The texts of the numbers are typed here: a text that is
empty or that is not there is no number. -/
structure CallHash where
  callerUserId : Option String
  calleeUserId : Option String
  callerDeviceId : Option String
  acceptedCalleeDeviceId : Option String
  createdAtS : Option Nat
  offeredAtMs : Option Nat
  ringingAtMs : Option Nat
  answeredAtMs : Option Nat
  callerLastKeepaliveAtS : Option Nat
  calleeLastKeepaliveAtS : Option Nat

def CallHash.empty : CallHash := ⟨none, none, none, none, none, none, none, none, none, none⟩

/-- A field and its new value. -/
inductive CallField
  | callerUserId (id : String)
  | calleeUserId (id : String)
  | callerDeviceId (id : String)
  | acceptedCalleeDeviceId (id : String)
  | createdAtS (time : Nat)
  | offeredAtMs (time : Nat)
  | ringingAtMs (time : Option Nat)
  | answeredAtMs (time : Option Nat)
  | callerLastKeepaliveAtS (time : Nat)
  | calleeLastKeepaliveAtS (time : Nat)
  | metadata

def CallHash.write (hash : CallHash) : CallField → CallHash
  | .callerUserId id => { hash with callerUserId := some id }
  | .calleeUserId id => { hash with calleeUserId := some id }
  | .callerDeviceId id => { hash with callerDeviceId := some id }
  | .acceptedCalleeDeviceId id => { hash with acceptedCalleeDeviceId := some id }
  | .createdAtS time => { hash with createdAtS := some time }
  | .offeredAtMs time => { hash with offeredAtMs := some time }
  | .ringingAtMs time => { hash with ringingAtMs := time }
  | .answeredAtMs time => { hash with answeredAtMs := time }
  | .callerLastKeepaliveAtS time => { hash with callerLastKeepaliveAtS := some time }
  | .calleeLastKeepaliveAtS time => { hash with calleeLastKeepaliveAtS := some time }
  | .metadata => hash

/-! ### Signals -/

inductive HangupReason
  | declined
  | timeout
  | connectionFailed
  | other (code : Nat)
deriving DecidableEq

/-- The payload of a signal; of the session descriptions and candidates only the kind matters here.
-/
inductive SignalKind
  | offer
  | answer
  | iceCandidate
  | iceCandidates
  | mediaUpdate
  | ringing
  | connected
  | busy
  | hangup (reason : HangupReason)
deriving DecidableEq

structure WebRtcSignal where
  callId : String
  signal : Option SignalKind
  senderDeviceId : String

inductive SignalErrorCode
  | calleeOffline

inductive ForwardedSignal
  | signal (s : WebRtcSignal)
  | incomingCall (callId callerId : String)
  | error (code : SignalErrorCode) (message : String)

/-! ### Statements -/

/-- The gates of a new call that do not look at the registry: the database and the rate limits. -/
inductive Gate
  | mutualContacts
  | blocked
  | callRate
  | peerRate
  | declineCooldown

inductive RedisCommand (ι : Type)
  | hset (callId : String) (fields : List CallField)
  | expireCall (callId : String)
  | delCall (callId : String)
  | hgetall (callId : String)
  | existsCall (callId : String)
  /-- `SETEX user:{user}:active_call 300 {call}`. -/
  | setPointer (userId callId : String)
  | getPointer (userId : String)
  | delPointer (userId : String)
  | sadd (callId : String)
  | expireSet
  | srem (callId : String)
  | smembers
  /-- `SETEX signaling:online:{user}:{device} 90 {instance}`. -/
  | setOnline (userId deviceId : String) (i : ι)
  | getOnline (userId deviceId : String)
  | scanOnline (userId : String)
  /-- `SET signaling:cleanup_lock {instance} NX EX 4`. -/
  | lock
  | publish (i : ι) (userId : String) (deviceId : Option String) (signal : ForwardedSignal)
  | gate (gate : Gate) (callerId calleeId : String)
  | setDeclineCooldown (callerId calleeId : String)

abbrev RedisCommand.Reply {ι : Type} : RedisCommand ι → Type
  | .hgetall _ => CallHash
  | .existsCall _ | .lock | .gate .. => Bool
  | .getPointer _ => Option String
  | .smembers => List String
  | .getOnline .. => Option ι
  | .scanOnline _ => List (String × ι)
  | _ => Unit

/-- An access to the maps of an instance. -/
inductive MapAccess
  | getCall (callId : String)
  | insertCall (callId : String) (state : CallState)
  | removeCall (callId : String)
  | getActive (userId : String)
  | insertActive (userIds : List String) (callId : String)
  | removeActive (userIds : List String)
  | register (userId deviceId : String)
  | subscribe (channel : Nat)
  | hangUp (channel : Nat)
  | sendLocal (userId : String) (deviceId : Option String) (signal : ForwardedSignal)
  | sendLocalExcept (userId exceptDeviceId : String) (signal : ForwardedSignal)

abbrev MapAccess.Reply : MapAccess → Type
  | .getCall _ | .removeCall _ => Option CallState
  | .getActive _ => Option String
  | .register .. | .sendLocal .. | .sendLocalExcept .. => Nat
  | _ => Unit

inductive SigStatement (ι : Type)
  /-- In milliseconds. -/
  | clock
  | map (i : ι) (access : MapAccess)
  | redis (command : RedisCommand ι)
  | unregister (i : ι) (userId deviceId : String)

/-- Redis may stay without a reply; the maps do not. -/
abbrev SigStatement.Answer {ι : Type} : SigStatement ι → Type
  | .clock => Nat
  | .map _ access => access.Reply
  | .redis command => Option command.Reply
  | .unregister .. => Unit

/-- What a statement picks: the order of a set or of a map, or the answer of a gate. -/
inductive SigPick (ι : Type)
  | none
  | ids (order : List String)
  | devices (order : List (String × ι))
  | channels (order : List (String × Nat))
  | passes (answer : Bool)

/-! ### States -/

/-- The maps of an instance. -/
structure Memory where
  calls : String → Option CallState
  activeCalls : String → Option String
  channels : String → List (String × Nat)

def Memory.empty : Memory := ⟨fun _ => none, fun _ => none, fun _ => []⟩

structure OnlineKey (ι : Type) where
  userId : String
  deviceId : String
  cell : Cell ι

structure SigState (ι : Type) where
  /-- In milliseconds, the same for all. -/
  now : Nat
  memory : ι → Memory
  hashes : Keyspace CallHash
  pointers : Keyspace String
  activeSet : Keyspace (Finset String)
  online : List (OnlineKey ι)
  cleanupLock : Keyspace Unit
  nextChannel : Nat
  receivers : List Nat
  delivered : List (Nat × ForwardedSignal)

def SigState.start {ι : Type} (now : Nat) : SigState ι :=
  ⟨now, fun _ => .empty, .empty, .empty, .empty, [], .empty, 0, [], []⟩

def SigState.tick {ι : Type} (ms : Nat) (s : SigState ι) : SigState ι := { s with now := s.now + ms }

def callKey (callId : String) : String := "call:" ++ callId

def activeCallKey (userId : String) : String := "user:" ++ userId ++ ":active_call"

def activeCallsSetKey : String := "signaling:active_calls"

def cleanupLockKey : String := "signaling:cleanup_lock"

def maxSignalDestinations : Nat := 5

/-- The sends to the channels of a user in the order of the map, up to the cap: what is delivered.
-/
def fanOut (receivers : List Nat) (deviceId : Option String) (signal : ForwardedSignal) :
    List (String × Nat) → Nat → List (Nat × ForwardedSignal)
  | [], _ => []
  | (device, channel) :: channels, sent =>
    if ∃ d ∈ deviceId, device ≠ d then fanOut receivers deviceId signal channels sent
    else if maxSignalDestinations ≤ sent then []
    else if channel ∈ receivers then
      (channel, signal) :: fanOut receivers deviceId signal channels (sent + 1)
    else fanOut receivers deviceId signal channels sent

section

variable {ι : Type} [DecidableEq ι]

def SigState.setMemory (s : SigState ι) (i : ι) (m : Memory) : SigState ι :=
  { s with memory := update s.memory i m }

def MapAccess.effect (i : ι) (q : MapAccess) (pick : SigPick ι) (s : SigState ι) :
    Option (q.Reply × SigState ι) :=
  let m := s.memory i
  match q, pick with
  | .getCall callId, _ => some (m.calls callId, s)
  | .insertCall callId state, _ =>
    some ((), s.setMemory i { m with calls := update m.calls callId (some state) })
  | .removeCall callId, _ =>
    some (m.calls callId, s.setMemory i { m with calls := update m.calls callId none })
  | .getActive userId, _ => some (m.activeCalls userId, s)
  | .insertActive userIds callId, _ =>
    some ((), s.setMemory i { m with
      activeCalls := fun u => if u ∈ userIds then some callId else m.activeCalls u })
  | .removeActive userIds, _ =>
    some ((), s.setMemory i { m with
      activeCalls := fun u => if u ∈ userIds then none else m.activeCalls u })
  | .register userId deviceId, _ =>
    some (s.nextChannel, { s.setMemory i { m with
      channels := update m.channels userId
        ((deviceId, s.nextChannel) :: (m.channels userId).filter (·.1 ≠ deviceId)) } with
      nextChannel := s.nextChannel + 1 })
  | .subscribe channel, _ => some ((), { s with receivers := channel :: s.receivers })
  | .hangUp channel, _ => some ((), { s with receivers := s.receivers.filter (· ≠ channel) })
  | .sendLocal userId deviceId signal, .channels order =>
    if order.Perm (m.channels userId) then
      let sent := fanOut s.receivers deviceId signal order 0
      some (sent.length, { s with delivered := sent ++ s.delivered })
    else none
  | .sendLocalExcept userId exceptDeviceId signal, _ =>
    let sent := ((m.channels userId).filter fun p => p.1 ≠ exceptDeviceId ∧ p.2 ∈ s.receivers).map
      fun p => (p.2, signal)
    some (sent.length, { s with delivered := sent ++ s.delivered })
  | .sendLocal .., _ => none

def SigState.onlineDevices (s : SigState ι) (userId : String) : List (String × ι) :=
  (s.online.filter fun k => k.userId = userId ∧ k.cell.live s.now).map fun k => (k.deviceId, k.cell.value)

def SigState.delOnline (s : SigState ι) (userId deviceId : String) : SigState ι :=
  { s with online := s.online.filter fun k => k.userId ≠ userId ∨ k.deviceId ≠ deviceId }

def RedisCommand.effect (q : RedisCommand ι) (pick : SigPick ι) (s : SigState ι) :
    Option (q.Reply × SigState ι) :=
  match q, pick with
  | .hset callId fields, _ =>
    some ((), { s with
      hashes := s.hashes.modify s.now (callKey callId) .empty fun hash => fields.foldl .write hash })
  | .expireCall callId, _ =>
    (s.hashes.expire s.now (callKey callId) 300).map fun hashes => ((), { s with hashes })
  | .delCall callId, _ => some ((), { s with hashes := s.hashes.del (callKey callId) })
  | .hgetall callId, _ => some ((s.hashes.get s.now (callKey callId)).getD .empty, s)
  | .existsCall callId, _ => some ((s.hashes.get s.now (callKey callId)).isSome, s)
  | .setPointer userId callId, _ =>
    some ((), { s with pointers := s.pointers.set s.now (activeCallKey userId) callId (some 300) })
  | .getPointer userId, _ => some (s.pointers.get s.now (activeCallKey userId), s)
  | .delPointer userId, _ => some ((), { s with pointers := s.pointers.del (activeCallKey userId) })
  | .sadd callId, _ =>
    some ((), { s with activeSet := s.activeSet.sadd s.now activeCallsSetKey callId })
  | .expireSet, _ =>
    (s.activeSet.expire s.now activeCallsSetKey 300).map fun activeSet => ((), { s with activeSet })
  | .srem callId, _ =>
    some ((), { s with
      activeSet := s.activeSet.modify s.now activeCallsSetKey ∅ fun ids => ids.erase callId })
  | .smembers, .ids order =>
    if order.Nodup ∧ order.toFinset = s.activeSet.smembers s.now activeCallsSetKey then some (order, s)
    else none
  | .setOnline userId deviceId i, _ =>
    some ((), { s.delOnline userId deviceId with
      online := ⟨userId, deviceId, ⟨i, some (s.now + 90 * 1000)⟩⟩ :: (s.delOnline userId deviceId).online })
  | .getOnline userId deviceId, _ =>
    some (((s.onlineDevices userId).find? (·.1 = deviceId)).map Prod.snd, s)
  | .scanOnline userId, .devices order =>
    if order.Perm (s.onlineDevices userId) then some (order, s) else none
  | .lock, _ =>
    let (cleanupLock, acquired) := s.cleanupLock.setNX s.now cleanupLockKey () (some 4)
    some (acquired, { s with cleanupLock })
  | .publish .., _ => some ((), s)
  | .gate .., .passes answer => some (answer, s)
  | .setDeclineCooldown .., _ => some ((), s)
  | .smembers, _ | .scanOnline _, _ | .gate .., _ => none

def SigState.unregister (i : ι) (userId deviceId : String) (failed : Bool) (s : SigState ι) : SigState ι :=
  let m := s.memory i
  if m.channels userId = [] then s
  else
    let t := s.setMemory i { m with
      channels := update m.channels userId ((m.channels userId).filter (·.1 ≠ deviceId)) }
    if failed then t else t.delOnline userId deviceId

def SigState.exec (q : SigStatement ι) (input : Input (SigPick ι)) (s : SigState ι) :
    Option (q.Answer × SigState ι) :=
  match q with
  | .clock => some (s.now, s)
  | .map i access => access.effect i input.choice s
  | .redis command => fallible RedisCommand.effect command input s
  | .unregister i userId deviceId =>
    some ((), s.unregister i userId deviceId (input.outcome = .failed))

end

/-! ### The functions of the registry -/

section

variable {ι : Type}

abbrev Sig (ι α : Type) : Type := Program (SigStatement ι) SigStatement.Answer α

def map (i : ι) (access : MapAccess) : Sig ι access.Reply :=
  .ask (.map i access) .done

def redis (command : RedisCommand ι) : Sig ι (Option command.Reply) :=
  .ask (.redis command) .done

def unixMillis : Sig ι Nat :=
  .ask .clock .done

def unixSeconds : Sig ι Nat := do
  let now ← unixMillis
  pure (now / 1000)

def pipe (command : RedisCommand ι) : Sig ι Unit := do
  let _ ← redis command

def createCall (i : ι) (callId callerUserId callerDeviceId calleeUserId : String) (offeredAtMs : Nat) :
    Sig ι Unit := do
  let now ← unixSeconds
  map i (.insertCall callId
    ⟨callId, callerUserId, calleeUserId, callerDeviceId, none, now, offeredAtMs, none, none, now, now⟩)
  map i (.insertActive [callerUserId, calleeUserId] callId)
  pipe (.hset callId [.callerUserId callerUserId, .callerDeviceId callerDeviceId,
    .calleeUserId calleeUserId, .acceptedCalleeDeviceId "", .metadata, .createdAtS now,
    .offeredAtMs offeredAtMs, .ringingAtMs none, .answeredAtMs none, .callerLastKeepaliveAtS now,
    .calleeLastKeepaliveAtS now])
  pipe (.expireCall callId)
  pipe (.setPointer callerUserId callId)
  pipe (.setPointer calleeUserId callId)
  pipe (.sadd callId)
  pipe .expireSet

def storeCallMetadata (callId : String) : Sig ι Unit := do
  pipe (.hset callId [.metadata])
  pipe (.expireCall callId)

def removeCall (i : ι) (callId : String) : Sig ι Unit := do
  let state ← map i (.removeCall callId)
  match state with
  | none => pure ()
  | some state => do
    map i (.removeActive [state.callerUserId, state.calleeUserId])
    pipe (.delCall callId)
    pipe (.delPointer state.callerUserId)
    pipe (.delPointer state.calleeUserId)
    pipe (.srem callId)

def orNow (stored : Option Nat) (now : Sig ι Nat) : Sig ι Nat :=
  match stored with
  | some time => pure time
  | none => now

def CallHash.toState (hash : CallHash) (callId callerUserId calleeUserId callerDeviceId : String)
    (createdAt offeredAtMs : Nat) : CallState where
  callId := callId
  callerUserId := callerUserId
  calleeUserId := calleeUserId
  callerDeviceId := callerDeviceId
  acceptedCalleeDeviceId := hash.acceptedCalleeDeviceId.filter (· ≠ "")
  createdAt := createdAt
  offeredAtMs := offeredAtMs
  ringingAtMs := hash.ringingAtMs
  answeredAtMs := hash.answeredAtMs
  callerLastKeepaliveAt := hash.callerLastKeepaliveAtS.getD createdAt
  calleeLastKeepaliveAt := hash.calleeLastKeepaliveAtS.getD createdAt

def insertLoaded (i : ι) (callId : String) (hash : CallHash) : Sig ι (Option CallState) :=
  match hash.callerUserId, hash.calleeUserId, hash.callerDeviceId with
  | some callerUserId, some calleeUserId, some callerDeviceId => do
    let createdAt ← orNow hash.createdAtS unixSeconds
    let offeredAtMs ← orNow hash.offeredAtMs unixMillis
    let state := hash.toState callId callerUserId calleeUserId callerDeviceId createdAt offeredAtMs
    map i (.insertCall callId state)
    pure (some state)
  | _, _, _ => pure none

def loadMissing (i : ι) (callId : String) (cached : Option CallState) : Sig ι (Option CallState) :=
  match cached with
  | some state => pure (some state)
  | none => do
    let hash ← redis (.hgetall callId)
    match hash with
    | none => pure none
    | some hash => insertLoaded i callId hash

def loadCallState (i : ι) (callId : String) : Sig ι (Option CallState) := do
  let cached ← map i (.getCall callId)
  loadMissing i callId cached

def callExistsInRedis (callId : String) : Sig ι Bool := do
  let found ← redis (.existsCall callId)
  pure (found.getD false)

def getUserCall (i : ι) (userId : String) : Sig ι (Option String) := do
  let active ← map i (.getActive userId)
  match active with
  | some callId => do
    let found ← callExistsInRedis callId
    if found then pure (some callId)
    else do
      removeCall i callId
      pure none
  | none => do
    let pointer ← redis (.getPointer userId)
    match pointer.join with
    | none => pure none
    | some callId => do
      let found ← callExistsInRedis callId
      if found then do
        map i (.insertActive [userId] callId)
        pure (some callId)
      else do
        pipe (.delPointer userId)
        pure none

def isUserBusy (i : ι) (userId : String) : Sig ι Bool := do
  let call ← getUserCall i userId
  pure call.isSome

/-- What a keepalive leaves behind: the field of Redis and the new copy. -/
def CallState.keepalive (state : CallState) (userId : String) (now : Nat) :
    Option (CallField × CallState) :=
  match state.roleOf userId with
  | some .caller => some (.callerLastKeepaliveAtS now, { state with callerLastKeepaliveAt := now })
  | some .callee => some (.calleeLastKeepaliveAtS now, { state with calleeLastKeepaliveAt := now })
  | none => none

def noteKeepalive (i : ι) (userId : String) : Sig ι Unit := do
  let call ← getUserCall i userId
  match call with
  | none => pure ()
  | some callId => do
    let now ← unixSeconds
    let loaded ← loadCallState i callId
    match loaded.bind (·.keepalive userId now) with
    | none => pure ()
    | some (field, state) => do
      pipe (.hset callId [field])
      pipe (.expireCall callId)
      map i (.insertCall callId state)

def noteRinging (i : ι) (callId : String) : Sig ι Unit := do
  let nowMs ← unixMillis
  let loaded ← loadCallState i callId
  match loaded with
  | none => pure ()
  | some state =>
    if state.ringingAtMs.isSome then pure ()
    else do
      pipe (.hset callId [.ringingAtMs (some nowMs)])
      pipe (.expireCall callId)
      map i (.insertCall callId { state with ringingAtMs := some nowMs })

def CallState.accept (state : CallState) (calleeDevice : Option String) : CallState :=
  if state.acceptedCalleeDeviceId.isNone then { state with acceptedCalleeDeviceId := calleeDevice }
  else state

def writeAccepted (callId : String) (accepted : Option String) : Sig ι Unit :=
  match accepted with
  | none => pure ()
  | some accepted => pipe (.hset callId [.acceptedCalleeDeviceId accepted])

def noteConnected (i : ι) (callId : String) (calleeDevice : Option String) : Sig ι Unit := do
  let loaded ← loadCallState i callId
  match loaded with
  | none => pure ()
  | some loaded => do
    let state := loaded.accept calleeDevice
    if state.answeredAtMs.isSome ∧ calleeDevice.isNone then pure ()
    else do
      let nowMs ← orNow state.answeredAtMs unixMillis
      pipe (.hset callId [.answeredAtMs (some nowMs)])
      writeAccepted callId state.acceptedCalleeDeviceId
      pipe (.expireCall callId)
      map i (.insertCall callId { state with answeredAtMs := some nowMs })

end

end ConstructServer.Signaling
