import ConstructServer.Library.Uuid
import ConstructServer.Signaling.Registry

/-!
# The signaling service

What a client can make the registry do: a request for a new call, the frames of its stream, and the
opening and closing of the stream.
-/

namespace ConstructServer.Signaling

open Calls Function

variable {ι : Type} [DecidableEq ι]

/-! ### Sending -/

def touchOnline (i : ι) (userId deviceId : String) : Sig ι Unit := pipe (.setOnline userId deviceId i)

def listOnlineDevices (userId : String) : Sig ι (List (String × ι)) := do
  let devices ← redis (.scanOnline userId)
  pure ((devices.getD []).filter (·.1 ≠ ""))

def publishToInstance (j : ι) (userId : String) (deviceId : Option String) (signal : ForwardedSignal) :
    Sig ι Nat := do
  let published ← redis (.publish j userId deviceId signal)
  pure (if published.isSome then 1 else 0)

def publishToDevices (i : ι) (userId : String) (exceptDeviceId : Option String) (signal : ForwardedSignal) :
    List (String × ι) → Nat → Sig ι Nat
  | [], published => pure published
  | (deviceId, j) :: devices, published =>
    if maxSignalDestinations ≤ published then pure published
    else if some deviceId = exceptDeviceId ∨ j = i then
      publishToDevices i userId exceptDeviceId signal devices published
    else do
      let sent ← publishToInstance j userId (some deviceId) signal
      publishToDevices i userId exceptDeviceId signal devices (published + sent)

def sendRemoteToUser (i : ι) (userId : String) (targetDeviceId exceptDeviceId : Option String)
    (signal : ForwardedSignal) : Sig ι Nat :=
  match targetDeviceId with
  | some deviceId =>
    if some deviceId = exceptDeviceId then pure 0
    else do
      let found ← redis (.getOnline userId deviceId)
      match found.join with
      | none => pure 0
      | some j => if j = i then pure 0 else publishToInstance j userId (some deviceId) signal
  | none => do
    let devices ← listOnlineDevices userId
    publishToDevices i userId exceptDeviceId signal devices 0

def sendToUser (i : ι) (userId : String) (targetDeviceId : Option String) (signal : ForwardedSignal) :
    Sig ι Nat := do
  let localSent ← map i (.sendLocal userId targetDeviceId signal)
  let remoteSent ← sendRemoteToUser i userId targetDeviceId none signal
  pure (localSent + remoteSent)

def sendToUserExcept (i : ι) (userId exceptDeviceId : String) (signal : ForwardedSignal) : Sig ι Nat := do
  let localSent ← map i (.sendLocalExcept userId exceptDeviceId signal)
  let remoteSent ← sendRemoteToUser i userId none (some exceptDeviceId) signal
  pure (localSent + remoteSent)

def notAParticipant : Status := ⟨.permissionDenied, "Not a participant in this call"⟩

def notTheStreamDevice : Status :=
  ⟨.permissionDenied, "sender_device_id does not match the authenticated device"⟩

def CallState.peerOf (state : CallState) (fromUserId : String) : Option (String × Option String) :=
  match state.roleOf fromUserId with
  | some .caller => some (state.calleeUserId, state.acceptedCalleeDeviceId)
  | some .callee => some (state.callerUserId, some state.callerDeviceId)
  | none => none

def forwardSignal (i : ι) (callId fromUserId fromDeviceId : String) (signal : ForwardedSignal) :
    Sig ι (Except Status Unit) := do
  let loaded ← loadCallState i callId
  match loaded with
  | none => pure (.error ⟨.notFound, "Call " ++ callId ++ " not found"⟩)
  | some state => match state.peerOf fromUserId with
    | none => pure (.error notAParticipant)
    | some (targetUserId, targetDeviceId) => do
      let sent ← if targetUserId = fromUserId then sendToUserExcept i targetUserId fromDeviceId signal
        else sendToUser i targetUserId targetDeviceId signal
      pure (if sent = 0 then .error ⟨.unavailable, "Peer is offline"⟩ else .ok ())

/-! ### Requests -/

def eqIgnoreAsciiCase (s t : String) : Bool := s.toList.map Char.toLower = t.toList.map Char.toLower

def noteDeclined (i : ι) (userId callId : String) (kind : SignalKind) : Sig ι Unit :=
  if kind = .hangup .declined then do
    let loaded ← loadCallState i callId
    match loaded with
    | none => pure ()
    | some state =>
      if state.calleeUserId = userId then pipe (.setDeclineCooldown state.callerUserId state.calleeUserId)
      else pure ()
  else pure ()

def ringAs (i : ι) (callId : String) (role : Option CallRole) : Sig ι Unit :=
  if role = some .callee then noteRinging i callId else pure ()

def connectAs (i : ι) (callId deviceId : String) (role : Option CallRole) : Sig ι Unit :=
  match role with
  | none => pure ()
  | some role => noteConnected i callId (if role = .callee then some deviceId else none)

def actOnSignal (i : ι) (userId deviceId : String) (role : Option CallRole) (signal : WebRtcSignal) :
    Sig ι (Except Status Unit) :=
  match signal.signal with
  | none | some .offer | some .answer => pure (.ok ())
  | some .iceCandidate | some .iceCandidates | some .mediaUpdate =>
    forwardSignal i signal.callId userId deviceId (.signal signal)
  | some .ringing => do
    ringAs i signal.callId role
    forwardSignal i signal.callId userId deviceId (.signal signal)
  | some .connected => do
    connectAs i signal.callId deviceId role
    forwardSignal i signal.callId userId deviceId (.signal signal)
  | some .busy => do
    let _ ← forwardSignal i signal.callId userId deviceId (.signal signal)
    removeCall i signal.callId
    pure (.ok ())
  | some (.hangup reason) => do
    noteDeclined i userId signal.callId (.hangup reason)
    let _ ← forwardSignal i signal.callId userId deviceId (.signal signal)
    removeCall i signal.callId
    pure (.ok ())

def handleOutboundSignal (i : ι) (userId deviceId : String) (routed : Option WebRtcSignal) :
    Sig ι (Except Status Unit) :=
  match routed with
  | none => pure (.error ⟨.invalidArgument, "Missing routed_signal.signal"⟩)
  | some signal =>
    if signal.senderDeviceId ≠ "" ∧ eqIgnoreAsciiCase signal.senderDeviceId deviceId = false then
      pure (.error notTheStreamDevice)
    else do
      let loaded ← loadCallState i signal.callId
      match loaded with
      | none => actOnSignal i userId deviceId none signal
      | some state => match state.roleOf userId with
        | none => pure (.error notAParticipant)
        | some role => actOnSignal i userId deviceId (some role) signal

/-- A frame of a stream whose token is still good; `admitted` is the answer of the stream's rate
limit. -/
inductive Frame
  | routed (signal : Option WebRtcSignal) (admitted : Bool)
  | ping
  | empty

def serveFrame (i : ι) (userId deviceId : String) : Frame → Sig ι Unit
  | .routed signal admitted =>
    if admitted then do
      touchOnline i userId deviceId
      noteKeepalive i userId
      let _ ← handleOutboundSignal i userId deviceId signal
    else pure ()
  | .ping => do
    touchOnline i userId deviceId
    noteKeepalive i userId
  | .empty => pure ()

structure InitiateCall where
  callerId : String
  callerDeviceId : String
  callId : String
  calleeUserId : String

def callRefused : Status := ⟨.permissionDenied, "Call not allowed"⟩

def passGate (gate : Gate) (wanted : Bool) (callerId calleeId : String) (refusal : Status) :
    ExceptT Status (Program (SigStatement ι) SigStatement.Answer) Unit := do
  let answer ← ExceptT.lift (redis (.gate gate callerId calleeId))
  if answer = some wanted then pure () else throw refusal

def passLimit (gate : Gate) (callerId calleeId message : String) :
    ExceptT Status (Program (SigStatement ι) SigStatement.Answer) Unit := do
  let answer ← ExceptT.lift (redis (.gate gate callerId calleeId))
  match answer with
  | none => throw ⟨.internal, "rate limiter error"⟩
  | some true => pure ()
  | some false => throw ⟨.resourceExhausted, message⟩

def refuseIf (c : Prop) [Decidable c] (status : Status) :
    ExceptT Status (Program (SigStatement ι) SigStatement.Answer) Unit :=
  if c then throw status else pure ()

/-- What has to pass before the registry is asked; `hasDatabase` is whether the service has one. -/
def admitCall (hasDatabase : Bool) (req : InitiateCall) :
    ExceptT Status (Program (SigStatement ι) SigStatement.Answer) Unit := do
  refuseIf (req.callId = "" ∨ req.calleeUserId = "")
    ⟨.invalidArgument, "call_id and callee_user_id are required"⟩
  refuseIf (hasDatabase = false) callRefused
  refuseIf ((Uuid.parseStr req.callerId).isNone ∨ (Uuid.parseStr req.calleeUserId).isNone)
    ⟨.invalidArgument, "Invalid user_id UUID"⟩
  passGate .mutualContacts true req.callerId req.calleeUserId callRefused
  passGate .blocked false req.callerId req.calleeUserId callRefused
  passLimit .callRate req.callerId req.calleeUserId "Call rate limit exceeded"
  passLimit .peerRate req.callerId req.calleeUserId "Too many calls to this peer"
  passLimit .declineCooldown req.callerId req.calleeUserId "Callee declined recently (cooldown)"

/-- The part of a new call that is about the registry: the busy check, the call, and the
notification of a callee who is online. The answer says whether the callee is. -/
def registerCall (i : ι) (req : InitiateCall) : Sig ι (Except Status Bool) := do
  let busy ← isUserBusy i req.calleeUserId
  if busy then pure (.error ⟨.failedPrecondition, "Callee is busy"⟩)
  else do
    let devices ← listOnlineDevices req.calleeUserId
    let offeredAtMs ← unixMillis
    createCall i req.callId req.callerId req.callerDeviceId req.calleeUserId offeredAtMs
    storeCallMetadata req.callId
    if devices = [] then pure (.ok false)
    else do
      let _ ← sendToUser i req.calleeUserId none (.incomingCall req.callId req.callerId)
      pure (.ok true)

def initiateCall (i : ι) (hasDatabase : Bool) (req : InitiateCall) : Sig ι (Except Status Bool) := do
  let admitted ← (admitCall hasDatabase req).run
  match admitted with
  | .error status => pure (.error status)
  | .ok () => registerCall i req

/-! ### Streams -/

def callEndedByDisconnect (i : ι) (userId deviceId : String) : Sig ι (Option CallState) := do
  let call ← getUserCall i userId
  match call with
  | none => pure none
  | some callId => do
    let loaded ← loadCallState i callId
    match loaded with
    | none => pure none
    | some state =>
      if state.callerUserId = userId ∧ state.callerDeviceId = deviceId then pure (some state)
      else if state.calleeUserId = userId ∧ state.acceptedCalleeDeviceId = some deviceId then do
        let otherDevices ← listOnlineDevices userId
        pure (if otherDevices = [] then some state else none)
      else pure none

def serverHangup (callId : String) (reason : HangupReason) : ForwardedSignal :=
  .signal ⟨callId, some (.hangup reason), "server"⟩

def hangUpBoth (i : ι) (state : CallState) (reason : HangupReason) : Sig ι Unit := do
  let _ ← sendToUser i state.callerUserId (some state.callerDeviceId) (serverHangup state.callId reason)
  let _ ← sendToUser i state.calleeUserId state.acceptedCalleeDeviceId (serverHangup state.callId reason)

/-- What follows once the tasks of a stream have ended. -/
def closeStream (i : ι) (userId deviceId : String) : Sig ι Unit := do
  .ask (.unregister i userId deviceId) .done
  let ended ← callEndedByDisconnect i userId deviceId
  match ended with
  | none => pure ()
  | some state => do
    hangUpBoth i state .connectionFailed
    removeCall i state.callId

def signalStream (i : ι) (userId deviceId : String) : Sig ι Unit := do
  let channel ← map i (.register userId deviceId)
  touchOnline i userId deviceId
  map i (.subscribe channel)
  map i (.hangUp channel)
  closeStream i userId deviceId

/-! ### What leaves a call alone -/

section

variable {C callId : String} {i : ι}

def Spares (C : String) : SigStatement ι → Prop
  | .map _ (.insertCall callId _) | .map _ (.removeCall callId) => callId ≠ C
  | .redis (.hset callId _) | .redis (.expireCall callId) | .redis (.delCall callId) => callId ≠ C
  | _ => True

/-- Neither does it look the call up, or ask which call a user is in. -/
def Elsewhere (C : String) : SigStatement ι → Prop
  | .map _ (.getCall callId) | .map _ (.insertCall callId _) | .map _ (.removeCall callId) => callId ≠ C
  | .redis (.hset callId _) | .redis (.expireCall callId) | .redis (.delCall callId) => callId ≠ C
  | .map _ (.getActive _) | .redis (.getPointer _) => False
  | _ => True

def Sends (signal : ForwardedSignal) : SigStatement ι → Prop
  | .map _ (.sendLocal _ _ sent) | .map _ (.sendLocalExcept _ _ sent) | .redis (.publish _ _ _ sent) =>
    sent = signal
  | .redis (.getOnline ..) | .redis (.scanOnline _) => True
  | _ => False

omit [DecidableEq ι] in
theorem Elsewhere.spares (q : SigStatement ι) (h : Elsewhere C q) : Spares C q := by
  cases q with
  | clock | unregister => trivial
  | map i access => cases access <;> first | exact h | trivial
  | redis command => cases command <;> first | exact h | trivial

/-- The call as it is in the maps and in Redis. -/
structure SameCall (C : String) (s s' : SigState ι) : Prop where
  copy : ∀ i, (s'.memory i).calls C = (s.memory i).calls C
  hash : s'.hashes (callKey C) = s.hashes (callKey C)

omit [DecidableEq ι] in
theorem SameCall.refl (s : SigState ι) : SameCall C s s := ⟨fun _ => rfl, rfl⟩

theorem callKey_injective {c c' : String} (h : callKey c = callKey c') : c = c' :=
  (String.append_right_inj _).mp h

variable {s s' : SigState ι}

theorem now_of_map {q : MapAccess} {pick : SigPick ι} {r : q.Reply} (h : q.effect i pick s = some (r, s')) :
    s'.now = s.now := by
  cases q with
  | sendLocal userId deviceId signal =>
    cases pick with
    | channels order =>
      simp only [MapAccess.effect] at h
      split at h
      · cases h
        rfl
      · cases h
    | _ => cases h
  | _ =>
    cases h
    rfl

/-- The part of a state that is not Redis. -/
structure SameLocal (s s' : SigState ι) : Prop where
  now : s'.now = s.now
  memory : s'.memory = s.memory
  next : s'.nextChannel = s.nextChannel
  receivers : s'.receivers = s.receivers

theorem frame_of_redis {q : RedisCommand ι} {pick : SigPick ι} {r : q.Reply}
    (h : q.effect pick s = some (r, s')) :
    SameLocal s s' ∧
      ((∀ k v, q ≠ .setPointer k v) → (∀ k, q ≠ .delPointer k) → s'.pointers = s.pointers) := by
  cases q with
  | setPointer k v =>
    cases h
    exact ⟨⟨rfl, rfl, rfl, rfl⟩, fun hne _ => absurd rfl (hne k v)⟩
  | delPointer k =>
    cases h
    exact ⟨⟨rfl, rfl, rfl, rfl⟩, fun _ hne => absurd rfl (hne k)⟩
  | expireCall _ | expireSet =>
    simp only [RedisCommand.effect, Option.map_eq_some_iff] at h
    obtain ⟨_, -, heq⟩ := h
    cases heq
    exact ⟨⟨rfl, rfl, rfl, rfl⟩, fun _ _ => rfl⟩
  | smembers =>
    cases pick with
    | ids order =>
      simp only [RedisCommand.effect] at h
      split at h
      · cases h
        exact ⟨⟨rfl, rfl, rfl, rfl⟩, fun _ _ => rfl⟩
      · cases h
    | _ => cases h
  | scanOnline userId =>
    cases pick with
    | devices order =>
      simp only [RedisCommand.effect] at h
      split at h
      · cases h
        exact ⟨⟨rfl, rfl, rfl, rfl⟩, fun _ _ => rfl⟩
      · cases h
    | _ => cases h
  | gate gate callerId calleeId =>
    cases pick with
    | passes answer =>
      cases h
      exact ⟨⟨rfl, rfl, rfl, rfl⟩, fun _ _ => rfl⟩
    | _ => cases h
  | _ =>
    cases h
    exact ⟨⟨rfl, rfl, rfl, rfl⟩, fun _ _ => rfl⟩

theorem now_of_exec {q : SigStatement ι} {input : Input (SigPick ι)} {r : q.Answer}
    (h : s.exec q input = some (r, s')) : s'.now = s.now := by
  cases q with
  | clock =>
    cases h
    rfl
  | map i access => exact now_of_map h
  | redis command =>
    cases fallible_case h with
    | failed => rfl
    | effect he _ => exact (frame_of_redis he).1.now
  | unregister i userId deviceId =>
    cases h
    unfold SigState.unregister
    dsimp only
    split
    · rfl
    · split <;> rfl

theorem calls_setMemory_self {m : Memory} : ((s.setMemory i m).memory i).calls = m.calls := by
  simp only [SigState.setMemory, update_self]

theorem sameCall_setMemory {m : Memory} (h : m.calls C = (s.memory i).calls C) :
    SameCall C s (s.setMemory i m) := by
  refine ⟨fun j => ?_, rfl⟩
  by_cases hj : j = i
  · subst hj
    simp only [SigState.setMemory, update_self, h]
  · simp only [SigState.setMemory, update_of_ne hj]

theorem sameCall_channels {channels : String → List (String × Nat)} :
    SameCall C s (s.setMemory i { s.memory i with channels }) :=
  sameCall_setMemory rfl

theorem sameCall_map {q : MapAccess} {pick : SigPick ι} {r : q.Reply} (hq : Spares C (.map i q))
    (h : q.effect i pick s = some (r, s')) : SameCall C s s' := by
  cases q with
  | insertCall | removeCall =>
    cases h
    exact sameCall_setMemory (update_of_ne (Ne.symm hq) _ _)
  | getCall _ | getActive _ | subscribe _ | hangUp _ | sendLocalExcept _ _ _ =>
    cases h
    exact ⟨fun _ => rfl, rfl⟩
  | insertActive _ _ | removeActive _ =>
    cases h
    exact sameCall_setMemory rfl
  | register userId deviceId =>
    cases h
    refine ⟨fun j => ?_, rfl⟩
    exact sameCall_channels.copy j
  | sendLocal userId deviceId signal =>
    cases pick with
    | channels order =>
      simp only [MapAccess.effect] at h
      split at h
      · cases h
        exact ⟨fun _ => rfl, rfl⟩
      · cases h
    | _ => cases h

theorem sameCall_redis {q : RedisCommand ι} {pick : SigPick ι} {r : q.Reply}
    (hq : Spares C (.redis q)) (h : q.effect pick s = some (r, s')) : SameCall C s s' := by
  have hk : ∀ {callId}, callId ≠ C → callKey C ≠ callKey callId :=
    fun hne heq => hne (callKey_injective heq).symm
  cases q with
  | hset callId fields =>
    cases h
    refine ⟨fun _ => rfl, ?_⟩
    dsimp only
    exact Redis.Keyspace.modify_apply_of_ne (hk hq)
  | expireCall callId =>
    simp only [RedisCommand.effect, Option.map_eq_some_iff] at h
    obtain ⟨hashes, he, heq⟩ := h
    cases heq
    exact ⟨fun _ => rfl, Redis.Keyspace.expire_apply_of_ne he (hk hq)⟩
  | delCall callId =>
    cases h
    exact ⟨fun _ => rfl, Redis.Keyspace.del_apply_of_ne (hk hq)⟩
  | expireSet =>
    simp only [RedisCommand.effect, Option.map_eq_some_iff] at h
    obtain ⟨activeSet, -, heq⟩ := h
    cases heq
    exact ⟨fun _ => rfl, rfl⟩
  | smembers =>
    cases pick with
    | ids order =>
      simp only [RedisCommand.effect] at h
      split at h
      · cases h
        exact .refl s
      · cases h
    | _ => cases h
  | scanOnline userId =>
    cases pick with
    | devices order =>
      simp only [RedisCommand.effect] at h
      split at h
      · cases h
        exact .refl s
      · cases h
    | _ => cases h
  | gate gate callerId calleeId =>
    cases pick with
    | passes answer =>
      cases h
      exact .refl s
    | _ => cases h
  | _ =>
    cases h
    exact ⟨fun _ => rfl, rfl⟩

theorem sameCall_of_spares {q : SigStatement ι} {input : Input (SigPick ι)} {r : q.Answer}
    (hq : Spares C q) (h : s.exec q input = some (r, s')) : SameCall C s s' := by
  cases q with
  | clock =>
    cases h
    exact .refl s
  | map i access => exact sameCall_map hq h
  | redis command =>
    cases fallible_case h with
    | failed => exact .refl s
    | effect he _ => exact sameCall_redis hq he
  | unregister i userId deviceId =>
    cases h
    unfold SigState.unregister
    dsimp only
    split
    · exact .refl s
    · split
      · exact sameCall_setMemory rfl
      · -- The online key is another part of Redis.
        refine ⟨fun j => ?_, rfl⟩
        exact sameCall_channels.copy j

end

/-! ### The statements of the functions -/

section

variable {α : Type} {P : SigStatement ι → Prop} {i : ι} {C callId userId deviceId : String}

omit [DecidableEq ι] in
theorem asks_map {q : MapAccess} {f : q.Reply → Sig ι α} (h : P (.map i q)) (hf : ∀ r, (f r).Asks P) :
    (map i q >>= f).Asks P :=
  And.intro h hf

omit [DecidableEq ι] in
theorem asks_redis {q : RedisCommand ι} {f : Option q.Reply → Sig ι α} (h : P (.redis q))
    (hf : ∀ r, (f r).Asks P) : (redis q >>= f).Asks P :=
  And.intro h hf

omit [DecidableEq ι] in
theorem asks_pipe {q : RedisCommand ι} (h : P (.redis q)) : (pipe q : Sig ι Unit).Asks P :=
  And.intro h fun _ => trivial

omit [DecidableEq ι] in
theorem asks_pipe_then {q : RedisCommand ι} {f : Unit → Sig ι α} (h : P (.redis q)) (hf : (f ()).Asks P) :
    (pipe q >>= f).Asks P :=
  Program.asks_bind (asks_pipe h) fun _ => hf

omit [DecidableEq ι] in
theorem asks_unixMillis (h : P .clock) : (unixMillis : Sig ι Nat).Asks P :=
  And.intro h fun _ => trivial

omit [DecidableEq ι] in
theorem asks_unixSeconds (h : P .clock) : (unixSeconds : Sig ι Nat).Asks P :=
  And.intro h fun _ => trivial

omit [DecidableEq ι] in
theorem asks_orNow {stored : Option Nat} {now : Sig ι Nat} (h : now.Asks P) : (orNow stored now).Asks P := by
  cases stored with
  | none => exact h
  | some time => trivial

omit [DecidableEq ι] in
theorem asks_createCall {caller device callee : String} {offeredAtMs : Nat} (h : callId ≠ C) :
    (createCall i callId caller device callee offeredAtMs).Asks (Elsewhere C) := by
  refine Program.asks_bind (asks_unixSeconds trivial) fun now => ?_
  refine asks_map h fun _ => asks_map trivial fun _ => ?_
  exact asks_pipe_then h (asks_pipe_then h (asks_pipe_then trivial (asks_pipe_then trivial
    (asks_pipe_then trivial (asks_pipe trivial)))))

omit [DecidableEq ι] in
theorem asks_storeCallMetadata (h : callId ≠ C) :
    (storeCallMetadata callId : Sig ι Unit).Asks (Elsewhere C) :=
  asks_pipe_then h (asks_pipe h)

omit [DecidableEq ι] in
theorem asks_removeCall (h : callId ≠ C) : (removeCall i callId).Asks (Elsewhere C) := by
  refine asks_map h fun state => ?_
  cases state with
  | none => trivial
  | some state =>
    refine asks_map trivial fun _ => ?_
    exact asks_pipe_then h (asks_pipe_then trivial (asks_pipe_then trivial (asks_pipe trivial)))

omit [DecidableEq ι] in
theorem asks_insertLoaded {hash : CallHash} (h : callId ≠ C) :
    (insertLoaded i callId hash).Asks (Elsewhere C) := by
  unfold insertLoaded
  split
  · refine Program.asks_bind (asks_orNow (asks_unixSeconds trivial)) fun createdAt => ?_
    refine Program.asks_bind (asks_orNow (asks_unixMillis trivial)) fun offeredAtMs => ?_
    exact asks_map h fun _ => trivial
  · trivial

omit [DecidableEq ι] in
theorem asks_loadCallState (h : callId ≠ C) : (loadCallState i callId).Asks (Elsewhere C) := by
  refine asks_map h fun cached => ?_
  cases cached with
  | some state => trivial
  | none =>
    refine asks_redis trivial fun hash => ?_
    cases hash with
    | none => trivial
    | some hash => exact asks_insertLoaded h

omit [DecidableEq ι] in
theorem asks_noteRinging (h : callId ≠ C) : (noteRinging i callId).Asks (Elsewhere C) := by
  refine Program.asks_bind (asks_unixMillis trivial) fun nowMs => ?_
  refine Program.asks_bind (asks_loadCallState h) fun loaded => ?_
  cases loaded with
  | none => trivial
  | some state =>
    dsimp only
    split
    · trivial
    · exact asks_pipe_then h (asks_pipe_then h (asks_map h fun _ => trivial))

omit [DecidableEq ι] in
theorem asks_noteConnected {calleeDevice : Option String} (h : callId ≠ C) :
    (noteConnected i callId calleeDevice).Asks (Elsewhere C) := by
  refine Program.asks_bind (asks_loadCallState h) fun loaded => ?_
  cases loaded with
  | none => trivial
  | some state =>
    dsimp only
    split
    · trivial
    · refine Program.asks_bind (asks_orNow (asks_unixMillis trivial)) fun nowMs => ?_
      refine asks_pipe_then h (Program.asks_bind ?_ fun _ => asks_pipe_then h (asks_map h fun _ => trivial))
      unfold writeAccepted
      split
      · trivial
      · exact asks_pipe h

section

omit [DecidableEq ι] in
theorem asks_passGate (hP : ∀ gate callerId calleeId, P (.redis (.gate gate callerId calleeId)))
    {gate : Gate}
    {wanted : Bool} {callerId calleeId : String} {refusal : Status} :
    (passGate (ι := ι) gate wanted callerId calleeId refusal).run.Asks P := by
  refine asks_redis (q := .gate gate callerId calleeId) (hP _ _ _) fun answer => ?_
  show ((if answer = some wanted then pure () else throw refusal :
    ExceptT Status (Program (SigStatement ι) SigStatement.Answer) Unit)).run.Asks _
  split <;> trivial

omit [DecidableEq ι] in
theorem asks_passLimit (hP : ∀ gate callerId calleeId, P (.redis (.gate gate callerId calleeId)))
    {gate : Gate} {callerId calleeId message : String} :
    (passLimit (ι := ι) gate callerId calleeId message).run.Asks P := by
  refine asks_redis (q := .gate gate callerId calleeId) (hP _ _ _) fun answer => ?_
  rcases answer with - | - | - <;> trivial

omit [DecidableEq ι] in
theorem asks_refuseIf {cond : Prop} [Decidable cond] {status : Status} :
    (refuseIf (ι := ι) cond status).run.Asks P := by
  unfold refuseIf
  split <;> trivial

omit [DecidableEq ι] in
theorem asks_admitCall (hP : ∀ gate callerId calleeId, P (.redis (.gate gate callerId calleeId)))
    {hasDatabase : Bool} {req : InitiateCall} : (admitCall (ι := ι) hasDatabase req).run.Asks P := by
  refine asks_then asks_refuseIf fun _ => asks_then asks_refuseIf fun _ => asks_then asks_refuseIf fun _ => ?_
  refine asks_then (asks_passGate hP) fun _ => asks_then (asks_passGate hP) fun _ => ?_
  exact asks_then (asks_passLimit hP) fun _ => asks_then (asks_passLimit hP) fun _ => asks_passLimit hP

end

omit [DecidableEq ι] in
theorem Sends.elsewhere {signal : ForwardedSignal} (q : SigStatement ι) (h : Sends signal q) :
    Elsewhere C q := by
  cases q with
  | clock | unregister => trivial
  | map i access => cases access <;> first | exact h.elim | trivial
  | redis command => cases command <;> first | exact h.elim | trivial

omit [DecidableEq ι] in
theorem sends_listOnlineDevices {signal : ForwardedSignal} :
    (listOnlineDevices userId : Sig ι _).Asks (Sends signal) :=
  asks_redis trivial fun _ => trivial

omit [DecidableEq ι] in
theorem sends_publishToInstance {j : ι} {device : Option String} {signal : ForwardedSignal} :
    (publishToInstance j userId device signal).Asks (Sends signal) :=
  asks_redis rfl fun _ => trivial

theorem sends_publishToDevices {except : Option String} {signal : ForwardedSignal}
    {devices : List (String × ι)} {published : Nat} :
    (publishToDevices i userId except signal devices published).Asks (Sends signal) := by
  induction devices generalizing published with
  | nil => trivial
  | cons device devices ih =>
    simp only [publishToDevices]
    split
    · trivial
    · split
      · exact ih
      · exact Program.asks_bind sends_publishToInstance fun _ => ih

theorem sends_remoteToUser {target except : Option String} {signal : ForwardedSignal} :
    (sendRemoteToUser i userId target except signal).Asks (Sends signal) := by
  cases target with
  | some device =>
    simp only [sendRemoteToUser]
    split
    · trivial
    · refine asks_redis trivial fun found => ?_
      cases found.join with
      | none => trivial
      | some j =>
        dsimp only
        split
        · trivial
        · exact sends_publishToInstance
  | none => exact Program.asks_bind sends_listOnlineDevices fun _ => sends_publishToDevices

theorem sends_toUser {target : Option String} {signal : ForwardedSignal} :
    (sendToUser i userId target signal).Asks (Sends signal) :=
  asks_map rfl fun _ => Program.asks_bind sends_remoteToUser fun _ => trivial

omit [DecidableEq ι] in
theorem asks_listOnlineDevices : (listOnlineDevices userId : Sig ι _).Asks (Elsewhere C) :=
  asks_redis trivial fun _ => trivial

theorem asks_sendToUser {target : Option String} {signal : ForwardedSignal} :
    (sendToUser i userId target signal).Asks (Elsewhere C) :=
  sends_toUser.mono Sends.elsewhere

theorem asks_sendToUserExcept {signal : ForwardedSignal} :
    (sendToUserExcept i userId deviceId signal).Asks (Elsewhere C) :=
  asks_map trivial fun _ =>
    Program.asks_bind (sends_remoteToUser.mono Sends.elsewhere) fun _ => trivial

theorem asks_forward {target : String × Option String} {signal : ForwardedSignal} :
    (do
      let sent ← if target.1 = userId then sendToUserExcept i target.1 deviceId signal
        else sendToUser i target.1 target.2 signal
      pure (if sent = 0 then .error ⟨.unavailable, "Peer is offline"⟩ else .ok ()) :
        Sig ι (Except Status Unit)).Asks (Elsewhere C) := by
  split
  · exact Program.asks_bind asks_sendToUserExcept fun _ => trivial
  · exact Program.asks_bind asks_sendToUser fun _ => trivial

end

/-! ### Rules for the statements -/

section

variable {σ κ α : Type} {D : Discipline (SigStatement ι) (Input (SigPick ι)) σ κ}
  {exec : Nat → (q : SigStatement ι) → Input (SigPick ι) → σ → Option (q.Answer × σ)} {n : Nat} {c : κ}
  {i : ι} {w : σ}

omit [DecidableEq ι] in
theorem safe_map {q : MapAccess} {f : q.Reply → Sig ι α} {post : α → σ → Prop}
    (h : ∀ w' input r w'', D.inv w' → D.rely n c w w' → D.care c (.map i q) input w' →
      exec n (.map i q) input w' = some (r, w'') → D.Keeps n c w' w'' ∧ D.Safe exec n c (f r) post w'') :
    D.Safe exec n c (map i q >>= f) post w :=
  h

omit [DecidableEq ι] in
theorem safe_redis {q : RedisCommand ι} {f : Option q.Reply → Sig ι α} {post : α → σ → Prop}
    (h : ∀ w' input r w'', D.inv w' → D.rely n c w w' → D.care c (.redis q) input w' →
      exec n (.redis q) input w' = some (r, w'') → D.Keeps n c w' w'' ∧ D.Safe exec n c (f r) post w'') :
    D.Safe exec n c (redis q >>= f) post w :=
  h

omit [DecidableEq ι] in
theorem safe_pipe {q : RedisCommand ι} {f : Unit → Sig ι α} {post : α → σ → Prop}
    (h : ∀ w' input r w'', D.inv w' → D.rely n c w w' → D.care c (.redis q) input w' →
      exec n (.redis q) input w' = some (r, w'') → D.Keeps n c w' w'' ∧ D.Safe exec n c (f ()) post w'') :
    D.Safe exec n c (pipe q >>= f) post w :=
  h

end

end ConstructServer.Signaling
