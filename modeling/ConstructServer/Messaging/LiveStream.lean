import ConstructServer.Library.Machine
import ConstructServer.Queue.Mailbox

/-!
# The live message stream of a device

Messages are written to the mailbox of an account while one of its devices reads it over a live
stream: a write adds the envelope to the user stream and then to the device stream, a poll reads
pages of both and sends their messages one by one, and a client that reconnects resumes from the
cursor of the last response it received. Every Redis command and every response is one step.
-/

namespace ConstructServer.Messaging

open Queue Redis Collections

/-- A device with an open stream, and the functions of its server. -/
structure LiveReader where
  sha256 : Bytes → Bytes
  userId : String
  device : String
  receiptParses : MessageEnvelope → Bool

def streamMailboxPage : Nat := 50

/-- A response on the stream, with the cursor it carries. -/
abbrev Response := StreamId × MessageEnvelope

inductive Phase
  | idle
  | reading (start : List MessageDedupKey)
  | readingUser (start : List MessageDedupKey) (deviceMsgs : List ReadEntry)
  | delivering (start : List MessageDedupKey) (page : MailboxPage) (rest : List ReadEntry)
      (deviceBefore userBefore : Option StreamId)

def Phase.betweenReads : Phase → Bool
  | .readingUser _ _ => true
  | _ => false

/-- The mailbox of a device, its open stream, and what its client has received. -/
structure LiveState where
  now : UInt64
  device : Stream MessageEnvelope
  user : Stream MessageEnvelope
  writing : List MessageEnvelope
  lastStreamId : Option StreamId
  userStreamId : Option StreamId
  phase : Phase
  sent : List Response
  received : List Response
  finished : Option (List MessageDedupKey)

def LiveState.initial : LiveState :=
  ⟨0, .empty, .empty, [], none, none, .idle, [], [], none⟩

inductive LiveAction
  | tick (now : UInt64)
  | xaddUser (env : MessageEnvelope) (targeted : Bool)
  | xaddDevice (i : Nat)
  | failDevice (i : Nat)
  | startPoll
  | readDevice
  | readUser (order : IterOrder (StreamId × MessageEnvelope))
  | deliver
  | endPage
  | abort
  | reconnect (n : Nat)

section

variable (c : LiveReader)

def asDelivered (l : List (StreamId × MessageEnvelope)) : List ReadEntry :=
  l.map fun e => (e.1, if e.2.recipientId = c.userId then some e.2 else none)

namespace LiveState

variable (s : LiveState)

def deviceEntries : List ReadEntry := asDelivered c s.device.entries

def userEntries : List ReadEntry := asDelivered c s.user.entries

def keysOf (l : List ReadEntry) : List MessageDedupKey :=
  l.filterMap fun e => e.2.map (MessageDedupKey.forEnvelope c.sha256)

def messagesFor : List MessageDedupKey :=
  keysOf c (s.deviceEntries c) ++ keysOf c (ownEntries c.device (s.userEntries c))

def devicePos : StreamId := s.lastStreamId.getD 0

def userPos : StreamId := max (s.userStreamId.getD 0) s.devicePos

def delivered : List MessageDedupKey :=
  (s.received ++ s.sent).map fun r => .forEnvelope c.sha256 r.2

def responseTo (e : ReadEntry) : List Response :=
  match e.2 with
  | none => []
  | some env => if env.messageType = .receipt ∧ !c.receiptParses env then [] else [(e.1, env)]

def step (s : LiveState) : LiveAction → Option LiveState
  | .tick now => if s.now ≤ now then some { s with now, finished := none } else none
  | .xaddUser env targeted =>
    (s.user.xadd s.now env).map fun (_, user) =>
      { s with
        user
        writing := if targeted then s.writing ++ [env] else s.writing
        finished := none }
  | .xaddDevice i =>
    s.writing[i]?.bind fun env => (s.device.xadd s.now env).map fun (_, device) =>
      { s with device, writing := s.writing.eraseIdx i, finished := none }
  | .failDevice i =>
    if i < s.writing.length then
      some { s with writing := s.writing.eraseIdx i, finished := none }
    else none
  | .startPoll =>
    match s.phase with
    | .idle => some { s with phase := .reading (s.messagesFor c), finished := none }
    | _ => none
  | .readDevice =>
    match s.phase with
    | .reading start =>
      some { s with
        phase := .readingUser start
          (upTo (s.deviceEntries c) s.devicePos (2 * streamMailboxPage)) }
    | _ => none
  | .readUser order =>
    match s.phase with
    | .readingUser start deviceMsgs =>
      let page := mergeMailboxPages c.sha256 c.device order deviceMsgs
        (upTo (s.userEntries c) s.userPos (2 * streamMailboxPage)) streamMailboxPage
        (2 * streamMailboxPage)
      some { s with phase := .delivering start page page.entries s.lastStreamId s.userStreamId }
    | _ => none
  | .deliver =>
    match s.phase with
    | .delivering start page (e :: rest) deviceBefore userBefore =>
      some { s with
        lastStreamId := some e.1
        phase := .delivering start page rest deviceBefore userBefore
        sent := s.sent ++ responseTo c e }
    | _ => none
  | .endPage =>
    match s.phase with
    | .delivering start page [] deviceBefore userBefore =>
      -- The user position moves only once every entry of the page was sent.
      let userStreamId := page.userExaminedThrough.or s.userStreamId
      if !page.hasMore then
        some { s with userStreamId, phase := .idle, finished := some start }
      else if s.lastStreamId = deviceBefore ∧ userStreamId = userBefore then
        some { s with userStreamId, phase := .idle, finished := none }
      else some { s with userStreamId, phase := .reading start }
    | _ => none
  | .abort =>
    match s.phase with
    | .idle => none
    | _ => some { s with phase := .idle }
  | .reconnect n =>
    if n ≤ s.sent.length then
      let received := s.received ++ s.sent.take n
      some { s with
        lastStreamId := received.getLast?.map Prod.fst
        userStreamId := none
        phase := .idle
        sent := []
        received
        finished := none }
    else none

end LiveState

def Answerable (env : MessageEnvelope) : Prop :=
  env.messageType = .receipt → c.receiptParses env = true

instance (env : MessageEnvelope) : Decidable (Answerable c env) :=
  inferInstanceAs (Decidable (_ → _))

/-- The order of ids a step has to respect. A write to the user stream is of an envelope that can
be answered, and gets an id after the device stream. A write to the device stream does not get
the id of another message for the device in the user stream; one whose user copy is named to
another device also gets an id after the user stream, and does not land between the two reads of
a page. -/
def Ordered (s : LiveState) : LiveAction → Prop
  | .xaddUser env _ =>
    Answerable c env ∧ ∀ id ∈ nextId s.now s.user.lastId, s.device.lastId < id
  | .xaddDevice i =>
    ∀ env ∈ s.writing[i]?, ∀ id ∈ nextId s.now s.device.lastId,
      (∀ e ∈ ownEntries c.device (s.userEntries c), e.1 = id → ∀ env' ∈ e.2,
        MessageDedupKey.forEnvelope c.sha256 env = .forEnvelope c.sha256 env') ∧
      (isSibling c.device env → s.user.lastId < id ∧ s.phase.betweenReads = false)
  | _ => True

instance (s : LiveState) : (a : LiveAction) → Decidable (Ordered c s a) := fun a => by
  cases a <;> dsimp only [Ordered] <;> infer_instance

end

end ConstructServer.Messaging
