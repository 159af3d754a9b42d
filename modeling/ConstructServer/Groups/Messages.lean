import ConstructServer.Library.Service
import ConstructServer.Library.Uuid
import ConstructServer.Queue.Envelope
import Mathlib.Data.List.Sort

/-!
# The messages of a group

A message is stored under the next sequence number of its group, which one statement takes from the
row of the group, and is then published to the streams of this process. A member fetches the
messages after a sequence number, or opens a stream that carries what is published; a stream is one
task that takes one event after the other. The calls on one group, with one stream of one device, as
programs over the statements of the database and the steps of the hub.
-/

namespace ConstructServer.Groups.Messages

open Calls Queue List Option Function

/-! ### The rows and the stream -/

structure NewGroupMessage where
  epoch : Nat
  mlsCiphertext : Bytes
  clientMessageId : Option String
  threadId : Option Uuid
  topicId : Option Uuid
  expiresAt : Nat

structure GroupMessageRow where
  messageId : String
  epoch : Nat
  mlsCiphertext : Bytes
  sequenceNumber : Nat
  clientMessageId : Option String
  threadId : Option Uuid
  topicId : Option Uuid
  sentAt : Nat
  expiresAt : Nat
deriving DecidableEq

inductive HubEvent
  | frame (row : GroupMessageRow)
  | removed (deviceId : String)

/-- The stream's end of the channel of the group. -/
structure Receiver where
  events : List HubEvent
  isOpen : Bool

/-- The task of a stream, as far as it concerns the group. -/
structure MessageStream where
  receiver : Option Receiver
  joined : Bool
  held : Option HubEvent
  ended : Bool

structure GroupRow where
  epoch : Nat
  retentionDays : Nat
  dissolvedAt : Option Nat
deriving DecidableEq

structure MessageStore where
  /-- In seconds. -/
  now : Nat
  group : Option GroupRow
  /-- One more than `last_sequence`. -/
  nextSequence : Nat
  messages : List GroupMessageRow
  members : String → Bool
  inactive : String → Bool
  stream : MessageStream

/-! ### The statements -/

inductive MessageStatement
  | clock
  | rateLimit
  | getGroupDissolvedAt
  | isGroupMember (deviceId : String)
  | isActiveGroupMember (deviceId : String)
  | getGroupEpoch
  | getGroupRetentionDays
  | insertGroupMessage (msg : NewGroupMessage)
  | listGroupMessages (after : Option Nat) (limit : Nat) (topicId : Option Uuid)
  | insertGroupMember (deviceId : String)
  | removeGroupMember (deviceId : String)
  | setDeviceActive (deviceId : String) (active : Bool)
  | setGroupDissolvedAt (now : Nat)
  | advanceGroupEpoch
  | hubPublish (row : GroupMessageRow)
  | hubRemoveMember (deviceId : String)
  | hubDissolve
  | hubSubscribe
  | nextEvent
  | streamSend (row : GroupMessageRow)
  | streamSkip
  | streamJoin
  | streamDrop
  | streamEnd

abbrev MessageStatement.Reply : MessageStatement → Type
  | .clock | .getGroupEpoch | .getGroupRetentionDays => Nat
  | .rateLimit | .isGroupMember _ | .isActiveGroupMember _ | .hubSubscribe => Bool
  | .getGroupDissolvedAt => Option Nat
  | .insertGroupMessage _ => GroupMessageRow
  | .listGroupMessages .. => List GroupMessageRow
  | .nextEvent => Option HubEvent
  | _ => Unit

/-- What the rate limiter says, and the id that the database draws. -/
structure MessageChoice where
  allowed : Bool
  messageId : String

def MessageStore.duplicate? (s : MessageStore) (msg : NewGroupMessage) : Option GroupMessageRow :=
  s.messages.find? fun m => decide (m.clientMessageId ≠ none ∧ m.clientMessageId = msg.clientMessageId)

def MessageStore.newRow (s : MessageStore) (msg : NewGroupMessage) (messageId : String) : GroupMessageRow :=
  ⟨messageId, msg.epoch, msg.mlsCiphertext, s.nextSequence, msg.clientMessageId, msg.threadId, msg.topicId, s.now,
    msg.expiresAt⟩

def MessageStream.push (stream : MessageStream) (event : HubEvent) : MessageStream :=
  { stream with receiver := stream.receiver.map fun r =>
      if r.isOpen then { r with events := r.events ++ [event] } else r }

def MessageStream.drop (stream : MessageStream) : MessageStream :=
  { stream with receiver := none, joined := false, held := none }

def MessageStream.Ready (stream : MessageStream) : Prop :=
  stream.ended = false ∧ stream.joined = true ∧ stream.held = none

instance decidableReady (stream : MessageStream) : Decidable stream.Ready :=
  inferInstanceAs (Decidable (stream.ended = false ∧ stream.joined = true ∧ stream.held = none))

def MessageStream.take (stream : MessageStream) : Option (Option HubEvent × MessageStream) :=
  match stream.receiver with
  | some ⟨e :: es, isOpen⟩ => some (some e, { stream with receiver := some ⟨es, isOpen⟩, held := some e })
  | some ⟨[], false⟩ => some (none, stream.drop)
  | _ => none

def MessageStore.Wanted (s : MessageStore) (after : Option Nat) (topicId : Option Uuid)
    (m : GroupMessageRow) : Prop :=
  (∀ a ∈ after, a < m.sequenceNumber) ∧ (∀ t ∈ topicId, m.topicId = some t) ∧ s.now < m.expiresAt

instance decidableWanted (s : MessageStore) (after : Option Nat) (topicId : Option Uuid) (m : GroupMessageRow) :
    Decidable (s.Wanted after topicId m) := by
  dsimp only [MessageStore.Wanted]
  infer_instance

def MessageStore.page (s : MessageStore) (after : Option Nat) (limit : Nat) (topicId : Option Uuid) :
    List GroupMessageRow :=
  ((s.messages.filter fun m => decide (s.Wanted after topicId m)).insertionSort
    fun m m' => m.sequenceNumber ≤ m'.sequenceNumber).take limit

/-- What a statement does when it succeeds. Where it does nothing at all, the task waits, or the
database refuses the statement. -/
def MessageStatement.effect (q : MessageStatement) (choice : MessageChoice) (s : MessageStore) :
    Option (q.Reply × MessageStore) :=
  match q with
  | .clock => some (s.now, s)
  | .rateLimit => some (choice.allowed, s)
  | .getGroupDissolvedAt => some (s.group.bind GroupRow.dissolvedAt, s)
  | .isGroupMember d => some (s.members d, s)
  | .isActiveGroupMember d => some (s.members d && !s.inactive d, s)
  | .getGroupEpoch => s.group.map fun g => (g.epoch, s)
  | .getGroupRetentionDays => s.group.map fun g => (g.retentionDays, s)
  | .insertGroupMessage msg =>
    s.group.bind fun _ =>
      match s.duplicate? msg with
      | some row => some (row, { s with nextSequence := s.nextSequence + 1 })
      | none =>
        if ∀ m ∈ s.messages, m.messageId ≠ choice.messageId then
          some (s.newRow msg choice.messageId, { s with
            nextSequence := s.nextSequence + 1
            messages := s.messages ++ [s.newRow msg choice.messageId] })
        else none
  | .listGroupMessages after limit topicId => some (s.page after limit topicId, s)
  | .insertGroupMember d =>
    if s.members d then none else some ((), { s with members := update s.members d true })
  | .removeGroupMember d => some ((), { s with members := update s.members d false })
  | .setDeviceActive d active => some ((), { s with inactive := update s.inactive d !active })
  | .setGroupDissolvedAt now =>
    some ((), { s with group := s.group.map fun g => { g with dissolvedAt := some now } })
  | .advanceGroupEpoch => some ((), { s with group := s.group.map fun g => { g with epoch := g.epoch + 1 } })
  | .hubPublish row => some ((), { s with stream := s.stream.push (.frame row) })
  | .hubRemoveMember d => some ((), { s with stream := s.stream.push (.removed d) })
  | .hubDissolve =>
    some ((), { s with stream :=
      { s.stream with receiver := s.stream.receiver.map fun r => { r with isOpen := false } } })
  | .hubSubscribe =>
    if s.stream.joined then some (false, s)
    else if s.stream.ended = false ∧ s.stream.receiver = none then
      some (true, { s with stream := { s.stream with receiver := some ⟨[], true⟩ } })
    else none
  | .nextEvent =>
    if s.stream.Ready then s.stream.take.map fun (event, stream) => (event, { s with stream }) else none
  | .streamSend _ => some ((), { s with stream := { s.stream with held := none } })
  | .streamSkip => some ((), { s with stream := { s.stream with held := none } })
  | .streamJoin => some ((), { s with stream := { s.stream with joined := true } })
  | .streamDrop => some ((), { s with stream := s.stream.drop })
  | .streamEnd => some ((), { s with stream := { s.stream.drop with ended := true } })

/-- What happens in memory does not fail; a frame that cannot be handed over is not sent. -/
def MessageStatement.input (q : MessageStatement) (input : Input MessageChoice) : Input MessageChoice :=
  match q with
  | .clock | .hubPublish _ | .hubRemoveMember _ | .hubDissolve | .hubSubscribe | .nextEvent | .streamSkip | .streamJoin
  | .streamDrop | .streamEnd => { input with outcome := .ok }
  | .streamSend _ => { input with outcome := if input.outcome = .ok then .ok else .failed }
  | _ => input

/-! ### The calls -/

abbrev MessageCall (α : Type) : Type := Fallible MessageStatement MessageStatement.Reply Status α

/-- `map_db_error`. -/
def db (q : MessageStatement) : MessageCall q.Reply := demand q ⟨.internal, "DB error"⟩

def internal (q : MessageStatement) (message : String) : MessageCall q.Reply := demand q ⟨.internal, message⟩

inductive MessageReply
  | sent (messageId : String) (sequenceNumber sentAt expiresAt : Nat)
  | page (rows : List GroupMessageRow)
  | done

structure SendRequest where
  mlsCiphertext : Bytes
  epoch : Nat
  threadId : Option String
  topicId : Option String
  clientMessageId : String

def optionalId (text : Option String) (message : String) : Except Status (Option Uuid) :=
  match text with
  | none => .ok none
  | some s =>
    match Uuid.parseStr s with
    | some u => .ok (some u)
    | none => .error ⟨.invalidArgument, message⟩

def clientMessageId (text : String) : Except Status (Option String) :=
  if text = "" then .ok none
  else if text.utf8ByteSize > 64 then
    .error ⟨.invalidArgument, "client_message_id must not exceed 64 characters"⟩
  else .ok (some text)

def ensureMember (deviceId : String) : MessageCall Unit := do
  let isMember ← db (.isGroupMember deviceId)
  ensure (isMember = true) ⟨.permissionDenied, "NOT_MEMBER"⟩

def checkSend (deviceId : String) (req : SendRequest) : MessageCall Unit := do
  let allowed ← internal .rateLimit "Rate limit error"
  ensure (allowed = true) ⟨.resourceExhausted, "Rate limit exceeded: maximum 1000 messages per hour"⟩
  ensure (req.mlsCiphertext ≠ []) ⟨.invalidArgument, "mls_ciphertext must not be empty"⟩
  let dissolvedAt ← db .getGroupDissolvedAt
  ensure (dissolvedAt = none) ⟨.failedPrecondition, "Group has been dissolved"⟩
  ensureMember deviceId
  let epoch ← db .getGroupEpoch
  ensure (req.epoch = epoch) ⟨.failedPrecondition, "Epoch mismatch"⟩

def newMessage (req : SendRequest) : MessageCall NewGroupMessage := do
  let retentionDays ← internal .getGroupRetentionDays "Retention lookup failed"
  let now ← db .clock
  let threadId ← check (optionalId req.threadId "Invalid thread_id")
  let topicId ← check (optionalId req.topicId "Invalid topic_id")
  let clientMessageId ← check (Messages.clientMessageId req.clientMessageId)
  pure ⟨req.epoch, req.mlsCiphertext, clientMessageId, threadId, topicId, now + retentionDays * 86400⟩

def storeAndPublish (msg : NewGroupMessage) : MessageCall MessageReply := do
  let row ← internal (.insertGroupMessage msg) "Failed to store message"
  let _ ← db (.hubPublish row)
  pure (.sent row.messageId row.sequenceNumber row.sentAt row.expiresAt)

def sendGroupMessage (deviceId : String) (req : SendRequest) : MessageCall MessageReply := do
  checkSend deviceId req
  let msg ← newMessage req
  storeAndPublish msg

def pageLimit (requested : Nat) : Nat := min (max requested 1) 200

structure FetchRequest where
  afterSequence : Option Nat
  limit : Nat
  topicId : Option String

def fetchGroupMessages (deviceId : String) (req : FetchRequest) : MessageCall MessageReply := do
  ensureMember deviceId
  let topicId ← check (optionalId req.topicId "Invalid topic_id")
  let rows ← internal (.listGroupMessages req.afterSequence (pageLimit req.limit) topicId) "Failed to fetch messages"
  pure (.page rows)

/-- The receiver is taken before the membership is asked for; without an answer the group is not
carried. -/
def subscribe (deviceId : String) : MessageCall MessageReply := do
  let fresh ← db .hubSubscribe
  if fresh then do
    let active ← demandOr (.isActiveGroupMember deviceId) false
    let _ ← db (if active then .streamJoin else .streamDrop)
    pure .done
  else pure .done

def sendFrame (row : GroupMessageRow) : MessageCall MessageReply := do
  let sent ← attempt (internal (.streamSend row) "closed")
  match sent with
  | .ok _ => pure .done
  | .error (_ : Status) => do
    let _ ← db .streamEnd
    pure .done

def forwardFrame (deviceId : String) (row : GroupMessageRow) : MessageCall MessageReply := do
  let active ← attempt (db (.isActiveGroupMember deviceId))
  match active with
  | .ok true => sendFrame row
  | .ok false => do
    let _ ← db .streamDrop
    pure .done
  | .error (_ : Status) => do
    let _ ← db .streamEnd
    pure .done

def forward (deviceId : String) : MessageCall MessageReply := do
  let event ← db .nextEvent
  match event with
  | none => pure .done
  | some (.frame row) => forwardFrame deviceId row
  | some (.removed d) => do
    let _ ← db (if d = deviceId then .streamDrop else .streamSkip)
    pure .done

def hangUp : MessageCall MessageReply := do
  let _ ← db .streamEnd
  pure .done

/-- The part of `remove_member` and `leave_group` that takes the device out. -/
def removeDevice (deviceId : String) : MessageCall MessageReply := do
  let _ ← internal (.removeGroupMember deviceId) "Failed to remove member"
  let _ ← db (.hubRemoveMember deviceId)
  pure .done

def single (q : MessageStatement) : MessageCall MessageReply := do
  let _ ← db q
  pure .done

/-- The part of `dissolve_group` that ends the group. -/
def dissolveGroup : MessageCall MessageReply := do
  let now ← db .clock
  let _ ← internal (.setGroupDissolvedAt now) "Failed to dissolve group"
  let _ ← db .hubDissolve
  pure .done

inductive MessageOp
  | sendGroupMessage (deviceId : String) (req : SendRequest)
  | fetchGroupMessages (deviceId : String) (req : FetchRequest)
  | subscribe
  | forward
  | hangUp
  | removeDevice (deviceId : String)
  | admitDevice (deviceId : String)
  /-- By identity-service. -/
  | setDeviceActive (deviceId : String) (active : Bool)
  | dissolveGroup
  | submitCommit

def MessageOp.call (streamDevice : String) : MessageOp → MessageCall MessageReply
  | .sendGroupMessage d req => Messages.sendGroupMessage d req
  | .fetchGroupMessages d req => Messages.fetchGroupMessages d req
  | .subscribe => Messages.subscribe streamDevice
  | .forward => Messages.forward streamDevice
  | .hangUp => Messages.hangUp
  | .removeDevice d => Messages.removeDevice d
  | .admitDevice d => single (.insertGroupMember d)
  | .setDeviceActive d active => single (.setDeviceActive d active)
  | .dissolveGroup => Messages.dissolveGroup
  | .submitCommit => single .advanceGroupEpoch

inductive MessageEvent
  | tick (seconds : Nat)
  | sweep

def MessageEvent.happen (e : MessageEvent) (s : MessageStore) : MessageStore :=
  match e with
  | .tick seconds => { s with now := s.now + seconds }
  | .sweep => { s with messages := s.messages.filter fun m => decide (s.now ≤ m.expiresAt) }

abbrev MessageAction : Type := Action (Input MessageChoice) MessageOp MessageEvent

def emptyGroup (members : List String) : MessageStore where
  now := 1000
  group := some ⟨0, 30, none⟩
  nextSequence := 0
  messages := []
  members := fun d => decide (d ∈ members)
  inactive := fun _ => false
  stream := ⟨none, false, none, false⟩

/-! ### What a statement changes -/

/-- What the statement of a send has done: the row was there, or it is new. -/
inductive InsertCase (msg : NewGroupMessage) (messageId : String) (s : MessageStore) :
    GroupMessageRow → MessageStore → Prop
  | retry {row : GroupMessageRow} (hrow : s.duplicate? msg = some row) :
    InsertCase msg messageId s row { s with nextSequence := s.nextSequence + 1 }
  | stored (hnew : s.duplicate? msg = none) (hid : ∀ m ∈ s.messages, m.messageId ≠ messageId) :
    InsertCase msg messageId s (s.newRow msg messageId) { s with
      nextSequence := s.nextSequence + 1
      messages := s.messages ++ [s.newRow msg messageId] }

variable {s s' : MessageStore} {choice : MessageChoice} {msg : NewGroupMessage} {row : GroupMessageRow}

theorem insert_case (h : (MessageStatement.insertGroupMessage msg).effect choice s = some (row, s')) :
    InsertCase msg choice.messageId s row s' := by
  obtain ⟨g, -, h⟩ := bind_eq_some_iff.mp h
  split at h
  · rename_i hr
    cases h
    exact .retry hr
  · rename_i hn
    split at h
    · rename_i hid
      cases h
      exact .stored hn hid
    · cases h

theorem mem_of_duplicate {s : MessageStore} (h : s.duplicate? msg = some row) :
    row ∈ s.messages ∧ row.clientMessageId ≠ none ∧ row.clientMessageId = msg.clientMessageId := by
  have hr := List.find?_some h
  exact ⟨mem_of_find?_eq_some h, of_decide_eq_true hr⟩

inductive MessageField
  | group
  | messages
  | members
  | devices
  | stream

def MessageStatement.touches : MessageStatement → MessageField → Bool
  | .insertGroupMessage _, .messages => true
  | .insertGroupMember _, .members | .removeGroupMember _, .members => true
  | .setDeviceActive .., .devices => true
  | .setGroupDissolvedAt _, .group | .advanceGroupEpoch, .group => true
  | .hubPublish _, .stream | .hubRemoveMember _, .stream | .hubDissolve, .stream | .hubSubscribe, .stream
  | .nextEvent, .stream | .streamSend _, .stream | .streamSkip, .stream | .streamJoin, .stream
  | .streamDrop, .stream | .streamEnd, .stream => true
  | _, _ => false

structure MessageFrame (q : MessageStatement) (s s' : MessageStore) : Prop where
  now : s'.now = s.now
  group : q.touches .group = false → s'.group = s.group
  messages : q.touches .messages = false → s'.messages = s.messages ∧ s'.nextSequence = s.nextSequence
  members : q.touches .members = false → s'.members = s.members
  devices : q.touches .devices = false → s'.inactive = s.inactive
  stream : q.touches .stream = false → s'.stream = s.stream

variable {q : MessageStatement}

theorem MessageFrame.refl {s : MessageStore} : MessageFrame q s s :=
  ⟨rfl, fun _ => rfl, fun _ => ⟨rfl, rfl⟩, fun _ => rfl, fun _ => rfl, fun _ => rfl⟩

variable {x : q.Reply}

theorem frame_of_effect (h : q.effect choice s = some (x, s')) : MessageFrame q s s' := by
  cases q with
  | getGroupEpoch | getGroupRetentionDays =>
    obtain ⟨g, -, heq⟩ := map_eq_some_iff.mp h
    cases heq
    exact .refl
  | insertGroupMessage msg =>
    cases insert_case h with
    | retry | stored => exact ⟨rfl, fun _ => rfl, nofun, fun _ => rfl, fun _ => rfl, fun _ => rfl⟩
  | insertGroupMember d =>
    simp only [MessageStatement.effect] at h
    split at h
    · cases h
    · cases h
      constructor <;> first | rfl | exact fun _ => rfl | exact fun _ => ⟨rfl, rfl⟩ | nofun
  | hubSubscribe =>
    simp only [MessageStatement.effect] at h
    split_ifs at h <;> cases h
    · exact .refl
    · exact ⟨rfl, fun _ => rfl, fun _ => ⟨rfl, rfl⟩, fun _ => rfl, fun _ => rfl, nofun⟩
  | nextEvent =>
    simp only [MessageStatement.effect] at h
    split at h
    · obtain ⟨_, -, heq⟩ := map_eq_some_iff.mp h
      cases heq
      exact ⟨rfl, fun _ => rfl, fun _ => ⟨rfl, rfl⟩, fun _ => rfl, fun _ => rfl, nofun⟩
    · cases h
  | _ =>
    cases h
    constructor <;> first | rfl | exact fun _ => rfl | exact fun _ => ⟨rfl, rfl⟩ | nofun

def MessageStatement.Reads : MessageStatement → Prop
  | .clock | .rateLimit | .getGroupDissolvedAt | .isGroupMember _ | .isActiveGroupMember _ | .getGroupEpoch
  | .getGroupRetentionDays | .listGroupMessages .. => True
  | _ => False

theorem eq_of_reads (hq : q.Reads) (h : q.effect choice s = some (x, s')) : s' = s := by
  cases q with
  | getGroupEpoch | getGroupRetentionDays =>
    obtain ⟨g, -, heq⟩ := map_eq_some_iff.mp h
    cases heq
    rfl
  | clock | rateLimit | getGroupDissolvedAt | isGroupMember _ | isActiveGroupMember _ | listGroupMessages _ _ _ =>
    cases h
    rfl
  | _ => exact hq.elim

/-! ### The sequence of the messages -/

structure MessageStore.Numbered (s : MessageStore) : Prop where
  sorted : s.messages.Pairwise fun m m' => m.sequenceNumber < m'.sequenceNumber
  below : ∀ m ∈ s.messages, m.sequenceNumber < s.nextSequence

theorem numbered_emptyGroup {members : List String} : (emptyGroup members).Numbered := ⟨.nil, nofun⟩

theorem MessageStore.Numbered.insert {messageId : String}
    (hs : s.Numbered) (h : InsertCase msg messageId s row s') : s'.Numbered := by
  cases h with
  | retry _ => exact ⟨hs.sorted, fun m hm => Nat.lt_succ_of_lt (hs.below m hm)⟩
  | stored _ _ =>
    refine ⟨pairwise_append.mpr ⟨hs.sorted, pairwise_singleton _ _, fun m hm m' hm' => ?_⟩, fun m hm => ?_⟩
    · cases mem_singleton.mp hm'
      exact hs.below m hm
    · rcases Machine.mem_concat hm with hm | rfl
      · exact Nat.lt_succ_of_lt (hs.below m hm)
      · exact Nat.lt_succ_self _

theorem MessageStore.Numbered.effect (hs : s.Numbered) (h : q.effect choice s = some (x, s')) :
    s'.Numbered := by
  by_cases hto : q.touches .messages = false
  · obtain ⟨hme, hn⟩ := (frame_of_effect h).messages hto
    exact ⟨hme ▸ hs.sorted, hme ▸ hn ▸ hs.below⟩
  · cases q with
    | insertGroupMessage msg => exact hs.insert (insert_case h)
    | _ => exact absurd rfl hto

theorem MessageStore.Numbered.happen {s : MessageStore} (hs : s.Numbered) (e : MessageEvent) :
    (e.happen s).Numbered := by
  cases e with
  | tick seconds => exact ⟨hs.sorted, hs.below⟩
  | sweep => exact ⟨hs.sorted.filter _, fun m hm => hs.below m (mem_of_mem_filter hm)⟩

theorem mem_of_effect
    (h : q.effect choice s = some (x, s')) {m : GroupMessageRow}
    (hm : m ∈ s.messages) : m ∈ s'.messages := by
  by_cases hto : q.touches .messages = false
  · rw [((frame_of_effect h).messages hto).1]
    exact hm
  · cases q with
    | insertGroupMessage msg =>
      cases insert_case h with
      | retry _ => exact hm
      | stored _ _ => exact mem_append_left _ hm
    | _ => exact absurd rfl hto

section

variable {s : MessageStore} {after : Option Nat} {limit : Nat} {topicId : Option Uuid} {m : GroupMessageRow}

theorem page_eq_take (hs : s.Numbered) :
    s.page after limit topicId = (s.messages.filter fun m => decide (s.Wanted after topicId m)).take limit := by
  unfold MessageStore.page
  rw [((hs.sorted.filter _).imp Nat.le_of_lt).insertionSort_eq]

theorem pairwise_page (hs : s.Numbered) :
    (s.page after limit topicId).Pairwise fun m m' => m.sequenceNumber < m'.sequenceNumber := by
  rw [page_eq_take hs]
  exact (hs.sorted.filter _).sublist (take_sublist _ _)

theorem mem_of_mem_page (hs : s.Numbered) (h : m ∈ s.page after limit topicId) :
    m ∈ s.messages ∧ s.Wanted after topicId m := by
  rw [page_eq_take hs] at h
  obtain ⟨hm, hw⟩ := mem_filter.mp (mem_of_mem_take h)
  exact ⟨hm, of_decide_eq_true hw⟩

theorem mem_page_or_later (hs : s.Numbered) (hm : m ∈ s.messages) (hw : s.Wanted after topicId m) :
    m ∈ s.page after limit topicId ∨ limit ≤ (s.page after limit topicId).length ∧
        ∀ r ∈ s.page after limit topicId, r.sequenceNumber < m.sequenceNumber := by
  rw [page_eq_take hs]
  have hso := hs.sorted.filter fun m => decide (s.Wanted after topicId m)
  have hme : m ∈ s.messages.filter fun m => decide (s.Wanted after topicId m) :=
    mem_filter.mpr ⟨hm, decide_eq_true hw⟩
  rw [← take_append_drop limit (s.messages.filter _)] at hso hme
  rcases mem_append.mp hme with hta | hdr
  · exact .inl hta
  · refine .inr ⟨?_, fun r hr => (pairwise_append.mp hso).2.2 r hr m hdr⟩
    have hl := length_pos_of_mem hdr
    rw [length_drop] at hl
    rw [length_take]
    omega

end

end ConstructServer.Groups.Messages
