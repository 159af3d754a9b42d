import ConstructServer.Library.Uuid
import ConstructServer.Queue.Delivery

/-!
# Dispatching an envelope to its recipient's mailbox

A dispatch skips an envelope whose idempotency key is marked, drops one whose sender the recipient
has blocked, looks up the recipient's devices by the parsed account id and writes to the streams
named by the text of that id. The key is marked only after the write.
-/

namespace ConstructServer.Messaging

open Queue Redis

/-- How the targets of an envelope were chosen. -/
inductive Routing
  | unnamed
  | named
  | unknownDevice

def normalizeDeviceId (deviceId : String) : Option String := (some deviceId).filter (· ≠ "")

def namedRecipientDevice (recipientDevice : Option String) : Option String :=
  recipientDevice.bind normalizeDeviceId

def selectTargetDevices (activeDevices : List String) (namedDevice : Option String) :
    List String × Routing :=
  match namedDevice.filter (· ≠ "") with
  | none => (activeDevices, .unnamed)
  | some named =>
    if activeDevices.contains named then ([named], .named) else (activeDevices, .unknownDevice)

theorem mem_of_mem_selectTargetDevices {active : List String} {named : Option String} {d : String}
    (h : d ∈ (selectTargetDevices active named).1) : d ∈ active := by
  unfold selectTargetDevices at h
  split at h
  · exact h
  · split_ifs at h with hco
    · rw [List.mem_singleton.mp h]
      simpa using hco
    · exact h

/-- Redis, as far as a dispatch uses it. -/
structure Store where
  streams : Streams
  marks : List MessageDedupKey

/-- What the database and Redis answer during one dispatch. -/
structure DispatchInputs where
  dedupReplies : Bool
  /-- Whether the first account has blocked the second; `none` if the database fails. -/
  isBlockedBy : Uuid → Uuid → Option Bool
  /-- The active devices of an account; `none` if the database fails. -/
  devicesOf : Uuid → Option (List String)
  devicesOf_ne : ∀ u ids, devicesOf u = some ids → ∀ d ∈ ids, d ≠ ""
  writes : WriteOutcomes
  mark : Outcome

def isUserMessage : MessageType → Bool
  | .directMessage | .mlsMessage | .senderSync => true
  | _ => false

/-- The active devices of a recipient; an unreadable id or a failed lookup gives none. -/
def fetchRecipientDeviceIds (inputs : DispatchInputs) (recipientId : String) : List String :=
  match Uuid.parseStr recipientId with
  | none => []
  | some u => (inputs.devicesOf u).getD []

section

variable (cfg : DeliveryConfig) (codec : EnvelopeCodec) (sha256 : Bytes → Bytes)

/-- The block check of a dispatch; it goes on if an id is unreadable or the database fails. -/
def droppedAsBlocked (inputs : DispatchInputs) (env : MessageEnvelope) : Bool :=
  match Uuid.parseStr env.senderId, Uuid.parseStr env.recipientId with
  | some sender, some recipient => inputs.isBlockedBy recipient sender = some true
  | _, _ => false

def targetDevices (inputs : DispatchInputs) (env : MessageEnvelope) : List String :=
  let activeDevices := fetchRecipientDeviceIds inputs env.recipientId
  (selectTargetDevices activeDevices env.recipientDevice).1

def deliver (inputs : DispatchInputs) (streams : Streams) (env : MessageEnvelope) :
    Except String Unit × Streams :=
  writeMessageToDeviceStreams cfg codec inputs.writes streams env.recipientId
    (targetDevices inputs env) env

/-- What follows the write: the mark is set after it; if that fails a retry may duplicate the
message. -/
def concluded (inputs : DispatchInputs) (env : MessageEnvelope) (store : Store) :
    Except String Unit → Except String Unit × Store
  | .error e => (.error ("Failed to deliver message: " ++ e), store)
  | .ok () =>
    let marks := if isUserMessage env.messageType ∧ inputs.mark ≠ .failed then
      store.marks ++ [MessageDedupKey.forEnvelope sha256 env] else store.marks
    (.ok (), { store with marks })

def dispatchEnvelope (inputs : DispatchInputs) (store : Store) (env : MessageEnvelope) :
    Except String Unit × Store :=
  let isUser := isUserMessage env.messageType
  let dedupKey := MessageDedupKey.forEnvelope sha256 env
  if isUser ∧ inputs.dedupReplies ∧ dedupKey ∈ store.marks then (.ok (), store)
  else if isUser ∧ droppedAsBlocked inputs env then (.ok (), store)
  else
    let (delivered, streams) := deliver cfg codec inputs store.streams env
    concluded sha256 inputs env { store with streams } delivered

def Landed (streams : Streams) (env : MessageEnvelope) : Prop :=
  ∃ deviceId, ∃ key ∈ readKeys cfg env.recipientId deviceId,
    (key, encodeFields codec env) ∈ streams

def RoutingFits (env : MessageEnvelope) : Prop :=
  ∀ f ∈ dedupFields env.senderId env.recipientId env.recipientDevice env.messageId,
    Framing.Fits f

def MarksLanded (store : Store) : Prop :=
  ∀ k ∈ store.marks, ∃ env, MessageDedupKey.forEnvelope sha256 env = k ∧ RoutingFits env ∧
    Landed cfg codec store.streams env

end

section

variable {cfg : DeliveryConfig} {codec : EnvelopeCodec} {sha256 : Bytes → Bytes}
  {inputs : DispatchInputs} {store : Store} {env : MessageEnvelope}

theorem Landed.mono {streams streams' : Streams} (h : Landed cfg codec streams env)
    (hs : streams ⊆ streams') : Landed cfg codec streams' env := by
  obtain ⟨deviceId, key, hk, hm⟩ := h
  exact ⟨deviceId, key, hk, hs hm⟩

theorem ne_empty_of_mem_fetch {d : String} (h : d ∈ fetchRecipientDeviceIds inputs env.recipientId) : d ≠ "" := by
  unfold fetchRecipientDeviceIds at h
  split at h
  · cases h
  next u hu =>
    cases hid : inputs.devicesOf u with
    | none => simp [hid] at h
    | some ids =>
      rw [hid] at h
      exact inputs.devicesOf_ne u ids hid d h

theorem landed_of_deliver_ok {streams : Streams} (h : (deliver cfg codec inputs streams env).1 = .ok ()) :
    Landed cfg codec (deliver cfg codec inputs streams env).2 env := by
  obtain ⟨key, hk, hm⟩ := exists_of_write_ok h
  rcases hk with rfl | ⟨deviceId, hde, rfl⟩
  · exact ⟨none, _, by simp [readKeys], hm⟩
  · have hne := ne_empty_of_mem_fetch (mem_of_mem_selectTargetDevices hde)
    exact ⟨some deviceId, _, by simp [readKeys, Option.filter, hne], hm⟩

/-- What a dispatch does: it finds the key marked, it drops the envelope of a blocked sender, its
write fails, or it lands the envelope and then may mark its key. -/
inductive DispatchCase (cfg : DeliveryConfig) (codec : EnvelopeCodec) (sha256 : Bytes → Bytes)
    (inputs : DispatchInputs) (store : Store) (env : MessageEnvelope) :
    Except String Unit × Store → Prop
  | marked (huser : isUserMessage env.messageType = true)
    (hkey : MessageDedupKey.forEnvelope sha256 env ∈ store.marks) :
    DispatchCase cfg codec sha256 inputs store env (.ok (), store)
  | blocked (huser : isUserMessage env.messageType = true)
    (hblocked : droppedAsBlocked inputs env = true) :
    DispatchCase cfg codec sha256 inputs store env (.ok (), store)
  | failed (text : String) (streams : Streams) (hsub : store.streams ⊆ streams)
    (hmem : ∀ e ∈ streams, e ∈ store.streams ∨ e.2 = encodeFields codec env) :
    DispatchCase cfg codec sha256 inputs store env (.error text, { store with streams })
  | landed (streams : Streams) (marks : List MessageDedupKey) (hsub : store.streams ⊆ streams)
    (hmem : ∀ e ∈ streams, e ∈ store.streams ∨ e.2 = encodeFields codec env)
    (hlanded : Landed cfg codec streams env)
    (hmarks : marks = store.marks ∨
      marks = store.marks ++ [MessageDedupKey.forEnvelope sha256 env]) :
    DispatchCase cfg codec sha256 inputs store env (.ok (), ⟨streams, marks⟩)

theorem dispatchEnvelope_case (cfg : DeliveryConfig) (codec : EnvelopeCodec)
    (sha256 : Bytes → Bytes) (inputs : DispatchInputs) (store : Store) (env : MessageEnvelope) :
    DispatchCase cfg codec sha256 inputs store env (dispatchEnvelope cfg codec sha256 inputs store env) := by
  simp only [dispatchEnvelope]
  by_cases hdu : isUserMessage env.messageType ∧ inputs.dedupReplies ∧
      MessageDedupKey.forEnvelope sha256 env ∈ store.marks
  · rw [if_pos hdu]
    exact .marked hdu.1 hdu.2.2
  rw [if_neg hdu]
  by_cases hbl : isUserMessage env.messageType ∧ droppedAsBlocked inputs env
  · rw [if_pos hbl]
    exact .blocked hbl.1 hbl.2
  rw [if_neg hbl]
  have hs : store.streams ⊆ (deliver cfg codec inputs store.streams env).2 := subset_write
  have hm : ∀ e ∈ (deliver cfg codec inputs store.streams env).2,
      e ∈ store.streams ∨ e.2 = encodeFields codec env := fun e he => mem_write he
  have hl : (deliver cfg codec inputs store.streams env).1 = .ok () →
      Landed cfg codec (deliver cfg codec inputs store.streams env).2 env := landed_of_deliver_ok
  revert hs hm hl
  rcases deliver cfg codec inputs store.streams env with ⟨_ | _, streams⟩
  · exact fun hs hm _ => .failed _ _ hs hm
  · intro hs hm hl
    refine .landed streams _ hs hm (hl rfl) ?_
    split_ifs
    · exact .inr rfl
    · exact .inl rfl

variable {result : Except String Unit × Store}

theorem landed_or_marked_of_ok (h : DispatchCase cfg codec sha256 inputs store env result)
    (hok : result.1 = .ok ())
    (hb : droppedAsBlocked inputs env = false) : Landed cfg codec result.2.streams env ∨
      MessageDedupKey.forEnvelope sha256 env ∈ store.marks := by
  cases h with
  | marked hu hk => exact .inr hk
  | blocked hu h =>
    rw [hb] at h
    cases h
  | failed text streams hs hm => cases hok
  | landed streams marks hs hm hl hma => exact .inl hl

theorem subset_of_case
    (h : DispatchCase cfg codec sha256 inputs store env result) : store.streams ⊆ result.2.streams := by
  cases h with
  | marked | blocked => exact List.Subset.refl _
  | failed text streams hs hm => exact hs
  | landed streams marks hs hm hl hma => exact hs

theorem mem_of_case {e : String × StreamFields}
    (h : DispatchCase cfg codec sha256 inputs store env result) (he : e ∈ result.2.streams) :
    e ∈ store.streams ∨ e.2 = encodeFields codec env := by
  cases h with
  | marked | blocked => exact .inl he
  | failed text streams hs hm => exact hm e he
  | landed streams marks hs hm hl hma => exact hm e he

theorem marksLanded_of_case (h : DispatchCase cfg codec sha256 inputs store env result)
    (hf : RoutingFits env)
    (hm : MarksLanded cfg codec sha256 store) : MarksLanded cfg codec sha256 result.2 := by
  have ho : ∀ k ∈ store.marks, ∃ env', MessageDedupKey.forEnvelope sha256 env' = k ∧
      RoutingFits env' ∧ Landed cfg codec result.2.streams env' := by
    intro k hk
    obtain ⟨env', hke, hf', hl⟩ := hm k hk
    exact ⟨env', hke, hf', hl.mono (subset_of_case h)⟩
  cases h with
  | marked | blocked | failed => exact ho
  | landed streams marks hs hme hl hn =>
    rcases hn with rfl | rfl
    · exact ho
    · intro k hk
      rcases List.mem_append.mp hk with hk | hk
      · exact ho k hk
      · rw [List.mem_singleton.mp hk]
        exact ⟨env, rfl, hf, hl⟩

end

end ConstructServer.Messaging
