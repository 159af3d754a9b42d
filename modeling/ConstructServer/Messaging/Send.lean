import ConstructServer.Library.Machine
import ConstructServer.Messaging.Dispatch

/-!
# Sending a message

`SendMessage` checks the request, answers a duplicate at once, refuses blocked and rate-limited
senders, and dispatches the envelope. The recipient id is parsed for the block check and the
device lookup, while the envelope, the stream keys and the reader's filter use its text. The sealed
branch of the call has its own module.
-/

namespace ConstructServer.Messaging

open Queue Redis Machine List Option

inductive StatusCode
  | invalidArgument
  | unauthenticated
  | permissionDenied
  | internal

structure Status where
  code : StatusCode
  message : String

inductive ErrorCode
  | blocked
  | rateLimit

/-- Why a send was refused, in the body of the answer. -/
structure MessageError where
  messageId : String
  errorCode : ErrorCode
  errorMessage : String
  retryable : Bool
  retryAfterMs : Option Nat

structure SendMessageResponse where
  messageId : String
  success : Bool
  error : Option MessageError

structure ProtoEnvelope where
  sender : Option String
  senderDevice : Option String
  recipient : Option String
  recipientDevice : Option String
  messageId : Option String
  encryptedPayload : Bytes
  contentType : Int

/-- A request, with the identity of its access token. -/
structure SendMessageRequest where
  authed : Option (Uuid × Option String)
  message : Option ProtoEnvelope
  idempotencyKey : Option String
  fits : ∀ m ∈ message, ∀ t ∈ m.recipient.toList ++ m.recipientDevice.toList ++
    m.messageId.toList ++ idempotencyKey.toList, Framing.Fits (utf8 t)

/-- The Sentinel's answer. -/
structure SendPermission where
  allowed : Bool
  denialReason : String
  retryAfterSeconds : Nat

/-- What the database, Redis and the limits answer during one send. -/
structure SendInputs where
  newUuid : Uuid
  dedupReplies : Bool
  isBlockedBy : Uuid → Uuid → Except String Bool
  /-- `none` without a Sentinel, `some none` if it fails. -/
  sentinel : Option (Option SendPermission)
  limited : Option MessageError
  dispatch : DispatchInputs

section

def required {α : Type} (o : Option α) (message : String) : Except Status α :=
  match o with
  | some a => .ok a
  | none => .error ⟨.invalidArgument, message⟩

def maxPayloadBytes : Nat := 64 * 1024

def validatePayload (payload : Bytes) : Except Status Unit :=
  if payload = [] then .error ⟨.invalidArgument, "encrypted_payload is required"⟩
  else if maxPayloadBytes < payload.length then
    .error ⟨.invalidArgument, "encrypted_payload exceeds maximum size (" ++
      toString payload.length ++ " > " ++ toString maxPayloadBytes ++ " bytes)"⟩
  else .ok ()

def sentinelSenderDevice (tokenDevice envelopeDevice : Option String) : Except Status String :=
  match tokenDevice.filter (· ≠ "") with
  | none => .error ⟨.unauthenticated, "access token is not bound to a device"⟩
  | some token =>
    match envelopeDevice.filter (· ≠ "") with
    | some claimed =>
      if claimed.toLower ≠ token.toLower then
        .error ⟨.permissionDenied, "sender_device does not match authenticated device"⟩
      else .ok token
    | none => .ok token

def sendMessageId (messageId idempotencyKey : Option String) (newUuid : Uuid) : String :=
  match messageId.filter (· ≠ ""), idempotencyKey.filter (· ≠ "") with
  | some id, _ => id
  | none, some key => key
  | none, none => newUuid.toStr

/-- A request that passed its checks. -/
structure Prepared where
  senderId : Uuid
  recipient : String
  recipientDevice : Option String
  messageId : String
  encryptedPayload : Bytes
  contentType : Int

def prepare (req : SendMessageRequest) (newUuid : Uuid) : Except Status Prepared := do
  let envelope ← required req.message "message is required"
  let sender ← required envelope.sender "sender is required"
  let senderId ← required (Uuid.parseStr sender) "invalid sender.user_id"
  match req.authed with
  | none => .error ⟨.unauthenticated, "Missing or invalid authentication"⟩
  | some (authedId, authedDevice) =>
    if authedId ≠ senderId then
      .error ⟨.permissionDenied, "sender.user_id does not match authenticated user"⟩
    else
      let _ ← sentinelSenderDevice authedDevice envelope.senderDevice
      let recipient ← required envelope.recipient "recipient is required"
      validatePayload envelope.encryptedPayload
      return ⟨senderId, recipient, namedRecipientDevice envelope.recipientDevice,
        sendMessageId envelope.messageId req.idempotencyKey newUuid, envelope.encryptedPayload,
        envelope.contentType⟩

end

/-- The stored envelope of a request: two content types are control messages, and all others are
opaque. -/
def fromProtoEnvelope (p : Prepared) : MessageEnvelope :=
  let (messageType, payload) :=
    if p.contentType = 21 then (MessageType.controlMessage, utf8 "SESSION_RESET")
    else if p.contentType = 22 then (.controlMessage, utf8 "KEY_SYNC")
    else (.directMessage, p.encryptedPayload)
  ⟨p.messageId, p.senderId.toStr, p.recipient, messageType, payload, false, none,
    p.recipientDevice⟩

def denial (inputs : SendInputs) (messageId : String) : Option MessageError :=
  match inputs.sentinel.bind id with
  | some perm =>
    if perm.allowed then inputs.limited
    else if 0 < perm.retryAfterSeconds then
      some ⟨messageId, .rateLimit, perm.denialReason, true, some (perm.retryAfterSeconds * 1000)⟩
    else some ⟨messageId, .blocked, perm.denialReason, false, none⟩
  | none => inputs.limited

section

variable (cfg : DeliveryConfig) (codec : EnvelopeCodec) (sha256 : Bytes → Bytes)

def Prepared.dedupKey (p : Prepared) : MessageDedupKey :=
  .new sha256 p.senderId.toStr p.recipient p.recipientDevice p.messageId

def sendPrepared (inputs : SendInputs) (store : Store) (p : Prepared) :
    Except Status SendMessageResponse × Store :=
  if inputs.dedupReplies ∧ p.dedupKey sha256 ∈ store.marks then
    (.ok ⟨p.messageId, true, none⟩, store)
  else match Uuid.parseStr p.recipient with
    | none => (.error ⟨.invalidArgument, "invalid recipient.user_id"⟩, store)
    | some recipientId =>
      match inputs.isBlockedBy recipientId p.senderId with
      | .error e => (.error ⟨.internal, e⟩, store)
      | .ok true =>
        (.ok ⟨p.messageId, false,
          some ⟨p.messageId, .blocked, "Recipient has blocked you", false, none⟩⟩, store)
      | .ok false =>
        match denial inputs p.messageId with
        | some error => (.ok ⟨p.messageId, false, some error⟩, store)
        | none =>
          match dispatchEnvelope cfg codec sha256 inputs.dispatch store (fromProtoEnvelope p) with
          | (.error e, store) => (.error ⟨.internal, "Internal server error: " ++ e⟩, store)
          | (.ok (), store) => (.ok ⟨p.messageId, true, none⟩, store)

def sendMessage (inputs : SendInputs) (store : Store) (req : SendMessageRequest) :
    Except Status SendMessageResponse × Store :=
  match prepare req inputs.newUuid with
  | .error status => (.error status, store)
  | .ok p => sendPrepared cfg codec sha256 inputs store p

inductive StoreAction
  | send (inputs : SendInputs) (req : SendMessageRequest)
  | expire (key : MessageDedupKey)

def Store.step (store : Store) : StoreAction → Option Store
  | .send inputs req => some (sendMessage cfg codec sha256 inputs store req).2
  | .expire key => some { store with marks := store.marks.filter (· ≠ key) }

def Readable (streams : Streams) (u : Uuid) (P : MessageEnvelope → Prop) : Prop :=
  ∃ deviceId, ∃ key ∈ readKeys cfg u.toStr deviceId, ∃ fields, (key, fields) ∈ streams ∧
    ∃ env, readEntry codec u.toStr fields = some env ∧ P env

/-- After any run of sends, every send to the account under this spelling that answers success
without the sender being blocked leaves its message readable for the account: the envelope itself,
or for a duplicate the one that was stored under its key. -/
def DeliversSpelling (spelling : String) (u : Uuid) : Prop :=
  ∀ schedule store, run (Store.step cfg codec sha256) ⟨[], []⟩ schedule = some store →
    ∀ inputs req p response store', prepare req inputs.newUuid = .ok p → p.recipient = spelling →
      sendMessage cfg codec sha256 inputs store req = (.ok response, store') →
      response.success = true → droppedAsBlocked inputs.dispatch (fromProtoEnvelope p) = false →
      Readable cfg codec store'.streams u fun env =>
        MessageDedupKey.forEnvelope sha256 env = p.dedupKey sha256 ∧
          (p.dedupKey sha256 ∉ store.marks → env = fromProtoEnvelope p)

end

section

variable {cfg : DeliveryConfig} {codec : EnvelopeCodec} {sha256 : Bytes → Bytes}
  {inputs : SendInputs} {store store' : Store} {req : SendMessageRequest} {p : Prepared}
  {response : SendMessageResponse}

theorem sendPrepared_store (inputs : SendInputs) (store : Store) (p : Prepared) :
    (sendPrepared cfg codec sha256 inputs store p).2 = store ∨
      DispatchCase cfg codec sha256 inputs.dispatch store (fromProtoEnvelope p)
        ((dispatchEnvelope cfg codec sha256 inputs.dispatch store (fromProtoEnvelope p)).1,
          (sendPrepared cfg codec sha256 inputs store p).2) := by
  have hca := dispatchEnvelope_case cfg codec sha256 inputs.dispatch store (fromProtoEnvelope p)
  unfold sendPrepared
  split_ifs
  · exact .inl rfl
  split
  · exact .inl rfl
  split
  · exact .inl rfl
  · exact .inl rfl
  split
  · exact .inl rfl
  split
  next h =>
    rw [h] at hca ⊢
    exact .inr hca
  next h =>
    rw [h] at hca ⊢
    exact .inr hca

theorem sendPrepared_success (h : sendPrepared cfg codec sha256 inputs store p = (.ok response, store'))
    (hsu : response.success = true) : (p.dedupKey sha256 ∈ store.marks ∧ store' = store) ∨
      DispatchCase cfg codec sha256 inputs.dispatch store (fromProtoEnvelope p) (.ok (), store') := by
  have hca := dispatchEnvelope_case cfg codec sha256 inputs.dispatch store (fromProtoEnvelope p)
  unfold sendPrepared at h
  split_ifs at h with hdu
  · exact .inl ⟨hdu.2, (Prod.mk.inj h).2.symm⟩
  split at h
  · cases h
  split at h
  · cases h
  · obtain ⟨hre, -⟩ := Prod.mk.inj h
    rw [← Except.ok.inj hre] at hsu
    cases hsu
  split at h
  · obtain ⟨hre, -⟩ := Prod.mk.inj h
    rw [← Except.ok.inj hre] at hsu
    cases hsu
  split at h
  · cases h
  next hdi =>
    rw [hdi] at hca
    rw [← (Prod.mk.inj h).2]
    exact .inr hca

theorem sendPrepared_of_dispatch_ok {recipientId : Uuid} (hdu : p.dedupKey sha256 ∉ store.marks)
    (hpa : Uuid.parseStr p.recipient = some recipientId)
    (hb : inputs.isBlockedBy recipientId p.senderId = .ok false) (hde : denial inputs p.messageId = none)
    (hok : (dispatchEnvelope cfg codec sha256 inputs.dispatch store (fromProtoEnvelope p)).1 = .ok ()) :
    sendPrepared cfg codec sha256 inputs store p = (.ok ⟨p.messageId, true, none⟩,
      (dispatchEnvelope cfg codec sha256 inputs.dispatch store (fromProtoEnvelope p)).2) := by
  simp only [sendPrepared, hdu, and_false, if_false, hpa, hb, hde]
  revert hok
  rcases dispatchEnvelope cfg codec sha256 inputs.dispatch store (fromProtoEnvelope p) with
    ⟨_ | _, store'⟩
  · intro hok
    cases hok
  · exact fun _ => rfl

theorem landed_or_marked_of_send (h : sendPrepared cfg codec sha256 inputs store p = (.ok response, store'))
    (hsu : response.success = true) (hb : droppedAsBlocked inputs.dispatch (fromProtoEnvelope p) = false) :
    store.streams ⊆ store'.streams ∧
      (Landed cfg codec store'.streams (fromProtoEnvelope p) ∨ p.dedupKey sha256 ∈ store.marks) := by
  rcases sendPrepared_success h hsu with ⟨hm, rfl⟩ | hca
  · exact ⟨List.Subset.refl _, .inr hm⟩
  · exact ⟨subset_of_case hca, landed_or_marked_of_ok hca rfl hb⟩

theorem fits_of_length {s : String} (h : s.toList.length ≤ 45) : Framing.Fits (utf8 s) := by
  have hle := length_utf8_le s
  unfold Framing.Fits
  omega

theorem fits_toStr (u : Uuid) : Framing.Fits (utf8 u.toStr) :=
  fits_of_length (Uuid.length_le_of_parseStr (Uuid.parseStr_toStr u))

theorem sendMessageId_cases (messageId idempotencyKey : Option String) (newUuid : Uuid) :
    sendMessageId messageId idempotencyKey newUuid = newUuid.toStr ∨
      ∃ id, (messageId = some id ∨ idempotencyKey = some id) ∧
        sendMessageId messageId idempotencyKey newUuid = id := by
  unfold sendMessageId
  split
  next h => exact .inr ⟨_, .inl (filter_eq_some_iff.mp h).1, rfl⟩
  next h => exact .inr ⟨_, .inr (filter_eq_some_iff.mp h).1, rfl⟩
  next => exact .inl rfl

theorem required_eq_ok {α : Type} {o : Option α} {message : String} {a : α}
    (h : required o message = .ok a) : o = some a := by
  unfold required at h
  split at h
  · exact congrArg some (Except.ok.inj h)
  · cases h

theorem bind_eq_ok {ε α β : Type} {x : Except ε α} {f : α → Except ε β} {b : β}
    (h : x >>= f = .ok b) : ∃ a, x = .ok a ∧ f a = .ok b := by
  cases x with
  | error e => cases h
  | ok a => exact ⟨a, rfl, h⟩

theorem prepare_eq_ok {newUuid : Uuid} (h : prepare req newUuid = .ok p) :
    ∃ m, req.message = some m ∧ m.recipient = some p.recipient ∧
      p.recipientDevice = namedRecipientDevice m.recipientDevice ∧
      p.messageId = sendMessageId m.messageId req.idempotencyKey newUuid := by
  obtain ⟨m, hm, h⟩ := bind_eq_ok h
  obtain ⟨sender, -, h⟩ := bind_eq_ok h
  obtain ⟨senderId, -, h⟩ := bind_eq_ok h
  split at h
  · cases h
  split_ifs at h
  obtain ⟨_, -, h⟩ := bind_eq_ok h
  obtain ⟨recipient, hre, h⟩ := bind_eq_ok h
  obtain ⟨_, -, h⟩ := bind_eq_ok h
  obtain rfl := Except.ok.inj h
  exact ⟨m, required_eq_ok hm, required_eq_ok hre, rfl, rfl⟩

theorem routingFits_of_prepare {newUuid : Uuid} (h : prepare req newUuid = .ok p) :
    RoutingFits (fromProtoEnvelope p) := by
  obtain ⟨m, hm, hre, hde, hid⟩ := prepare_eq_ok h
  have hfi := req.fits m hm
  have hni : Framing.Fits (utf8 "") := fits_of_length (by simp)
  have hdev : Framing.Fits (utf8 (p.recipientDevice.getD "")) := by
    rw [hde, namedRecipientDevice]
    cases hd : m.recipientDevice with
    | none => exact hni
    | some d =>
      rw [bind_some, normalizeDeviceId, filter_some]
      split_ifs
      · exact hfi d (by simp [hd])
      · exact hni
  have hmi : Framing.Fits (utf8 p.messageId) := by
    rw [hid]
    rcases sendMessageId_cases m.messageId req.idempotencyKey newUuid with
      hn | ⟨id, hfr | hfr, hid⟩
    · rw [hn]
      exact fits_toStr newUuid
    · rw [hid]
      exact hfi id (by simp [hfr])
    · rw [hid]
      exact hfi id (by simp [hfr])
  intro f hf
  simp only [dedupFields, mem_cons, not_mem_nil, or_false] at hf
  rcases hf with rfl | rfl | rfl | rfl
  · exact fits_toStr p.senderId
  · exact hfi p.recipient (by simp [hre])
  · exact hdev
  · exact hmi

theorem marksLanded_send (hm : MarksLanded cfg codec sha256 store) :
    MarksLanded cfg codec sha256 (sendMessage cfg codec sha256 inputs store req).2 := by
  unfold sendMessage
  split
  · exact hm
  next p hp =>
    rcases sendPrepared_store inputs store p with h | hca
    · rw [h]
      exact hm
    · exact marksLanded_of_case hca (routingFits_of_prepare hp) hm

theorem marksLanded_run {schedule : List StoreAction}
    (hru : run (Store.step cfg codec sha256) ⟨[], []⟩ schedule = some store) :
    MarksLanded cfg codec sha256 store := by
  refine run_invariant (G := fun _ _ => True) ?_ ?_ (along_of_forall fun _ _ => trivial) hru
  · intro s a t hs _ hst
    cases a with
    | send inputs req =>
      obtain rfl := some.inj hst
      exact marksLanded_send hs
    | expire key =>
      obtain rfl := some.inj hst
      exact fun k hk => hs k (mem_of_mem_filter hk)
  · intro k hk
    cases hk

theorem readable_of_landed {streams : Streams} {u : Uuid} {env : MessageEnvelope}
    {P : MessageEnvelope → Prop} (hl : Landed cfg codec streams env)
    (hre : env.recipientId = u.toStr) (hP : P env) : Readable cfg codec streams u P := by
  obtain ⟨deviceId, key, hk, hm⟩ := hl
  rw [hre] at hk
  exact ⟨deviceId, key, hk, _, hm, env, by rw [readEntry_encode, if_pos hre], hP⟩

theorem deliversSpelling_toStr (hsh : Function.Injective sha256) (u : Uuid) :
    DeliversSpelling cfg codec sha256 u.toStr u := by
  intro schedule store hru inputs req p response store' hp hre hse hsu hb
  have hpr : sendPrepared cfg codec sha256 inputs store p = (.ok response, store') := by
    rwa [sendMessage, hp] at hse
  obtain ⟨hs, hl | hm⟩ := landed_or_marked_of_send hpr hsu hb
  · exact readable_of_landed hl hre ⟨rfl, fun _ => rfl⟩
  · -- A duplicate: the envelope stored under its key names the same recipient.
    obtain ⟨env, hk, hf, hl⟩ := marksLanded_run hru _ hm
    have hro := messageDedupKey_injective hsh hf (routingFits_of_prepare hp) hk
    exact readable_of_landed (hl.mono hs) (hro.2.1.trans hre) ⟨hk, fun hn => absurd hm hn⟩

end

section

def goodInputs (u : Uuid) : SendInputs where
  newUuid := u
  dedupReplies := true
  isBlockedBy _ _ := .ok false
  sentinel := none
  limited := none
  dispatch :=
    { dedupReplies := true
      isBlockedBy := fun _ _ => some false
      devicesOf := fun _ => some ["phone"]
      devicesOf_ne := by
        intro _ ids h d hd
        obtain rfl := some.inj h
        rw [mem_singleton.mp hd]
        decide
      writes := ⟨.ok, fun _ => .ok⟩
      mark := .ok }

def noteTo (u : Uuid) (spelling : String) (h : spelling.toList.length ≤ 45) :
    SendMessageRequest where
  authed := some (u, some "phone")
  message := some ⟨some u.toStr, none, some spelling, none, some "note", [1], 0⟩
  idempotencyKey := none
  fits := by
    intro m hm t ht
    obtain rfl := some.inj hm
    simp only [toList_some, toList_none, append_nil, singleton_append,
      mem_cons, not_mem_nil, or_false] at ht
    rcases ht with rfl | rfl
    · exact fits_of_length h
    · exact fits_of_length (by decide)

theorem prepare_noteTo (u v : Uuid) (spelling : String) (h : spelling.toList.length ≤ 45) :
    prepare (noteTo u spelling h) v = .ok ⟨u, spelling, none, "note", [1], 0⟩ := by
  simp [prepare, noteTo, required, sentinelSenderDevice, Option.filter, validatePayload,
    maxPayloadBytes, namedRecipientDevice, sendMessageId, Bind.bind, Except.bind]
  rfl

variable (cfg : DeliveryConfig) (codec : EnvelopeCodec) (sha256 : Bytes → Bytes)

theorem dispatch_goodInputs (u : Uuid) {env : MessageEnvelope} {v : Uuid}
    (hpa : Uuid.parseStr env.recipientId = some v) (hde : env.recipientDevice = none) :
    (dispatchEnvelope cfg codec sha256 (goodInputs u).dispatch ⟨[], []⟩ env).1 = .ok () := by
  have hb : droppedAsBlocked (goodInputs u).dispatch env = false := by
    unfold droppedAsBlocked
    split <;> rfl
  have hok : (deliver cfg codec (goodInputs u).dispatch [] env).1 = .ok () := by
    have hta : targetDevices (goodInputs u).dispatch env = ["phone"] := by
      simp [targetDevices, fetchRecipientDeviceIds, hpa, hde, selectTargetDevices, goodInputs]
    rw [deliver, write_ok_iff, hta]
    cases hw : cfg.mailboxUserWrite <;> simp [writesLand, hw, goodInputs]
  simp only [dispatchEnvelope, not_mem_nil, and_false, if_false, hb, Bool.false_eq_true]
  revert hok
  rcases deliver cfg codec (goodInputs u).dispatch [] env with ⟨_ | _, streams⟩
  · intro hok
    cases hok
  · exact fun _ => rfl

theorem unread_of_ne {spelling : String} {u : Uuid} (hpa : Uuid.parseStr spelling = some u)
    (hne : spelling ≠ u.toStr) : ∃ store', sendMessage cfg codec sha256 (goodInputs u) ⟨[], []⟩
        (noteTo u spelling (Uuid.length_le_of_parseStr hpa)) = (.ok ⟨"note", true, none⟩, store') ∧
      ∀ P, ¬ Readable cfg codec store'.streams u P := by
  let p : Prepared := ⟨u, spelling, none, "note", [1], 0⟩
  have hok : (dispatchEnvelope cfg codec sha256 (goodInputs u).dispatch ⟨[], []⟩
      (fromProtoEnvelope p)).1 = .ok () := dispatch_goodInputs cfg codec sha256 u hpa rfl
  refine ⟨(dispatchEnvelope cfg codec sha256 (goodInputs u).dispatch ⟨[], []⟩ (fromProtoEnvelope p)).2, ?_, ?_⟩
  · rw [sendMessage, prepare_noteTo]
    exact sendPrepared_of_dispatch_ok not_mem_nil hpa rfl rfl hok
  · rintro P ⟨deviceId, key, -, fields, hm, env, hre, -⟩
    -- Everything in the streams is the envelope under the other spelling.
    have hf : fields = encodeFields codec (fromProtoEnvelope p) :=
      (mem_of_case (dispatchEnvelope_case cfg codec sha256 _ _ _) hm).resolve_left
        not_mem_nil
    have hr : (fromProtoEnvelope p).recipientId ≠ u.toStr := hne
    rw [hf, readEntry_encode, if_neg hr] at hre
    cases hre

variable {sha256} in
/-- **Delivery depends on the spelling: of all the spellings of an account id that the send path
accepts, exactly the canonical one is delivered.** -/
theorem deliversSpelling_iff (hsha : Function.Injective sha256) {spelling : String} {u : Uuid}
    (hparse : Uuid.parseStr spelling = some u) :
    DeliversSpelling cfg codec sha256 spelling u ↔ spelling = u.toStr := by
  constructor
  · intro hdelivers
    by_contra hne
    obtain ⟨store', hsend, hunread⟩ := unread_of_ne cfg codec sha256 hparse hne
    refine hunread _ (hdelivers [] ⟨[], []⟩ rfl (goodInputs u) _ _ _ store'
      (prepare_noteTo u u spelling _) rfl hsend rfl ?_)
    unfold droppedAsBlocked
    split <;> rfl
  · rintro rfl
    exact deliversSpelling_toStr hsha u

def exampleAccount : Uuid := ⟨List.replicate 31 Uuid.zeroDigit ++ [⟨10, by decide⟩], rfl⟩

theorem canonical_spelling_delivered :
    DeliversSpelling ⟨"delivery", true⟩ unaryCodec id "00000000-0000-0000-0000-00000000000a" exampleAccount :=
  (deliversSpelling_iff _ _ Function.injective_id (by decide)).mpr (by decide)

/-- A send to the same account in upper case and without hyphens answers success, and no reader of
the account is handed anything. -/
theorem upper_case_spelling_unread :
    ∃ store', sendMessage ⟨"delivery", true⟩ unaryCodec id (goodInputs exampleAccount) ⟨[], []⟩
        (noteTo exampleAccount "0000000000000000000000000000000A" (by decide)) =
          (.ok ⟨"note", true, none⟩, store') ∧
      ∀ P, ¬ Readable ⟨"delivery", true⟩ unaryCodec store'.streams exampleAccount P :=
  unread_of_ne _ _ _ (by decide) (by decide)

end

end ConstructServer.Messaging
