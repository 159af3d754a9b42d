import Mathlib.Logic.Equiv.List
import ConstructServer.Library.Framing

/-!
# Envelopes in a mailbox stream

A mailbox entry holds a message id and a serialised envelope. A reader gets the envelope only
when both fields are there, the payload decodes and the envelope names the reader; every other
entry keeps its stream id and carries nothing.
-/

namespace ConstructServer.Queue

abbrev Bytes := List UInt8

def utf8 (s : String) : Bytes := s.toUTF8.data.toList

theorem utf8_injective : Function.Injective utf8 := by
  intro s t h
  have hda : s.toUTF8.data = t.toUTF8.data := Array.toList_inj.mp h
  exact String.toByteArray_inj.mp (congrArg ByteArray.mk hda)

theorem length_utf8_le (s : String) : (utf8 s).length ≤ 4 * s.toList.length := by
  obtain ⟨l, rfl⟩ : ∃ l, s = String.ofList l := ⟨s.toList, by simp⟩
  rw [utf8, String.toUTF8, String.toByteArray_ofList, String.toList_ofList, List.utf8Encode, List.data_toByteArray]
  simp only [List.length_flatMap, String.length_utf8EncodeChar]
  induction l with
  | nil => simp
  | cons c l ih =>
    have hc := Char.utf8Size_le_four c
    simp only [List.map_cons, List.sum_cons, List.length_cons]
    omega

/-- What an envelope carries. -/
inductive MessageType
  | directMessage
  | controlMessage
  | mlsMessage
  | mlsKeyPackage
  | mlsWelcome
  | mlsCommit
  | mlsProposal
  | federatedMessage
  | sealedSender
  | receipt
  | senderSync
deriving DecidableEq

/-- An envelope as the mailbox stores it. -/
structure MessageEnvelope where
  messageId : String
  senderId : String
  recipientId : String
  messageType : MessageType
  encryptedPayload : Bytes
  isSealedSender : Bool
  sealedInner : Option Bytes
  recipientDevice : Option String
deriving DecidableEq

/-- The Redis key of one sender's delivery to one account or device. -/
structure MessageDedupKey where
  text : String
deriving DecidableEq

section

variable (sha256 : Bytes → Bytes)

def dedupFields (senderId recipientId : String) (recipientDevice : Option String)
    (messageId : String) : List Bytes :=
  [utf8 senderId, utf8 recipientId, utf8 (recipientDevice.getD ""), utf8 messageId]

/-- The key of a delivery: the hash of its length-prefixed routing fields. -/
def MessageDedupKey.new (senderId recipientId : String) (recipientDevice : Option String)
    (messageId : String) : MessageDedupKey :=
  ⟨"msg:dedup:v2:" ++ Framing.hexEncode
    (sha256 (Framing.frame (dedupFields senderId recipientId recipientDevice messageId)))⟩

def MessageDedupKey.forEnvelope (env : MessageEnvelope) : MessageDedupKey :=
  .new sha256 env.senderId env.recipientId env.recipientDevice env.messageId

variable {sha256} {s s' r r' m m' : String} {d d' : Option String}

theorem messageDedupKey_injective (hsh : Function.Injective sha256)
    (hf : ∀ f ∈ dedupFields s r d m, Framing.Fits f) (hf' : ∀ f ∈ dedupFields s' r' d' m', Framing.Fits f)
    (h : MessageDedupKey.new sha256 s r d m = .new sha256 s' r' d' m') :
    s = s' ∧ r = r' ∧ d.getD "" = d'.getD "" ∧ m = m' := by
  have ht := congrArg MessageDedupKey.text h
  have hfr : Framing.frame (dedupFields s r d m) = Framing.frame (dedupFields s' r' d' m') :=
    hsh (Framing.hexEncode_injective (String.append_right_inj _ |>.mp ht))
  have hl : (dedupFields s r d m).length = (dedupFields s' r' d' m').length := rfl
  have hfi := Framing.frame_injective hl hf hf' hfr
  simpa [dedupFields, utf8_injective.eq_iff] using hfi

end

/-- The fields of a stream entry that a read looks at. -/
structure StreamFields where
  messageId : Option Bytes
  payload : Option Bytes

/-- The serialisation of envelopes: `decode` reads back what `encode` wrote. -/
structure EnvelopeCodec where
  encode : MessageEnvelope → Bytes
  decode : Bytes → Option MessageEnvelope
  decode_encode : ∀ env, decode (encode env) = some env

/-- Why an entry is not readable. -/
inductive ParseError
  | missingMessageId
  | invalidMessageId
  | missingPayload
  | undecodable

def ParseError.message : ParseError → String
  | .missingMessageId => "Missing message_id in stream message"
  | .invalidMessageId => "Invalid UTF-8 in message_id"
  | .missingPayload => "Missing payload in stream message"
  | .undecodable => "Failed to deserialize MessageEnvelope from stream"

section

variable (codec : EnvelopeCodec)

def parseStreamMessage (fields : StreamFields) (userId : String) :
    Except ParseError (Option MessageEnvelope) :=
  match fields.messageId with
  | none => .error .missingMessageId
  | some messageId =>
    if !ByteArray.validateUTF8 ⟨messageId.toArray⟩ then .error .invalidMessageId
    else match fields.payload with
      | none => .error .missingPayload
      | some payload =>
        match codec.decode payload with
        | none => .error .undecodable
        | some env => .ok (if env.recipientId ≠ userId then none else some env)

def readEntry (userId : String) (fields : StreamFields) : Option MessageEnvelope :=
  match parseStreamMessage codec fields userId with
  | .ok env => env
  | .error _ => none

def encodeFields (env : MessageEnvelope) : StreamFields :=
  ⟨some (utf8 env.messageId), some (codec.encode env)⟩

variable {codec}

theorem validateUTF8_utf8 (s : String) : ByteArray.validateUTF8 ⟨(utf8 s).toArray⟩ = true := by
  have hby : (⟨(utf8 s).toArray⟩ : ByteArray) = s.toByteArray := by
    simp [utf8, String.toUTF8]
  rw [hby, ByteArray.validateUTF8_eq_true_iff]
  exact s.isValidUTF8

theorem parseStreamMessage_encode (env : MessageEnvelope) (userId : String) :
    parseStreamMessage codec (encodeFields codec env) userId =
      .ok (if env.recipientId = userId then some env else none) := by
  by_cases h : env.recipientId = userId <;>
    simp [parseStreamMessage, encodeFields, validateUTF8_utf8, codec.decode_encode, h]

theorem readEntry_encode (env : MessageEnvelope) (userId : String) :
    readEntry codec userId (encodeFields codec env) = if env.recipientId = userId then some env else none := by
  rw [readEntry, parseStreamMessage_encode]

end

section

instance encodableChar : Encodable Char :=
  .ofLeftInjection Char.toNat (fun n => some (Char.ofNat n)) fun c => by simp

instance encodableString : Encodable String :=
  .ofLeftInjection String.toList (fun l => some (String.ofList l)) fun s => by simp

instance encodableUInt8 : Encodable UInt8 :=
  .ofLeftInjection UInt8.toNat (fun n => some (UInt8.ofNat n)) fun b => by simp

instance encodableMessageType : Encodable MessageType :=
  .ofLeftInjection MessageType.ctorIdx
    (fun n => [MessageType.directMessage, .controlMessage, .mlsMessage, .mlsKeyPackage,
      .mlsWelcome, .mlsCommit, .mlsProposal, .federatedMessage, .sealedSender, .receipt,
      .senderSync][n]?)
    fun t => by cases t <;> rfl

instance encodableMessageEnvelope : Encodable MessageEnvelope :=
  .ofLeftInjection
    (fun e => (e.messageId, e.senderId, e.recipientId, e.messageType, e.encryptedPayload,
      e.isSealedSender, e.sealedInner, e.recipientDevice))
    (fun (m, s, r, t, p, b, i, d) => some ⟨m, s, r, t, p, b, i, d⟩)
    fun _ => rfl

def unaryCodec : EnvelopeCodec where
  encode env := List.replicate (Encodable.encode env) 0
  decode bytes := Encodable.decode bytes.length
  decode_encode env := by simp

end

end ConstructServer.Queue
