import ConstructServer.Messaging.SealedSender

/-!
# Requests from other servers

Another server presents a signed request, sealed or regular. The receiver checks the timestamp,
the payload hash and the signature, claims the message id of the origin in Redis for a week and
then dispatches. A presentation that finds the id claimed is answered as a duplicate; a failed
dispatch releases the claim. Presentations run side by side, time may pass between any two of
their calls, and any Redis call may fail or lose its reply.
-/

namespace ConstructServer.Messaging

open Queue Redis List Option Function

/-- The fields that the signature of a request covers. -/
structure FederatedEnvelope where
  messageId : String
  fromAddress : String
  toAddress : String
  originServer : String
  destinationServer : String
  timestamp : UInt64
  payloadHash : String
deriving DecidableEq

namespace FederatedEnvelope

def escape (field : Bytes) : Bytes :=
  field.flatMap fun b => if b = 37 then utf8 "%25" else if b = 58 then utf8 "%3A" else [b]

def canonicalBytes (e : FederatedEnvelope) : Bytes :=
  let fields := [e.messageId, e.fromAddress, e.toAddress, e.originServer, e.destinationServer,
    String.ofList (Decimal.printU64 e.timestamp), e.payloadHash]
  [(58 : UInt8)].intercalate (fields.map fun f => escape (utf8 f))

end FederatedEnvelope

structure InboundSealedRequest where
  messageId : String
  sealedInner : String
  originServer : String
  timestamp : UInt64
  payloadHash : String
  serverSignature : Option String

structure InboundMessageRequest where
  messageId : String
  fromAddress : String
  toAddress : String
  ciphertext : String
  originServer : String
  timestamp : UInt64
  payloadHash : String
  serverSignature : Option String

/-- A request to one of the two endpoints. -/
inductive InboundRequest
  | sealed (req : InboundSealedRequest)
  | message (req : InboundMessageRequest)

/-- An error answer: its status code and text. -/
structure FedHttpErr where
  status : Nat
  error : String

inductive FederationStatus
  | accepted
  | duplicate
deriving DecidableEq

structure FederationResponse where
  status : FederationStatus
  messageId : String

/-- The decoded inner part of a sealed message. -/
structure SealedInner where
  recipientUserId : String
  recipientDevice : String
  deliveryTag : Bytes

/-- What a request delivers. -/
inductive FedContent
  | sealed (sealedBytes : Bytes)
  | message (env : MessageEnvelope)

/-- The configuration of the server and the libraries it calls. -/
structure FederationServer where
  enabled : Bool
  instanceDomain : String
  maxRequestsPerOriginPerHour : Int
  delivery : DeliveryConfig
  codec : EnvelopeCodec
  sha256 : Bytes → Bytes
  encodeBase64 : Bytes → String
  decodeBase64 : String → Option Bytes
  verify : String → Bytes → String → Bool
  decodeInner : Bytes → Option SealedInner

/-- What the rate limiter and the key lookup answer; `none` if the rate limiter fails. -/
structure ReceiveInputs where
  underLimit : Option Bool
  publicKey : Except String String

/-- What the sealed path reads before its tag check: the account of a key address, whether the
token gate rejects, and the id of the new message. -/
structure SealedInputs where
  userByAddress : String → Except String (Option String)
  rejected : Option String
  messageId : String

def federationTimestampMaxSkewSecs : Nat := 300

def federationMsgDedupTtlSecs : Nat := 7 * 24 * 3600

def validateFederationTimestampAt (timestamp now : Nat) : Except FedHttpErr Unit :=
  let absDiff := if now < timestamp then timestamp - now else now - timestamp
  if federationTimestampMaxSkewSecs < absDiff then
    .error ⟨401, "envelope timestamp outside allowed skew"⟩
  else .ok ()

def claimFields (originServer messageId : String) : List Bytes := [utf8 originServer, utf8 messageId]

def federationMessageKey (sha256 : Bytes → Bytes) (originServer messageId : String) : String :=
  "fed:v2:msg:" ++ Framing.hexEncode (sha256 (Framing.frame (claimFields originServer messageId)))

namespace FederationServer

variable (server : FederationServer)

def checkOriginRateLimit (underLimit : Option Bool) : Except FedHttpErr Unit :=
  if server.maxRequestsPerOriginPerHour ≤ 0 then .ok ()
  else if underLimit = some false then .error ⟨429, "rate limit exceeded"⟩
  -- A failing rate limiter lets the request through.
  else .ok ()

def hashPayload (payload : String) : String := server.encodeBase64 (server.sha256 (utf8 payload))

def verifyOrigin (publicKey : Except String String) (envelope : FederatedEnvelope)
    (serverSignature : Option String) : Except FedHttpErr Unit :=
  match serverSignature with
  | none => .error ⟨401, "server_signature required"⟩
  | some signature =>
    match publicKey with
    | .error e => .error ⟨502, "failed to fetch origin public key: " ++ e⟩
    | .ok key =>
      if server.verify key envelope.canonicalBytes signature then .ok ()
      else .error ⟨401, "invalid server signature"⟩

def signedFields : InboundRequest → FederatedEnvelope
  | .sealed req => ⟨req.messageId, "", "", req.originServer, server.instanceDomain, req.timestamp,
      req.payloadHash⟩
  | .message req => ⟨req.messageId, req.fromAddress, req.toAddress, req.originServer,
      server.instanceDomain, req.timestamp, req.payloadHash⟩

/-- The envelope of a regular request; a payload that is not base64 is taken as it is. -/
def messageEnvelope (req : InboundMessageRequest) : MessageEnvelope :=
  ⟨req.messageId, req.fromAddress, req.toAddress, .directMessage,
    (server.decodeBase64 req.ciphertext).getD (utf8 req.ciphertext), false, none, none⟩

def checkOrigin (inputs : ReceiveInputs) (now : Nat) (envelope : FederatedEnvelope)
    (payload : String) (serverSignature : Option String) : Except FedHttpErr Unit := do
  validateFederationTimestampAt envelope.timestamp.toNat now
  server.checkOriginRateLimit inputs.underLimit
  if server.hashPayload payload ≠ envelope.payloadHash then
    .error ⟨400, "payload hash mismatch"⟩
  server.verifyOrigin inputs.publicKey envelope serverSignature

/-- Everything an endpoint checks before the claim. -/
def accept (inputs : ReceiveInputs) (now : Nat) (request : InboundRequest) :
    Except FedHttpErr FedContent :=
  if !server.enabled then .error ⟨404, "federation not enabled"⟩
  else
    match request with
    | .sealed req => do
      server.checkOrigin inputs now (server.signedFields request) req.sealedInner req.serverSignature
      match server.decodeBase64 req.sealedInner with
      | some sealedBytes => .ok (.sealed sealedBytes)
      | none => .error ⟨400, "invalid base64 in sealed_inner"⟩
    | .message req => do
      -- Empty addresses are those of sealed requests, whose signature would pass here.
      if req.fromAddress = "" ∨ req.toAddress = "" then
        .error ⟨400, "from and to required for regular messages"⟩
      server.checkOrigin inputs now (server.signedFields request) req.ciphertext req.serverSignature
      .ok (.message (server.messageEnvelope req))

/-- A sealed request for a recipient, unless the token gate rejects it; `none` if its key address
has no account here, which is answered like a delivery. -/
def routeTo (inputs : SealedInputs) (inner : SealedInner) (sealedBytes : Bytes) :
    Option String → Except String (Option (SealedRequest × Bytes))
  | none => .ok none
  | some recipientId =>
    match inputs.rejected with
    | some label => .error label
    | none => .ok (some (⟨inputs.messageId, recipientId, inner.recipientDevice, sealedBytes⟩,
        inner.deliveryTag))

/-- The request and the delivery tag of the bytes of a sealed message. -/
def resolveSealed (inputs : SealedInputs) (sealedBytes : Bytes) :
    Except String (Option (SealedRequest × Bytes)) :=
  match server.decodeInner sealedBytes with
  | none => .error "Failed to decode SealedInner"
  | some inner =>
    if inner.recipientUserId = "" then .error "SealedInner.recipient_user_id is required"
    else if inner.recipientUserId.startsWith "ed25519:" then
      (inputs.userByAddress inner.recipientUserId).bind (routeTo inputs inner sealedBytes)
    else routeTo inputs inner sealedBytes (some inner.recipientUserId)

end FederationServer

inductive FedPhase
  | claiming (validatedAt : Nat)
  | resolving
  | dispatching (env : MessageEnvelope) (tag : Bytes)
  | unmarking (tag : Bytes) (error : String)
  | releasing (error : String)

/-- An accepted presentation under way. -/
structure FedProcess where
  signed : FederatedEnvelope
  content : FedContent
  phase : FedPhase

structure FedAnswer where
  signed : FederatedEnvelope
  answer : Except FedHttpErr FederationResponse

structure FedDispatch where
  signed : FederatedEnvelope
  env : MessageEnvelope

/-- Redis, the presentations under way, the answers and the successful dispatches. -/
structure FederationState where
  /-- The clock in milliseconds. -/
  now : Nat
  claims : Keyspace Unit
  tags : Keyspace Unit
  store : Store
  pool : List FedProcess
  answered : List FedAnswer
  dispatched : List FedDispatch

def FederationState.initial : FederationState := ⟨0, .empty, .empty, ⟨[], []⟩, [], [], []⟩

inductive FedAction
  | tick (now : Nat)
  | arrive (request : InboundRequest) (inputs : ReceiveInputs)
  | claim (i : Nat) (o : Outcome)
  | resolve (i : Nat) (inputs : SealedInputs) (o : Outcome)
  | dispatch (i : Nat) (inputs : DispatchInputs)
  | unmark (i : Nat) (o : Outcome)
  | release (i : Nat) (o : Outcome)

namespace FederationState

variable (server : FederationServer) (s : FederationState)

def moveOn (i : Nat) (p : FedProcess) (phase : FedPhase) : FederationState :=
  { s with pool := Machine.replace s.pool i (some { p with phase }) }

def answer (i : Nat) (p : FedProcess) (answer : Except FedHttpErr FederationResponse) :
    FederationState :=
  { s with
    pool := Machine.replace s.pool i none
    answered := s.answered ++ [⟨p.signed, answer⟩] }

def claimed : FedContent → FedPhase
  | .sealed _ => .resolving
  | .message env => .dispatching env []

def claimKey (signed : FederatedEnvelope) : String :=
  federationMessageKey server.sha256 signed.originServer signed.messageId

def claim (i : Nat) (p : FedProcess) (o : Outcome) : FederationState :=
  if p.signed.messageId = "" ∨ 128 < (utf8 p.signed.messageId).length then
    s.answer i p (.error ⟨400, "invalid message_id"⟩)
  else
    let unavailable : Except FedHttpErr FederationResponse :=
      .error ⟨503, "federation dedup temporarily unavailable"⟩
    if o = .failed then s.answer i p unavailable
    else
      let (claims, fresh) := s.claims.setNX s.now (claimKey server p.signed) ()
        (some federationMsgDedupTtlSecs)
      let s := { s with claims }
      if o = .lost then s.answer i p unavailable
      else if fresh then s.moveOn i p (claimed p.content)
      else s.answer i p (.ok ⟨.duplicate, p.signed.messageId⟩)

def resolve (i : Nat) (p : FedProcess) (sealedBytes : Bytes) (inputs : SealedInputs) (o : Outcome) :
    FederationState :=
  match server.resolveSealed inputs sealedBytes with
  | .error e => s.moveOn i p (.releasing e)
  | .ok none => s.answer i p (.ok ⟨.accepted, inputs.messageId⟩)
  | .ok (some (req, tag)) =>
    let (replay, tags) := tagCheck server.sha256 s.tags s.now tag o
    let s := { s with tags }
    if replay then s.answer i p (.ok ⟨.accepted, inputs.messageId⟩)
    else s.moveOn i p (.dispatching (fromSealedSender req) tag)

def dispatch (i : Nat) (p : FedProcess) (env : MessageEnvelope) (tag : Bytes)
    (inputs : DispatchInputs) : FederationState :=
  match dispatchEnvelope server.delivery server.codec server.sha256 inputs s.store env with
  | (.ok (), store) =>
    let s : FederationState := { s with store, dispatched := s.dispatched ++ [⟨p.signed, env⟩] }
    s.answer i p (.ok ⟨.accepted, env.messageId⟩)
  | (.error e, store) =>
    let s := { s with store }
    if tag = [] then s.moveOn i p (.releasing e) else s.moveOn i p (.unmarking tag e)

def unmark (i : Nat) (p : FedProcess) (tag : Bytes) (error : String) (o : Outcome) :
    FederationState :=
  let tags := if o = .failed then s.tags else unmarkDeliveryTag server.sha256 s.tags tag
  { s with tags }.moveOn i p (.releasing error)

def release (i : Nat) (p : FedProcess) (error : String) (o : Outcome) : FederationState :=
  let claims := if o = .failed then s.claims else s.claims.del (claimKey server p.signed)
  { s with claims }.answer i p (.error ⟨500, "delivery failed: " ++ error⟩)

def step (s : FederationState) : FedAction → Option FederationState
  | .tick now => if s.now ≤ now then some { s with now } else none
  | .arrive request inputs =>
    let signed := server.signedFields request
    -- The timestamp is checked in whole seconds.
    match server.accept inputs (s.now / 1000) request with
    | .error e => some { s with answered := s.answered ++ [⟨signed, .error e⟩] }
    | .ok content => some { s with pool := s.pool ++ [⟨signed, content, .claiming s.now⟩] }
  | .claim i o =>
    match s.pool[i]? with
    | some p => match p.phase with
      | .claiming _ => some (s.claim server i p o)
      | _ => none
    | none => none
  | .resolve i inputs o =>
    match s.pool[i]? with
    | some p => match p.phase, p.content with
      | .resolving, .sealed sealedBytes => some (s.resolve server i p sealedBytes inputs o)
      | _, _ => none
    | none => none
  | .dispatch i inputs =>
    match s.pool[i]? with
    | some p => match p.phase with
      | .dispatching env tag => some (s.dispatch server i p env tag inputs)
      | _ => none
    | none => none
  | .unmark i o =>
    match s.pool[i]? with
    | some p => match p.phase with
      | .unmarking tag error => some (s.unmark server i p tag error o)
      | _ => none
    | none => none
  | .release i o =>
    match s.pool[i]? with
    | some p => match p.phase with
      | .releasing error => some (s.release server i p error o)
      | _ => none
    | none => none

end FederationState

inductive FedStep (server : FederationServer) (s : FederationState) :
    FedAction → FederationState → Prop
  | tick (now : Nat) (hle : s.now ≤ now) : FedStep server s (.tick now) { s with now }
  | refuse (request : InboundRequest) (inputs : ReceiveInputs) (e : FedHttpErr) :
    FedStep server s (.arrive request inputs)
      { s with answered := s.answered ++ [⟨server.signedFields request, .error e⟩] }
  | arrive (request : InboundRequest) (inputs : ReceiveInputs) (content : FedContent)
    (haccept : server.accept inputs (s.now / 1000) request = .ok content) :
    FedStep server s (.arrive request inputs)
      { s with pool := s.pool ++ [⟨server.signedFields request, content, .claiming s.now⟩] }
  | claim (i : Nat) (o : Outcome) (p : FedProcess) (v : Nat) (hp : s.pool[i]? = some p)
    (hphase : p.phase = .claiming v) : FedStep server s (.claim i o) (s.claim server i p o)
  | resolve (i : Nat) (inputs : SealedInputs) (o : Outcome) (p : FedProcess) (sealedBytes : Bytes)
    (hp : s.pool[i]? = some p) (hphase : p.phase = .resolving)
    (hcontent : p.content = .sealed sealedBytes) :
    FedStep server s (.resolve i inputs o) (s.resolve server i p sealedBytes inputs o)
  | dispatch (i : Nat) (inputs : DispatchInputs) (p : FedProcess) (env : MessageEnvelope)
    (tag : Bytes) (hp : s.pool[i]? = some p) (hphase : p.phase = .dispatching env tag) :
    FedStep server s (.dispatch i inputs) (s.dispatch server i p env tag inputs)
  | unmark (i : Nat) (o : Outcome) (p : FedProcess) (tag : Bytes) (error : String)
    (hp : s.pool[i]? = some p) (hphase : p.phase = .unmarking tag error) :
    FedStep server s (.unmark i o) (s.unmark server i p tag error o)
  | release (i : Nat) (o : Outcome) (p : FedProcess) (error : String)
    (hp : s.pool[i]? = some p) (hphase : p.phase = .releasing error) :
    FedStep server s (.release i o) (s.release server i p error o)

theorem fedStep_of_step {server : FederationServer} {s t : FederationState} {action : FedAction}
    (h : s.step server action = some t) : FedStep server s action t := by
  cases action with
  | tick now =>
    simp only [FederationState.step, ite_none_right_eq_some, some_inj] at h
    obtain ⟨hle, rfl⟩ := h
    exact .tick now hle
  | arrive request inputs =>
    simp only [FederationState.step] at h
    split at h
    next e _ =>
      obtain rfl := some_inj.mp h
      exact .refuse request inputs e
    next content ha =>
      obtain rfl := some_inj.mp h
      exact .arrive request inputs content ha
  | claim i o =>
    simp only [FederationState.step] at h
    split at h
    · split at h <;> cases h
      exact .claim i o _ _ ‹_› ‹_›
    · cases h
  | resolve i inputs o =>
    simp only [FederationState.step] at h
    split at h
    · split at h <;> cases h
      exact .resolve i inputs o _ _ ‹_› ‹_› ‹_›
    · cases h
  | dispatch i inputs =>
    simp only [FederationState.step] at h
    split at h
    · split at h <;> cases h
      exact .dispatch i inputs _ _ _ ‹_› ‹_›
    · cases h
  | unmark i o =>
    simp only [FederationState.step] at h
    split at h
    · split at h <;> cases h
      exact .unmark i o _ _ _ ‹_› ‹_›
    · cases h
  | release i o =>
    simp only [FederationState.step] at h
    split at h
    · split at h <;> cases h
      exact .release i o _ _ ‹_› ‹_›
    · cases h

def FederationState.claimsWith (server : FederationServer) (s : FederationState)
    (signed : FederatedEnvelope) : Keyspace Unit :=
  s.claims.set s.now (FederationState.claimKey server signed) () (some federationMsgDedupTtlSecs)

/-- What a claim does: nothing but an error answer; it claims and the reply is lost; it claims; or
it finds the id claimed. -/
inductive ClaimCase (server : FederationServer) (s : FederationState) (i : Nat) (p : FedProcess)
    (o : Outcome) : FederationState → Prop
  | refused (e : FedHttpErr) : ClaimCase server s i p o (s.answer i p (.error e))
  | lost (e : FedHttpErr) (ho : o = .lost) : ClaimCase server s i p o
      ({ s with claims := s.claimsWith server p.signed }.answer i p (.error e))
  | claimed (hget : s.claims.get s.now (FederationState.claimKey server p.signed) = none) :
    ClaimCase server s i p o ({ s with claims := s.claimsWith server p.signed }.moveOn i p
      (FederationState.claimed p.content))
  | duplicate (hget : (s.claims.get s.now (FederationState.claimKey server p.signed)).isSome) :
    ClaimCase server s i p o (s.answer i p (.ok ⟨.duplicate, p.signed.messageId⟩))

theorem claim_case (server : FederationServer) (s : FederationState) (i : Nat) (p : FedProcess)
    (o : Outcome) : ClaimCase server s i p o (s.claim server i p o) := by
  unfold FederationState.claim
  by_cases hid : p.signed.messageId = "" ∨ 128 < (utf8 p.signed.messageId).length
  · rw [if_pos hid]
    exact .refused _
  rw [if_neg hid]
  dsimp only
  by_cases ho : o = .failed
  · rw [if_pos ho]
    exact .refused _
  rw [if_neg ho]
  rcases hset : s.claims.setNX s.now (FederationState.claimKey server p.signed) ()
    (some federationMsgDedupTtlSecs) with ⟨claims, fresh⟩
  rcases Keyspace.setNX_eq hset with ⟨rfl, hg, rfl⟩ | ⟨rfl, hg, rfl⟩
  · by_cases hl : o = .lost
    · simp only [if_pos hl]
      exact .lost _ hl
    · simp only [if_neg hl, if_true]
      exact .claimed hg
  · by_cases hl : o = .lost
    · simp only [if_pos hl]
      exact .refused _
    · simp only [if_neg hl, Bool.false_eq_true, if_false]
      exact .duplicate hg

/-- What the sealed path does up to its dispatch: it fails; it drops a message for an unknown key
address, or one whose tag is marked, with the answer of a delivery; or it goes on to dispatch. -/
inductive ResolveCase (server : FederationServer) (s : FederationState) (i : Nat) (p : FedProcess)
    (sealedBytes : Bytes) (inputs : SealedInputs) : FederationState → Prop
  | failed (e : String) : ResolveCase server s i p sealedBytes inputs (s.moveOn i p (.releasing e))
  | dropped (hroute : server.resolveSealed inputs sealedBytes = .ok none) :
    ResolveCase server s i p sealedBytes inputs (s.answer i p (.ok ⟨.accepted, inputs.messageId⟩))
  | replay (req : SealedRequest) (tag : Bytes)
    (hroute : server.resolveSealed inputs sealedBytes = .ok (some (req, tag)))
    (hmarked : tag ≠ [] ∧ TagMarked server.sha256 s.tags s.now tag) :
    ResolveCase server s i p sealedBytes inputs (s.answer i p (.ok ⟨.accepted, inputs.messageId⟩))
  | routed (req : SealedRequest) (tag : Bytes) (tags : Keyspace Unit)
    (hroute : server.resolveSealed inputs sealedBytes = .ok (some (req, tag))) :
    ResolveCase server s i p sealedBytes inputs
      ({ s with tags }.moveOn i p (.dispatching (fromSealedSender req) tag))

theorem resolve_case (server : FederationServer) (s : FederationState) (i : Nat) (p : FedProcess)
    (sealedBytes : Bytes) (inputs : SealedInputs) (o : Outcome) :
    ResolveCase server s i p sealedBytes inputs (s.resolve server i p sealedBytes inputs o) := by
  unfold FederationState.resolve
  rcases hr : server.resolveSealed inputs sealedBytes with e | _ | ⟨req, tag⟩
  · exact .failed e
  · exact .dropped hr
  · dsimp only
    rcases hch : tagCheck server.sha256 s.tags s.now tag o with ⟨_ | _, tags⟩
    · exact .routed req tag tags hr
    · obtain ⟨hta, hm, rfl⟩ := tagCheck_replay hch
      exact .replay req tag hr ⟨hta, hm⟩

/-- What the dispatch of a presentation does: it succeeds, or the claim and the tag are still to be
given back. -/
inductive FedDispatchCase (server : FederationServer) (s : FederationState) (i : Nat)
    (p : FedProcess) (env : MessageEnvelope) (tag : Bytes) (inputs : DispatchInputs) :
    FederationState → Prop
  | ok (store : Store)
    (hcase : DispatchCase server.delivery server.codec server.sha256 inputs s.store env
      (.ok (), store)) :
    FedDispatchCase server s i p env tag inputs
      ({ s with store, dispatched := s.dispatched ++ [FedDispatch.mk p.signed env] }.answer i p
        (.ok ⟨.accepted, env.messageId⟩))
  | failed (store : Store) (e : String) (phase : FedPhase)
    (hsub : s.store.streams ⊆ store.streams)
    (hphase : phase = .releasing e ∨ phase = .unmarking tag e) :
    FedDispatchCase server s i p env tag inputs ({ s with store }.moveOn i p phase)

theorem dispatch_case (server : FederationServer) (s : FederationState) (i : Nat) (p : FedProcess)
    (env : MessageEnvelope) (tag : Bytes) (inputs : DispatchInputs) :
    FedDispatchCase server s i p env tag inputs (s.dispatch server i p env tag inputs) := by
  have hca := dispatchEnvelope_case server.delivery server.codec server.sha256 inputs s.store env
  unfold FederationState.dispatch
  rcases hr : dispatchEnvelope server.delivery server.codec server.sha256 inputs s.store env with ⟨e | _, store⟩
  all_goals rw [hr] at hca
  · have hs := subset_of_case hca
    dsimp only
    split_ifs
    · exact .failed store e _ hs (.inl rfl)
    · exact .failed store e _ hs (.inr rfl)
  · exact .ok store hca

section

variable {server : FederationServer} {sha256 : Bytes → Bytes}

theorem federationMessageKey_injective {o o' m m' : String} (hsh : Injective sha256)
    (hf : ∀ f ∈ claimFields o m, Framing.Fits f) (hf' : ∀ f ∈ claimFields o' m', Framing.Fits f)
    (h : federationMessageKey sha256 o m = federationMessageKey sha256 o' m') : o = o' ∧ m = m' := by
  have hfr : Framing.frame (claimFields o m) = Framing.frame (claimFields o' m') :=
    hsh (Framing.hexEncode_injective (String.append_right_inj _ |>.mp h))
  have hl : (claimFields o m).length = (claimFields o' m').length := rfl
  have hfi := Framing.frame_injective hl hf hf' hfr
  simpa [claimFields, utf8_injective.eq_iff] using hfi

theorem validateFederationTimestampAt_ok {timestamp now : Nat}
    (h : validateFederationTimestampAt timestamp now = .ok ()) :
    timestamp ≤ now + federationTimestampMaxSkewSecs ∧ now ≤ timestamp + federationTimestampMaxSkewSecs := by
  simp only [validateFederationTimestampAt] at h
  split_ifs at h <;> omega

/-- The content is that of the signed fields: it has their payload hash and, for a regular
request, their addresses. -/
def ContentOf (server : FederationServer) (signed : FederatedEnvelope) : FedContent → Prop
  | .sealed sealedBytes => ∃ payload, server.hashPayload payload = signed.payloadHash ∧
      server.decodeBase64 payload = some sealedBytes
  | .message env => ∃ payload, server.hashPayload payload = signed.payloadHash ∧
      env = ⟨signed.messageId, signed.fromAddress, signed.toAddress, .directMessage,
        (server.decodeBase64 payload).getD (utf8 payload), false, none, none⟩

/-- The envelope delivers the content of the signed fields. -/
def Carries (server : FederationServer) (signed : FederatedEnvelope) (env : MessageEnvelope) :
    Prop :=
  ContentOf server signed (.message env) ∨
    ∃ sealedBytes, ContentOf server signed (.sealed sealedBytes) ∧ env.sealedInner = some sealedBytes

theorem checkOrigin_ok {inputs : ReceiveInputs} {now : Nat} {envelope : FederatedEnvelope}
    {payload : String} {signature : Option String}
    (h : server.checkOrigin inputs now envelope payload signature = .ok ()) :
    validateFederationTimestampAt envelope.timestamp.toNat now = .ok () ∧
      server.hashPayload payload = envelope.payloadHash := by
  unfold FederationServer.checkOrigin at h
  cases hva : validateFederationTimestampAt envelope.timestamp.toNat now with
  | error e => simp [hva, bind, Except.bind] at h
  | ok =>
    cases hl : server.checkOriginRateLimit inputs.underLimit with
    | error e => simp [hva, hl, bind, Except.bind] at h
    | ok =>
      by_cases hh : server.hashPayload payload = envelope.payloadHash
      · exact ⟨rfl, hh⟩
      · simp [hva, hl, hh, bind, Except.bind] at h

theorem accept_ok {inputs : ReceiveInputs} {now : Nat} {request : InboundRequest}
    {content : FedContent} (h : server.accept inputs now request = .ok content) :
    validateFederationTimestampAt (server.signedFields request).timestamp.toNat now = .ok () ∧
      ContentOf server (server.signedFields request) content := by
  unfold FederationServer.accept at h
  split_ifs at h
  cases request with
  | sealed req =>
    dsimp only at h
    cases hch : server.checkOrigin inputs now (server.signedFields (.sealed req)) req.sealedInner
        req.serverSignature with
    | error e => simp [hch, bind, Except.bind] at h
    | ok =>
      obtain ⟨hva, hh⟩ := checkOrigin_ok hch
      rw [hch] at h
      cases hde : server.decodeBase64 req.sealedInner with
      | none => simp [hde, bind, Except.bind] at h
      | some sealedBytes =>
        obtain rfl : .sealed sealedBytes = content := by
          simpa [hde, bind, Except.bind] using h
        exact ⟨hva, _, hh, hde⟩
  | message req =>
    dsimp only at h
    split_ifs at h with ha
    · cases h
    cases hch : server.checkOrigin inputs now (server.signedFields (.message req)) req.ciphertext
        req.serverSignature with
    | error e => simp [hch, bind, Except.bind] at h
    | ok =>
      obtain ⟨hva, hh⟩ := checkOrigin_ok hch
      obtain rfl : .message (server.messageEnvelope req) = content := by
        simpa [hch, bind, Except.bind] using h
      exact ⟨hva, _, hh, rfl⟩

theorem routeTo_ok {inputs : SealedInputs} {inner : SealedInner} {sealedBytes tag : Bytes}
    {recipientId : Option String} {req : SealedRequest}
    (h : FederationServer.routeTo inputs inner sealedBytes recipientId = .ok (some (req, tag))) :
    req.sealedInner = sealedBytes := by
  unfold FederationServer.routeTo at h
  split at h
  · cases h
  · split at h
    · cases h
    · cases h
      rfl

theorem resolveSealed_ok {inputs : SealedInputs} {sealedBytes tag : Bytes} {req : SealedRequest}
    (h : server.resolveSealed inputs sealedBytes = .ok (some (req, tag))) : req.sealedInner = sealedBytes := by
  unfold FederationServer.resolveSealed at h
  split at h
  · cases h
  next inner hin =>
    split_ifs at h with hem hk
    · cases hl : inputs.userByAddress inner.recipientUserId with
      | error e => simp [hl, Except.bind] at h
      | ok recipientId =>
        rw [hl] at h
        exact routeTo_ok h
    · exact routeTo_ok h

end

section

variable {sha256 : Bytes → Bytes}

namespace FederatedEnvelope

theorem escape_cons (b : UInt8) (f : Bytes) : escape (b :: f) =
    (if b = 37 then [37, 50, 53] else if b = 58 then [37, 51, 65] else [b]) ++ escape f := rfl

theorem colon_not_mem_escape (f : Bytes) : (58 : UInt8) ∉ escape f := by
  induction f with
  | nil => simp [escape]
  | cons b f ih =>
    rw [escape_cons]
    split_ifs with h h'
    · simpa using ih
    · simpa using ih
    · simp [ih, Ne.symm h']

theorem escapeByte_append_inj {b c : UInt8} {s t : Bytes}
    (h : (if b = 37 then [37, 50, 53] else if b = 58 then [37, 51, 65] else [b]) ++ s =
      (if c = 37 then [37, 50, 53] else if c = 58 then [37, 51, 65] else [c]) ++ t) : b = c ∧ s = t := by
  split_ifs at h <;> simp_all

theorem escape_injective : Injective escape := by
  intro f
  induction f with
  | nil =>
    intro g h
    cases g with
    | nil => rfl
    | cons c g =>
      rw [escape_cons] at h
      split_ifs at h <;> simp [escape] at h
  | cons b f ih =>
    intro g h
    cases g with
    | nil =>
      rw [escape_cons] at h
      split_ifs at h <;> simp [escape] at h
    | cons c g =>
      rw [escape_cons, escape_cons] at h
      obtain ⟨rfl, hr⟩ := escapeByte_append_inj h
      rw [ih hr]

theorem canonicalBytes_injective : Injective canonicalBytes := by
  intro e e' h
  have hpa := congrArg (List.splitOn 58) h
  simp only [canonicalBytes] at hpa
  rw [splitOn_intercalate, splitOn_intercalate] at hpa
  · simp only [map_cons, map_nil, List.cons.injEq, escape_injective.eq_iff,
      utf8_injective.eq_iff, and_true] at hpa
    obtain ⟨hid, hf, hto, hor, hde, hti, hh⟩ := hpa
    have ht : e.timestamp = e'.timestamp := by
      have hpr := congrArg (fun s => Decimal.parseU64 s.toList) hti
      simpa [Decimal.parseU64_printU64] using hpr
    cases e
    cases e'
    simp_all
  all_goals simp [colon_not_mem_escape]

end FederatedEnvelope

/-- **The signed bytes determine every signed field, and those of a sealed request are never those
of a regular one that is accepted.** -/
theorem signed_bytes_unambiguous : Injective FederatedEnvelope.canonicalBytes ∧
      ∀ (server server' : FederationServer) (req : InboundSealedRequest)
        (req' : InboundMessageRequest) (inputs : ReceiveInputs) (now : Nat) (content : FedContent),
        server'.accept inputs now (.message req') = .ok content →
          (server.signedFields (.sealed req)).canonicalBytes ≠
            (server'.signedFields (.message req')).canonicalBytes := by
  refine ⟨FederatedEnvelope.canonicalBytes_injective, fun server server' req req' inputs now content hok h => ?_⟩
  have hfrom := congrArg FederatedEnvelope.fromAddress (FederatedEnvelope.canonicalBytes_injective h)
  -- A sealed request has no sender address, and a regular one without is refused.
  have hempty : req'.fromAddress = "" := hfrom.symm
  simp only [FederationServer.accept, hempty, true_or, if_true] at hok
  split_ifs at hok
  simp [bind, Except.bind] at hok

/-- **Two deliveries have one idempotency key only if they are the same delivery,** in the queue and
at the federation endpoints. -/
theorem idempotency_keys_separate (hsha : Injective sha256) :
    (∀ (s r : String) (d : Option String) (m s' r' : String) (d' : Option String) (m' : String),
      (∀ f ∈ dedupFields s r d m, Framing.Fits f) → (∀ f ∈ dedupFields s' r' d' m', Framing.Fits f) →
        (MessageDedupKey.new sha256 s r d m = .new sha256 s' r' d' m' ↔
          s = s' ∧ r = r' ∧ d.getD "" = d'.getD "" ∧ m = m')) ∧
      ∀ o m o' m' : String, (∀ f ∈ claimFields o m, Framing.Fits f) →
        (∀ f ∈ claimFields o' m', Framing.Fits f) →
          (federationMessageKey sha256 o m = federationMessageKey sha256 o' m' ↔ o = o' ∧ m = m') := by
  constructor
  · intro s r d m s' r' d' m' hfits hfits'
    refine ⟨messageDedupKey_injective hsha hfits hfits', ?_⟩
    rintro ⟨rfl, rfl, hdevice, rfl⟩
    simp only [MessageDedupKey.new, dedupFields, hdevice]
  · intro o m o' m' hfits hfits'
    refine ⟨federationMessageKey_injective hsha hfits hfits', ?_⟩
    rintro ⟨rfl, rfl⟩
    rfl

/-- A hash that keeps its input. The device is part of the key, and so is where the origin ends. -/
theorem idempotency_keys_separate_id :
    MessageDedupKey.new id "alice" "bob" (some "phone") "m" ≠ .new id "alice" "bob" none "m" ∧
      federationMessageKey id "a.example" "80:m" ≠ federationMessageKey id "a.example:80" "m" := by
  obtain ⟨hqueue, hfederation⟩ := idempotency_keys_separate Function.injective_id
  constructor
  · intro h
    have hdevice := ((hqueue _ _ _ _ _ _ _ _ (by decide +kernel) (by decide +kernel)).mp h).2.2.1
    exact absurd hdevice (by decide)
  · intro h
    have horigin := ((hfederation _ _ _ _ (by decide +kernel) (by decide +kernel)).mp h).1
    exact absurd horigin (by decide)

end

end ConstructServer.Messaging
