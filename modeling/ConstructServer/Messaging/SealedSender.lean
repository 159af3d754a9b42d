import ConstructServer.Library.Machine
import ConstructServer.Library.RedisKeys
import ConstructServer.Messaging.Dispatch

/-!
# Replay protection of sealed messages

A sealed message carries a random delivery tag. A request first marks the tag, in an exact cache
for five minutes and a seen cache for a day; one that finds the tag marked is answered success as
a replay. The message is dispatched after the mark, and a failed dispatch removes the mark again.
Any number of requests with one tag run side by side, and any Redis call may fail or lose its
reply.
-/

namespace ConstructServer.Messaging

open Queue Redis Machine Keyspace List Option

inductive DeliveryTagStatus
  | new
  | exactCacheHit
  | seenCacheHit
deriving DecidableEq

section

variable (sha256 : Bytes → Bytes)

def exactTtlSecs : Nat := 300

def seenTtlSecs : Nat := 86400

def exactKey (tag : Bytes) : String := "sealed:exact:" ++ Framing.hexEncode (sha256 tag)

def seenKey (tag : Bytes) : String := "sealed:seen:" ++ Framing.hexEncode (sha256 tag)

def checkAndMarkDeliveryTag (keys : Keyspace Unit) (now : Nat) (tag : Bytes) :
    DeliveryTagStatus × Keyspace Unit :=
  if (keys.get now (exactKey sha256 tag)).isSome then (.exactCacheHit, keys)
  else if (keys.get now (seenKey sha256 tag)).isSome then (.seenCacheHit, keys)
  else (.new, (keys.set now (exactKey sha256 tag) () (some exactTtlSecs)).set now
    (seenKey sha256 tag) () (some seenTtlSecs))

def unmarkDeliveryTag (keys : Keyspace Unit) (tag : Bytes) : Keyspace Unit :=
  (keys.del (exactKey sha256 tag)).del (seenKey sha256 tag)

def tagCheck (keys : Keyspace Unit) (now : Nat) (tag : Bytes) (o : Outcome) :
    Bool × Keyspace Unit :=
  -- Without a tag there is no check, and a failed one lets the message through.
  if tag = [] ∨ o = .failed then (false, keys)
  else
    let (status, keys) := checkAndMarkDeliveryTag sha256 keys now tag
    (o = .ok ∧ status ≠ .new, keys)

def TagMarked (keys : Keyspace Unit) (now : Nat) (tag : Bytes) : Prop :=
  (keys.get now (exactKey sha256 tag)).isSome ∨ (keys.get now (seenKey sha256 tag)).isSome

instance (keys : Keyspace Unit) (now : Nat) (tag : Bytes) :
    Decidable (TagMarked sha256 keys now tag) :=
  inferInstanceAs (Decidable (_ ∨ _))

end

structure SealedRequest where
  messageId : String
  recipientId : String
  recipientDevice : String
  sealedInner : Bytes
deriving DecidableEq

def fromSealedSender (req : SealedRequest) : MessageEnvelope :=
  ⟨req.messageId, "", req.recipientId, .sealedSender, [], true, some req.sealedInner,
    normalizeDeviceId req.recipientDevice⟩

inductive SealedPhase
  | checking
  | dispatching
  | unmarking
deriving DecidableEq

structure SealedProcess where
  request : SealedRequest
  phase : SealedPhase

/-- The answer to a request: whether it says success. -/
structure SealedAnswer where
  request : SealedRequest
  success : Bool
deriving DecidableEq

/-- Redis, the requests under way and the answers given. -/
structure SealedState where
  now : Nat
  keys : Keyspace Unit
  store : Store
  pool : List SealedProcess
  answered : List SealedAnswer
  landed : List MessageEnvelope

def SealedState.initial : SealedState := ⟨0, .empty, ⟨[], []⟩, [], [], []⟩

inductive SealedAction
  | tick (now : Nat)
  | arrive (req : SealedRequest)
  | check (i : Nat) (o : Outcome)
  | dispatch (i : Nat) (inputs : DispatchInputs)
  | unmark (i : Nat) (o : Outcome)

section

variable (cfg : DeliveryConfig) (codec : EnvelopeCodec) (sha256 : Bytes → Bytes)
  (tagOf : Bytes → Bytes) (tag : Bytes)

namespace SealedState

variable (s : SealedState)

def moveOn (i : Nat) (p : SealedProcess) (phase : SealedPhase) : SealedState :=
  { s with pool := Machine.replace s.pool i (some { p with phase }) }

def answer (i : Nat) (p : SealedProcess) (success : Bool) : SealedState :=
  { s with
    pool := Machine.replace s.pool i none
    answered := s.answered ++ [⟨p.request, success⟩] }

def check (i : Nat) (p : SealedProcess) (o : Outcome) : SealedState :=
  let (replay, keys) := tagCheck sha256 s.keys s.now tag o
  let s := { s with keys }
  if replay then s.answer i p true else s.moveOn i p .dispatching

def dispatch (i : Nat) (p : SealedProcess) (inputs : DispatchInputs) : SealedState :=
  match dispatchEnvelope cfg codec sha256 inputs s.store (fromSealedSender p.request) with
  | (.ok (), store) =>
    { s with store, landed := s.landed ++ [fromSealedSender p.request] }.answer i p true
  | (.error _, store) =>
    let s := { s with store }
    if tag = [] then s.answer i p false else s.moveOn i p .unmarking

def unmark (i : Nat) (p : SealedProcess) (o : Outcome) : SealedState :=
  let keys := if o = .failed then s.keys else unmarkDeliveryTag sha256 s.keys tag
  { s with keys }.answer i p false

def inPhase (i : Nat) (phase : SealedPhase) : Option SealedProcess :=
  s.pool[i]?.filter (·.phase = phase)

def step (s : SealedState) : SealedAction → Option SealedState
  | .tick now => if s.now ≤ now then some { s with now } else none
  | .arrive req =>
    if tagOf req.sealedInner = tag then some { s with pool := s.pool ++ [⟨req, .checking⟩] }
    else none
  | .check i o => (s.inPhase i .checking).map fun p => s.check sha256 tag i p o
  | .dispatch i inputs =>
    (s.inPhase i .dispatching).map fun p => s.dispatch cfg codec sha256 tag i p inputs
  | .unmark i o => (s.inPhase i .unmarking).map fun p => s.unmark sha256 tag i p o

end SealedState

/-- The steps after which no replay is answered for a message that is never stored: all requests
are for one recipient; a tag is not checked while a failed request has yet to unmark it, and the
unmark does not fail; and a dispatch does not fail after a replay was answered, unless another one
is under way. Once a message is stored, anything may happen. -/
def TagSafe (recipientId : String) (s : SealedState) : SealedAction → Prop
  | .tick _ => True
  | .arrive req => req.recipientId = recipientId
  | .check _ _ => s.landed ≠ [] ∨ s.pool.all (·.phase ≠ .unmarking)
  | .dispatch i inputs =>
    s.landed ≠ [] ∨ s.answered.all (!·.success) ∨
      (Machine.replace s.pool i none).any (·.phase = .dispatching) ∨
      ∀ p ∈ s.pool[i]?, writesLand cfg inputs.writes
        (targetDevices inputs (fromSealedSender p.request)) = true
  | .unmark _ o => s.landed ≠ [] ∨ o ≠ .failed

def AnyIn (pool : List SealedProcess) (phase : SealedPhase) : Prop := ∃ p ∈ pool, p.phase = phase

/-- Every success that was answered has an entry with the tag in a mailbox of its recipient. -/
def AcknowledgedStored (s : SealedState) : Prop :=
  ∀ a ∈ s.answered, a.success = true → ∃ env, env.recipientId = a.request.recipientId ∧
    (∃ inner ∈ env.sealedInner, tagOf inner = tag) ∧ Landed cfg codec s.store.streams env

structure SealedInvariant (recipientId : String) (s : SealedState) : Prop where
  pooled : ∀ p ∈ s.pool, p.request.recipientId = recipientId ∧ tagOf p.request.sealedInner = tag
  answered : ∀ a ∈ s.answered, a.request.recipientId = recipientId
  landed : ∀ env ∈ s.landed, env.recipientId = recipientId ∧
    (∃ inner ∈ env.sealedInner, tagOf inner = tag) ∧ Landed cfg codec s.store.streams env
  marked : tag ≠ [] → TagMarked sha256 s.keys s.now tag →
    s.landed ≠ [] ∨ AnyIn s.pool .dispatching ∨ AnyIn s.pool .unmarking
  acknowledged : (∃ a ∈ s.answered, a.success = true) → s.landed ≠ [] ∨ AnyIn s.pool .dispatching

instance (recipientId : String) (s : SealedState) :
    (action : SealedAction) → Decidable (TagSafe cfg recipientId s action) := fun action => by
  cases action <;> dsimp only [TagSafe] <;> infer_instance

end

section

variable {cfg : DeliveryConfig} {codec : EnvelopeCodec} {sha256 : Bytes → Bytes}
  {tagOf : Bytes → Bytes} {tag : Bytes} {recipientId : String} {s t : SealedState} {i : Nat}
  {p : SealedProcess} {pool : List SealedProcess}

theorem inPhase_eq_some {phase : SealedPhase} :
    s.inPhase i phase = some p ↔ s.pool[i]? = some p ∧ p.phase = phase := by
  simp [SealedState.inPhase, filter_eq_some_iff]

theorem AnyIn.replace {phase : SealedPhase} (h : AnyIn pool phase) (hp : pool[i]? = some p)
    (hph : p.phase ≠ phase) (next : Option SealedProcess) : AnyIn (Machine.replace pool i next) phase := by
  obtain ⟨q, hq, hqp⟩ := h
  rcases mem_replace_or_eq next hp hq with hq | rfl
  · exact ⟨q, hq, hqp⟩
  · exact absurd hqp hph

theorem anyIn_replace_some (phase : SealedPhase) :
    AnyIn (Machine.replace pool i (some { p with phase })) phase :=
  ⟨_, mem_replace_of_next rfl, rfl⟩

theorem exactKey_ne_seenKey : exactKey sha256 tag ≠ seenKey sha256 tag := by
  intro h
  have := congrArg String.toList h
  simp [exactKey, seenKey] at this

theorem not_tagMarked_unmark {keys : Keyspace Unit} {now : Nat} :
    ¬ TagMarked sha256 (unmarkDeliveryTag sha256 keys tag) now tag := by
  have he : ((keys.del (exactKey sha256 tag)).del (seenKey sha256 tag)).get now
      (exactKey sha256 tag) = (keys.del (exactKey sha256 tag)).get now (exactKey sha256 tag) :=
    get_congr (del_apply_of_ne exactKey_ne_seenKey)
  simp [TagMarked, unmarkDeliveryTag, he]

theorem TagMarked.of_le {keys : Keyspace Unit} {now now' : Nat} (hle : now ≤ now')
    (h : TagMarked sha256 keys now' tag) : TagMarked sha256 keys now tag := by
  simp only [TagMarked, isSome_iff_exists] at h ⊢
  exact h.imp (Exists.imp fun _ => get_mono hle) (Exists.imp fun _ => get_mono hle)

theorem tagCheck_replay {keys keys' : Keyspace Unit} {now : Nat} {o : Outcome}
    (h : tagCheck sha256 keys now tag o = (true, keys')) :
    tag ≠ [] ∧ TagMarked sha256 keys now tag ∧ keys' = keys := by
  unfold tagCheck checkAndMarkDeliveryTag at h
  split_ifs at h with hop he hse
  · cases h
  · exact ⟨fun hta => hop (.inl hta), .inl he, (Prod.mk.inj h).2.symm⟩
  · exact ⟨fun hta => hop (.inl hta), .inr hse, (Prod.mk.inj h).2.symm⟩
  · simp at h

theorem dispatch_sealed (cfg : DeliveryConfig) (codec : EnvelopeCodec) (sha256 : Bytes → Bytes)
    (inputs : DispatchInputs) (store : Store) (req : SealedRequest) :
    let result := dispatchEnvelope cfg codec sha256 inputs store (fromSealedSender req)
    store.streams ⊆ result.2.streams ∧
      (result.1 = .ok () → Landed cfg codec result.2.streams (fromSealedSender req)) ∧
      (writesLand cfg inputs.writes (targetDevices inputs (fromSealedSender req)) = true →
        result.1 = .ok ()) := by
  intro result
  have hca := dispatchEnvelope_case cfg codec sha256 inputs store (fromSealedSender req)
  refine ⟨subset_of_case hca, ?_, ?_⟩
  · intro hok
    change DispatchCase _ _ _ _ _ _ result at hca
    generalize result = r at hca hok
    cases hca with
    | marked hu hk => cases hu
    | blocked hu h => cases hu
    | failed text streams hs hm => cases hok
    | landed streams marks hs hm hla hma => exact hla
  · intro hl
    have hok : (deliver cfg codec inputs store.streams (fromSealedSender req)).1 = .ok () :=
      write_ok_iff.mpr hl
    show (dispatchEnvelope cfg codec sha256 inputs store (fromSealedSender req)).1 = .ok ()
    simp only [dispatchEnvelope, fromSealedSender, isUserMessage] at hok ⊢
    simp only [Bool.false_eq_true, false_and, if_false]
    rw [hok]
    rfl

theorem anyIn_dispatching_of_safe (next : Option SealedProcess)
    (hsa : s.landed ≠ [] ∨ s.answered.all (!·.success) ∨
      (Machine.replace s.pool i none).any (·.phase = .dispatching)) : (∃ a ∈ s.answered, a.success = true) →
      s.landed ≠ [] ∨ AnyIn (Machine.replace s.pool i next) .dispatching := by
  rintro ⟨a, ha, hsu⟩
  rcases hsa with h | h | h
  · exact .inl h
  · have hn := all_eq_true.mp h a ha
    simp [hsu] at hn
  · obtain ⟨q, hq, hp⟩ := any_eq_true.mp h
    refine .inr ⟨q, ?_, of_decide_eq_true hp⟩
    simp only [Machine.replace, toList_none, append_nil, mem_append] at hq ⊢
    exact hq.imp_left .inl

namespace SealedInvariant

variable (hinv : SealedInvariant cfg codec sha256 tagOf tag recipientId s)

include hinv

theorem pooled_moveOn (hp : s.pool[i]? = some p) (phase : SealedPhase) : ∀ q ∈ (s.moveOn i p phase).pool,
      q.request.recipientId = recipientId ∧ tagOf q.request.sealedInner = tag := by
  intro q hq
  rcases mem_or_mem_of_replace hq with hq | hq
  · exact hinv.pooled q hq
  · obtain rfl := some_inj.mp hq
    exact hinv.pooled p (mem_of_getElem? hp)

theorem pooled_replace_none : ∀ q ∈ Machine.replace s.pool i none,
      q.request.recipientId = recipientId ∧ tagOf q.request.sealedInner = tag := by
  intro q hq
  rcases mem_or_mem_of_replace hq with hq | hq
  · exact hinv.pooled q hq
  · cases hq

theorem answered_answer (hp : s.pool[i]? = some p) (success : Bool) :
    ∀ a ∈ (s.answer i p success).answered, a.request.recipientId = recipientId := by
  intro a ha
  rcases mem_concat ha with ha | rfl
  · exact hinv.answered a ha
  · exact (hinv.pooled p (mem_of_getElem? hp)).1

theorem moveOn_dispatching (hp : s.pool[i]? = some p) (hph : p.phase = .checking) (keys : Keyspace Unit) :
    SealedInvariant cfg codec sha256 tagOf tag recipientId ({ s with keys }.moveOn i p .dispatching) where
  pooled := hinv.pooled_moveOn hp .dispatching
  answered := hinv.answered
  landed := hinv.landed
  marked _ _ := .inr (.inl (anyIn_replace_some .dispatching))
  acknowledged h := (hinv.acknowledged h).imp_right fun h =>
    h.replace hp (by simp [hph]) _

theorem answer_replay (hp : s.pool[i]? = some p) (hph : p.phase = .checking) (hta : tag ≠ [])
    (hma : TagMarked sha256 s.keys s.now tag) (hsa : s.landed ≠ [] ∨ s.pool.all (·.phase ≠ .unmarking)) :
    SealedInvariant cfg codec sha256 tagOf tag recipientId (s.answer i p true) where
  pooled := hinv.pooled_replace_none
  answered := hinv.answered_answer hp true
  landed := hinv.landed
  marked ht hm := (hinv.marked ht hm).imp_right fun h =>
    h.imp (·.replace hp (by simp [hph]) _) (·.replace hp (by simp [hph]) _)
  acknowledged _ := by
    rcases hinv.marked hta hma with h | h | ⟨q, hq, hqp⟩
    · exact .inl h
    · exact .inr (h.replace hp (by simp [hph]) _)
    · -- A failed request has yet to unmark the tag, which the condition excludes.
      refine .inl (hsa.resolve_right fun ha => ?_)
      simpa [hqp] using all_eq_true.mp ha q hq

theorem check (hp : s.inPhase i .checking = some p) (o : Outcome)
    (hsa : TagSafe cfg recipientId s (.check i o)) :
    SealedInvariant cfg codec sha256 tagOf tag recipientId (s.check sha256 tag i p o) := by
  obtain ⟨hg, hph⟩ := inPhase_eq_some.mp hp
  unfold SealedState.check
  rcases hch : tagCheck sha256 s.keys s.now tag o with ⟨_ | _, keys⟩
  · exact hinv.moveOn_dispatching hg hph keys
  · obtain ⟨hta, hm, rfl⟩ := tagCheck_replay hch
    exact hinv.answer_replay hg hph hta hm hsa

theorem landed_of_subset {streams : Streams} (hs : s.store.streams ⊆ streams) :
    ∀ env ∈ s.landed, env.recipientId = recipientId ∧
      (∃ inner ∈ env.sealedInner, tagOf inner = tag) ∧ Landed cfg codec streams env := by
  intro env he
  obtain ⟨hre, hta, hl⟩ := hinv.landed env he
  exact ⟨hre, hta, hl.mono hs⟩

theorem answer_landed (hp : s.pool[i]? = some p) {store : Store} (hs : s.store.streams ⊆ store.streams)
    (hl : Landed cfg codec store.streams (fromSealedSender p.request)) :
    SealedInvariant cfg codec sha256 tagOf tag recipientId
      ({ s with store, landed := s.landed ++ [fromSealedSender p.request] }.answer i p true) where
  pooled := hinv.pooled_replace_none
  answered := hinv.answered_answer hp true
  landed := by
    intro env he
    rcases mem_concat he with he | rfl
    · exact hinv.landed_of_subset hs env he
    · have hre := hinv.pooled p (mem_of_getElem? hp)
      exact ⟨hre.1, ⟨_, rfl, hre.2⟩, hl⟩
  marked _ _ := .inl (by simp [SealedState.answer])
  acknowledged _ := .inl (by simp [SealedState.answer])

theorem dispatch (hp : s.inPhase i .dispatching = some p) (inputs : DispatchInputs)
    (hsa : TagSafe cfg recipientId s (.dispatch i inputs)) :
    SealedInvariant cfg codec sha256 tagOf tag recipientId (s.dispatch cfg codec sha256 tag i p inputs) := by
  obtain ⟨hg, hph⟩ := inPhase_eq_some.mp hp
  obtain ⟨hs, hl, hok⟩ := dispatch_sealed cfg codec sha256 inputs s.store p.request
  unfold SealedState.dispatch
  rcases hr : dispatchEnvelope cfg codec sha256 inputs s.store (fromSealedSender p.request) with ⟨_ | _, store⟩
  all_goals rw [hr] at hs hl hok
  · -- The dispatch failed, so its writes did not land and one of the other conditions holds.
    have hsa : s.landed ≠ [] ∨ s.answered.all (!·.success) ∨
        (Machine.replace s.pool i none).any (·.phase = .dispatching) := by
      rcases hsa with h | h | h | h
      · exact .inl h
      · exact .inr (.inl h)
      · exact .inr (.inr h)
      · cases hok (h p hg)
    dsimp only
    split_ifs with hta
    · exact
        { pooled := hinv.pooled_replace_none
          answered := hinv.answered_answer hg false
          landed := hinv.landed_of_subset hs
          marked := fun hne => absurd hta hne
          acknowledged := by
            rintro ⟨a, ha, hsu⟩
            rcases mem_concat ha with ha | rfl
            · exact anyIn_dispatching_of_safe none hsa ⟨a, ha, hsu⟩
            · cases hsu }
    · exact
        { pooled := hinv.pooled_moveOn hg .unmarking
          answered := hinv.answered
          landed := hinv.landed_of_subset hs
          marked := fun _ _ => .inr (.inr (anyIn_replace_some .unmarking))
          acknowledged := anyIn_dispatching_of_safe _ hsa }
  · exact hinv.answer_landed hg hs (hl rfl)

theorem unmark (hp : s.inPhase i .unmarking = some p) (o : Outcome)
    (hsa : TagSafe cfg recipientId s (.unmark i o)) :
    SealedInvariant cfg codec sha256 tagOf tag recipientId (s.unmark sha256 tag i p o) := by
  obtain ⟨hg, hph⟩ := inPhase_eq_some.mp hp
  exact
    { pooled := hinv.pooled_replace_none
      answered := hinv.answered_answer hg false
      landed := hinv.landed
      marked := by
        intro _ hm
        refine .inl (hsa.resolve_right fun ho => ?_)
        simp only [SealedState.unmark, SealedState.answer, if_neg ho] at hm
        exact not_tagMarked_unmark hm
      acknowledged := by
        rintro ⟨a, ha, hsu⟩
        rcases mem_concat ha with ha | rfl
        · exact (hinv.acknowledged ⟨a, ha, hsu⟩).imp_right (·.replace hg (by simp [hph]) _)
        · cases hsu }

end SealedInvariant

theorem sealedInvariant_initial : SealedInvariant cfg codec sha256 tagOf tag recipientId .initial where
  pooled _ h := by cases h
  answered _ h := by cases h
  landed _ h := by cases h
  marked _ h := by simp [TagMarked, SealedState.initial] at h
  acknowledged h := by simp [SealedState.initial] at h

theorem sealedInvariant_step {action : SealedAction}
    (hinv : SealedInvariant cfg codec sha256 tagOf tag recipientId s)
    (hsa : TagSafe cfg recipientId s action)
    (hst : s.step cfg codec sha256 tagOf tag action = some t) :
    SealedInvariant cfg codec sha256 tagOf tag recipientId t := by
  cases action with
  | tick now =>
    simp only [SealedState.step, ite_none_right_eq_some, some_inj] at hst
    obtain ⟨hle, rfl⟩ := hst
    exact ⟨hinv.pooled, hinv.answered, hinv.landed, fun hta hm => hinv.marked hta (hm.of_le hle), hinv.acknowledged⟩
  | arrive req =>
    simp only [SealedState.step, ite_none_right_eq_some, some_inj] at hst
    obtain ⟨hta, rfl⟩ := hst
    have hmo : ∀ {phase}, AnyIn s.pool phase → AnyIn (s.pool ++ [⟨req, .checking⟩]) phase :=
      fun ⟨q, hq, hph⟩ => ⟨q, mem_append_left _ hq, hph⟩
    refine ⟨?_, hinv.answered, hinv.landed, fun hta hm => (hinv.marked hta hm).imp_right (Or.imp hmo hmo),
      fun h => (hinv.acknowledged h).imp_right hmo⟩
    intro q hq
    rcases mem_concat hq with hq | rfl
    · exact hinv.pooled q hq
    · exact ⟨hsa, hta⟩
  | check i o =>
    obtain ⟨p, hp, rfl⟩ := map_eq_some_iff.mp hst
    exact hinv.check hp o hsa
  | dispatch i inputs =>
    obtain ⟨p, hp, rfl⟩ := map_eq_some_iff.mp hst
    exact hinv.dispatch hp inputs hsa
  | unmark i o =>
    obtain ⟨p, hp, rfl⟩ := map_eq_some_iff.mp hst
    exact hinv.unmark hp o hsa

/-- In every run of safe steps, once no request is under way every success is stored. -/
theorem tagSafe_run_stores {actions : List SealedAction}
    (hsafe : Along (SealedState.step cfg codec sha256 tagOf tag) (TagSafe cfg recipientId) .initial actions)
    (hrun : run (SealedState.step cfg codec sha256 tagOf tag) .initial actions = some s)
    (hdone : s.pool = []) : AcknowledgedStored cfg codec tagOf tag s := by
  have hinv : SealedInvariant cfg codec sha256 tagOf tag recipientId s :=
    run_invariant sealedInvariant_step sealedInvariant_initial hsafe hrun
  intro a ha hsuccess
  rcases hinv.acknowledged ⟨a, ha, hsuccess⟩ with hlanded | ⟨q, hq, -⟩
  · obtain ⟨env, henv⟩ := exists_mem_of_ne_nil _ hlanded
    obtain ⟨hrecipient, htag, hstored⟩ := hinv.landed env henv
    exact ⟨env, hrecipient.trans (hinv.answered a ha).symm, htag, hstored⟩
  · rw [hdone] at hq
    cases hq

end

section

def taggedRequest (messageId : String) : SealedRequest := ⟨messageId, "bob", "", [7]⟩

def userWrite (o : Outcome) : DispatchInputs where
  dedupReplies := true
  isBlockedBy _ _ := some false
  devicesOf _ := some []
  devicesOf_ne := by simp
  writes := ⟨o, fun _ => o⟩
  mark := .ok

def failRetryReplay : List SealedAction :=
  [.arrive (taggedRequest "first"), .check 0 .ok, .dispatch 0 (userWrite .failed), .unmark 0 .ok,
    .arrive (taggedRequest "retry"), .check 0 .ok, .dispatch 0 (userWrite .ok),
    .arrive (taggedRequest "replay"), .check 0 .ok]

def replayDuringFailure : List SealedAction :=
  [.arrive (taggedRequest "first"), .arrive (taggedRequest "replay"), .check 0 .ok, .check 1 .ok,
    .dispatch 0 (userWrite .failed), .unmark 0 .ok]

theorem failRetryReplay_stores : ∃ t, run (SealedState.step ⟨"delivery", true⟩ unaryCodec id id [7]) .initial
        failRetryReplay = some t ∧ t.answered.map SealedAnswer.success = [false, true, true] ∧
      AcknowledgedStored ⟨"delivery", true⟩ unaryCodec id [7] t := by
  obtain ⟨t, hrun, hanswered, hdone⟩ := reaches (SealedState.step ⟨"delivery", true⟩ unaryCodec id id [7])
    .initial failRetryReplay (fun t => t.answered.map SealedAnswer.success = [false, true, true] ∧ t.pool = [])
    (by decide +kernel)
  exact ⟨t, hrun, hanswered, tagSafe_run_stores (by decide +kernel : Along _
    (TagSafe ⟨"delivery", true⟩ "bob") .initial failRetryReplay) hrun hdone⟩

/-- The replay is answered success, and no stream has an entry when both requests are answered. -/
theorem replay_during_failed_write :
    ∃ t, run (SealedState.step ⟨"delivery", true⟩ unaryCodec id id [7]) .initial
        replayDuringFailure = some t ∧
      t.pool = [] ∧ ⟨taggedRequest "replay", true⟩ ∈ t.answered ∧ t.store.streams = [] ∧
      ¬ AcknowledgedStored ⟨"delivery", true⟩ unaryCodec id [7] t := by
  obtain ⟨t, hrun, hdone, hanswered, hstreams⟩ := reaches
    (SealedState.step ⟨"delivery", true⟩ unaryCodec id id [7]) .initial replayDuringFailure (fun t => t.pool = [] ∧
    t.answered = [⟨taggedRequest "replay", true⟩, ⟨taggedRequest "first", false⟩] ∧ t.store.streams = [])
    (by decide +kernel)
  have hreplay : ⟨taggedRequest "replay", true⟩ ∈ t.answered := by simp [hanswered]
  refine ⟨t, hrun, hdone, hreplay, hstreams, ?_⟩
  intro hstored
  obtain ⟨env, -, -, deviceId, key, -, hmem⟩ := hstored _ hreplay rfl
  rw [hstreams] at hmem
  cases hmem

end

end ConstructServer.Messaging
