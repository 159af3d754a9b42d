import ConstructServer.Library.Machine
import ConstructServer.Messaging.Dispatch

/-!
# Dispatches that run at the same time

A dispatch is a sequence of calls to Redis and Postgres, and other dispatches of the same envelope
run between any two of them. Each call can fail, and a Redis command can take effect although its
reply is lost. A dispatch marks the key of an envelope only after a stream has received it, so a
dispatch that finds the key marked does not acknowledge an unwritten message.
-/

namespace ConstructServer.Messaging

open Queue Redis Machine List Option Function

/-- The next call of a dispatch. -/
inductive DispatchPhase
  | dedup
  | block
  | lookup
  | userWrite (targets : List String)
  | deviceWrites (targets rest : List String) (deviceWritesOk : Nat)
  | mark

inductive Verdict
  | duplicate
  | blocked
  | failed (text : String)
  | delivered
deriving DecidableEq

def Verdict.answer : Verdict → Except String Unit
  | .duplicate | .blocked | .delivered => .ok ()
  | .failed text => .error text

inductive DispatchReply
  | exists (arrives : Bool)
  | blocked (reply : Option Bool)
  | devices (reply : Option (List String))
  | xadd (o : Outcome)
  | mark (o : Outcome)

/-- A dispatch, with what it was told and what it has sent. -/
structure Attempt where
  env : MessageEnvelope
  active : Option (List String)
  issued : List (String × Outcome)

structure DispatchState where
  store : Store
  running : List (Attempt × DispatchPhase)
  finished : List (Attempt × Verdict)

/-- A dispatch starts or makes its next call, or a key expires. -/
inductive DispatchAction
  | start (env : MessageEnvelope)
  | reply (i : Nat) (reply : DispatchReply)
  | expire (key : MessageDedupKey)

def Attempt.targets (a : Attempt) : List String :=
  (selectTargetDevices (a.active.getD []) a.env.recipientDevice).1

instance (env : MessageEnvelope) : Decidable (RoutingFits env) :=
  inferInstanceAs (Decidable (∀ f ∈ dedupFields _ _ _ _, Framing.Fits f))

section

variable (cfg : DeliveryConfig) (codec : EnvelopeCodec) (sha256 : Bytes → Bytes)

def asksForBlock (env : MessageEnvelope) : Bool :=
  (Uuid.parseStr env.senderId).isSome && (Uuid.parseStr env.recipientId).isSome

def nextWrite (env : MessageEnvelope) (targets rest : List String) (deviceWritesOk : Nat) :
    DispatchPhase ⊕ Verdict :=
  match rest with
  | _ :: _ => .inl (.deviceWrites targets rest deviceWritesOk)
  | [] =>
    if !cfg.mailboxUserWrite ∧ deviceWritesOk = 0 then
      .inr (.failed ("Failed to deliver message: " ++
        ("No mailbox to write: user-stream writes are disabled (MSG_MAILBOX_USER_WRITE=0) "
        ++ "and none of the " ++ toString targets.length ++ " device stream writes for recipient "
        ++ env.recipientId ++ " landed")))
    else if isUserMessage env.messageType then .inl .mark
    else .inr .delivered

def Attempt.write (store : Store) (a : Attempt) (key : String) (o : Outcome) : Store × Attempt :=
  ({ store with streams := xaddTo store.streams key (encodeFields codec a.env) o },
    { a with issued := a.issued ++ [(key, o)] })

def Attempt.step (store : Store) (a : Attempt) :
    DispatchPhase → DispatchReply → Option ((Store × Attempt) × (DispatchPhase ⊕ Verdict))
  | .dedup, .exists arrives =>
    -- A failed check lets the message through.
    if arrives ∧ MessageDedupKey.forEnvelope sha256 a.env ∈ store.marks then
      some ((store, a), .inr .duplicate)
    else some ((store, a), .inl .block)
  | .block, .blocked reply =>
    if asksForBlock a.env ∧ reply = some true then some ((store, a), .inr .blocked)
    else some ((store, a), .inl .lookup)
  | .lookup, .devices reply =>
    let active := if (Uuid.parseStr a.env.recipientId).isSome then reply.getD [] else []
    let a := { a with active := some active }
    some ((store, a), if cfg.mailboxUserWrite then .inl (.userWrite a.targets)
      else nextWrite cfg a.env a.targets a.targets 0)
  | .userWrite targets, .xadd o =>
    some (a.write codec store (userStreamKey cfg a.env.recipientId) o,
      if o = .ok then nextWrite cfg a.env targets targets 0
      else .inr (.failed ("Failed to deliver message: " ++ "Failed to write message to Redis stream")))
  | .deviceWrites targets (deviceId :: rest) deviceWritesOk, .xadd o =>
    -- A device whose write fails is passed over.
    some (a.write codec store (deviceStreamKey cfg a.env.recipientId deviceId) o,
      nextWrite cfg a.env targets rest (if o = .ok then deviceWritesOk + 1 else deviceWritesOk))
  | .mark, .mark o =>
    let marks := if o ≠ .failed then store.marks ++ [MessageDedupKey.forEnvelope sha256 a.env]
      else store.marks
    some (({ store with marks }, a), .inr .delivered)
  | _, _ => none

def startPhase (env : MessageEnvelope) : DispatchPhase :=
  if isUserMessage env.messageType then .dedup else .lookup

def DispatchState.step (s : DispatchState) : DispatchAction → Option DispatchState
  | .start env =>
    if RoutingFits env then
      some { s with running := s.running ++ [(⟨env, none, []⟩, startPhase env)] }
    else none
  | .reply i reply =>
    match s.running[i]? with
    | none => none
    | some (a, phase) =>
      match a.step cfg codec sha256 s.store phase reply with
      | none => none
      | some ((store, a), .inl phase) =>
        some { s with store, running := Machine.replace s.running i (some (a, phase)) }
      | some ((store, a), .inr verdict) =>
        some ⟨store, Machine.replace s.running i none, s.finished ++ [(a, verdict)]⟩
  | .expire key => some { s with store := { s.store with marks := s.store.marks.filter (· ≠ key) } }

def DispatchState.empty : DispatchState := ⟨⟨[], []⟩, [], []⟩

def DispatchState.attempts (s : DispatchState) : List Attempt :=
  s.running.map Prod.fst ++ s.finished.map Prod.fst

def IsMailbox (recipientId key : String) : Prop :=
  key = userStreamKey cfg recipientId ∨ ∃ deviceId, key = deviceStreamKey cfg recipientId deviceId

def Received (streams : Streams) (env : MessageEnvelope) : Prop :=
  ∃ env', MessageDedupKey.forEnvelope sha256 env' = MessageDedupKey.forEnvelope sha256 env ∧
    ∃ key, IsMailbox cfg env.recipientId key ∧ (key, encodeFields codec env') ∈ streams

def Acknowledges (streams : Streams) (a : Attempt) (verdict : Verdict) : Prop :=
  isUserMessage a.env.messageType = true → verdict.answer = .ok () →
    verdict = .blocked ∨ Received cfg codec sha256 streams a.env

def NamedOnly (a : Attempt) : Prop :=
  ∀ active named, a.active = some active → a.env.recipientDevice = some named → named ≠ "" →
    named ∈ active → ∀ x ∈ a.issued, ∀ deviceId,
      x.1 = deviceStreamKey cfg a.env.recipientId deviceId → deviceId = named

/-- An envelope that names an unknown device is written to every active device, and is in the stream
of each whose write did not fail. A failed write to the user stream comes first and ends the
dispatch. -/
def ReachesAll (streams : Streams) (a : Attempt) (verdict : Verdict) : Prop :=
  ∀ active named, a.active = some active → a.env.recipientDevice = some named → named ≠ "" →
    named ∉ active → (verdict.answer = .ok () ∨ cfg.mailboxUserWrite = false) →
    ∀ deviceId ∈ active, ∃ o, (deviceStreamKey cfg a.env.recipientId deviceId, o) ∈ a.issued ∧
      (o ≠ .failed →
        (deviceStreamKey cfg a.env.recipientId deviceId, encodeFields codec a.env) ∈ streams)

end

section

variable (cfg : DeliveryConfig) (codec : EnvelopeCodec) (sha256 : Bytes → Bytes)

/-- What was sent: it is where it should be, under keys of the recipient, and to every target but
those that are left. -/
structure Traced (streams : Streams) (a : Attempt) (rest : List String) : Prop where
  landed : ∀ x ∈ a.issued, x.2 ≠ .failed → (x.1, encodeFields codec a.env) ∈ streams
  keys : ∀ x ∈ a.issued, x.1 = userStreamKey cfg a.env.recipientId ∨
    ∃ deviceId ∈ a.targets, x.1 = deviceStreamKey cfg a.env.recipientId deviceId
  covered : ∀ deviceId ∈ a.targets, deviceId ∈ rest ∨
    ∃ o, (deviceStreamKey cfg a.env.recipientId deviceId, o) ∈ a.issued

def Succeeded (a : Attempt) : Prop := ∃ x ∈ a.issued, x.2 = .ok

def CallPhaseInvariant (streams : Streams) (a : Attempt) : DispatchPhase → Prop
  | .dedup | .block | .lookup => a.active = none ∧ a.issued = []
  | .userWrite targets => targets = a.targets ∧ a.issued = [] ∧ cfg.mailboxUserWrite = true
  | .deviceWrites targets rest deviceWritesOk => targets = a.targets ∧ rest ⊆ a.targets ∧
    Traced cfg codec streams a rest ∧
    (cfg.mailboxUserWrite = true ∨ 0 < deviceWritesOk → Succeeded a)
  | .mark => Traced cfg codec streams a [] ∧ Succeeded a

def VerdictInvariant (streams : Streams) (a : Attempt) : Verdict → Prop
  | .duplicate => a.active = none ∧ a.issued = [] ∧ Received cfg codec sha256 streams a.env
  | .blocked => a.active = none ∧ a.issued = []
  | .failed _ => (∃ rest, Traced cfg codec streams a rest) ∧
    (cfg.mailboxUserWrite = false → Traced cfg codec streams a [])
  | .delivered => Traced cfg codec streams a [] ∧ Succeeded a

def MarksReceived (store : Store) : Prop :=
  ∀ k ∈ store.marks, ∃ env, MessageDedupKey.forEnvelope sha256 env = k ∧ RoutingFits env ∧
    ∃ key, IsMailbox cfg env.recipientId key ∧ (key, encodeFields codec env) ∈ store.streams

structure DispatchInvariant (s : DispatchState) : Prop where
  marks : MarksReceived cfg codec sha256 s.store
  running : ∀ p ∈ s.running, RoutingFits p.1.env ∧ CallPhaseInvariant cfg codec s.store.streams p.1 p.2
  finished : ∀ p ∈ s.finished, VerdictInvariant cfg codec sha256 s.store.streams p.1 p.2

end

section

variable {cfg : DeliveryConfig} {codec : EnvelopeCodec} {sha256 : Bytes → Bytes}
  {streams streams' : Streams} {store store' : Store} {a a' : Attempt} {rest : List String}
  {phase : DispatchPhase} {verdict : Verdict} {reply : DispatchReply}

theorem Traced.mono (h : Traced cfg codec streams a rest) (hs : streams ⊆ streams') :
    Traced cfg codec streams' a rest :=
  ⟨fun x hx hne => hs (h.landed x hx hne), h.keys, h.covered⟩

theorem traced_of_issued_nil (h : a.issued = []) : Traced cfg codec streams a a.targets where
  landed := by simp [h]
  keys := by simp [h]
  covered _ hd := .inl hd

theorem Received.mono {env : MessageEnvelope} (h : Received cfg codec sha256 streams env)
    (hs : streams ⊆ streams') : Received cfg codec sha256 streams' env := by
  obtain ⟨env', hk, key, hma, hm⟩ := h
  exact ⟨env', hk, key, hma, hs hm⟩

theorem CallPhaseInvariant.mono (h : CallPhaseInvariant cfg codec streams a phase)
    (hs : streams ⊆ streams') : CallPhaseInvariant cfg codec streams' a phase := by
  cases phase with
  | dedup | block | lookup | userWrite => exact h
  | deviceWrites targets rest deviceWritesOk => exact ⟨h.1, h.2.1, h.2.2.1.mono hs, h.2.2.2⟩
  | mark => exact ⟨h.1.mono hs, h.2⟩

theorem VerdictInvariant.mono (h : VerdictInvariant cfg codec sha256 streams a verdict)
    (hs : streams ⊆ streams') : VerdictInvariant cfg codec sha256 streams' a verdict := by
  cases verdict with
  | duplicate => exact ⟨h.1, h.2.1, h.2.2.mono hs⟩
  | blocked => exact h
  | failed text =>
    obtain ⟨⟨rest, htr⟩, ha⟩ := h
    exact ⟨⟨rest, htr.mono hs⟩, fun hof => (ha hof).mono hs⟩
  | delivered => exact ⟨h.1.mono hs, h.2⟩

theorem Traced.write {key : String} {o : Outcome} (h : Traced cfg codec store.streams a rest)
    (hk : key = userStreamKey cfg a.env.recipientId ∨
      ∃ deviceId ∈ a.targets, key = deviceStreamKey cfg a.env.recipientId deviceId)
    {rest' : List String} (hr : ∀ deviceId ∈ rest, deviceId ∈ rest' ∨
      key = deviceStreamKey cfg a.env.recipientId deviceId) :
    Traced cfg codec (a.write codec store key o).1.streams (a.write codec store key o).2 rest' where
  landed := by
    intro x hx hne
    rcases mem_concat hx with hol | rfl
    · exact subset_xaddTo (h.landed x hol hne)
    · simp [Attempt.write, xaddTo, hne]
  keys := by
    intro x hx
    rcases mem_concat hx with hol | rfl
    · exact h.keys x hol
    · exact hk
  covered := by
    intro deviceId hd
    rcases h.covered deviceId hd with hm | ⟨o', ho⟩
    · rcases hr deviceId hm with hm | rfl
      · exact .inl hm
      · exact .inr ⟨o, mem_append_right _ (mem_singleton.mpr rfl)⟩
    · exact .inr ⟨o', mem_append_left _ ho⟩

theorem succeeded_write_ok (codec : EnvelopeCodec) (store : Store) (a : Attempt) (key : String) :
    Succeeded (a.write codec store key .ok).2 :=
  ⟨(key, .ok), by simp [Attempt.write], rfl⟩

theorem Succeeded.write (h : Succeeded a) (codec : EnvelopeCodec) (store : Store) (key : String)
    (o : Outcome) : Succeeded (a.write codec store key o).2 := by
  obtain ⟨x, hx, hok⟩ := h
  exact ⟨x, mem_append_left _ hx, hok⟩

theorem nextWrite_invariant {targets : List String} {deviceWritesOk : Nat}
    (hta : targets = a.targets) (hs : rest ⊆ a.targets) (htr : Traced cfg codec streams a rest)
    (hok : cfg.mailboxUserWrite = true ∨ 0 < deviceWritesOk → Succeeded a) :
    (nextWrite cfg a.env targets rest deviceWritesOk).elim (CallPhaseInvariant cfg codec streams a)
      (VerdictInvariant cfg codec sha256 streams a) := by
  cases rest with
  | cons deviceId rest => exact ⟨hta, hs, htr, hok⟩
  | nil =>
    unfold nextWrite
    dsimp only
    split_ifs with hn hu
    · exact ⟨⟨[], htr⟩, fun _ => htr⟩
    all_goals
      refine ⟨htr, hok ?_⟩
      by_contra hno
      simp only [not_or, Bool.not_eq_true, not_lt, Nat.le_zero] at hno
      exact hn (by simp [hno])

theorem received_of_marked (hsh : Injective sha256) (hf : RoutingFits a.env)
    (hm : MarksReceived cfg codec sha256 store)
    (hme : MessageDedupKey.forEnvelope sha256 a.env ∈ store.marks) :
    Received cfg codec sha256 store.streams a.env := by
  obtain ⟨env, hk, hf', key, hma, hen⟩ := hm _ hme
  have hre : env.recipientId = a.env.recipientId :=
    (messageDedupKey_injective hsh hf' hf hk).2.1
  exact ⟨env, hk, key, hre ▸ hma, hen⟩

theorem Succeeded.exists_mailbox (h : Succeeded a) (htr : Traced cfg codec streams a rest) :
    ∃ key, IsMailbox cfg a.env.recipientId key ∧ (key, encodeFields codec a.env) ∈ streams := by
  obtain ⟨x, hx, hok⟩ := h
  refine ⟨x.1, ?_, htr.landed x hx (by simp [hok])⟩
  rcases htr.keys x hx with heq | ⟨deviceId, -, heq⟩
  · exact .inl heq
  · exact .inr ⟨deviceId, heq⟩

theorem MarksReceived.mono (h : MarksReceived cfg codec sha256 store)
    (hs : store.streams ⊆ streams') (hm : store'.marks ⊆ store.marks)
    (heq : store'.streams = streams') : MarksReceived cfg codec sha256 store' := by
  intro k hk
  obtain ⟨env, hke, hf, key, hma, hme⟩ := h k (hm hk)
  exact ⟨env, hke, hf, key, hma, heq ▸ hs hme⟩

theorem attempt_step_invariant (hsh : Injective sha256) (hf : RoutingFits a.env)
    (hm : MarksReceived cfg codec sha256 store)
    (h : CallPhaseInvariant cfg codec store.streams a phase) {next : DispatchPhase ⊕ Verdict}
    (hst : a.step cfg codec sha256 store phase reply = some ((store', a'), next)) :
    store.streams ⊆ store'.streams ∧ a'.env = a.env ∧ MarksReceived cfg codec sha256 store' ∧
      next.elim (CallPhaseInvariant cfg codec store'.streams a')
        (VerdictInvariant cfg codec sha256 store'.streams a') := by
  unfold Attempt.step at hst
  split at hst
  case h_1 arrives =>
    split_ifs at hst with hma
    · cases hst
      exact ⟨Subset.refl _, rfl, hm, h.1, h.2, received_of_marked hsh hf hm hma.2⟩
    · cases hst
      exact ⟨Subset.refl _, rfl, hm, h⟩
  case h_2 answer =>
    split_ifs at hst
    · cases hst
      exact ⟨Subset.refl _, rfl, hm, h⟩
    · cases hst
      exact ⟨Subset.refl _, rfl, hm, h⟩
  case h_3 answer =>
    cases hst
    refine ⟨Subset.refl _, rfl, hm, ?_⟩
    generalize (if (Uuid.parseStr a.env.recipientId).isSome then answer.getD [] else []) = active
    split_ifs with hu
    · exact ⟨rfl, h.2, hu⟩
    · refine nextWrite_invariant rfl (Subset.refl _) (traced_of_issued_nil h.2) ?_
      rintro (hon | hpo)
      · exact absurd hon hu
      · exact absurd hpo (lt_irrefl 0)
  case h_4 targets o =>
    obtain ⟨rfl, his, hu⟩ := h
    cases hst
    refine ⟨subset_xaddTo, rfl, hm.mono subset_xaddTo (Subset.refl _) rfl, ?_⟩
    have htr : Traced cfg codec (a.write codec store (userStreamKey cfg a.env.recipientId) o).1.streams
        (a.write codec store (userStreamKey cfg a.env.recipientId) o).2 a.targets :=
      (traced_of_issued_nil his).write (.inl rfl) fun _ hd => .inl hd
    split_ifs with hok
    · subst hok
      exact nextWrite_invariant rfl (Subset.refl _) htr fun _ =>
        succeeded_write_ok codec store a _
    · refine ⟨⟨_, htr⟩, fun hof => ?_⟩
      rw [hu] at hof
      cases hof
  case h_5 targets deviceId rest deviceWritesOk o =>
    obtain ⟨rfl, hs, htr, hsu⟩ := h
    cases hst
    refine ⟨subset_xaddTo, rfl, hm.mono subset_xaddTo (Subset.refl _) rfl, ?_⟩
    refine nextWrite_invariant rfl (fun d hd => hs (mem_cons_of_mem _ hd))
      (htr.write (.inr ⟨deviceId, hs (by simp), rfl⟩) fun d hd => ?_) fun hok => ?_
    · rcases mem_cons.mp hd with rfl | hd
      · exact .inr rfl
      · exact .inl hd
    · by_cases ho : o = .ok
      · subst ho
        exact succeeded_write_ok codec store a _
      · rw [if_neg ho] at hok
        exact (hsu hok).write codec store _ o
  case h_6 o =>
    cases hst
    refine ⟨Subset.refl _, rfl, ?_, h⟩
    intro k hk
    dsimp only at hk
    split_ifs at hk
    · rcases mem_concat hk with hk | rfl
      · exact hm k hk
      · exact ⟨a.env, rfl, hf, h.2.exists_mailbox h.1⟩
    · exact hm k hk
  case h_7 => cases hst

theorem DispatchInvariant.step (hsh : Injective sha256) {s t : DispatchState}
    {action : DispatchAction} (h : DispatchInvariant cfg codec sha256 s)
    (hst : s.step cfg codec sha256 action = some t) : DispatchInvariant cfg codec sha256 t := by
  cases action with
  | start env =>
    simp only [DispatchState.step, ite_none_right_eq_some, Option.some.injEq] at hst
    obtain ⟨hf, rfl⟩ := hst
    refine ⟨h.marks, fun p hp => ?_, h.finished⟩
    rcases mem_concat hp with hp | rfl
    · exact h.running p hp
    · refine ⟨hf, ?_⟩
      unfold startPhase
      split_ifs
      · exact ⟨rfl, rfl⟩
      · exact ⟨rfl, rfl⟩
  | expire key =>
    cases hst
    exact ⟨h.marks.mono (Subset.refl _) (fun k hk => mem_of_mem_filter hk) rfl, h.running, h.finished⟩
  | reply i reply =>
    simp only [DispatchState.step] at hst
    split at hst
    · cases hst
    rename_i a phase hp
    obtain ⟨hf, hph⟩ := h.running (a, phase) (mem_of_getElem? hp)
    split at hst
    · cases hst
    · rename_i store' a' phase' hat
      cases hst
      obtain ⟨hs, he, hm, hn⟩ :=
        attempt_step_invariant hsh hf h.marks hph hat
      refine ⟨hm, fun p hp => ?_, fun p hp => (h.finished p hp).mono hs⟩
      rcases mem_or_mem_of_replace hp with hp | hp
      · exact ⟨(h.running p hp).1, (h.running p hp).2.mono hs⟩
      · cases hp
        exact ⟨he ▸ hf, hn⟩
    · rename_i store' a' verdict hat
      cases hst
      obtain ⟨hs, he, hm, hn⟩ :=
        attempt_step_invariant hsh hf h.marks hph hat
      refine ⟨hm, fun p hp => ?_, fun p hp => ?_⟩
      · rcases mem_or_mem_of_replace hp with hp | hp
        · exact ⟨(h.running p hp).1, (h.running p hp).2.mono hs⟩
        · cases hp
      · rcases mem_concat hp with hp | rfl
        · exact (h.finished p hp).mono hs
        · exact hn

theorem dispatchInvariant_empty : DispatchInvariant cfg codec sha256 .empty where
  marks _ hk := absurd hk not_mem_nil
  running _ hp := absurd hp not_mem_nil
  finished _ hp := absurd hp not_mem_nil

end

section

variable {cfg : DeliveryConfig} {codec : EnvelopeCodec} {sha256 : Bytes → Bytes}
  {streams : Streams} {a : Attempt} {rest active : List String} {named : String}

theorem targets_of_named (ha : a.active = some active)
    (hde : a.env.recipientDevice = some named) (hne : named ≠ "") (hm : named ∈ active) : a.targets = [named] := by
  simp [Attempt.targets, selectTargetDevices, ha, hde, hne, hm, Option.filter]

theorem targets_of_unknown (ha : a.active = some active)
    (hde : a.env.recipientDevice = some named) (hne : named ≠ "") (hm : named ∉ active) : a.targets = active := by
  simp [Attempt.targets, selectTargetDevices, ha, hde, hne, hm, Option.filter]

theorem Traced.namedOnly (h : Traced cfg codec streams a rest) : NamedOnly cfg a := by
  intro active named ha hde hne hm x hx deviceId hk
  rcases h.keys x hx with hu | ⟨d, hd, heq⟩
  · exact absurd (hu.symm.trans hk) userStreamKey_ne_deviceStreamKey
  · rw [targets_of_named ha hde hne hm, mem_singleton] at hd
    exact (deviceStreamKey_inj.mp (hk.symm.trans heq)).trans hd

theorem CallPhaseInvariant.namedOnly {phase : DispatchPhase}
    (h : CallPhaseInvariant cfg codec streams a phase) : NamedOnly cfg a := by
  cases phase with
  | dedup | block | lookup => exact (@traced_of_issued_nil cfg codec streams a h.2).namedOnly
  | userWrite targets => exact (@traced_of_issued_nil cfg codec streams a h.2.1).namedOnly
  | deviceWrites targets rest deviceWritesOk => exact h.2.2.1.namedOnly
  | mark => exact h.1.namedOnly

variable {verdict : Verdict}

theorem VerdictInvariant.namedOnly (h : VerdictInvariant cfg codec sha256 streams a verdict) :
    NamedOnly cfg a := by
  cases verdict with
  | duplicate => exact (@traced_of_issued_nil cfg codec streams a h.2.1).namedOnly
  | blocked => exact (@traced_of_issued_nil cfg codec streams a h.2).namedOnly
  | failed text => exact h.1.choose_spec.namedOnly
  | delivered => exact h.1.namedOnly

theorem VerdictInvariant.acknowledges (h : VerdictInvariant cfg codec sha256 streams a verdict) :
    Acknowledges cfg codec sha256 streams a verdict := by
  intro _ hok
  cases verdict with
  | duplicate => exact .inr h.2.2
  | blocked => exact .inl rfl
  | failed text => cases hok
  | delivered => exact .inr ⟨a.env, rfl, h.2.exists_mailbox h.1⟩

theorem Traced.reachesAll (h : Traced cfg codec streams a []) (ha : a.active = some active)
    (hde : a.env.recipientDevice = some named) (hne : named ≠ "") (hm : named ∉ active) :
    ∀ deviceId ∈ active, ∃ o, (deviceStreamKey cfg a.env.recipientId deviceId, o) ∈ a.issued ∧ (o ≠ .failed →
        (deviceStreamKey cfg a.env.recipientId deviceId, encodeFields codec a.env) ∈ streams) := by
  intro deviceId hd
  rw [← targets_of_unknown ha hde hne hm] at hd
  obtain ⟨o, ho⟩ := (h.covered deviceId hd).resolve_left not_mem_nil
  exact ⟨o, ho, h.landed _ ho⟩

theorem VerdictInvariant.reachesAll
    (h : VerdictInvariant cfg codec sha256 streams a verdict) : ReachesAll cfg codec streams a verdict := by
  intro active named ha hde hne hm hok
  cases verdict with
  | duplicate | blocked =>
    rw [h.1] at ha
    cases ha
  | failed text =>
    rcases hok with hok | hof
    · cases hok
    · exact (h.2 hof).reachesAll ha hde hne hm
  | delivered => exact h.1.reachesAll ha hde hne hm

variable (cfg codec) in
/-- **In every run of dispatches an acknowledged user message is in a stream of its recipient or its
sender is blocked, an envelope that names an active device is written to no other, and one that
names an unknown device is written to all.** -/
theorem run_acknowledges_and_routes (hsha : Injective sha256) {as : List DispatchAction} {s : DispatchState}
    (hrun : run (DispatchState.step cfg codec sha256) .empty as = some s) :
    (∀ p ∈ s.finished, Acknowledges cfg codec sha256 s.store.streams p.1 p.2) ∧
      (∀ a ∈ s.attempts, NamedOnly cfg a) ∧
      ∀ p ∈ s.finished, ReachesAll cfg codec s.store.streams p.1 p.2 := by
  have hinv : DispatchInvariant cfg codec sha256 s :=
    run_invariant (G := fun _ _ => True) (fun h _ hstep => h.step hsha hstep)
      dispatchInvariant_empty (along_of_forall fun _ _ => trivial) hrun
  refine ⟨fun p hp => (hinv.finished p hp).acknowledges, fun a ha => ?_,
    fun p hp => (hinv.finished p hp).reachesAll⟩
  rcases mem_append.mp ha with ha | ha
  · obtain ⟨p, hp, rfl⟩ := mem_map.mp ha
    exact (hinv.running p hp).2.namedOnly
  · obtain ⟨p, hp, rfl⟩ := mem_map.mp ha
    exact (hinv.finished p hp).namedOnly

end

section

def noteToOldDevice : MessageEnvelope where
  messageId := "m"
  senderId := "00000000-0000-0000-0000-00000000000b"
  recipientId := "00000000-0000-0000-0000-00000000000a"
  messageType := .directMessage
  encryptedPayload := [1]
  isSealedSender := false
  sealedInner := none
  recipientDevice := some "old"

def defaultConfig : DeliveryConfig := ⟨"queue", true⟩

def retriedDispatch : List DispatchAction :=
  [.start noteToOldDevice, .start noteToOldDevice, .reply 0 (.exists true),
    .reply 0 (.blocked (some false)), .reply 0 (.devices (some ["phone", "laptop"])),
    .reply 0 (.xadd .ok), .reply 0 (.xadd .ok), .reply 0 (.xadd .lost), .reply 0 (.mark .ok),
    .reply 0 (.exists true)]

theorem retriedDispatch_acknowledges : ∃ s,
    run (DispatchState.step defaultConfig unaryCodec id) .empty retriedDispatch = some s ∧
      s.finished.map Prod.snd = [.delivered, .duplicate] ∧
      (∀ p ∈ s.finished, Acknowledges defaultConfig unaryCodec id s.store.streams p.1 p.2) ∧
      (∀ a ∈ s.attempts, NamedOnly defaultConfig a) ∧
      ∀ p ∈ s.finished, ReachesAll defaultConfig unaryCodec s.store.streams p.1 p.2 :=
  reaches_with (by decide +kernel) fun _ hrun _ =>
    run_acknowledges_and_routes defaultConfig unaryCodec Function.injective_id hrun

def halfFannedOut : List DispatchAction :=
  [.start noteToOldDevice, .reply 0 (.exists true), .reply 0 (.blocked (some false)),
    .reply 0 (.devices (some ["phone", "laptop"])), .reply 0 (.xadd .ok), .reply 0 (.xadd .ok),
    .reply 0 (.xadd .failed), .reply 0 (.mark .ok)]

/-- The dispatch is acknowledged, and the stream of the device has nothing. -/
theorem failed_device_write_acknowledged : ∃ s,
    run (DispatchState.step defaultConfig unaryCodec id) .empty halfFannedOut = some s ∧
      (∃ p ∈ s.finished, p.2.answer = .ok () ∧ p.1.env.recipientDevice = some "old" ∧
        p.1.active = some ["phone", "laptop"]) ∧ ∀ e ∈ s.store.streams,
        e.1 ≠ deviceStreamKey defaultConfig noteToOldDevice.recipientId "laptop" := by
  have hend : (run (DispatchState.step defaultConfig unaryCodec id) .empty
      halfFannedOut).map (fun s => s.finished.map fun p =>
        (p.1.env.recipientDevice, p.1.active, p.2)) =
      some [(some "old", some ["phone", "laptop"], .delivered)] := by decide +kernel
  have hkeys : (run (DispatchState.step defaultConfig unaryCodec id) .empty
      halfFannedOut).map (fun s => s.store.streams.map Prod.fst) =
      some [userStreamKey defaultConfig noteToOldDevice.recipientId,
        deviceStreamKey defaultConfig noteToOldDevice.recipientId "phone"] := by decide +kernel
  obtain ⟨s, hrun, hfinished⟩ := map_eq_some_iff.mp hend
  rw [hrun, map_some, some_inj] at hkeys
  refine ⟨s, hrun, ?_, fun e he heq => ?_⟩
  · obtain ⟨p, hp, hfacts⟩ := mem_map.mp (hfinished ▸ mem_singleton_self _)
    simp only [Prod.mk.injEq] at hfacts
    exact ⟨p, hp, by rw [hfacts.2.2]; rfl, hfacts.1, hfacts.2.1⟩
  · have hmem : e.1 ∈ s.store.streams.map Prod.fst := mem_map_of_mem he
    rw [hkeys, heq] at hmem
    exact absurd hmem (by decide +kernel)

end

/-! ### A dispatch alone -/

section

variable {cfg : DeliveryConfig} {codec : EnvelopeCodec} {sha256 : Bytes → Bytes} {store : Store}
  {a : Attempt} {result : Except String Unit × Store}

variable (cfg codec sha256) in
/-- While the other dispatches wait, the attempt can end with the result. -/
def EndsWith (result : Except String Unit × Store) (store : Store) (a : Attempt) :
    DispatchPhase ⊕ Verdict → Prop
  | .inr verdict => (verdict.answer, store) = result
  | .inl phase => ∀ running finished, ∃ (replies : List DispatchReply) (a' : Attempt) (verdict : Verdict),
      verdict.answer = result.1 ∧ run (DispatchState.step cfg codec sha256)
        ⟨store, running ++ [(a, phase)], finished⟩ (replies.map (.reply running.length)) =
          some ⟨result.2, running, finished ++ [(a', verdict)]⟩

theorem EndsWith.step {phase : DispatchPhase} {x : Store × Attempt} {next : DispatchPhase ⊕ Verdict}
    (reply : DispatchReply) (hstep : a.step cfg codec sha256 store phase reply = some (x, next))
    (h : EndsWith cfg codec sha256 result x.1 x.2 next) :
    EndsWith cfg codec sha256 result store a (.inl phase) := by
  intro running finished
  cases next with
  | inr verdict =>
    subst h
    exact ⟨[reply], x.2, verdict, rfl, by simp [run_cons, DispatchState.step, hstep, Machine.replace]⟩
  | inl phase' =>
    obtain ⟨replies, a', verdict, hv, hrun⟩ := h running finished
    refine ⟨reply :: replies, a', verdict, hv, ?_⟩
    simp [run_cons, DispatchState.step, hstep, Machine.replace, hrun]

theorem EndsWith.deviceWrites (outcomes : WriteOutcomes) {targets rest : List String} {n : Nat}
    (h : ∀ a', a'.env = a.env → EndsWith cfg codec sha256 result
      { store with streams := writeDevices cfg codec outcomes store.streams a.env.recipientId rest a.env } a'
      (nextWrite cfg a.env targets [] (n + rest.countP fun d => outcomes.device d = .ok))) :
    EndsWith cfg codec sha256 result store a (nextWrite cfg a.env targets rest n) := by
  induction rest generalizing store a n with
  | nil => exact h a rfl
  | cons d rest ih =>
    refine EndsWith.step (.xadd (outcomes.device d)) rfl (ih fun a' ha' => ?_)
    have hcount : (if outcomes.device d = .ok then n + 1 else n) +
        rest.countP (fun d => decide (outcomes.device d = .ok)) =
          n + (d :: rest).countP fun d => decide (outcomes.device d = .ok) := by
      by_cases hok : outcomes.device d = .ok
      · simp [hok]
        omega
      · simp [hok]
    rw [hcount]
    exact h a' ha'

variable (inputs : DispatchInputs) (env : MessageEnvelope)

theorem EndsWith.written {targets : List String} {k : Nat} {r : Except String Unit} (ha : a.env = env)
    (hr : (if !cfg.mailboxUserWrite ∧ k = 0 then
      .error ("No mailbox to write: user-stream writes are disabled (MSG_MAILBOX_USER_WRITE=0) "
        ++ "and none of the " ++ toString targets.length ++ " device stream writes for recipient "
        ++ env.recipientId ++ " landed") else .ok ()) = r) :
    EndsWith cfg codec sha256 (concluded sha256 inputs env store r) store a
      (nextWrite cfg env targets [] k) := by
  subst ha hr
  unfold nextWrite
  by_cases hk : !cfg.mailboxUserWrite ∧ k = 0
  · simp only [if_pos hk]
    rfl
  simp only [if_neg hk]
  by_cases hu : isUserMessage a.env.messageType
  · rw [if_pos hu]
    refine EndsWith.step (.mark inputs.mark) rfl ?_
    simp only [EndsWith, concluded, hu, true_and]
    rfl
  · rw [if_neg hu]
    simp only [EndsWith, concluded, hu]
    rfl

theorem EndsWith.lookup : EndsWith cfg codec sha256 (concluded sha256 inputs env
      { store with streams := (deliver cfg codec inputs store.streams env).2 }
      (deliver cfg codec inputs store.streams env).1) store ⟨env, none, []⟩ (.inl .lookup) := by
  have hactive : (if (Uuid.parseStr env.recipientId).isSome then
      ((Uuid.parseStr env.recipientId).bind inputs.devicesOf).getD [] else []) =
        fetchRecipientDeviceIds inputs env.recipientId := by
    unfold fetchRecipientDeviceIds
    cases Uuid.parseStr env.recipientId <;> rfl
  refine EndsWith.step (.devices ((Uuid.parseStr env.recipientId).bind inputs.devicesOf)) rfl ?_
  dsimp only
  rw [hactive]
  have htargets : Attempt.targets ⟨env, some (fetchRecipientDeviceIds inputs env.recipientId), []⟩ =
      targetDevices inputs env := rfl
  rw [htargets]
  simp only [deliver, writeMessageToDeviceStreams, writeUser]
  by_cases hw : cfg.mailboxUserWrite
  · simp only [hw, if_true, true_and, Bool.not_true, Bool.false_eq_true, false_and, if_false]
    refine EndsWith.step (.xadd inputs.writes.user) rfl ?_
    by_cases hok : inputs.writes.user = .ok
    · rw [if_pos hok, if_neg (not_not_intro hok)]
      exact EndsWith.deviceWrites inputs.writes fun a' ha' =>
        EndsWith.written inputs env ha' (if_neg (by simp [hw]))
    · rw [if_neg hok, if_pos hok]
      rfl
  · simp only [hw, if_false, false_and, Bool.false_eq_true, Bool.not_false, true_and]
    refine EndsWith.deviceWrites inputs.writes fun a' ha' => ?_
    by_cases hk : (targetDevices inputs env).countP (fun d => inputs.writes.device d = .ok) = 0
    · rw [if_pos hk]
      exact EndsWith.written inputs env ha' (if_pos (by simp [hw, hk]))
    · rw [if_neg hk]
      exact EndsWith.written inputs env ha' (if_neg (by simp [hk]))

theorem asksForBlock_of_dropped (h : droppedAsBlocked inputs env) : asksForBlock env := by
  unfold droppedAsBlocked at h
  unfold asksForBlock
  split at h
  · next hs hr => rw [hs, hr]; rfl
  · cases h

/-- **A dispatch that runs while the others wait does what `dispatchEnvelope` computes.** -/
theorem dispatchEnvelope_alone (s : DispatchState) (hfits : RoutingFits env) :
    ∃ (replies : List DispatchReply) (a : Attempt) (verdict : Verdict),
      verdict.answer = (dispatchEnvelope cfg codec sha256 inputs s.store env).1 ∧
      run (DispatchState.step cfg codec sha256) s (.start env :: replies.map (.reply s.running.length)) =
        some ⟨(dispatchEnvelope cfg codec sha256 inputs s.store env).2, s.running,
          s.finished ++ [(a, verdict)]⟩ := by
  suffices hends : EndsWith cfg codec sha256 (dispatchEnvelope cfg codec sha256 inputs s.store env)
      s.store ⟨env, none, []⟩ (.inl (startPhase env)) by
    obtain ⟨replies, a, verdict, hv, hrun⟩ := hends s.running s.finished
    exact ⟨replies, a, verdict, hv, by simpa [run_cons, DispatchState.step, hfits] using hrun⟩
  have hlookup := @EndsWith.lookup cfg codec sha256 s.store inputs env
  simp only [dispatchEnvelope, startPhase]
  by_cases hu : isUserMessage env.messageType
  · rw [if_pos hu]
    by_cases hdup : inputs.dedupReplies ∧ MessageDedupKey.forEnvelope sha256 env ∈ s.store.marks
    · rw [if_pos ⟨hu, hdup⟩]
      exact EndsWith.step (.exists inputs.dedupReplies) (if_pos hdup) rfl
    rw [if_neg fun h => hdup h.2]
    refine EndsWith.step (.exists inputs.dedupReplies) (if_neg hdup) ?_
    by_cases hb : droppedAsBlocked inputs env
    · rw [if_pos ⟨hu, hb⟩]
      exact EndsWith.step (.blocked (some true)) (if_pos ⟨asksForBlock_of_dropped inputs env hb, rfl⟩) rfl
    · rw [if_neg fun h => hb h.2]
      exact EndsWith.step (.blocked (some false)) (if_neg (by simp)) hlookup
  · rw [if_neg hu, if_neg fun h => hu h.1, if_neg fun h => hu h.1]
    exact hlookup

end

end ConstructServer.Messaging
