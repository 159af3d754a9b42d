import ConstructServer.Signaling.Service

/-!
# What outsiders can do to a call

The frames of a stream are checked against the parties of the call that they name. A new call is
not: its id is chosen by the client, and a call that has the id already is overwritten. And a call
that Redis does not answer for counts as gone, so that the next one who asks removes it. If no
outsider asks for a new call under the id, and Redis has the hash and answers whenever an outsider's
request asks for it, the call stays as it is.
-/

namespace ConstructServer.Signaling

open Redis Calls Machine Option

/-! ### What belongs to a call -/

structure CallFacts where
  callerUserId : String
  calleeUserId : String
  callerDeviceId : String
  acceptedCalleeDeviceId : Option String
  ringingAtMs : Option Nat
  answeredAtMs : Option Nat
deriving DecidableEq

def CallState.facts (state : CallState) : CallFacts :=
  ⟨state.callerUserId, state.calleeUserId, state.callerDeviceId, state.acceptedCalleeDeviceId,
    state.ringingAtMs, state.answeredAtMs⟩

def CallHash.facts (hash : CallHash) : Option CallFacts :=
  match hash.callerUserId, hash.calleeUserId, hash.callerDeviceId with
  | some caller, some callee, some device =>
    some ⟨caller, callee, device, hash.acceptedCalleeDeviceId.filter (· ≠ ""), hash.ringingAtMs,
      hash.answeredAtMs⟩
  | _, _, _ => none

section

variable {ι : Type} [DecidableEq ι]

inductive OutsideCall (ι : Type)
  | initiate (i : ι) (hasDatabase : Bool) (req : InitiateCall)
  | frame (i : ι) (userId deviceId : String) (frame : Frame)

def OutsideCall.sender : OutsideCall ι → String
  | .initiate _ _ req => req.callerId
  | .frame _ userId _ _ => userId

def OutsideCall.created : OutsideCall ι → Option String
  | .initiate _ _ req => some req.callId
  | .frame .. => none

def outsideBody : OutsideCall ι → Sig ι Unit
  | .initiate i hasDatabase req => do
    let _ ← initiateCall i hasDatabase req
  | .frame i userId deviceId frame => serveFrame i userId deviceId frame

abbrev OutsidePool (ι : Type) : Type :=
  Pool (SigStatement ι) SigStatement.Answer Unit (OutsideCall ι) (SigState ι)

abbrev OutsideAction (ι : Type) : Type := Action (Input (SigPick ι)) (OutsideCall ι) Nat

def outsideStep (pool : OutsidePool ι) (a : OutsideAction ι) : Option (OutsidePool ι) :=
  pool.step (fun _ q input s => s.exec q input) (fun call _ => outsideBody call) (fun _ _ _ s => s)
    SigState.tick a

end

/-! ### Promises -/

section

variable {ι : Type} (C : String) (s₀ : SigState ι)

/-- The hash is what it was, and each instance has the copy that it had, or one that it has loaded.
-/
structure Untouched (s : SigState ι) : Prop where
  hash : s.hashes (callKey C) = s₀.hashes (callKey C)
  copy : ∀ i, (s.memory i).calls C = (s₀.memory i).calls C ∨
    (s₀.memory i).calls C = none ∧ ∃ cell ∈ s₀.hashes (callKey C), ∃ state,
      (s.memory i).calls C = some state ∧ cell.value.facts = some state.facts

/-- The users whom the copies and the hash name. -/
structure BelongsTo (caller callee : String) : Prop where
  copy : ∀ i, ∀ state ∈ (s₀.memory i).calls C,
    state.callerUserId = caller ∧ state.calleeUserId = callee
  hash : ∀ cell ∈ s₀.hashes (callKey C), ∀ facts ∈ cell.value.facts,
    facts.callerUserId = caller ∧ facts.calleeUserId = callee

def Answered (input : Input (SigPick ι)) (s : SigState ι) : Prop :=
  input.outcome = .ok ∧ (s.hashes.get s.now (callKey C)).isSome = true

/-- The senders are outsiders, none of them asks for a call with this id, and Redis answers for the
call. -/
def outsidersOnly (caller callee : String) :
    Discipline (SigStatement ι) (Input (SigPick ι)) (SigState ι) (OutsideCall ι) where
  inv := Untouched C s₀
  fresh _ _ := True
  rely _ _ _ _ := True
  begins c _ := (c.sender ≠ caller ∧ c.sender ≠ callee) ∧ c.created ≠ some C
  compat _ _ := True
  care _ q input s := match q with
    | .redis (.existsCall callId) | .redis (.hgetall callId) => callId = C → Answered C input s
    | _ => True
  refl _ _ _ := trivial
  trans _ _ := trivial

end

section

variable {ι : Type} {C caller callee : String} {s₀ s s' : SigState ι} {n : Nat}
  {c : OutsideCall ι} {i : ι} {callId userId deviceId : String} {α : Type}

theorem Untouched.trans (h : Untouched C s₀ s) (hs : SameCall C s s') : Untouched C s₀ s' := by
  refine ⟨hs.hash.trans h.hash, fun i => ?_⟩
  rw [hs.copy i]
  exact h.copy i

theorem keeps_untouched (h : Untouched C s₀ s') : (outsidersOnly C s₀ caller callee).Keeps n c s s' :=
  ⟨h, fun _ _ _ => trivial, fun _ _ _ _ => trivial⟩

theorem Untouched.parties (h : Untouched C s₀ s) (hbe : BelongsTo C s₀ caller callee)
    {state : CallState} (hst : (s.memory i).calls C = some state) :
    state.callerUserId = caller ∧ state.calleeUserId = callee := by
  rcases h.copy i with hco | ⟨-, cell, hce, state', hs', hf⟩
  · exact hbe.copy i state (hco ▸ hst)
  · rw [hs'] at hst
    cases hst
    exact hbe.hash cell hce _ hf

/-- What is known once a call could not be loaded: this instance will never have it. -/
structure Unloadable (C : String) (s₀ : SigState ι) (i : ι) : Prop where
  copy : (s₀.memory i).calls C = none
  hash : ∀ cell ∈ s₀.hashes (callKey C), cell.value.facts = none

theorem Untouched.no_copy (h : Untouched C s₀ s) (hn : Unloadable C s₀ i) : (s.memory i).calls C = none := by
  rcases h.copy i with hco | ⟨-, cell, hce, state, -, hf⟩
  · rw [hco]
    exact hn.copy
  · rw [hn.hash cell hce] at hf
    cases hf

variable [DecidableEq ι]

/-- The call of an outsider leaves the call with the id `C` alone. -/
abbrev StaysOutside (C : String) (s₀ : SigState ι) (caller callee : String) :=
  (outsidersOnly C s₀ caller callee).Safe (α := α) (fun _ q input s => s.exec q input)

theorem safe_spares {p : Sig ι α} (hp : p.Asks (Spares C)) :
    StaysOutside C s₀ caller callee n c p (fun _ _ => True) s := by
  refine Discipline.safe_of_keeps (fun _ => True) (fun _ _ _ _ => trivial) ?_ (fun _ _ _ => trivial) hp
    trivial
  intro q input s r s' hq hinv _ _ he
  exact ⟨keeps_untouched (Untouched.trans hinv (sameCall_of_spares hq he)), trivial⟩

theorem safe_elsewhere {p : Sig ι α} (hp : p.Asks (Elsewhere C)) :
    StaysOutside C s₀ caller callee n c p (fun _ _ => True) s :=
  safe_spares (hp.mono Elsewhere.spares)

theorem safe_insertLoaded {hash : CallHash} {cell : Cell CallHash} (hco : (s₀.memory i).calls C = none)
    (hce : cell ∈ s₀.hashes (callKey C)) (hva : cell.value = hash) : StaysOutside C s₀ caller callee n c
      (insertLoaded i C hash) (fun r _ => r.map CallState.facts = hash.facts) s := by
  unfold insertLoaded
  split
  · rename_i callerUserId calleeUserId callerDeviceId hca hcal hde
    have hf : ∀ createdAt offeredAtMs, some (hash.toState C callerUserId calleeUserId callerDeviceId
        createdAt offeredAtMs).facts = hash.facts := by
      intro createdAt offeredAtMs
      rw [CallHash.facts, hca, hcal, hde]
      rfl
    refine Discipline.Safe.andThen _ (safe_elsewhere (asks_orNow (asks_unixSeconds trivial)))
      fun createdAt s _ => ?_
    refine Discipline.Safe.andThen _ (safe_elsewhere (asks_orNow (And.intro trivial fun _ => trivial)))
      fun offeredAtMs s _ => ?_
    refine safe_map fun s input r s' hinv _ _ he => ?_
    cases he
    refine ⟨keeps_untouched ⟨hinv.hash, fun j => ?_⟩, hf createdAt offeredAtMs⟩
    by_cases hj : j = i
    · subst hj
      refine .inr ⟨hco, cell, hce, _, ?_, by rw [hva]; exact (hf createdAt offeredAtMs).symm⟩
      rw [calls_setMemory_self]
      exact Function.update_self C _ _
    · simp only [SigState.setMemory, Function.update_of_ne hj]
      exact hinv.copy j
  · rename_i hmi
    show none = hash.facts
    unfold CallHash.facts
    split
    · rename_i hca hcal hde
      exact absurd hde (hmi _ _ _ hca hcal)
    · rfl

theorem safe_loadCallState (hbe : BelongsTo C s₀ caller callee) :
    StaysOutside C s₀ caller callee n c (loadCallState i C)
      (fun r _ => (∀ state ∈ r, state.callerUserId = caller ∧ state.calleeUserId = callee) ∧
        (r = none → Unloadable C s₀ i)) s := by
  refine safe_map fun s input cached s' hinv _ _ he => ?_
  cases he
  refine ⟨keeps_untouched hinv, ?_⟩
  cases hca : (s.memory i).calls C with
  | some state =>
    refine ⟨fun state' hs' => ?_, fun heq => by cases heq⟩
    cases hs'
    exact hinv.parties hbe hca
  | none =>
    -- The copy was never there: what an instance has, it keeps.
    have hco : (s₀.memory i).calls C = none := by
      rcases hinv.copy i with hs | ⟨hno, -⟩
      · exact hs ▸ hca
      · exact hno
    refine safe_redis fun s input reply s' hinv _ hcar he => ?_
    obtain ⟨hok, hth⟩ := hcar rfl
    obtain ⟨hash, hg⟩ := isSome_iff_exists.mp hth
    simp only [SigState.exec, fallible, hok, RedisCommand.effect, map_some, hg, getD_some] at he
    cases he
    obtain ⟨cell, hce, -, hva⟩ := Keyspace.get_eq_some_iff.mp hg
    rw [hinv.hash] at hce
    refine ⟨keeps_untouched hinv, ?_⟩
    refine (safe_insertLoaded hco hce hva).mono fun r s hr => ⟨fun state hst => ?_, fun hno => ?_⟩
    · rw [mem_def.mp hst] at hr
      exact hbe.hash cell hce state.facts (hva ▸ hr.symm)
    · refine ⟨hco, fun cell' hc' => ?_⟩
      rw [hce] at hc'
      cases hc'
      rw [hva, ← hr, hno]
      rfl

theorem safe_loadAny (hbe : BelongsTo C s₀ caller callee) : StaysOutside C s₀ caller callee n c
      (loadCallState i callId) (fun r _ => callId = C →
        (∀ state ∈ r, state.callerUserId = caller ∧ state.calleeUserId = callee) ∧
          (r = none → Unloadable C s₀ i)) s := by
  by_cases hid : callId = C
  · subst hid
    exact (safe_loadCallState hbe).mono fun _ _ hr _ => hr
  · exact (safe_elsewhere (asks_loadCallState hid)).mono fun _ _ _ heq => absurd heq hid

theorem safe_removeCall (h : callId = C → Unloadable C s₀ i) : StaysOutside C s₀ caller callee n c
      (removeCall i callId) (fun _ _ => True) s := by
  by_cases hid : callId = C
  · subst hid
    refine safe_map fun s input r s' hinv _ _ he => ?_
    have hno := hinv.no_copy (h rfl)
    simp only [SigState.exec, MapAccess.effect, hno, Option.some.injEq, Prod.mk.injEq] at he
    obtain ⟨rfl, rfl⟩ := he
    refine ⟨keeps_untouched (hinv.trans (sameCall_setMemory ?_)), trivial⟩
    simp only [Function.update_self, hno]
  · exact safe_elsewhere (asks_removeCall hid)

theorem safe_existsCall : StaysOutside C s₀ caller callee n c
      (callExistsInRedis callId) (fun found _ => callId = C → found = true) s := by
  refine safe_redis fun s input reply s' hinv _ hca he => ?_
  have hs : SameCall C s s' :=
    sameCall_of_spares (q := .redis (.existsCall callId)) trivial he
  refine ⟨keeps_untouched (Untouched.trans hinv hs), fun hid => ?_⟩
  obtain ⟨hok, hth⟩ := hca hid
  rw [hid] at he
  simp only [SigState.exec, fallible, hok, RedisCommand.effect, map_some, hth] at he
  cases he
  rfl

theorem safe_getUserCall : StaysOutside C s₀ caller callee n c (getUserCall i userId) (fun _ _ => True) s := by
  refine Discipline.Safe.andThen (fun _ _ => True)
    (safe_spares (asks_map trivial fun _ => trivial)) fun active s _ => ?_
  cases active with
  | some activeId =>
    refine Discipline.Safe.andThen _ safe_existsCall fun found s hf => ?_
    split
    · trivial
    · rename_i hg
      refine Discipline.Safe.andThen _ (safe_removeCall fun hid => absurd (hf hid) hg) fun _ s _ => ?_
      trivial
  | none =>
    refine safe_spares (asks_redis trivial fun pointer => ?_)
    cases pointer.join with
    | none => trivial
    | some pointedId =>
      refine Program.asks_bind (asks_redis trivial fun _ => trivial) fun found => ?_
      split
      · exact asks_map trivial fun _ => trivial
      · exact asks_pipe_then trivial trivial

theorem keepalive_eq_none {state : CallState} {now : Nat} (hca : userId ≠ state.callerUserId)
    (hcal : userId ≠ state.calleeUserId) : state.keepalive userId now = none := by
  simp only [CallState.keepalive, CallState.roleOf, if_neg hca.symm, if_neg hcal.symm]

theorem safe_noteKeepalive (hbe : BelongsTo C s₀ caller callee) (hca : userId ≠ caller)
    (hcal : userId ≠ callee) : StaysOutside C s₀ caller callee n c (noteKeepalive i userId) (fun _ _ => True) s := by
  refine Discipline.Safe.andThen _ safe_getUserCall fun call s _ => ?_
  cases call with
  | none => trivial
  | some callId =>
    refine Discipline.Safe.andThen _ (safe_elsewhere (asks_unixSeconds trivial)) fun now s _ => ?_
    refine Discipline.Safe.andThen _ (safe_loadAny hbe) fun loaded s hl => ?_
    by_cases hid : callId = C
    · -- The sender is not a party, so there is nothing to note.
      have hno : loaded.bind (·.keepalive userId now) = none := by
        cases loaded with
        | none => rfl
        | some state =>
          obtain ⟨hs₁, hs₂⟩ := (hl hid).1 state rfl
          exact keepalive_eq_none (hs₁ ▸ hca) (hs₂ ▸ hcal)
      rw [hno]
      trivial
    · refine safe_elsewhere ?_
      split
      · trivial
      · exact asks_pipe_then hid (asks_pipe_then hid (asks_map hid fun _ => trivial))

theorem safe_forwardSignal {signal : ForwardedSignal} (hbe : BelongsTo C s₀ caller callee) :
    StaysOutside C s₀ caller callee n c (forwardSignal i callId userId deviceId signal) (fun _ _ => True) s := by
  refine Discipline.Safe.andThen _ (safe_loadAny hbe) fun loaded s hl => ?_
  cases loaded with
  | none => trivial
  | some state =>
    dsimp only
    cases hpe : state.peerOf userId with
    | none => trivial
    | some target => exact safe_elsewhere asks_forward

theorem safe_noteDeclined {kind : SignalKind} (hbe : BelongsTo C s₀ caller callee) :
    StaysOutside C s₀ caller callee n c (noteDeclined i userId callId kind) (fun _ _ => True) s := by
  unfold noteDeclined
  split
  · refine Discipline.Safe.andThen _ (safe_loadAny hbe) fun loaded s _ => safe_elsewhere ?_
    cases loaded with
    | none => trivial
    | some state =>
      dsimp only
      split
      · exact asks_pipe trivial
      · trivial
  · trivial

theorem safe_actOnSignal {role : Option CallRole} {signal : WebRtcSignal}
    (hbe : BelongsTo C s₀ caller callee) (h : signal.callId = C → role = none ∧ Unloadable C s₀ i) :
    StaysOutside C s₀ caller callee n c (actOnSignal i userId deviceId role signal) (fun _ _ => True) s := by
  have hre : ∀ s, StaysOutside C s₀ caller callee n c
      (removeCall i signal.callId) (fun _ _ => True) s := fun s => safe_removeCall fun hid => (h hid).2
  unfold actOnSignal
  split
  · trivial
  · trivial
  · trivial
  · exact safe_forwardSignal hbe
  · exact safe_forwardSignal hbe
  · exact safe_forwardSignal hbe
  · refine Discipline.Safe.andThen (fun _ _ => True) ?_ fun _ s _ => safe_forwardSignal hbe
    unfold ringAs
    split
    · rename_i hro
      exact safe_elsewhere (asks_noteRinging fun hid => by rw [(h hid).1] at hro; cases hro)
    · trivial
  · refine Discipline.Safe.andThen (fun _ _ => True) ?_ fun _ s _ => safe_forwardSignal hbe
    unfold connectAs
    split
    · trivial
    · exact safe_elsewhere (asks_noteConnected fun hid => by cases (h hid).1)
  · refine Discipline.Safe.andThen _ (safe_forwardSignal hbe) fun _ s _ => ?_
    exact Discipline.Safe.andThen _ (hre s) fun _ s _ => trivial
  · refine Discipline.Safe.andThen _ (safe_noteDeclined hbe) fun _ s _ => ?_
    refine Discipline.Safe.andThen _ (safe_forwardSignal hbe) fun _ s _ => ?_
    exact Discipline.Safe.andThen _ (hre s) fun _ s _ => trivial

theorem safe_handleOutboundSignal {routed : Option WebRtcSignal}
    (hbe : BelongsTo C s₀ caller callee) (hca : userId ≠ caller) (hcal : userId ≠ callee) :
    StaysOutside C s₀ caller callee n c (handleOutboundSignal i userId deviceId routed) (fun _ _ => True) s := by
  cases routed with
  | none => trivial
  | some signal =>
    simp only [handleOutboundSignal]
    split
    · trivial
    · refine Discipline.Safe.andThen _ (safe_loadAny hbe) fun loaded s hl => ?_
      cases loaded with
      | none => exact safe_actOnSignal hbe fun hid => ⟨rfl, (hl hid).2 rfl⟩
      | some state =>
        dsimp only
        split
        · trivial
        · rename_i role hro
          -- A sender with a role is a party, so this is another call.
          refine safe_actOnSignal hbe fun hid => ?_
          obtain ⟨hs₁, hs₂⟩ := (hl hid).1 state rfl
          rw [CallState.roleOf, hs₁, hs₂, if_neg hca.symm, if_neg hcal.symm] at hro
          cases hro

theorem safe_serveFrame {frame : Frame} (hbe : BelongsTo C s₀ caller callee)
    (hca : userId ≠ caller) (hcal : userId ≠ callee) : StaysOutside C s₀ caller callee n c
      (serveFrame i userId deviceId frame) (fun _ _ => True) s := by
  have hto : ∀ s, StaysOutside C s₀ caller callee n c
      (touchOnline i userId deviceId) (fun _ _ => True) s := fun s => safe_elsewhere (asks_pipe trivial)
  cases frame with
  | empty => trivial
  | ping =>
    exact Discipline.Safe.andThen _ (hto s) fun _ s _ => safe_noteKeepalive hbe hca hcal
  | routed signal admitted =>
    simp only [serveFrame]
    split
    · refine Discipline.Safe.andThen _ (hto s) fun _ s _ => ?_
      refine Discipline.Safe.andThen _ (safe_noteKeepalive hbe hca hcal) fun _ s _ => ?_
      exact Discipline.Safe.andThen _ (safe_handleOutboundSignal hbe hca hcal) fun _ s _ => trivial
    · trivial

theorem safe_registerCall {req : InitiateCall} (hid : req.callId ≠ C) : StaysOutside C s₀ caller callee n c
      (registerCall i req) (fun _ _ => True) s := by
  refine Discipline.Safe.andThen (fun _ _ => True)
    (Discipline.Safe.andThen _ safe_getUserCall fun _ s _ => trivial) fun busy s _ => ?_
  refine safe_elsewhere ?_
  split
  · trivial
  · refine Program.asks_bind asks_listOnlineDevices fun devices => ?_
    refine Program.asks_bind (And.intro trivial fun _ => trivial) fun offeredAtMs => ?_
    refine Program.asks_bind (asks_createCall hid) fun _ => ?_
    refine Program.asks_bind (asks_storeCallMetadata hid) fun _ => ?_
    split
    · trivial
    · exact Program.asks_bind asks_sendToUser fun _ => trivial

omit [DecidableEq ι] in
theorem tick_untouched : (outsidersOnly (ι := ι) C s₀ caller callee).Bears fun ms s => s.tick ms :=
  fun _ _ hinv =>
  ⟨Untouched.trans hinv ⟨fun _ => rfl, rfl⟩, fun _ _ => trivial, fun _ _ => trivial⟩

theorem safe_outsideBody (hbe : BelongsTo C s₀ caller callee)
    (hb : (outsidersOnly C s₀ caller callee).begins c s) :
    StaysOutside C s₀ caller callee n c (outsideBody c)
      ((outsidersOnly C s₀ caller callee).Ends (fun _ _ _ s => s) n c) s := by
  have hen : ∀ s, (outsidersOnly C s₀ caller callee).Ends (fun _ _ (_ : Unit) s => s) n c () s :=
    fun s hinv => keeps_untouched hinv
  obtain ⟨⟨hca, hcal⟩, hcr⟩ := hb
  cases c with
  | frame i userId deviceId frame =>
    exact (safe_serveFrame hbe hca hcal).mono fun _ s _ => hen s
  | initiate i hasDatabase req =>
    refine Discipline.Safe.andThen (fun _ _ => True) ?_ fun _ s _ => hen s
    refine Discipline.Safe.andThen (fun _ _ => True)
      (safe_elsewhere (asks_admitCall fun _ _ _ => trivial)) fun admitted s _ => ?_
    cases admitted with
    | error status => trivial
    | ok _ => exact safe_registerCall fun heq => hcr (congrArg some heq)

end

/-! ### Every run -/

section

variable {ι : Type} [DecidableEq ι]

/-- In every run of requests and frames of users who are not the parties of a call, none of which
asks for a new call under its id, while Redis has the hash and answers: the hash stays as it is, and
every instance has the copy that it had, or one that it has loaded from the hash. -/
theorem outsiders_leave_the_call (C caller callee : String) {s₀ : SigState ι} {as : List (OutsideAction ι)}
    {pool : OutsidePool ι} (hbelongs : BelongsTo C s₀ caller callee)
    (hcareful : Along outsideStep (outsidersOnly C s₀ caller callee).Careful (.init s₀) as)
    (hrun : run outsideStep (.init s₀) as = some pool) : Untouched C s₀ pool.store :=
  (outsidersOnly C s₀ caller callee).run_invariant
    (fun _ _ _ _ _ hbegins => safe_outsideBody hbelongs hbegins)
    tick_untouched ⟨rfl, fun _ => .inl rfl⟩ (fun _ => trivial) hcareful hrun

end

/-! ### An outsider who knows the id -/

section

def alice : String := (Uuid.repeated (Uuid.digit 1)).toStr

def bob : String := (Uuid.repeated (Uuid.digit 2)).toStr

def carol : String := (Uuid.repeated (Uuid.digit 3)).toStr

def mallory : String := (Uuid.repeated (Uuid.digit 4)).toStr

def liveState : CallState := ⟨"c", alice, bob, "a", none, 0, 0, some 5, none, 0, 0⟩

def liveHash : CallHash := ⟨some alice, some bob, some "a", some "", some 0, some 0, some 5, none, some 0, some 0⟩

def liveCall : SigState Unit :=
  { SigState.start 0 with
    memory := fun _ => { Memory.empty with
      calls := Function.update Memory.empty.calls "c" (some liveState)
      activeCalls := fun u => if u ∈ [alice, bob] then some "c" else none }
    hashes := (SigState.start (ι := Unit) 0).hashes.set 0 (callKey "c") liveHash (some 300)
    pointers := ((SigState.start (ι := Unit) 0).pointers.set 0 (activeCallKey alice) "c" (some 300)).set 0
      (activeCallKey bob) "c" (some 300) }

def goOn (picks : List (SigPick Unit)) : List (OutsideAction Unit) :=
  picks.map fun pick => .step 0 ⟨.ok, pick⟩

def callsCarol (callId : String) : List (OutsideAction Unit) :=
  .start (.initiate () true ⟨mallory, "m", callId, carol⟩) ::
    goOn ([.passes true, .passes false, .passes true, .passes true, .passes true, .none, .none, .devices []] ++
      List.replicate 12 .none)

attribute [reducible] outsidersOnly

instance decidableOutsideCare (C : String) (s₀ : SigState Unit) (caller callee : String)
    (c : OutsideCall Unit) (q : SigStatement Unit) (input : Input (SigPick Unit)) (s : SigState Unit) :
    Decidable ((outsidersOnly C s₀ caller callee).care c q input s) :=
  match q with
  | .redis command => by
    apply @RedisCommand.casesOn _ (fun r =>
      Decidable ((outsidersOnly C s₀ caller callee).care c (.redis r) input s)) command <;>
      intros <;> dsimp only [outsidersOnly, Answered] <;> infer_instance
  | .clock | .map .. | .unregister .. => isTrue trivial

theorem liveCall_belongsTo : BelongsTo "c" liveCall alice bob where
  copy i state hst := by
    cases hst
    exact ⟨rfl, rfl⟩
  hash cell hce facts hf := by
    cases hce
    cases hf
    exact ⟨rfl, rfl⟩

def refusedHangup : List (OutsideAction Unit) :=
  .start (.frame () mallory "m" (.routed (some ⟨"c", some (.hangup .declined), "m"⟩) true)) ::
    goOn (List.replicate 4 .none) ++ callsCarol "d"

theorem outsiders_leave_the_call_demo : ∃ pool : OutsidePool Unit,
    run outsideStep (.init liveCall) refusedHangup = some pool ∧ pool.running.length = 0 ∧
      (((pool.store.memory ()).calls "d").map (·.callerUserId)) = some mallory ∧ Untouched "c" liveCall pool.store :=
  reaches_with₂ (by decide +kernel) fun _ hrun _ _ =>
    outsiders_leave_the_call "c" alice bob liveCall_belongsTo (by decide +kernel) hrun

/-- Mallory asks for a call with the id of the call of Alice and Bob, which becomes a call of
Mallory and Carol in the map and in Redis. -/
theorem outsider_takes_over : ∃ pool : OutsidePool Unit,
    run outsideStep (.init liveCall) (callsCarol "c") = some pool ∧ pool.running.length = 0 ∧
      ((liveCall.memory ()).calls "c").map CallState.facts = some ⟨alice, bob, "a", none, some 5, none⟩ ∧
      ((pool.store.memory ()).calls "c").map CallState.facts = some ⟨mallory, carol, "m", none, none, none⟩ ∧
      ((pool.store.hashes.get pool.store.now (callKey "c")).bind CallHash.facts) =
        some ⟨mallory, carol, "m", none, none, none⟩ :=
  reaches _ _ _ _ (by decide +kernel)

end

end ConstructServer.Signaling
