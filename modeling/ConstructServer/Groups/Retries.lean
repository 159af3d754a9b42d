import ConstructServer.Groups.Messages

/-!
# Whose message a send is answered with

A send that carries the client message id of a stored message is taken for a retry and is answered
with the id and the sequence number of that message. The id is looked up within the group: neither
the sender nor the payload is compared, and the row does not even name its sender. So a member who
uses an id that somebody else has used is told that the message was sent, and it is not stored.
-/

namespace ConstructServer.Groups.Retries

open Calls Queue Messages Machine List

/-! ### The log -/

/-- A message, with the devices whose membership its session had asked for: that is the caller of a
send. -/
structure StoredBy where
  callers : List String
  row : GroupMessageRow
deriving DecidableEq

structure RetryLog where
  callers : List (Nat × String)
  stored : List StoredBy
  /-- A send was answered with a message that is not its own. -/
  wrong : Bool

def RetryLog.callersOf (g : RetryLog) (n : Nat) : List String :=
  (g.callers.filter fun p => decide (p.1 = n)).map Prod.snd

def RetryLog.store (g : RetryLog) (n : Nat) (duplicate : Option GroupMessageRow)
    (row : GroupMessageRow) : RetryLog :=
  match duplicate with
  | some _ => g
  | none => { g with stored := g.stored ++ [⟨g.callersOf n, row⟩] }

def noteRetry (n : Nat) (q : MessageStatement) (x : q.Reply) (s : MessageStore) (g : RetryLog) : RetryLog :=
  match q, x with
  | .isGroupMember d, _ => { g with callers := g.callers ++ [(n, d)] }
  | .insertGroupMessage msg, row => g.store n (s.duplicate? msg) row
  | _, _ => g

def SameId (text : Option String) (id : Option Uuid) : Prop := text.map Uuid.parseStr = id.map some

instance decidableSameId (text : Option String) (id : Option Uuid) : Decidable (SameId text id) :=
  inferInstanceAs (Decidable (text.map Uuid.parseStr = id.map some))

structure HasPayload (req : SendRequest) (row : GroupMessageRow) : Prop where
  ciphertext : row.mlsCiphertext = req.mlsCiphertext
  thread : SameId req.threadId row.threadId
  topic : SameId req.topicId row.topicId

instance decidableHasPayload (req : SendRequest) (row : GroupMessageRow) : Decidable (HasPayload req row) :=
  decidable_of_iff (row.mlsCiphertext = req.mlsCiphertext ∧ SameId req.threadId row.threadId ∧
    SameId req.topicId row.topicId) ⟨fun ⟨h, h', h''⟩ => ⟨h, h', h''⟩, fun ⟨h, h', h''⟩ => ⟨h, h', h''⟩⟩

def Own (deviceId : String) (req : SendRequest) (messageId : String) (sequenceNumber : Nat)
    (stored : List StoredBy) :
    Prop :=
  ∃ m ∈ stored, m.callers = [deviceId] ∧ HasPayload req m.row ∧ m.row.messageId = messageId ∧
    m.row.sequenceNumber = sequenceNumber

instance decidableOwn (deviceId : String) (req : SendRequest) (messageId : String) (sequenceNumber : Nat)
    (stored : List StoredBy) : Decidable (Own deviceId req messageId sequenceNumber stored) := by
  dsimp only [Own]
  infer_instance

def noteAnswer (_ : Nat) (c : MessageOp) (r : Except Status MessageReply) (w : MessageStore × RetryLog) :
    MessageStore × RetryLog :=
  match c, r with
  | .sendGroupMessage d req, .ok (.sent messageId sequenceNumber _ _) =>
    (w.1, { w.2 with wrong := w.2.wrong || !decide (Own d req messageId sequenceNumber w.2.stored) })
  | _, _ => w

def retryExec (n : Nat) (q : MessageStatement) (input : Input MessageChoice) (w : MessageStore × RetryLog) :
    Option (Option q.Reply × (MessageStore × RetryLog)) :=
  fallible (noted MessageStatement.effect noteRetry n) q (q.input input) w

abbrev RetryPool : Type :=
  Pool MessageStatement (fun q => Option q.Reply) (Except Status MessageReply) MessageOp (MessageStore × RetryLog)

def retryStep (streamDevice : String) (pool : RetryPool) (a : MessageAction) : Option RetryPool :=
  pool.step retryExec (fun c _ => (c.call streamDevice).run) noteAnswer (fun e w => (e.happen w.1, w.2)) a

/-! ### Nobody uses an id for two messages -/

def IdsAgree (deviceId : String) (msg : NewGroupMessage) (w : MessageStore × RetryLog) : Prop :=
  ∀ m ∈ w.1.messages, m.clientMessageId ≠ none → m.clientMessageId = msg.clientMessageId →
    (m.mlsCiphertext = msg.mlsCiphertext ∧ m.threadId = msg.threadId ∧ m.topicId = msg.topicId) ∧
      ⟨[deviceId], m⟩ ∈ w.2.stored

instance decidableIdsAgree (deviceId : String) (msg : NewGroupMessage) (w : MessageStore × RetryLog) :
    Decidable (IdsAgree deviceId msg w) := by
  dsimp only [IdsAgree]
  infer_instance

def ownIds : Discipline MessageStatement (Input MessageChoice) (MessageStore × RetryLog) MessageOp where
  inv w := w.2.wrong = false
  fresh n w := w.2.callersOf n = []
  rely n _ w w' := w'.2.callersOf n = w.2.callersOf n ∧ w.2.stored ⊆ w'.2.stored
  begins _ _ := True
  compat _ _ := True
  care c q _ w :=
    match c, q with
    | .sendGroupMessage d _, .insertGroupMessage msg => IdsAgree d msg w
    | _, _ => True
  refl _ _ _ := ⟨rfl, Subset.refl _⟩
  trans h h' := ⟨h'.1.trans h.1, Subset.trans h.2 h'.2⟩

/-! ### Statements -/

section

variable {n : Nat} {c : MessageOp} {q : MessageStatement} {w w' : MessageStore × RetryLog}

theorem note_retry {x : q.Reply} {s : MessageStore} {g : RetryLog} :
    (noteRetry n q x s g).wrong = g.wrong ∧ g.stored ⊆ (noteRetry n q x s g).stored ∧
      ∀ m, m ≠ n → (noteRetry n q x s g).callersOf m = g.callersOf m := by
  cases q with
  | isGroupMember d =>
    refine ⟨rfl, Subset.refl _, fun m hm => ?_⟩
    simp [noteRetry, RetryLog.callersOf, hm.symm]
  | insertGroupMessage msg =>
    show (g.store n (s.duplicate? msg) x).wrong = _ ∧ _ ⊆ (g.store n (s.duplicate? msg) x).stored ∧ _
    cases hr : s.duplicate? msg with
    | some _ => exact ⟨rfl, Subset.refl _, fun _ _ => by rw [noteRetry, hr, RetryLog.store]⟩
    | none => exact ⟨rfl, subset_append_left _ _, fun _ _ => by rw [noteRetry, hr]; rfl⟩
  | _ => exact ⟨rfl, Subset.refl _, fun _ _ => rfl⟩

theorem keeps_of_exec {input : Input MessageChoice} {r : Option q.Reply} (hinv : ownIds.inv w)
    (h : retryExec n q input w = some (r, w')) : ownIds.Keeps n c w w' := by
  rcases failed_or_effect h with ⟨rfl, -⟩ | ⟨x, he, -⟩
  · exact .refl hinv
  · obtain ⟨-, hl⟩ := noted_eq_some he
    obtain ⟨hw, hst, hca⟩ := note_retry (n := n) (q := q) (x := x) (s := w.1) (g := w.2)
    rw [← hl] at hw hst hca
    exact ⟨hw.trans hinv, fun m hm hf => (hca m (Nat.ne_of_gt hm)).trans hf, fun m _ hm _ => ⟨hca m hm, hst⟩⟩

theorem safe_any {p : Program MessageStatement (fun q => Option q.Reply) (Except Status MessageReply)}
    {post : Except Status MessageReply → MessageStore × RetryLog → Prop} (hpo : ∀ r w, post r w) :
    ownIds.Safe retryExec n c p post w := by
  refine Discipline.safe_of_keeps (fun _ => True) (fun _ _ _ _ => trivial) ?_ (fun r w _ => hpo r w)
    (Program.asks_true p) trivial
  intro q input w r w' _ hinv _ _ he
  exact ⟨keeps_of_exec hinv he, trivial⟩

end

/-! ### A send -/

section

variable {n : Nat} {c : MessageOp} {d : String} {req : SendRequest} {w w' : MessageStore × RetryLog}

/-- What a send asks for beside the membership and before it stores the message. -/
def Plain : MessageStatement → Prop
  | .clock | .rateLimit | .getGroupDissolvedAt | .getGroupEpoch | .getGroupRetentionDays => True
  | _ => False

theorem eq_of_plain {q : MessageStatement} {input : Input MessageChoice} {r : Option q.Reply} (hq : Plain q)
    (h : retryExec n q input w = some (r, w')) : w' = w := by
  rcases failed_or_effect h with ⟨rfl, -⟩ | ⟨x, he, -⟩
  · rfl
  · obtain ⟨he, hl⟩ := noted_eq_some he
    have hre : q.Reads := by
      cases q with
      | clock | rateLimit | getGroupDissolvedAt | getGroupEpoch | getGroupRetentionDays => trivial
      | _ => exact hq.elim
    refine Prod.ext (Messages.eq_of_reads hre he) (hl.trans ?_)
    cases q with
    | clock | rateLimit | getGroupDissolvedAt | getGroupEpoch | getGroupRetentionDays => rfl
    | _ => exact hq.elim

def ActsFor (n : Nat) (callers : List String) (w : MessageStore × RetryLog) : Prop :=
  w.2.callersOf n = callers

theorem ActsFor.stable {callers : List String} (h : ActsFor n callers w) (hre : ownIds.rely n c w w') :
    ActsFor n callers w' :=
  hre.1.trans h

theorem safe_plain {α : Type} {p : MessageCall α} {callers : List String} (hp : p.run.Asks Plain)
    (hw : ActsFor n callers w) :
    ownIds.Safe retryExec n c p.run (endsIn (fun _ => True) fun _ => ActsFor n callers) w :=
  safe_reads (ActsFor n callers) ActsFor.stable (fun _ => trivial) eq_of_plain hp hw

theorem safe_ensureMember (hw : ActsFor n [] w) :
    ownIds.Safe retryExec n c (Messages.ensureMember d).run (endsIn (fun _ => True) fun _ => ActsFor n [d]) w := by
  refine safe_then (fun _ => ActsFor n [d]) (safe_demand fun w₁ input r w' hinv hre _ he => ?_)
    fun _ w hw => safe_ensure (fun _ => hw) fun _ => trivial
  refine ⟨keeps_of_exec hinv he, ?_⟩
  cases r with
  | none => trivial
  | some isMember =>
    obtain ⟨-, hl⟩ := noted_eq_some (effect_of_reply he)
    have hno : (w₁.2.callers.filter fun p => decide (p.1 = n)).map Prod.snd = [] := hw.stable hre
    show w'.2.callersOf n = [d]
    rw [hl]
    show ((w₁.2.callers ++ [(n, d)]).filter _).map Prod.snd = [d]
    rw [filter_append, map_append, hno]
    simp

theorem safe_checkSend (hw : ActsFor n [] w) :
    ownIds.Safe retryExec n c (checkSend d req).run (endsIn (fun _ => True) fun _ => ActsFor n [d]) w := by
  refine safe_then _ (safe_plain (asks_demand trivial) hw) fun _ w hw => ?_
  refine safe_then _ (safe_plain asks_ensure hw) fun _ w hw => ?_
  refine safe_then _ (safe_plain asks_ensure hw) fun _ w hw => ?_
  refine safe_then _ (safe_plain (asks_demand trivial) hw) fun _ w hw => ?_
  refine safe_then _ (safe_plain asks_ensure hw) fun _ w hw => ?_
  refine safe_then _ (safe_ensureMember hw) fun _ w hw => ?_
  refine safe_then _ (safe_plain (asks_demand trivial) hw) fun _ w hw => ?_
  exact safe_plain asks_ensure hw

theorem sameId_of_optionalId {text : Option String} {message : String} {id : Option Uuid}
    (h : optionalId text message = .ok id) : SameId text id := by
  unfold optionalId at h
  split at h
  · cases h
    rfl
  · split at h
    · rename_i hpa
      cases h
      exact congrArg some hpa
    · cases h

structure Carries (req : SendRequest) (msg : NewGroupMessage) : Prop where
  ciphertext : msg.mlsCiphertext = req.mlsCiphertext
  thread : SameId req.threadId msg.threadId
  topic : SameId req.topicId msg.topicId

theorem safe_newMessage (hw : ActsFor n [d] w) : ownIds.Safe retryExec n c (newMessage req).run
      (endsIn (fun _ => True) fun msg w => Carries req msg ∧ ActsFor n [d] w) w := by
  refine safe_then _ (safe_plain (asks_demand trivial) hw) fun _ w hw => ?_
  refine safe_then _ (safe_plain (asks_demand trivial) hw) fun _ w hw => ?_
  refine safe_then (fun threadId w => SameId req.threadId threadId ∧ ActsFor n [d] w)
    (safe_check (fun _ hth => ⟨sameId_of_optionalId hth, hw⟩) trivial) fun threadId w hw => ?_
  obtain ⟨hth, hw⟩ := hw
  refine safe_then (fun topicId w => SameId req.topicId topicId ∧ ActsFor n [d] w)
    (safe_check (fun _ hto => ⟨sameId_of_optionalId hto, hw⟩) trivial) fun topicId w hw => ?_
  obtain ⟨hto, hw⟩ := hw
  refine safe_then (fun _ => ActsFor n [d]) (safe_check (fun _ _ => hw) trivial) fun _ w hw => ?_
  exact ⟨⟨rfl, hth, hto⟩, hw⟩

def OwnRow (d : String) (req : SendRequest) (row : GroupMessageRow) (w : MessageStore × RetryLog) : Prop :=
  HasPayload req row ∧ ⟨[d], row⟩ ∈ w.2.stored

theorem ownRow_of_insert {msg : NewGroupMessage} {choice : MessageChoice} {row : GroupMessageRow}
    (hw : ActsFor n [d] w)
    (hms : Carries req msg) (hids : IdsAgree d msg w)
    (h : noted MessageStatement.effect noteRetry n (.insertGroupMessage msg) choice w = some (row, w')) :
    OwnRow d req row w' := by
  obtain ⟨he, hl⟩ := noted_eq_some h
  obtain ⟨s', g'⟩ := w'
  simp only at he hl
  subst hl
  cases insert_case he with
  | retry hr =>
    -- The row under the id is what the caller sends again.
    obtain ⟨hm, hs, hid⟩ := mem_of_duplicate hr
    obtain ⟨⟨hci, hth, hto⟩, hst⟩ := hids _ hm hs hid
    refine ⟨⟨hci.trans hms.ciphertext, hth ▸ hms.thread, hto ▸ hms.topic⟩, ?_⟩
    exact note_retry.2.1 hst
  | stored hn _ =>
    refine ⟨⟨hms.ciphertext, hms.thread, hms.topic⟩, ?_⟩
    simp only [noteRetry, hn, RetryLog.store]
    rw [show w.2.callersOf n = [d] from hw]
    exact mem_append_right _ (mem_singleton_self _)

theorem safe_storeAndPublish {msg : NewGroupMessage} (hms : Carries req msg) (hw : ActsFor n [d] w) :
    ownIds.Safe retryExec n (.sendGroupMessage d req) (storeAndPublish msg).run
      (endsIn (fun _ => True) fun reply w => ∀ messageId sequenceNumber sentAt expiresAt,
        reply = .sent messageId sequenceNumber sentAt expiresAt →
          Own d req messageId sequenceNumber w.2.stored) w := by
  refine safe_then (fun row => OwnRow d req row) (safe_demand fun w₁ input r w' hinv hre hca he => ?_)
    fun row w hw => ?_
  · refine ⟨keeps_of_exec hinv he, ?_⟩
    cases r with
    | none => trivial
    | some row => exact ownRow_of_insert (hw.stable hre) hms hca (effect_of_reply he)
  · refine safe_then (fun _ => OwnRow d req row) (safe_demand fun w₁ input r w' hinv hre _ he => ?_)
      fun _ w hw => ?_
    · refine ⟨keeps_of_exec hinv he, ?_⟩
      cases r with
      | none => trivial
      | some _ =>
        obtain ⟨-, hl⟩ := noted_eq_some (effect_of_reply he)
        refine ⟨hw.1, ?_⟩
        rw [hl]
        exact hre.2 hw.2
    · rintro messageId sequenceNumber sentAt expiresAt ⟨⟩
      exact ⟨_, hw.2, rfl, hw.1, rfl, rfl⟩

theorem safe_send (hf : ownIds.fresh n w) :
    ownIds.Safe retryExec n (.sendGroupMessage d req) (sendGroupMessage d req).run
      (endsIn (fun _ => True) fun reply w => ∀ messageId sequenceNumber sentAt expiresAt,
        reply = .sent messageId sequenceNumber sentAt expiresAt →
          Own d req messageId sequenceNumber w.2.stored) w := by
  refine safe_then _ (safe_checkSend hf) fun _ w hw => ?_
  refine safe_then _ (safe_newMessage hw) fun msg w hw => ?_
  exact safe_storeAndPublish hw.1 hw.2

theorem safe_body (streamDevice : String) (hf : ownIds.fresh n w) :
    ownIds.Safe retryExec n c (c.call streamDevice).run (ownIds.Ends noteAnswer n c) w := by
  cases c with
  | sendGroupMessage d req =>
    refine (safe_send hf).mono fun r w hr hinv => ?_
    cases r with
    | error _ => exact .refl hinv
    | ok reply =>
      cases reply with
      | sent messageId sequenceNumber sentAt expiresAt =>
        refine ⟨?_, fun _ _ => id, fun _ _ _ _ => ⟨rfl, Subset.refl _⟩⟩
        show (w.2.wrong || !decide (Own _ _ _ _ _)) = false
        rw [hinv, decide_eq_true (hr _ _ _ _ rfl)]
        rfl
      | _ => exact .refl hinv
  | _ => exact safe_any fun _ _ hinv => .refl hinv

end

/-! ### Runs -/

theorem happen_ownIds : ownIds.Bears fun e w => (MessageEvent.happen e w.1, w.2) := fun _ _ hinv =>
  ⟨hinv, fun _ => id, fun _ _ => ⟨rfl, Subset.refl _⟩⟩

/-- **A send is answered with its own message**, whoever sends what at the same time, where an id
that is in the group is only used to send the same message again. -/
theorem sends_answered_with_own_message {streamDevice : String} {s : MessageStore} {stored : List StoredBy}
    {as : List MessageAction} {pool : RetryPool}
    (hcareful : Along (retryStep streamDevice) ownIds.Careful (.init (s, ⟨[], stored, false⟩)) as)
    (hrun : run (retryStep streamDevice) (.init (s, ⟨[], stored, false⟩)) as = some pool) :
    pool.store.2.wrong = false :=
  Discipline.run_invariant (D := ownIds) (s := (s, ⟨[], stored, false⟩))
    (fun _ _ _ _ hfresh _ => safe_body streamDevice hfresh) happen_ownIds rfl (fun _ => rfl)
    hcareful hrun

attribute [reducible] ownIds

instance decidableCare (c : MessageOp) (q : MessageStatement) (input : Input MessageChoice)
    (w : MessageStore × RetryLog) : Decidable (ownIds.care c q input w) := by
  cases c with
  | sendGroupMessage d _ =>
    cases q with
    | insertGroupMessage msg => exact inferInstanceAs (Decidable (IdsAgree d msg w))
    | _ => exact isTrue trivial
  | _ => exact isTrue trivial

def sendTwice : List MessageAction :=
  .start (.sendGroupMessage "a" ⟨[1], 0, none, none, "x"⟩) :: proceeds ⟨true, "m"⟩ 0 8 ++
    .start (.sendGroupMessage "a" ⟨[1], 0, none, none, "x"⟩) :: proceeds ⟨true, "n"⟩ 0 8

theorem sends_answered_with_own_message_demo :
    ∃ pool, run (retryStep "c") (.init (emptyGroup ["a", "b"], ⟨[], [], false⟩)) sendTwice = some pool ∧
      pool.store.1.messages.map GroupMessageRow.messageId = ["m"] ∧ pool.store.2.wrong = false :=
  reaches_with (by decide +kernel) fun _ hrun _ => sends_answered_with_own_message (by decide +kernel) hrun

def sameIdTwice : List MessageAction :=
  .start (.sendGroupMessage "a" ⟨[1], 0, none, none, "x"⟩) :: proceeds ⟨true, "m"⟩ 0 8 ++
    .start (.sendGroupMessage "b" ⟨[2], 0, none, none, "x"⟩) :: proceeds ⟨true, "n"⟩ 0 8

/-- The second send succeeds, and its message is nowhere. -/
theorem send_swallowed :
    ∃ pool, run (retryStep "c") (.init (emptyGroup ["a", "b"], ⟨[], [], false⟩)) sameIdTwice = some pool ∧
      pool.running.length = 0 ∧ pool.store.1.messages.map GroupMessageRow.mlsCiphertext = [[1]] ∧
        pool.store.2.wrong = true :=
  reaches _ _ _ _ (by decide +kernel)

end ConstructServer.Groups.Retries
