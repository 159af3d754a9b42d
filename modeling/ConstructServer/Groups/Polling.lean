import ConstructServer.Groups.Messages

/-!
# Polling a group

A member fetches the messages of a group again and again, each time those after the largest sequence
number that it has received. The statement that stores a message takes its sequence number and makes
the row visible in one step, so a row that becomes visible later has a larger number than every row
that was there, and the member misses nothing.
-/

namespace ConstructServer.Groups.Polling

open Calls Queue Messages Machine List

inductive PollOp
  | poll (limit : Nat)
  | other (c : MessageOp)

structure PollLog where
  received : List GroupMessageRow
  begun : List (Nat × List GroupMessageRow)
  wrong : Bool

def PollLog.empty : PollLog := ⟨[], [], false⟩

def PollLog.begunBy (g : PollLog) (n : Nat) : List (List GroupMessageRow) :=
  (g.begun.filter fun p => decide (p.1 = n)).map Prod.snd

def PollLog.cursor (g : PollLog) : Option Nat := (g.received.map GroupMessageRow.sequenceNumber).max?

def notePoll (n : Nat) (q : MessageStatement) (_ : q.Reply) (s : MessageStore) (g : PollLog) : PollLog :=
  match q with
  | .isGroupMember _ => { g with begun := g.begun ++ [(n, s.messages)] }
  | _ => g

/-- A page that is not full completes what was there when the poll began, but for what has expired.
-/
def Complete (limit now : Nat) (begun : List (List GroupMessageRow))
    (rows received : List GroupMessageRow) : Prop :=
  rows.length < pageLimit limit → ∀ messages ∈ begun, ∀ m ∈ messages, now < m.expiresAt → m ∈ received

instance decidableComplete (limit now : Nat) (begun : List (List GroupMessageRow))
    (rows received : List GroupMessageRow) : Decidable (Complete limit now begun rows received) := by
  dsimp only [Complete]
  infer_instance

def notePollEnd (n : Nat) (c : PollOp) (r : Except Status MessageReply) (w : MessageStore × PollLog) :
    MessageStore × PollLog :=
  match c, r with
  | .poll limit, .ok (.page rows) =>
    (w.1, { w.2 with
      received := w.2.received ++ rows
      wrong := w.2.wrong || !decide (Complete limit w.1.now (w.2.begunBy n) rows (w.2.received ++ rows)) })
  | _, _ => w

def pollExec (n : Nat) (q : MessageStatement) (input : Input MessageChoice) (w : MessageStore × PollLog) :
    Option (Option q.Reply × (MessageStore × PollLog)) :=
  fallible (noted MessageStatement.effect notePoll n) q (q.input input) w

section

variable (member streamDevice : String)

def PollOp.body (c : PollOp) (w : MessageStore × PollLog) :
    Program MessageStatement (fun q => Option q.Reply) (Except Status MessageReply) :=
  match c with
  | .poll limit => (fetchGroupMessages member ⟨w.2.cursor, limit, none⟩).run
  | .other c => (c.call streamDevice).run

abbrev PollPool : Type :=
  Pool MessageStatement (fun q => Option q.Reply) (Except Status MessageReply) PollOp (MessageStore × PollLog)

abbrev PollAction : Type := Action (Input MessageChoice) PollOp MessageEvent

def pollStep (pool : PollPool) (a : PollAction) : Option PollPool :=
  pool.step pollExec (PollOp.body member streamDevice) notePollEnd (fun e w => (e.happen w.1, w.2)) a

end

def IsPoll : PollOp → Prop
  | .poll _ => True
  | .other _ => False

/-- What the member has received comes in the order of the sequence, and nothing was left out before
it. -/
structure Received (w : MessageStore × PollLog) : Prop where
  numbered : w.1.Numbered
  sorted : w.2.received.Pairwise fun m m' => m.sequenceNumber < m'.sequenceNumber
  below : ∀ m ∈ w.2.received, m.sequenceNumber < w.1.nextSequence
  covered : ∀ m ∈ w.1.messages, w.1.now < m.expiresAt →
    m ∈ w.2.received ∨ ∀ r ∈ w.2.received, r.sequenceNumber < m.sequenceNumber

def repeated : Discipline MessageStatement (Input MessageChoice) (MessageStore × PollLog) PollOp where
  inv w := w.2.wrong = false ∧ Received w
  fresh n w := w.2.begunBy n = []
  rely n c w w' := w'.2.begunBy n = w.2.begunBy n ∧ (IsPoll c → w'.2.received = w.2.received) ∧
    w.1.now ≤ w'.1.now ∧ ∀ m ∈ w.1.messages, w'.1.now < m.expiresAt → m ∈ w'.1.messages
  begins _ _ := True
  compat c c' := ¬ (IsPoll c ∧ IsPoll c')
  care _ _ _ _ := True
  refl _ _ _ := ⟨rfl, fun _ => rfl, le_rfl, fun _ hm _ => hm⟩
  trans h h' := by
    refine ⟨h'.1.trans h.1, fun hc => (h'.2.1 hc).trans (h.2.1 hc), h.2.2.1.trans h'.2.2.1, fun m hm hnow => ?_⟩
    exact h'.2.2.2 m (h.2.2.2 m hm (h'.2.2.1.trans_lt hnow)) hnow

/-! ### Statements -/

section

variable {n m : Nat} {c : PollOp} {q : MessageStatement} {w w' : MessageStore × PollLog}

theorem begunBy_push_of_ne {g : PollLog} {messages : List GroupMessageRow} (h : m ≠ n) :
    PollLog.begunBy { g with begun := g.begun ++ [(n, messages)] } m = g.begunBy m := by
  simp [PollLog.begunBy, h.symm]

theorem note_poll {x : q.Reply} {s : MessageStore} {g : PollLog} :
    (notePoll n q x s g).received = g.received ∧ (notePoll n q x s g).wrong = g.wrong ∧
      ∀ m, m ≠ n → (notePoll n q x s g).begunBy m = g.begunBy m := by
  cases q with
  | isGroupMember d => exact ⟨rfl, rfl, fun m hm => begunBy_push_of_ne hm⟩
  | _ => exact ⟨rfl, rfl, fun _ _ => rfl⟩

theorem Received.effect {choice : MessageChoice} {x : q.Reply} (hw : Received w)
    (h : noted MessageStatement.effect notePoll n q choice w = some (x, w')) : Received w' := by
  obtain ⟨he, hl⟩ := noted_eq_some h
  have hre : w'.2.received = w.2.received := hl ▸ note_poll.1
  have hf := Messages.frame_of_effect he
  have hnu := hw.numbered.effect he
  by_cases hto : q.touches .messages = false
  · obtain ⟨hme, hn⟩ := hf.messages hto
    refine ⟨hnu, hre ▸ hw.sorted, ?_, ?_⟩
    · rw [hre, hn]
      exact hw.below
    · rw [hre, hme, hf.now]
      exact hw.covered
  · cases q with
    | insertGroupMessage msg =>
      obtain ⟨s', g'⟩ := w'
      cases insert_case he with
      | retry hr =>
        refine ⟨hnu, hre ▸ hw.sorted, fun m hm => ?_, ?_⟩
        · exact Nat.lt_succ_of_lt (hw.below m (hre ▸ hm))
        · rw [hre]
          exact hw.covered
      | stored hne hid =>
        refine ⟨hnu, hre ▸ hw.sorted, fun m hm => ?_, fun m hm hno => ?_⟩
        · exact Nat.lt_succ_of_lt (hw.below m (hre ▸ hm))
        · rw [hre]
          rcases mem_concat hm with hm | rfl
          · exact hw.covered m hm hno
          · exact .inr hw.below
    | _ => exact absurd rfl hto

theorem keeps_of_exec {input : Input MessageChoice} {r : Option q.Reply} (hinv : repeated.inv w)
    (h : pollExec n q input w = some (r, w')) : repeated.Keeps n c w w' := by
  rcases failed_or_effect h with ⟨rfl, -⟩ | ⟨x, he, -⟩
  · exact .refl hinv
  · obtain ⟨hst, hl⟩ := noted_eq_some he
    obtain ⟨hre, hw, hbe⟩ := note_poll (n := n) (q := q) (x := x) (s := w.1) (g := w.2)
    rw [← hl] at hre hw hbe
    refine ⟨⟨hw.trans hinv.1, hinv.2.effect he⟩, fun m hm hf => (hbe m (Nat.ne_of_gt hm)).trans hf,
      fun m c' hm _ => ⟨hbe m hm, fun _ => hre, (Messages.frame_of_effect hst).now.ge,
        fun m hm _ => mem_of_effect hst hm⟩⟩

theorem safe_any {p : Program MessageStatement (fun q => Option q.Reply) (Except Status MessageReply)}
    {post : Except Status MessageReply → MessageStore × PollLog → Prop} (hpo : ∀ r w, post r w) :
    repeated.Safe pollExec n c p post w := by
  refine Discipline.safe_of_keeps (fun _ => True) (fun _ _ _ _ => trivial) ?_ (fun r w _ => hpo r w)
    (Program.asks_true p) trivial
  intro q input w r w' _ hinv _ _ he
  exact ⟨keeps_of_exec hinv he, trivial⟩

end

/-! ### A poll -/

section

variable {n limit : Nat} {c : PollOp} {member : String} {received : List GroupMessageRow}
  {w w' : MessageStore × PollLog}

/-- What a poll knows: what has been received, and that what was there when it began is still there.
-/
structure Begun (n : Nat) (received : List GroupMessageRow) (w : MessageStore × PollLog) : Prop where
  received : w.2.received = received
  present : ∀ messages ∈ w.2.begunBy n, ∀ m ∈ messages, w.1.now < m.expiresAt → m ∈ w.1.messages

theorem Begun.stable (hc : IsPoll c) (h : Begun n received w) (hre : repeated.rely n c w w') :
    Begun n received w' := by
  obtain ⟨hbe, hr, hn, hme⟩ := hre
  refine ⟨(hr hc).trans h.received, fun messages hmem m hm hl => ?_⟩
  rw [hbe] at hmem
  exact hme m (h.present messages hmem m hm (hn.trans_lt hl)) hl

theorem safe_isGroupMember (hc : IsPoll c) (hw : Begun n received w) (hf : w.2.begunBy n = []) :
    repeated.Safe pollExec n c (Messages.db (.isGroupMember member)).run
      (endsIn (fun _ => True) fun _ => Begun n received) w := by
  refine safe_demand fun w₁ input r w' hinv hre _ he => ⟨keeps_of_exec hinv he, ?_⟩
  cases r with
  | none => trivial
  | some isMember =>
    obtain ⟨hef, hl⟩ := noted_eq_some (effect_of_reply he)
    have hst : w'.1 = w₁.1 := Messages.eq_of_reads (q := .isGroupMember member) trivial hef
    have hw₁ := hw.stable hc hre
    refine ⟨(congrArg PollLog.received hl).trans hw₁.received, fun messages hme m hm _ => ?_⟩
    have hbe : w'.2.begunBy n = [w₁.1.messages] := by
      rw [hl]
      show ((w₁.2.begun ++ [(n, w₁.1.messages)]).filter _).map Prod.snd = _
      rw [filter_append, map_append]
      have hno : (w₁.2.begun.filter fun p => decide (p.1 = n)).map Prod.snd = [] := hre.1.trans hf
      rw [hno]
      simp
    rw [hbe] at hme
    cases mem_singleton.mp hme
    rw [hst]
    exact hm

theorem forall_lt_max? {l : List Nat} {x : Nat} : (∀ a ∈ l.max?, a < x) ↔ ∀ y ∈ l, y < x := by
  cases hma : l.max? with
  | none =>
    rw [List.max?_eq_none_iff.mp hma]
    exact ⟨nofun, nofun⟩
  | some a =>
    obtain ⟨hm, hle⟩ := List.max?_eq_some_iff.mp hma
    constructor
    · intro h y hy
      exact (hle y hy).trans_lt (h a rfl)
    · rintro h b ⟨⟩
      exact h a hm

theorem Received.append (limit : Nat) (hw : Received w) {s : MessageStore} (hs : s = w.1) :
    Received (s, { w.2 with received := w.2.received ++ s.page w.2.cursor limit none }) := by
  subst hs
  have hnu := hw.numbered
  have hpa : ∀ m ∈ w.1.page w.2.cursor limit none, m ∈ w.1.messages ∧
      ∀ r ∈ w.2.received, r.sequenceNumber < m.sequenceNumber := by
    intro m hm
    obtain ⟨hm, haf, -⟩ := mem_of_mem_page hnu hm
    refine ⟨hm, fun r hr => ?_⟩
    exact forall_lt_max?.mp haf _ (mem_map_of_mem hr)
  refine ⟨hnu, ?_, fun m hm => ?_, fun m hm hn => ?_⟩
  · exact pairwise_append.mpr ⟨hw.sorted, pairwise_page hnu, fun r hr m hm => (hpa m hm).2 r hr⟩
  · rcases mem_append.mp hm with hm | hm
    · exact hw.below m hm
    · exact hnu.below m (hpa m hm).1
  · rcases hw.covered m hm hn with hre | hl
    · exact .inl (mem_append_left _ hre)
    · have hwa : w.1.Wanted w.2.cursor none m := by
        refine ⟨forall_lt_max?.mpr fun y hy => ?_, nofun, hn⟩
        obtain ⟨r, hr, rfl⟩ := mem_map.mp hy
        exact hl r hr
      rcases mem_page_or_later hnu hm hwa with hpa | ⟨-, hla⟩
      · exact .inl (mem_append_right _ hpa)
      · refine .inr fun r hr => ?_
        rcases mem_append.mp hr with hr | hr
        · exact hl r hr
        · exact hla r hr

theorem complete_page (hw : Received w) (hbe : Begun n received w) :
    Complete limit w.1.now (w.2.begunBy n) (w.1.page w.2.cursor (pageLimit limit) none)
      (w.2.received ++ w.1.page w.2.cursor (pageLimit limit) none) := by
  intro hsh messages hme m hm hn
  have hm := hbe.present messages hme m hm hn
  rcases hw.covered m hm hn with hre | hl
  · exact mem_append_left _ hre
  · have hwa : w.1.Wanted w.2.cursor none m := by
      refine ⟨forall_lt_max?.mpr fun y hy => ?_, nofun, hn⟩
      obtain ⟨r, hr, rfl⟩ := mem_map.mp hy
      exact hl r hr
    rcases mem_page_or_later hw.numbered hm hwa with hpa | ⟨hf, -⟩
    · exact mem_append_right _ hpa
    · exact absurd hf (Nat.not_le_of_lt hsh)

def OnPage (n limit : Nat) (rows : List GroupMessageRow) (w : MessageStore × PollLog) : Prop :=
  (∃ received, Begun n received w) ∧ rows = w.1.page w.2.cursor (pageLimit limit) none

theorem safe_poll (hc : IsPoll c) (hf : w.2.begunBy n = []) :
    repeated.Safe pollExec n c (fetchGroupMessages member ⟨w.2.cursor, limit, none⟩).run
      (endsIn (fun _ => True) fun reply w => ∀ rows, reply = .page rows → OnPage n limit rows w) w := by
  have hw : Begun n w.2.received w := ⟨rfl, by rw [hf]; exact nofun⟩
  have hcu : ∀ {w'}, Begun n w.2.received w' → w'.2.cursor = w.2.cursor := by
    intro w' hw'
    unfold PollLog.cursor
    rw [hw'.received]
  refine safe_then (fun _ => Begun n w.2.received) ?_ fun _ w' hw' => ?_
  · exact safe_then _ (safe_isGroupMember hc hw hf) fun isMember w' hw' =>
      safe_ensure (fun _ => hw') fun _ => trivial
  · refine safe_then (fun topicId w' => topicId = none ∧ Begun n w.2.received w')
      (safe_check (fun topicId hto => ?_) trivial) fun topicId w' hw' => ?_
    · cases hto
      exact ⟨rfl, hw'⟩
    · obtain ⟨rfl, hw'⟩ := hw'
      refine safe_then (OnPage n limit) ?_ fun rows w' hw' rows' hr => ?_
      · refine safe_demand fun w₁ input r w'' hinv hre _ he => ⟨keeps_of_exec hinv he, ?_⟩
        cases r with
        | none => trivial
        | some rows =>
          obtain ⟨hef, hl⟩ := noted_eq_some (effect_of_reply he)
          obtain ⟨s'', g''⟩ := w''
          cases hl
          cases hef
          have hw₁ := hw'.stable hc hre
          exact ⟨⟨_, hw₁⟩, by rw [hcu hw₁]⟩
      · cases hr
        exact hw'

theorem safe_body {streamDevice : String} (hf : repeated.fresh n w) :
    repeated.Safe pollExec n c (c.body member streamDevice w) (repeated.Ends notePollEnd n c) w := by
  cases c with
  | other c => exact safe_any fun r w hinv => .refl hinv
  | poll limit =>
    refine (safe_poll (c := .poll limit) trivial hf).mono fun r w hr hinv => ?_
    cases r with
    | error _ => exact .refl hinv
    | ok reply =>
      cases reply with
      | page rows =>
        obtain ⟨⟨received, hbe⟩, rfl⟩ := hr rows rfl
        refine ⟨⟨?_, ?_⟩, fun _ _ hf => hf, fun m c' _ hco => ⟨rfl, fun hc' => ?_, le_rfl, fun _ hm _ => hm⟩⟩
        · show (w.2.wrong || !decide (Complete _ _ _ _ _)) = false
          rw [hinv.1, decide_eq_true (complete_page hinv.2 hbe)]
          rfl
        · have hap := hinv.2.append (pageLimit limit) rfl
          exact ⟨hap.numbered, hap.sorted, hap.below, hap.covered⟩
        · exact absurd ⟨trivial, hc'⟩ hco
      | _ => exact .refl hinv

end

/-! ### Runs -/

theorem happen_repeated : repeated.Bears fun e w => (MessageEvent.happen e w.1, w.2) := by
  intro e w hinv
  obtain ⟨hwr, hw⟩ := hinv
  cases e with
  | tick seconds =>
    have hn : w.1.now ≤ w.1.now + seconds := Nat.le_add_right _ _
    exact ⟨⟨hwr, hw.numbered.happen (.tick seconds), hw.sorted, hw.below, fun m hm hl => hw.covered m hm (hn.trans_lt hl)⟩,
      fun _ => id, fun _ _ => ⟨rfl, fun _ => rfl, hn, fun _ hm _ => hm⟩⟩
  | sweep =>
    refine ⟨⟨hwr, hw.numbered.happen .sweep, hw.sorted, hw.below, fun m hm hl => ?_⟩, fun _ => id,
      fun _ _ => ⟨rfl, fun _ => rfl, le_rfl, fun m hm hl => ?_⟩⟩
    · exact hw.covered m (mem_of_mem_filter hm) hl
    · exact mem_filter.mpr ⟨hm, decide_eq_true (Nat.le_of_lt hl)⟩

/-- **Polling misses nothing**: what a member receives comes in the order of the sequence and
nothing comes twice, and a poll whose page is not full completes what was stored when it began. -/
theorem polling_misses_nothing {member streamDevice : String} {s : MessageStore}
    {as : List PollAction} {pool : PollPool}
    (hs : s.Numbered)
    (hrepeated : Along (pollStep member streamDevice) repeated.Careful (.init (s, .empty)) as)
    (hrun : run (pollStep member streamDevice) (.init (s, .empty)) as = some pool) :
    pool.store.2.wrong = false ∧ pool.store.2.received.Pairwise fun m m' => m.sequenceNumber < m'.sequenceNumber := by
  have hreceived : Received (s, .empty) := ⟨hs, .nil, nofun, fun _ _ _ => .inr nofun⟩
  have hinv : repeated.inv pool.store :=
    Discipline.run_invariant (fun _ _ _ _ hfresh _ => safe_body hfresh) happen_repeated ⟨rfl, hreceived⟩
      (fun _ => rfl) hrepeated hrun
  exact ⟨hinv.1, hinv.2.sorted⟩

instance decidableIsPoll : (c : PollOp) → Decidable (IsPoll c)
  | .poll _ => isTrue trivial
  | .other _ => isFalse id

attribute [reducible] repeated

def sendAndPoll : List PollAction :=
  .start (.other (.sendGroupMessage "a" ⟨[1], 0, none, none, "x"⟩)) :: proceeds ⟨true, "m"⟩ 0 6 ++
    .start (.other (.sendGroupMessage "b" ⟨[2], 0, none, none, ""⟩)) :: proceeds ⟨true, "n"⟩ 1 7 ++
    .start (.poll 1) :: proceeds ⟨true, ""⟩ 2 2 ++ proceeds ⟨true, "m"⟩ 0 2 ++ .start (.poll 1) :: proceeds ⟨true, ""⟩ 1 2 ++ .start (.poll 1) :: proceeds ⟨true, ""⟩ 1 2

theorem polling_misses_nothing_demo :
    ∃ pool, run (pollStep "c" "c") (.init (emptyGroup ["a", "b", "c"], .empty)) sendAndPoll = some pool ∧
      pool.store.2.received.map GroupMessageRow.messageId = ["n", "m"] ∧ pool.store.2.wrong = false ∧
        pool.store.2.received.Pairwise fun m m' => m.sequenceNumber < m'.sequenceNumber :=
  reaches_with (by decide +kernel) fun _ hrun _ => polling_misses_nothing numbered_emptyGroup (by decide +kernel) hrun

def longGroup : MessageStore :=
  { emptyGroup ["c"] with
    nextSequence := 201
    messages := (List.range 201).map fun k => ⟨toString k, 0, [1], k, none, none, none, 0, 2000⟩ }

theorem numbered_longGroup : longGroup.Numbered := by
  refine ⟨pairwise_map.mpr pairwise_lt_range, fun m hm => ?_⟩
  obtain ⟨k, hk, rfl⟩ := mem_map.mp hm
  exact mem_range.mp hk

/-- The server has a limit of its own: a page has fewer rows than the member asked for and is not
the last one. -/
theorem short_page_is_not_the_last : ∃ pool, ∃ m ∈ longGroup.messages,
      longGroup.Numbered ∧ longGroup.now < m.expiresAt ∧
      Along (pollStep "c" "c") repeated.Careful (.init (longGroup, .empty)) (.start (.poll 300) :: proceeds ⟨true, ""⟩ 0 2) ∧
      run (pollStep "c" "c") (.init (longGroup, .empty)) (.start (.poll 300) :: proceeds ⟨true, ""⟩ 0 2) = some pool ∧
      pool.running = [] ∧ pool.store.2.received.length < 300 ∧ m ∉ pool.store.2.received := by
  obtain ⟨pool, hrun, hidle, hreceived⟩ := reaches (pollStep "c" "c") (.init (longGroup, .empty))
    (.start (.poll 300) :: proceeds ⟨true, ""⟩ 0 2)
    (fun pool => pool.running.length = 0 ∧ pool.store.2.received.map GroupMessageRow.sequenceNumber = List.range 200)
    (by decide +kernel)
  refine ⟨pool, _, mem_map.mpr ⟨200, mem_range.mpr (by decide), rfl⟩, numbered_longGroup, by decide,
    by decide +kernel, hrun, eq_nil_of_length_eq_zero hidle, ?_, fun hmem => ?_⟩
  · have hlength := congrArg List.length hreceived
    rw [length_map, length_range] at hlength
    omega
  · have hmem := mem_map_of_mem (f := GroupMessageRow.sequenceNumber) hmem
    rw [hreceived] at hmem
    exact absurd (mem_range.mp hmem) (Nat.lt_irrefl 200)

end ConstructServer.Groups.Polling
