import ConstructServer.Groups.Directory
import Mathlib.Data.List.Intervals

/-!
# Catching up with a group

A member that was offline tells the epoch that it knows and is given the commits since then. The
epoch and the commits are read by two statements, and a commit is only kept for thirty days: a
commit in between the two reads goes beyond the epoch of the answer, and an expired one leaves a
hole, without the ratchet tree in its place. If no commit overlaps with the call and none of the
commits that are needed has expired, the answer is a chain from the known epoch to the current one.
-/

namespace ConstructServer.Groups.CatchUp

open Calls Queue Machine List

def span (c : Commit) : Nat × Nat := (c.epochFrom, c.epochTo)

/-- The commits lead from one epoch to the other, one epoch at a time. -/
def Chain (first last : Nat) (commits : List Commit) : Prop :=
  commits.map span = (List.Ico first last).map fun e => (e, e + 1)

instance decidableChain (first last : Nat) (commits : List Commit) : Decidable (Chain first last commits) := by
  dsimp only [Chain]
  infer_instance

structure History where
  made : List Commit
  /-- An answer did not bring its caller up to the epoch that it states. -/
  wrong : Bool

def History.empty : History := ⟨[], false⟩

def CaughtUp (known : Option Nat) (made : List Commit) (answer : GroupStateAnswer) : Prop :=
  answer.ratchetTree.isSome ∨ ∃ k ∈ known, k ≤ answer.epoch →
    Chain k answer.epoch answer.pendingCommits ∧ ∀ c ∈ answer.pendingCommits, c ∈ made

instance decidableCaughtUp (known : Option Nat) (made : List Commit) (answer : GroupStateAnswer) :
    Decidable (CaughtUp known made answer) := by
  dsimp only [CaughtUp]
  infer_instance

def noteCommit (_ : Nat) (q : GroupStatement) (x : q.Reply) (_ : Directory) (g : History) : History :=
  match q, x with
  | .advanceGroupEpoch e commit tree now, true => { g with made := g.made ++ [Commit.at e commit tree now] }
  | _, _ => g

def noteState (_ : Nat) (c : GroupOp) (r : Except Status GroupReply) (w : Directory × History) :
    Directory × History :=
  match c, r with
  | .getGroupState _ known, .ok (.groupState answer) =>
    (w.1, { w.2 with wrong := w.2.wrong || !decide (CaughtUp known w.2.made answer) })
  | _, _ => w

def historyExec (n : Nat) (q : GroupStatement) (input : Input Answer) (w : Directory × History) :
    Option (Option q.Reply × (Directory × History)) :=
  fallible (noted GroupStatement.effect noteCommit n) q (q.input input) w

abbrev HistoryPool : Type :=
  Pool GroupStatement (fun q => Option q.Reply) (Except Status GroupReply) GroupOp (Directory × History)

def historyStep (pool : HistoryPool) (a : GroupAction) : Option HistoryPool :=
  pool.step historyExec (fun c w => c.body w.1) noteState (fun e w => (e.happen w.1, w.2)) a

def IsGetState : GroupOp → Prop
  | .getGroupState .. => True
  | _ => False

structure Recorded (w : Directory × History) : Prop where
  missing : w.1.group = none → w.2.made = []
  chain : ∀ g, w.1.group = some g → Chain 0 g.epoch w.2.made
  table : w.1.commits.Sublist w.2.made
  kept : ∀ c ∈ w.2.made, w.1.now ≤ c.expiresAt → c ∈ w.1.commits

/-- No commit overlaps with a call for the state of the group, and the commits that the call needs
have not expired when it reads them. -/
def withinRetention : Discipline GroupStatement (Input Answer) (Directory × History) GroupOp where
  inv w := w.2.wrong = false ∧ Recorded w
  fresh _ _ := True
  rely _ c w w' := IsGetState c → SameEpoch w.1 w'.1
  begins _ _ := True
  compat c c' := ¬ (c.Advances ∧ IsGetState c')
  care _ q _ w := match q with
    | .getPendingCommitsSince known => ∀ c ∈ w.2.made, known ≤ c.epochFrom → w.1.now < c.expiresAt
    | _ => True
  refl _ _ _ _ := .refl
  trans h h' hc := (h hc).trans (h' hc)

/-! ### Chains -/

section

variable {first last : Nat} {commits made : List Commit}

theorem Chain.snoc {commit tree : Bytes} {now : Nat} (h : Chain 0 last made) :
    Chain 0 (last + 1) (made ++ [Commit.at last commit tree now]) := by
  unfold Chain at h ⊢
  rw [map_append, h, List.Ico.succ_top (Nat.zero_le last), map_append]
  rfl

theorem Chain.map_epochFrom (h : Chain first last made) :
    made.map Commit.epochFrom = List.Ico first last := by
  have hf := congrArg (List.map Prod.fst) h
  rw [map_map, map_map] at hf
  exact hf.trans (map_id _)

theorem Chain.pairwise (h : Chain first last made) : made.Pairwise fun c c' => c.epochFrom < c'.epochFrom := by
  rw [← pairwise_map, h.map_epochFrom]
  exact List.Ico.pairwise_lt first last

theorem Chain.filter (h : Chain 0 last made) : Chain first last (made.filter fun c => decide (first ≤ c.epochFrom)) := by
  unfold Chain at h ⊢
  have hf := congrArg (List.filter fun p : Nat × Nat => decide (first ≤ p.1)) h
  rw [filter_map, filter_map] at hf
  refine hf.trans (congrArg _ ?_)
  exact List.Ico.filter_le_of_le (Nat.zero_le first)

theorem filter_table {s : Directory} (hch : Chain 0 last made) (hta : s.commits.Sublist made)
    (hke : ∀ c ∈ made, s.now ≤ c.expiresAt → c ∈ s.commits)
    (hl : ∀ c ∈ made, first ≤ c.epochFrom → s.now < c.expiresAt) :
    s.commits.filter (fun c => decide (first ≤ c.epochFrom ∧ s.now < c.expiresAt)) =
      made.filter fun c => decide (first ≤ c.epochFrom) := by
  have hma : made.filter (fun c => decide (first ≤ c.epochFrom ∧ s.now < c.expiresAt)) =
      made.filter fun c => decide (first ≤ c.epochFrom) := by
    refine filter_congr fun c hc => decide_eq_decide.mpr ?_
    exact ⟨fun h => h.1, fun h => ⟨h, hl c hc h⟩⟩
  rw [← hma]
  refine (hta.filter _).eq_of_length_le ?_
  -- No commit is in the list twice, and each one is in the table.
  have hno : made.Nodup := .of_map Commit.epochFrom (hch.map_epochFrom ▸ List.Ico.nodup 0 last)
  refine (subperm_of_subset (hno.filter _) fun c hc => ?_).length_le
  obtain ⟨hc, hp⟩ := mem_filter.mp hc
  exact mem_filter.mpr ⟨hke c hc (of_decide_eq_true hp).2.le, hp⟩

theorem pending_eq {s : Directory} (hch : Chain 0 last made) (hta : s.commits.Sublist made)
    (hke : ∀ c ∈ made, s.now ≤ c.expiresAt → c ∈ s.commits)
    (hl : ∀ c ∈ made, first ≤ c.epochFrom → s.now < c.expiresAt) :
    (s.commits.filter fun c => decide (first ≤ c.epochFrom ∧ s.now < c.expiresAt)).insertionSort
      (fun c c' => c.epochFrom ≤ c'.epochFrom) = made.filter fun c => decide (first ≤ c.epochFrom) := by
  rw [filter_table hch hta hke hl]
  exact ((hch.pairwise.filter _).imp Nat.le_of_lt).insertionSort_eq

end

/-! ### Statements -/

section

variable {n : Nat} {c : GroupOp} {q : GroupStatement} {w w' : Directory × History}

variable {x : q.Reply}

theorem note_of_ne {s : Directory} {g : History}
    (hq : ∀ e commit tree now, q ≠ .advanceGroupEpoch e commit tree now) : noteCommit n q x s g = g := by
  cases q with
  | advanceGroupEpoch e commit tree now => exact absurd rfl (hq e commit tree now)
  | _ => rfl

theorem wrong_note {s : Directory} {g : History} : (noteCommit n q x s g).wrong = g.wrong := by
  cases q with
  | advanceGroupEpoch e commit tree now =>
    cases x with
    | true => rfl
    | false => rfl
  | _ => rfl

theorem quiet_of_historyExec {input : Input Answer} {r : Option q.Reply} (hq : q.Reads)
    (h : historyExec n q input w = some (r, w')) : w' = w := by
  rcases failed_or_effect h with ⟨rfl, -⟩ | ⟨x, he, -⟩
  · rfl
  · obtain ⟨he, hl⟩ := noted_eq_some he
    refine Prod.ext (eq_of_reads hq he) (hl.trans (note_of_ne ?_))
    rintro e commit tree now rfl
    exact hq

variable {answer : Answer}

theorem Recorded.advance {e now : Nat} {commit tree : Bytes} {x : Bool} (hw : Recorded w)
    (h : noted GroupStatement.effect noteCommit n (.advanceGroupEpoch e commit tree now) answer w = some (x, w')) :
    Recorded w' := by
  obtain ⟨he, hl⟩ := noted_eq_some h
  obtain ⟨s', g'⟩ := w'
  obtain ⟨g, hg, heq⟩ := Option.map_eq_some_iff.mp he
  split at heq
  · rename_i hep
    cases heq
    cases hl
    refine ⟨nofun, fun g' hg' => ?_, hw.table.append_right _, fun c hc hn => ?_⟩
    · cases hg'
      exact Chain.snoc (hep ▸ hw.chain g hg)
    · rcases mem_append.mp hc with hc | hc
      · exact mem_append_left _ (hw.kept c hc hn)
      · exact mem_append_right _ hc
  · cases heq
    cases hl
    exact hw

theorem epoch_of_created {s s' : Directory} {g : Group} (hq : c.MayAsk q)
    (h : q.effect answer s = some (x, s')) (hno : s.group = none)
    (hs : s'.group = some g) : g.epoch = 0 := by
  by_cases hto : q.touches .group = false
  · rw [(frame_of_effect h).group hto, hno] at hs
    cases hs
  · cases q with
    | createGroupWithCreator d g₀ =>
      simp only [GroupStatement.effect, hno, if_true] at h
      cases h
      cases hs
      rcases hq with hq | hq
      · exact hq.elim
      · cases c with
        | createGroup _ _ => exact hq.2.1
        | _ => exact hq.elim
    | setGroupDissolvedAt now =>
      cases h
      have hma : s.group.map _ = some g := hs
      rw [hno] at hma
      cases hma
    | advanceGroupEpoch e commit tree now =>
      simp only [GroupStatement.effect, hno, Option.map_none, reduceCtorEq] at h
    | _ => exact absurd rfl hto

theorem Recorded.effect (hw : Recorded w) (hq : c.MayAsk q)
    (h : noted GroupStatement.effect noteCommit n q answer w = some (x, w')) : Recorded w' := by
  by_cases ha : ∃ e commit tree now, q = .advanceGroupEpoch e commit tree now
  · obtain ⟨e, commit, tree, now, rfl⟩ := ha
    exact hw.advance h
  · have hne : ∀ e commit tree now, q ≠ .advanceGroupEpoch e commit tree now :=
      fun e commit tree now heq => ha ⟨e, commit, tree, now, heq⟩
    obtain ⟨he, hl⟩ := noted_eq_some h
    rw [note_of_ne hne] at hl
    have hf := frame_of_effect he
    have hco : w'.1.commits = w.1.commits := hf.commits (by
      cases q with
      | advanceGroupEpoch e commit tree now => exact absurd rfl (hne e commit tree now)
      | _ => rfl)
    refine ⟨fun hno => ?_, fun g' hg' => ?_, ?_, ?_⟩
    · rw [hl]
      refine hw.missing (Option.eq_none_iff_forall_not_mem.mpr fun g hg => ?_)
      obtain ⟨g', hg', -⟩ := sameEpoch_of_effect he hne g hg
      rw [hno] at hg'
      cases hg'
    · rw [hl]
      cases hgr : w.1.group with
      | some g =>
        obtain ⟨g'', hg'', hep⟩ := sameEpoch_of_effect he hne g hgr
        cases hg'.symm.trans hg''
        exact hep ▸ hw.chain g hgr
      | none =>
        -- The group has just been created.
        rw [hw.missing hgr, epoch_of_created hq he hgr hg']
        rfl
    · rw [hco, hl]
      exact hw.table
    · rw [hco, hl, hf.now]
      exact hw.kept

theorem keeps_of_exec {input : Input Answer} {r : Option q.Reply} (hinv : withinRetention.inv w)
    (hq : c.MayAsk q)
    (h : historyExec n q input w = some (r, w')) : withinRetention.Keeps n c w w' := by
  rcases failed_or_effect h with ⟨rfl, -⟩ | ⟨x, he, -⟩
  · exact .refl hinv
  · obtain ⟨hst, hl⟩ := noted_eq_some he
    refine ⟨⟨?_, hinv.2.effect hq he⟩, fun _ _ => id, fun _ c' _ hco hc' => ?_⟩
    · rw [hl]
      exact wrong_note.trans hinv.1
    · refine sameEpoch_of_effect hst ?_
      rintro e commit tree now rfl
      refine hco ⟨?_, hc'⟩
      rcases hq with hq | hq
      · exact hq.elim
      · cases c with
        | acceptGroupInvite _ _ | submitCommit _ _ => trivial
        | _ => exact hq.elim

theorem safe_other {post : Except Status GroupReply → Directory × History → Prop} (hpo : ∀ r w, post r w) :
    withinRetention.Safe historyExec n c (c.body w.1) post w := by
  refine Discipline.safe_of_keeps (P := c.MayAsk) (fun _ => True) (fun _ _ _ _ => trivial) ?_
    (fun r w _ => hpo r w) (asks_call c) trivial
  intro q input w r w' hq hinv _ _ he
  exact ⟨keeps_of_exec hinv hq he, trivial⟩

end

/-! ### The state of the group -/

section

variable {n : Nat} {c : GroupOp} {d : String} {known : Option Nat} {w w' : Directory × History}

def AtEpoch (e : Nat) (w : Directory × History) : Prop := ∃ g, w.1.group = some g ∧ g.epoch = e

theorem AtEpoch.stable {e : Nat} (hc : IsGetState c) (h : AtEpoch e w)
    (hre : withinRetention.rely n c w w') :
    AtEpoch e w' := by
  obtain ⟨g, hg, rfl⟩ := h
  exact hre hc g hg

theorem safe_activeGroup :
    withinRetention.Safe historyExec n c activeGroup.run (endsIn (fun _ => True) fun g => AtEpoch g.epoch) w := by
  refine safe_then (fun found w => ∀ g ∈ found, AtEpoch g.epoch w)
    (safe_read (fun _ => True) (fun _ _ => trivial) id trivial ?_) fun found w hw => ?_
  · intro input w r w' _ _ he
    refine ⟨quiet_of_historyExec (q := .getActiveGroupState) trivial he, ?_⟩
    rintro found rfl g hg
    obtain ⟨hef, -⟩ := noted_eq_some (effect_of_reply he)
    have hf : w.1.group.filter _ = found := congrArg Prod.fst (Option.some.inj hef)
    rw [← hf] at hg
    exact ⟨g, (Option.mem_filter_iff.mp hg).1, rfl⟩
  · cases found with
    | none => trivial
    | some g => exact hw g rfl

theorem safe_catchUp {g : Group} (hc : IsGetState c) (hw : AtEpoch g.epoch w) :
    withinRetention.Safe historyExec n c (catchUp known g).run
      (endsIn (fun _ => True) fun news w => news.1.isSome ∨ ∃ k ∈ known, k ≤ g.epoch →
        Chain k g.epoch news.2 ∧ ∀ c ∈ news.2, c ∈ w.2.made) w := by
  cases known with
  | none => exact .inl rfl
  | some k =>
    simp only [catchUp]
    split
    · refine safe_then (fun commits w => Chain k g.epoch commits ∧ ∀ c ∈ commits, c ∈ w.2.made) ?_
        fun commits w hw => .inr ⟨k, rfl, fun _ => hw⟩
      refine safe_demand fun w₁ input r w' hinv hr hca he => ?_
      obtain rfl := quiet_of_historyExec (q := .getPendingCommitsSince k) trivial he
      refine ⟨.refl hinv, ?_⟩
      cases r with
      | none => trivial
      | some commits =>
        obtain ⟨hef, -⟩ := noted_eq_some (effect_of_reply he)
        obtain ⟨g', hg', hep⟩ := hw.stable hc hr
        have hre := hinv.2
        have hpe := pending_eq (hre.chain g' hg') hre.table hre.kept hca
        have hco : commits = w'.2.made.filter fun c => decide (k ≤ c.epochFrom) :=
          (congrArg Prod.fst (Option.some.inj hef)).symm.trans hpe
        rw [hco]
        exact ⟨hep ▸ (hre.chain g' hg').filter, fun c hc => mem_of_mem_filter hc⟩
    · rename_i hle
      refine .inr ⟨k, rfl, fun _ => ⟨?_, fun _ h => by cases h⟩⟩
      show List.map span [] = _
      rw [List.Ico.eq_nil_of_le (Nat.le_of_not_lt hle)]
      rfl

theorem safe_getGroupState (hc : IsGetState c) :
    withinRetention.Safe historyExec n c (getGroupState d known).run
      (endsIn (fun _ => True) fun reply w => ∀ answer, reply = .groupState answer →
        CaughtUp known w.2.made answer) w := by
  have hre : ∀ {α : Type} {e : Nat} {p : GroupCall α} {w : Directory × History}, p.run.Asks GroupStatement.Reads →
      AtEpoch e w → withinRetention.Safe historyExec n c p.run (endsIn (fun _ => True) fun _ => AtEpoch e) w :=
    fun hp hw => safe_reads _ (AtEpoch.stable hc) (fun _ => trivial) quiet_of_historyExec hp hw
  refine safe_then (fun _ _ => True) (safe_reads (fun _ => True) (fun _ _ => trivial) id quiet_of_historyExec
    (asks_ensureMember fun _ => id) trivial) fun _ w _ => ?_
  refine safe_then _ safe_activeGroup fun g w hw => ?_
  refine safe_then _ (hre (asks_demand trivial) hw) fun memberCount w hw => ?_
  refine safe_then _ (hre (asks_demand trivial) hw) fun maxMembers w hw => ?_
  refine safe_then _ (safe_catchUp hc hw) fun news w hw => ?_
  intro answer han
  cases han
  exact hw

theorem safe_body : withinRetention.Safe historyExec n c (c.body w.1)
    (withinRetention.Ends noteState n c) w := by
  by_cases hc : IsGetState c
  · cases c with
    | getGroupState d known =>
      refine (safe_getGroupState hc).mono fun r w hr hinv => ?_
      cases r with
      | error _ => exact .refl hinv
      | ok reply =>
        cases reply with
        | groupState answer =>
          have hw := hinv.2
          refine ⟨⟨?_, ⟨hw.missing, hw.chain, hw.table, hw.kept⟩⟩, fun _ _ => id, fun _ _ _ _ _ => .refl⟩
          show (w.2.wrong || !decide (CaughtUp known w.2.made answer)) = false
          rw [hinv.1, decide_eq_true (hr answer rfl)]
          rfl
        | _ => exact .refl hinv
    | _ => exact hc.elim
  · refine safe_other fun r w hinv => ?_
    have hen : noteState n c r w = w := by
      cases c with
      | getGroupState _ _ => exact absurd trivial hc
      | _ => rfl
    rw [hen]
    exact .refl hinv

end

/-! ### Runs -/

theorem happen_withinRetention : withinRetention.Bears fun e w => (GroupEvent.happen e w.1, w.2) := by
  intro e w hinv
  obtain ⟨hwr, hw⟩ := hinv
  refine ⟨⟨hwr, ?_⟩, fun _ => id, fun _ _ _ => sameEpoch_happen⟩
  cases e with
  | tick seconds =>
    exact ⟨hw.missing, hw.chain, hw.table, fun c hc hn => hw.kept c hc ((Nat.le_add_right _ seconds).trans hn)⟩
  | sweep =>
    refine ⟨hw.missing, hw.chain, filter_sublist.trans hw.table, fun c hc hn => ?_⟩
    exact mem_filter.mpr ⟨hw.kept c hc hn, decide_eq_true hn⟩

/-- **A member that was offline catches up**, if no commit overlaps with its call and none that it
needs has expired. -/
theorem members_catch_up {s : Directory} {as : List GroupAction} {pool : HistoryPool}
    (hgroup : s.group = none)
    (hcommits : s.commits = []) (hcareful : Along historyStep withinRetention.Careful (.init (s, .empty)) as)
    (hrun : run historyStep (.init (s, .empty)) as = some pool) : pool.store.2.wrong = false := by
  have hrecorded : Recorded (s, .empty) := by
    refine ⟨fun _ => rfl, fun g hg => ?_, ?_, nofun⟩
    · cases hgroup.symm.trans hg
    · rw [hcommits]
      exact nil_sublist _
  have hinv : withinRetention.inv pool.store :=
    Discipline.run_invariant (fun _ _ _ _ _ _ => safe_body) happen_withinRetention ⟨rfl, hrecorded⟩
      (fun _ => trivial) hcareful hrun
  exact hinv.1

instance decidableIsGetState : (c : GroupOp) → Decidable (IsGetState c) := fun c => by
  apply @GroupOp.casesOn (fun c => Decidable (IsGetState c)) c <;> intros <;>
    dsimp only [IsGetState] <;> infer_instance

attribute [reducible] withinRetention

instance decidableCare (c : GroupOp) (q : GroupStatement) (input : Input Answer) (w : Directory × History) :
    Decidable (withinRetention.care c q input w) := by
  apply @GroupStatement.casesOn (fun q => Decidable (withinRetention.care c q input w)) q <;> intros <;> infer_instance

def twoCommits : List GroupAction :=
  .start (.createGroup "a" ⟨[1], 16, 0, false⟩) :: proceed 0 4 ++
    .start (.submitCommit "a" ⟨0, [1], [2]⟩) :: proceed 0 4 ++
    .outside (.tick (20 * 86400)) :: .start (.submitCommit "a" ⟨1, [3], [4]⟩) :: proceed 0 4

def askSince (known : Nat) : List GroupAction := .start (.getGroupState "a" (some known)) :: proceed 0 5

theorem members_catch_up_demo :
    ∃ pool, run historyStep (.init (emptyDirectory, .empty)) (twoCommits ++ askSince 0) = some pool ∧
      (pool.running = [] ∧ pool.store.2.made.map span = [(0, 1), (1, 2)]) ∧ pool.store.2.wrong = false := by
  obtain ⟨pool, hrun, hidle, hmade⟩ := reaches historyStep (.init (emptyDirectory, .empty))
    (twoCommits ++ askSince 0) (fun pool => pool.running.length = 0 ∧ pool.store.2.made.map span = [(0, 1), (1, 2)])
    (by decide +kernel)
  exact ⟨pool, hrun, ⟨eq_nil_of_length_eq_zero hidle, hmade⟩,
    members_catch_up rfl rfl (by decide +kernel) hrun⟩

/-- **Twenty days later the first commit has expired**, and a member that knows the epoch 0 is given
only the second one, and no ratchet tree; and a commit between the two reads goes beyond the epoch
of the answer. -/
theorem catch_up_fails : (∃ pool, run historyStep (.init (emptyDirectory, .empty))
        (twoCommits ++ .outside (.tick (20 * 86400)) :: askSince 0) = some pool ∧
      pool.running = [] ∧ pool.store.2.wrong = true) ∧
    ∃ pool, run historyStep (.init (emptyDirectory, .empty))
        (twoCommits ++ .start (.getGroupState "a" (some 0)) :: proceed 0 4 ++
          .start (.submitCommit "a" ⟨2, [5], [6]⟩) :: proceed 1 4 ++ proceed 0 1) = some pool ∧
      pool.running = [] ∧ pool.store.2.wrong = true := by
  constructor
  · obtain ⟨pool, hrun, hidle, hwrong⟩ := reaches historyStep (.init (emptyDirectory, .empty))
      (twoCommits ++ .outside (.tick (20 * 86400)) :: askSince 0)
      (fun pool => pool.running.length = 0 ∧ pool.store.2.wrong = true) (by decide +kernel)
    exact ⟨pool, hrun, eq_nil_of_length_eq_zero hidle, hwrong⟩
  · obtain ⟨pool, hrun, hidle, hwrong⟩ := reaches historyStep (.init (emptyDirectory, .empty))
      (twoCommits ++ .start (.getGroupState "a" (some 0)) :: proceed 0 4 ++
        .start (.submitCommit "a" ⟨2, [5], [6]⟩) :: proceed 1 4 ++ proceed 0 1)
      (fun pool => pool.running.length = 0 ∧ pool.store.2.wrong = true) (by decide +kernel)
    exact ⟨pool, hrun, eq_nil_of_length_eq_zero hidle, hwrong⟩

/-! ### The history -/

theorem Recorded.of_made {w w' : Directory × History} (hw : Recorded w) (hs : w'.1 = w.1)
    (hm : w'.2.made = w.2.made) : Recorded w' := by
  obtain ⟨hmi, hch, hta, hke⟩ := hw
  rw [← hs, ← hm] at *
  exact ⟨hmi, hch, hta, hke⟩

/-- **The commits of a group never fork**: whatever overlaps and fails, every epoch up to the
current one was left by exactly one commit, and the table has commits of this history only. -/
theorem commits_never_fork {s : Directory} {as : List GroupAction} {pool : HistoryPool}
    (hgroup : s.group = none)
    (hcommits : s.commits = []) (hrun : run historyStep (.init (s, .empty)) as = some pool) :
    (∀ g, pool.store.1.group = some g → Chain 0 g.epoch pool.store.2.made) ∧
      pool.store.1.commits.Sublist pool.store.2.made := by
  have hrecorded : Recorded (s, .empty) :=
    ⟨fun _ => rfl, fun g hg => (by cases hgroup.symm.trans hg), hcommits ▸ nil_sublist _, nofun⟩
  change run (Pool.step historyExec (fun c w => c.body w.1) noteState fun e w => (GroupEvent.happen e w.1, w.2))
    _ _ = _ at hrun
  have hinv : Recorded pool.store := by
    refine Discipline.run_plain (P := GroupOp.MayAsk) ?_ ?_ ?_ ?_ hrecorded hrun
    · exact fun c _ => asks_call c
    · intro n c q input w r w' hq hw he
      rcases failed_or_effect he with ⟨rfl, -⟩ | ⟨x, he, -⟩
      · exact hw
      · exact hw.effect hq he
    · intro n c r w hw
      refine hw.of_made ?_ ?_ <;> (unfold noteState; split <;> rfl)
    · intro e w hw
      have hsa : Recorded (w.1, { w.2 with wrong := false }) := hw.of_made rfl rfl
      exact (happen_withinRetention e _ ⟨rfl, hsa⟩).1.2.of_made rfl rfl
  exact ⟨hinv.chain, hinv.table⟩

/-- Two commits for one epoch overlap. -/
theorem one_of_two_commits :
    ∃ pool, run historyStep (.init (emptyDirectory, .empty)) (.start (.createGroup "a" ⟨[1], 16, 0, false⟩) ::
        proceed 0 4 ++ .start (.submitCommit "a" ⟨0, [1], [2]⟩) :: .start (.submitCommit "a" ⟨0, [3], [4]⟩) ::
        proceed 0 3 ++ proceed 1 4 ++ proceed 0 1) = some pool ∧
      pool.store.2.made.map Commit.mlsCommit = [[3]] ∧ pool.store.1.commits.Sublist pool.store.2.made :=
  reaches_with (by decide +kernel) fun _ hrun _ => (commits_never_fork rfl rfl hrun).2

end ConstructServer.Groups.CatchUp
