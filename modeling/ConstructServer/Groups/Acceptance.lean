import ConstructServer.Groups.Directory

/-!
# Accepted and refused invites

An acceptance adds its device to the group, stores the commit in a transaction and deletes the
invite, each on its own. A commit that gets in between, or a statement that fails after the device
was added, ends the acceptance with an error and leaves what it has written so far. If no other call
advances the epoch while an invite is accepted, and from the new member on every statement is
answered, a refused acceptance has written nothing and an accepted one the member, the commit to the
next epoch and the end of the invite.
-/

namespace ConstructServer.Groups.Acceptance

open Calls Queue Machine

/-- A change that a call has made. -/
inductive Write
  | memberAdded (deviceId : String)
  | committed (commit : Commit)
  | inviteDeleted (inviteId : String)
deriving DecidableEq

structure JoinLog where
  /-- By session. -/
  writes : List (Nat × Write)
  /-- An acceptance has given an answer that does not agree with what it has written. -/
  wrong : Bool

def JoinLog.empty : JoinLog := ⟨[], false⟩

def JoinLog.writesOf (g : JoinLog) (n : Nat) : List Write :=
  (g.writes.filter fun p => decide (p.1 = n)).map Prod.snd

def JoinLog.push (g : JoinLog) (n : Nat) (write : Write) : JoinLog :=
  { g with writes := g.writes ++ [(n, write)] }

def noteJoin (n : Nat) (q : GroupStatement) (x : q.Reply) (_ : Directory) (g : JoinLog) : JoinLog :=
  match q, x with
  | .insertGroupMember d _, _ => g.push n (.memberAdded d)
  | .advanceGroupEpoch e commit tree now, true => g.push n (.committed (Commit.at e commit tree now))
  | .deleteGroupInvite i, _ => g.push n (.inviteDeleted i)
  | _, _ => g

/-- A refused acceptance has written nothing; one that succeeds has added the caller, advanced the
epoch by one with the commit of the caller, and deleted the invite. -/
def Matches (deviceId : String) (req : AcceptRequest) (writes : List Write) : Except Status GroupReply → Prop
  | .error _ => writes = []
  | .ok (.accepted newEpoch joinedAt) =>
    0 < newEpoch ∧ writes = [.memberAdded deviceId,
      .committed (Commit.at (newEpoch - 1) req.mlsCommit req.newRatchetTree joinedAt), .inviteDeleted req.inviteId]
  | .ok _ => False

instance decidableMatches (deviceId : String) (req : AcceptRequest) (writes : List Write)
    (r : Except Status GroupReply) : Decidable (Matches deviceId req writes r) := by
  rcases r with _ | ⟨_ | _⟩ <;> dsimp only [Matches] <;> infer_instance

def noteJoinEnd (n : Nat) (c : GroupOp) (r : Except Status GroupReply) (w : Directory × JoinLog) :
    Directory × JoinLog :=
  match c with
  | .acceptGroupInvite d req =>
    (w.1, { w.2 with wrong := w.2.wrong || !decide (Matches d req (w.2.writesOf n) r) })
  | _ => w

def joinEffect (n : Nat) (q : GroupStatement) (answer : Answer) (w : Directory × JoinLog) :
    Option (q.Reply × (Directory × JoinLog)) :=
  noted GroupStatement.effect noteJoin n q answer w

def joinExec (n : Nat) (q : GroupStatement) (input : Input Answer) (w : Directory × JoinLog) :
    Option (Option q.Reply × (Directory × JoinLog)) :=
  fallible (joinEffect n) q (q.input input) w

abbrev JoinPool : Type :=
  Pool GroupStatement (fun q => Option q.Reply) (Except Status GroupReply) GroupOp (Directory × JoinLog)

def joinStep (pool : JoinPool) (a : GroupAction) : Option JoinPool :=
  pool.step joinExec (fun c w => c.body w.1) noteJoinEnd (fun e w => (e.happen w.1, w.2)) a

/-- No epoch advances while an invite is accepted, and from the new member on every statement of an
acceptance is answered. -/
def undisturbed : Discipline GroupStatement (Input Answer) (Directory × JoinLog) GroupOp where
  inv w := w.2.wrong = false
  fresh n w := w.2.writesOf n = []
  rely n c w w' := w'.2.writesOf n = w.2.writesOf n ∧ (c.IsAccept → SameEpoch w.1 w'.1)
  begins _ _ := True
  compat c c' := ¬ (c.Advances ∧ c'.IsAccept)
  care c q input _ := c.IsAccept → match q with
    | .insertGroupMember .. => input.outcome ≠ .lost
    | .advanceGroupEpoch .. | .deleteGroupInvite _ | .getGroupMemberCount => input.outcome = .ok
    | _ => True
  refl _ _ _ := ⟨rfl, fun _ => .refl⟩
  trans h h' := ⟨h'.1.trans h.1, fun hc => (h.2 hc).trans (h'.2 hc)⟩

/-! ### Statements -/

section

variable {n m : Nat} {c : GroupOp} {q : GroupStatement} {w w' : Directory × JoinLog}

variable {g : JoinLog}

theorem writesOf_push_self {write : Write} : (g.push n write).writesOf n = g.writesOf n ++ [write] := by
  simp [JoinLog.writesOf, JoinLog.push]

theorem writesOf_push_of_ne {write : Write} (h : m ≠ n) : (g.push n write).writesOf m = g.writesOf m := by
  simp [JoinLog.writesOf, JoinLog.push, h.symm]

theorem writesOf_note_of_ne {x : q.Reply} {s : Directory} (h : m ≠ n) :
    (noteJoin n q x s g).writesOf m = g.writesOf m ∧ (noteJoin n q x s g).wrong = g.wrong := by
  cases q with
  | insertGroupMember _ _ | deleteGroupInvite _ => exact ⟨writesOf_push_of_ne h, rfl⟩
  | advanceGroupEpoch e commit tree now =>
    cases x with
    | true => exact ⟨writesOf_push_of_ne h, rfl⟩
    | false => exact ⟨rfl, rfl⟩
  | _ => exact ⟨rfl, rfl⟩

theorem note_of_reads {x : q.Reply} {s : Directory} (hq : q.Reads) : noteJoin n q x s g = g := by
  cases q with
  | insertGroupMember _ _ | deleteGroupInvite _ | advanceGroupEpoch _ _ _ _ => exact hq.elim
  | _ => rfl

theorem quiet_of_joinExec {input : Input Answer} {r : Option q.Reply} (hq : q.Reads)
    (h : joinExec n q input w = some (r, w')) : w' = w := by
  rcases failed_or_effect h with ⟨rfl, -⟩ | ⟨x, he, -⟩
  · rfl
  · obtain ⟨he, hl⟩ := noted_eq_some he
    exact Prod.ext (eq_of_reads hq he) (hl.trans (note_of_reads hq))

theorem keeps_of_effect {answer : Answer} {x : q.Reply} (hinv : w.2.wrong = false)
    (h : joinEffect n q answer w = some (x, w'))
    (hc : c.Advances ∨ ∀ e commit tree now, q ≠ .advanceGroupEpoch e commit tree now) :
    undisturbed.Keeps n c w w' := by
  obtain ⟨he, hl⟩ := noted_eq_some h
  have ho : ∀ m, m ≠ n → w'.2.writesOf m = w.2.writesOf m ∧ w'.2.wrong = w.2.wrong := by
    intro m hm
    rw [hl]
    exact writesOf_note_of_ne hm
  refine ⟨(ho (n + 1) (Nat.succ_ne_self n)).2.trans hinv, fun m hm hf => (ho m (Nat.ne_of_gt hm)).1.trans hf,
    fun m c' hm hco => ⟨(ho m hm).1, fun hc' => ?_⟩⟩
  rcases hc with hc | hq
  · exact absurd ⟨hc, hc'⟩ hco
  · exact sameEpoch_of_effect he hq

theorem keeps_of_exec {input : Input Answer} {r : Option q.Reply} (hinv : w.2.wrong = false)
    (h : joinExec n q input w = some (r, w'))
    (hc : c.Advances ∨ ∀ e commit tree now, q ≠ .advanceGroupEpoch e commit tree now) :
    undisturbed.Keeps n c w w' := by
  rcases failed_or_effect h with ⟨rfl, -⟩ | ⟨x, he, -⟩
  · exact .refl hinv
  · exact keeps_of_effect hinv he hc

theorem safe_other (hc : ¬ c.IsAccept) {post : Except Status GroupReply → Directory × JoinLog → Prop}
    (hpo : ∀ r w, post r w) : undisturbed.Safe joinExec n c (c.body w.1) post w := by
  refine Discipline.safe_of_keeps (P := c.MayAsk) (fun _ => True) (fun _ _ _ _ => trivial) ?_
    (fun r w _ => hpo r w) (asks_call c) trivial
  intro q input w r w' hq hinv _ _ he
  refine ⟨keeps_of_exec hinv he ?_, trivial⟩
  by_cases ha : c.Advances
  · exact .inl ha
  · refine .inr ?_
    rintro e commit tree now rfl
    rcases hq with hq | hq
    · exact hq
    · cases c with
      | acceptGroupInvite _ _ => exact hc trivial
      | submitCommit _ _ => exact ha trivial
      | _ => exact hq

end

/-! ### An acceptance -/

section

variable {n : Nat} {c : GroupOp} {d : String} {req : AcceptRequest} {w w' : Directory × JoinLog}

/-- What an acceptance has written so far, and the epoch that it has read. -/
structure Wrote (n : Nat) (writes : List Write) (epoch : Option Nat) (w : Directory × JoinLog) : Prop where
  writes : w.2.writesOf n = writes
  epoch : ∀ e ∈ epoch, ∃ g, w.1.group = some g ∧ g.epoch = e

variable {writes : List Write} {epoch : Option Nat}

theorem Wrote.stable (hc : c.IsAccept) (h : Wrote n writes epoch w) (hre : undisturbed.rely n c w w') :
    Wrote n writes epoch w' := by
  refine ⟨hre.1.trans h.writes, fun e he => ?_⟩
  obtain ⟨g, hg, rfl⟩ := h.epoch e he
  exact hre.2 hc g hg

theorem safe_reading {α : Type} {p : GroupCall α} (hc : c.IsAccept) (hp : p.run.Asks GroupStatement.Reads)
    (hw : Wrote n writes epoch w) :
    undisturbed.Safe joinExec n c p.run (endsIn (Wrote n writes none) fun _ => Wrote n writes epoch) w :=
  safe_reads (Wrote n writes epoch) (Wrote.stable hc) (fun h => ⟨h.writes, nofun⟩) quiet_of_joinExec hp hw

theorem safe_getGroupEpoch (hc : c.IsAccept) (hw : Wrote n writes none w) :
    undisturbed.Safe joinExec n c (db .getGroupEpoch).run
      (endsIn (Wrote n writes none) fun e => Wrote n writes (some e)) w := by
  refine safe_read (Wrote n writes none) (Wrote.stable hc) id hw ?_
  intro input w r w' _ hw hexe
  refine ⟨quiet_of_joinExec (q := .getGroupEpoch) trivial hexe, ?_⟩
  rintro e rfl
  obtain ⟨hef, -⟩ := noted_eq_some (effect_of_reply hexe)
  obtain ⟨g, hg, heq⟩ := Option.map_eq_some_iff.mp hef
  refine ⟨hw.writes, fun e he => ?_⟩
  cases he
  exact ⟨g, hg, congrArg Prod.fst heq⟩

theorem safe_checkAcceptance (hc : c.IsAccept) (hw : Wrote n [] none w) :
    undisturbed.Safe joinExec n c (checkAcceptance d req).run
      (endsIn (Wrote n [] none) fun invite => Wrote n [] (some invite.epoch)) w := by
  have hre : ∀ q : GroupStatement, q.Reads → q.Reads := fun _ => id
  refine safe_then _ (safe_reading hc (asks_loadInvite hre) hw) fun invite w hw => ?_
  refine safe_then _ (safe_getGroupEpoch hc hw) fun e w hw => ?_
  refine safe_then (fun _ w => Wrote n [] (some e) w ∧ invite.epoch = e)
    (safe_ensure (fun h => ⟨hw, h⟩) fun _ => ⟨hw.writes, nofun⟩) fun _ w hw => ?_
  obtain ⟨hw, rfl⟩ := hw
  refine safe_then _ (safe_reading hc asks_ensure hw) fun _ w hw => ?_
  refine safe_then _ (safe_reading hc asks_ensure hw) fun _ w hw => ?_
  refine safe_then _ (safe_reading hc (asks_verifyAdminProof hre) hw) fun _ w hw => ?_
  refine safe_then _ (safe_reading hc (asks_ensureOwnDevice hre) hw) fun _ w hw => ?_
  exact safe_then _ (safe_reading hc (asks_ensureNotMember hre) hw) fun _ w hw => hw

theorem safe_insertGroupMember {leaf : Nat} (hc : c.IsAccept) (hw : Wrote n [] epoch w) :
    undisturbed.Safe joinExec n c (internal (.insertGroupMember d leaf) "Failed to add member").run
      (endsIn (Wrote n [] none) fun _ => Wrote n [.memberAdded d] epoch) w := by
  refine safe_demand fun w₁ input r w' hinv hre hca hexe => ?_
  have hw₁ := hw.stable hc hre
  refine ⟨keeps_of_exec hinv hexe (.inr nofun), ?_⟩
  cases r with
  | none =>
    obtain rfl : w' = w₁ := eq_of_no_reply (hca hc) hexe
    exact ⟨hw₁.writes, nofun⟩
  | some x =>
    obtain ⟨hef, hl⟩ := noted_eq_some (effect_of_reply hexe)
    refine ⟨?_, fun e he => ?_⟩
    · rw [hl]
      exact writesOf_push_self.trans (by rw [hw₁.writes]; rfl)
    · obtain ⟨g, hg, rfl⟩ := hw₁.epoch e he
      exact sameEpoch_of_effect hef nofun g hg

theorem safe_advanceGroupEpoch {e now : Nat} {commit tree : Bytes} (hc : c.IsAccept)
    (hw : Wrote n writes (some e) w) :
    undisturbed.Safe joinExec n c (internal (.advanceGroupEpoch e commit tree now) "Failed to commit transaction").run
      (endsIn (fun _ => False) fun advanced w => advanced = true ∧
        Wrote n (writes ++ [.committed (Commit.at e commit tree now)]) none w) w := by
  refine safe_demand fun w₁ input r w' hinv hre hca hexe => ?_
  have hw₁ := hw.stable hc hre
  have ha : c.Advances := by
    cases c with
    | acceptGroupInvite _ _ => trivial
    | _ => exact hc.elim
  refine ⟨keeps_of_exec hinv hexe (.inl ha), ?_⟩
  obtain ⟨x, rfl, he⟩ := reply_of_ok (hca hc) hexe
  obtain ⟨he, hl⟩ := noted_eq_some he
  obtain ⟨g, hg, hep⟩ := hw₁.epoch e rfl
  have hx : x = true := by
    simp only [GroupStatement.effect, hg, Option.map_some, hep, if_true] at he
    exact (congrArg Prod.fst (Option.some.inj he)).symm
  subst hx
  refine ⟨rfl, ?_, fun _ h => by cases h⟩
  rw [hl]
  exact writesOf_push_self.trans (by rw [hw₁.writes])

theorem safe_deleteGroupInvite {i : String} (hc : c.IsAccept) (hw : Wrote n writes none w) :
    undisturbed.Safe joinExec n c (internal (.deleteGroupInvite i) "Failed to delete invite").run
      (endsIn (fun _ => False) fun _ => Wrote n (writes ++ [.inviteDeleted i]) none) w := by
  refine safe_demand fun w₁ input r w' hinv hre hca he => ?_
  have hw₁ := hw.stable hc hre
  refine ⟨keeps_of_exec hinv he (.inr nofun), ?_⟩
  obtain ⟨x, rfl, hef⟩ := reply_of_ok (hca hc) he
  obtain ⟨-, hl⟩ := noted_eq_some hef
  refine ⟨?_, nofun⟩
  rw [hl]
  exact writesOf_push_self.trans (by rw [hw₁.writes])

theorem safe_getGroupMemberCount (hc : c.IsAccept) (hw : Wrote n writes none w) :
    undisturbed.Safe joinExec n c (db .getGroupMemberCount).run
      (endsIn (fun _ => False) fun _ => Wrote n writes none) w := by
  refine safe_demand fun w₁ input r w' hinv hre hca he => ?_
  refine ⟨keeps_of_exec hinv he (.inr nofun), ?_⟩
  obtain rfl := quiet_of_joinExec (q := .getGroupMemberCount) trivial he
  obtain ⟨x, rfl, -⟩ := reply_of_ok (hca hc) he
  exact hw.stable hc hre

def Answered (n : Nat) (d : String) (req : AcceptRequest) (r : Except Status GroupReply)
    (w : Directory × JoinLog) :
    Prop :=
  Matches d req (w.2.writesOf n) r

theorem safe_join {e : Nat} (hc : c.IsAccept) (hw : Wrote n [] (some e) w) :
    undisturbed.Safe joinExec n c (join d req e).run (Answered n d req) w := by
  have hsa : undisturbed.Safe joinExec n c (join d req e).run
      (endsIn (Wrote n [] none) fun reply w => Matches d req (w.2.writesOf n) (.ok reply)) w := by
    refine safe_then _ (safe_reading hc (asks_demand trivial) hw) fun leaf w hw => ?_
    refine safe_then _ (safe_reading hc (asks_demand trivial) hw) fun now w hw => ?_
    refine safe_then _ (safe_insertGroupMember hc hw) fun _ w hw => ?_
    -- From here on, no statement fails.
    have hn : ∀ {α : Type} {r : Except Status α} {w : Directory × JoinLog} {post : α → Directory × JoinLog → Prop},
        endsIn (fun _ => False) post r w → endsIn (Wrote n [] none) post r w := by
      intro α r w post h
      cases r with
      | ok _ => exact h
      | error _ => exact h.elim
    refine safe_then _ ((safe_advanceGroupEpoch hc hw).mono fun _ _ => hn) fun advanced w hw => ?_
    obtain ⟨rfl, hw⟩ := hw
    refine safe_then (fun _ => Wrote n [.memberAdded d, .committed (Commit.at e req.mlsCommit req.newRatchetTree now)] none)
      (safe_ensure (fun _ => hw) fun h => absurd rfl h) fun _ w hw => ?_
    refine safe_then _ ((safe_deleteGroupInvite hc hw).mono fun _ _ => hn) fun _ w hw => ?_
    refine safe_then _ ((safe_getGroupMemberCount hc hw).mono fun _ _ => hn) fun _ w hw => ?_
    exact ⟨Nat.succ_pos e, hw.writes⟩
  refine hsa.mono fun r w hr => ?_
  cases r with
  | ok reply => exact hr
  | error _ => exact hr.writes

theorem safe_acceptGroupInvite (hc : c.IsAccept) (hw : Wrote n [] none w) :
    undisturbed.Safe joinExec n c (acceptGroupInvite d req).run (Answered n d req) w := by
  refine safe_andThen.mpr ((safe_checkAcceptance hc hw).mono fun r w hr => ?_)
  cases r with
  | ok invite => exact safe_join hc hr
  | error _ => exact hr.writes

theorem ends_accept {r : Except Status GroupReply} (h : Answered n d req r w) :
    undisturbed.Ends noteJoinEnd n (.acceptGroupInvite d req) r w := by
  intro hinv
  refine ⟨?_, fun _ _ hf => hf, fun _ _ _ _ => ⟨rfl, fun _ => .refl⟩⟩
  have hma : Matches d req (w.2.writesOf n) r := h
  show (w.2.wrong || !decide (Matches d req (w.2.writesOf n) r)) = false
  rw [decide_eq_true hma, hinv]
  rfl

theorem safe_body (hf : undisturbed.fresh n w) :
    undisturbed.Safe joinExec n c (c.body w.1) (undisturbed.Ends noteJoinEnd n c) w := by
  by_cases hc : c.IsAccept
  · cases c with
    | acceptGroupInvite d req =>
      exact (safe_acceptGroupInvite hc ⟨hf, nofun⟩).mono fun r w hr => ends_accept hr
    | _ => exact hc.elim
  · refine safe_other hc fun r w hinv => ?_
    have hen : noteJoinEnd n c r w = w := by
      cases c with
      | acceptGroupInvite d req => exact absurd trivial hc
      | _ => rfl
    rw [hen]
    exact .refl hinv

end

/-! ### Runs -/

theorem happen_undisturbed : undisturbed.Bears fun e w => (GroupEvent.happen e w.1, w.2) := fun _ _ hinv =>
  ⟨hinv, fun _ => id, fun _ _ => ⟨rfl, fun _ => sameEpoch_happen⟩⟩

/-- **An acceptance writes everything or nothing**, if no other call advances the epoch of the group
meanwhile and no statement from the new member on stays without an answer. -/
theorem acceptance_all_or_nothing {s : Directory} {as : List GroupAction} {pool : JoinPool}
    (hcareful : Along joinStep undisturbed.Careful (.init (s, .empty)) as)
    (hrun : run joinStep (.init (s, .empty)) as = some pool) : pool.store.2.wrong = false :=
  Discipline.run_invariant (D := undisturbed) (fun _ _ _ _ hfresh _ => safe_body hfresh) happen_undisturbed
    (s := (s, .empty)) rfl (fun _ => rfl) hcareful hrun

attribute [reducible] undisturbed

instance decidableCare (c : GroupOp) (q : GroupStatement) (input : Input Answer) (w : Directory × JoinLog) :
    Decidable (undisturbed.care c q input w) := by
  cases q <;> infer_instance

def acceptThenCommit : List GroupAction :=
  .start (.acceptGroupInvite "b" ⟨"i", [2], [3]⟩) :: proceed 0 11 ++
    .start (.submitCommit "a" ⟨1, [4], [5]⟩) :: proceed 0 4

theorem acceptance_all_or_nothing_demo :
    ∃ pool, run joinStep (.init (smallGroup, .empty)) acceptThenCommit = some pool ∧
      (pool.running = [] ∧ pool.store.1.IsMember "b" ∧ pool.store.1.invites = [] ∧
        pool.store.1.group.map Group.epoch = some 2) ∧ pool.store.2.wrong = false := by
  obtain ⟨pool, hrun, hend⟩ := reaches joinStep (.init (smallGroup, .empty)) acceptThenCommit
    (fun pool => pool.running.length = 0 ∧ pool.store.1.IsMember "b" ∧ pool.store.1.invites = [] ∧
      pool.store.1.group.map Group.epoch = some 2) (by decide +kernel)
  obtain ⟨hidle, hend⟩ := hend
  exact ⟨pool, hrun, ⟨List.eq_nil_of_length_eq_zero hidle, hend⟩,
    acceptance_all_or_nothing (by decide +kernel) hrun⟩

def commitDuringAccept : List GroupAction :=
  .start (.acceptGroupInvite "b" ⟨"i", [2], [3]⟩) :: proceed 0 8 ++
    .start (.submitCommit "a" ⟨0, [4], [5]⟩) :: proceed 1 4 ++ proceed 0 1

/-- **A refused acceptance leaves its device in the group**, with the invite still there. -/
theorem refused_acceptance_adds_a_member :
    ∃ pool, run joinStep (.init (smallGroup, .empty)) commitDuringAccept = some pool ∧
      pool.running = [] ∧ pool.store.2.wrong = true ∧ pool.store.2.writesOf 0 = [.memberAdded "b"] ∧
        pool.store.1.IsMember "b" ∧ pool.store.1.invites ≠ [] := by
  obtain ⟨pool, hrun, hend⟩ := reaches joinStep (.init (smallGroup, .empty)) commitDuringAccept
    (fun pool => pool.running.length = 0 ∧ pool.store.2.wrong = true ∧
      pool.store.2.writesOf 0 = [.memberAdded "b"] ∧ pool.store.1.IsMember "b" ∧ pool.store.1.invites ≠ [])
    (by decide +kernel)
  obtain ⟨hidle, hend⟩ := hend
  exact ⟨pool, hrun, List.eq_nil_of_length_eq_zero hidle, hend⟩

end ConstructServer.Groups.Acceptance
