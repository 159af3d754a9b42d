import ConstructServer.Groups.Messages
import ConstructServer.Groups.Directory

/-!
# The epoch of a stored message

A send asks whether the group is dissolved, then for its epoch, and stores the message some
statements later. It takes no lock: a commit, an accepted invitation or a dissolution in between
goes unnoticed.
-/

namespace ConstructServer.Groups.Messages.Epochs

open Calls Machine

inductive EpochOp
  | sendGroupMessage (deviceId : String) (req : SendRequest)
  | submitCommit
  | acceptGroupInvite (deviceId : String)
  | dissolveGroup

def EpochOp.call : EpochOp → MessageCall MessageReply
  | .sendGroupMessage d req => Messages.sendGroupMessage d req
  | .submitCommit => single .advanceGroupEpoch
  | .acceptGroupInvite d => do
    let _ ← db (.insertGroupMember d)
    single .advanceGroupEpoch
  | .dissolveGroup => Messages.dissolveGroup

def EpochOp.Sends : EpochOp → Prop
  | .sendGroupMessage .. => True
  | _ => False

abbrev StoredIn : Type := GroupMessageRow × Option GroupRow

def noteStored (_ : Nat) (q : MessageStatement) (x : q.Reply) (s : MessageStore)
    (g : List StoredIn) : List StoredIn :=
  match q, x with
  | .insertGroupMessage msg, row => if s.duplicate? msg = none then g ++ [(row, s.group)] else g
  | _, _ => g

def epochExec (n : Nat) (q : MessageStatement) (input : Input MessageChoice)
    (w : MessageStore × List StoredIn) :
    Option (Option q.Reply × (MessageStore × List StoredIn)) :=
  fallible (noted MessageStatement.effect noteStored n) q (q.input input) w

abbrev EpochPool : Type :=
  Pool MessageStatement (fun q => Option q.Reply) (Except Status MessageReply) EpochOp (MessageStore × List StoredIn)

abbrev EpochAction : Type := Action (Input MessageChoice) EpochOp MessageEvent

def epochStep (pool : EpochPool) (a : EpochAction) : Option EpochPool :=
  pool.step epochExec (fun c _ => c.call.run) (fun _ _ _ w => w) (fun e w => (e.happen w.1, w.2)) a

def Fits (epoch : Nat) (group : Option GroupRow) : Prop := ∃ g ∈ group, g.dissolvedAt = none ∧
    g.epoch = epoch

def settled : Discipline MessageStatement (Input MessageChoice) (MessageStore × List StoredIn) EpochOp where
  inv w := ∀ p ∈ w.2, Fits p.1.epoch p.2
  fresh _ _ := True
  rely _ c w w' := c.Sends → w'.1.group = w.1.group
  begins _ _ := True
  compat c c' := c'.Sends → c.Sends
  care _ _ _ _ := True
  refl _ _ _ _ := rfl
  trans h h' hc := (h' hc).trans (h hc)

variable {n : Nat} {c : EpochOp} {q : MessageStatement} {input : Input MessageChoice}
  {w w' : MessageStore × List StoredIn} {r : Option q.Reply} {d : String} {req : SendRequest}

theorem keeps_of_exec (hgroup : q.touches .group = false ∨ ¬c.Sends)
    (hfit : ∀ msg, q = .insertGroupMessage msg → Fits msg.epoch w.1.group) (hinv : settled.inv w)
    (h : epochExec n q input w = some (r, w')) : settled.Keeps n c w w' := by
  rcases failed_or_effect h with ⟨rfl, -⟩ | ⟨x, he, -⟩
  · exact .refl hinv
  · obtain ⟨he, hl⟩ := noted_eq_some he
    refine ⟨?_, fun _ _ _ => trivial, fun m c' _ hco hc' => ?_⟩
    · show ∀ p ∈ w'.2, Fits p.1.epoch p.2
      rw [hl]
      cases q with
      | insertGroupMessage msg =>
        obtain ⟨s', g'⟩ := w'
        cases insert_case he with
        | retry hr =>
          rw [noteStored, if_neg (by rw [hr]; exact Option.some_ne_none _)]
          exact hinv
        | stored hn _ =>
          rw [noteStored, if_pos hn]
          intro p hp
          rcases mem_concat hp with hp | rfl
          · exact hinv p hp
          · exact hfit msg rfl
      | _ => exact hinv
    · exact (frame_of_effect he).group (hgroup.resolve_right fun hc => hc (hco hc'))

theorem safe_rest {p : MessageCall MessageReply}
    {post : Except Status MessageReply → MessageStore × List StoredIn → Prop} (hpo : ∀ r w, post r w)
    (hp : p.run.Asks fun q => q.touches .messages = false ∧ (q.touches .group = false ∨ ¬c.Sends)) :
    settled.Safe epochExec n c p.run post w := by
  refine Discipline.safe_of_keeps (fun _ => True) (fun _ _ _ _ => trivial) ?_ (fun r w _ => hpo r w) hp trivial
  intro q input w r w' hq hinv _ _ he
  refine ⟨keeps_of_exec hq.2 (fun msg hmsg => ?_) hinv he, trivial⟩
  subst hmsg
  cases hq.1

theorem eq_of_reads (hq : q.Reads) (h : epochExec n q input w = some (r, w')) : w' = w := by
  rcases failed_or_effect h with ⟨rfl, -⟩ | ⟨x, he, -⟩
  · rfl
  · obtain ⟨he, hl⟩ := noted_eq_some he
    refine Prod.ext (Messages.eq_of_reads hq he) (hl.trans ?_)
    cases q with
    | insertGroupMessage _ => exact hq.elim
    | _ => rfl

theorem safe_reading {α : Type} {p : MessageCall α} (K : Option GroupRow → Prop) (hc : c.Sends)
    (hp : p.run.Asks MessageStatement.Reads) (hw : K w.1.group) :
    settled.Safe epochExec n c p.run (endsIn (fun _ => True) fun _ w => K w.1.group) w :=
  safe_reads (D := settled) (fun w => K w.1.group) (fun hK hre => (hre hc).symm ▸ hK) (fun _ => trivial) eq_of_reads hp hw

theorem safe_getGroupDissolvedAt : settled.Safe epochExec n c (db .getGroupDissolvedAt).run
    (endsIn (fun _ => True) fun at? w => at? = w.1.group.bind GroupRow.dissolvedAt) w := by
  refine safe_read (fun _ => True) (fun _ _ => trivial) (fun _ => trivial) trivial fun _ _ he => ?_
  refine ⟨eq_of_reads (q := .getGroupDissolvedAt) trivial he, ?_⟩
  rintro x rfl
  obtain ⟨heff, -⟩ := noted_eq_some (effect_of_reply he)
  exact (congrArg Prod.fst (Option.some.inj heff)).symm

theorem safe_getGroupEpoch (hc : c.Sends) (hw : w.1.group.bind GroupRow.dissolvedAt = none) :
    settled.Safe epochExec n c (db .getGroupEpoch).run
      (endsIn (fun _ => True) fun epoch w => Fits epoch w.1.group) w := by
  refine safe_read (fun w => w.1.group.bind GroupRow.dissolvedAt = none) (fun hK hre => (hre hc).symm ▸ hK)
    (fun _ => trivial) hw fun _ hK he => ?_
  refine ⟨eq_of_reads (q := .getGroupEpoch) trivial he, ?_⟩
  rintro x rfl
  obtain ⟨heff, -⟩ := noted_eq_some (effect_of_reply he)
  obtain ⟨g, hg, heq⟩ := Option.map_eq_some_iff.mp heff
  rw [hg] at hK
  exact ⟨g, hg, hK, congrArg Prod.fst heq⟩

theorem safe_checkSend (hc : c.Sends) : settled.Safe epochExec n c (checkSend d req).run
    (endsIn (fun _ => True) fun _ w => Fits req.epoch w.1.group) w := by
  refine safe_then _ (safe_reading (fun _ => True) hc (asks_demand trivial) trivial) fun _ w _ => ?_
  refine safe_then _ (safe_reading (fun _ => True) hc asks_ensure trivial) fun _ w _ => ?_
  refine safe_then _ (safe_reading (fun _ => True) hc asks_ensure trivial) fun _ w _ => ?_
  refine safe_then _ safe_getGroupDissolvedAt fun at? w hat => ?_
  refine safe_then (fun _ w => w.1.group.bind GroupRow.dissolvedAt = none)
    (safe_ensure (fun h => hat ▸ h) fun _ => trivial) fun _ w hw => ?_
  refine safe_then _ (safe_reading (fun g => g.bind GroupRow.dissolvedAt = none) hc
    (asks_next trivial fun _ => asks_ensure) hw) fun _ w hw => ?_
  refine safe_then _ (safe_getGroupEpoch hc hw) fun epoch w hw => ?_
  exact safe_ensure (fun h => h ▸ hw) fun _ => trivial

theorem safe_newMessage (hc : c.Sends) (hw : Fits req.epoch w.1.group) :
    settled.Safe epochExec n c (newMessage req).run
      (endsIn (fun _ => True) fun msg w => Fits msg.epoch w.1.group) w := by
  refine safe_then _ (safe_reading (Fits req.epoch) hc (asks_demand trivial) hw) fun _ w hw => ?_
  refine safe_then _ (safe_reading (Fits req.epoch) hc (asks_demand trivial) hw) fun _ w hw => ?_
  refine safe_then _ (safe_reading (Fits req.epoch) hc asks_check hw) fun _ w hw => ?_
  refine safe_then _ (safe_reading (Fits req.epoch) hc asks_check hw) fun _ w hw => ?_
  refine safe_then _ (safe_reading (Fits req.epoch) hc asks_check hw) fun _ w hw => ?_
  exact hw

theorem safe_send (hc : c.Sends) : settled.Safe epochExec n c (sendGroupMessage d req).run
    (endsIn (fun _ => True) fun _ _ => True) w := by
  refine safe_then _ (safe_checkSend hc) fun _ w hw => ?_
  refine safe_then _ (safe_newMessage hc hw) fun msg w hw => ?_
  refine safe_then (fun _ _ => True) (safe_demand fun w₁ input r w' hinv hre _ he => ?_) fun row w _ => ?_
  · refine ⟨keeps_of_exec (.inl rfl) ?_ hinv he, ?_⟩
    · rintro _ ⟨⟩
      rw [hre hc]
      exact hw
    · cases r <;> trivial
  · exact safe_rest (fun r _ => by cases r <;> trivial) (asks_next ⟨rfl, .inl rfl⟩ fun _ => trivial)

theorem safe_call : settled.Safe epochExec n c c.call.run (fun _ _ => True) w := by
  cases c with
  | sendGroupMessage d req => exact (safe_send (c := .sendGroupMessage d req) trivial).mono fun _ _ _ => trivial
  | submitCommit => exact safe_rest (fun _ _ => trivial) (asks_next ⟨rfl, .inr id⟩ fun _ => trivial)
  | acceptGroupInvite d =>
    exact safe_rest (fun _ _ => trivial) (asks_next ⟨rfl, .inl rfl⟩ fun _ => asks_next ⟨rfl, .inr id⟩ fun _ => trivial)
  | dissolveGroup =>
    exact safe_rest (fun _ _ => trivial) (asks_next ⟨rfl, .inl rfl⟩ fun _ => asks_next ⟨rfl, .inr id⟩ fun _ =>
      asks_next ⟨rfl, .inl rfl⟩ fun _ => trivial)

theorem happen_settled : settled.Bears fun e w => (MessageEvent.happen e w.1, w.2) := fun e w hinv =>
  ⟨hinv, fun _ => id, fun _ _ _ => by cases e <;> rfl⟩

/-- **Every message fits its group** when it is stored, where the group does not change beside a
send. -/
theorem stored_messages_fit {s : MessageStore} {as : List EpochAction} {pool : EpochPool}
    (hsettled : Along epochStep settled.Careful (.init (s, [])) as)
    (hrun : run epochStep (.init (s, [])) as = some pool) : ∀ p ∈ pool.store.2, Fits p.1.epoch p.2 :=
  Discipline.run_invariant (D := settled) (s := (s, []))
    (fun _ _ _ _ _ _ => safe_call.mono fun _ _ _ hinv => .refl hinv) happen_settled nofun (fun _ => trivial)
    hsettled hrun

attribute [reducible] settled

instance : (c : EpochOp) → Decidable c.Sends
  | .sendGroupMessage .. => isTrue trivial
  | .submitCommit | .acceptGroupInvite _ | .dissolveGroup => isFalse id

def send : EpochAction := .start (.sendGroupMessage "a" ⟨[1], 0, none, none, "x"⟩)

def interrupted (c : EpochOp) (k : Nat) : List EpochAction := send :: proceeds ⟨true, "m"⟩ 0 6 ++ .start c :: proceeds ⟨true, "m"⟩ 1 k ++ proceeds ⟨true, "m"⟩ 0 2

theorem stored_messages_fit_demo :
    ∃ pool, run epochStep (.init (emptyGroup ["a"], [])) (send :: proceeds ⟨true, "m"⟩ 0 8 ++ .start .submitCommit :: proceeds ⟨true, "m"⟩ 0 1) =
        some pool ∧ pool.store.2.map (fun p => (p.1.epoch, p.2)) = [(0, some ⟨0, 30, none⟩)] ∧
        ∀ p ∈ pool.store.2, Fits p.1.epoch p.2 :=
  reaches_with (by decide +kernel) fun _ hrun _ => stored_messages_fit (by decide +kernel) hrun

/-- **The group changes between the checks and the insertion**: the message of an old epoch is
stored after a commit, and a message is stored in a dissolved group. -/
theorem group_changes_before_the_insertion :
    (∃ pool, run epochStep (.init (emptyGroup ["a"], [])) (interrupted .submitCommit 1) = some pool ∧
      pool.store.2.map (fun p => (p.1.epoch, p.2)) = [(0, some ⟨1, 30, none⟩)]) ∧
    ∃ pool, run epochStep (.init (emptyGroup ["a"], [])) (interrupted .dissolveGroup 3) = some pool ∧
      pool.store.2.map (fun p => (p.1.epoch, p.2)) = [(0, some ⟨0, 30, some 1000⟩)] :=
  ⟨reaches _ _ _ _ (by decide +kernel), reaches _ _ _ _ (by decide +kernel)⟩

section

/-! ### The calls of the directory -/

/-- The messages see the rows of the directory. -/
structure Shows (s : Directory) (t : MessageStore) : Prop where
  group : t.group = s.group.map fun g => ⟨g.epoch, g.retentionDays, g.dissolvedAt⟩
  members : ∀ d, t.members d = true ↔ s.IsMember d

/-- What the messages see of the calls of the directory. -/
def Seen : GroupOp → MessageStatement → Prop
  | .submitCommit .., .advanceGroupEpoch | .acceptGroupInvite .., .advanceGroupEpoch => True
  | .acceptGroupInvite d _, .insertGroupMember d' => d' = d
  | .leaveGroup d _, .removeGroupMember d' | .removeMember _ d _, .removeGroupMember d' => d' = d
  | .dissolveGroup _, .setGroupDissolvedAt _ => True
  | _, _ => False

variable {c : GroupOp} {q : GroupStatement} {x : q.Reply} {answer : Answer} (choice : MessageChoice)
  {s s' : Directory} {t : MessageStore}

/-- **A statement of a call of the directory is to the messages a statement of their own model of
the call, or nothing at all.** -/
theorem seen_of_effect (hc : ∀ d req, c ≠ .createGroup d req) (hq : c.MayAsk q) (hs : Shows s t)
    (h : q.effect answer s = some (x, s')) :
    Shows s' t ∨ ∃ m y t', Seen c m ∧ m.effect choice t = some (y, t') ∧ Shows s' t' := by
  have hframe := Groups.frame_of_effect h
  cases q with
  | createGroupWithCreator d g =>
    cases c <;> first | exact absurd rfl (hc _ _) | exact (hq.elim id id).elim
  | insertGroupMember d leaf =>
    simp only [GroupStatement.effect] at h
    split_ifs at h with hd
    cases h
    refine .inr ⟨.insertGroupMember d, (), _, ?_, if_neg ?_, hs.group, fun d' => ?_⟩
    · cases c <;> exact hq.resolve_left id
    · simpa [hs.members] using hd.2
    · by_cases hd' : d' = d <;> simp [hd', hs.members, Directory.IsMember, eq_comm]
  | removeGroupMember d =>
    cases h
    refine .inr ⟨.removeGroupMember d, (), _, ?_, rfl, hs.group, fun d' => ?_⟩
    · cases c <;> exact hq.resolve_left id
    · by_cases hd' : d' = d
      · simp [hd', Directory.IsMember]
      · have hne : ∀ m : Member, m.deviceId = d' → m.deviceId ≠ d := fun m hm => hm ▸ hd'
        simpa [Function.update_of_ne hd', Directory.IsMember, and_assoc] using (hs.members d').trans
          (exists_congr fun m => and_congr_right fun _ => (and_iff_right_of_imp (hne m)).symm)
  | advanceGroupEpoch e commit tree now =>
    obtain ⟨g, hg, h⟩ := Option.map_eq_some_iff.mp h
    split at h
    · rename_i he
      cases h
      refine .inr ⟨.advanceGroupEpoch, (), _, ?_, rfl, ?_, hs.members⟩
      · cases c <;> exact hq.resolve_left id
      · simp [hs.group, hg, he]
    · cases h
      exact .inl hs
  | setGroupDissolvedAt now =>
    cases h
    refine .inr ⟨.setGroupDissolvedAt now, (), _, ?_, rfl, ?_, hs.members⟩
    · cases c <;> exact hq.resolve_left id
    · simp [hs.group, Function.comp_def]
  | _ => exact .inl ⟨hframe.group rfl ▸ hs.group, fun d => (hs.members d).trans (by
      simp only [Directory.IsMember, hframe.members rfl])⟩

/-- **Every run of a call of the directory is to the messages a run of such statements.** -/
theorem seen_of_run {r : Except Status GroupReply} (hc : ∀ d req, c ≠ .createGroup d req)
    (hs : Shows s t) (hrun : Runs (directoryExec 0) c.call.run s r s') :
    ∃ ms t', (∀ m ∈ ms, Seen c m) ∧
      Machine.run (fun t m => (m.effect choice t).map Prod.snd) t ms = some t' ∧ Shows s' t' := by
  refine runs_keeps (K := fun s' => ∃ ms t', (∀ m ∈ ms, Seen c m) ∧
    Machine.run (fun t m => (m.effect choice t).map Prod.snd) t ms = some t' ∧ Shows s' t')
    (asks_call c) (fun hq hK he => ?_) ⟨[], t, nofun, rfl, hs⟩ hrun
  obtain ⟨ms, t', hms, hrun, hs⟩ := hK
  rcases failed_or_effect he with ⟨rfl, -⟩ | ⟨x, he, -⟩
  · exact ⟨ms, t', hms, hrun, hs⟩
  rcases seen_of_effect choice hc hq hs he with hs | ⟨m, y, t'', hm, he, hs⟩
  · exact ⟨ms, t', hms, hrun, hs⟩
  · refine ⟨ms ++ [m], t'', fun m' hm' => ?_, ?_, hs⟩
    · rcases Machine.mem_concat hm' with hm' | rfl
      · exact hms m' hm'
      · exact hm
    · simp [Machine.run_append, hrun, Machine.run_cons, he]

end

end ConstructServer.Groups.Messages.Epochs
