import ConstructServer.Groups.Directory

/-!
# Room in a group

Whether a group has room is asked when an invite is made, not when it is accepted, and the leaf of a
new member is read before the member is added. Two invites can so bring a group over its limit, and
two acceptances that overlap give the same leaf twice. If the acceptances of a group come one after
the other, and there is room whenever a member is added, neither happens.
-/

namespace ConstructServer.Groups.Capacity

open Calls Queue Machine List Option

/-- No more members than the group may have, and no leaf twice. -/
structure WithinLimits (s : Directory) : Prop where
  missing : s.group = none → s.members = []
  room : ∀ g, s.group = some g → s.members.length ≤ g.maxMembers
  leaves : (s.members.map Member.leafIndex).Nodup

def HasRoom (s : Directory) : Prop := ∀ g ∈ s.group, s.members.length < g.maxMembers

instance decidableHasRoom (s : Directory) : Decidable (HasRoom s) :=
  inferInstanceAs (Decidable (∀ g ∈ s.group, s.members.length < g.maxMembers))

def NoneJoined (s s' : Directory) : Prop :=
  s.group.isSome → s'.group.isSome ∧ ∀ m ∈ s'.members, m ∈ s.members

/-- The acceptances come one after the other, and a member is added only while there is room. -/
def withRoom : Discipline GroupStatement (Input Answer) Directory GroupOp where
  inv := WithinLimits
  fresh _ _ := True
  rely _ c s s' := c.IsAccept → NoneJoined s s'
  begins _ _ := True
  compat c c' := ¬ (c.IsAccept ∧ c'.IsAccept)
  care _ q _ s := match q with
    | .insertGroupMember .. => HasRoom s
    | _ => True
  refl _ _ _ _ h := ⟨h, fun _ => id⟩
  trans h h' hc hsome := by
    obtain ⟨hsome₁, hsub₁⟩ := h hc hsome
    obtain ⟨hsome₂, hsub₂⟩ := h' hc hsome₁
    exact ⟨hsome₂, fun m hm => hsub₁ m (hsub₂ m hm)⟩

/-! ### Statements -/

section

variable {n : Nat} {c : GroupOp} {q : GroupStatement} {answer : Answer} {s s' : Directory}

theorem WithinLimits.of_sublist (h : WithinLimits s)
    (hgr : s'.group.map Group.maxMembers = s.group.map Group.maxMembers)
    (hme : s'.members.Sublist s.members) : WithinLimits s' := by
  refine ⟨fun hno => ?_, fun g' hg' => ?_, h.leaves.sublist (hme.map _)⟩
  · rw [hno] at hgr
    rw [h.missing (map_eq_none_iff.mp hgr.symm)] at hme
    exact sublist_nil.mp hme
  · rw [hg'] at hgr
    obtain ⟨g, hg, hma⟩ := map_eq_some_iff.mp hgr.symm
    exact (hme.length_le.trans (h.room g hg)).trans_eq hma

def AddsNobody : GroupStatement → Prop
  | .insertGroupMember .. => False
  | .createGroupWithCreator _ g => 0 < g.maxMembers
  | _ => True

theorem sublist_of_effect {x : q.Reply} (h : q.effect answer s = some (x, s')) (hq : AddsNobody q)
    (hcr : ∀ d g, q ≠ .createGroupWithCreator d g) : s'.members.Sublist s.members := by
  by_cases hto : q.touches .members = false
  · rw [(frame_of_effect h).members hto]
  · cases q with
    | createGroupWithCreator d g => exact absurd rfl (hcr d g)
    | insertGroupMember _ _ => exact hq.elim
    | removeGroupMember d =>
      cases h
      exact filter_sublist
    | _ => exact absurd rfl hto

theorem keeps_of_effect {x : q.Reply} (hinv : WithinLimits s) (h : q.effect answer s = some (x, s'))
    (hq : AddsNobody q) : withRoom.Keeps n c s s' := by
  by_cases hcr : ∃ d g, q = .createGroupWithCreator d g
  · obtain ⟨d, g, rfl⟩ := hcr
    simp only [GroupStatement.effect] at h
    split at h
    · rename_i hno
      cases h
      refine ⟨⟨(fun h => by cases h), fun g' hg' => ?_, nodup_singleton _⟩, fun _ _ => id, fun _ _ _ _ _ hs => ?_⟩
      · cases hg'
        exact hq
      · rw [hno] at hs
        cases hs
    · cases h
  · have hne : ∀ d g, q ≠ .createGroupWithCreator d g := fun d g heq => hcr ⟨d, g, heq⟩
    have hma := maxMembers_of_effect h hne
    have hsu := sublist_of_effect h hq hne
    refine ⟨hinv.of_sublist hma hsu, fun _ _ => id, fun _ _ _ _ _ hs => ⟨?_, fun m hm => hsu.subset hm⟩⟩
    have his := congrArg Option.isSome hma
    rw [isSome_map, isSome_map] at his
    exact his.trans hs

theorem keeps_of_exec {input : Input Answer} {r : Option q.Reply} (hinv : WithinLimits s)
    (h : directoryExec n q input s = some (r, s')) (hq : AddsNobody q) : withRoom.Keeps n c s s' := by
  rcases failed_or_effect h with ⟨rfl, -⟩ | ⟨x, he, -⟩
  · exact .refl hinv
  · exact keeps_of_effect hinv he hq

theorem addsNobody_of_mayAsk (hc : ¬ c.IsAccept) (hq : c.MayAsk q) : AddsNobody q := by
  cases q with
  | insertGroupMember d leaf =>
    rcases hq with hq | hq
    · exact hq.elim
    · cases c with
      | acceptGroupInvite _ _ => exact absurd trivial hc
      | _ => exact hq.elim
  | createGroupWithCreator d g =>
    rcases hq with hq | hq
    · exact hq.elim
    · cases c with
      | createGroup _ _ => exact hq.2.2.2
      | _ => exact hq.elim
  | _ => trivial

theorem safe_nobody {α : Type} {p : GroupCall α} {post : Except Status α → Directory → Prop}
    (hpo : ∀ r s, post r s) (hp : p.run.Asks AddsNobody) : withRoom.Safe directoryExec n c p.run post s := by
  refine Discipline.safe_of_keeps (fun _ => True) (fun _ _ _ _ => trivial) ?_ (fun r s _ => hpo r s) hp trivial
  intro q input s r s' hq hinv _ _ he
  exact ⟨keeps_of_exec hinv he hq, trivial⟩

end

/-! ### An acceptance -/

section

variable {n : Nat} {c : GroupOp} {d : String} {req : AcceptRequest} {s s' : Directory}

def Exists (s : Directory) : Prop := s.group.isSome

theorem Exists.stable (hc : c.IsAccept) (h : Exists s) (hre : withRoom.rely n c s s') : Exists s' :=
  (hre hc h).1

structure Beyond (leaf : Nat) (s : Directory) : Prop where
  exist : Exists s
  beyond : ∀ m ∈ s.members, m.leafIndex < leaf

theorem Beyond.stable {leaf : Nat} (hc : c.IsAccept) (h : Beyond leaf s) (hre : withRoom.rely n c s s') :
    Beyond leaf s' := by
  obtain ⟨hs, hsu⟩ := hre hc h.exist
  exact ⟨hs, fun m hm => h.beyond m (hsu m hm)⟩

theorem beyond_nextLeafIndex (h : Exists s) : Beyond s.nextLeafIndex s := by
  refine ⟨h, fun m hm => ?_⟩
  have hme : m.leafIndex ∈ s.members.map Member.leafIndex := mem_map_of_mem hm
  unfold Directory.nextLeafIndex
  cases hma : (s.members.map Member.leafIndex).max? with
  | none =>
    rw [List.max?_eq_none_iff.mp hma] at hme
    cases hme
  | some leaf => exact Nat.lt_succ_of_le ((List.max?_eq_some_iff.mp hma).2 _ hme)

theorem safe_checkAcceptance (hc : c.IsAccept) : withRoom.Safe directoryExec n c (checkAcceptance d req).run
      (endsIn (fun _ => True) fun _ => Exists) s := by
  have hr : ∀ q : GroupStatement, q.Reads → q.Reads := fun _ => id
  have hre : ∀ {α : Type} {p : GroupCall α} {s : Directory}, p.run.Asks GroupStatement.Reads → Exists s →
      withRoom.Safe directoryExec n c p.run (endsIn (fun _ => True) fun _ => Exists) s :=
    fun hp hs => safe_reads Exists (Exists.stable hc) (fun _ => trivial) quiet_of_reads hp hs
  refine safe_then (fun _ _ => True) (safe_reads (fun _ => True) (fun _ _ => trivial) id quiet_of_reads
    (asks_loadInvite hr) trivial) fun invite s _ => ?_
  -- Whoever has read the epoch knows that the group exists.
  refine safe_then (fun _ => Exists) (safe_read (fun _ => True) (fun _ _ => trivial) id trivial ?_) fun e s hs => ?_
  · intro input s r s' _ _ he
    refine ⟨quiet_of_reads (q := .getGroupEpoch) trivial he, ?_⟩
    rintro e rfl
    obtain ⟨g, hg, -⟩ := map_eq_some_iff.mp (effect_of_reply he)
    exact isSome_iff_exists.mpr ⟨g, hg⟩
  · refine safe_then _ (hre asks_ensure hs) fun _ s hs => ?_
    refine safe_then _ (hre asks_ensure hs) fun _ s hs => ?_
    refine safe_then _ (hre asks_ensure hs) fun _ s hs => ?_
    refine safe_then _ (hre (asks_verifyAdminProof hr) hs) fun _ s hs => ?_
    refine safe_then _ (hre (asks_ensureOwnDevice hr) hs) fun _ s hs => ?_
    exact safe_then _ (hre (asks_ensureNotMember hr) hs) fun _ s hs => hs

theorem withinLimits_insert {leaf : Nat} (h : WithinLimits s) (hs : Beyond leaf s) (hro : HasRoom s) :
    WithinLimits { s with members := s.members ++ [⟨d, leaf⟩] } := by
  obtain ⟨g, hg⟩ := isSome_iff_exists.mp hs.exist
  refine ⟨fun hno => ?_, fun g' hg' => ?_, ?_⟩
  · have hn' : s.group = none := hno
    rw [hg] at hn'
    cases hn'
  · rw [length_append, length_singleton]
    exact hro g' hg'
  · show ((s.members ++ [(⟨d, leaf⟩ : Member)]).map Member.leafIndex).Nodup
    rw [map_append]
    refine List.Nodup.append h.leaves (nodup_singleton leaf) fun l hl hl' => ?_
    obtain ⟨m, hm, rfl⟩ := mem_map.mp hl
    exact absurd (mem_singleton.mp hl') (Nat.ne_of_lt (hs.beyond m hm))

theorem safe_insertGroupMember {leaf : Nat} (hc : c.IsAccept) (hs : Beyond leaf s) :
    withRoom.Safe directoryExec n c (internal (.insertGroupMember d leaf) "Failed to add member").run
      (endsIn (fun _ => True) fun _ _ => True) s := by
  refine safe_demand fun s₁ input r s' hinv hre hca hexe => ?_
  have hke : withRoom.Keeps n c s₁ s' := by
    rcases failed_or_effect hexe with ⟨rfl, -⟩ | ⟨x, he, -⟩
    · exact .refl hinv
    · simp only [GroupStatement.effect] at he
      split at he
      · cases he
        exact ⟨withinLimits_insert hinv (hs.stable hc hre) hca, fun _ _ => id,
          fun _ _ _ hco hc' => absurd ⟨hc, hc'⟩ hco⟩
      · cases he
  refine ⟨hke, ?_⟩
  cases r <;> trivial

theorem safe_acceptGroupInvite (hc : c.IsAccept) :
    withRoom.Safe directoryExec n c (acceptGroupInvite d req).run (endsIn (fun _ => True) fun _ _ => True) s := by
  refine safe_then _ (safe_checkAcceptance hc) fun invite s hs => ?_
  refine safe_then (fun leaf => Beyond leaf) (safe_read Exists (Exists.stable hc) (fun _ => trivial) hs ?_)
    fun leaf s hs => ?_
  · intro input s r s' _ hs he
    refine ⟨quiet_of_reads (q := .getNextGroupLeafIndex) trivial he, ?_⟩
    rintro leaf rfl
    have hef := effect_of_reply he
    cases hef
    exact beyond_nextLeafIndex hs
  · refine safe_then _ (safe_reads (Beyond leaf) (Beyond.stable hc) (fun _ => trivial) quiet_of_reads
      (asks_demand trivial) hs) fun now s hs => ?_
    refine safe_then _ (safe_insertGroupMember hc hs) fun _ s _ => ?_
    refine safe_nobody (fun r s => ?_) ?_
    · cases r <;> trivial
    · exact asks_next trivial fun _ => asks_guard fun _ =>
        asks_next trivial fun _ => asks_next trivial fun _ => trivial

theorem safe_body : withRoom.Safe directoryExec n c (c.body s) (withRoom.Ends (fun _ _ _ s => s) n c) s := by
  by_cases hc : c.IsAccept
  · cases c with
    | acceptGroupInvite d req => exact (safe_acceptGroupInvite hc).mono fun _ _ _ hinv => .refl hinv
    | _ => exact hc.elim
  · exact safe_nobody (fun _ _ hinv => .refl hinv) ((asks_call c).mono fun _ => addsNobody_of_mayAsk hc)

end

/-! ### Runs -/

theorem happen_withRoom : withRoom.Bears GroupEvent.happen := by
  intro e s hinv
  cases e with
  | tick | sweep => exact ⟨⟨hinv.missing, hinv.room, hinv.leaves⟩, fun _ => id, fun _ _ _ h => ⟨h, fun _ => id⟩⟩

/-- **A group never has more members than it may have, and no two on one leaf**, if its acceptances
come one after the other and find room. -/
theorem members_within_limits {s : Directory} {as : List GroupAction} {pool : DirectoryPool}
    (hs : WithinLimits s)
    (hcareful : Along directoryStep withRoom.Careful (.init s) as)
    (hrun : run directoryStep (.init s) as = some pool) :
    (∀ g, pool.store.group = some g → pool.store.members.length ≤ g.maxMembers) ∧
      (pool.store.members.map Member.leafIndex).Nodup := by
  have hinv : withRoom.inv pool.store :=
    Discipline.run_invariant (fun _ _ _ _ _ _ => safe_body) happen_withRoom hs (fun _ => trivial) hcareful hrun
  exact ⟨hinv.room, hinv.leaves⟩

attribute [reducible] withRoom

instance decidableCare (c : GroupOp) (q : GroupStatement) (input : Input Answer) (s : Directory) :
    Decidable (withRoom.care c q input s) := by
  apply @GroupStatement.casesOn (fun q => Decidable (withRoom.care c q input s)) q <;> intros <;> infer_instance

def createAndInvite : List GroupAction :=
  .start (.createGroup "a" ⟨[1], 2, 0, false⟩) :: proceed 0 4 ++
    .start (.inviteToGroup "a" ⟨"i", [1], [1], 0, 0⟩) :: proceedFor "b" 0 10 ++
    .start (.inviteToGroup "a" ⟨"j", [1], [2], 0, 0⟩) :: proceedFor "c" 0 10

theorem withinLimits_emptyDirectory : WithinLimits emptyDirectory := ⟨fun _ => rfl, nofun, .nil⟩

theorem members_within_limits_demo : ∃ pool, run directoryStep (.init emptyDirectory)
        (createAndInvite ++ .start (.acceptGroupInvite "b" ⟨"i", [2], [3]⟩) :: proceed 0 11) = some pool ∧
      pool.store.members = [⟨"a", 0⟩, ⟨"b", 1⟩] ∧
        (∀ g, pool.store.group = some g → pool.store.members.length ≤ g.maxMembers) ∧
          (pool.store.members.map Member.leafIndex).Nodup :=
  reaches_with (by decide +kernel) fun _ hrun _ =>
    members_within_limits withinLimits_emptyDirectory (by decide +kernel) hrun

def acceptTwice : List GroupAction :=
  createAndInvite ++ .start (.acceptGroupInvite "b" ⟨"i", [2], [3]⟩) ::
    .start (.acceptGroupInvite "c" ⟨"j", [2], [3]⟩) :: proceed 0 7 ++ proceed 1 8 ++ proceed 0 1

/-- **Two acceptances bring a group over its limit, with two members on one leaf.** -/
theorem acceptances_exceed_limits :
    ∃ pool, run directoryStep (.init emptyDirectory) acceptTwice = some pool ∧
      pool.store.group.map Group.maxMembers = some 2 ∧ pool.store.members = [⟨"a", 0⟩, ⟨"c", 1⟩, ⟨"b", 1⟩] :=
  reaches _ _ _ _ (by decide +kernel)

end ConstructServer.Groups.Capacity
