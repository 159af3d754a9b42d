import ConstructServer.Groups.Directory

/-!
# The owner of a group

Only the transfer of a group is one transaction. A delegation asks whether the device is a member
and not the creator and grants the role later; a removal deletes the member first and the role in a
second statement. A device can so be removed after the group has been handed over to it, or get a
role after it has left, and while an admin is removed there is an admin who is no member. If no
delegation overlaps with a transfer, a removal or a leave, and the devices that are removed or leave
hold no role, the group always has its one owner.
-/

namespace ConstructServer.Groups.Ownership

open Calls Queue Machine List Option Function

def IsCreator (s : Directory) (deviceId : String) : Prop := ∃ a ∈ s.admins deviceId, a.isCreator = true

structure Owned (s : Directory) : Prop where
  owner : ∃ d, s.IsMember d ∧ (∃ a ∈ s.admins d, a.isCreator = true ∧ a.role = .full) ∧
    ∀ d', IsCreator s d' → d' = d
  admins : ∀ d, s.admins d ≠ none → s.IsMember d

/-- Before the group is created there is nothing, and then it has its owner. -/
structure OwnedOnceCreated (s : Directory) : Prop where
  missing : s.group = none → s.members = [] ∧ ∀ d, s.admins d = none
  owned : s.group ≠ none → Owned s

def Delegates : GroupOp → Prop
  | .delegateAdmin .. => True
  | _ => False

def Removes : GroupOp → Prop
  | .leaveGroup .. | .removeMember .. => True
  | _ => False

def Governs : GroupOp → Prop
  | .leaveGroup .. | .removeMember .. | .transferOwnership .. => True
  | _ => False

structure ForDelegation (s s' : Directory) : Prop where
  group : s'.group ≠ none
  members : ∀ d, s.IsMember d → s'.IsMember d
  admins : ∀ d, ¬ IsCreator s d → ¬ IsCreator s' d

structure ForRemoval (s s' : Directory) : Prop where
  group : s'.group ≠ none
  admins : ∀ d, s.admins d = none → s'.admins d = none

/-- No delegation overlaps with a transfer, a removal or a leave, and no device is taken out that
has a role. -/
def orderly : Discipline GroupStatement (Input Answer) Directory GroupOp where
  inv := OwnedOnceCreated
  fresh _ _ := True
  rely _ c s s' := s.group ≠ none → (Delegates c → ForDelegation s s') ∧ (Removes c → ForRemoval s s') ∧
    s'.group ≠ none
  begins _ _ := True
  compat c c' := ¬ (Delegates c ∧ Governs c') ∧ ¬ (Governs c ∧ Delegates c')
  care _ q _ s := match q with
    | .removeGroupMember d => s.admins d = none
    | _ => True
  refl _ _ _ h := ⟨fun _ => ⟨h, fun _ => id, fun _ => id⟩, fun _ => ⟨h, fun _ => id⟩, h⟩
  trans h h' hgroup := by
    obtain ⟨hdelegation, hremoval, hgroup₁⟩ := h hgroup
    obtain ⟨hdelegation', hremoval', hgroup₂⟩ := h' hgroup₁
    refine ⟨fun hc => ⟨hgroup₂, fun d hd => ?_, fun d hd => ?_⟩, fun hc => ⟨hgroup₂, fun d hd => ?_⟩, hgroup₂⟩
    · exact (hdelegation' hc).members d ((hdelegation hc).members d hd)
    · exact (hdelegation' hc).admins d ((hdelegation hc).admins d hd)
    · exact (hremoval' hc).admins d ((hremoval hc).admins d hd)

/-! ### Statements -/

section

variable {n : Nat} {c : GroupOp} {q : GroupStatement} {s s' : Directory} {d : String}

theorem isCreator_congr (h : s'.admins = s.admins) : IsCreator s' d ↔ IsCreator s d := by
  unfold IsCreator
  rw [h]

/-- The members can only become more, and the roles stay. -/
structure Grows (s s' : Directory) : Prop where
  group : s'.group = none ↔ s.group = none
  missing : s.group = none → s'.members = s.members
  members : ∀ d, s.IsMember d → s'.IsMember d
  admins : s'.admins = s.admins

theorem Grows.owned (h : Grows s s') (hinv : OwnedOnceCreated s) : OwnedOnceCreated s' := by
  refine ⟨fun hno => ?_, fun hs => ?_⟩
  · have hno := h.group.mp hno
    exact ⟨(h.missing hno).trans (hinv.missing hno).1, h.admins ▸ (hinv.missing hno).2⟩
  · obtain ⟨⟨d, hd, hcr, hu⟩, hro⟩ := hinv.owned fun hno => hs (h.group.mpr hno)
    exact ⟨⟨d, h.members d hd, h.admins ▸ hcr, fun d' hd' => hu d' ((isCreator_congr h.admins).mp hd')⟩,
      fun d' hd' => h.members d' (hro d' (h.admins ▸ hd'))⟩

theorem Grows.rely (h : Grows s s') : orderly.rely n c s s' := by
  intro hs
  have hs' : s'.group ≠ none := fun hno => hs (h.group.mp hno)
  exact ⟨fun _ => ⟨hs', h.members, fun d' hd' hcr => hd' ((isCreator_congr h.admins).mp hcr)⟩,
    fun _ => ⟨hs', fun d' hd' => h.admins ▸ hd'⟩, hs'⟩

theorem Grows.keeps (h : Grows s s') (hinv : OwnedOnceCreated s) : orderly.Keeps n c s s' :=
  ⟨h.owned hinv, fun _ _ => id, fun _ _ _ _ => h.rely⟩

def Spares : GroupStatement → Prop
  | .removeGroupMember _ | .removeGroupAdminRole _ | .upsertGroupAdminRole .. | .transferGroupOwnership .. => False
  | _ => True

variable {answer : Answer}

theorem group_none_of_effect {x : q.Reply} (h : q.effect answer s = some (x, s'))
    (hq : ∀ d g, q ≠ .createGroupWithCreator d g) : s'.group = none ↔ s.group = none := by
  rw [← map_eq_none_iff, maxMembers_of_effect h hq, map_eq_none_iff]

theorem keeps_of_create {g : Group} {x : Unit}
    (h : (GroupStatement.createGroupWithCreator d g).effect answer s = some (x, s')) : orderly.Keeps n c s s' := by
  simp only [GroupStatement.effect] at h
  split at h
  · rename_i hno
    cases h
    refine ⟨⟨(fun h => by cases h), fun _ => ⟨⟨d, ⟨⟨d, 0⟩, mem_singleton_self _, rfl⟩, ⟨⟨.full, true⟩, ?_, rfl, rfl⟩, ?_⟩, ?_⟩⟩,
      fun _ _ => id, fun _ _ _ _ hs => absurd hno hs⟩
    · show update (fun _ => none) d (some (⟨.full, true⟩ : Admin)) d = some ⟨.full, true⟩
      rw [update_self]
    · rintro d' ⟨a, ha, -⟩
      by_contra hne
      have ha' : update (fun _ => none) d (some ⟨.full, true⟩) d' = some a := ha
      rw [update_of_ne hne] at ha'
      cases ha'
    · intro d' hd'
      by_cases hne : d' = d
      · subst hne
        exact ⟨⟨d', 0⟩, mem_singleton_self _, rfl⟩
      · have hn' : update (fun _ => none) d (some (⟨.full, true⟩ : Admin)) d' = none :=
          update_of_ne hne _ _
        exact absurd hn' hd'
  · cases h

theorem keeps_of_spares {x : q.Reply} (hinv : OwnedOnceCreated s) (hq : Spares q)
    (h : q.effect answer s = some (x, s')) : orderly.Keeps n c s s' := by
  by_cases hcr : ∃ d g, q = .createGroupWithCreator d g
  · obtain ⟨d, g, rfl⟩ := hcr
    exact keeps_of_create h
  · have hne : ∀ d g, q ≠ .createGroupWithCreator d g := fun d g heq => hcr ⟨d, g, heq⟩
    have ha : q.touches .admins = false := by
      cases q with
      | createGroupWithCreator d g => exact absurd rfl (hne d g)
      | removeGroupAdminRole _ | upsertGroupAdminRole _ _ | transferGroupOwnership _ _ => exact hq.elim
      | _ => rfl
    have hf := frame_of_effect h
    by_cases hme : q.touches .members = false
    · have hs := hf.members hme
      refine Grows.keeps ⟨group_none_of_effect h hne, fun _ => hs, fun d hd => ?_, hf.admins ha⟩ hinv
      unfold Directory.IsMember
      rw [hs]
      exact hd
    · cases q with
      | createGroupWithCreator d g => exact absurd rfl (hne d g)
      | removeGroupMember _ => exact hq.elim
      | insertGroupMember d leaf =>
        simp only [GroupStatement.effect] at h
        split at h
        · rename_i hso
          cases h
          refine Grows.keeps ⟨Iff.rfl, fun hno => ?_, fun d' hd' => ?_, rfl⟩ hinv
          · rw [hno] at hso
            cases hso.1
          · obtain ⟨m, hm, rfl⟩ := hd'
            exact ⟨m, mem_append_left _ hm, rfl⟩
        · cases h
      | _ => exact absurd rfl hme

theorem keeps_of_removeGroupMember (hinv : OwnedOnceCreated s) (hc : Removes c) (hd : s.admins d = none) :
    orderly.Keeps n c s { s with members := s.members.filter fun m => decide (m.deviceId ≠ d) } := by
  have hst : ∀ d', s.admins d' ≠ none → s.IsMember d' →
      Directory.IsMember { s with members := s.members.filter fun m => decide (m.deviceId ≠ d) } d' := by
    rintro _ hro ⟨m, hm, rfl⟩
    refine ⟨m, mem_filter.mpr ⟨hm, decide_eq_true fun heq => hro ?_⟩, rfl⟩
    rw [heq]
    exact hd
  have hg : Governs c := by
    cases c with
    | leaveGroup _ _ | removeMember _ _ _ => trivial
    | _ => exact hc.elim
  refine ⟨⟨fun hno => ?_, fun hs => ?_⟩, fun _ _ => id, fun _ c' _ hco hs => ?_⟩
  · obtain ⟨hme, had⟩ := hinv.missing hno
    refine ⟨?_, had⟩
    show s.members.filter _ = []
    rw [hme]
    rfl
  · obtain ⟨⟨o, ho, hcr, hu⟩, hr⟩ := hinv.owned hs
    refine ⟨⟨o, hst o (fun hno => ?_) ho, hcr, hu⟩, fun d' hd' => hst d' hd' (hr d' hd')⟩
    obtain ⟨a, ha, -⟩ := hcr
    rw [hno] at ha
    cases ha
  · exact ⟨fun hc' => absurd ⟨hg, hc'⟩ hco.2, fun _ => ⟨hs, fun _ => id⟩, hs⟩

theorem keeps_of_removeGroupAdminRole (hinv : OwnedOnceCreated s) (hd : s.admins d = none) :
    orderly.Keeps n c s { s with admins := update s.admins d none } := by
  have hs : update s.admins d none = s.admins := by
    rw [← hd]
    exact update_eq_self d s.admins
  exact Grows.keeps ⟨Iff.rfl, fun _ => rfl, fun _ => id, hs⟩ hinv

theorem keeps_of_upsert {role : AdminRole} (hinv : OwnedOnceCreated s) (hc : Delegates c)
    (hme : s.IsMember d)
    (hcr : ¬ IsCreator s d) :
    orderly.Keeps n c s { s with admins := update s.admins d (some
      { (s.admins d).getD ⟨role, false⟩ with role }) } := by
  have hn : ((s.admins d).getD ⟨role, false⟩).isCreator = false := by
    cases ha : s.admins d with
    | none => rfl
    | some a =>
      cases hb : a.isCreator with
      | false => exact hb
      | true => exact absurd ⟨a, ha, hb⟩ hcr
  have hsa : ∀ {d'}, IsCreator { s with admins := update s.admins d (some
      { (s.admins d).getD ⟨role, false⟩ with role }) } d' ↔ IsCreator s d' := by
    intro d'
    by_cases hne : d' = d
    · subst hne
      refine ⟨?_, fun h => absurd h hcr⟩
      rintro ⟨a, ha, htr⟩
      have ha' := Option.some.inj ((update_self d' _ s.admins).symm.trans ha)
      rw [← ha'] at htr
      exact absurd (hn.symm.trans htr) Bool.false_ne_true
    · unfold IsCreator
      show (∃ a ∈ update s.admins d _ d', _) ↔ _
      rw [update_of_ne hne]
  refine ⟨⟨fun hno => ?_, fun hs => ?_⟩, fun _ _ => id, fun _ c' _ hco hs => ?_⟩
  · obtain ⟨m, hm, -⟩ := hme
    rw [(hinv.missing hno).1] at hm
    cases hm
  · obtain ⟨⟨o, ho, ⟨a, ha, hf, hfu⟩, hu⟩, hro⟩ := hinv.owned hs
    have hne : o ≠ d := by
      rintro rfl
      exact hcr ⟨a, ha, hf⟩
    refine ⟨⟨o, ho, ⟨a, ?_, hf, hfu⟩, fun d' hd' => hu d' (hsa.mp hd')⟩, fun d' hd' => ?_⟩
    · exact (update_of_ne hne _ _).trans ha
    · by_cases hne' : d' = d
      · exact hne' ▸ hme
      · refine hro d' fun hno => hd' ?_
        exact (update_of_ne hne' _ _).trans hno
  · have hre : ¬ Removes c' := by
      intro hc'
      cases c' with
      | leaveGroup _ _ | removeMember _ _ _ => exact hco.1 ⟨hc, trivial⟩
      | _ => exact hc'
    exact ⟨fun _ => ⟨hs, fun _ => id, fun d' hd' h => hd' (hsa.mp h)⟩, fun hc' => absurd hc' hre, hs⟩

theorem keeps_of_transfer {o : String} (hinv : OwnedOnceCreated s) (hc : Governs c)
    (h : TransferEligible s o d) :
    orderly.Keeps n c s { s with admins := transferred s.admins o d } := by
  obtain ⟨hne, ⟨a, ha, hf⟩, ⟨b, hb, hfu⟩⟩ := h
  have hn : transferred s.admins o d d = some ⟨.full, true⟩ := update_self _ _ _
  have hol : transferred s.admins o d o = some { a with isCreator := false } := by
    unfold transferred
    rw [update_of_ne hne, update_self, mem_def.mp ha]
    rfl
  have hot : ∀ {d'}, d' ≠ d → d' ≠ o → transferred s.admins o d d' = s.admins d' := by
    intro d' hd ho
    unfold transferred
    rw [update_of_ne hd, update_of_ne ho]
  have hno : ∀ {d'}, transferred s.admins o d d' = none ↔ s.admins d' = none := by
    intro d'
    by_cases hd : d' = d
    · subst hd
      rw [hn, mem_def.mp hb]
      exact ⟨nofun, nofun⟩
    · by_cases ho : d' = o
      · subst ho
        rw [hol, mem_def.mp ha]
        exact ⟨nofun, nofun⟩
      · rw [hot hd ho]
  refine ⟨⟨fun hmi => ?_, fun hs => ?_⟩, fun _ _ => id, fun _ c' _ hco hs => ?_⟩
  · have ha' := (hinv.missing hmi).2 o
    rw [mem_def.mp ha] at ha'
    cases ha'
  · obtain ⟨⟨o', -, -, hu⟩, hro⟩ := hinv.owned hs
    have ho : o = o' := hu o ⟨a, ha, hf⟩
    refine ⟨⟨d, hro d ?_, ⟨_, hn, rfl, rfl⟩, ?_⟩, fun d' hd' => hro d' fun h => hd' (hno.mpr h)⟩
    · rw [mem_def.mp hb]
      exact nofun
    · rintro d' ⟨a', ha', hf'⟩
      by_contra hd
      have ha'' : transferred s.admins o d d' = some a' := ha'
      by_cases ho' : d' = o
      · subst ho'
        rw [hol] at ha''
        cases ha''
        cases hf'
      · rw [hot hd ho'] at ha''
        exact ho' ((hu d' ⟨a', ha'', hf'⟩).trans ho.symm)
  · exact ⟨fun hc' => absurd ⟨hc, hc'⟩ hco.2, fun _ => ⟨hs, fun d' h => hno.mpr h⟩, hs⟩

end

/-! ### Calls -/

section

variable {n : Nat} {c : GroupOp} {q : GroupStatement} {s s' : Directory} {d : String} {refusal : Status}

theorem safe_spares {α : Type} {p : GroupCall α} {post : Except Status α → Directory → Prop}
    (hpo : ∀ r s, post r s) (hp : p.run.Asks Spares) : orderly.Safe directoryExec n c p.run post s := by
  refine Discipline.safe_of_keeps (fun _ => True) (fun _ _ _ _ => trivial) ?_ (fun r s _ => hpo r s) hp trivial
  intro q input s r s' hq hinv _ _ he
  rcases failed_or_effect he with ⟨rfl, -⟩ | ⟨x, hef, -⟩
  · exact ⟨.refl hinv, trivial⟩
  · exact ⟨keeps_of_spares hinv hq hef, trivial⟩

theorem spares_of_reads : ∀ q : GroupStatement, q.Reads → Spares q := by
  intro q hq
  cases q with
  | removeGroupMember _ | removeGroupAdminRole _ | upsertGroupAdminRole _ _ | transferGroupOwnership _ _ => exact hq
  | _ => trivial

theorem spares_of_mayAsk (hde : ¬ Delegates c) (hg : ¬ Governs c) (hq : c.MayAsk q) : Spares q := by
  rcases hq with hq | hq
  · exact spares_of_reads q hq
  · cases c with
    | delegateAdmin _ _ _ => exact absurd trivial hde
    | leaveGroup _ _ | removeMember _ _ _ | transferOwnership _ _ => exact absurd trivial hg
    | _ =>
      cases q with
      | removeGroupMember _ | removeGroupAdminRole _ | upsertGroupAdminRole _ _ | transferGroupOwnership _ _ =>
        exact hq
      | _ => trivial

def Created (s : Directory) : Prop := s.group ≠ none

theorem Created.stable (h : Created s) (hre : orderly.rely n c s s') : Created s' := (hre h).2.2

theorem created_of_isMember (hinv : OwnedOnceCreated s) (h : s.IsMember d) : Created s := by
  intro hno
  obtain ⟨m, hm, -⟩ := h
  rw [(hinv.missing hno).1] at hm
  cases hm

theorem safe_ensureMember {K : Directory → Prop} (hK : ∀ {s}, s.IsMember d → Created s → K s) :
    orderly.Safe directoryExec n c (ensureMember d refusal).run (endsIn (fun _ => True) fun _ => K) s := by
  refine safe_then (fun isMember s => isMember = true → K s)
    (safe_read (fun _ => True) (fun _ _ => trivial) id trivial ?_) fun isMember s hs => ?_
  · intro input s r s' hinv _ he
    refine ⟨quiet_of_reads (q := .isGroupMember d) trivial he, ?_⟩
    rintro isMember rfl htr
    have hef := effect_of_reply he
    cases hef
    have hme : s.IsMember d := of_decide_eq_true htr
    exact hK hme (created_of_isMember hinv hme)
  · exact safe_ensure hs fun _ => trivial

theorem safe_created {α : Type} {p : GroupCall α} (hp : p.run.Asks GroupStatement.Reads) (hs : Created s) :
    orderly.Safe directoryExec n c p.run (endsIn (fun _ => True) fun _ => Created) s :=
  safe_reads Created Created.stable (fun _ => trivial) quiet_of_reads hp hs

theorem safe_removeDevice (hc : Removes c) (hs : Created s) :
    orderly.Safe directoryExec n c (removeDevice d).run (endsIn (fun _ => True) fun _ _ => True) s := by
  have htr : ∀ {α : Type} {r : Except Status α} {s : Directory},
      endsIn (fun _ : Directory => True) (fun _ _ => True) r s := by
    intro α r s
    cases r <;> trivial
  refine safe_then (fun _ s => Created s ∧ s.admins d = none) ?_ fun _ s hs => ?_
  · refine safe_demand fun s₁ input r s' hinv hre hca he => ?_
    have hs₁ := hs.stable hre
    have hca : s₁.admins d = none := hca
    rcases failed_or_effect he with ⟨rfl, rfl⟩ | ⟨x, hef, -⟩
    · exact ⟨.refl hinv, trivial⟩
    · cases hef
      refine ⟨keeps_of_removeGroupMember hinv hc hca, ?_⟩
      cases r with
      | none => trivial
      | some _ => exact ⟨hs₁, hca⟩
  · refine safe_then (fun _ _ => True) ?_ fun _ s _ => trivial
    refine safe_demand fun s₁ input r s' hinv hre _ he => ?_
    have hno := ((hre hs.1).2.1 hc).admins d hs.2
    rcases failed_or_effect he with ⟨rfl, rfl⟩ | ⟨x, hef, -⟩
    · exact ⟨.refl hinv, trivial⟩
    · cases hef
      exact ⟨keeps_of_removeGroupAdminRole hinv hno, htr⟩

theorem safe_leaveGroup {proposal : Bytes} (hc : Removes c) :
    orderly.Safe directoryExec n c (leaveGroup d proposal).run (endsIn (fun _ => True) fun _ _ => True) s := by
  have hre : ∀ q : GroupStatement, q.Reads → q.Reads := fun _ => id
  refine safe_then (fun _ _ => True) (safe_reads (fun _ => True) (fun _ _ => trivial) id quiet_of_reads
    (asks_ensureNotDissolved hre) trivial) fun _ s _ => ?_
  refine safe_then _ (safe_ensureMember fun _ => id) fun _ s hs => ?_
  refine safe_then _ (safe_created (asks_ensureNotCreator hre) hs) fun _ s hs => ?_
  refine safe_then _ (safe_created asks_ensure hs) fun _ s hs => ?_
  refine safe_then _ (safe_created (asks_demand trivial) hs) fun now s hs => ?_
  refine safe_then _ (safe_removeDevice hc hs) fun _ s _ => ?_
  refine safe_spares (fun r s => ?_) (asks_next trivial fun _ => trivial)
  cases r <;> trivial

theorem safe_removeMember {target : String} {proposal : Bytes} (hc : Removes c) :
    orderly.Safe directoryExec n c (removeMember d target proposal).run
      (endsIn (fun _ => True) fun _ _ => True) s := by
  have hre : ∀ q : GroupStatement, q.Reads → q.Reads := fun _ => id
  have hr : ∀ {α : Type} {p : GroupCall α} {s : Directory}, p.run.Asks GroupStatement.Reads →
      orderly.Safe directoryExec n c p.run (endsIn (fun _ => True) fun _ _ => True) s :=
    fun hp => safe_reads (fun _ => True) (fun _ _ => trivial) id quiet_of_reads hp trivial
  refine safe_then _ (hr (asks_ensureAdmin hre)) fun _ s _ => ?_
  refine safe_then _ (hr (asks_verifyAdminProof hre)) fun _ s _ => ?_
  refine safe_then _ (hr (asks_ensureNotDissolved hre)) fun _ s _ => ?_
  refine safe_then _ (safe_ensureMember fun _ => id) fun _ s hs => ?_
  refine safe_then _ (safe_created (asks_ensureNotCreator hre) hs) fun _ s hs => ?_
  refine safe_then _ (safe_created asks_ensure hs) fun _ s hs => ?_
  refine safe_then _ (safe_created (asks_demand trivial) hs) fun now s hs => ?_
  refine safe_then _ (safe_removeDevice hc hs) fun _ s _ => ?_
  refine safe_spares (fun r s => ?_) (asks_next trivial fun _ => asks_next trivial fun _ => trivial)
  cases r <;> trivial

structure Present (d : String) (s : Directory) : Prop where
  created : Created s
  member : s.IsMember d

theorem Present.stable (hc : Delegates c) (h : Present d s) (hre : orderly.rely n c s s') :
    Present d s' := by
  obtain ⟨hd, -, hcr⟩ := hre h.created
  exact ⟨hcr, (hd hc).members d h.member⟩

/-- The device is a member and not the creator. -/
structure Eligible (d : String) (s : Directory) : Prop where
  present : Present d s
  creator : ¬ IsCreator s d

theorem Eligible.stable (hc : Delegates c) (h : Eligible d s) (hre : orderly.rely n c s s') :
    Eligible d s' :=
  ⟨h.present.stable hc hre, ((hre h.present.created).1 hc).admins d h.creator⟩

theorem safe_ensureNotCreator (hc : Delegates c) (hs : Present d s) :
    orderly.Safe directoryExec n c (ensureNotCreator d refusal).run
      (endsIn (fun _ => True) fun _ => Eligible d) s := by
  refine safe_then (fun access s => access.1 = false → Eligible d s) ?_ fun access s hs =>
    safe_ensure hs fun _ => trivial
  refine safe_then (fun admin s => Present d s ∧ s.admins d = admin)
    (safe_read (Present d) (Present.stable hc) (fun _ => trivial) hs ?_) fun admin s hs => ?_
  · intro input s r s' _ hs he
    refine ⟨quiet_of_reads (q := .getGroupAdminAccess d) trivial he, ?_⟩
    rintro admin rfl
    have hef := effect_of_reply he
    cases hef
    exact ⟨hs, rfl⟩
  · obtain ⟨hp, had⟩ := hs
    cases admin with
    | none =>
      rintro -
      refine ⟨hp, ?_⟩
      rintro ⟨a, ha, -⟩
      rw [had] at ha
      cases ha
    | some a =>
      intro hf
      refine ⟨hp, ?_⟩
      rintro ⟨b, hb, htr⟩
      rw [had] at hb
      cases hb
      exact Bool.false_ne_true (hf.symm.trans htr)

theorem safe_delegateAdmin {target : String} {role : Option AdminRole} (hc : Delegates c) :
    orderly.Safe directoryExec n c (delegateAdmin d target role).run (endsIn (fun _ => True) fun _ _ => True) s := by
  have hre : ∀ q : GroupStatement, q.Reads → q.Reads := fun _ => id
  have hr : ∀ {α : Type} {p : GroupCall α} {s : Directory}, p.run.Asks GroupStatement.Reads →
      orderly.Safe directoryExec n c p.run (endsIn (fun _ => True) fun _ _ => True) s :=
    fun hp => safe_reads (fun _ => True) (fun _ _ => trivial) id quiet_of_reads hp trivial
  refine safe_then _ (hr (asks_ensureAdmin hre)) fun _ s _ => ?_
  refine safe_then _ (hr (asks_verifyAdminProof hre)) fun _ s _ => ?_
  refine safe_then _ (hr (asks_ensureNotDissolved hre)) fun _ s _ => ?_
  refine safe_then (fun _ => Present target) (safe_ensureMember fun hme hcr => ⟨hcr, hme⟩) fun _ s hs => ?_
  refine safe_then (fun _ => Present target) (safe_check (fun _ _ => hs) trivial) fun role s hs => ?_
  refine safe_then _ (safe_ensureNotCreator hc hs) fun _ s hs => ?_
  refine safe_then (fun _ => Eligible target) (safe_reads (Eligible target) (Eligible.stable hc) (fun _ => trivial)
    quiet_of_reads (asks_demand trivial) hs) fun now s hs => ?_
  refine safe_then (fun _ _ => True) (safe_demand fun s₁ input r s' hinv hrel _ hexe => ?_) fun _ s _ => trivial
  have hs₁ := hs.stable hc hrel
  rcases failed_or_effect hexe with ⟨rfl, rfl⟩ | ⟨x, he, -⟩
  · exact ⟨.refl hinv, trivial⟩
  · simp only [GroupStatement.effect] at he
    split at he
    · cases he
      refine ⟨keeps_of_upsert hinv hc hs₁.present.member hs₁.creator, ?_⟩
      cases r <;> trivial
    · cases he

theorem safe_transferOwnership {o : String} :
    orderly.Safe directoryExec n (.transferOwnership o d) (transferOwnership o d).run (fun _ _ => True) s := by
  refine Discipline.safe_of_keeps (fun _ => True) (fun _ _ _ _ => trivial) ?_ (fun _ _ _ => trivial)
    (asks_call (.transferOwnership o d)) trivial
  intro q input s r s' hq hinv _ _ hexe
  refine ⟨?_, trivial⟩
  rcases failed_or_effect hexe with ⟨rfl, -⟩ | ⟨x, he, -⟩
  · exact .refl hinv
  · rcases hq with hq | hq
    · exact keeps_of_spares hinv (spares_of_reads q hq) he
    · cases q with
      | transferGroupOwnership o' d' =>
        obtain ⟨g, -, heq⟩ := map_eq_some_iff.mp he
        split at heq
        · rename_i hel
          cases heq
          exact keeps_of_transfer hinv trivial hel
        · cases heq
          exact .refl hinv
      | _ => exact hq.elim

theorem safe_body : orderly.Safe directoryExec n c (c.body s) (orderly.Ends (fun _ _ _ s => s) n c) s := by
  by_cases hde : Delegates c
  · cases c with
    | delegateAdmin d t role => exact (safe_delegateAdmin hde).mono fun _ _ _ hinv => .refl hinv
    | _ => exact hde.elim
  · by_cases hg : Governs c
    · cases c with
      | leaveGroup d p => exact (safe_leaveGroup (c := .leaveGroup d p) trivial).mono fun _ _ _ hinv => .refl hinv
      | removeMember d t p => exact (safe_removeMember (c := .removeMember d t p) trivial).mono fun _ _ _ hinv => .refl hinv
      | transferOwnership o d => exact safe_transferOwnership.mono fun _ _ _ hinv => .refl hinv
      | _ => exact hg.elim
    · exact safe_spares (fun _ _ hinv => .refl hinv) ((asks_call c).mono fun _ => spares_of_mayAsk hde hg)

end

/-! ### Runs -/

theorem happen_orderly : orderly.Bears GroupEvent.happen := by
  intro e s hinv
  have hg : Grows s (e.happen s) := by
    cases e with
    | tick | sweep => exact ⟨Iff.rfl, fun _ => rfl, fun _ => id, rfl⟩
  exact ⟨hg.owned hinv, fun _ => id, fun _ _ => hg.rely⟩

/-- **A group always has exactly one owner who can act**, if no delegation overlaps with a transfer,
a removal or a leave and the devices that are taken out hold no role. -/
theorem group_keeps_its_owner {s : Directory} {as : List GroupAction} {pool : DirectoryPool}
    (hs : OwnedOnceCreated s) (hcareful : Along directoryStep orderly.Careful (.init s) as)
    (hrun : run directoryStep (.init s) as = some pool) (hcreated : pool.store.group ≠ none) :
    Owned pool.store := by
  have hinv : orderly.inv pool.store :=
    Discipline.run_invariant (fun _ _ _ _ _ _ => safe_body) happen_orderly hs (fun _ => trivial) hcareful hrun
  exact hinv.owned hcreated

instance decidableDelegates : (c : GroupOp) → Decidable (Delegates c) := fun c => by
  apply @GroupOp.casesOn (fun c => Decidable (Delegates c)) c <;> intros <;>
    dsimp only [Delegates] <;> infer_instance

instance decidableGoverns : (c : GroupOp) → Decidable (Governs c) := fun c => by
  apply @GroupOp.casesOn (fun c => Decidable (Governs c)) c <;> intros <;>
    dsimp only [Governs] <;> infer_instance

attribute [reducible] orderly

instance decidableCare (c : GroupOp) (q : GroupStatement) (input : Input Answer) (s : Directory) :
    Decidable (orderly.care c q input s) := by
  apply @GroupStatement.casesOn (fun q => Decidable (orderly.care c q input s)) q <;> intros <;> infer_instance

theorem ownedOnceCreated_emptyDirectory : OwnedOnceCreated emptyDirectory :=
  ⟨fun _ => ⟨rfl, fun _ => rfl⟩, fun h => absurd rfl h⟩

def createWithAdmin : List GroupAction :=
  .start (.createGroup "a" ⟨[1], 16, 0, false⟩) :: proceed 0 4 ++
    .start (.inviteToGroup "a" ⟨"i", [1], [1], 0, 0⟩) :: proceedFor "b" 0 10 ++
    .start (.acceptGroupInvite "b" ⟨"i", [2], [3]⟩) :: proceed 0 11 ++
    .start (.delegateAdmin "a" "b" (some .full)) :: proceed 0 7

theorem group_keeps_its_owner_demo : ∃ pool, run directoryStep (.init emptyDirectory)
        (createWithAdmin ++ .start (.transferOwnership "a" "b") :: proceed 0 6) = some pool ∧
      pool.store.admins "b" = some ⟨.full, true⟩ ∧ Owned pool.store := by
  obtain ⟨pool, hrun, hcreated, hb⟩ := reaches directoryStep (.init emptyDirectory)
    (createWithAdmin ++ .start (.transferOwnership "a" "b") :: proceed 0 6)
    (fun pool => pool.store.group ≠ none ∧ pool.store.admins "b" = some ⟨.full, true⟩) (by decide +kernel)
  exact ⟨pool, hrun, hb, group_keeps_its_owner ownedOnceCreated_emptyDirectory (by decide +kernel) hrun hcreated⟩

def transferDuringLeave : List GroupAction :=
  createWithAdmin ++ .start (.leaveGroup "b" [1]) :: proceed 0 4 ++
    .start (.transferOwnership "a" "b") :: proceed 1 6 ++ proceed 0 3

/-- **A transfer that overlaps with a leave leaves a group without an owner.** -/
theorem leave_takes_the_owner_away :
    ∃ pool, run directoryStep (.init emptyDirectory) transferDuringLeave = some pool ∧
      pool.running = [] ∧ (∃ g, pool.store.group = some g ∧ g.dissolvedAt = none) ∧ ¬ Owned pool.store := by
  obtain ⟨pool, hrun, hidle, hgroup, hnone⟩ := reaches directoryStep (.init emptyDirectory) transferDuringLeave
    (fun pool => pool.running.length = 0 ∧ pool.store.group.map Group.dissolvedAt = some none ∧
      ∀ m ∈ pool.store.members, ∀ a ∈ pool.store.admins m.deviceId, a.isCreator = false) (by decide +kernel)
  refine ⟨pool, hrun, eq_nil_of_length_eq_zero hidle, map_eq_some_iff.mp hgroup, fun howned => ?_⟩
  obtain ⟨d, ⟨m, hm, rfl⟩, ⟨a, ha, htrue, -⟩, -⟩ := howned.owner
  exact Bool.false_ne_true ((hnone m hm a ha).symm.trans htrue)

end ConstructServer.Groups.Ownership
