import ConstructServer.Library.Machine
import ConstructServer.Messaging.IntakePublish

/-!
# A rotation revokes the tags before it

A publish with a higher generation replaces the sets of the epochs it brings tags for, and no
others. An epoch that it leaves out keeps the tags of the old key, under the new generation, and
they are accepted when their day comes. A rotation revokes the old tags if it covers every epoch
that is not over and still has tags, and if it is not stopped by a time to live out of range.
-/

namespace ConstructServer.Messaging

open Queue Redis Machine Keyspace List Function

structure Publication where
  generation : UInt32
  epoch : UInt64
  tag : Bytes
deriving DecidableEq

structure StoredGeneration where
  generation : UInt32
  time : Nat
deriving DecidableEq

/-- Redis, the clock, and what was published so far. -/
structure RotationState where
  now : Nat
  store : IntakeStore
  published : List Publication
  stored : List StoredGeneration

/-- A request is handled some time after it arrived. -/
inductive RotationAction
  | tick (now : Nat)
  | publish (entries : List (UInt64 × Bytes)) (generation : UInt32) (arrivedAt : Nat)

def keptTags (entries : List (UInt64 × Bytes)) (arrivedAt : Nat) : List PublishableTag :=
  publishableTags entries (UInt64.ofNat (arrivedAt / 1000))

def epochAt (now : Nat) : Nat := now / 1000 / 86400

section

variable (sha256 : Bytes → Bytes) (account : String)

def RotationState.generation (s : RotationState) : UInt32 :=
  currentGeneration sha256 account s.store s.now

def RotationState.step (s : RotationState) : RotationAction → Option RotationState
  | .tick now => if s.now ≤ now then some { s with now } else none
  | .publish entries generation arrivedAt =>
    if arrivedAt ≤ s.now then
      let tags := keptTags entries arrivedAt
      let store := (publishTags sha256 account s.store s.now generation tags).1
      -- A refused publish has published nothing.
      if generation < s.generation sha256 account then some { s with store }
      else some { s with
        store
        published := s.published ++ tags.map fun t => ⟨generation, t.epoch, t.tag⟩
        stored := s.stored ++ [⟨generation, s.now⟩] }
    else none

def Live (store : IntakeStore) (now : Nat) (epoch : UInt64) (tag : Bytes) : Prop :=
  tag ∈ store.sets.smembers now (tagKey sha256 account epoch) ∨
    store.legacy.get now (legacyTagKey sha256 account epoch) = some tag

def Reaches (s t : RotationState) : Prop :=
  ∃ as, run (RotationState.step sha256 account) s as = some t

/-- The replies to a check for the recipient that starts in `s` and ends in `t`: each is what Redis
holds at some point in between. -/
def ReadBetween (recipient : String) (s t : RotationState) (reads : IntakeReads) : Prop :=
  ∀ epoch,
    (∀ members ∈ reads.members epoch, ∃ u, Reaches sha256 account s u ∧ Reaches sha256 account u t ∧
      members = u.store.sets.smembers u.now (tagKey sha256 recipient epoch)) ∧
    ∀ legacy ∈ reads.legacy epoch, ∃ u, Reaches sha256 account s u ∧ Reaches sha256 account u t ∧
      legacy = u.store.legacy.get u.now (legacyTagKey sha256 recipient epoch)

/-- A check between `s` and `t` vouches for a tag only if it was published with a generation that is
not below one stored before. The check knows the day of the publish: its clock was not read on a day
before. -/
def Revokes (s t : RotationState) : Prop :=
  ∀ (recipient : String) (openSealed : Bytes → Option Bytes) (reads : IntakeReads)
    (intakeTagSealed presented : Bytes) (nowUnix : UInt64),
    normalizeAccount recipient = normalizeAccount account →
    ReadBetween sha256 account recipient s t reads →
    openSealed intakeTagSealed = some presented →
    checkIntakeCredential (some openSealed) reads intakeTagSealed nowUnix = .vouched →
    ∀ g ∈ s.stored, epochAt g.time ≤ (intakeEpoch nowUnix).toNat →
      ∃ p ∈ t.published, p.tag = presented ∧ g.generation ≤ p.generation

/-- An account before its first publish; tags from before there were generations count as
generation zero. -/
structure Initial (s : RotationState) : Prop where
  generations : s.store.generations = .empty
  sets : s.store.sets = .empty
  stored : s.stored = []
  legacy : ∀ epoch tag, s.store.legacy.get s.now (legacyTagKey sha256 account epoch) = some tag →
    ∃ p ∈ s.published, p.epoch = epoch ∧ p.tag = tag

def HasTags (s : RotationState) (epoch : UInt64) : Prop :=
  s.store.sets.smembers s.now (tagKey sha256 account epoch) ≠ ∅ ∨
    (s.store.legacy.get s.now (legacyTagKey sha256 account epoch)).isSome

def CoversEpochs (s : RotationState) (tags : List PublishableTag) : Prop :=
  (∀ t ∈ tags, s.now + t.ttl.toNat * 1000 ≤ Keyspace.maxDeadline) ∧
    ∀ p ∈ s.published, epochAt s.now ≤ p.epoch.toNat + 1 → HasTags sha256 account s p.epoch →
      ∃ t ∈ tags, t.epoch = p.epoch

def Covering (s : RotationState) : RotationAction → Prop
  | .tick _ => True
  | .publish entries generation arrivedAt => s.generation sha256 account < generation →
    CoversEpochs sha256 account s (keptTags entries arrivedAt)

instance (s : RotationState) (epoch : UInt64) : Decidable (HasTags sha256 account s epoch) :=
  inferInstanceAs (Decidable (_ ∨ _))

instance (s : RotationState) (tags : List PublishableTag) :
    Decidable (CoversEpochs sha256 account s tags) :=
  inferInstanceAs (Decidable (_ ∧ _))

instance (s : RotationState) : (a : RotationAction) → Decidable (Covering sha256 account s a) := fun a => by
  cases a <;> dsimp only [Covering] <;> infer_instance

end

section

variable {sha256 : Bytes → Bytes} {account : String} {now : Nat} {generation : UInt32}
  {tags : List PublishableTag} {store : IntakeStore} {epoch : UInt64} {tag : Bytes}

theorem Live.mono {now' : Nat} (h : Live sha256 account store now' epoch tag) (hle : now ≤ now') :
    Live sha256 account store now epoch tag := by
  rcases h with hm | hg
  · refine .inl ?_
    unfold Keyspace.smembers at hm ⊢
    cases hg : store.sets.get now' (tagKey sha256 account epoch) with
    | none =>
      rw [hg] at hm
      exact absurd hm (Finset.notMem_empty _)
    | some members =>
      rw [hg] at hm
      rwa [get_mono hle hg]
  · exact .inr (get_mono hle hg)

theorem mem_of_mem_scriptBound (hsh : Injective sha256) {replace : Bool}
    (h : tag ∈ scriptBound sha256 account store now replace tags (tagKey sha256 account epoch)) :
    (replace = false ∧ tag ∈ store.sets.smembers now (tagKey sha256 account epoch)) ∨
      ∃ t ∈ tags, t.epoch = epoch ∧ t.tag = tag := by
  rcases Finset.mem_union.mp h with ho | hn
  · split_ifs at ho with hre
    · exact absurd ho (Finset.notMem_empty _)
    · exact .inl ⟨Bool.eq_false_iff.mpr hre, ho⟩
  · obtain ⟨t, ht, hta⟩ := mem_map.mp (mem_toFinset.mp hn)
    obtain ⟨ht, hk⟩ := mem_filter.mp ht
    exact .inr ⟨t, ht, tagKey_injective hsh account (of_decide_eq_true hk), hta⟩

theorem live_of_publishTags (hsh : Injective sha256)
    (h : Live sha256 account (publishTags sha256 account store now generation tags).1 now epoch tag) :
    Live sha256 account store now epoch tag ∨ ∃ t ∈ tags, t.epoch = epoch ∧ t.tag = tag := by
  have hca := publishTags_case sha256 account store now generation tags
  generalize publishTags sha256 account store now generation tags = result at hca h
  cases hca with
  | stale hs => exact .inl h
  | ran st ok hs hl =>
    have hst : st = (publishLoop now (currentGeneration sha256 account store now < generation)
      ⟨storeGeneration sha256 account store now generation, [], 0⟩
      (tags.map (keyed sha256 account))).1 := by rw [hl]
    rcases h with hm | hg
    · have hbo : Bounded now false (scriptBound sha256 account store now false tags) st :=
        hst ▸ bounded_start.publishLoop (forall_mem_map.mpr fun t ht => mem_scriptBound ht)
      rcases mem_of_mem_scriptBound hsh (hbo _ (by simp) hm) with ⟨-, ho⟩ | hn
      · exact .inl (.inl ho)
      · exact .inr hn
    · refine .inl (.inr ?_)
      rcases @legacy_publishLoop_apply now (currentGeneration sha256 account store now < generation)
        ⟨storeGeneration sha256 account store now generation, [], 0⟩
        (tags.map (keyed sha256 account)) (legacyTagKey sha256 account epoch) with heq | hno
      · rw [← hst, legacy_storeGeneration] at heq
        rwa [← get_congr heq]
      · rw [← hst] at hno
        obtain ⟨c, hc, -⟩ := get_eq_some_iff.mp hg
        cases hc.symm.trans hno

theorem live_of_rotation (hsh : Injective sha256)
    (hra : currentGeneration sha256 account store now < generation)
    (hr : ∀ t ∈ tags, now + t.ttl.toNat * 1000 ≤ Keyspace.maxDeadline) (hco : ∃ t ∈ tags, t.epoch = epoch)
    (h : Live sha256 account (publishTags sha256 account store now generation tags).1 now epoch tag) :
    ∃ t ∈ tags, t.epoch = epoch ∧ t.tag = tag := by
  have hca := publishTags_case sha256 account store now generation tags
  generalize publishTags sha256 account store now generation tags = result at hca h
  cases hca with
  | stale hs => exact absurd hra (UInt32.lt_asymm hs)
  | ran st ok hs hl =>
    rw [decide_eq_true hra] at hl
    have hst : st = (publishLoop now true ⟨storeGeneration sha256 account store now generation, [], 0⟩
      (tags.map (keyed sha256 account))).1 := by rw [hl]
    have hr' : ∀ u ∈ tags.map (keyed sha256 account), now + u.ttl * 1000 ≤ Keyspace.maxDeadline :=
      forall_mem_map.mpr hr
    have hcl : tagKey sha256 account epoch ∈ st.cleared := by
      obtain ⟨t, ht, rfl⟩ := hco
      rw [hst]
      exact mem_cleared_publishLoop rfl (publishLoop_ok hr') (keyed sha256 account t) (mem_map_of_mem ht)
    rcases h with hm | hg
    · have hbo : Bounded now true (scriptBound sha256 account store now true tags) st :=
        hst ▸ bounded_start.publishLoop (forall_mem_map.mpr fun t ht => mem_scriptBound ht)
      rcases mem_of_mem_scriptBound hsh (hbo _ (fun _ => hcl) hm) with ⟨hf, -⟩ | hn
      · cases hf
      · exact hn
    · have hno : st.store.legacy (legacyTagKey sha256 account epoch) = none := by
        rw [hst] at hcl ⊢
        refine legacy_of_mem_cleared (forall_mem_map.mpr fun t ht hk => ?_) not_mem_nil hcl
        exact congrArg (legacyTagKey sha256 account) (tagKey_injective hsh account hk)
      obtain ⟨c, hc, -⟩ := get_eq_some_iff.mp hg
      cases hc.symm.trans hno

end

section

variable {sha256 : Bytes → Bytes} {account : String} {s t u : RotationState} {a : RotationAction}
  {e₀ : Nat} {g : UInt32}

theorem step_cases (h : s.step sha256 account a = some t) :
    (∃ now, a = .tick now ∧ s.now ≤ now ∧ t = { s with now }) ∨
    (∃ entries generation arrivedAt, a = .publish entries generation arrivedAt ∧
      generation < s.generation sha256 account ∧ t = s) ∨
    ∃ entries generation arrivedAt, a = .publish entries generation arrivedAt ∧
      ¬ generation < s.generation sha256 account ∧ t = ⟨s.now,
        (publishTags sha256 account s.store s.now generation (keptTags entries arrivedAt)).1,
        s.published ++ (keptTags entries arrivedAt).map fun t => ⟨generation, t.epoch, t.tag⟩,
        s.stored ++ [⟨generation, s.now⟩]⟩ := by
  cases a with
  | tick now =>
    simp only [RotationState.step, Option.ite_none_right_eq_some, Option.some.injEq] at h
    exact .inl ⟨now, rfl, h.1, h.2.symm⟩
  | publish entries generation arrivedAt =>
    simp only [RotationState.step, Option.ite_none_right_eq_some] at h
    obtain ⟨-, h⟩ := h
    split_ifs at h with hs
    · refine .inr (.inl ⟨entries, generation, arrivedAt, rfl, hs, ?_⟩)
      have hst : (publishTags sha256 account s.store s.now generation
          (keptTags entries arrivedAt)).1 = s.store := by
        rw [publishTags]
        exact congrArg Prod.fst (if_pos hs)
      rw [hst] at h
      exact (Option.some_inj.mp h).symm
    · exact .inr (.inr ⟨entries, generation, arrivedAt, rfl, hs, (Option.some_inj.mp h).symm⟩)

def CurrentFrom (sha256 : Bytes → Bytes) (account : String) (e₀ : Nat) (g : UInt32)
    (s : RotationState) : Prop :=
  ∀ epoch tag, e₀ ≤ epoch.toNat + 1 → Live sha256 account s.store s.now epoch tag →
    ∃ p ∈ s.published, p.epoch = epoch ∧ p.tag = tag ∧ g ≤ p.generation

theorem CurrentFrom.mono {e₁ : Nat} (h : CurrentFrom sha256 account e₀ g s) (hle : e₀ ≤ e₁) :
    CurrentFrom sha256 account e₁ g s :=
  fun epoch tag hep => h epoch tag (hle.trans hep)

theorem CurrentFrom.tick {now : Nat} (h : CurrentFrom sha256 account e₀ g s) (hle : s.now ≤ now) :
    CurrentFrom sha256 account e₀ g { s with now } :=
  fun epoch tag hep hl => h epoch tag hep (hl.mono hle)

def Permanent (sha256 : Bytes → Bytes) (account : String) (store : IntakeStore) : Prop :=
  ∀ c ∈ store.generations (generationKey sha256 account), c.deadline = none

theorem Permanent.currentGeneration {store : IntakeStore} (h : Permanent sha256 account store)
    (now now' : Nat) :
    currentGeneration sha256 account store now = currentGeneration sha256 account store now' := by
  unfold Messaging.currentGeneration Keyspace.get Keyspace.cell
  cases hc : store.generations (generationKey sha256 account) with
  | none => rfl
  | some c => simp [Option.filter, Cell.live, h c hc]

theorem Permanent.publishTags {store : IntakeStore} (h : Permanent sha256 account store) (now : Nat)
    (generation : UInt32) (tags : List PublishableTag) :
    Permanent sha256 account (publishTags sha256 account store now generation tags).1 := by
  have hca := publishTags_case sha256 account store now generation tags
  generalize Messaging.publishTags sha256 account store now generation tags = result at hca
  cases hca with
  | stale hs => exact h
  | ran st ok hs hl =>
    have hg : st.store.generations =
        (storeGeneration sha256 account store now generation).generations := by
      have h := @generations_publishLoop now (Messaging.currentGeneration sha256 account store now <
        generation) ⟨storeGeneration sha256 account store now generation, [], 0⟩
        (tags.map (keyed sha256 account))
      rwa [hl] at h
    unfold Permanent
    rw [hg]
    unfold storeGeneration
    dsimp only
    split_ifs
    · simp [Keyspace.set]
    · unfold Keyspace.persist
      split
      · simp
      · exact h
    · exact h

theorem CurrentFrom.publish (hsh : Injective sha256)
    (h : CurrentFrom sha256 account e₀ g s) {generation : UInt32} (hle : g ≤ generation)
    (tags : List PublishableTag) (stored : List StoredGeneration) : CurrentFrom sha256 account e₀ g
      ⟨s.now, (Messaging.publishTags sha256 account s.store s.now generation tags).1,
        s.published ++ tags.map fun t => ⟨generation, t.epoch, t.tag⟩, stored⟩ := by
  intro epoch tag he hl
  rcases live_of_publishTags hsh hl with ho | ⟨t, ht, hep, hta⟩
  · obtain ⟨p, hp, hf⟩ := h epoch tag he ho
    exact ⟨p, mem_append_left _ hp, hf⟩
  · exact ⟨⟨generation, t.epoch, t.tag⟩, mem_append_right _ (mem_map_of_mem ht), hep, hta, hle⟩

structure Since (sha256 : Bytes → Bytes) (account : String) (e₀ : Nat) (g : UInt32)
    (s : RotationState) : Prop where
  current : CurrentFrom sha256 account e₀ g s
  le : g ≤ s.generation sha256 account
  permanent : Permanent sha256 account s.store

theorem Since.step (hsh : Injective sha256) (h : Since sha256 account e₀ g s)
    (hst : s.step sha256 account a = some t) : Since sha256 account e₀ g t := by
  rcases step_cases hst with ⟨now, rfl, hn, rfl⟩ | ⟨-, -, -, -, -, rfl⟩ |
    ⟨entries, generation, arrivedAt, rfl, hs, rfl⟩
  · refine ⟨h.current.tick hn, ?_, h.permanent⟩
    rw [RotationState.generation, h.permanent.currentGeneration now s.now]
    exact h.le
  · exact h
  · have hle : g ≤ generation := UInt32.le_trans h.le (UInt32.not_lt.mp hs)
    refine ⟨h.current.publish hsh hle _ _, ?_, h.permanent.publishTags _ _ _⟩
    rw [RotationState.generation, currentGeneration_publishTags hs]
    exact hle

theorem published_step (hst : s.step sha256 account a = some t) : s.published ⊆ t.published := by
  rcases step_cases hst with ⟨now, rfl, hn, rfl⟩ | ⟨-, -, -, -, -, rfl⟩ |
    ⟨entries, generation, arrivedAt, rfl, hs, rfl⟩
  · exact Subset.refl _
  · exact Subset.refl _
  · exact subset_append_left _ _

theorem Reaches.since (hsh : Injective sha256) (hre : Reaches sha256 account s t)
    (h : Since sha256 account e₀ g s) : Since sha256 account e₀ g t := by
  obtain ⟨as, hru⟩ := hre
  exact run_invariant (G := fun _ _ => True) (fun h _ hst => h.step hsh hst) h
    (along_of_forall fun _ _ => trivial) hru

theorem Reaches.published (hre : Reaches sha256 account s t) : s.published ⊆ t.published := by
  obtain ⟨as, hru⟩ := hre
  exact run_invariant (P := fun u => s.published ⊆ u.published) (G := fun _ _ => True)
    (fun h _ hst => Subset.trans h (published_step hst)) (Subset.refl _)
    (along_of_forall fun _ _ => trivial) hru

/-- Every stored generation has only later tags above it. -/
structure RotationInvariant (sha256 : Bytes → Bytes) (account : String) (s : RotationState) :
    Prop where
  known : CurrentFrom sha256 account 0 0 s
  permanent : Permanent sha256 account s.store
  stored : ∀ q ∈ s.stored, q.time ≤ s.now ∧ Since sha256 account (epochAt q.time) q.generation s
  origin : s.generation sha256 account = 0 ∨
    ∃ q ∈ s.stored, q.generation = s.generation sha256 account

theorem Initial.invariant (h : Initial sha256 account s) : RotationInvariant sha256 account s where
  known := by
    intro epoch tag _ hl
    rcases hl with hm | hg
    · rw [h.sets] at hm
      exact absurd hm (Finset.notMem_empty _)
    · obtain ⟨p, hp, hep, hta⟩ := h.legacy epoch tag hg
      exact ⟨p, hp, hep, hta, UInt32.zero_le⟩
  permanent := by
    intro c hc
    rw [h.generations] at hc
    cases hc
  stored := by simp [h.stored]
  origin := by
    refine .inl ?_
    unfold RotationState.generation Messaging.currentGeneration
    rw [h.generations]
    rfl

theorem epochAt_mono {now now' : Nat} (h : now ≤ now') : epochAt now ≤ epochAt now' :=
  Nat.div_le_div_right (Nat.div_le_div_right h)

theorem hasTags_of_live {epoch : UInt64} {tag : Bytes}
    (h : Live sha256 account s.store s.now epoch tag) : HasTags sha256 account s epoch := by
  rcases h with hm | hg
  · exact .inl (Finset.ne_empty_of_mem hm)
  · exact .inr (Option.isSome_iff_exists.mpr ⟨tag, hg⟩)

theorem currentFrom_rotation (hsh : Injective sha256)
    (hkn : CurrentFrom sha256 account 0 0 s) {generation : UInt32} {tags : List PublishableTag}
    (hra : s.generation sha256 account < generation)
    (hco : CoversEpochs sha256 account s tags) (stored : List StoredGeneration) :
    CurrentFrom sha256 account (epochAt s.now) generation
      ⟨s.now, (Messaging.publishTags sha256 account s.store s.now generation tags).1,
        s.published ++ tags.map fun t => ⟨generation, t.epoch, t.tag⟩, stored⟩ := by
  intro epoch tag he hl
  have hcov : ∃ t ∈ tags, t.epoch = epoch := by
    rcases live_of_publishTags hsh hl with ho | ⟨t, ht, hep, -⟩
    · obtain ⟨p, hp, rfl, -, -⟩ := hkn epoch tag (Nat.zero_le _) ho
      exact hco.2 p hp he (hasTags_of_live ho)
    · exact ⟨t, ht, hep⟩
  obtain ⟨t, ht, hep, hta⟩ := live_of_rotation hsh hra hco.1 hcov hl
  exact ⟨⟨generation, t.epoch, t.tag⟩, mem_append_right _ (mem_map_of_mem ht), hep, hta, UInt32.le_refl _⟩

theorem rotationInvariant_step (hsh : Injective sha256)
    (h : RotationInvariant sha256 account s) (hco : Covering sha256 account s a)
    (hst : s.step sha256 account a = some t) : RotationInvariant sha256 account t := by
  rcases step_cases hst with ⟨now, rfl, hn, rfl⟩ | ⟨-, -, -, -, -, rfl⟩ |
    ⟨entries, generation, arrivedAt, rfl, hs, rfl⟩
  · refine ⟨h.known.tick hn, h.permanent, fun q hq => ?_, ?_⟩
    · exact ⟨(h.stored q hq).1.trans hn, (h.stored q hq).2.step hsh hst⟩
    · rw [RotationState.generation, h.permanent.currentGeneration now s.now]
      exact h.origin
  · exact h
  · have hg := @currentGeneration_publishTags _ _ _ _ (keptTags entries arrivedAt) _ hs
    refine ⟨h.known.publish hsh UInt32.zero_le _ _, h.permanent.publishTags _ _ _, fun q hq => ?_,
      .inr ⟨⟨generation, s.now⟩, by simp, hg.symm⟩⟩
    rcases mem_concat hq with ho | rfl
    · exact ⟨(h.stored q ho).1, (h.stored q ho).2.step hsh hst⟩
    · refine ⟨le_rfl, ?_, ?_, h.permanent.publishTags _ _ _⟩
      swap
      · rw [RotationState.generation, hg]
        exact UInt32.le_refl _
      by_cases hra : s.generation sha256 account < generation
      · exact currentFrom_rotation hsh h.known hra (hco hra) _
      · -- A publish with the stored generation adds to what was published since.
        have heq : s.generation sha256 account = generation :=
          UInt32.le_antisymm (UInt32.not_lt.mp hs) (UInt32.not_lt.mp hra)
        refine CurrentFrom.publish hsh ?_ (UInt32.le_refl _) _ _
        rcases h.origin with hz | ⟨q, hq, hge⟩
        · exact (hz.symm.trans heq) ▸ h.known.mono (Nat.zero_le _)
        · obtain ⟨hti, hsi⟩ := h.stored q hq
          exact (hge.trans heq) ▸ hsi.current.mono (epochAt_mono hti)

/-- **In a run whose rotations cover the days that are not over, every stored generation revokes the
tags below it.** -/
theorem covering_run_revokes (hsha : Injective sha256) {s₀ : RotationState}
    (hinit : Initial sha256 account s₀) {as : List RotationAction}
    (hcovering : Along (RotationState.step sha256 account) (Covering sha256 account) s₀ as)
    (hrun : run (RotationState.step sha256 account) s₀ as = some s) : Revokes sha256 account s t := by
  have hinv : RotationInvariant sha256 account s :=
    run_invariant (fun h hg hstep => rotationInvariant_step hsha h hg hstep) hinit.invariant
      hcovering hrun
  intro recipient openSealed reads intakeTagSealed presented nowUnix haccount hreads hopen hvouched
    g hg htime
  obtain ⟨_, hopener, presented', hpresented, epoch, hepoch, hread⟩ := mem_of_vouched hvouched
  obtain rfl := Option.some_inj.mp hopener
  obtain rfl : presented = presented' := Option.some_inj.mp (hopen.symm.trans hpresented)
  -- The reply that matched was read in a state in which the tags are those published since `g`.
  have hlive : ∃ u, Reaches sha256 account s u ∧ Reaches sha256 account u t ∧
      Live sha256 account u.store u.now epoch presented := by
    obtain ⟨hkey, hlegacyKey⟩ := @tagKey_congr sha256 _ _ haccount epoch
    rcases hread with ⟨members, hmembers, hmem⟩ | ⟨legacy, hlegacy, hmem⟩
    · obtain ⟨u, hsu, hut, rfl⟩ := (hreads epoch).1 members hmembers
      exact ⟨u, hsu, hut, .inl (hkey ▸ hmem)⟩
    · obtain ⟨u, hsu, hut, rfl⟩ := (hreads epoch).2 legacy hlegacy
      exact ⟨u, hsu, hut, .inr (hlegacyKey ▸ hmem)⟩
  obtain ⟨u, hsu, hut, hlive⟩ := hlive
  have hsince := hsu.since hsha (hinv.stored g hg).2
  obtain ⟨p, hp, -, htag, hle⟩ := hsince.current epoch presented
    (htime.trans (le_of_mem_acceptableEpochs hepoch)) hlive
  exact ⟨p, hut.published hp, htag, hle⟩

end

def RotationState.reads (sha256 : Bytes → Bytes) (recipient : String) (s : RotationState) :
    IntakeReads :=
  ⟨fun epoch => some (s.store.sets.smembers s.now (tagKey sha256 recipient epoch)),
    fun epoch => some (s.store.legacy.get s.now (legacyTagKey sha256 recipient epoch))⟩

theorem readBetween_reads {sha256 : Bytes → Bytes} {account recipient : String} {s : RotationState} :
    ReadBetween sha256 account recipient s s (s.reads sha256 recipient) := by
  refine fun epoch => ⟨fun members h => ?_, fun legacy h => ?_⟩
  · exact ⟨s, ⟨[], rfl⟩, ⟨[], rfl⟩, (Option.some_inj.mp h).symm⟩
  · exact ⟨s, ⟨[], rfl⟩, ⟨[], rfl⟩, (Option.some_inj.mp h).symm⟩

def unpublished : RotationState := ⟨0, .empty, [], []⟩

theorem unpublished_initial : Initial id "account" unpublished :=
  ⟨rfl, rfl, rfl, fun _ _ h => by cases h⟩

def RotationState.checkTag (s : RotationState) (tag : Bytes) : IntakeCheck :=
  checkIntakeCredential (some some) (s.reads id "account") tag (UInt64.ofNat (s.now / 1000))

def coveringRotation : List RotationAction :=
  [.publish [(0, replicate 16 1), (1, replicate 16 2)] 1 0, .tick 5,
    .publish [(0, replicate 16 3), (1, replicate 16 4)] 2 3, .tick 86400000]

theorem coveringRotation_revokes : ∃ s,
    run (RotationState.step id "account") unpublished coveringRotation = some s ∧
      s.checkTag (replicate 16 4) = .vouched ∧
      s.checkTag (replicate 16 2) = .unrecognised .noMatch ∧ Revokes id "account" s s :=
  reaches_with₂ (by decide +kernel) fun _ hrun _ _ =>
    covering_run_revokes Function.injective_id unpublished_initial (by decide +kernel) hrun

def uncoveredRotation : List RotationAction :=
  [.publish [(0, replicate 16 1), (1, replicate 16 2)] 1 0, .tick 5,
    .publish [(0, replicate 16 3)] 2 3, .tick 86400000]

/-- The tag of the old key for tomorrow is accepted on the next day. -/
theorem uncovered_epoch_survives : ∃ s,
    run (RotationState.step id "account") unpublished uncoveredRotation = some s ∧
      s.checkTag (replicate 16 2) = .vouched ∧ ¬ Revokes id "account" s s := by
  obtain ⟨s, hrun, hcheck, hstored, hpublished, hnow⟩ := reaches (RotationState.step id "account")
    unpublished uncoveredRotation (fun s => s.checkTag (replicate 16 2) = .vouched ∧ s.stored = [⟨1, 0⟩,
    ⟨2, 5⟩] ∧ s.published = [⟨1, 0, replicate 16 1⟩, ⟨1, 1, replicate 16 2⟩,
    ⟨2, 0, replicate 16 3⟩] ∧ s.now = 86400000) (by decide +kernel)
  refine ⟨s, hrun, hcheck, fun hrevokes => ?_⟩
  obtain ⟨p, hp, hpub⟩ := hrevokes "account" some (s.reads id "account") _ _ _ rfl readBetween_reads
    rfl hcheck ⟨2, 5⟩ (by simp [hstored]) (by rw [hnow]; decide +kernel)
  rw [hpublished] at hp
  have hnone : ∀ p ∈ [(⟨1, 0, replicate 16 1⟩ : Publication), ⟨1, 1, replicate 16 2⟩,
      ⟨2, 0, replicate 16 3⟩], ¬ (p.tag = replicate 16 2 ∧ 2 ≤ p.generation) := by decide
  exact hnone p hp hpub

end ConstructServer.Messaging
