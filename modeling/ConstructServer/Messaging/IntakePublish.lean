import ConstructServer.Messaging.Intake

/-!
# A publish stores everything or nothing

The script of a publish has no way back: it stores the generation and then tag after tag, and an
`EXPIRE` out of range stops it in the middle. The time to live comes from the epoch that the client
chose, by arithmetic that wraps, so it can be too large for `EXPIRE`, and it can be zero, which
removes the set that was just filled. As long as the sets have room for the tags, these are the only
ways in which a publish is not all or nothing.
-/

namespace ConstructServer.Messaging

open Queue Redis Keyspace List Function

section

variable (sha256 : Bytes → Bytes) (account : String)

def Holds (sets : Keyspace (Finset Bytes)) (now : Nat) (key : String) (tag : Bytes) : Prop :=
  ∃ c, sets.cell now key = some c ∧ tag ∈ c.value ∧ c.deadline.isSome

def tagsOf (tags : List PublishableTag) (epoch : UInt64) : Finset Bytes :=
  ((tags.filter (·.epoch = epoch)).map PublishableTag.tag).toFinset

def HasRoom (now : Nat) (generation : UInt32) (tags : List PublishableTag) (store : IntakeStore) :
    Prop :=
  currentGeneration sha256 account store now = generation → ∀ t ∈ tags,
    (store.sets.smembers now (tagKey sha256 account t.epoch) ∪ tagsOf tags t.epoch).card ≤
      maxTagsPerEpoch

def Unchanged (store store' : IntakeStore) : Prop :=
  store'.generations = store.generations ∧ store'.sets = store.sets

def Published (store : IntakeStore) (now : Nat) (generation : UInt32)
    (tags : List PublishableTag) : Prop :=
  currentGeneration sha256 account store now = generation ∧
    ∀ t ∈ tags, Holds store.sets now (tagKey sha256 account t.epoch) t.tag

def Truthful (store store' : IntakeStore) (now : Nat) (generation : UInt32)
    (tags : List PublishableTag) : Option (PublishReply × PublishOutcome) → Prop
  | none => Unchanged store store'
  | some (reply, _) =>
    -- The generation after the publish is above the one sent: the publish was refused as stale.
    if generation < reply.after then Unchanged store store'
    else Published sha256 account store' now generation tags

/-- An error or a refusal changes nothing, and a success stores everything. -/
def AllOrNothing (now : Nat) (generation : UInt32) (tags : List PublishableTag)
    (store : IntakeStore) : Prop :=
  Truthful sha256 account store (publishTags sha256 account store now generation tags).1 now
    generation tags (publishTags sha256 account store now generation tags).2

def Expirable (now : Nat) (nowUnix epoch : UInt64) : Prop :=
  ∀ ttl ∈ tagTtlSeconds epoch (intakeEpoch nowUnix),
    0 < ttl.toNat ∧ now + ttl.toNat * 1000 ≤ Keyspace.maxDeadline

instance (now : Nat) (nowUnix epoch : UInt64) : Decidable (Expirable now nowUnix epoch) :=
  -- Not the instance that tries all values of the type.
  Option.decidableForallMem (tagTtlSeconds epoch (intakeEpoch nowUnix))

end

section

variable {now : Nat} {replace : Bool} {st : ScriptState} {t : KeyedTag} {ts : List KeyedTag}

theorem publishLoop_ok (h : ∀ t ∈ ts, now + t.ttl * 1000 ≤ Keyspace.maxDeadline) :
    (publishLoop now replace st ts).2 = true := by
  induction ts generalizing st with
  | nil => rfl
  | cons t ts ih =>
    have hen : (publishEntry now replace st t).2 = true := by
      have hca := publishEntry_case now replace st t
      have hr := h t (by simp)
      generalize publishEntry now replace st t = result at hca
      cases hca with
      | full | stored => rfl
      | failed hou => omega
    rw [publishLoop_cons, if_pos hen]
    exact ih fun t ht => h t (by simp [ht])

theorem publishLoop_stopped_ne (h : (publishLoop now replace st ts).2 = false) :
    ∃ t ∈ ts, (publishLoop now replace st ts).1.store.sets t.setKey ≠ none := by
  induction ts generalizing st with
  | nil => cases h
  | cons t ts ih =>
    rw [publishLoop_cons] at h ⊢
    split_ifs at h ⊢
    · obtain ⟨u, hu, hne⟩ := ih h
      exact ⟨u, by simp [hu], hne⟩
    · refine ⟨t, by simp, ?_⟩
      have hca := publishEntry_case now replace st t
      generalize publishEntry now replace st t = result at hca h
      cases hca with
      | full | stored => cases h
      | failed hr =>
        intro hno
        cases (cell_eq_some_iff.mp cell_sadd_self).1.symm.trans hno

theorem smembers_clearEntry (h : st.store.sets.smembers now t.setKey = ∅) :
    (clearEntry replace st t).store.sets.smembers now t.setKey = ∅ := by
  unfold clearEntry
  split_ifs
  · simp [Keyspace.smembers]
  · exact h

theorem publishLoop_stopped (hke : ∀ t ∈ ts, ∀ u ∈ ts, t.setKey = u.setKey → t.ttl = u.ttl)
    (ht : t ∈ ts) (hr : Keyspace.maxDeadline < now + t.ttl * 1000)
    (hem : st.store.sets.smembers now t.setKey = ∅) : (publishLoop now replace st ts).2 = false := by
  induction ts generalizing st with
  | nil => cases ht
  | cons u us ih =>
    rw [publishLoop_cons]
    split_ifs with hg
    · -- The entry that went on is in range, so it is one of another key.
      have hne : t.setKey ≠ u.setKey := by
        intro hk
        have htt := hke t ht u (by simp) hk
        have hme := @smembers_clearEntry now replace st u (hk ▸ hem)
        have hca := publishEntry_case now replace st u
        generalize publishEntry now replace st u = result at hca hg
        cases hca with
        | full hn hf =>
          rw [hme, Finset.card_empty] at hf
          exact absurd hf (by decide)
        | failed hou => cases hg
        | stored sets he =>
          have hou : Keyspace.maxDeadline < now + u.ttl * 1000 := htt ▸ hr
          rw [expire_eq_none_iff.mpr hou] at he
          cases he
      refine ih (fun t ht u hu => hke t (by simp [ht]) u (by simp [hu])) ?_ ?_
      · rcases mem_cons.mp ht with rfl | ht
        · exact absurd rfl hne
        · exact ht
      · rw [Keyspace.smembers, get_congr ((publishEntry_frame now replace st u).2.1 _ hne)]
        exact hem
    · exact Bool.eq_false_iff.mpr hg

theorem publishLoop_zero {key : String} (hz : ∀ t ∈ ts, t.setKey = key → t.ttl = 0)
    (hn : now ≤ Keyspace.maxDeadline) (hno : st.store.sets key = none) :
    (publishLoop now replace st ts).1.store.sets key = none := by
  refine publishLoop_invariant (P := fun st => st.store.sets key = none) ?_ hno
  intro st t ht hno
  by_cases hk : t.setKey = key
  · have hcl : (clearEntry replace st t).store.sets t.setKey = none := by
      unfold clearEntry
      split_ifs
      · simp [Keyspace.del]
      · rw [hk, hno]
    have hca := publishEntry_case now replace st t
    generalize publishEntry now replace st t = result at hca
    rw [← hk]
    cases hca with
    | full hnot hf => exact hcl
    | failed hr =>
      rw [hz t ht hk] at hr
      omega
    | stored sets he =>
      have hse := expire_apply_self he cell_sadd_self
      rwa [if_pos (hz t ht hk)] at hse
  · rw [(publishEntry_frame now replace st t).2.1 key (Ne.symm hk)]
    exact hno

theorem Holds.congr {sets sets' : Keyspace (Finset Bytes)} {key : String} {tag : Bytes}
    (h : Holds sets now key tag) (heq : sets' key = sets key) : Holds sets' now key tag := by
  obtain ⟨c, hce, hh⟩ := h
  exact ⟨c, (cell_congr heq).trans hce, hh⟩

variable {bound : String → Finset Bytes}

theorem holds_publishEntry (hbo : Bounded now replace bound st) (ht : t.tag ∈ bound t.setKey)
    (hro : (bound t.setKey).card ≤ maxTagsPerEpoch) (hpo : 0 < t.ttl)
    (hok : (publishEntry now replace st t).2 = true) :
    Holds (publishEntry now replace st t).1.store.sets now t.setKey t.tag := by
  have hca := publishEntry_case now replace st t
  generalize publishEntry now replace st t = result at hca hok
  cases hca with
  | full hn hf =>
    -- The members and the tag are within the bound, so there is room for one more.
    have hlt : ((clearEntry replace st t).store.sets.smembers now t.setKey).card <
        (bound t.setKey).card := by
      refine Finset.card_lt_card ⟨hbo.clearEntry _ mem_cleared_clearEntry, fun hs => ?_⟩
      exact hn (hs ht)
    omega
  | failed hr => cases hok
  | stored sets he =>
    have hse := expire_apply_self he cell_sadd_self
    rw [if_neg hpo.ne'] at hse
    refine ⟨_, cell_eq_some_iff.mpr ⟨hse, ?_⟩, Finset.mem_insert_self _ _, rfl⟩
    simp [Cell.live]

theorem Holds.publishEntry {key : String} {tag : Bytes} (h : Holds st.store.sets now key tag)
    (hcl : replace = true → key ∈ st.cleared) (hok : (publishEntry now replace st t).2 = true)
    (hpo : 0 < t.ttl) :
    Holds (Messaging.publishEntry now replace st t).1.store.sets now key tag := by
  by_cases hk : key = t.setKey
  · have hke : clearEntry replace st t = st := by
      unfold clearEntry
      rw [if_neg]
      rintro ⟨hre, hn⟩
      exact hn (hk ▸ hcl hre)
    obtain ⟨c, hce, hm, hd⟩ := h
    have hca := publishEntry_case now replace st t
    rw [hke] at hca
    generalize Messaging.publishEntry now replace st t = result at hca hok
    cases hca with
    | full hn hf => exact ⟨c, hce, hm, hd⟩
    | failed hr => cases hok
    | stored sets he =>
      have hse := expire_apply_self he cell_sadd_self
      rw [if_neg hpo.ne', ← hk, Keyspace.smembers, Keyspace.get, hce] at hse
      refine ⟨_, cell_eq_some_iff.mpr ⟨hse, ?_⟩, Finset.mem_insert_of_mem hm, rfl⟩
      simp [Cell.live]
  · exact h.congr ((publishEntry_frame now replace st t).2.1 key hk)

theorem holds_publishLoop (hpo : ∀ t ∈ ts, 0 < t.ttl) (hbo : Bounded now replace bound st)
    (hb : ∀ t ∈ ts, t.tag ∈ bound t.setKey ∧ (bound t.setKey).card ≤ maxTagsPerEpoch)
    (hok : (publishLoop now replace st ts).2 = true) :
    ∀ t ∈ ts, Holds (publishLoop now replace st ts).1.store.sets now t.setKey t.tag := by
  -- Every entry is still to come, or held under a key that is not cleared any more.
  have hru := publishLoop_rule (P := fun rest st =>
    (∀ u ∈ rest, u ∈ ts) ∧ Bounded now replace bound st ∧ ∀ t ∈ ts, t ∈ rest ∨
      Holds st.store.sets now t.setKey t.tag ∧ (replace = true → t.setKey ∈ st.cleared)) ?_
    ⟨fun _ hu => hu, hbo, fun t ht => .inl ht⟩ hok
  · intro t ht
    rcases hru.2.2 t ht with hm | hh
    · cases hm
    · exact hh.1
  · rintro u rest st ⟨hr, hbo, ha⟩ hg
    have hu := hr u (by simp)
    obtain ⟨hta, hro⟩ := hb u hu
    refine ⟨fun t ht => hr t (by simp [ht]), hbo.publishEntry hta, fun t ht => ?_⟩
    rcases ha t ht with hm | ⟨hh, hcl⟩
    · rcases mem_cons.mp hm with rfl | hm
      · refine .inr ⟨holds_publishEntry hbo hta hro (hpo _ hu) hg, fun hre => ?_⟩
        rw [cleared_publishEntry]
        exact mem_cleared_clearEntry hre
      · exact .inl hm
    · refine .inr ⟨hh.publishEntry hcl hg (hpo u hu), ?_⟩
      exact fun hre => cleared_subset_publishEntry (hcl hre)

end

section

variable {sha256 : Bytes → Bytes} {account : String} {now : Nat} {generation : UInt32}
  {entries : List (UInt64 × Bytes)} {nowUnix : UInt64} {tags : List PublishableTag}
  {store : IntakeStore}

theorem expirable_iff : (∀ entry ∈ entries.take maxPublishedEpochs,
      entry.2.length = intakeTagLen → Expirable now nowUnix entry.1) ↔ ∀ t ∈ publishableTags entries nowUnix,
      0 < t.ttl.toNat ∧ now + t.ttl.toNat * 1000 ≤ Keyspace.maxDeadline := by
  constructor
  · intro h t ht
    obtain ⟨hen, hl, htt⟩ := mem_publishableTags.mp ht
    exact h _ hen hl t.ttl htt
  · intro h entry hen hl ttl htt
    exact h ⟨entry.1, entry.2, ttl⟩ (mem_publishableTags.mpr ⟨hen, hl, htt⟩)

theorem ttl_eq_of_setKey (hsh : Injective sha256) (account : String)
    (entries : List (UInt64 × Bytes)) (nowUnix : UInt64) :
    ∀ t ∈ (publishableTags entries nowUnix).map (keyed sha256 account),
      ∀ u ∈ (publishableTags entries nowUnix).map (keyed sha256 account), t.setKey = u.setKey →
        t.ttl = u.ttl := by
  refine forall_mem_map.mpr fun t ht => forall_mem_map.mpr fun u hu hk => ?_
  have hep : t.epoch = u.epoch := tagKey_injective hsh account hk
  have htt := (mem_publishableTags.mp ht).2.2
  rw [hep, (mem_publishableTags.mp hu).2.2] at htt
  exact congrArg UInt64.toNat (Option.some_inj.mp htt).symm

theorem card_tagsOf_le (epoch : UInt64) : (tagsOf tags epoch).card ≤ tags.length :=
  calc (tagsOf tags epoch).card
      ≤ ((tags.filter (·.epoch = epoch)).map PublishableTag.tag).length := toFinset_card_le _
    _ = (tags.filter (·.epoch = epoch)).length := length_map _
    _ ≤ tags.length := length_filter_le _ _

def scriptBound (sha256 : Bytes → Bytes) (account : String) (store : IntakeStore) (now : Nat)
    (replace : Bool) (tags : List PublishableTag) (key : String) : Finset Bytes :=
  (if replace then ∅ else store.sets.smembers now key) ∪
    ((tags.filter fun t => tagKey sha256 account t.epoch = key).map PublishableTag.tag).toFinset

theorem mem_scriptBound {replace : Bool} {t : PublishableTag} (ht : t ∈ tags) :
    t.tag ∈ scriptBound sha256 account store now replace tags (tagKey sha256 account t.epoch) := by
  refine Finset.mem_union_right _ (mem_toFinset.mpr (mem_map_of_mem ?_))
  exact mem_filter.mpr ⟨ht, decide_eq_true rfl⟩

theorem bounded_start {replace : Bool} :
    Bounded now replace (scriptBound sha256 account store now replace tags)
    ⟨storeGeneration sha256 account store now generation, [], 0⟩ := by
  intro key hcl
  cases replace with
  | true => cases hcl rfl
  | false =>
    rw [scriptBound, if_neg Bool.false_ne_true, sets_storeGeneration]
    exact Finset.subset_union_left

theorem card_scriptBound_le (hsh : Injective sha256) (hl : tags.length ≤ maxPublishedEpochs)
    (hro : HasRoom sha256 account now generation tags store)
    (hs : ¬ generation < currentGeneration sha256 account store now) {t : PublishableTag} (ht : t ∈ tags) :
    (scriptBound sha256 account store now (currentGeneration sha256 account store now < generation)
      tags (tagKey sha256 account t.epoch)).card ≤ maxTagsPerEpoch := by
  unfold scriptBound
  simp only [(tagKey_injective hsh account).eq_iff]
  by_cases hra : currentGeneration sha256 account store now < generation
  · rw [if_pos (decide_eq_true hra), Finset.empty_union]
    exact (card_tagsOf_le t.epoch).trans (hl.trans (by decide))
  · rw [if_neg (by simpa using hra)]
    exact hro (UInt32.le_antisymm (UInt32.not_lt.mp hs) (UInt32.not_lt.mp hra)) t ht

theorem allOrNothing_of_ttl (hsh : Injective sha256) (hl : tags.length ≤ maxPublishedEpochs)
    (hro : HasRoom sha256 account now generation tags store)
    (h : ∀ t ∈ tags, 0 < t.ttl.toNat ∧ now + t.ttl.toNat * 1000 ≤ Keyspace.maxDeadline) :
    AllOrNothing sha256 account now generation tags store := by
  unfold AllOrNothing
  have hca := publishTags_case sha256 account store now generation tags
  generalize publishTags sha256 account store now generation tags = result at hca
  cases hca with
  | stale hs =>
    rw [Truthful, if_pos hs]
    exact ⟨rfl, rfl⟩
  | ran st ok hs hlo =>
    have hpo : ∀ u ∈ tags.map (keyed sha256 account), 0 < u.ttl :=
      forall_mem_map.mpr fun t ht => (h t ht).1
    have hbo : ∀ u ∈ tags.map (keyed sha256 account), u.tag ∈ scriptBound sha256 account store now
            (currentGeneration sha256 account store now < generation) tags u.setKey ∧
          (scriptBound sha256 account store now
            (currentGeneration sha256 account store now < generation) tags u.setKey).card ≤
              maxTagsPerEpoch :=
      forall_mem_map.mpr fun t ht =>
        ⟨mem_scriptBound ht, card_scriptBound_le hsh hl hro hs ht⟩
    have hok := @publishLoop_ok now (currentGeneration sha256 account store now < generation)
      ⟨storeGeneration sha256 account store now generation, [], 0⟩
      (tags.map (keyed sha256 account)) (forall_mem_map.mpr fun t ht => (h t ht).2)
    have hh := holds_publishLoop hpo bounded_start hbo hok
    rw [hlo] at hok hh
    obtain rfl : ok = true := hok
    rw [if_pos rfl, Truthful, if_neg (UInt32.lt_irrefl _)]
    exact ⟨currentGeneration_of_ran hs hlo, fun t ht => hh _ (mem_map_of_mem ht)⟩

def IntakeStore.empty : IntakeStore := ⟨.empty, .empty, .empty⟩

theorem hasRoom_empty (hl : tags.length ≤ maxPublishedEpochs) :
    HasRoom sha256 account now generation tags .empty := by
  intro _ t _
  have hno : IntakeStore.empty.sets.smembers now (tagKey sha256 account t.epoch) = ∅ := rfl
  rw [hno, Finset.empty_union]
  exact (card_tagsOf_le t.epoch).trans (hl.trans (by decide))

theorem ttl_of_allOrNothing_empty (hsh : Injective sha256)
    (ha : AllOrNothing sha256 account now generation (publishableTags entries nowUnix) .empty) :
    ∀ t ∈ publishableTags entries nowUnix, 0 < t.ttl.toNat ∧
      now + t.ttl.toNat * 1000 ≤ Keyspace.maxDeadline := by
  have hke := ttl_eq_of_setKey hsh account entries nowUnix
  unfold AllOrNothing at ha
  have hca := publishTags_case sha256 account .empty now generation (publishableTags entries nowUnix)
  generalize publishableTags entries nowUnix = tags at hke ha hca ⊢
  generalize publishTags sha256 account .empty now generation tags = result at hca ha
  cases hca with
  | stale hs => exact absurd hs (UInt32.not_lt.mpr UInt32.zero_le)
  | ran st ok hs hl =>
    -- An entry out of range stops the script, and its tag stays behind.
    have hr : ∀ t ∈ tags, now + t.ttl.toNat * 1000 ≤ Keyspace.maxDeadline := by
      intro t ht
      by_contra hou
      have hst := @publishLoop_stopped now (currentGeneration sha256 account .empty now < generation)
        ⟨storeGeneration sha256 account .empty now generation, [], 0⟩ _ _ hke
        (mem_map_of_mem ht) (not_le.mp hou) (by rw [sets_storeGeneration]; rfl)
      obtain ⟨u, -, hne⟩ := publishLoop_stopped_ne hst
      rw [hl] at hst hne
      obtain rfl : ok = false := hst
      rw [if_neg Bool.false_ne_true, Truthful] at ha
      exact hne (congrFun ha.2 u.setKey)
    intro t ht
    refine ⟨Nat.pos_of_ne_zero fun hz => ?_, hr t ht⟩
    -- A set with no time to live is gone at the end of a publish that succeeds.
    have hok := @publishLoop_ok now (currentGeneration sha256 account .empty now < generation)
      ⟨storeGeneration sha256 account .empty now generation, [], 0⟩
      (tags.map (keyed sha256 account)) (forall_mem_map.mpr hr)
    have hn : now ≤ Keyspace.maxDeadline := (Nat.le_add_right _ _).trans (hr t ht)
    have hg := @publishLoop_zero now (currentGeneration sha256 account .empty now < generation)
      ⟨storeGeneration sha256 account .empty now generation, [], 0⟩
      (tags.map (keyed sha256 account)) (tagKey sha256 account t.epoch)
      (fun u hu hk => (hke u hu _ (mem_map_of_mem ht) hk).trans hz) hn
      (by rw [sets_storeGeneration]; rfl)
    rw [hl] at hok hg
    obtain rfl : ok = true := hok
    rw [if_pos rfl, Truthful, if_neg (UInt32.lt_irrefl _)] at ha
    obtain ⟨c, hce, -⟩ := ha.2 t ht
    cases (cell_eq_some_iff.mp hce).1.symm.trans hg

variable (account entries) in
/-- **A request is stored all or nothing in every state with room for its tags exactly if the epochs
of its tags are expirable.** -/
theorem allOrNothing_iff_expirable (hsha : Injective sha256) (now : Nat)
    (generation : UInt32) (nowUnix : UInt64) :
    (∀ store, HasRoom sha256 account now generation (publishableTags entries nowUnix) store →
      AllOrNothing sha256 account now generation (publishableTags entries nowUnix) store) ↔
      ∀ entry ∈ entries.take maxPublishedEpochs, entry.2.length = intakeTagLen →
        Expirable now nowUnix entry.1 := by
  rw [expirable_iff]
  constructor
  · intro h
    exact ttl_of_allOrNothing_empty hsha (h .empty (hasRoom_empty length_publishableTags_le))
  · intro h store hroom
    exact allOrNothing_of_ttl hsha length_publishableTags_le hroom h

end

def nearTags : List PublishableTag :=
  publishableTags [(0, replicate 16 1), (1, replicate 16 2)] 0

theorem nearTags_allOrNothing : HasRoom id "account" 0 1 nearTags .empty ∧
    AllOrNothing id "account" 0 1 nearTags .empty := by
  have hroom : HasRoom id "account" 0 1 nearTags .empty := hasRoom_empty length_publishableTags_le
  refine ⟨hroom, ?_⟩
  exact (allOrNothing_iff_expirable "account"
    [(0, replicate 16 1), (1, replicate 16 2)] Function.injective_id 0 1 0).mpr
    (by decide +kernel) .empty hroom

def farTags : List PublishableTag :=
  publishableTags [(0, replicate 16 1), (1000000000000, replicate 16 2)] 0

/-- The far day has a time to live out of range: the script fails, and the new generation and the
tag for today are stored. -/
theorem publish_stopped_halfway : (publishTags id "account" .empty 0 1 farTags).2 = none ∧
    currentGeneration id "account" (publishTags id "account" .empty 0 1 farTags).1 0 = 1 ∧
    (publishTags id "account" .empty 0 1 farTags).1.sets.smembers 0 (tagKey id "account" 0) = {replicate 16 1} ∧
    HasRoom id "account" 0 1 farTags .empty ∧ ¬ AllOrNothing id "account" 0 1 farTags .empty := by
  have hreply : (publishTags id "account" .empty 0 1 farTags).2 = none := by decide +kernel
  have hset : (publishTags id "account" .empty 0 1 farTags).1.sets.smembers 0
      (tagKey id "account" 0) = {replicate 16 1} := by decide +kernel
  refine ⟨hreply, by decide +kernel, hset, hasRoom_empty length_publishableTags_le, fun hall => ?_⟩
  rw [AllOrNothing, hreply, Truthful] at hall
  rw [hall.2] at hset
  exact absurd hset (by decide +kernel)

end ConstructServer.Messaging
