import ConstructServer.Library.RedisKeys
import ConstructServer.Queue.Envelope

/-!
# Intake tags

A recipient publishes secret tags, one or more for each day, and an envelope that carries a live
one owes no token. The tags of an account are kept in one Redis set for each epoch, its key
generation in one number. A publish is one script: a generation above the stored one replaces the
sets of the epochs it brings tags for, an equal one adds to them, a lower one is refused. A command
of the script that fails stops it, and what it wrote before stays.
-/

namespace ConstructServer.Messaging

open Queue Redis Keyspace List Function

def intakeTagLen : Nat := 16

def intakeEpochSeconds : UInt64 := 86400

def intakeTagGraceEpochs : UInt64 := 1

def maxPublishedEpochs : Nat := 14

def maxTagsPerEpoch : Nat := 32

def intakeEpoch (unixSeconds : UInt64) : UInt64 := unixSeconds / intakeEpochSeconds

/-- How long a tag is kept; the arithmetic wraps. -/
def tagTtlSeconds (epoch nowEpoch : UInt64) : Option UInt64 :=
  let lastLiveEpoch := epoch + intakeTagGraceEpochs
  if lastLiveEpoch < nowEpoch then none
  else some ((lastLiveEpoch + 1 - nowEpoch) * intakeEpochSeconds)

/-- The epochs whose tags count now: this one and the one before. -/
def acceptableEpochs (nowEpoch : UInt64) : List UInt64 :=
  nowEpoch :: (if 1 ≤ nowEpoch then [nowEpoch - 1] else [])

section

variable (sha256 : Bytes → Bytes)

def isWhiteSpace (c : Char) : Bool :=
  (9 ≤ c.toNat ∧ c.toNat ≤ 13) ∨ c.toNat = 0x20 ∨ c.toNat = 0x85 ∨ c.toNat = 0xA0 ∨
    c.toNat = 0x1680 ∨ (0x2000 ≤ c.toNat ∧ c.toNat ≤ 0x200A) ∨ c.toNat = 0x2028 ∨
    c.toNat = 0x2029 ∨ c.toNat = 0x202F ∨ c.toNat = 0x205F ∨ c.toNat = 0x3000

def normalizeAccount (userId : String) : String :=
  let trimmed := ((userId.toList.dropWhile isWhiteSpace).reverse.dropWhile isWhiteSpace).reverse
  String.ofList (trimmed.map Char.toLower)

def accountEpochDigest (userId : String) (epoch : UInt64) : String :=
  Framing.hexEncode (sha256 (utf8 (normalizeAccount userId) ++ utf8 "|" ++
    Framing.beBytes 8 epoch.toNat))

def tagKey (userId : String) (epoch : UInt64) : String :=
  "intake:v2:" ++ accountEpochDigest sha256 userId epoch

def legacyTagKey (userId : String) (epoch : UInt64) : String :=
  "intake:" ++ accountEpochDigest sha256 userId epoch

def generationKey (userId : String) : String :=
  "intake:gen:" ++ Framing.hexEncode (sha256 (utf8 (normalizeAccount userId) ++ utf8 "|generation"))

variable {sha256}

theorem accountEpochDigest_injective (hsh : Injective sha256) (userId : String) :
    Injective (accountEpochDigest sha256 userId) := by
  intro e e' h
  have hby := append_cancel_left (hsh (Framing.hexEncode_injective h))
  have hbo : ∀ x : UInt64, x.toNat < 256 ^ 8 := fun x => x.toNat_lt
  exact UInt64.toNat_inj.mp (Framing.beBytes_injective (hbo e) (hbo e') hby)

theorem tagKey_injective (hsh : Injective sha256) (userId : String) :
    Injective (tagKey sha256 userId) := fun _ _ h =>
  accountEpochDigest_injective hsh userId (String.append_right_inj _ |>.mp h)

theorem tagKey_congr {userId userId' : String}
    (h : normalizeAccount userId = normalizeAccount userId') (epoch : UInt64) :
    tagKey sha256 userId epoch = tagKey sha256 userId' epoch ∧
      legacyTagKey sha256 userId epoch = legacyTagKey sha256 userId' epoch := by
  unfold tagKey legacyTagKey accountEpochDigest
  rw [h]
  exact ⟨rfl, rfl⟩

end

structure PublishableTag where
  epoch : UInt64
  tag : Bytes
  ttl : UInt64
deriving DecidableEq

/-- What of a request is kept: of the first entries those with a tag of the right length and an
epoch that is not over. -/
def publishableTags (entries : List (UInt64 × Bytes)) (nowUnix : UInt64) : List PublishableTag :=
  ((entries.take maxPublishedEpochs).filter fun entry => entry.2.length = intakeTagLen).filterMap
    fun entry => (tagTtlSeconds entry.1 (intakeEpoch nowUnix)).map fun ttl =>
      ⟨entry.1, entry.2, ttl⟩

/-- Redis, as far as intake tags use it. -/
structure IntakeStore where
  generations : Keyspace UInt32
  sets : Keyspace (Finset Bytes)
  legacy : Keyspace Bytes

/-- An entry as the script gets it. -/
structure KeyedTag where
  setKey : String
  legacyKey : String
  tag : Bytes
  ttl : Nat

/-- The local variables of the script. -/
structure ScriptState where
  store : IntakeStore
  cleared : List String
  accepted : Nat

section

variable (now : Nat) (replace : Bool)

/-- The first entry of a key empties its set when the generation goes up. -/
def clearEntry (st : ScriptState) (t : KeyedTag) : ScriptState :=
  if replace ∧ t.setKey ∉ st.cleared then
    { st with
      store := { st.store with
        sets := st.store.sets.del t.setKey
        legacy := st.store.legacy.del t.legacyKey }
      cleared := t.setKey :: st.cleared }
  else st

/-- One round of the script's loop; the flag says whether the script goes on. -/
def publishEntry (st : ScriptState) (t : KeyedTag) : ScriptState × Bool :=
  let st := clearEntry replace st t
  let members := st.store.sets.smembers now t.setKey
  if t.tag ∈ members ∨ members.card < maxTagsPerEpoch then
    let sets := st.store.sets.sadd now t.setKey t.tag
    match sets.expire now t.setKey t.ttl with
    -- An error of `EXPIRE` stops the script after the `SADD`.
    | none => ({ st with store := { st.store with sets } }, false)
    | some sets => ({ st with store := { st.store with sets }, accepted := st.accepted + 1 }, true)
  else (st, true)

def publishLoop (st : ScriptState) : List KeyedTag → ScriptState × Bool
  | [] => (st, true)
  | t :: ts =>
    match publishEntry now replace st t with
    | (st, true) => publishLoop st ts
    | (st, false) => (st, false)

end

/-- What the script returns. -/
structure PublishReply where
  after : UInt32
  accepted : Nat
  before : UInt32

inductive PublishOutcome
  | firstGeneration
  | rotated
  | added
  | addedPreGeneration
  | refusedPreGeneration
  | refusedStale

def publishOutcome (before sent : UInt32) : PublishOutcome :=
  if before < sent then if before = 0 then .firstGeneration else .rotated
  else if sent = before then if before = 0 then .addedPreGeneration else .added
  else if sent = 0 then .refusedPreGeneration else .refusedStale

section

variable (sha256 : Bytes → Bytes) (account : String)

def keyed (t : PublishableTag) : KeyedTag :=
  ⟨tagKey sha256 account t.epoch, legacyTagKey sha256 account t.epoch, t.tag, t.ttl.toNat⟩

def currentGeneration (store : IntakeStore) (now : Nat) : UInt32 :=
  (store.generations.get now (generationKey sha256 account)).getD 0

/-- The generation is stored when it goes up, and otherwise made permanent. -/
def storeGeneration (store : IntakeStore) (now : Nat) (generation : UInt32) : IntakeStore :=
  let key := generationKey sha256 account
  if currentGeneration sha256 account store now < generation then
    { store with generations := store.generations.set now key generation none }
  else if 0 < generation then { store with generations := store.generations.persist now key }
  else store

/-- A publish: the script and the reading of its reply; `none` if the script fails. -/
def publishTags (store : IntakeStore) (now : Nat) (generation : UInt32)
    (tags : List PublishableTag) : IntakeStore × Option (PublishReply × PublishOutcome) :=
  let current := currentGeneration sha256 account store now
  if generation < current then
    (store, some (⟨current, 0, current⟩, publishOutcome current generation))
  else
    let start : ScriptState := ⟨storeGeneration sha256 account store now generation, [], 0⟩
    match publishLoop now (current < generation) start (tags.map (keyed sha256 account)) with
    | (st, false) => (st.store, none)
    | (st, true) =>
      (st.store, some (⟨max current generation, st.accepted, current⟩,
        publishOutcome current generation))

end

inductive UnrecognisedReason
  | noServerKey
  | unsealFailed
  | wrongLength
  | nothingPublished
  | noMatch
deriving DecidableEq

inductive IntakeCheck
  | vouched
  | absent
  | unrecognised (reason : UnrecognisedReason)
  | unavailable
deriving DecidableEq

/-- The replies to the reads of a check, by epoch; `none` if a read fails. -/
structure IntakeReads where
  members : UInt64 → Option (Finset Bytes)
  legacy : UInt64 → Option (Option Bytes)

def tagMatches (presented stored : Bytes) : Bool :=
  presented.length = intakeTagLen ∧ stored.length = intakeTagLen ∧ presented = stored

def checkEpochs (reads : IntakeReads) (presented : Bytes) : Bool → List UInt64 → IntakeCheck
  | anyPublished, [] => .unrecognised (if anyPublished then .noMatch else .nothingPublished)
  | anyPublished, epoch :: epochs =>
    match reads.members epoch, reads.legacy epoch with
    | some members, some legacy =>
      if (∃ stored ∈ members, tagMatches presented stored) ∨
          ∃ stored ∈ legacy, tagMatches presented stored then .vouched
      else checkEpochs reads presented (anyPublished || members ≠ ∅ || legacy.isSome) epochs
    | _, _ => .unavailable

/-- Whether an envelope carries a live tag; the server may have no key to open it with. -/
def checkIntakeCredential (openSealed : Option (Bytes → Option Bytes)) (reads : IntakeReads)
    (intakeTagSealed : Bytes) (nowUnix : UInt64) : IntakeCheck :=
  if intakeTagSealed = [] then .absent
  else
    match openSealed with
    | none => .unrecognised .noServerKey
    | some openSealed =>
      match openSealed intakeTagSealed with
      | none => .unrecognised .unsealFailed
      | some presented =>
        if presented.length ≠ intakeTagLen then .unrecognised .wrongLength
        else checkEpochs reads presented false (acceptableEpochs (intakeEpoch nowUnix))

section

variable {now : Nat} {replace : Bool} {st : ScriptState} {t : KeyedTag} {ts : List KeyedTag}

/-- What an entry does after the clearing: the set is full; the tag is added and `EXPIRE` fails; or
it is added and gets its deadline. -/
inductive EntryCase (now : Nat) (st : ScriptState) (t : KeyedTag) : ScriptState × Bool → Prop
  | full (hnot : t.tag ∉ st.store.sets.smembers now t.setKey)
    (hfull : maxTagsPerEpoch ≤ (st.store.sets.smembers now t.setKey).card) :
    EntryCase now st t (st, true)
  | failed (hrange : Keyspace.maxDeadline < now + t.ttl * 1000) :
    EntryCase now st t
      ({ st with store := { st.store with sets := st.store.sets.sadd now t.setKey t.tag } }, false)
  | stored (sets : Keyspace (Finset Bytes))
    (hexpire : (st.store.sets.sadd now t.setKey t.tag).expire now t.setKey t.ttl = some sets) :
    EntryCase now st t
      ({ st with store := { st.store with sets }, accepted := st.accepted + 1 }, true)

theorem publishEntry_case (now : Nat) (replace : Bool) (st : ScriptState) (t : KeyedTag) :
    EntryCase now (clearEntry replace st t) t (publishEntry now replace st t) := by
  unfold publishEntry
  generalize clearEntry replace st t = st'
  dsimp only
  split_ifs with hop
  · cases he : (st'.store.sets.sadd now t.setKey t.tag).expire now t.setKey t.ttl with
    | none => exact .failed (expire_eq_none_iff.mp he)
    | some sets => exact .stored sets he
  · rw [not_or, not_lt] at hop
    exact .full hop.1 hop.2

theorem publishLoop_cons : publishLoop now replace st (t :: ts) = if (publishEntry now replace st t).2 then
      publishLoop now replace (publishEntry now replace st t).1 ts else publishEntry now replace st t := by
  rw [publishLoop]
  rcases publishEntry now replace st t with ⟨st', _ | _⟩ <;> rfl

theorem publishLoop_invariant {P : ScriptState → Prop}
    (hst : ∀ st, ∀ t ∈ ts, P st → P (publishEntry now replace st t).1) (h : P st) :
    P (publishLoop now replace st ts).1 := by
  induction ts generalizing st with
  | nil => exact h
  | cons t ts ih =>
    have hen := hst st t (by simp) h
    rw [publishLoop_cons]
    split_ifs
    · exact ih (fun st t ht => hst st t (by simp [ht])) hen
    · exact hen

theorem publishLoop_rule {P : List KeyedTag → ScriptState → Prop}
    (hst : ∀ t ts st, P (t :: ts) st → (publishEntry now replace st t).2 = true →
      P ts (publishEntry now replace st t).1) (h : P ts st) (hok : (publishLoop now replace st ts).2 = true) :
    P [] (publishLoop now replace st ts).1 := by
  induction ts generalizing st with
  | nil => exact h
  | cons t ts ih =>
    rw [publishLoop_cons] at hok ⊢
    split_ifs at hok ⊢ with hg
    · exact ih (hst t ts st h hg) hok
    · exact absurd hok hg

theorem clearEntry_frame (replace : Bool) (st : ScriptState) (t : KeyedTag) :
    (clearEntry replace st t).store.generations = st.store.generations ∧
      (∀ k ≠ t.setKey, (clearEntry replace st t).store.sets k = st.store.sets k) ∧
      (∀ k ≠ t.legacyKey, (clearEntry replace st t).store.legacy k = st.store.legacy k) := by
  unfold clearEntry
  split_ifs
  · exact ⟨rfl, fun k hk => del_apply_of_ne hk, fun k hk => del_apply_of_ne hk⟩
  · exact ⟨rfl, fun _ _ => rfl, fun _ _ => rfl⟩

theorem publishEntry_frame (now : Nat) (replace : Bool) (st : ScriptState) (t : KeyedTag) :
    (publishEntry now replace st t).1.store.generations = st.store.generations ∧
      (∀ k ≠ t.setKey, (publishEntry now replace st t).1.store.sets k = st.store.sets k) ∧
      (∀ k ≠ t.legacyKey, (publishEntry now replace st t).1.store.legacy k = st.store.legacy k) := by
  obtain ⟨hg, hse, hl⟩ := clearEntry_frame replace st t
  have hca := publishEntry_case now replace st t
  generalize publishEntry now replace st t = result at hca
  cases hca with
  | full hn hf => exact ⟨hg, hse, hl⟩
  | failed hr =>
    refine ⟨hg, fun k hk => ?_, hl⟩
    exact (sadd_apply_of_ne hk).trans (hse k hk)
  | stored sets he =>
    refine ⟨hg, fun k hk => ?_, hl⟩
    calc sets k = (clearEntry replace st t).store.sets.sadd now t.setKey t.tag k :=
          expire_apply_of_ne he hk
      _ = (clearEntry replace st t).store.sets k := sadd_apply_of_ne hk
      _ = st.store.sets k := hse k hk

theorem mem_cleared_clearEntry (hre : replace = true) : t.setKey ∈ (clearEntry replace st t).cleared := by
  unfold clearEntry
  split_ifs with h
  · exact mem_cons_self
  · by_contra hn
    exact h ⟨hre, hn⟩

theorem cleared_publishEntry :
    (publishEntry now replace st t).1.cleared = (clearEntry replace st t).cleared := by
  have hca := publishEntry_case now replace st t
  generalize publishEntry now replace st t = result at hca
  cases hca <;> rfl

theorem cleared_subset_publishEntry : st.cleared ⊆ (publishEntry now replace st t).1.cleared := by
  rw [cleared_publishEntry]
  unfold clearEntry
  split_ifs
  · exact subset_cons_self _ _
  · exact Subset.refl _

def Bounded (now : Nat) (emptied : Bool) (bound : String → Finset Bytes) (st : ScriptState) : Prop :=
  ∀ key, (emptied = true → key ∈ st.cleared) → st.store.sets.smembers now key ⊆ bound key

variable {bound : String → Finset Bytes} {emptied : Bool}

theorem Bounded.clearEntry (h : Bounded now emptied bound st) :
    Bounded now emptied bound (clearEntry replace st t) := by
  intro key hcl
  unfold Messaging.clearEntry at hcl ⊢
  split_ifs at hcl ⊢
  · by_cases hk : key = t.setKey
    · simp [hk]
    · rw [smembers_congr (del_apply_of_ne hk)]
      exact h key fun hem => (mem_cons.mp (hcl hem)).resolve_left hk
  · exact h key hcl

theorem smembers_publishEntry_subset : (publishEntry now replace st t).1.store.sets.smembers now t.setKey ⊆
      insert t.tag ((clearEntry replace st t).store.sets.smembers now t.setKey) := by
  have hca := publishEntry_case now replace st t
  generalize publishEntry now replace st t = result at hca
  cases hca with
  | full hn hf => exact Finset.subset_insert _ _
  | failed hr =>
    rw [smembers_sadd_self]
  | stored sets he =>
    refine (smembers_expire_subset he).trans ?_
    rw [smembers_sadd_self]

theorem Bounded.publishEntry (h : Bounded now emptied bound st) (ht : t.tag ∈ bound t.setKey) :
    Bounded now emptied bound (publishEntry now replace st t).1 := by
  have hcle : Bounded now emptied bound (Messaging.clearEntry replace st t) := h.clearEntry
  intro key hcl
  rw [cleared_publishEntry] at hcl
  by_cases hk : key = t.setKey
  · subst hk
    exact smembers_publishEntry_subset.trans (Finset.insert_subset ht (hcle _ hcl))
  · have hf := (publishEntry_frame now replace st t).2.1 key hk
    have hf' := (clearEntry_frame replace st t).2.1 key hk
    rw [smembers_congr (hf.trans hf'.symm)]
    exact hcle key hcl

theorem Bounded.publishLoop (h : Bounded now emptied bound st) (hts : ∀ t ∈ ts, t.tag ∈ bound t.setKey) :
    Bounded now emptied bound (publishLoop now replace st ts).1 :=
  publishLoop_invariant (P := Bounded now emptied bound)
    (fun _ t ht hst => hst.publishEntry (hts t ht)) h

theorem mem_cleared_publishLoop (hre : replace = true) (hok : (publishLoop now replace st ts).2 = true) :
    ∀ t ∈ ts, t.setKey ∈ (publishLoop now replace st ts).1.cleared := by
  have hru := publishLoop_rule (P := fun rest st => ∀ t ∈ ts, t ∈ rest ∨ t.setKey ∈ st.cleared) ?_
    (fun t ht => .inl ht) hok
  · exact fun t ht => (hru t ht).resolve_left not_mem_nil
  · intro u rest st ha _ t ht
    rcases ha t ht with hm | hcl
    · rcases mem_cons.mp hm with rfl | hm
      · exact .inr (cleared_publishEntry ▸ mem_cleared_clearEntry hre)
      · exact .inl hm
    · exact .inr (cleared_subset_publishEntry hcl)

theorem legacy_publishEntry :
    (publishEntry now replace st t).1.store.legacy = (clearEntry replace st t).store.legacy := by
  have hca := publishEntry_case now replace st t
  generalize publishEntry now replace st t = result at hca
  cases hca <;> rfl

theorem legacy_publishEntry_apply (k : String) :
    (publishEntry now replace st t).1.store.legacy k = st.store.legacy k ∨
      (publishEntry now replace st t).1.store.legacy k = none := by
  rw [legacy_publishEntry]
  unfold clearEntry
  split_ifs
  · by_cases hk : k = t.legacyKey
    · exact .inr (by simp [hk, Keyspace.del])
    · exact .inl (del_apply_of_ne hk)
  · exact .inl rfl

theorem legacy_publishLoop_apply (k : String) :
    (publishLoop now replace st ts).1.store.legacy k = st.store.legacy k ∨
      (publishLoop now replace st ts).1.store.legacy k = none := by
  refine publishLoop_invariant (P := fun st' => st'.store.legacy k = st.store.legacy k ∨
    st'.store.legacy k = none) (fun st' t _ h => ?_) (.inl rfl)
  rcases @legacy_publishEntry_apply now replace st' t k with heq | hno
  · rw [heq]
    exact h
  · exact .inr hno

theorem legacy_of_mem_cleared {setKey legacyKey : String}
    (hke : ∀ t ∈ ts, t.setKey = setKey → t.legacyKey = legacyKey) (hst : setKey ∉ st.cleared)
    (hcl : setKey ∈ (publishLoop now replace st ts).1.cleared) :
    (publishLoop now replace st ts).1.store.legacy legacyKey = none := by
  refine publishLoop_invariant (P := fun st => setKey ∈ st.cleared → st.store.legacy legacyKey = none)
    (fun st t ht h hm => ?_) (fun hm => absurd hm hst) hcl
  by_cases ho : setKey ∈ st.cleared
  · rcases @legacy_publishEntry_apply now replace st t legacyKey with heq | hno
    · rw [heq]
      exact h ho
    · exact hno
  · rw [cleared_publishEntry] at hm
    rw [legacy_publishEntry]
    unfold clearEntry at hm ⊢
    split_ifs at hm ⊢
    · have hk : setKey = t.setKey := (mem_cons.mp hm).resolve_right ho
      simp [Keyspace.del, hke t ht hk.symm]
    · exact absurd hm ho

theorem generations_publishLoop :
    (publishLoop now replace st ts).1.store.generations = st.store.generations :=
  publishLoop_invariant (P := fun st' => st'.store.generations = st.store.generations)
    (fun st' t _ h => (publishEntry_frame now replace st' t).1.trans h) rfl

end

section

variable {sha256 : Bytes → Bytes} {account : String} {now : Nat} {generation : UInt32}
  {entries : List (UInt64 × Bytes)} {nowUnix : UInt64} {tags : List PublishableTag}
  {store : IntakeStore}

theorem mem_publishableTags {t : PublishableTag} : t ∈ publishableTags entries nowUnix ↔
    (t.epoch, t.tag) ∈ entries.take maxPublishedEpochs ∧ t.tag.length = intakeTagLen ∧
      tagTtlSeconds t.epoch (intakeEpoch nowUnix) = some t.ttl := by
  simp only [publishableTags, mem_filterMap, mem_filter, Option.map_eq_some_iff,
    decide_eq_true_eq]
  constructor
  · rintro ⟨entry, ⟨hen, hl⟩, ttl, ht, rfl⟩
    exact ⟨hen, hl, ht⟩
  · rintro ⟨hen, hl, ht⟩
    exact ⟨_, ⟨hen, hl⟩, t.ttl, ht, rfl⟩

theorem length_publishableTags_le : (publishableTags entries nowUnix).length ≤ maxPublishedEpochs :=
  calc (publishableTags entries nowUnix).length
      ≤ ((entries.take maxPublishedEpochs).filter fun e => e.2.length = intakeTagLen).length :=
        length_filterMap_le _ _
    _ ≤ (entries.take maxPublishedEpochs).length := length_filter_le _ _
    _ ≤ maxPublishedEpochs := length_take_le _ _

theorem sets_storeGeneration : (storeGeneration sha256 account store now generation).sets = store.sets := by
  unfold storeGeneration
  dsimp only
  split_ifs <;> rfl

theorem legacy_storeGeneration :
    (storeGeneration sha256 account store now generation).legacy = store.legacy := by
  unfold storeGeneration
  dsimp only
  split_ifs <;> rfl

/-- A publish is refused, or it runs the loop over its tags. -/
inductive PublishCase (sha256 : Bytes → Bytes) (account : String) (store : IntakeStore) (now : Nat)
    (generation : UInt32) (tags : List PublishableTag) :
    IntakeStore × Option (PublishReply × PublishOutcome) → Prop
  | stale (hstale : generation < currentGeneration sha256 account store now) :
    PublishCase sha256 account store now generation tags
      (store, some (⟨currentGeneration sha256 account store now, 0,
        currentGeneration sha256 account store now⟩,
        publishOutcome (currentGeneration sha256 account store now) generation))
  | ran (st : ScriptState) (ok : Bool)
    (hstale : ¬ generation < currentGeneration sha256 account store now)
    (hloop : publishLoop now (currentGeneration sha256 account store now < generation)
      ⟨storeGeneration sha256 account store now generation, [], 0⟩
      (tags.map (keyed sha256 account)) = (st, ok)) :
    PublishCase sha256 account store now generation tags
      (st.store, if ok then some (⟨generation, st.accepted, currentGeneration sha256 account store now⟩,
        publishOutcome (currentGeneration sha256 account store now) generation) else none)

theorem publishTags_case (sha256 : Bytes → Bytes) (account : String) (store : IntakeStore)
    (now : Nat) (generation : UInt32) (tags : List PublishableTag) :
    PublishCase sha256 account store now generation tags (publishTags sha256 account store now generation tags) := by
  unfold publishTags
  dsimp only
  split_ifs with hs
  · exact .stale hs
  · have hma : max (currentGeneration sha256 account store now) generation = generation :=
      if_pos (UInt32.not_lt.mp hs)
    rw [hma]
    rcases hl : publishLoop now (currentGeneration sha256 account store now < generation)
      ⟨storeGeneration sha256 account store now generation, [], 0⟩
      (tags.map (keyed sha256 account)) with ⟨st, _ | _⟩
    · exact .ran st false hs hl
    · exact .ran st true hs hl

theorem currentGeneration_storeGeneration (h : ¬ generation < currentGeneration sha256 account store now) :
    currentGeneration sha256 account (storeGeneration sha256 account store now generation) now = generation := by
  have heq (hra : ¬ currentGeneration sha256 account store now < generation) :
      currentGeneration sha256 account store now = generation :=
    UInt32.le_antisymm (UInt32.not_lt.mp h) (UInt32.not_lt.mp hra)
  unfold storeGeneration
  dsimp only
  split_ifs with hra hpo
  · simp [currentGeneration, Keyspace.get, Keyspace.cell, Keyspace.set, Option.filter, Cell.live]
  · refine Eq.trans ?_ (heq hra)
    unfold currentGeneration Keyspace.persist Keyspace.get
    cases hce : store.generations.cell now (generationKey sha256 account) with
    | none => rw [hce]
    | some c => simp [Keyspace.cell, Option.filter, Cell.live]
  · exact heq hra

theorem currentGeneration_of_ran {replace ok : Bool} {ts : List KeyedTag} {st : ScriptState}
    (hs : ¬ generation < currentGeneration sha256 account store now)
    (hl : publishLoop now replace ⟨storeGeneration sha256 account store now generation, [], 0⟩ ts = (st, ok)) :
    currentGeneration sha256 account st.store now = generation := by
  have hg : st.store.generations =
      (storeGeneration sha256 account store now generation).generations := by
    have h := @generations_publishLoop now replace ⟨storeGeneration sha256 account store now generation, [], 0⟩ ts
    rwa [hl] at h
  rw [currentGeneration, hg]
  exact currentGeneration_storeGeneration hs

theorem currentGeneration_publishTags (hs : ¬ generation < currentGeneration sha256 account store now) :
    currentGeneration sha256 account (publishTags sha256 account store now generation tags).1 now = generation := by
  have hca := publishTags_case sha256 account store now generation tags
  generalize publishTags sha256 account store now generation tags = result at hca
  cases hca with
  | stale h => exact absurd h hs
  | ran st ok hs hl => exact currentGeneration_of_ran hs hl

end

section

variable {reads : IntakeReads} {presented : Bytes} {anyPublished : Bool} {epochs : List UInt64}

theorem mem_of_checkEpochs (h : checkEpochs reads presented anyPublished epochs = .vouched) :
    ∃ epoch ∈ epochs, (∃ members ∈ reads.members epoch, presented ∈ members) ∨
      ∃ legacy ∈ reads.legacy epoch, presented ∈ legacy := by
  induction epochs generalizing anyPublished with
  | nil => cases h
  | cons epoch epochs ih =>
    rw [checkEpochs] at h
    split at h
    · rename_i members legacy hme hl
      split_ifs at h with hma
      · refine ⟨epoch, by simp, ?_⟩
        rcases hma with ⟨stored, hm, hma⟩ | ⟨stored, hm, hma⟩
        · have heq : presented = stored := (of_decide_eq_true hma).2.2
          exact .inl ⟨members, hme, heq ▸ hm⟩
        · have heq : presented = stored := (of_decide_eq_true hma).2.2
          exact .inr ⟨legacy, hl, heq ▸ hm⟩
      · obtain ⟨epoch', hm, hre⟩ := ih h
        exact ⟨epoch', by simp [hm], hre⟩
    · cases h

theorem mem_of_vouched {openSealed : Option (Bytes → Option Bytes)} {intakeTagSealed : Bytes}
    {nowUnix : UInt64}
    (h : checkIntakeCredential openSealed reads intakeTagSealed nowUnix = .vouched) :
    ∃ opener ∈ openSealed, ∃ presented ∈ opener intakeTagSealed,
      ∃ epoch ∈ acceptableEpochs (intakeEpoch nowUnix), (∃ members ∈ reads.members epoch, presented ∈ members) ∨
          ∃ legacy ∈ reads.legacy epoch, presented ∈ legacy := by
  unfold checkIntakeCredential at h
  split_ifs at h
  split at h
  · cases h
  · rename_i opener
    split at h
    · cases h
    · rename_i presented hop
      split_ifs at h
      exact ⟨opener, rfl, presented, hop, mem_of_checkEpochs h⟩

theorem le_of_mem_acceptableEpochs {epoch nowEpoch : UInt64} (h : epoch ∈ acceptableEpochs nowEpoch) :
    nowEpoch.toNat ≤ epoch.toNat + 1 := by
  unfold acceptableEpochs at h
  split_ifs at h with hpo
  · have hon : 1 ≤ nowEpoch.toNat := UInt64.le_iff_toNat_le.mp hpo
    rcases mem_cons.mp h with rfl | h
    · omega
    · rw [mem_singleton.mp h, UInt64.toNat_sub_of_le _ _ hpo]
      simp only [UInt64.toNat_one]
      omega
  · rw [mem_singleton.mp h]
    omega

end

section

variable {entries : List (UInt64 × Bytes)} {p t e ttl : UInt64} {tag : PublishableTag}

/-- How long a tag of an epoch has to live from the epoch of its publication on, in seconds: to
the end of the last epoch that accepts it. -/
def lifetime (epoch nowEpoch : UInt64) : Nat :=
  (epoch.toNat + intakeTagGraceEpochs.toNat + 1 - nowEpoch.toNat) * intakeEpochSeconds.toNat

/-- The lifetime was computed without overflow, and the tag is there whenever its epoch is still
accepted. -/
def LivesAsAccepted (p : UInt64) (tag : PublishableTag) : Prop :=
  tag.ttl.toNat = lifetime tag.epoch (intakeEpoch p) ∧
    ∀ t ≥ p, tag.epoch ∈ acceptableEpochs (intakeEpoch t) → t.toNat < p.toNat + tag.ttl.toNat

theorem toNat_intakeEpoch (p : UInt64) : (intakeEpoch p).toNat = p.toNat / 86400 := by
  rw [intakeEpoch, UInt64.toNat_div]
  rfl

theorem lifetime_eq (e n : UInt64) : lifetime e n = (e.toNat + 2 - n.toNat) * 86400 := rfl

theorem ttl_of_mem_publishableTags (h : tag ∈ publishableTags entries p) :
    tagTtlSeconds tag.epoch (intakeEpoch p) = some tag.ttl := by
  obtain ⟨entry, -, hen⟩ := mem_filterMap.mp h
  obtain ⟨ttl, ht, rfl⟩ := Option.map_eq_some_iff.mp hen
  exact ht

theorem toNat_ttl (h : tagTtlSeconds e (intakeEpoch p) = some ttl)
    (hf : lifetime e (intakeEpoch p) < 2 ^ 64) : ttl.toNat = lifetime e (intakeEpoch p) := by
  have hn := toNat_intakeEpoch p
  have hp : p.toNat < 2 ^ 64 := p.toNat_lt
  have hse : intakeEpochSeconds.toNat = 86400 := rfl
  have hg : intakeTagGraceEpochs.toNat = 1 := rfl
  rw [lifetime_eq] at hf ⊢
  simp only [tagTtlSeconds, UInt64.lt_iff_toNat_lt, UInt64.toNat_add, hg] at h
  split_ifs at h with ho
  obtain rfl := Option.some.inj h
  rw [UInt64.toNat_mul, UInt64.toNat_sub, UInt64.toNat_add, UInt64.toNat_add, hse, hg]
  have hon : (1 : UInt64).toNat = 1 := rfl
  rw [hon]
  omega

theorem lt_of_mem_acceptableEpochs (h : e ∈ acceptableEpochs (intakeEpoch t)) :
    t.toNat < (e.toNat + 2) * 86400 := by
  have hn := toNat_intakeEpoch t
  simp only [acceptableEpochs, mem_cons] at h
  obtain rfl | h := h
  · omega
  · split_ifs at h with hon
    · obtain rfl := mem_singleton.mp h
      have hs := UInt64.toNat_sub_of_le _ _ hon
      rw [hs]
      have hle := UInt64.le_iff_toNat_le.mp hon
      have hon : (1 : UInt64).toNat = 1 := rfl
      omega
    · cases h

/-- **A published tag lives as long as its epoch is accepted exactly if its lifetime fits in 64
bits.** -/
theorem livesAsAccepted_iff (h : tag ∈ publishableTags entries p) :
    LivesAsAccepted p tag ↔ lifetime tag.epoch (intakeEpoch p) < 2 ^ 64 := by
  constructor
  · rintro ⟨hexact, -⟩
    exact hexact ▸ tag.ttl.toNat_lt
  · intro hfits
    have hexact := toNat_ttl (ttl_of_mem_publishableTags h) hfits
    refine ⟨hexact, fun t _ ht => ?_⟩
    have hlast := lt_of_mem_acceptableEpochs ht
    have hnow := toNat_intakeEpoch p
    rw [hexact, lifetime_eq]
    omega

/-- A tag for the next day, published at noon. -/
theorem livesAsAccepted_tomorrow : LivesAsAccepted 1793534400 ⟨20759, replicate 16 7, 259200⟩ := by
  have h : ⟨20759, replicate 16 7, 259200⟩ ∈
      publishableTags [(20759, replicate 16 7)] 1793534400 := by decide +kernel
  exact (livesAsAccepted_iff h).mpr (by decide +kernel)

/-- The lifetime of a tag for an epoch that is `2 ^ 57` days away wraps to nothing. -/
theorem not_livesAsAccepted_far : ⟨144115188075876628, replicate 16 7, 0⟩ ∈
        publishableTags [(144115188075876628, replicate 16 7)] 1793491200 ∧
      ¬LivesAsAccepted 1793491200 ⟨144115188075876628, replicate 16 7, 0⟩ := by
  refine ⟨by decide +kernel, fun h => ?_⟩
  exact absurd h.1 (by decide +kernel)

end

end ConstructServer.Messaging
