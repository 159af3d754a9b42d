import ConstructServer.Library.Collections
import ConstructServer.Library.RedisStream
import ConstructServer.Queue.Envelope

/-!
# Merging the two reads of a mailbox

A device reads its own stream and the user stream of its account. One page merges the two reads:
a message in both is taken once, in its device copy; user entries named to another device are
left out; entries that decode to nothing keep their ids. The page is ordered by stream id and
ends where the shorter of two full reads ends.
-/

namespace ConstructServer.Queue

open Redis Collections List

abbrev ReadEntry := StreamId × Option MessageEnvelope

structure MailboxPage where
  entries : List ReadEntry
  userOnlyIds : List String
  siblingSkipped : Nat
  userExaminedThrough : Option StreamId
  hasMore : Bool
deriving DecidableEq

section

variable (sha256 : Bytes → Bytes) (readerDevice : String)

def isSibling (env : MessageEnvelope) : Bool := env.recipientDevice.any (· ≠ readerDevice)

structure MergeState where
  byMessageId : AList fun _ : MessageDedupKey => StreamId × MessageEnvelope
  orphans : List ReadEntry
  siblingSkipped : Nat

def mergeUserEntry (st : MergeState) (e : ReadEntry) : MergeState :=
  match e.2 with
  | some env =>
    if isSibling readerDevice env then { st with siblingSkipped := st.siblingSkipped + 1 }
    else { st with byMessageId := st.byMessageId.insert (.forEnvelope sha256 env) (e.1, env) }
  | none => { st with orphans := st.orphans ++ [(e.1, none)] }

def mergeDeviceEntry (st : MergeState) (e : ReadEntry) : MergeState :=
  match e.2 with
  | some env =>
    { st with byMessageId := st.byMessageId.insert (.forEnvelope sha256 env) (e.1, env) }
  | none => { st with orphans := st.orphans ++ [(e.1, none)] }

def mergeReads (device user : List ReadEntry) : MergeState :=
  device.foldl (mergeDeviceEntry sha256)
    (user.foldl (mergeUserEntry sha256 readerDevice) ⟨∅, [], 0⟩)

def mergedEntries (order : IterOrder (StreamId × MessageEnvelope)) (device user : List ReadEntry) :
    List ReadEntry :=
  let st := mergeReads sha256 readerDevice device user
  (order.order (values st.byMessageId)).map (fun p => (p.1, some p.2)) ++ st.orphans

/-- The last id of the shorter of the reads that came back full. -/
def horizonOf (device user : List ReadEntry) (sourceLimit : Nat) : Option StreamId :=
  (([device, user].filter fun read => sourceLimit ≤ read.length).filterMap
    fun read => read.getLast?.map Prod.fst).min?

def pastHorizon (horizon : Option StreamId) (id : StreamId) : Bool := horizon.any (· < id)

def keptEntries (order : IterOrder (StreamId × MessageEnvelope)) (device user : List ReadEntry)
    (sourceLimit : Nat) : List ReadEntry :=
  ((mergedEntries sha256 readerDevice order device user).insertionSort
    fun a b => a.1 ≤ b.1).filter
      fun e => !pastHorizon (horizonOf device user sourceLimit) e.1

/-- One page of at most `count` entries out of two reads of at most `sourceLimit`. -/
def mergeMailboxPages (order : IterOrder (StreamId × MessageEnvelope))
    (device user : List ReadEntry) (count sourceLimit : Nat) : MailboxPage :=
  let deviceIds := device.filterMap fun e => e.2.map (MessageDedupKey.forEnvelope sha256)
  let horizon := horizonOf device user sourceLimit
  let kept := keptEntries sha256 readerDevice order device user sourceLimit
  let cutByCount := decide (count < kept.length)
  let entries := kept.take count
  { entries
    userOnlyIds := ((entries.filterMap Prod.snd).filter
      fun env => .forEnvelope sha256 env ∉ deviceIds).map (·.messageId)
    siblingSkipped := (mergeReads sha256 readerDevice device user).siblingSkipped
    -- A cut page left examined entries undelivered, so they are read again.
    userExaminedThrough :=
      if cutByCount then none
      else (user.getLast?.map Prod.fst).map fun id =>
        if pastHorizon horizon id then horizon.getD id else id
    hasMore := cutByCount || horizon.isSome }

end

section

variable {sha256 : Bytes → Bytes} {readerDevice : String}

def inserts (sha256 : Bytes → Bytes) (l : List ReadEntry) :
    List (MessageDedupKey × (StreamId × MessageEnvelope)) :=
  l.filterMap fun e => e.2.map fun env => (.forEnvelope sha256 env, (e.1, env))

def ownEntries (readerDevice : String) (user : List ReadEntry) : List ReadEntry :=
  user.filter fun e => e.2.all fun env => !isSibling readerDevice env

theorem mem_inserts {l : List ReadEntry} {k : MessageDedupKey} {v : StreamId × MessageEnvelope} :
    (k, v) ∈ inserts sha256 l ↔ (v.1, some v.2) ∈ l ∧ k = .forEnvelope sha256 v.2 := by
  obtain ⟨id, env⟩ := v
  constructor
  · intro h
    obtain ⟨⟨id', o⟩, hm, ho⟩ := mem_filterMap.mp h
    obtain ⟨env', rfl, heq⟩ := Option.map_eq_some_iff.mp ho
    obtain ⟨rfl, rfl, rfl⟩ : _ = k ∧ id' = id ∧ env' = env := by simpa using heq
    exact ⟨hm, rfl⟩
  · rintro ⟨hm, rfl⟩
    exact mem_filterMap.mpr ⟨_, hm, rfl⟩

theorem mem_ownEntries {user : List ReadEntry} {id : StreamId} {env : MessageEnvelope} :
    (id, some env) ∈ ownEntries readerDevice user ↔ (id, some env) ∈ user ∧
      isSibling readerDevice env = false := by
  simp [ownEntries]

theorem foldl_mergeDeviceEntry (st : MergeState) (l : List ReadEntry) :
    l.foldl (mergeDeviceEntry sha256) st =
      { st with
        byMessageId := insertAll (inserts sha256 l) st.byMessageId
        orphans := st.orphans ++ l.filter fun e => e.2.isNone } := by
  induction l generalizing st with
  | nil => simp [inserts, insertAll]
  | cons e l ih =>
    obtain ⟨id, o⟩ := e
    rw [foldl_cons, ih]
    cases o <;> simp [mergeDeviceEntry, inserts, insertAll]

theorem foldl_mergeUserEntry (st : MergeState) (l : List ReadEntry) :
    (l.foldl (mergeUserEntry sha256 readerDevice) st).byMessageId =
        insertAll (inserts sha256 (ownEntries readerDevice l)) st.byMessageId ∧
      (l.foldl (mergeUserEntry sha256 readerDevice) st).orphans = st.orphans ++ l.filter fun e => e.2.isNone := by
  induction l generalizing st with
  | nil => simp [inserts, insertAll, ownEntries]
  | cons e l ih =>
    obtain ⟨id, o⟩ := e
    rw [foldl_cons, (ih _).1, (ih _).2]
    cases o with
    | none => simp [mergeUserEntry, inserts, insertAll, ownEntries]
    | some env =>
      cases hs : isSibling readerDevice env <;>
        simp [mergeUserEntry, hs, inserts, insertAll, ownEntries]

theorem pairwise_inserts {l : List ReadEntry} (hl : Sorted l) :
    (inserts sha256 l).Pairwise fun a b => a.1 = b.1 → a.2.1 ≤ b.2.1 := by
  rw [inserts, pairwise_filterMap]
  refine hl.imp fun {a b} hab x hx y hy _ => ?_
  obtain ⟨env, -, rfl⟩ := Option.map_eq_some_iff.mp hx
  obtain ⟨env', -, rfl⟩ := Option.map_eq_some_iff.mp hy
  exact hab.le

end

section

variable {sha256 : Bytes → Bytes} {readerDevice : String}
  {order : IterOrder (StreamId × MessageEnvelope)} {device user : List ReadEntry}
  {id : StreamId} {env : MessageEnvelope}

theorem lookup_mergeReads {k : MessageDedupKey} {v : StreamId × MessageEnvelope}
    (h : (mergeReads sha256 readerDevice device user).byMessageId.lookup k = some v) :
    (k, v) ∈ inserts sha256 device ∨ (∀ w, (k, w) ∉ inserts sha256 device) ∧
        (k, v) ∈ inserts sha256 (ownEntries readerDevice user) := by
  rw [mergeReads, foldl_mergeDeviceEntry, (foldl_mergeUserEntry _ _).1] at h
  refine (mem_of_lookup_insertAll h).imp id fun ⟨hno, hu⟩ => ⟨hno, ?_⟩
  obtain hm | ⟨-, hem⟩ := mem_of_lookup_insertAll hu
  · exact hm
  · cases hem

theorem mem_merged_iff_lookup : (id, some env) ∈ mergedEntries sha256 readerDevice order device user ↔
      (mergeReads sha256 readerDevice device user).byMessageId.lookup (.forEnvelope sha256 env) = some (id, env) := by
  have hor : (id, some env) ∉ (mergeReads sha256 readerDevice device user).orphans := by
    simp [mergeReads, foldl_mergeDeviceEntry, (foldl_mergeUserEntry _ _).2]
  simp only [mergedEntries, mem_append, hor, or_false, mem_map,
    IterOrder.mem_order, mem_values, Prod.mk.injEq, Option.some.injEq, Prod.exists]
  constructor
  · rintro ⟨id', env', ⟨k, hk⟩, rfl, rfl⟩
    have hke : k = .forEnvelope sha256 env' := by
      obtain h | ⟨-, h⟩ := lookup_mergeReads hk <;> exact (mem_inserts.mp h).2
    rwa [← hke]
  · intro h
    exact ⟨id, env, ⟨_, h⟩, rfl, rfl⟩

theorem mem_merged_some (h : (id, some env) ∈ mergedEntries sha256 readerDevice order device user) :
    (id, some env) ∈ device ∨ (id, some env) ∈ user ∧ isSibling readerDevice env = false ∧
        ∀ id' env', (id', some env') ∈ device →
          MessageDedupKey.forEnvelope sha256 env' ≠ .forEnvelope sha256 env := by
  obtain h | ⟨hno, h⟩ := lookup_mergeReads (mem_merged_iff_lookup.mp h)
  · exact .inl (mem_inserts.mp h).1
  · obtain ⟨hu, ho⟩ := mem_ownEntries.mp (mem_inserts.mp h).1
    refine .inr ⟨hu, ho, fun id' env' hde hk => ?_⟩
    exact hno (id', env') (mem_inserts.mpr ⟨hde, hk.symm⟩)

theorem mem_merged_none : (id, none) ∈ mergedEntries sha256 readerDevice order device user ↔
      (id, none) ∈ device ∨ (id, none) ∈ user := by
  simp only [mergedEntries, mergeReads, foldl_mergeDeviceEntry, (foldl_mergeUserEntry _ _).2,
    mem_append, mem_map, Prod.mk.injEq, reduceCtorEq, and_false, exists_false,
    nil_append, mem_filter, Option.isNone_none, and_true, false_or]
  exact or_comm

theorem merged_eq_of_key {id' : StreamId} {env' : MessageEnvelope}
    (h : (id, some env) ∈ mergedEntries sha256 readerDevice order device user)
    (h' : (id', some env') ∈ mergedEntries sha256 readerDevice order device user)
    (hk : MessageDedupKey.forEnvelope sha256 env = .forEnvelope sha256 env') : (id, env) = (id', env') := by
  have hl := mem_merged_iff_lookup.mp h
  rw [hk, mem_merged_iff_lookup.mp h'] at hl
  exact (Option.some.inj hl).symm

variable (readerDevice order user) in
theorem exists_merged_of_device (hde : Sorted device) (h : (id, some env) ∈ device) :
    ∃ id' env', (id', some env') ∈ mergedEntries sha256 readerDevice order device user ∧
      MessageDedupKey.forEnvelope sha256 env' = .forEnvelope sha256 env ∧
        (id', some env') ∈ device ∧ id ≤ id' := by
  have hin : (_, (id, env)) ∈ inserts sha256 device := mem_inserts.mpr ⟨h, rfl⟩
  obtain ⟨v, hl, hm, hle⟩ := exists_lookup_insertAll (R := fun v w : StreamId × MessageEnvelope => v.1 ≤ w.1)
    (m := insertAll (inserts sha256 (ownEntries readerDevice user)) ∅)
    (fun v => le_rfl) (pairwise_inserts hde) hin
  obtain ⟨hv, hk⟩ := mem_inserts.mp hm
  refine ⟨v.1, v.2, mem_merged_iff_lookup.mpr ?_, hk.symm, hv, hle⟩
  rw [mergeReads, foldl_mergeDeviceEntry, (foldl_mergeUserEntry _ _).1, ← hk]
  exact hl

variable (order) in
theorem exists_merged_of_user (hde : Sorted device) (hu : Sorted user)
    (h : (id, some env) ∈ user) (ho : isSibling readerDevice env = false) :
    ∃ id' env', (id', some env') ∈ mergedEntries sha256 readerDevice order device user ∧
      MessageDedupKey.forEnvelope sha256 env' = .forEnvelope sha256 env ∧ ((id', some env') ∈ device ∨
        (id', some env') ∈ user ∧ isSibling readerDevice env' = false ∧ id ≤ id') := by
  by_cases hco : ∃ id' env', (id', some env') ∈ device ∧
      MessageDedupKey.forEnvelope sha256 env' = .forEnvelope sha256 env
  · obtain ⟨id', env', hm, hk⟩ := hco
    obtain ⟨id'', env'', hme, hk', hm', -⟩ :=
      exists_merged_of_device readerDevice order user hde hm
    exact ⟨id'', env'', hme, hk'.trans hk, .inl hm'⟩
  · have hin : (_, (id, env)) ∈ inserts sha256 (ownEntries readerDevice user) :=
      mem_inserts.mpr ⟨mem_ownEntries.mpr ⟨h, ho⟩, rfl⟩
    obtain ⟨v, hl, hm, hle⟩ := exists_lookup_insertAll
      (R := fun v w : StreamId × MessageEnvelope => v.1 ≤ w.1) (m := ∅)
      (fun v => le_rfl) (pairwise_inserts (hu.filter _)) hin
    obtain ⟨hv, hk⟩ := mem_inserts.mp hm
    obtain ⟨hvu, hvo⟩ := mem_ownEntries.mp hv
    refine ⟨v.1, v.2, mem_merged_iff_lookup.mpr ?_, hk.symm, .inr ⟨hvu, hvo, hle⟩⟩
    rw [mergeReads, foldl_mergeDeviceEntry, (foldl_mergeUserEntry _ _).1, ← hk, lookup_insertAll_of_not_mem]
    · exact hl
    · intro w hw
      obtain ⟨hm', hk'⟩ := mem_inserts.mp hw
      exact hco ⟨w.1, w.2, hm', hk'.symm⟩

end

section

variable {device user : List ReadEntry} {limit : Nat} {h : StreamId}

theorem mem_of_horizonOf_eq_some (hh : horizonOf device user limit = some h) :
    ∃ e, e.1 = h ∧ (limit ≤ device.length ∧ device.getLast? = some e ∨
      limit ≤ user.length ∧ user.getLast? = some e) := by
  have hm := (List.min?_eq_some_iff.mp hh).1
  simp only [mem_filterMap, mem_filter, mem_cons, not_mem_nil, or_false,
    decide_eq_true_eq, Option.map_eq_some_iff] at hm
  obtain ⟨read, ⟨rfl | rfl, hf⟩, e, he, rfl⟩ := hm
  · exact ⟨e, rfl, .inl ⟨hf, he⟩⟩
  · exact ⟨e, rfl, .inr ⟨hf, he⟩⟩

theorem exists_horizonOf_le {read : List ReadEntry} {e : ReadEntry}
    (hre : read = device ∨ read = user) (hf : limit ≤ read.length)
    (he : read.getLast? = some e) : ∃ h, horizonOf device user limit = some h ∧ h ≤ e.1 := by
  have hm : e.1 ∈ ([device, user].filter fun read => limit ≤ read.length).filterMap
      fun read => read.getLast?.map Prod.fst := by
    refine mem_filterMap.mpr ⟨read, ?_, by simp [he]⟩
    simpa [hf] using hre
  obtain ⟨h, hh⟩ := Option.isSome_iff_exists.mp (isSome_min?_of_mem hm)
  exact ⟨h, hh, (List.min?_eq_some_iff.mp hh).2 _ hm⟩

@[simp]
theorem pastHorizon_none (id : StreamId) : pastHorizon none id = false := rfl

@[simp]
theorem pastHorizon_some (h id : StreamId) : pastHorizon (some h) id = decide (h < id) := rfl

theorem mem_upTo_or_past {l : List ReadEntry} {p : StreamId} {e : ReadEntry} (hl : Sorted l)
    (hli : 0 < limit) (hre : upTo l p limit = device ∨ upTo l p limit = user) (he : e ∈ l)
    (hp : p < e.1) : e ∈ upTo l p limit ∨ pastHorizon (horizonOf device user limit) e.1 := by
  refine (mem_upTo_or_lt hl he hp).imp id fun ⟨hlen, hlt⟩ => ?_
  have hne : upTo l p limit ≠ [] := by
    intro hni
    rw [hni, length_nil] at hlen
    omega
  have hx := List.getLast?_eq_some_getLast hne
  obtain ⟨h, hh, hle⟩ := exists_horizonOf_le hre hlen.ge hx
  rw [hh, pastHorizon_some, decide_eq_true_eq]
  exact lt_of_le_of_lt hle (hlt _ (getLast_mem hne))

end

section

variable {sha256 : Bytes → Bytes} {readerDevice : String}
  {order : IterOrder (StreamId × MessageEnvelope)} {device user : List ReadEntry}
  {count limit : Nat} {e : ReadEntry}

theorem mem_keptEntries : e ∈ keptEntries sha256 readerDevice order device user limit ↔
      e ∈ mergedEntries sha256 readerDevice order device user ∧
        pastHorizon (horizonOf device user limit) e.1 = false := by
  simp [keptEntries]

def OrphansLast (a b : ReadEntry) : Prop := a.2 = none → b.2 = none

theorem pairwise_mergedEntries :
    (mergedEntries sha256 readerDevice order device user).Pairwise OrphansLast := by
  have hor : ∀ e ∈ (mergeReads sha256 readerDevice device user).orphans, e.2 = none := by
    simp only [mergeReads, foldl_mergeDeviceEntry, (foldl_mergeUserEntry _ _).2,
      nil_append, mem_append, mem_filter, Option.isNone_iff_eq_none]
    rintro e (he | he) <;> exact he.2
  refine pairwise_append.mpr ⟨?_, ?_, fun a _ b hb _ => hor b hb⟩
  · refine pairwise_map.mpr (pairwise_of_forall fun a b h => ?_)
    cases h
  · exact pairwise_iff_forall_sublist.mpr fun hab _ => hor _ (hab.subset (by simp))

theorem pairwise_keptEntries : (keptEntries sha256 readerDevice order device user limit).Pairwise
      (StableLE Prod.fst OrphansLast) :=
  (pairwise_insertionSort_stable pairwise_mergedEntries).filter _

def CutByCount (sha256 : Bytes → Bytes) (readerDevice : String)
    (order : IterOrder (StreamId × MessageEnvelope)) (device user : List ReadEntry)
    (count limit : Nat) : Prop :=
  count < (keptEntries sha256 readerDevice order device user limit).length

theorem mem_page_entries (h : e ∈ (mergeMailboxPages sha256 readerDevice order device user count limit).entries) :
    e ∈ mergedEntries sha256 readerDevice order device user ∧
      pastHorizon (horizonOf device user limit) e.1 = false :=
  mem_keptEntries.mp (mem_of_mem_take h)

variable (count limit) in
/-- **What a page leaves out of the merge is after the horizon, or comes after everything in a
page that was cut.** -/
theorem page_cases (he : e ∈ mergedEntries sha256 readerDevice order device user) :
    e ∈ (mergeMailboxPages sha256 readerDevice order device user count limit).entries ∨
      pastHorizon (horizonOf device user limit) e.1 ∨
        CutByCount sha256 readerDevice order device user count limit ∧
        ∀ x ∈ (mergeMailboxPages sha256 readerDevice order device user count limit).entries,
          StableLE Prod.fst OrphansLast x e := by
  by_cases hpa : pastHorizon (horizonOf device user limit) e.1 = true
  · exact .inr (.inl hpa)
  have hke : e ∈ keptEntries sha256 readerDevice order device user limit :=
    mem_keptEntries.mpr ⟨he, Bool.eq_false_iff.mpr hpa⟩
  have hsp := take_append_drop count (keptEntries sha256 readerDevice order device user limit)
  rw [← hsp, mem_append] at hke
  refine hke.imp id fun hdr => .inr ⟨?_, fun x hx => ?_⟩
  · by_contra hle
    rw [drop_eq_nil_of_le (not_lt.mp hle)] at hdr
    exact not_mem_nil hdr
  · have hp : (keptEntries sha256 readerDevice order device user limit).Pairwise
        (StableLE Prod.fst OrphansLast) := pairwise_keptEntries
    rw [← hsp] at hp
    exact (pairwise_append.mp hp).2.2 x hx e hdr

end

section

variable (sha256 : Bytes → Bytes) (readerDevice : String) (device user : List ReadEntry)

def ReaderEntry (e : ReadEntry) : Prop :=
  e ∈ device ∨ e ∈ user ∧ ∀ env ∈ e.2, isSibling readerDevice env = false

/-- The entry `x` is another copy of the message of `e` and takes its place: it is in the device
read and `e` is not, or the read they are both in has it later. -/
def Supersedes (x e : ReadEntry) : Prop :=
  (∃ env' ∈ x.2, ∃ env ∈ e.2, MessageDedupKey.forEnvelope sha256 env' = .forEnvelope sha256 env) ∧
    (x ∈ device ∧ e ∉ device ∨ (x ∈ device ↔ e ∈ device) ∧ e.1 < x.1)

/-- The entries that are left after the copies of a message are made one. -/
def Survives (e : ReadEntry) : Prop :=
  ReaderEntry readerDevice device user e ∧
    ∀ x, ReaderEntry readerDevice device user x → ¬Supersedes sha256 device x e

structure ExactPage (count limit : Nat) (page : MailboxPage) : Prop where
  sorted : Sorted page.entries
  once : ∀ a ∈ page.entries, ∀ b ∈ page.entries, ∀ env ∈ a.2, ∀ env' ∈ b.2,
    MessageDedupKey.forEnvelope sha256 env = .forEnvelope sha256 env' → a = b
  survives : ∀ e ∈ page.entries, Survives sha256 readerDevice device user e ∧
    pastHorizon (horizonOf device user limit) e.1 = false
  length_le : page.entries.length ≤ count
  complete : ∀ e, Survives sha256 readerDevice device user e →
    pastHorizon (horizonOf device user limit) e.1 = false →
      e ∈ page.entries ∨ page.entries.length = count ∧ ∀ x ∈ page.entries, x.1 < e.1
  userOnly : page.userOnlyIds = ((page.entries.filterMap Prod.snd).filter fun env =>
    MessageDedupKey.forEnvelope sha256 env ∉
      device.filterMap fun e => e.2.map (MessageDedupKey.forEnvelope sha256)).map (·.messageId)
  examined : ∀ id ∈ page.userExaminedThrough, ∀ e ∈ user, ReaderEntry readerDevice device user e →
    e ∉ page.entries → (∀ x, ReaderEntry readerDevice device user x → ¬Supersedes sha256 device x e) →
      id < e.1

variable {sha256 readerDevice device user} {order : IterOrder (StreamId × MessageEnvelope)}
  {count limit : Nat} {e : ReadEntry}

theorem survives_of_mem_merged (hde : Sorted device) (hus : Sorted user)
    (h : e ∈ mergedEntries sha256 readerDevice order device user) : Survives sha256 readerDevice device user e := by
  obtain ⟨i, _ | env⟩ := e
  · refine ⟨(mem_merged_none.mp h).imp id fun hu => ⟨hu, fun env he => by cases he⟩, ?_⟩
    rintro x - ⟨⟨env', -, env, he, -⟩, -⟩
    cases he
  have hm := mem_merged_some h
  refine ⟨hm.imp id fun hu => ⟨hu.1, fun env' he' => Option.some.inj he' ▸ hu.2.1⟩, ?_⟩
  rintro ⟨id', o⟩ hx ⟨⟨env', he', env₁, he₁, hk⟩, hl⟩
  obtain rfl : o = some env' := he'
  obtain rfl : env = env₁ := Option.some.inj he₁
  obtain ⟨hxd, hn⟩ | ⟨hs, hlt⟩ := hl
  · obtain hu := hm.resolve_left hn
    exact hu.2.2 id' env' hxd hk
  -- The copy that was kept of the later entry is the entry itself, which is not later.
  · by_cases hxd : (id', some env') ∈ device
    · obtain ⟨id₂, env₂, hme, hk₂, -, hle⟩ :=
        exists_merged_of_device readerDevice order user hde hxd
      obtain ⟨rfl, rfl⟩ := Prod.mk.inj (merged_eq_of_key hme h (hk₂.trans hk))
      exact absurd hlt (not_lt.mpr hle)
    · obtain ⟨hxu, ho⟩ := hx.resolve_left hxd
      obtain ⟨id₂, env₂, hme, hk₂, hco⟩ :=
        exists_merged_of_user order hde hus hxu (ho env' rfl)
      obtain ⟨rfl, rfl⟩ := Prod.mk.inj (merged_eq_of_key hme h (hk₂.trans hk))
      obtain hco | ⟨-, -, hle⟩ := hco
      · exact hxd (hs.mpr hco)
      · exact absurd hlt (not_lt.mpr hle)

theorem mem_merged_of_survives (hde : Sorted device) (hus : Sorted user)
    (h : Survives sha256 readerDevice device user e) : e ∈ mergedEntries sha256 readerDevice order device user := by
  obtain ⟨hre, hl⟩ := h
  obtain ⟨i, _ | env⟩ := e
  · exact mem_merged_none.mpr (hre.imp id And.left)
  by_cases hd : (i, some env) ∈ device
  · obtain ⟨id', env', hme, hk, hd', hle⟩ :=
      exists_merged_of_device readerDevice order user hde hd
    obtain hlt | rfl := hle.lt_or_eq
    · exact absurd ⟨⟨env', rfl, env, rfl, hk⟩, .inr ⟨iff_of_true hd' hd, hlt⟩⟩ (hl _ (.inl hd'))
    · exact hde.eq_of_fst_eq hd hd' rfl ▸ hme
  · obtain ⟨hu, ho⟩ := hre.resolve_left hd
    obtain ⟨id', env', hme, hk, hco⟩ := exists_merged_of_user order hde hus hu (ho env rfl)
    have hdev : (id', some env') ∉ device := fun hd' =>
      hl _ (.inl hd') ⟨⟨env', rfl, env, rfl, hk⟩, .inl ⟨hd', hd⟩⟩
    obtain ⟨hu', ho', hle⟩ := hco.resolve_left hdev
    obtain hlt | rfl := hle.lt_or_eq
    · refine absurd ⟨⟨env', rfl, env, rfl, hk⟩, .inr ⟨iff_of_false hdev hd, hlt⟩⟩ (hl _ ?_)
      exact .inr ⟨hu', fun env₂ he₂ => Option.some.inj he₂ ▸ ho'⟩
    · exact hus.eq_of_fst_eq hu hu' rfl ▸ hme

theorem nodup_mergedEntries (hde : Sorted device) (hu : Sorted user)
    (hdi : ∀ a ∈ device, ∀ b ∈ user, a.1 ≠ b.1) :
    (mergedEntries sha256 readerDevice order device user).Nodup := by
  set m := (mergeReads sha256 readerDevice device user).byMessageId with hm
  have hke : (values m).Nodup := by
    refine Nodup.map_on (fun a ha b hb hab => ?_) m.nodupKeys.nodup
    have hk : ∀ s ∈ m.entries, s.1 = MessageDedupKey.forEnvelope sha256 s.2.2 := fun s hs => by
      obtain h | ⟨-, h⟩ := lookup_mergeReads (AList.mem_lookup_iff.mpr hs) <;> exact (mem_inserts.mp h).2
    exact Sigma.ext ((hk a ha).trans (hab ▸ (hk b hb).symm)) (heq_of_eq hab)
  have hor : (mergeReads sha256 readerDevice device user).orphans.Nodup := by
    have hno : ∀ {l : List ReadEntry}, Sorted l → l.Nodup := fun h => .of_map Prod.fst h.nodup_fst
    simp only [mergeReads, foldl_mergeDeviceEntry, (foldl_mergeUserEntry _ _).2, nil_append]
    refine Nodup.append ((hno hu).filter _) ((hno hde).filter _) fun a ha hb => ?_
    exact hdi a (mem_of_mem_filter hb) a (mem_of_mem_filter ha) rfl
  refine Nodup.append (((order.perm _).nodup_iff.mpr hke).map fun a b hab => ?_) hor fun a ha hb => ?_
  · simpa [Prod.ext_iff] using hab
  · obtain ⟨p, -, rfl⟩ := mem_map.mp ha
    simp [mergeReads, foldl_mergeDeviceEntry, (foldl_mergeUserEntry _ _).2] at hb

theorem mem_reads_of_merged (h : e ∈ mergedEntries sha256 readerDevice order device user) :
    e ∈ device ∨ e ∈ user := by
  obtain ⟨i, _ | env⟩ := e
  · exact mem_merged_none.mp h
  · exact (mem_merged_some h).imp id And.left

theorem eq_of_merged_fst (hde : Sorted device) (hu : Sorted user)
    (hdi : ∀ a ∈ device, ∀ b ∈ user, a.1 ≠ b.1) {a b : ReadEntry}
    (ha : a ∈ mergedEntries sha256 readerDevice order device user)
    (hb : b ∈ mergedEntries sha256 readerDevice order device user) (h : a.1 = b.1) : a = b := by
  obtain ha | ha := mem_reads_of_merged ha <;> obtain hb | hb := mem_reads_of_merged hb
  · exact hde.eq_of_fst_eq ha hb h
  · exact absurd h (hdi a ha b hb)
  · exact absurd h.symm (hdi b hb a ha)
  · exact hu.eq_of_fst_eq ha hb h

theorem sorted_keptEntries (hde : Sorted device) (hu : Sorted user)
    (hdi : ∀ a ∈ device, ∀ b ∈ user, a.1 ≠ b.1) :
    Sorted (keptEntries sha256 readerDevice order device user limit) := by
  have hno : (keptEntries sha256 readerDevice order device user limit).Nodup :=
    ((perm_insertionSort _ _).nodup_iff.mpr (nodup_mergedEntries hde hu hdi)).filter _
  refine List.Pairwise.imp_of_mem (fun {a b} ha hb hab => ?_) (pairwise_keptEntries.and hno)
  refine hab.1.le.lt_of_ne fun heq => hab.2 ?_
  exact eq_of_merged_fst hde hu hdi (mem_keptEntries.mp ha).1 (mem_keptEntries.mp hb).1 heq

/-- **A merged page is exact:** for any two reads in the order of their ids, whatever order the map
gives its values in. -/
theorem mergeMailboxPages_exact (hde : Sorted device) (huser : Sorted user)
    (hdi : ∀ a ∈ device, ∀ b ∈ user, a.1 ≠ b.1) : ExactPage sha256 readerDevice device user count limit
      (mergeMailboxPages sha256 readerDevice order device user count limit) := by
  have hke : Sorted (keptEntries sha256 readerDevice order device user limit) :=
    sorted_keptEntries hde huser hdi
  have hco : ∀ e, Survives sha256 readerDevice device user e →
      pastHorizon (horizonOf device user limit) e.1 = false →
        e ∈ (mergeMailboxPages sha256 readerDevice order device user count limit).entries ∨
          CutByCount sha256 readerDevice order device user count limit ∧
            ∀ x ∈ (mergeMailboxPages sha256 readerDevice order device user count limit).entries,
              x.1 < e.1 := by
    intro e he hpa
    have hme : e ∈ mergedEntries sha256 readerDevice order device user :=
      mem_merged_of_survives hde huser he
    obtain hin | haf | ⟨hcu, hle⟩ := page_cases count limit hme
    · exact .inl hin
    · rw [hpa] at haf
      cases haf
    · by_cases hin : e ∈ (mergeMailboxPages sha256 readerDevice order device user count limit).entries
      · exact .inl hin
      · refine .inr ⟨hcu, fun x hx => (hle x hx).le.lt_of_ne fun heq => hin ?_⟩
        exact eq_of_merged_fst hde huser hdi (mem_page_entries hx).1 hme heq ▸ hx
  refine ⟨hke.take, ?_, fun e he => ?_, length_take_le _ _, fun e he hpa => ?_, rfl, ?_⟩
  · rintro ⟨id, _⟩ ha ⟨id', _⟩ hb env rfl env' rfl hkey
    obtain ⟨rfl, rfl⟩ := Prod.mk.inj (merged_eq_of_key (mem_page_entries ha).1 (mem_page_entries hb).1 hkey)
    rfl
  · exact ⟨survives_of_mem_merged hde huser (mem_page_entries he).1, (mem_page_entries he).2⟩
  · exact (hco e he hpa).imp id fun h => ⟨length_take_of_le h.1.le, h.2⟩
  · intro id hid e heu hre hou hlast
    by_cases hcu : CutByCount sha256 readerDevice order device user count limit
    · unfold CutByCount at hcu
      simp [mergeMailboxPages, hcu] at hid
    -- Nothing was cut, so what was left out is after the horizon, and so was the last entry.
    have hpa : pastHorizon (horizonOf device user limit) e.1 := by
      by_contra hnot
      obtain hin | ⟨hc', -⟩ := hco e ⟨hre, hlast⟩ (Bool.eq_false_iff.mpr hnot)
      · exact hou hin
      · exact hcu hc'
    obtain ⟨h, hh, hlt⟩ : ∃ h, horizonOf device user limit = some h ∧ h < e.1 := by
      cases hh : horizonOf device user limit with
      | none => simp [hh] at hpa
      | some h => exact ⟨h, rfl, by simpa [hh] using hpa⟩
    obtain ⟨last, hgetLast⟩ : ∃ last, user.getLast? = some last :=
      ⟨_, List.getLast?_eq_some_getLast (ne_nil_of_mem heu)⟩
    have hl : h < last.1 := hlt.trans_le (huser.le_of_getLast? hgetLast heu)
    have hva : (mergeMailboxPages sha256 readerDevice order device user count
        limit).userExaminedThrough = some h := by
      simp only [mergeMailboxPages]
      rw [if_neg (by simpa [CutByCount] using hcu)]
      simp [hgetLast, hh, hl]
    rw [hva] at hid
    exact Option.some.inj hid ▸ hlt

def entryOf (ms : UInt64) (messageId : String) : ReadEntry :=
  (⟨ms, 0⟩, some ⟨messageId, "alice", "bob", .directMessage, [], false, none, none⟩)

/-- A message in both reads. -/
theorem mergeMailboxPages_exact_both : ExactPage id "phone" [entryOf 2 "m"] [entryOf 1 "m", entryOf 3 "n"] 10 10
      (mergeMailboxPages id "phone" (.identity _) [entryOf 2 "m"] [entryOf 1 "m", entryOf 3 "n"] 10 10) :=
  mergeMailboxPages_exact (by unfold Sorted; decide) (by unfold Sorted; decide) (by decide)

/-- A user entry whose later copy is in the user read too, after the horizon: the page delivers
neither, no device copy takes its place, and the user stream counts as examined past it. -/
theorem examined_past_an_earlier_copy :
    let device := [entryOf 2 "x", entryOf 3 "y"]
    let user := [entryOf 1 "m", entryOf 5 "m"]
    let page := mergeMailboxPages id "phone" (.identity _) device user 10 2
    entryOf 1 "m" ∈ user ∧ (∀ e ∈ page.entries, e ∈ device) ∧
      (∀ x ∈ device, ¬Supersedes id device x (entryOf 1 "m")) ∧
      page.userExaminedThrough = some ⟨3, 0⟩ := by
  refine ⟨by decide, by decide +kernel, fun x hx h => ?_, by decide +kernel⟩
  obtain ⟨⟨env', henv', env, henv, hkey⟩, -⟩ := h
  obtain rfl := Option.some.inj henv
  simp only [mem_cons, not_mem_nil, or_false] at hx
  obtain rfl | rfl := hx <;> obtain rfl := Option.some.inj henv' <;> exact absurd hkey (by decide +kernel)

end

end ConstructServer.Queue
