import Mathlib.Data.List.Nodup
import Mathlib.Data.List.Sort
import Mathlib.Order.Basic
import Mathlib.Algebra.Order.Ring.Nat
import ConstructServer.Library.Decimal

/-!
# Redis streams

A Redis stream is a log of entries under strictly increasing ids `ms-seq`. It remembers the
last id it generated, the largest id an explicit deletion took, and how many entries were ever
added; trimming removes oldest entries and leaves no trace of its own.
-/

namespace Redis

open List

/-- How a command ends for its caller: with its reply, with the reply lost, or without having
run. -/
inductive Outcome
  | ok
  | lost
  | failed
deriving DecidableEq

/-- A stream id `ms-seq`, two unsigned 64-bit numbers. -/
structure StreamId where
  ms : UInt64
  seq : UInt64
deriving DecidableEq

namespace StreamId

/-- Ids are ordered by milliseconds, then by sequence number. -/
instance : LE StreamId := ⟨fun a b => a.ms < b.ms ∨ a.ms = b.ms ∧ a.seq ≤ b.seq⟩

instance : LT StreamId := ⟨fun a b => a.ms < b.ms ∨ a.ms = b.ms ∧ a.seq < b.seq⟩

variable {a b : StreamId}

theorem le_iff : a ≤ b ↔ a.ms < b.ms ∨ a.ms = b.ms ∧ a.seq ≤ b.seq := Iff.rfl

theorem lt_iff : a < b ↔ a.ms < b.ms ∨ a.ms = b.ms ∧ a.seq < b.seq := Iff.rfl

instance : DecidableLE StreamId := fun a b =>
  inferInstanceAs (Decidable (a.ms < b.ms ∨ a.ms = b.ms ∧ a.seq ≤ b.seq))

instance : DecidableLT StreamId := fun a b =>
  inferInstanceAs (Decidable (a.ms < b.ms ∨ a.ms = b.ms ∧ a.seq < b.seq))

def toNat (i : StreamId) : Nat := i.ms.toNat * 2 ^ 64 + i.seq.toNat

theorem toNat_injective : Function.Injective toNat := by
  rintro ⟨m, s⟩ ⟨m', s'⟩ h
  have hs : s.toNat < 2 ^ 64 := s.toNat_lt
  have hs' : s'.toNat < 2 ^ 64 := s'.toNat_lt
  simp only [toNat] at h
  have hm : m.toNat = m'.toNat := by omega
  have hse : s.toNat = s'.toNat := by omega
  rw [UInt64.toNat_inj.mp hm, UInt64.toNat_inj.mp hse]

theorem le_iff_toNat : a ≤ b ↔ a.toNat ≤ b.toNat := by
  have ha : a.seq.toNat < 2 ^ 64 := a.seq.toNat_lt
  have hb : b.seq.toNat < 2 ^ 64 := b.seq.toNat_lt
  rw [le_iff, UInt64.lt_iff_toNat_lt, UInt64.le_iff_toNat_le, ← UInt64.toNat_inj, toNat, toNat]
  omega

theorem lt_iff_toNat : a < b ↔ a.toNat < b.toNat := by
  have ha : a.seq.toNat < 2 ^ 64 := a.seq.toNat_lt
  have hb : b.seq.toNat < 2 ^ 64 := b.seq.toNat_lt
  rw [lt_iff, UInt64.lt_iff_toNat_lt, UInt64.lt_iff_toNat_lt, ← UInt64.toNat_inj, toNat, toNat]
  omega

instance : LinearOrder StreamId where
  le_refl _ := le_iff_toNat.mpr le_rfl
  le_trans _ _ _ h₁ h₂ := le_iff_toNat.mpr ((le_iff_toNat.mp h₁).trans (le_iff_toNat.mp h₂))
  lt_iff_le_not_ge a b := by
    rw [lt_iff_toNat, le_iff_toNat, le_iff_toNat]
    omega
  le_antisymm _ _ h₁ h₂ :=
    toNat_injective (le_antisymm (le_iff_toNat.mp h₁) (le_iff_toNat.mp h₂))
  le_total a b := (le_total a.toNat b.toNat).imp le_iff_toNat.mpr le_iff_toNat.mpr
  toDecidableLE := inferInstance
  toDecidableLT := inferInstance
  toDecidableEq := inferInstance

def zero : StreamId := ⟨0, 0⟩

instance : Zero StreamId := ⟨zero⟩

theorem zero_le (i : StreamId) : (0 : StreamId) ≤ i :=
  le_iff_toNat.mpr (Nat.zero_le _)

/-- Every id but the first comes right after another one. -/
theorem exists_pred {i : StreamId} (h : 0 < i) : ∃ p : StreamId, ∀ j, p < j ↔ i ≤ j := by
  have hpo : 0 < i.toNat := lt_iff_toNat.mp h
  have hms : i.ms.toNat < 2 ^ 64 := i.ms.toNat_lt
  have hse : i.seq.toNat < 2 ^ 64 := i.seq.toNat_lt
  obtain ⟨p, hp⟩ : ∃ p : StreamId, p.toNat + 1 = i.toNat := by
    by_cases h0 : i.seq.toNat = 0
    · refine ⟨⟨UInt64.ofNat (i.ms.toNat - 1), UInt64.ofNat (2 ^ 64 - 1)⟩, ?_⟩
      simp only [toNat, UInt64.toNat_ofNat'] at hpo ⊢
      omega
    · refine ⟨⟨i.ms, UInt64.ofNat (i.seq.toNat - 1)⟩, ?_⟩
      simp only [toNat, UInt64.toNat_ofNat'] at hpo ⊢
      omega
  exact ⟨p, fun j => by rw [lt_iff_toNat, le_iff_toNat]; omega⟩

def render (i : StreamId) : String :=
  String.ofList (Decimal.printU64 i.ms ++ '-' :: Decimal.printU64 i.seq)

/-- The id a text `ms-seq` or `ms` stands for. -/
def parse (s : String) : Option StreamId :=
  match Decimal.splitOnce '-' s.toList with
  | some (ms, seq) =>
    (Decimal.parseU64 ms).bind fun ms => (Decimal.parseU64 seq).map fun seq => ⟨ms, seq⟩
  | none => (Decimal.parseU64 s.toList).map fun ms => ⟨ms, 0⟩

/-- An id is at most two numbers of twenty digits and a dash. -/
theorem utf8ByteSize_render_le (i : StreamId) : i.render.utf8ByteSize ≤ 41 := by
  have hdi : ∀ {n : UInt64}, ∀ c ∈ Decimal.printU64 n, c.utf8Size = 1 :=
    fun c hc => Decimal.utf8Size_of_isDigit (Decimal.isDigit_of_mem_printU64 hc)
  have hms := Decimal.length_printU64_le i.ms
  have hse := Decimal.length_printU64_le i.seq
  rw [render, Decimal.utf8ByteSize_ofList, length_append, length_cons]
  · omega
  · intro c hc
    obtain hc | hc := mem_append.mp hc
    · exact hdi c hc
    · obtain rfl | hc := mem_cons.mp hc
      · decide
      · exact hdi c hc

theorem splitOnce_render (i : StreamId) : Decimal.splitOnce '-' i.render.toList =
      some (Decimal.printU64 i.ms, Decimal.printU64 i.seq) := by
  rw [render, String.toList_ofList]
  exact Decimal.splitOnce_append (Decimal.dash_not_mem_printU64 _)

@[simp]
theorem parse_render (i : StreamId) : parse i.render = some i := by
  rw [parse, splitOnce_render]
  simp [Decimal.parseU64_printU64]

end StreamId

theorem StreamId.firstOf_le {ms : UInt64} {id : StreamId} (h : ms ≤ id.ms) : ⟨ms, 0⟩ ≤ id := by
  have hms := UInt64.le_iff_toNat_le.mp h
  rw [le_iff_toNat]
  simp only [toNat, UInt64.toNat_zero]
  omega

/-- The id of the next entry: the clock in a new millisecond, and the next sequence number when
the clock has not passed the last id. `none` when the ids are used up. -/
def nextId (now : UInt64) (last : StreamId) : Option StreamId :=
  if last.ms < now then some ⟨now, 0⟩
  else if last.seq.toNat + 1 < UInt64.size then some ⟨last.ms, last.seq + 1⟩
  else if last.ms.toNat + 1 < UInt64.size then some ⟨last.ms + 1, 0⟩
  else none

theorem toNat_succ {n : UInt64} (h : n.toNat + 1 < UInt64.size) : (n + 1).toNat = n.toNat + 1 := by
  rw [UInt64.toNat_add]
  exact Nat.mod_eq_of_lt h

theorem nextId_gt {now : UInt64} {last id : StreamId} (h : nextId now last = some id) : last < id ∧
    now ≤ id.ms := by
  unfold nextId at h
  split_ifs at h with h₁ h₂ h₃
  · obtain rfl := Option.some.inj h
    exact ⟨StreamId.lt_iff.mpr (.inl h₁), UInt64.le_refl _⟩
  · obtain rfl := Option.some.inj h
    refine ⟨StreamId.lt_iff.mpr (.inr ⟨rfl, ?_⟩), UInt64.not_lt.mp h₁⟩
    rw [UInt64.lt_iff_toNat_lt, toNat_succ h₂]
    omega
  · obtain rfl := Option.some.inj h
    have hms : last.ms < last.ms + 1 := by
      rw [UInt64.lt_iff_toNat_lt, toNat_succ h₃]
      omega
    exact ⟨StreamId.lt_iff.mpr (.inl hms), UInt64.le_trans (UInt64.not_lt.mp h₁) (UInt64.le_of_lt hms)⟩

variable {β γ : Type*}

def Sorted (l : List (StreamId × β)) : Prop := l.Pairwise fun a b => a.1 < b.1

def upTo (l : List (StreamId × β)) (p : StreamId) (n : Nat) : List (StreamId × β) :=
  (l.filter fun e => p < e.1).take n

def after (l : List (StreamId × β)) (p : StreamId) : List (StreamId × β) :=
  l.filter fun e => p < e.1

section

variable {l : List (StreamId × β)} {p : StreamId} {n : Nat} {e : StreamId × β}

@[simp]
theorem mem_after : e ∈ after l p ↔ e ∈ l ∧ p < e.1 := by
  simp [after]

theorem mem_of_mem_upTo (h : e ∈ upTo l p n) : e ∈ l ∧ p < e.1 :=
  mem_after.mp (mem_of_mem_take h)

theorem Sorted.after (h : Sorted l) (p : StreamId) : Sorted (after l p) := h.filter _

theorem Sorted.upTo (h : Sorted l) (p : StreamId) (n : Nat) : Sorted (upTo l p n) :=
  (h.after p).take

theorem Sorted.nodup_fst (h : Sorted l) : (l.map Prod.fst).Nodup :=
  pairwise_map.mpr (h.imp fun hab => ne_of_lt hab)

theorem Sorted.eq_of_fst_eq (h : Sorted l) {a b : StreamId × β} (ha : a ∈ l) (hb : b ∈ l)
    (hab : a.1 = b.1) : a = b :=
  inj_on_of_nodup_map h.nodup_fst ha hb hab

theorem Sorted.le_of_getLast? (h : Sorted l) {a b : StreamId × β} (ha : l.getLast? = some a)
    (hb : b ∈ l) : b.1 ≤ a.1 := by
  obtain ⟨l', rfl⟩ := List.getLast?_eq_some_iff.mp ha
  obtain hb | hb := mem_append.mp hb
  · exact ((pairwise_append.mp h).2.2 b hb a (by simp)).le
  · rw [mem_singleton.mp hb]

/-- A bounded read that leaves an entry out is full, and the entry comes after all of it. -/
theorem mem_upTo_or_lt (hl : Sorted l) (he : e ∈ l) (hp : p < e.1) :
    e ∈ upTo l p n ∨ (upTo l p n).length = n ∧ ∀ x ∈ upTo l p n, x.1 < e.1 := by
  have hm : e ∈ after l p := mem_after.mpr ⟨he, hp⟩
  rw [← take_append_drop n (after l p), mem_append] at hm
  refine hm.imp id fun hdr => ⟨?_, fun x hx => ?_⟩
  · have hlen : n < (after l p).length := by
      by_contra hle
      rw [drop_eq_nil_of_le (not_lt.mp hle)] at hdr
      exact not_mem_nil hdr
    exact length_take_of_le hlen.le
  · have hsp := hl.after p
    rw [← take_append_drop n (after l p)] at hsp
    exact (pairwise_append.mp hsp).2.2 x hx e hdr

end

/-- A stream: its entries, the last id it generated, the largest id an explicit deletion took
and the number of entries ever added. -/
structure Stream (β : Type*) where
  entries : List (StreamId × β)
  lastId : StreamId
  maxDeleted : StreamId
  entriesAdded : Nat
  sorted : Sorted entries
  zero_lt : ∀ e ∈ entries, 0 < e.1
  le_lastId : ∀ e ∈ entries, e.1 ≤ lastId
  length_le : entries.length ≤ entriesAdded

inductive CommandError
  | outOfRange
  | invalidStreamId
  | wrongType
  | smallerId

/-- Where a read starts: after an id, or after the newest entry (`$`). -/
inductive Position
  | after (id : StreamId)
  | newest
deriving DecidableEq

/-- The position a command argument stands for. Redis copies an id into 128 bytes and refuses a
longer text. -/
def Position.parse (s : String) : Option Position :=
  if s = "$" then some .newest
  else if s.utf8ByteSize ≤ 127 then (StreamId.parse s).map .after
  else none

theorem Position.parse_eq_after_iff {s : String} {id : StreamId} :
    Position.parse s = some (.after id) ↔ StreamId.parse s = some id ∧ s.utf8ByteSize ≤ 127 := by
  unfold Position.parse
  split_ifs with hd hl
  · subst hd
    simp [show StreamId.parse "$" = none by decide]
  · simp [hl]
  · simp [hl]

namespace Stream

def empty : Stream β where
  entries := []
  lastId := 0
  maxDeleted := 0
  entriesAdded := 0
  sorted := List.Pairwise.nil
  zero_lt := by simp
  le_lastId := by simp
  length_le := le_rfl

def append (s : Stream β) (id : StreamId) (h : s.lastId < id) (v : β) : Stream β where
  entries := s.entries ++ [(id, v)]
  lastId := id
  maxDeleted := s.maxDeleted
  entriesAdded := s.entriesAdded + 1
  sorted := by
    refine pairwise_append.mpr ⟨s.sorted, pairwise_singleton _ _, fun a ha b hb => ?_⟩
    rw [mem_singleton.mp hb]
    exact lt_of_le_of_lt (s.le_lastId a ha) h
  zero_lt := by
    intro e he
    obtain he | he := mem_append.mp he
    · exact s.zero_lt e he
    · rw [mem_singleton.mp he]
      exact lt_of_le_of_lt (StreamId.zero_le _) h
  le_lastId := by
    intro e he
    obtain he | he := mem_append.mp he
    · exact (s.le_lastId e he).trans h.le
    · rw [mem_singleton.mp he]
  length_le := by
    have := s.length_le
    simp only [length_append, length_singleton]
    omega

/-- `XADD key *`: the id of the new entry and the stream that holds it. -/
def xadd (s : Stream β) (now : UInt64) (v : β) : Option (StreamId × Stream β) :=
  match h : nextId now s.lastId with
  | some id => some (id, s.append id (nextId_gt h).1 v)
  | none => none

def mapEntries (s : Stream β) (f : StreamId × β → γ) : Stream γ where
  entries := s.entries.map fun e => (e.1, f e)
  lastId := s.lastId
  maxDeleted := s.maxDeleted
  entriesAdded := s.entriesAdded
  sorted := by
    rw [Sorted, pairwise_map]
    exact s.sorted
  zero_lt := by
    intro e' h
    obtain ⟨e, he, rfl⟩ := mem_map.mp h
    exact s.zero_lt e he
  le_lastId := by
    intro e' h
    obtain ⟨e, he, rfl⟩ := mem_map.mp h
    exact s.le_lastId e he
  length_le := by simpa using s.length_le

/-- The stream with the same ids and values that depend on them alone. -/
def relabel (s : Stream β) (f : StreamId → γ) : Stream γ := s.mapEntries fun e => f e.1

def ids (s : Stream β) : List StreamId := s.entries.map Prod.fst

@[simp]
theorem ids_relabel (s : Stream β) (f : StreamId → γ) : (s.relabel f).ids = s.ids := by
  simp [ids, relabel, mapEntries]

def readFrom (s : Stream β) : Position → List (StreamId × β)
  | .after p => after s.entries p
  | .newest => []

/-- `XREAD COUNT count STREAMS key start`. The count is a signed 64-bit number on the wire, and
zero asks for everything. -/
def xread (s : Stream β) (start : String) (count : Nat) :
    Except CommandError (List (StreamId × β)) :=
  if 2 ^ 63 ≤ count then .error .outOfRange
  else match Position.parse start with
    | none => .error .invalidStreamId
    | some pos => .ok (if count = 0 then s.readFrom pos else (s.readFrom pos).take count)

theorem xadd_eq_some {s t : Stream β} {now : UInt64} {v : β} {id : StreamId}
    (h : s.xadd now v = some (id, t)) :
    nextId now s.lastId = some id ∧ ∃ hlt : s.lastId < id, t = s.append id hlt v := by
  unfold xadd at h
  split at h
  next i hi =>
    obtain ⟨rfl, rfl⟩ := Prod.mk.inj (Option.some.inj h)
    exact ⟨hi, _, rfl⟩
  next => cases h

section

variable (s : Stream β)

def restrict (l : List (StreamId × β)) (h : l.Sublist s.entries) : Stream β where
  entries := l
  lastId := s.lastId
  maxDeleted := s.maxDeleted
  entriesAdded := s.entriesAdded
  sorted := s.sorted.sublist h
  zero_lt e he := s.zero_lt e (h.subset he)
  le_lastId e he := s.le_lastId e (h.subset he)
  length_le := h.length_le.trans s.length_le

def oldest (n : Nat) : List StreamId := (s.entries.take n).map Prod.fst

/-- The trim of `XADD MAXLEN ~`: the `n` oldest entries go and nothing is recorded. -/
def trimOldest (n : Nat) : Stream β := s.restrict (s.entries.drop n) (drop_sublist n _)

def idsBefore (minid : StreamId) : List StreamId :=
  (s.entries.filter fun e => e.1 < minid).map Prod.fst

/-- `XREVRANGE key (minid - COUNT 1`: the newest entry before `minid`. -/
def newestBefore (minid : StreamId) : Option StreamId := (s.idsBefore minid).getLast?

/-- `XTRIM key MINID minid`: the entries before `minid` go and nothing is recorded. -/
def xtrimMinId (minid : StreamId) : Stream β :=
  s.restrict (s.entries.filter fun e => !decide (e.1 < minid)) filter_sublist

def idsAmong (ids : List StreamId) : List StreamId :=
  (s.entries.filter fun e => e.1 ∈ ids).map Prod.fst

/-- `XDEL key ids`: the entries go and the largest of their ids is recorded. -/
def xdel (ids : List StreamId) : Stream β :=
  { s.restrict (s.entries.filter fun e => !decide (e.1 ∈ ids)) filter_sublist with
    maxDeleted := (s.idsAmong ids).foldl max s.maxDeleted }

/-- `XSETID key last MAXDELETEDID removed`: refused if `last` is smaller than one of the marks or
than an entry. It overwrites the largest deleted id, so a smaller one lowers it. -/
def xsetid (last removed : StreamId) : Except CommandError (Stream β) :=
  if last < removed ∨ last < s.maxDeleted then .error .smallerId
  else if h : ∀ e ∈ s.entries, e.1 ≤ last then
    .ok { s with
      lastId := last
      maxDeleted := if removed = 0 then s.maxDeleted else removed
      le_lastId := h }
  else .error .smallerId

variable {s}

theorem mem_idsBefore {minid id : StreamId} : id ∈ s.idsBefore minid ↔ (∃ e ∈ s.entries, e.1 = id) ∧
    id < minid := by
  simp only [idsBefore, mem_map, mem_filter, decide_eq_true_eq]
  constructor
  · rintro ⟨e, ⟨he, hlt⟩, rfl⟩
    exact ⟨⟨e, he, rfl⟩, hlt⟩
  · rintro ⟨⟨e, he, rfl⟩, hlt⟩
    exact ⟨e, ⟨he, hlt⟩, rfl⟩

theorem mem_idsAmong {ids : List StreamId} {id : StreamId} :
    id ∈ s.idsAmong ids ↔ (∃ e ∈ s.entries, e.1 = id) ∧ id ∈ ids := by
  simp only [idsAmong, mem_map, mem_filter, decide_eq_true_eq]
  constructor
  · rintro ⟨e, ⟨he, hm⟩, rfl⟩
    exact ⟨⟨e, he, rfl⟩, hm⟩
  · rintro ⟨⟨e, he, rfl⟩, hm⟩
    exact ⟨e, ⟨he, hm⟩, rfl⟩

theorem le_newestBefore {minid newest : StreamId} (h : s.newestBefore minid = some newest)
    {e : StreamId × β} (he : e ∈ s.entries) (hlt : e.1 < minid) : e.1 ≤ newest := by
  rw [newestBefore, idsBefore, List.getLast?_map, Option.map_eq_some_iff] at h
  obtain ⟨x, hx, rfl⟩ := h
  have hso : Sorted (s.entries.filter fun e => e.1 < minid) := s.sorted.filter _
  exact hso.le_of_getLast? hx (mem_filter.mpr ⟨he, by simpa using hlt⟩)

theorem oldest_lt {n : Nat} {id : StreamId} (h : id ∈ s.oldest n) {e : StreamId × β}
    (he : e ∈ (s.trimOldest n).entries) : id < e.1 := by
  obtain ⟨x, hx, rfl⟩ := mem_map.mp h
  have hso := s.sorted
  rw [← take_append_drop n s.entries] at hso
  exact (pairwise_append.mp hso).2.2 x hx e he

theorem length_trimOldest (n : Nat) :
    (s.trimOldest n).entries.length + (s.oldest n).length = s.entries.length := by
  simp only [trimOldest, restrict, oldest, length_drop, length_map, length_take]
  omega

theorem length_xtrimMinId (minid : StreamId) :
    (s.xtrimMinId minid).entries.length + (s.idsBefore minid).length = s.entries.length := by
  have h := length_eq_length_filter_add (l := s.entries) fun e => decide (e.1 < minid)
  rw [idsBefore, length_map]
  exact (Nat.add_comm _ _).trans h.symm

theorem length_xdel (ids : List StreamId) :
    (s.xdel ids).entries.length + (s.idsAmong ids).length = s.entries.length := by
  have h := length_eq_length_filter_add (l := s.entries) fun e => decide (e.1 ∈ ids)
  rw [idsAmong, length_map]
  exact (Nat.add_comm _ _).trans h.symm

theorem le_foldl_max {l : List StreamId} {a : StreamId} : a ≤ l.foldl max a ∧
    ∀ b ∈ l, b ≤ l.foldl max a := by
  induction l generalizing a with
  | nil => simp
  | cons b l ih =>
    obtain ⟨hma, hl⟩ := ih (a := max a b)
    refine ⟨(le_max_left a b).trans hma, fun x hx => ?_⟩
    rcases mem_cons.mp hx with rfl | hx
    · exact (le_max_right a x).trans hma
    · exact hl x hx

theorem maxDeleted_le_xdel (ids : List StreamId) : s.maxDeleted ≤ (s.xdel ids).maxDeleted :=
  le_foldl_max.1

theorem le_maxDeleted_xdel {ids : List StreamId} {id : StreamId} (h : id ∈ s.idsAmong ids) :
    id ≤ (s.xdel ids).maxDeleted :=
  le_foldl_max.2 id h

/-- What a successful `XSETID` changes. -/
theorem xsetid_eq_ok {t : Stream β} {last removed : StreamId} (h : s.xsetid last removed = .ok t) :
    t.entries = s.entries ∧ t.entriesAdded = s.entriesAdded ∧ t.lastId = last ∧
      t.maxDeleted = if removed = 0 then s.maxDeleted else removed := by
  unfold xsetid at h
  by_cases hm : last < removed ∨ last < s.maxDeleted
  · rw [if_pos hm] at h
    cases h
  · rw [if_neg hm] at h
    by_cases hto : ∀ e ∈ s.entries, e.1 ≤ last
    · rw [dif_pos hto] at h
      obtain rfl := Except.ok.inj h
      exact ⟨rfl, rfl, rfl, rfl⟩
    · rw [dif_neg hto] at h
      cases h

end

end Stream

end Redis
