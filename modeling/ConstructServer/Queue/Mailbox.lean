import Mathlib.Data.List.ReduceOption
import ConstructServer.Queue.Cursor
import ConstructServer.Queue.Merge

/-!
# Reading a mailbox page by page

A reader with a device reads its device stream and the user stream of its account, each up to
twice the page, and merges them; a reader without one reads the user stream alone. The page says
where to resume and whether the streams may hold more.
-/

namespace ConstructServer.Queue

open Redis Collections List

structure Mailbox where
  device : Stream StreamFields
  user : Stream StreamFields

section

variable (codec : EnvelopeCodec) (userId : String)

def readStreamMessages (s : Stream StreamFields) (since : Option String) (count : Nat) :
    Except CommandError (List (StreamId × StreamFields)) :=
  match s.xread (startOf since) count with
  | .ok entries => .ok entries
  | .error .wrongType => .ok []
  | .error e => .error e

def asRead (l : List (StreamId × StreamFields)) : List ReadEntry :=
  l.map fun e => (e.1, readEntry codec userId e.2)

def readMessages (s : Stream StreamFields) (since : Option String) (count : Nat) :
    Except CommandError (List ReadEntry) :=
  (readStreamMessages s since count).map (asRead codec userId)

/-- `usize::saturating_mul` by two. -/
def saturatingDouble (count : Nat) : Nat := min (2 * count) (2 ^ 64 - 1)

def readMailboxMessages (sha256 : Bytes → Bytes) (order : IterOrder (StreamId × MessageEnvelope))
    (deviceId : Option String) (mb : Mailbox) (since userSince : Option String) (count : Nat) :
    Except CommandError MailboxPage :=
  match deviceId.filter (· ≠ "") with
  | none => do
    let entries ← readMessages codec userId mb.user since count
    return ⟨entries, [], 0, none, entries.length == count⟩
  | some deviceId => do
    let perSource := saturatingDouble count
    let deviceMsgs ← readMessages codec userId mb.device since perSource
    let userMsgs ← readMessages codec userId mb.user userSince perSource
    return mergeMailboxPages sha256 deviceId order deviceMsgs userMsgs count perSource

end

/-- `Iterator::max_by`: the last of the greatest elements. -/
def maxBy {α : Type} (cmp : α → α → Ordering) : List α → Option α
  | [] => none
  | a :: l => some (l.foldl (fun m x => if cmp m x = .gt then m else x) a)

namespace MailboxPage

/-- Where a reader with one cursor for both streams resumes. -/
def resumeAfter (page : MailboxPage) (since : Option String) : Option String :=
  maxBy compareStreamIdWatermarks
    [page.entries.getLast?.map fun e => e.1.render,
      page.userExaminedThrough.map StreamId.render, since].reduceOption

def resumeId (page : MailboxPage) (since : StreamId) : StreamId :=
  max (max ((page.entries.getLast?.map Prod.fst).getD 0) (page.userExaminedThrough.getD 0)) since

end MailboxPage

section

variable {codec : EnvelopeCodec} {userId : String} {s : Stream StreamFields}
  {since : Option String} {count : Nat}

theorem asRead_upTo (l : List (StreamId × StreamFields)) (p : StreamId) (n : Nat) :
    asRead codec userId (upTo l p n) = upTo (asRead codec userId l) p n := by
  simp only [asRead, upTo, map_take, filter_map]
  rfl

theorem sorted_asRead {l : List (StreamId × StreamFields)} (h : Sorted l) : Sorted (asRead codec userId l) :=
  pairwise_map.mpr h

theorem readMessages_eq {p : StreamId} (hpo : positionOf since = some (.after p))
    (hco : 0 < count) (hma : count < 2 ^ 63) :
    readMessages codec userId s since count = .ok (upTo (asRead codec userId s.entries) p count) := by
  have hre : s.xread (startOf since) count = .ok (upTo s.entries p count) := by
    rw [positionOf] at hpo
    simp only [Stream.xread, not_le.mpr hma, if_false, hpo, hco.ne', Stream.readFrom]
    rfl
  simp only [readMessages, readStreamMessages, hre, Except.map, asRead_upTo]

end

section

theorem maxBy_mem {α : Type} {cmp : α → α → Ordering} {l : List α} {a : α}
    (h : maxBy cmp l = some a) : a ∈ l := by
  cases l with
  | nil => cases h
  | cons b l =>
    obtain rfl := Option.some.inj h
    clear h
    induction l generalizing b with
    | nil => simp
    | cons c l ih =>
      rw [foldl_cons]
      split_ifs
      · obtain h | h := mem_cons.mp (ih b)
        · simp [h]
        · simp [h]
      · exact mem_cons_of_mem _ (ih c)

theorem parse_foldl_watermarks {l : List String} {a : String} {x : StreamId}
    (ha : StreamId.parse a = some x) (hl : ∀ t ∈ l, (StreamId.parse t).isSome) :
    StreamId.parse (l.foldl (fun m x => if compareStreamIdWatermarks m x = .gt then m else x) a) =
      some ((l.filterMap StreamId.parse).foldl max x) := by
  induction l generalizing a x with
  | nil => simpa using ha
  | cons b l ih =>
    obtain ⟨y, hb⟩ := Option.isSome_iff_exists.mp (hl b (by simp))
    have hl : ∀ t ∈ l, (StreamId.parse t).isSome := fun t ht => hl t (by simp [ht])
    rw [foldl_cons, filterMap_cons_some hb, foldl_cons]
    refine ih ?_ hl
    rw [compareStreamIdWatermarks_eq ha hb]
    split_ifs with hcm
    · rw [ha, max_eq_left (compare_gt_iff_gt.mp hcm).le]
    · rw [hb, max_eq_right (compare_le_iff_le.mp hcm)]

theorem positionOf_maxBy {l : List String} (hl : ∀ t ∈ l, ∃ x, StreamId.parse t = some x ∧
      positionOf (some t) = some (.after x)) :
    positionOf (maxBy compareStreamIdWatermarks l) =
      some (.after ((l.filterMap StreamId.parse).foldl max 0)) := by
  cases l with
  | nil => exact positionOf_none
  | cons a l =>
    obtain ⟨x, ha, -⟩ := hl a (by simp)
    have hm := parse_foldl_watermarks (l := l) ha fun t ht =>
      Option.isSome_iff_exists.mpr ((hl t (by simp [ht])).imp fun _ h => h.1)
    obtain ⟨y, hy, hpo⟩ := hl _ (maxBy_mem rfl)
    rw [filterMap_cons_some ha, foldl_cons, max_eq_right (StreamId.zero_le x),
      ← Option.some.inj (hy.symm.trans hm)]
    exact hpo

variable {page : MailboxPage} {since : Option String} {p : StreamId}

theorem render_or_since_of_mem {t : String} (h : t ∈ [page.entries.getLast?.map fun e => e.1.render,
      page.userExaminedThrough.map StreamId.render, since].reduceOption) :
    (∃ id : StreamId, t = id.render) ∨ since = some t := by
  rw [reduceOption_mem_iff] at h
  simp only [mem_cons, not_mem_nil, or_false] at h
  obtain h | h | h := h
  · obtain ⟨e, -, rfl⟩ := Option.map_eq_some_iff.mp h.symm
    exact .inl ⟨e.1, rfl⟩
  · obtain ⟨id, -, rfl⟩ := Option.map_eq_some_iff.mp h.symm
    exact .inl ⟨id, rfl⟩
  · exact .inr h.symm

variable (page) in
theorem positionOf_resumeAfter (hpo : positionOf since = some (.after p))
    (hpa : ∀ c, since = some c → StreamId.parse c = some p) :
    positionOf (page.resumeAfter since) = some (.after (page.resumeId p)) := by
  have hp : since = none → p = 0 := by
    rintro rfl
    exact (Position.after.inj (Option.some.inj (positionOf_none.symm.trans hpo))).symm
  rw [MailboxPage.resumeAfter, positionOf_maxBy]
  · rw [MailboxPage.resumeId]
    cases page.entries.getLast? <;> cases page.userExaminedThrough <;> cases since <;>
      simp [List.reduceOption, hp, hpa, StreamId.zero_le]
  · intro t ht
    obtain ⟨id, rfl⟩ | h := render_or_since_of_mem ht
    · exact ⟨id, id.parse_render, positionOf_render id⟩
    · exact ⟨p, hpa t h, h ▸ hpo⟩

theorem isValid_resumeAfter (hva : ∀ c, since = some c → isValidRedisStreamCursor c) {c : String}
    (h : page.resumeAfter since = some c) : isValidRedisStreamCursor c := by
  obtain ⟨id, rfl⟩ | h := render_or_since_of_mem (maxBy_mem h)
  · exact isValidRedisStreamCursor_render id
  · exact hva c h

end

section

variable (sha256 : Bytes → Bytes) (readerDevice : String)

def DeviceCopy (device : List ReadEntry) (k : MessageDedupKey) (p : StreamId) : Prop :=
  ∃ id env, (id, some env) ∈ device ∧ MessageDedupKey.forEnvelope sha256 env = k ∧ p < id

def UserCopy (user : List ReadEntry) (k : MessageDedupKey) (p : StreamId) : Prop :=
  ∃ id env, (id, some env) ∈ user ∧ isSibling readerDevice env = false ∧
    MessageDedupKey.forEnvelope sha256 env = k ∧ p < id

/-- The message has a copy after the positions `d` and `u` of the two streams. -/
def Waiting (device user : List ReadEntry) (k : MessageDedupKey) (d u : StreamId) : Prop :=
  DeviceCopy sha256 device k d ∨ UserCopy sha256 readerDevice user k u

def pageAt (order : IterOrder (StreamId × MessageEnvelope)) (device user : List ReadEntry)
    (d u : StreamId) (count limit : Nat) : MailboxPage :=
  mergeMailboxPages sha256 readerDevice order (upTo device d limit) (upTo user u limit) count limit

def Delivers (entries : List ReadEntry) (k : MessageDedupKey) : Prop :=
  ∃ id env, (id, some env) ∈ entries ∧ MessageDedupKey.forEnvelope sha256 env = k

variable {sha256 readerDevice} {order : IterOrder (StreamId × MessageEnvelope)}
  {device user : List ReadEntry} {k : MessageDedupKey} {d u d' u' : StreamId} {count limit : Nat}

theorem Waiting.mono (h : Waiting sha256 readerDevice device user k d u) (hd : d' ≤ d)
    (hu : u' ≤ u) : Waiting sha256 readerDevice device user k d' u' := by
  obtain ⟨id, env, hm, hk, hlt⟩ | ⟨id, env, hm, ho, hk, hlt⟩ := h
  · exact .inl ⟨id, env, hm, hk, lt_of_le_of_lt hd hlt⟩
  · exact .inr ⟨id, env, hm, ho, hk, lt_of_le_of_lt hu hlt⟩

theorem waiting_of_merged {id p : StreamId} {env : MessageEnvelope}
    (h : (id, some env) ∈ mergedEntries sha256 readerDevice order (upTo device d limit)
      (upTo user u limit)) (hp : p < id) :
    Waiting sha256 readerDevice device user (.forEnvelope sha256 env) (max d p) (max u p) := by
  obtain hde | ⟨hu, ho, -⟩ := mem_merged_some h
  · obtain ⟨hm, hlt⟩ := mem_of_mem_upTo hde
    exact .inl ⟨id, env, hm, rfl, max_lt hlt hp⟩
  · obtain ⟨hm, hlt⟩ := mem_of_mem_upTo hu
    exact .inr ⟨id, env, hm, ho, rfl, max_lt hlt hp⟩

/-- How a waiting message can stay out of a page: it has a copy after the horizon, or a copy that
comes after everything in a page that was cut. -/
def StaysWaiting (sha256 : Bytes → Bytes) (readerDevice : String)
    (order : IterOrder (StreamId × MessageEnvelope)) (device user : List ReadEntry)
    (d u : StreamId) (count limit : Nat) (k : MessageDedupKey) : Prop :=
  (∃ p, horizonOf (upTo device d limit) (upTo user u limit) limit = some p ∧
      Waiting sha256 readerDevice device user k (max d p) (max u p)) ∨
    CutByCount sha256 readerDevice order (upTo device d limit) (upTo user u limit) count limit ∧
      ∃ id env, (id, some env) ∈ mergedEntries sha256 readerDevice order (upTo device d limit)
          (upTo user u limit) ∧ MessageDedupKey.forEnvelope sha256 env = k ∧
        ∀ x ∈ (pageAt sha256 readerDevice order device user d u count limit).entries,
          StableLE Prod.fst OrphansLast x (id, some env)

theorem waiting_past {id : StreamId} {P : StreamId → Prop}
    (hpa : pastHorizon (horizonOf (upTo device d limit) (upTo user u limit) limit) id)
    (hP : ∀ p, p < id → P p) :
    ∃ p, horizonOf (upTo device d limit) (upTo user u limit) limit = some p ∧ P p := by
  cases hh : horizonOf (upTo device d limit) (upTo user u limit) limit with
  | none => simp [hh] at hpa
  | some p => exact ⟨p, rfl, hP p (by simpa [hh] using hpa)⟩

theorem delivered_or_stays_of_merged {id : StreamId} {env : MessageEnvelope}
    (h : (id, some env) ∈ mergedEntries sha256 readerDevice order (upTo device d limit) (upTo user u limit)) :
    Delivers sha256 (pageAt sha256 readerDevice order device user d u count limit).entries
        (.forEnvelope sha256 env) ∨ StaysWaiting sha256 readerDevice order device user d u count limit
        (.forEnvelope sha256 env) := by
  obtain hpa | hpas | ⟨hcu, haf⟩ := page_cases count limit h
  · exact .inl ⟨id, env, hpa, rfl⟩
  · exact .inr (.inl (waiting_past hpas fun p hp => waiting_of_merged h hp))
  · exact .inr (.inr ⟨hcu, id, env, h, rfl, haf⟩)

variable (order count) in
/-- **A waiting message is delivered by the page or stays waiting after it.** -/
theorem delivered_or_stays (hde : Sorted device) (hu : Sorted user) (hl : 0 < limit)
    (h : Waiting sha256 readerDevice device user k d u) :
    Delivers sha256 (pageAt sha256 readerDevice order device user d u count limit).entries k ∨
      StaysWaiting sha256 readerDevice order device user d u count limit k := by
  obtain ⟨id, env, hm, rfl, hlt⟩ | ⟨id, env, hm, ho, rfl, hlt⟩ := h
  · obtain hre | hpa := mem_upTo_or_past hde hl (.inl rfl) hm hlt
    · obtain ⟨id', env', hme, hk, -, -⟩ := exists_merged_of_device readerDevice order
        (upTo user u limit) (hde.upTo d limit) hre
      rw [← hk]
      exact delivered_or_stays_of_merged hme
    · exact .inr (.inl (waiting_past hpa fun p hp =>
        .inl ⟨id, env, hm, rfl, max_lt hlt hp⟩))
  · obtain hre | hpa := mem_upTo_or_past hu hl (.inr rfl) hm hlt
    · obtain ⟨id', env', hme, hk, -⟩ := exists_merged_of_user order (hde.upTo d limit) (hu.upTo u limit) hre ho
      rw [← hk]
      exact delivered_or_stays_of_merged hme
    · exact .inr (.inl (waiting_past hpa fun p hp =>
        .inr ⟨id, env, hm, ho, rfl, max_lt hlt hp⟩))

end

section

variable {sha256 : Bytes → Bytes} {readerDevice : String}
  {order : IterOrder (StreamId × MessageEnvelope)} {device user : List ReadEntry}
  {k : MessageDedupKey} {p h : StreamId} {count limit : Nat}

/-- No id is shared by two different messages for the reader. -/
def Separated (sha256 : Bytes → Bytes) (readerDevice : String) (device user : List ReadEntry) :
    Prop :=
  ∀ id env env', (id, some env) ∈ device → (id, some env') ∈ user →
    isSibling readerDevice env' = false →
      MessageDedupKey.forEnvelope sha256 env = .forEnvelope sha256 env'

variable {d u : StreamId} {e : ReadEntry}

theorem mem_of_mem_merged
    (h : e ∈ mergedEntries sha256 readerDevice order (upTo device d limit) (upTo user u limit)) :
    e ∈ device ∧ d < e.1 ∨ e ∈ user ∧ u < e.1 := by
  obtain ⟨id, _ | env⟩ := e
  · obtain h | h := mem_merged_none.mp h
    · exact .inl (mem_of_mem_upTo h)
    · exact .inr (mem_of_mem_upTo h)
  · obtain h | ⟨h, -, -⟩ := mem_merged_some h
    · exact .inl (mem_of_mem_upTo h)
    · exact .inr (mem_of_mem_upTo h)

theorem horizonOf_mem (hh : horizonOf (upTo device d limit) (upTo user u limit) limit = some h) :
    ∃ e, e.1 = h ∧ (e ∈ device ∧ d < h ∨ e ∈ user ∧ u < h) := by
  obtain ⟨e, rfl, ⟨-, he⟩ | ⟨-, he⟩⟩ := mem_of_horizonOf_eq_some hh
  · exact ⟨e, rfl, .inl (mem_of_mem_upTo (mem_of_getLast? he))⟩
  · exact ⟨e, rfl, .inr (mem_of_mem_upTo (mem_of_getLast? he))⟩

theorem mem_pageAt_entries (he : e ∈ (pageAt sha256 readerDevice order device user d u count limit).entries) :
    e ∈ device ∧ d < e.1 ∨ e ∈ user ∧ u < e.1 :=
  mem_of_mem_merged (mem_page_entries he).1

theorem userExaminedThrough_cases {d u x : StreamId}
    (hx : (pageAt sha256 readerDevice order device user d u count limit).userExaminedThrough = some x) :
    ¬ CutByCount sha256 readerDevice order (upTo device d limit) (upTo user u limit) count limit ∧
      ∃ e ∈ upTo user u limit, (upTo user u limit).getLast? = some e ∧
        (x = e.1 ∧ pastHorizon (horizonOf (upTo device d limit) (upTo user u limit) limit) x = false ∨
          horizonOf (upTo device d limit) (upTo user u limit) limit = some x ∧ x < e.1) := by
  simp only [pageAt, mergeMailboxPages] at hx
  split_ifs at hx with hcu
  refine ⟨by simpa [CutByCount] using hcu, ?_⟩
  obtain ⟨id, hid, hx⟩ := Option.map_eq_some_iff.mp hx
  obtain ⟨e, he, rfl⟩ := Option.map_eq_some_iff.mp hid
  refine ⟨e, mem_of_getLast? he, he, ?_⟩
  cases hh : horizonOf (upTo device d limit) (upTo user u limit) limit with
  | none => simp_all
  | some h =>
    by_cases hlt : h < e.1
    · right
      simp_all
    · left
      simp_all

theorem hasMore_pageAt : (pageAt sha256 readerDevice order device user d u count limit).hasMore = true ↔
      CutByCount sha256 readerDevice order (upTo device d limit) (upTo user u limit) count limit ∨
        ∃ h, horizonOf (upTo device d limit) (upTo user u limit) limit = some h := by
  simp [pageAt, mergeMailboxPages, CutByCount, Option.isSome_iff_exists]

theorem length_entries_of_cut
    (hcu : CutByCount sha256 readerDevice order (upTo device d limit) (upTo user u limit) count limit) :
    (pageAt sha256 readerDevice order device user d u count limit).entries.length = count :=
  length_take_of_le (Nat.le_of_lt hcu)

theorem getLast?_entries_of_cut (hco : 0 < count)
    (hcu : CutByCount sha256 readerDevice order (upTo device d limit) (upTo user u limit) count limit) :
    ∃ e ∈ (pageAt sha256 readerDevice order device user d u count limit).entries,
      (pageAt sha256 readerDevice order device user d u count limit).entries.getLast? = some e := by
  have hne : (pageAt sha256 readerDevice order device user d u count limit).entries ≠ [] := by
    rw [← length_pos_iff, length_entries_of_cut hcu]
    exact hco
  exact ⟨_, getLast_mem hne, List.getLast?_eq_some_getLast hne⟩

theorem le_horizon_of_mem_entries (hh : horizonOf (upTo device d limit) (upTo user u limit) limit = some h)
    (he : e ∈ (pageAt sha256 readerDevice order device user d u count limit).entries) : e.1 ≤ h := by
  have hpa := (mem_page_entries he).2
  rw [hh, pastHorizon_some, decide_eq_false_iff_not] at hpa
  exact not_lt.mp hpa

theorem userExaminedThrough_le_horizon {d u x : StreamId}
    (hh : horizonOf (upTo device d limit) (upTo user u limit) limit = some h)
    (hx : (pageAt sha256 readerDevice order device user d u count limit).userExaminedThrough = some x) : x ≤ h := by
  obtain ⟨-, e, -, -, ⟨rfl, hpa⟩ | ⟨hx, -⟩⟩ := userExaminedThrough_cases hx
  · rw [hh, pastHorizon_some, decide_eq_false_iff_not] at hpa
    exact not_lt.mp hpa
  · exact (Option.some.inj (hx.symm.trans hh)).le

theorem resumeId_le_horizon (hh : horizonOf (upTo device p limit) (upTo user p limit) limit = some h) :
    (pageAt sha256 readerDevice order device user p p count limit).resumeId p ≤ h := by
  refine max_le (max_le ?_ ?_) ?_
  · cases hl : (pageAt sha256 readerDevice order device user p p count limit).entries.getLast?
      with
    | none => exact StreamId.zero_le h
    | some e => exact le_horizon_of_mem_entries hh (mem_of_getLast? hl)
  · cases hx : (pageAt sha256 readerDevice order device user p p count limit).userExaminedThrough
      with
    | none => exact StreamId.zero_le h
    | some x => exact userExaminedThrough_le_horizon hh hx
  · obtain ⟨e, -, ⟨-, hlt⟩ | ⟨-, hlt⟩⟩ := horizonOf_mem hh <;> exact hlt.le

theorem resumeId_of_cut
    (hcu : CutByCount sha256 readerDevice order (upTo device p limit) (upTo user p limit) count limit)
    (hl : (pageAt sha256 readerDevice order device user p p count limit).entries.getLast? = some e) :
    (pageAt sha256 readerDevice order device user p p count limit).resumeId p = e.1 := by
  have hx : (pageAt sha256 readerDevice order device user p p count limit).userExaminedThrough =
      none := by
    rw [Option.eq_none_iff_forall_ne_some]
    exact fun x hx => (userExaminedThrough_cases hx).1 hcu
  have hlt : p < e.1 := by
    obtain ⟨-, hlt⟩ | ⟨-, hlt⟩ := mem_pageAt_entries (mem_of_getLast? hl) <;> exact hlt
  simp [MailboxPage.resumeId, hx, hl, StreamId.zero_le, hlt.le]

theorem le_resumeId_of_getLast? {page : MailboxPage}
    (h : page.entries.getLast? = some e) : e.1 ≤ page.resumeId p := by
  simp [MailboxPage.resumeId, h]

theorem le_resumeId_of_examined {page : MailboxPage} {x : StreamId}
    (h : page.userExaminedThrough = some x) : x ≤ page.resumeId p := by
  simp [MailboxPage.resumeId, h]

theorem resumeId_cases (page : MailboxPage) (p : StreamId) :
    page.resumeId p = p ∨ (∃ e, page.entries.getLast? = some e ∧ page.resumeId p = e.1) ∨
      ∃ x, page.userExaminedThrough = some x ∧ page.resumeId p = x := by
  have hz := StreamId.zero_le p
  cases hl : page.entries.getLast? <;> cases hx : page.userExaminedThrough <;>
    simp only [MailboxPage.resumeId, hl, hx, Option.map_none, Option.map_some,
      Option.getD_none, Option.getD_some, max_def] <;>
    grind

theorem resumeId_mem : (pageAt sha256 readerDevice order device user p p count limit).resumeId p = p ∨
      ∃ e ∈ device ++ user, e.1 = (pageAt sha256 readerDevice order device user p p count limit).resumeId p := by
  obtain h | ⟨e, hl, h⟩ | ⟨x, hx, h⟩ :=
    resumeId_cases (pageAt sha256 readerDevice order device user p p count limit) p
  · exact .inl h
  · rw [h]
    obtain ⟨he, -⟩ | ⟨he, -⟩ := mem_pageAt_entries (mem_of_getLast? hl)
    · exact .inr ⟨e, mem_append_left _ he, rfl⟩
    · exact .inr ⟨e, mem_append_right _ he, rfl⟩
  · rw [h]
    obtain ⟨-, e, he, -, ⟨rfl, -⟩ | ⟨hh, -⟩⟩ := userExaminedThrough_cases hx
    · exact .inr ⟨e, mem_append_right _ (mem_of_mem_upTo he).1, rfl⟩
    · obtain ⟨e, rfl, ⟨he, -⟩ | ⟨he, -⟩⟩ := horizonOf_mem hh
      · exact .inr ⟨e, mem_append_left _ he, rfl⟩
      · exact .inr ⟨e, mem_append_right _ he, rfl⟩

theorem mem_entries_of_device_horizon (hde : Sorted device)
    (hcu : ¬ CutByCount sha256 readerDevice order (upTo device d limit) (upTo user u limit) count limit)
    (hh : horizonOf (upTo device d limit) (upTo user u limit) limit = some e.1)
    (he : (upTo device d limit).getLast? = some e) :
    e ∈ (pageAt sha256 readerDevice order device user d u count limit).entries := by
  have hm := mem_of_getLast? he
  have hme : e ∈ mergedEntries sha256 readerDevice order (upTo device d limit)
      (upTo user u limit) := by
    obtain ⟨id, _ | env⟩ := e
    · exact mem_merged_none.mpr (.inl hm)
    · obtain ⟨id', env', hme, -, hm', hle⟩ := exists_merged_of_device readerDevice order
        (upTo user u limit) (hde.upTo d limit) hm
      -- Its copy is at the same id or later, and it is the last one.
      have hge : id' ≤ id := (hde.upTo d limit).le_of_getLast? he hm'
      rwa [(hde.upTo d limit).eq_of_fst_eq hm' hm (le_antisymm hge hle)] at hme
  obtain hpa | hp | ⟨hc', -⟩ := page_cases count limit hme
  · exact hpa
  · simp [hh] at hp
  · exact absurd hc' hcu

/-- **A page that says there is more moves the reader forward.** -/
theorem lt_resumeId (hde : Sorted device) (hco : 0 < count)
    (hm : (pageAt sha256 readerDevice order device user p p count limit).hasMore = true) :
    p < (pageAt sha256 readerDevice order device user p p count limit).resumeId p := by
  have hen : ∀ e, (pageAt sha256 readerDevice order device user p p count limit).entries.getLast? = some e →
        p < (pageAt sha256 readerDevice order device user p p count limit).resumeId p := by
    intro e hl
    refine lt_of_lt_of_le ?_ (le_resumeId_of_getLast? hl)
    obtain ⟨-, hlt⟩ | ⟨-, hlt⟩ := mem_pageAt_entries (mem_of_getLast? hl) <;> exact hlt
  by_cases hcu : CutByCount sha256 readerDevice order (upTo device p limit) (upTo user p limit)
      count limit
  · obtain ⟨e, -, hl⟩ := getLast?_entries_of_cut hco hcu
    exact hen e hl
  obtain ⟨h, hh⟩ := (hasMore_pageAt.mp hm).resolve_left hcu
  cases hl : (upTo user p limit).getLast? with
  | some e =>
    -- The user read was examined up to its last entry, or up to the horizon.
    have hme := mem_of_mem_upTo (mem_of_getLast? hl)
    obtain ⟨x, hx, hlt⟩ : ∃ x, (pageAt sha256 readerDevice order device user p p count
        limit).userExaminedThrough = some x ∧ p < x := by
      have hn : ¬ count < (keptEntries sha256 readerDevice order (upTo device p limit)
        (upTo user p limit) limit).length := hcu
      have hhp : p < h := by
        obtain ⟨e, -, ⟨-, hlt⟩ | ⟨-, hlt⟩⟩ := horizonOf_mem hh <;> exact hlt
      simp only [pageAt, mergeMailboxPages, hn, decide_false, Bool.false_eq_true, if_false,
        hl, Option.map_some, hh, pastHorizon_some, Option.getD_some]
      split_ifs
      · exact ⟨h, rfl, hhp⟩
      · exact ⟨e.1, rfl, hme.2⟩
    exact lt_of_lt_of_le hlt (le_resumeId_of_examined hx)
  | none =>
    -- The user read is empty, so the horizon is the last device entry, and it is in the page.
    obtain ⟨e, rfl, ⟨-, he⟩ | ⟨-, he⟩⟩ := mem_of_horizonOf_eq_some hh
    · have hin := mem_entries_of_device_horizon hde hcu hh he
      exact hen _ (List.getLast?_eq_some_getLast (ne_nil_of_mem hin))
    · rw [hl] at he
      cases he

theorem Separated.eq_of_merged {d u id : StreamId} {env env' : MessageEnvelope}
    (hse : Separated sha256 readerDevice device user) (hde : Sorted device) (hu : Sorted user)
    (h : (id, some env) ∈ mergedEntries sha256 readerDevice order (upTo device d limit) (upTo user u limit))
    (h' : (id, some env') ∈ mergedEntries sha256 readerDevice order (upTo device d limit) (upTo user u limit)) :
    env = env' := by
  have hk : MessageDedupKey.forEnvelope sha256 env = .forEnvelope sha256 env' := by
    obtain hm | ⟨hm, ho, -⟩ := mem_merged_some h <;>
      obtain hm' | ⟨hm', ho', -⟩ := mem_merged_some h' <;>
      have hm := (mem_of_mem_upTo hm).1 <;> have hm' := (mem_of_mem_upTo hm').1
    · have := hde.eq_of_fst_eq hm hm' rfl
      simp_all
    · exact hse id env env' hm hm' ho'
    · exact (hse id env' env hm' hm ho).symm
    · have := hu.eq_of_fst_eq hm hm' rfl
      simp_all
  exact congrArg Prod.snd (merged_eq_of_key h h' hk)

theorem Separated.delivers_or_lt_of_cut {d u id : StreamId} {env : MessageEnvelope}
    {last : ReadEntry} (hse : Separated sha256 readerDevice device user) (hde : Sorted device)
    (hu : Sorted user) (hme : (id, some env) ∈ mergedEntries sha256 readerDevice order (upTo device d limit)
      (upTo user u limit)) (hm : last ∈ (pageAt sha256 readerDevice order device user d u count limit).entries)
    (haf : StableLE Prod.fst OrphansLast last (id, some env)) :
    Delivers sha256 (pageAt sha256 readerDevice order device user d u count limit).entries
        (.forEnvelope sha256 env) ∨ last.1 < id := by
  obtain hlt | ⟨heq, hor⟩ := haf
  · exact .inr hlt
  · obtain ⟨id', _ | env'⟩ := last
    · cases hor rfl
    · obtain rfl : id' = id := heq
      -- Both entries carry a message at one id of separated streams, so they are one entry.
      have heq := hse.eq_of_merged hde hu hme (mem_page_entries hm).1
      exact .inl ⟨id', env', hm, by rw [heq]⟩

variable (order) in
/-- **One page of separated streams loses nothing: a waiting message is delivered, or there is
more and it is waiting after the resume position.** -/
theorem Separated.delivered_or_waiting (hse : Separated sha256 readerDevice device user)
    (hde : Sorted device) (hu : Sorted user) (hco : 0 < count) (hl : 0 < limit)
    (h : Waiting sha256 readerDevice device user k p p) :
    Delivers sha256 (pageAt sha256 readerDevice order device user p p count limit).entries k ∨
      (pageAt sha256 readerDevice order device user p p count limit).hasMore = true ∧
        Waiting sha256 readerDevice device user k
          ((pageAt sha256 readerDevice order device user p p count limit).resumeId p)
          ((pageAt sha256 readerDevice order device user p p count limit).resumeId p) := by
  obtain hd | ⟨h, hh, hw⟩ | ⟨hcu, id, env, hme, rfl, haf⟩ :=
    delivered_or_stays order count hde hu hl h
  · exact .inl hd
  · refine .inr ⟨hasMore_pageAt.mpr (.inr ⟨h, hh⟩), ?_⟩
    exact (hw.mono (le_max_right p h) (le_max_right p h)).mono (resumeId_le_horizon hh) (resumeId_le_horizon hh)
  · obtain ⟨last, hm, hla⟩ := getLast?_entries_of_cut hco hcu
    refine (hse.delivers_or_lt_of_cut hde hu hme hm (haf last hm)).imp_right
      fun hlt => ⟨hasMore_pageAt.mpr (.inl hcu), ?_⟩
    rw [resumeId_of_cut hcu hla]
    exact (waiting_of_merged hme hlt).mono (le_max_right _ _) (le_max_right _ _)

end

section

variable {sha256 : Bytes → Bytes} {readerDevice : String}
  {order : IterOrder (StreamId × MessageEnvelope)} {device user : List ReadEntry}
  {k : MessageDedupKey} {d u q h : StreamId} {count limit : Nat}

namespace MailboxPage

def deliveredThrough (page : MailboxPage) (d : StreamId) : StreamId :=
  (page.entries.getLast?.map Prod.fst).getD d

/-- Where the user stream is read from after a page, when it was examined up to `q` before. -/
def examinedThrough (page : MailboxPage) (d q : StreamId) : StreamId :=
  max (page.userExaminedThrough.getD q) (page.deliveredThrough d)

end MailboxPage

theorem deliveredThrough_le_horizon (hh : horizonOf (upTo device d limit) (upTo user u limit) limit = some h) :
    (pageAt sha256 readerDevice order device user d u count limit).deliveredThrough d ≤ max d h := by
  unfold MailboxPage.deliveredThrough
  cases hl : (pageAt sha256 readerDevice order device user d u count limit).entries.getLast? with
  | none => exact le_max_left d h
  | some e =>
    exact (le_horizon_of_mem_entries hh (mem_of_getLast? hl)).trans (le_max_right d h)

theorem examinedThrough_le_horizon (hdu : d ≤ u) (hq : q ≤ u)
    (hh : horizonOf (upTo device d limit) (upTo user u limit) limit = some h) :
    (pageAt sha256 readerDevice order device user d u count limit).examinedThrough d q ≤ max u h := by
  refine max_le ?_ ((deliveredThrough_le_horizon hh).trans (max_le_max_right h hdu))
  cases hx : (pageAt sha256 readerDevice order device user d u count limit).userExaminedThrough with
  | none => exact hq.trans (le_max_left u h)
  | some x => exact (userExaminedThrough_le_horizon hh hx).trans (le_max_right u h)

variable (order) in
theorem Separated.delivered_or_waiting_two (hse : Separated sha256 readerDevice device user)
    (hde : Sorted device) (hu : Sorted user) (hco : 0 < count) (hl : 0 < limit)
    (hdu : d ≤ u) (hq : q ≤ u) (hw : Waiting sha256 readerDevice device user k d u) :
    Delivers sha256 (pageAt sha256 readerDevice order device user d u count limit).entries k ∨
      (pageAt sha256 readerDevice order device user d u count limit).hasMore = true ∧
        Waiting sha256 readerDevice device user k
          ((pageAt sha256 readerDevice order device user d u count limit).deliveredThrough d)
          (max u ((pageAt sha256 readerDevice order device user d u count limit).examinedThrough d q)) := by
  obtain hd | ⟨h, hh, hw⟩ | ⟨hcu, id, env, hme, rfl, haf⟩ :=
    delivered_or_stays order count hde hu hl hw
  · exact .inl hd
  · exact .inr ⟨hasMore_pageAt.mpr (.inr ⟨h, hh⟩), hw.mono (deliveredThrough_le_horizon hh)
      (max_le (le_max_left u h) (examinedThrough_le_horizon hdu hq hh))⟩
  · obtain ⟨last, hm, hla⟩ := getLast?_entries_of_cut hco hcu
    refine (hse.delivers_or_lt_of_cut hde hu hme hm (haf last hm)).imp_right
      fun hlt => ⟨hasMore_pageAt.mpr (.inl hcu), ?_⟩
    have hx : (pageAt sha256 readerDevice order device user d u count limit).userExaminedThrough =
        none := by
      rw [Option.eq_none_iff_forall_ne_some]
      exact fun x hx => (userExaminedThrough_cases hx).1 hcu
    refine (waiting_of_merged hme hlt).mono ?_ ?_
    · simp [MailboxPage.deliveredThrough, hla]
    · simp only [MailboxPage.examinedThrough, MailboxPage.deliveredThrough, hx, hla,
        Option.getD_none, Option.map_some, Option.getD_some]
      exact max_le (le_max_left _ _) (max_le_max_right _ hq)

end

section

/-- The cursor is the id `p` to the start of a read, to the gap check and to both comparisons, and
a read from it returns the entries after that id, in their order and as many as it asks for. -/
structure ReadAs (c : String) (p : StreamId) : Prop where
  start : ∃ t, normalizeStreamId c = some t ∧ Position.parse t = some (.after p)
  gap : streamId c = some p
  stream : ∀ d q, streamId d = some q →
    compareStreamIds c d = compare p q ∧ compareStreamIds d c = compare q p
  watermark : ∀ d q, streamId d = some q →
    compareStreamIdWatermarks c d = compare p q ∧ compareStreamIdWatermarks d c = compare q p
  read : ∀ (s : Stream StreamFields) (count : Nat), 0 < count → count < 2 ^ 63 →
    readStreamMessages s (some c) count = .ok ((after s.entries p).take count)

/-- **The readers of an accepted cursor agree exactly if it is not `$` and not too long for Redis**,
which takes 127 bytes; a number alone gets two more. -/
theorem cursor_readers_agree {c : String} (hvalid : isValidRedisStreamCursor c) :
    (∃ p, ReadAs c p) ↔ c ≠ "$" ∧ c.utf8ByteSize ≤ if '-' ∈ c.toList then 127 else 125 := by
  constructor
  · rintro ⟨p, ⟨t, ht, hparse⟩, -⟩
    have hpos : positionOf (some c) = some (.after p) := by
      rw [positionOf, startOf, ht, Option.getD_some, hparse]
    obtain ⟨hp, hlen⟩ := (positionOf_eq_after_iff hvalid).mp hpos
    refine ⟨?_, hlen⟩
    rintro rfl
    cases hp.symm.trans (show StreamId.parse "$" = none by decide)
  · rintro ⟨hne, hlen⟩
    obtain ⟨p, hp⟩ := (eq_dollar_or_parse_of_valid hvalid).resolve_left hne
    obtain ⟨t, ht, hparse, hsize⟩ := exists_normalizeStreamId hp
    have hpos := Position.parse_eq_after_iff.mpr ⟨hparse, hsize.mpr hlen⟩
    refine ⟨p, ⟨t, ht, hpos⟩, (streamId_eq_parse c).trans hp, fun d q hd => ?_, fun d q hd => ?_,
      fun s count hcount hmax => ?_⟩
    · rw [streamId_eq_parse] at hd
      exact ⟨compareStreamIds_eq hp hd, compareStreamIds_eq hd hp⟩
    · rw [streamId_eq_parse] at hd
      exact ⟨compareStreamIdWatermarks_eq hp hd, compareStreamIdWatermarks_eq hd hp⟩
    · simp only [readStreamMessages, Stream.xread, not_le.mpr hmax, if_false, startOf, ht,
        Option.getD_some, hpos, hcount.ne', Stream.readFrom]

/-- A signed number with leading zeros and no sequence. -/
theorem cursor_readers_agree_plus : ReadAs "+0017" ⟨17, 0⟩ := by
  obtain ⟨p, h⟩ := (cursor_readers_agree (c := "+0017") (by decide)).mpr (by decide)
  have hp : streamId "+0017" = some ⟨17, 0⟩ := by decide
  rwa [Option.some.inj (h.gap.symm.trans hp)] at h

/-- The cursor `$` is accepted and kept as the start of a read, which returns nothing: not while the
stream is empty, and not after an entry has been added to it. To the other readers it is no id, and
neither after nor before one. -/
theorem dollar_is_no_position :
    isValidRedisStreamCursor "$" ∧ normalizeStreamId "$" = some "$" ∧ streamId "$" = none ∧
      compareStreamIds "$" "5-0" = .lt ∧ compareStreamIds "5-0" "$" = .lt ∧
      readStreamMessages .empty (some "$") 10 = .ok [] ∧
      ∃ s : Stream StreamFields, Stream.empty.xadd 5 ⟨none, none⟩ = some (⟨5, 0⟩, s) ∧
        readStreamMessages s (some "$") 10 = .ok [] :=
  ⟨by decide, by decide, by decide, by decide, by decide, rfl, _, rfl, rfl⟩

end

end ConstructServer.Queue
