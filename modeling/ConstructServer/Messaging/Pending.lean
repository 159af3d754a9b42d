import Mathlib.Algebra.Order.Ring.Int
import ConstructServer.Queue.Mailbox

/-!
# GetPendingMessages

A client drains its mailbox by repeating the request with the cursor of the last answer until the
answer says that there is no more. Nothing else happens to the mailbox in between.
-/

namespace ConstructServer.Messaging

open Queue Redis Collections Option Function

/-- A reader: the account and device it is authenticated as, and the functions its server uses. -/
structure Reader where
  codec : EnvelopeCodec
  sha256 : Bytes → Bytes
  userId : String
  deviceId : Option String

structure PendingRequest where
  limit : Option Int32
  sinceCursor : Option String

structure PendingAnswer where
  entries : List ReadEntry
  messages : List MessageEnvelope
  nextCursor : String
  hasMore : Bool

def asUsize (n : Int32) : Nat := (n.toInt % 2 ^ 64).toNat

def pendingLimit (limit : Option Int32) : Nat :=
  let n := limit.getD 50
  asUsize (if n ≤ 100 then n else 100)

def acceptedCursor (since : Option String) : Option String :=
  since.filter fun c => c ≠ "" && isValidRedisStreamCursor c

def pendingAnswer (since : Option String) (page : MailboxPage) : PendingAnswer where
  entries := page.entries
  messages := (page.entries.filterMap Prod.snd).filter (·.messageType ≠ .receipt)
  nextCursor := (page.resumeAfter since).getD "0-0"
  hasMore := page.hasMore

def getPendingMessages (r : Reader) (order : IterOrder (StreamId × MessageEnvelope)) (mb : Mailbox)
    (req : PendingRequest) : Except CommandError PendingAnswer :=
  let limit := pendingLimit req.limit
  let since := acceptedCursor req.sinceCursor
  (readMailboxMessages r.codec r.userId r.sha256 order r.deviceId mb since since limit).map
    (pendingAnswer since)

/-- The drain of a mailbox from a cursor: the entries of its answers, up to the answer that says
there is no more. Every answer visits its hash map in an order of its own. -/
inductive Drain (r : Reader) (mb : Mailbox) (limit : Option Int32) :
    Option String → List ReadEntry → Prop
  | last {c a} (order) (h : getPendingMessages r order mb ⟨limit, c⟩ = .ok a)
      (hlast : a.hasMore = false) : Drain r mb limit c a.entries
  | more {c a rest} (order) (h : getPendingMessages r order mb ⟨limit, c⟩ = .ok a)
      (hmore : a.hasMore = true) (hrest : Drain r mb limit (some a.nextCursor) rest) :
      Drain r mb limit c (a.entries ++ rest)

def NextCursor (r : Reader) (mb : Mailbox) (limit : Option Int32) (c' c : Option String) : Prop :=
  ∃ order a, getPendingMessages r order mb ⟨limit, c⟩ = .ok a ∧ a.hasMore = true ∧
    c' = some a.nextCursor

section

theorem pendingLimit_of_pos {limit : Option Int32} (h : ∀ n ∈ limit, 0 < n.toInt) :
    0 < pendingLimit limit ∧ pendingLimit limit ≤ 100 := by
  have hn : 0 < (limit.getD 50).toInt := by
    cases limit with
    | none => decide
    | some n => exact h n rfl
  have h100 : (100 : Int32).toInt = 100 := by decide
  unfold pendingLimit asUsize
  simp only [Int32.le_iff_toInt_le, h100]
  split_ifs with hle
  · rw [Int.emod_eq_of_lt hn.le (by omega)]
    omega
  · rw [h100]
    decide

theorem le_pendingLimit_of_neg {n : Int32} (h : n.toInt < 0) : 2 ^ 63 ≤ pendingLimit (some n) := by
  have hmi : -2 ^ 31 ≤ n.toInt := n.le_toInt
  have h100 : (100 : Int32).toInt = 100 := by decide
  have hle : n ≤ 100 := by
    rw [Int32.le_iff_toInt_le, h100]
    omega
  unfold pendingLimit asUsize
  simp only [getD_some, hle, if_true]
  omega

end

namespace Reader

variable (r : Reader) (mb : Mailbox)

def device : List ReadEntry := asRead r.codec r.userId mb.device.entries

def user : List ReadEntry := asRead r.codec r.userId mb.user.entries

def page (order : IterOrder (StreamId × MessageEnvelope)) (p : StreamId) (count : Nat) :
    MailboxPage :=
  match r.deviceId.filter (· ≠ "") with
  | none => ⟨upTo (r.user mb) p count, [], 0, none, (upTo (r.user mb) p count).length == count⟩
  | some device =>
    pageAt r.sha256 device order (r.device mb) (r.user mb) p p count (2 * count)

theorem sorted_device : Sorted (r.device mb) := sorted_asRead mb.device.sorted

theorem sorted_user : Sorted (r.user mb) := sorted_asRead mb.user.sorted

end Reader

section

variable {r : Reader} {mb : Mailbox} {order : IterOrder (StreamId × MessageEnvelope)}
  {req : PendingRequest} {p : StreamId} {count : Nat} {since : Option String}

theorem isValid_acceptedCursor {c : String} (h : acceptedCursor since = some c) :
    isValidRedisStreamCursor c := by
  have := (filter_eq_some_iff.mp h).2
  simp only [Bool.and_eq_true] at this
  exact this.2

theorem acceptedCursor_of_valid {c : String} (hne : c ≠ "") (h : isValidRedisStreamCursor c) :
    acceptedCursor (some c) = some c := by
  simp [acceptedCursor, hne, h]

theorem parse_acceptedCursor (hpo : positionOf (acceptedCursor since) = some (.after p)) {c : String}
    (h : acceptedCursor since = some c) : StreamId.parse c = some p := by
  rw [h] at hpo
  exact ((positionOf_eq_after_iff (isValid_acceptedCursor h)).mp hpo).1

theorem readMailboxMessages_eq (hpo : positionOf (acceptedCursor since) = some (.after p))
    (hco : 0 < count) (hma : count ≤ 100) :
    readMailboxMessages r.codec r.userId r.sha256 order r.deviceId mb (acceptedCursor since)
      (acceptedCursor since) count = .ok (r.page mb order p count) := by
  have hre : ∀ (s : Stream StreamFields) (n : Nat), 0 < n → n ≤ 200 →
      readMessages r.codec r.userId s (acceptedCursor since) n =
        .ok (upTo (asRead r.codec r.userId s.entries) p n) := fun s n hn hn' =>
    readMessages_eq hpo hn (by omega)
  unfold readMailboxMessages Reader.page
  cases r.deviceId.filter (· ≠ "") with
  | none =>
    simp only [hre _ count hco (by omega)]
    rfl
  | some device =>
    have hdo : saturatingDouble count = 2 * count := by
      unfold saturatingDouble
      omega
    simp only [hdo, hre _ (2 * count) (by omega) (by omega)]
    rfl

theorem positionOf_nextCursor {page : MailboxPage}
    (hpo : positionOf (acceptedCursor since) = some (.after p)) :
    positionOf (acceptedCursor (some ((page.resumeAfter (acceptedCursor since)).getD "0-0"))) =
      some (.after (page.resumeId p)) := by
  have hre := positionOf_resumeAfter page hpo fun c => parse_acceptedCursor hpo
  cases h : page.resumeAfter (acceptedCursor since) with
  | none =>
    rw [h, positionOf_none] at hre
    rw [← hre]
    decide
  | some c =>
    rw [getD_some, acceptedCursor_of_valid, ← h, hre]
    · rintro rfl
      have := isValid_resumeAfter (fun c => isValid_acceptedCursor) h
      exact absurd this (by decide)
    · exact isValid_resumeAfter (fun c => isValid_acceptedCursor) h

variable (r order mb req) in
theorem getPendingMessages_ok (hpo : positionOf (acceptedCursor req.sinceCursor) = some (.after p))
    (hl : 0 < pendingLimit req.limit) (hma : pendingLimit req.limit ≤ 100) :
    getPendingMessages r order mb req = .ok (pendingAnswer (acceptedCursor req.sinceCursor)
      (r.page mb order p (pendingLimit req.limit))) := by
  simp only [getPendingMessages, readMailboxMessages_eq hpo hl hma]
  rfl

variable (r order mb req) in
/-- **A request with a limit in range is answered with the page at its cursor, and the next cursor
stands for the page's resume position.** -/
theorem getPendingMessages_eq (hpo : positionOf (acceptedCursor req.sinceCursor) = some (.after p))
    (hl : 0 < pendingLimit req.limit) (hma : pendingLimit req.limit ≤ 100) :
    ∃ a, getPendingMessages r order mb req = .ok a ∧
      a.entries = (r.page mb order p (pendingLimit req.limit)).entries ∧
      a.hasMore = (r.page mb order p (pendingLimit req.limit)).hasMore ∧
      positionOf (acceptedCursor (some a.nextCursor)) =
        some (.after ((r.page mb order p (pendingLimit req.limit)).resumeId p)) :=
  ⟨_, getPendingMessages_ok r mb order req hpo hl hma, rfl, rfl, positionOf_nextCursor hpo⟩

variable (r order mb req) in
theorem getPendingMessages_newest (hpo : positionOf (acceptedCursor req.sinceCursor) = some .newest)
    (hl : 0 < pendingLimit req.limit) (hma : pendingLimit req.limit ≤ 100) :
    ∃ a, getPendingMessages r order mb req = .ok a ∧ a.hasMore = false := by
  have hre : ∀ (s : Stream StreamFields) (n : Nat), n ≤ 200 →
      readMessages r.codec r.userId s (acceptedCursor req.sinceCursor) n = .ok [] := by
    intro s n hn
    have hma : ¬ 2 ^ 63 ≤ n := by omega
    rw [positionOf] at hpo
    simp only [readMessages, readStreamMessages, Stream.xread, if_neg hma, hpo, Stream.readFrom]
    simp [asRead, Except.map]
  unfold getPendingMessages readMailboxMessages
  cases r.deviceId.filter (· ≠ "") with
  | none =>
    simp only [hre _ (pendingLimit req.limit) (by omega)]
    refine ⟨_, rfl, ?_⟩
    simp only [pendingAnswer, List.length_nil, beq_eq_false_iff_ne]
    omega
  | some device =>
    have hdo : saturatingDouble (pendingLimit req.limit) = 2 * pendingLimit req.limit := by
      unfold saturatingDouble
      omega
    simp only [hdo, hre _ (2 * pendingLimit req.limit) (by omega)]
    refine ⟨_, rfl, ?_⟩
    have hh : horizonOf [] [] (2 * pendingLimit req.limit) = none := by
      simp [horizonOf]
    have hke : keptEntries r.sha256 device order [] [] (2 * pendingLimit req.limit) = [] := by
      rw [List.eq_nil_iff_forall_not_mem]
      rintro ⟨id, _ | env⟩ he
      · simpa using mem_merged_none.mp (mem_keptEntries.mp he).1
      · simpa using mem_merged_some (mem_keptEntries.mp he).1
    simp [pendingAnswer, mergeMailboxPages, hh, hke]

theorem Reader.page_advances (hco : 0 < count) (hm : (r.page mb order p count).hasMore = true) :
    p < (r.page mb order p count).resumeId p ∧
      ∃ e ∈ r.device mb ++ r.user mb, e.1 = (r.page mb order p count).resumeId p := by
  revert hm
  unfold Reader.page
  cases r.deviceId.filter (· ≠ "") with
  | none =>
    intro hm
    rw [beq_iff_eq] at hm
    have hne : upTo (r.user mb) p count ≠ [] := by
      rw [← List.length_pos_iff, hm]
      exact hco
    have hl := List.getLast?_eq_some_getLast hne
    obtain ⟨hme, hlt⟩ := mem_of_mem_upTo (List.getLast_mem hne)
    refine ⟨lt_of_lt_of_le hlt (le_resumeId_of_getLast? hl), _,
      List.mem_append_right _ hme, ?_⟩
    simp [MailboxPage.resumeId, hl, hlt.le, StreamId.zero_le]
  | some device =>
    intro hm
    have hlt := lt_resumeId (r.sorted_device mb) hco hm
    exact ⟨hlt, resumeId_mem.resolve_left hlt.ne'⟩

end

section

variable {r : Reader} {mb : Mailbox} {limit : Option Int32} {c c' : Option String}

def remaining (r : Reader) (mb : Mailbox) (c : Option String) : Nat :=
  match positionOf (acceptedCursor c) with
  | some (.after p) => (after (r.device mb ++ r.user mb) p).length
  | _ => 0

theorem length_after_lt {β : Type} {l : List (StreamId × β)} {p q : StreamId}
    (hpq : p < q) (hq : ∃ e ∈ l, e.1 = q) : (after l q).length < (after l p).length := by
  have hs : after l q = (after l p).filter fun e => q < e.1 := by
    rw [after, after, List.filter_filter]
    refine List.filter_congr fun e _ => ?_
    by_cases h : q < e.1
    · simp [h, hpq.trans h]
    · simp [h]
  obtain ⟨e, he, rfl⟩ := hq
  rw [hs, List.length_filter_lt_length_iff_exists]
  exact ⟨e, mem_after.mpr ⟨he, hpq⟩, by simp⟩

theorem getPendingMessages_error {e : CommandError} {P : Nat → Prop}
    (hre : ∀ (s : Stream StreamFields) (n : Nat), P n →
      readMessages r.codec r.userId s (acceptedCursor c) n = .error e)
    (hl : P (pendingLimit limit)) (hdo : P (saturatingDouble (pendingLimit limit)))
    (order : IterOrder (StreamId × MessageEnvelope)) :
    getPendingMessages r order mb ⟨limit, c⟩ = .error e := by
  unfold getPendingMessages readMailboxMessages
  cases r.deviceId.filter (· ≠ "") with
  | none =>
    simp only [hre _ _ hl]
    rfl
  | some device =>
    simp only [hre _ _ hdo]
    rfl

variable (r mb) in
theorem getPendingMessages_refused (hp : positionOf (acceptedCursor c) = none)
    (hma : pendingLimit limit ≤ 100) (order : IterOrder (StreamId × MessageEnvelope)) :
    getPendingMessages r order mb ⟨limit, c⟩ = .error .invalidStreamId := by
  refine getPendingMessages_error (P := (· < 2 ^ 63)) (fun s n hn => ?_) (by omega) ?_ order
  · rw [positionOf] at hp
    simp only [readMessages, readStreamMessages, Stream.xread, not_le.mpr hn, if_false, hp, Except.map]
  · unfold saturatingDouble
    omega

variable (r mb c) in
theorem getPendingMessages_neg {n : Int32} (hn : n.toInt < 0)
    (order : IterOrder (StreamId × MessageEnvelope)) :
    ∃ e, getPendingMessages r order mb ⟨some n, c⟩ = .error e := by
  have hl := le_pendingLimit_of_neg hn
  refine ⟨.outOfRange, getPendingMessages_error (P := (2 ^ 63 ≤ ·)) (fun s m hm => ?_) hl ?_ order⟩
  · simp only [readMessages, readStreamMessages, Stream.xread, if_pos hm, Except.map]
  · unfold saturatingDouble
    omega

theorem nextCursor_advances (hl : ∀ n ∈ limit, 0 < n.toInt) (h : NextCursor r mb limit c' c) :
    remaining r mb c' < remaining r mb c ∧
      ∃ p q, positionOf (acceptedCursor c) = some (.after p) ∧
        positionOf (acceptedCursor c') = some (.after q) ∧ p < q := by
  obtain ⟨order, a, ha, hmo, rfl⟩ := h
  obtain ⟨hpo, hma⟩ := pendingLimit_of_pos hl
  rcases hp : positionOf (acceptedCursor c) with _ | p | _
  · cases (getPendingMessages_refused r mb hp hma order).symm.trans ha
  · obtain ⟨a', ha', -, hm, hn⟩ := getPendingMessages_eq r mb order ⟨limit, c⟩ hp hpo hma
    obtain rfl := Except.ok.inj (ha'.symm.trans ha)
    obtain ⟨hlt, hme⟩ := Reader.page_advances hpo (hm.symm.trans hmo)
    refine ⟨?_, p, _, rfl, hn, hlt⟩
    simp only [remaining, hp, hn]
    exact length_after_lt hlt hme
  · obtain ⟨a', ha', hla⟩ := getPendingMessages_newest r mb order ⟨limit, c⟩ hp hpo hma
    obtain rfl := Except.ok.inj (ha'.symm.trans ha)
    rw [hla] at hmo
    cases hmo

/-- Every answer to a reader that says there is more comes with a later cursor, and no drain of a
mailbox goes on forever. -/
def Advances (r : Reader) (limit : Option Int32) : Prop :=
  ∀ mb : Mailbox,
    (∀ order c a, getPendingMessages r order mb ⟨limit, c⟩ = .ok a → a.hasMore = true →
      ∃ p q, positionOf (acceptedCursor c) = some (.after p) ∧
        positionOf (acceptedCursor (some a.nextCursor)) = some (.after q) ∧ p < q) ∧
    WellFounded (NextCursor r mb limit)

theorem advances_of_pos (hl : ∀ n ∈ limit, 0 < n.toInt) : Advances r limit := by
  intro mb
  refine ⟨fun order c a ha hm => ?_, ?_⟩
  · exact (nextCursor_advances hl ⟨order, a, ha, hm, rfl⟩).2
  · exact Subrelation.wf (fun h => (nextCursor_advances hl h).1)
      (InvImage.wf (remaining r mb) Nat.lt_wfRel.wf)

theorem advances_of_neg {n : Int32} (hn : n.toInt < 0) : Advances r (some n) := by
  have her : ∀ order mb c a, getPendingMessages r order mb ⟨some n, c⟩ ≠ .ok a := by
    intro order mb c a ha
    obtain ⟨e, he⟩ := getPendingMessages_neg r mb c hn order
    rw [he] at ha
    cases ha
  refine fun mb => ⟨fun order c a ha => absurd ha (her order mb c a), ⟨fun c => ⟨c, ?_⟩⟩⟩
  rintro c' ⟨order, a, ha, -⟩
  exact absurd ha (her order mb c a)

def oneEntry (id : StreamId) (h : 0 < id) (fields : StreamFields) : Stream StreamFields where
  entries := [(id, fields)]
  lastId := id
  maxDeleted := 0
  entriesAdded := 1
  sorted := List.pairwise_singleton _ _
  zero_lt := by simpa using h
  le_lastId := by simp
  length_le := le_rfl

def oneOrphan : Stream StreamFields := oneEntry ⟨1, 0⟩ (by decide) ⟨none, none⟩

theorem getPendingMessages_zero (order : IterOrder (StreamId × MessageEnvelope)) :
    ∃ a, getPendingMessages r order ⟨oneOrphan, Stream.empty⟩ ⟨some 0, none⟩ = .ok a ∧
      a.hasMore = true ∧ a.nextCursor = "0-0" := by
  unfold getPendingMessages readMailboxMessages
  cases r.deviceId.filter (· ≠ "") with
  | none => exact ⟨_, rfl, rfl, rfl⟩
  | some device =>
    have hke : keptEntries r.sha256 device order (asRead r.codec r.userId oneOrphan.entries)
        (asRead r.codec r.userId Stream.empty.entries) 0 = [(⟨1, 0⟩, none)] := by
      have hme : mergedEntries r.sha256 device order
          (asRead r.codec r.userId oneOrphan.entries)
          (asRead r.codec r.userId Stream.empty.entries) = [(⟨1, 0⟩, none)] := by
        simp [mergedEntries, mergeReads, mergeDeviceEntry, asRead, oneOrphan, oneEntry,
          Stream.empty, readEntry, parseStreamMessage, values]
      rw [keptEntries, hme]
      rfl
    refine ⟨pendingAnswer none (mergeMailboxPages r.sha256 device order
      (asRead r.codec r.userId oneOrphan.entries) (asRead r.codec r.userId Stream.empty.entries)
      0 0), rfl, ?_, ?_⟩ <;>
      simp [pendingAnswer, mergeMailboxPages, hke, MailboxPage.resumeAfter, List.reduceOption,
        maxBy]

/-- **A paging client makes progress exactly when it does not ask for pages of zero entries.** -/
theorem pending_advances_iff (r : Reader) (limit : Option Int32) : Advances r limit ↔ limit ≠ some 0 := by
  constructor
  · rintro h rfl
    obtain ⟨a, ha, hmore, hnext⟩ := getPendingMessages_zero (r := r) (IterOrder.identity _)
    obtain ⟨p, q, hp, hq, hlt⟩ := (h _).1 _ _ _ ha hmore
    rw [hnext] at hq
    have hp0 : p = 0 := (Position.after.inj (some.inj hp)).symm
    have hq0 : q = 0 := by
      have : positionOf (acceptedCursor (some "0-0")) = some (.after 0) := by decide
      exact Position.after.inj (some.inj (hq.symm.trans this))
    rw [hp0, hq0] at hlt
    exact lt_irrefl _ hlt
  · intro hne
    cases limit with
    | none => exact advances_of_pos (by simp)
    | some n =>
      have hn : n.toInt ≠ 0 := fun h0 => hne (congrArg some (Int32.toInt_inj.mp h0))
      obtain hneg | hpos := lt_or_gt_of_ne hn
      · exact advances_of_neg hneg
      · exact advances_of_pos (by simpa using hpos)

theorem drain_exists (hl : ∀ n ∈ limit, 0 < n.toInt) (c : Option String)
    (hc : (positionOf (acceptedCursor c)).isSome) : ∃ delivered, Drain r mb limit c delivered := by
  obtain ⟨hpo, hma⟩ := pendingLimit_of_pos hl
  induction c using (advances_of_pos (r := r) hl mb).2.induction with
  | h c ih =>
    obtain ⟨a, ha⟩ : ∃ a, getPendingMessages r (IterOrder.identity _) mb ⟨limit, c⟩ = .ok a := by
      rcases hp : positionOf (acceptedCursor c) with _ | p | _
      · cases hp ▸ hc
      · exact (getPendingMessages_eq r mb _ ⟨limit, c⟩ hp hpo hma).imp fun _ h => h.1
      · exact (getPendingMessages_newest r mb _ ⟨limit, c⟩ hp hpo hma).imp fun _ h => h.1
    cases hm : a.hasMore with
    | false => exact ⟨_, .last _ ha hm⟩
    | true =>
      obtain ⟨-, p, q, -, hq, -⟩ := nextCursor_advances hl ⟨_, a, ha, hm, rfl⟩
      obtain ⟨rest, hr⟩ := ih _ ⟨_, a, ha, hm, rfl⟩ (by rw [hq, isSome_some])
      exact ⟨_, .more _ ha hm hr⟩

def exampleReader : Reader := ⟨unaryCodec, id, "u", some "d"⟩

/-- One entry, a limit of zero: the answer is empty, says there is more and gives back the cursor
it was sent, and so does the next one. -/
theorem pending_limit_zero_stalls :
    ∃ a, getPendingMessages exampleReader (IterOrder.identity _) ⟨oneOrphan, .empty⟩
        ⟨some 0, some "0-0"⟩ = .ok a ∧ a.entries = [] ∧ a.hasMore = true ∧ a.nextCursor = "0-0" :=
  ⟨_, rfl, rfl, rfl, rfl⟩

end

section

variable {r : Reader} {mb : Mailbox} {limit : Option Int32} {c : Option String} {device : String}
  {order : IterOrder (StreamId × MessageEnvelope)} {p : StreamId} {k : MessageDedupKey}

def Owed (r : Reader) (device : String) (mb : Mailbox) (c : Option String) (k : MessageDedupKey) :
    Prop :=
  ∃ p, positionOf (acceptedCursor c) = some (.after p) ∧
    Waiting r.sha256 device (r.device mb) (r.user mb) k p p

/-- Every drain of the mailbox, from a cursor that Redis takes, ends, and delivers every message
that it owed the reader. -/
def Lossless (r : Reader) (device : String) (mb : Mailbox) : Prop :=
  ∀ limit : Option Int32, (∀ n ∈ limit, 0 < n.toInt) → ∀ c, (positionOf (acceptedCursor c)).isSome →
    (∃ delivered, Drain r mb limit c delivered) ∧
      ∀ delivered, Drain r mb limit c delivered → ∀ k, Owed r device mb c k →
        Delivers r.sha256 delivered k

theorem exists_pageAt_of_ok (hde : r.deviceId = some device) (hne : device ≠ "")
    (hl : ∀ n ∈ limit, 0 < n.toInt) (hp : positionOf (acceptedCursor c) = some (.after p))
    {a : PendingAnswer} (ha : getPendingMessages r order mb ⟨limit, c⟩ = .ok a) :
    ∃ count, 0 < count ∧ count = pendingLimit limit ∧
      a.entries = (pageAt r.sha256 device order (r.device mb) (r.user mb) p p count (2 * count)).entries ∧
      a.hasMore = (pageAt r.sha256 device order (r.device mb) (r.user mb) p p count (2 * count)).hasMore ∧
      positionOf (acceptedCursor (some a.nextCursor)) =
        some (.after ((pageAt r.sha256 device order (r.device mb) (r.user mb) p p count
          (2 * count)).resumeId p)) := by
  obtain ⟨hpo, hma⟩ := pendingLimit_of_pos hl
  obtain ⟨a', ha', he, hm, hn⟩ := getPendingMessages_eq r mb order ⟨limit, c⟩ hp hpo hma
  obtain rfl := Except.ok.inj (ha'.symm.trans ha)
  have hpa : r.page mb order p (pendingLimit limit) = pageAt r.sha256 device order (r.device mb)
      (r.user mb) p p (pendingLimit limit) (2 * pendingLimit limit) := by
    have hf : r.deviceId.filter (· ≠ "") = some device := by
      rw [hde]
      simp [Option.filter, hne]
    simp only [Reader.page, hf]
  rw [hpa] at he hm hn
  exact ⟨_, hpo, rfl, he, hm, hn⟩

/-- **Streams that share no id between two messages lose nothing.** -/
theorem lossless_of_separated (hde : r.deviceId = some device) (hne : device ≠ "")
    (hse : Separated r.sha256 device (r.device mb) (r.user mb)) : Lossless r device mb := by
  refine fun limit hl c hc => ⟨drain_exists hl c hc, fun delivered hdr k => ?_⟩
  clear hc
  have hpa := fun p order count (hco : 0 < count) =>
    hse.delivered_or_waiting (k := k) (p := p) order (r.sorted_device mb) (r.sorted_user mb) hco
      (by omega : 0 < 2 * count)
  induction hdr with
  | @last c a order ha hla =>
    rintro ⟨p, hp, hw⟩
    obtain ⟨count, hco, -, he, hm, -⟩ := exists_pageAt_of_ok hde hne hl hp ha
    obtain hd | ⟨hmo, -⟩ := hpa p order count hco hw
    · rwa [he]
    · rw [← hm, hla] at hmo
      cases hmo
  | @more c a rest order ha hmo hr ih =>
    rintro ⟨p, hp, hw⟩
    obtain ⟨count, hco, -, he, hm, hn⟩ := exists_pageAt_of_ok hde hne hl hp ha
    obtain ⟨id, env, hme, hk⟩ | ⟨-, hw'⟩ := hpa p order count hco hw
    · rw [← he] at hme
      exact ⟨id, env, List.mem_append_left _ hme, hk⟩
    · obtain ⟨id, env, hme, hk⟩ := ih ⟨_, hn, hw'⟩
      exact ⟨id, env, List.mem_append_right _ hme, hk⟩

theorem waiting_of_delivers_pageAt {count n : Nat}
    (h : Delivers r.sha256 (pageAt r.sha256 device order (r.device mb) (r.user mb) p p count
      n).entries k) : Waiting r.sha256 device (r.device mb) (r.user mb) k p p := by
  obtain ⟨id, env, hm, rfl⟩ := h
  have hlt : p < id := by
    obtain ⟨-, hlt⟩ | ⟨-, hlt⟩ := mem_pageAt_entries hm <;> exact hlt
  exact (waiting_of_merged (mem_page_entries hm).1 hlt).mono (le_max_left _ _) (le_max_left _ _)

theorem waiting_of_drain (hde : r.deviceId = some device) (hne : device ≠ "")
    (hl : ∀ n ∈ limit, 0 < n.toInt) {delivered : List ReadEntry}
    (hdr : Drain r mb limit c delivered) (hp : positionOf (acceptedCursor c) = some (.after p))
    (h : Delivers r.sha256 delivered k) : Waiting r.sha256 device (r.device mb) (r.user mb) k p p := by
  induction hdr generalizing p with
  | last order ha hla =>
    obtain ⟨count, -, -, he, -, -⟩ := exists_pageAt_of_ok hde hne hl hp ha
    rw [he] at h
    exact waiting_of_delivers_pageAt h
  | more order ha hmo hr ih =>
    obtain ⟨count, -, -, he, -, hn⟩ := exists_pageAt_of_ok hde hne hl hp ha
    obtain ⟨id, env, hm, hk⟩ := h
    obtain hm | hm := List.mem_append.mp hm
    · rw [he] at hm
      exact waiting_of_delivers_pageAt ⟨id, env, hm, hk⟩
    · exact (ih hn ⟨id, env, hm, hk⟩).mono (le_max_right _ _) (le_max_right _ _)

/-- Two messages for the reader share the id `t`, and neither has a copy after it. -/
structure Tie (r : Reader) (device : String) (mb : Mailbox) (t : StreamId)
    (x y : MessageEnvelope) : Prop where
  mem_device : (t, some x) ∈ r.device mb
  mem_user : (t, some y) ∈ r.user mb
  own : isSibling device y = false
  ne : MessageDedupKey.forEnvelope r.sha256 x ≠ .forEnvelope r.sha256 y
  last_x : ¬ Waiting r.sha256 device (r.device mb) (r.user mb) (.forEnvelope r.sha256 x) t t
  last_y : ¬ Waiting r.sha256 device (r.device mb) (r.user mb) (.forEnvelope r.sha256 y) t t

variable (order) in
theorem Tie.mem_merged {t : StreamId} {x y : MessageEnvelope} (h : Tie r device mb t x y)
    (hp : ∀ j, p < j ↔ t ≤ j) {n : Nat} (hn : 0 < n) :
    (t, some x) ∈ mergedEntries r.sha256 device order (upTo (r.device mb) p n) (upTo (r.user mb) p n) ∧
      (t, some y) ∈ mergedEntries r.sha256 device order (upTo (r.device mb) p n) (upTo (r.user mb) p n) := by
  have hre : ∀ {l : List ReadEntry} {e}, Sorted l → (t, e) ∈ l → (t, e) ∈ upTo l p n := by
    intro l e hl he
    obtain hm | ⟨hlen, hlt⟩ := mem_upTo_or_lt hl he ((hp t).mpr le_rfl)
    · exact hm
    · have hne : upTo l p n ≠ [] := by
        rw [← List.length_pos_iff, hlen]
        exact hn
      have hf := hlt _ (List.head_mem hne)
      have hge := (hp _).mp (mem_of_mem_upTo (List.head_mem hne)).2
      exact absurd hf (not_lt.mpr hge)
  have hde := r.sorted_device mb
  have hu := r.sorted_user mb
  constructor
  · obtain ⟨id, env, hme, hk, hm, hle⟩ := exists_merged_of_device device order
      (upTo (r.user mb) p n) (hde.upTo p n) (hre hde h.mem_device)
    obtain hlt | rfl := hle.lt_or_eq
    · exact absurd (.inl ⟨id, env, (mem_of_mem_upTo hm).1, hk, hlt⟩) h.last_x
    · rwa [hde.eq_of_fst_eq (mem_of_mem_upTo hm).1 h.mem_device rfl] at hme
  · obtain ⟨id, env, hme, hk, hm | ⟨hm, ho, hle⟩⟩ := exists_merged_of_user order
      (hde.upTo p n) (hu.upTo p n) (hre hu h.mem_user) h.own
    · obtain ⟨hm, hlt⟩ := mem_of_mem_upTo hm
      obtain hlt | rfl := ((hp _).mp hlt).lt_or_eq
      · exact absurd (.inl ⟨id, env, hm, hk, hlt⟩) h.last_y
      · have heq := hde.eq_of_fst_eq hm h.mem_device rfl
        have : env = x := by simpa using heq
        exact absurd (this ▸ hk) h.ne
    · obtain hlt | rfl := hle.lt_or_eq
      · exact absurd (.inr ⟨id, env, (mem_of_mem_upTo hm).1, ho, hk, hlt⟩) h.last_y
      · rwa [hu.eq_of_fst_eq (mem_of_mem_upTo hm).1 h.mem_user rfl] at hme

variable (order) in
theorem Tie.cut {t : StreamId} {x y : MessageEnvelope} (h : Tie r device mb t x y)
    (hp : ∀ j, p < j ↔ t ≤ j) {n : Nat} (hn : 0 < n) :
    CutByCount r.sha256 device order (upTo (r.device mb) p n) (upTo (r.user mb) p n) 1 n := by
  obtain ⟨hx, hy⟩ := h.mem_merged order hp hn
  have hno : pastHorizon (horizonOf (upTo (r.device mb) p n) (upTo (r.user mb) p n) n) t =
      false := by
    cases hh : horizonOf (upTo (r.device mb) p n) (upTo (r.user mb) p n) n with
    | none => rfl
    | some q =>
      obtain ⟨e, -, ⟨-, hlt⟩ | ⟨-, hlt⟩⟩ := horizonOf_mem hh <;> simpa using (hp q).mp hlt
  have hkx := mem_keptEntries.mpr ⟨hx, hno⟩
  have hky := mem_keptEntries.mpr ⟨hy, hno⟩
  by_contra hle
  obtain ⟨e, he⟩ : ∃ e, ∀ z ∈ keptEntries r.sha256 device order (upTo (r.device mb) p n)
      (upTo (r.user mb) p n) n, z = e := by
    rw [CutByCount, not_lt] at hle
    cases hl : keptEntries r.sha256 device order (upTo (r.device mb) p n)
      (upTo (r.user mb) p n) n with
    | nil => exact ⟨(t, none), by simp⟩
    | cons e rest =>
      have hr : rest = [] := by
        rw [hl, List.length_cons] at hle
        exact List.eq_nil_of_length_eq_zero (by omega)
      exact ⟨e, by simp [hr]⟩
  have hxy : (t, some x) = (t, some y) := (he _ hkx).trans (he _ hky).symm
  exact h.ne (by rw [show x = y by simpa using hxy])

/-- **A tie loses a message**: a drain of single entries that starts right before it delivers one
of the two, and resumes after both. -/
theorem not_lossless_of_tie (hde : r.deviceId = some device) (hne : device ≠ "") {t : StreamId}
    {x y : MessageEnvelope} (ht : 0 < t) (h : Tie r device mb t x y) : ¬ Lossless r device mb := by
  intro hlo
  obtain ⟨p, hp⟩ := StreamId.exists_pred ht
  have hl : ∀ n ∈ some (1 : Int32), 0 < n.toInt := by
    rintro n ⟨⟩
    decide
  have hpo : positionOf (acceptedCursor (some p.render)) = some (.after p) := by
    rw [acceptedCursor_of_valid _ (isValidRedisStreamCursor_render p), positionOf_render]
    rintro hem
    have := StreamId.parse_render p
    rw [hem] at this
    exact absurd this (by simp [show StreamId.parse "" = none by decide])
  obtain ⟨⟨delivered, hdr⟩, hal⟩ := hlo (some 1) hl (some p.render)
    (by rw [hpo, isSome_some])
  have hx := hal delivered hdr _
    ⟨p, hpo, .inl ⟨t, x, h.mem_device, rfl, (hp t).mpr le_rfl⟩⟩
  have hy := hal delivered hdr _
    ⟨p, hpo, .inr ⟨t, y, h.mem_user, h.own, rfl, (hp t).mpr le_rfl⟩⟩
  have hon : pendingLimit (some 1) = 1 := by decide
  cases hdr with
  | @last _ a order ha hla =>
    obtain ⟨count, -, hco, -, hm, -⟩ := exists_pageAt_of_ok hde hne hl hpo ha
    rw [hon] at hco
    subst hco
    rw [hm, Bool.eq_false_iff] at hla
    exact hla (hasMore_pageAt.mpr (.inl (h.cut order hp (by decide))))
  | @more _ a rest order ha hmo hr =>
    obtain ⟨count, -, hco, he, -, hn⟩ := exists_pageAt_of_ok hde hne hl hpo ha
    rw [hon] at hco
    subst hco
    have hcu := h.cut order hp (by decide : 0 < 2 * 1)
    obtain ⟨e, hpa⟩ := List.length_eq_one_iff.mp (length_entries_of_cut hcu)
    have hge : t ≤ (pageAt r.sha256 device order (r.device mb) (r.user mb) p p 1
        (2 * 1)).resumeId p := by
      rw [resumeId_of_cut (e := e) hcu (by rw [hpa]; rfl)]
      refine (hp _).mp ?_
      obtain ⟨-, hlt⟩ | ⟨-, hlt⟩ := mem_pageAt_entries (hpa ▸ List.mem_singleton_self e) <;>
        exact hlt
    have ho : ∀ {k}, ¬ Waiting r.sha256 device (r.device mb) (r.user mb) k t t →
        Delivers r.sha256 (a.entries ++ rest) k → Delivers r.sha256 [e] k := by
      rintro k hk ⟨id, env, hme, hke⟩
      obtain hme | hme := List.mem_append.mp hme
      · exact ⟨id, env, hpa ▸ he ▸ hme, hke⟩
      · exact absurd ((waiting_of_drain hde hne hl hr hn ⟨id, env, hme, hke⟩).mono
          hge hge) hk
    obtain ⟨i, env, hi, hkx⟩ := ho h.last_x hx
    obtain ⟨j, env', hj, hky⟩ := ho h.last_y hy
    have heq : (i, some env) = (j, some env') :=
      (List.mem_singleton.mp hi).trans (List.mem_singleton.mp hj).symm
    have hen : env = env' := by simpa using congrArg Prod.snd heq
    exact h.ne (hkx.symm.trans (hen ▸ hky))

def SameIds (mb mb' : Mailbox) : Prop :=
  mb.device.ids = mb'.device.ids ∧ mb.user.ids = mb'.user.ids

def plainMessage (userId messageId : String) : MessageEnvelope :=
  ⟨messageId, "", userId, .directMessage, [], false, none, none⟩

theorem forEnvelope_plainMessage_ne {sha256 : Bytes → Bytes} (hsh : Injective sha256)
    (userId : String) : MessageDedupKey.forEnvelope sha256 (plainMessage userId "x") ≠
      .forEnvelope sha256 (plainMessage userId "y") := by
  intro h
  have ht := congrArg MessageDedupKey.text h
  have hf := hsh (Framing.hexEncode_injective (String.append_right_inj _ |>.mp ht))
  simp only [plainMessage, dedupFields, Framing.frame, List.flatMap_cons, List.flatMap_nil,
    List.append_cancel_left_eq] at hf
  exact absurd hf (by decide)

def tieMailbox (codec : EnvelopeCodec) (userId : String) (mb : Mailbox) (t : StreamId) : Mailbox where
  device := mb.device.relabel fun id =>
    if id = t then encodeFields codec (plainMessage userId "x") else ⟨none, none⟩
  user := mb.user.relabel fun id =>
    if id = t then encodeFields codec (plainMessage userId "y") else ⟨none, none⟩

theorem mem_asRead_relabel {codec : EnvelopeCodec} {userId : String} {s : Stream StreamFields}
    {t id : StreamId} {env : MessageEnvelope} (he : env.recipientId = userId) {e : MessageEnvelope} :
    (id, some e) ∈ asRead codec userId (s.relabel fun id =>
        if id = t then encodeFields codec env else ⟨none, none⟩).entries ↔ id ∈ s.ids ∧ id = t ∧ e = env := by
  have hre : ∀ i, readEntry codec userId
      (if i = t then encodeFields codec env else ⟨none, none⟩) =
        if i = t then some env else none := by
    intro i
    split_ifs
    · rw [readEntry_encode, if_pos he]
    · rfl
  simp only [asRead, Stream.relabel, Stream.mapEntries, List.map_map, List.mem_map,
    Function.comp_apply, Prod.mk.injEq, hre, Stream.ids]
  constructor
  · rintro ⟨a, ha, rfl, h⟩
    split_ifs at h with ht
    exact ⟨⟨a, ha, rfl⟩, ht, (some.inj h).symm⟩
  · rintro ⟨⟨a, ha, rfl⟩, ht, rfl⟩
    exact ⟨a, ha, rfl, by rw [if_pos ht]⟩

theorem tie_tieMailbox (hsh : Injective r.sha256) {t : StreamId}
    (hd : t ∈ mb.device.ids) (hu : t ∈ mb.user.ids) :
    Tie r device (tieMailbox r.codec r.userId mb t) t (plainMessage r.userId "x") (plainMessage r.userId "y") := by
  have hl : ∀ k, ¬ Waiting r.sha256 device (r.device (tieMailbox r.codec r.userId mb t))
      (r.user (tieMailbox r.codec r.userId mb t)) k t t := by
    rintro k (⟨id, env, hm, -, hlt⟩ | ⟨id, env, hm, -, -, hlt⟩) <;>
      exact hlt.ne' ((mem_asRead_relabel (by rfl)).mp hm).2.1
  exact {
    mem_device := (mem_asRead_relabel (by rfl)).mpr ⟨hd, rfl, rfl⟩
    mem_user := (mem_asRead_relabel (by rfl)).mpr ⟨hu, rfl, rfl⟩
    own := rfl
    ne := forEnvelope_plainMessage_ne hsh r.userId
    last_x := hl _
    last_y := hl _ }

theorem separated_of_disjoint (h : ∀ id ∈ mb.device.ids, id ∉ mb.user.ids) :
    Separated r.sha256 device (r.device mb) (r.user mb) := by
  intro id env env' hd hu
  obtain ⟨a, ha, heq⟩ := List.mem_map.mp hd
  obtain ⟨b, hb, heq'⟩ := List.mem_map.mp hu
  have ha' : id ∈ mb.device.ids := List.mem_map.mpr ⟨a, ha, congrArg Prod.fst heq⟩
  have hb' : id ∈ mb.user.ids := List.mem_map.mpr ⟨b, hb, congrArg Prod.fst heq'⟩
  exact absurd hb' (h id ha')

/-- **Paging to the end loses nothing when no id is shared by two different messages, and for
given ids of the two streams nothing can be lost exactly when no id is in both.** -/
theorem pending_lossless_iff_disjoint (hdev : r.deviceId = some device) (hne : device ≠ "")
    (hsha : Injective r.sha256) :
    (∀ mb, Separated r.sha256 device (r.device mb) (r.user mb) → Lossless r device mb) ∧
      ∀ mb, (∀ mb', SameIds mb' mb → Lossless r device mb') ↔ ∀ id ∈ mb.device.ids, id ∉ mb.user.ids := by
  refine ⟨fun mb => lossless_of_separated hdev hne, fun mb => ⟨fun hall t hd hu => ?_, ?_⟩⟩
  · obtain ⟨e, he, rfl⟩ := List.mem_map.mp hd
    refine not_lossless_of_tie hdev hne (mb.device.zero_lt e he) (tie_tieMailbox hsha hd hu)
      (hall _ ⟨?_, ?_⟩) <;>
      simp [tieMailbox]
  · intro hdisjoint mb' ⟨hd, hu⟩
    refine lossless_of_separated hdev hne (separated_of_disjoint ?_)
    rwa [hd, hu]

def twoMessages (i j : StreamId) (hi : 0 < i) (hj : 0 < j) : Mailbox :=
  ⟨oneEntry i hi (encodeFields unaryCodec (plainMessage "u" "x")),
    oneEntry j hj (encodeFields unaryCodec (plainMessage "u" "y"))⟩

/-- Two messages at two ids of one millisecond are both delivered. -/
theorem pending_lossless_two_ids :
    Lossless exampleReader "d" (twoMessages ⟨5, 0⟩ ⟨5, 1⟩ (by decide) (by decide)) :=
  ((pending_lossless_iff_disjoint (r := exampleReader) rfl (by decide) Function.injective_id).2
    (twoMessages ⟨5, 0⟩ ⟨5, 1⟩ (by decide) (by decide))).mpr (by decide) _ ⟨rfl, rfl⟩

theorem twoMessages_asRead (i j : StreamId) (hi : 0 < i) (hj : 0 < j) :
    exampleReader.device (twoMessages i j hi hj) = [(i, some (plainMessage "u" "x"))] ∧
      exampleReader.user (twoMessages i j hi hj) = [(j, some (plainMessage "u" "y"))] := by
  simp [Reader.device, Reader.user, asRead, twoMessages, oneEntry, exampleReader, readEntry_encode,
    plainMessage]

def tied : Mailbox := twoMessages ⟨5, 0⟩ ⟨5, 0⟩ (by decide) (by decide)

theorem page_tied (p : StreamId) : exampleReader.page tied (IterOrder.identity _) p 1 =
      pageAt id "d" (IterOrder.identity _) [(⟨5, 0⟩, some (plainMessage "u" "x"))]
        [(⟨5, 0⟩, some (plainMessage "u" "y"))] p p 1 2 := by
  obtain ⟨hd, hu⟩ := twoMessages_asRead ⟨5, 0⟩ ⟨5, 0⟩ (by decide) (by decide)
  change pageAt id "d" _ (exampleReader.device tied) (exampleReader.user tied) p p 1 2 = _
  rw [tied, hd, hu]

/-- Two messages at one id, and pages of one entry: the first page delivers the device entry and
resumes after both, and the drain ends without the user entry. -/
theorem pending_tie_loses_message : Drain exampleReader tied (some 1) none [(⟨5, 0⟩, some (plainMessage "u" "x"))] ∧
      Owed exampleReader "d" tied none (.forEnvelope id (plainMessage "u" "y")) ∧
      ¬ Delivers id [(⟨5, 0⟩, some (plainMessage "u" "x"))] (.forEnvelope id (plainMessage "u" "y")) := by
  refine ⟨?_, ⟨0, rfl, .inr ⟨⟨5, 0⟩, plainMessage "u" "y", ?_, rfl, rfl, by decide⟩⟩, ?_⟩
  · have hfirst : exampleReader.page tied (IterOrder.identity _) 0 1 =
        ⟨[(⟨5, 0⟩, some (plainMessage "u" "x"))], [], 0, none, true⟩ := by
      rw [page_tied]
      decide
    have hsecond : exampleReader.page tied (IterOrder.identity _) ⟨5, 0⟩ 1 =
        ⟨[], [], 0, none, false⟩ := by
      rw [page_tied]
      decide
    have hone : pendingLimit (some 1) = 1 := by decide
    have ha := getPendingMessages_ok (p := 0) exampleReader tied (IterOrder.identity _)
      ⟨some 1, none⟩ rfl (by decide) (by decide)
    have hb := getPendingMessages_ok (p := ⟨5, 0⟩) exampleReader tied (IterOrder.identity _)
      ⟨some 1, some "5-0"⟩ (by decide) (by decide) (by decide)
    rw [hone, hfirst] at ha
    rw [hone, hsecond] at hb
    exact .more _ ha rfl (.last _ hb rfl)
  · rw [tied, (twoMessages_asRead _ _ _ _).2]
    exact List.mem_singleton_self _
  · rintro ⟨i, env, hmem, hkey⟩
    have henv : env = plainMessage "u" "x" := by
      simpa using congrArg Prod.snd (List.mem_singleton.mp hmem)
    exact forEnvelope_plainMessage_ne Function.injective_id "u" (henv ▸ hkey)

end

end ConstructServer.Messaging
