import ConstructServer.Library.Machine
import ConstructServer.Queue.Envelope
import ConstructServer.Queue.Gap

/-!
# Retention of one mailbox stream

A mailbox stream loses entries in three ways: a write trims a full stream, the hourly sweep trims
by age and records what it took, and the purge of a blocked sender deletes entries by id. The
sweeps and purges of any number of service instances run side by side, one Redis command at a
time, and any command or its reply may be lost.
-/

namespace ConstructServer.Queue

open Redis Machine List Option

variable {β : Type*}

/-- A sweep or a purge of a stream, before its next command. -/
inductive Job
  | newest (minid : StreamId)
  | trim (minid : StreamId) (newestRemoved : Option StreamId)
  | info (removed : StreamId) (retry : Bool)
  | setId (removed : StreamId) (last : String) (retry : Bool)
  | scan (sender : String)
  | delete (ids : List StreamId)

/-- What one command of a job does. -/
structure Effect (β : Type*) where
  stream : Stream β
  removed : List StreamId := []
  next : Option Job := none
  unrecorded : Bool := false

def mailboxMaxlen (queueMaxlenStandard : Int) : Nat := (max queueMaxlenStandard 1).toNat

def envelopeSender (env : MessageEnvelope) : Option String :=
  if env.isSealedSender ∨ env.senderId = "" then none else some env.senderId

def idsOfSender (senderOf : β → Option String) (s : Stream β) (sender : String) : List StreamId :=
  (s.entries.filter fun e => senderOf e.2 = some sender).map Prod.fst

def recordAgain (stream : Stream β) (removed : StreamId) (retry : Bool) : Effect β where
  stream
  next := if retry then some (.info removed false) else none
  unrecorded := !retry

def Job.exec (senderOf : β → Option String) (s : Stream β) : Job → Outcome → Effect β
  | .newest minid, o =>
    { stream := s
      next := some (.trim minid (if o = .ok then s.newestBefore minid else none)) }
  | .trim minid newestRemoved, o =>
    if o = .failed then { stream := s }
    else
      let trimmed := s.idsBefore minid
      { stream := s.xtrimMinId minid
        removed := trimmed
        next := if o = .ok ∧ trimmed ≠ [] then newestRemoved.map (.info · true) else none
        -- A lost reply counts as nothing trimmed.
        unrecorded := trimmed ≠ [] ∧ (o = .lost ∨ newestRemoved = none) }
  | .info removed retry, o =>
    if o = .ok then
      match recordDecision (streamInfo s) removed.render with
      | .done => { stream := s }
      | .setId last => { stream := s, next := some (.setId removed last retry) }
    else { stream := s, unrecorded := true }
  | .setId removed last retry, o =>
    if o = .failed then recordAgain s removed retry
    else match (StreamId.parse last).map (s.xsetid · removed) with
      | some (.ok t) => if o = .ok then { stream := t } else recordAgain t removed retry
      | _ => recordAgain s removed retry
  | .scan sender, o =>
    let ids := idsOfSender senderOf s sender
    { stream := s, next := if o = .ok ∧ ids ≠ [] then some (.delete ids) else none }
  | .delete ids, o =>
    if o = .failed then { stream := s } else { stream := s.xdel ids, removed := s.idsAmong ids }

/-- A stream with its jobs, what was ever removed from it, and whether a sweep gave up. -/
structure RetentionState (β : Type*) where
  now : UInt64
  stream : Stream β
  jobs : List Job
  removed : List StreamId
  unrecorded : Bool

def RetentionState.initial : RetentionState β := ⟨0, .empty, [], [], false⟩

inductive RetentionAction (β : Type*)
  | tick (now : UInt64)
  | xadd (v : β) (n : Nat)
  | startSweep (maxAgeSeconds : Nat)
  | startPurge (sender : String)
  | command (i : Nat) (outcome : Outcome)

section

variable (senderOf : β → Option String) (cap : Nat)

def sweepMinid (now : UInt64) (maxAgeSeconds : Nat) : StreamId :=
  ⟨UInt64.ofNat (now.toNat - maxAgeSeconds * 1000), 0⟩

def RetentionState.step (s : RetentionState β) : RetentionAction β → Option (RetentionState β)
  | .tick now => if s.now ≤ now then some { s with now } else none
  | .xadd v n =>
    (s.stream.xadd s.now v).bind fun (_, added) =>
      -- An approximate trim removes a prefix and leaves at least `cap` entries.
      if n = 0 ∨ n + cap ≤ added.entries.length then
        some { s with stream := added.trimOldest n, removed := s.removed ++ added.oldest n }
      else none
  | .startSweep maxAgeSeconds =>
    some { s with jobs := s.jobs ++ [.newest (sweepMinid s.now maxAgeSeconds)] }
  | .startPurge sender => some { s with jobs := s.jobs ++ [.scan sender] }
  | .command i o =>
    s.jobs[i]?.map fun job =>
      let e := job.exec senderOf s.stream o
      { s with
        stream := e.stream
        jobs := Machine.replace s.jobs i e.next
        removed := s.removed ++ e.removed
        unrecorded := s.unrecorded || e.unrecorded }

end

/-- The mark that an `XSETID` is about to overwrite is not larger than the one it writes. -/
def Job.keepsMark (s : Stream β) : Job → Bool
  | .setId removed _ _ => s.maxDeleted ≤ removed
  | _ => true

def NeverLowers (s : RetentionState β) : RetentionAction β → Prop
  | .command i _ => ∀ job ∈ s.jobs[i]?, job.keepsMark s.stream = true
  | _ => True

instance (s : RetentionState β) : (a : RetentionAction β) → Decidable (NeverLowers s a) := fun a => by
  cases a <;> dsimp only [NeverLowers] <;> infer_instance

def Job.recording : Job → Bool
  | .info _ _ | .setId _ _ _ => true
  | _ => false

def Settled (s : RetentionState β) : Prop :=
  s.unrecorded = false ∧ ∀ job ∈ s.jobs, job.recording = false

/-- A reader at any cursor is told of a gap if an entry after the cursor was removed. -/
def ReportsGaps (cap : Nat) (s : RetentionState β) : Prop :=
  ∀ after c id, StreamId.parse after = some c → id ∈ s.removed → c < id →
    (mailboxGap after (streamInfo s.stream) cap).isSome

/-- What a sweep knows at each command: it removes nothing newer than the clock it started at, and
nothing newer than the entry it read. -/
def JobInvariant (now : UInt64) (s : Stream β) : Job → Prop
  | .newest minid => minid ≤ ⟨now, 0⟩
  | .trim minid newestRemoved => minid ≤ ⟨now, 0⟩ ∧
    ∀ r ∈ newestRemoved, 0 < r ∧ ∀ e ∈ s.entries, e.1 < minid → e.1 ≤ r
  | .info removed _ => 0 < removed
  | .setId removed _ _ => 0 < removed
  | .scan _ => True
  | .delete _ => True

def Job.Records (id : StreamId) : Job → Prop
  | .info removed _ => id ≤ removed
  | .setId removed _ _ => id ≤ removed
  | _ => False

theorem Job.Records.mono {job : Job} {id id' : StreamId} (h : job.Records id) (hle : id' ≤ id) :
    job.Records id' := by
  cases job with
  | info | setId => exact hle.trans h
  | _ => exact h

theorem Job.recording_of_records {job : Job} {id : StreamId} (h : job.Records id) :
    job.recording = true := by
  cases job <;> first | rfl | exact h.elim

section

variable {senderOf : β → Option String} {now : UInt64} {s : Stream β} {job : Job} {o : Outcome}

/-- The mark is at the id, or the job goes on to record it. -/
def Marked (e : Effect β) (id : StreamId) : Prop :=
  id ≤ e.stream.maxDeleted ∨ ∃ job ∈ e.next, job.Records id

/-- What a command can do to the stream, and what it owes for what it removes. -/
structure ExecSpec (now : UInt64) (s : Stream β) (job : Job) (e : Effect β) : Prop where
  entriesAdded : e.stream.entriesAdded = s.entriesAdded
  length : e.stream.entries.length + e.removed.length = s.entries.length
  subset : e.stream.entries ⊆ s.entries
  maxDeleted : s.maxDeleted ≤ e.stream.maxDeleted
  mem_of_removed : ∀ id ∈ e.removed, ∃ x ∈ s.entries, x.1 = id
  next : ∀ j ∈ e.next, JobInvariant now e.stream j
  removed : e.unrecorded = false → ∀ id ∈ e.removed, Marked e id
  records : e.unrecorded = false → ∀ id, job.Records id → Marked e id

theorem execSpec_unchanged {e : Effect β} (hst : e.stream = s) (hre : e.removed = [])
    (hn : ∀ j ∈ e.next, JobInvariant now s j)
    (hr : e.unrecorded = false → ∀ id, job.Records id → Marked e id) :
    ExecSpec now s job e := by
  subst hst
  refine ⟨rfl, by simp [hre], List.Subset.refl _, le_rfl, ?_, hn, ?_, hr⟩
  · simp [hre]
  · simp [hre]

theorem execSpec_recordAgain {removed : StreamId} {last : String} {retry : Bool} (hpo : 0 < removed) :
    ExecSpec now s (.setId removed last retry) (recordAgain s removed retry) := by
  refine execSpec_unchanged rfl rfl ?_ ?_
  · cases retry <;> simp [recordAgain, JobInvariant, hpo]
  · cases retry with
    | false => simp [recordAgain]
    | true => exact fun _ id hid => .inr ⟨_, rfl, hid⟩

theorem execSpec_setId {removed last : StreamId} {text : String} {retry : Bool} {t : Stream β}
    (hpo : 0 < removed) (hm : s.maxDeleted ≤ removed) (ht : s.xsetid last removed = .ok t) {e : Effect β}
    (he : e = { stream := t } ∨ e = recordAgain t removed retry) :
    ExecSpec now s (.setId removed text retry) e := by
  obtain ⟨hen, ha, -, hma⟩ := Stream.xsetid_eq_ok ht
  rw [if_neg hpo.ne'] at hma
  have hst : e.stream = t := by rcases he with rfl | rfl <;> rfl
  have hre : e.removed = [] := by rcases he with rfl | rfl <;> rfl
  refine ⟨by rw [hst, ha], by simp [hst, hre, hen], ?_, ?_, ?_, ?_, ?_, ?_⟩
  · rw [hst, hen]
    exact List.Subset.refl _
  · rw [hst, hma]
    exact hm
  · simp [hre]
  · rcases he with rfl | rfl
    · simp
    · cases retry <;> simp [recordAgain, JobInvariant, hpo]
  · simp [hre]
  · intro _ id hid
    refine .inl ?_
    rw [hst, hma]
    exact hid

theorem execSpec_trim {minid : StreamId} {newestRemoved : Option StreamId}
    (hinv : JobInvariant now s (.trim minid newestRemoved)) : ExecSpec now s (.trim minid newestRemoved)
      (Job.exec senderOf s (.trim minid newestRemoved) o) := by
  by_cases ho : o = .failed
  · rw [Job.exec, if_pos ho]
    exact execSpec_unchanged rfl rfl (by simp) fun _ _ h => h.elim
  rw [Job.exec, if_neg ho]
  refine ⟨rfl, Stream.length_xtrimMinId minid, filter_sublist.subset, le_rfl, ?_, ?_, ?_, fun _ _ h => h.elim⟩
  · exact fun id hid => (Stream.mem_idsBefore.mp hid).1
  · intro j hj
    simp only [mem_def] at hj
    split_ifs at hj
    obtain ⟨r, hr, rfl⟩ := map_eq_some_iff.mp hj
    exact (hinv.2 r hr).1
  · -- Something was removed, so the reply says so and the sweep had read its newest entry.
    intro hu id hid
    have hne : s.idsBefore minid ≠ [] := ne_nil_of_mem hid
    simp only [hne, ne_eq, not_false_eq_true, true_and, decide_eq_false_iff_not, not_or] at hu
    have hok : o = .ok := by
      cases o with
      | ok => rfl
      | lost => exact absurd rfl hu.1
      | failed => exact absurd rfl ho
    obtain ⟨r, hr⟩ := ne_none_iff_exists'.mp hu.2
    obtain ⟨⟨x, hx, rfl⟩, hlt⟩ := Stream.mem_idsBefore.mp hid
    refine .inr ⟨.info r true, ?_, (hinv.2 r hr).2 x hx hlt⟩
    simp [hok, hne, hr]

variable (senderOf o) in
theorem exec_spec (hinv : JobInvariant now s job) (hm : job.keepsMark s = true) :
    ExecSpec now s job (job.exec senderOf s o) := by
  cases job with
  | newest minid =>
    refine execSpec_unchanged rfl rfl ?_ fun _ _ h => h.elim
    intro j hj
    obtain rfl := some.inj hj
    refine ⟨hinv, fun r hr => ?_⟩
    split_ifs at hr
    · refine ⟨?_, fun e he hlt => Stream.le_newestBefore hr he hlt⟩
      obtain ⟨⟨x, hx, rfl⟩, -⟩ := Stream.mem_idsBefore.mp (mem_of_getLast? hr)
      exact s.zero_lt x hx
    · cases hr
  | trim minid newestRemoved => exact execSpec_trim hinv
  | info removed retry =>
    by_cases ho : o = .ok
    · rw [Job.exec, if_pos ho, recordDecision_streamInfo]
      split_ifs with hle
      · exact execSpec_unchanged rfl rfl (by simp) fun _ id hid => .inl (hid.trans hle)
      · refine execSpec_unchanged rfl rfl ?_ fun _ id hid => .inr ⟨_, rfl, hid⟩
        intro j hj
        obtain rfl := some.inj hj
        exact hinv
    · rw [Job.exec, if_neg ho]
      exact execSpec_unchanged rfl rfl (by simp) (by simp)
  | setId removed last retry =>
    by_cases ho : o = .failed
    · rw [Job.exec, if_pos ho]
      exact execSpec_recordAgain hinv
    · rw [Job.exec, if_neg ho]
      split
      next t ht =>
        obtain ⟨lastId, -, hset⟩ := map_eq_some_iff.mp ht
        refine execSpec_setId hinv (of_decide_eq_true hm) hset ?_
        split_ifs
        · exact .inl rfl
        · exact .inr rfl
      next => exact execSpec_recordAgain hinv
  | scan sender =>
    refine execSpec_unchanged rfl rfl ?_ fun _ _ h => h.elim
    intro j hj
    simp only [Job.exec, mem_def] at hj
    split_ifs at hj
    obtain rfl := some.inj hj
    trivial
  | delete ids =>
    by_cases ho : o = .failed
    · rw [Job.exec, if_pos ho]
      exact execSpec_unchanged rfl rfl (by simp) fun _ _ h => h.elim
    · rw [Job.exec, if_neg ho]
      refine ⟨rfl, Stream.length_xdel ids, filter_sublist.subset, Stream.maxDeleted_le_xdel ids,
        ?_, by simp, ?_, fun _ _ h => h.elim⟩
      · exact fun id hid => (Stream.mem_idsAmong.mp hid).1
      · exact fun _ id hid => .inl (Stream.le_maxDeleted_xdel hid)

end

/-- The id left a trace: in the largest deleted id, with a sweep that will record it, or as a trim
of a stream that is still at its cap. -/
def Traced (cap : Nat) (stream : Stream β) (jobs : List Job) (id : StreamId) : Prop :=
  id ≤ stream.maxDeleted ∨ (∃ job ∈ jobs, job.Records id) ∨
    cap ≤ stream.entries.length ∧ ∀ e ∈ stream.entries, id < e.1

structure RetentionInvariant (cap : Nat) (s : RetentionState β) : Prop where
  counted : s.stream.entries.length + s.removed.length ≤ s.stream.entriesAdded
  jobs : ∀ job ∈ s.jobs, JobInvariant s.now s.stream job
  traced : s.unrecorded = false → ∀ id ∈ s.removed, Traced cap s.stream s.jobs id

section

variable {senderOf : β → Option String} {cap : Nat} {s t : RetentionState β}

theorem retentionInvariant_initial : RetentionInvariant cap (.initial : RetentionState β) := by
  refine ⟨le_rfl, ?_, ?_⟩
  · simp [RetentionState.initial]
  · simp [RetentionState.initial]

theorem JobInvariant.mono {now now' : UInt64} {stream stream' : Stream β} {job : Job}
    (h : JobInvariant now stream job) (hn : now ≤ now')
    (hen : ∀ e ∈ stream'.entries, e ∈ stream.entries ∨ (⟨now, 0⟩ : StreamId) ≤ e.1) :
    JobInvariant now' stream' job := by
  have hcl : (⟨now, 0⟩ : StreamId) ≤ ⟨now', 0⟩ := StreamId.firstOf_le hn
  cases job with
  | newest minid => exact h.trans hcl
  | trim minid newestRemoved =>
    refine ⟨h.1.trans hcl, fun r hr => ⟨(h.2 r hr).1, fun e he hlt => ?_⟩⟩
    rcases hen e he with ho | hne
    · exact (h.2 r hr).2 e ho hlt
    · -- An entry written since the sweep started is not before its oldest kept id.
      exact absurd (h.1.trans hne) (not_le.mpr hlt)
  | info | setId => exact h
  | scan | delete => trivial

theorem Traced.grow {stream : Stream β} {jobs jobs' : List Job} {id : StreamId}
    (h : Traced cap stream jobs id) (hjo : jobs ⊆ jobs') : Traced cap stream jobs' id := by
  rcases h with h | ⟨job, hj, h⟩ | h
  · exact .inl h
  · exact .inr (.inl ⟨job, hjo hj, h⟩)
  · exact .inr (.inr h)

theorem RetentionInvariant.addJob (hinv : RetentionInvariant cap s) {job : Job}
    (hjo : JobInvariant s.now s.stream job) :
    RetentionInvariant cap { s with jobs := s.jobs ++ [job] } := by
  refine ⟨hinv.counted, fun j hj => ?_, fun hu id hid => ?_⟩
  · rcases mem_concat hj with hj | rfl
    · exact hinv.jobs j hj
    · exact hjo
  · exact (hinv.traced hu id hid).grow (subset_append_left _ _)

theorem RetentionInvariant.xadd (hinv : RetentionInvariant cap s) (hca : 0 < cap) {id : StreamId}
    {v : β} {n : Nat} (hid : nextId s.now s.stream.lastId = some id) (hlt : s.stream.lastId < id)
    (htr : n = 0 ∨ n + cap ≤ (s.stream.append id hlt v).entries.length) : RetentionInvariant cap { s with
      stream := (s.stream.append id hlt v).trimOldest n
      removed := s.removed ++ (s.stream.append id hlt v).oldest n } := by
  have hle := Stream.length_trimOldest (s := s.stream.append id hlt v) n
  have ha : (s.stream.append id hlt v).entries.length = s.stream.entries.length + 1 := by
    simp [Stream.append]
  have hen : ∀ e ∈ ((s.stream.append id hlt v).trimOldest n).entries,
      e ∈ s.stream.entries ∨ e.1 = id := by
    intro e he
    rcases mem_concat (mem_of_mem_drop he) with he | rfl
    · exact .inl he
    · exact .inr rfl
  refine ⟨?_, fun job hjo => ?_, fun hu x hx => ?_⟩
  · have hco := hinv.counted
    show ((s.stream.append id hlt v).trimOldest n).entries.length +
      (s.removed ++ (s.stream.append id hlt v).oldest n).length ≤ s.stream.entriesAdded + 1
    rw [length_append]
    omega
  · refine (hinv.jobs job hjo).mono (UInt64.le_refl _) fun e he => ?_
    refine (hen e he).imp_right fun heq => ?_
    rw [heq]
    exact StreamId.firstOf_le (nextId_gt hid).2
  · have hke : cap ≤ s.stream.entries.length ∨ n ≠ 0 →
        cap ≤ ((s.stream.append id hlt v).trimOldest n).entries.length := by
      simp only [Stream.trimOldest, Stream.restrict, length_drop]
      omega
    rcases mem_append.mp hx with hx | hx
    · rcases hinv.traced hu x hx with h | h | ⟨hl, hf⟩
      · exact .inl h
      · exact .inr (.inl h)
      · refine .inr (.inr ⟨hke (.inl hl), fun e he => ?_⟩)
        rcases hen e he with ho | heq
        · exact hf e ho
        · -- The stream is not empty, so the new id is after one that is after `x`.
          obtain ⟨e', he'⟩ := exists_mem_of_length_pos (hca.trans_le hl)
          rw [heq]
          exact ((hf e' he').trans_le (s.stream.le_lastId e' he')).trans hlt
    · refine .inr (.inr ⟨hke (.inr ?_), fun e he => Stream.oldest_lt hx he⟩)
      rintro rfl
      simp [Stream.oldest] at hx

theorem RetentionInvariant.command (hinv : RetentionInvariant cap s) {i : Nat} {job : Job}
    {o : Outcome} (hjo : s.jobs[i]? = some job) (hma : job.keepsMark s.stream = true) :
    RetentionInvariant cap { s with
      stream := (job.exec senderOf s.stream o).stream
      jobs := Machine.replace s.jobs i (job.exec senderOf s.stream o).next
      removed := s.removed ++ (job.exec senderOf s.stream o).removed
      unrecorded := s.unrecorded || (job.exec senderOf s.stream o).unrecorded } := by
  have hsp := exec_spec senderOf o (hinv.jobs job (mem_of_getElem? hjo)) hma
  revert hsp
  generalize job.exec senderOf s.stream o = e
  intro hsp
  have hm : ∀ id, Marked e id → Traced cap e.stream (Machine.replace s.jobs i e.next) id := by
    rintro id (h | ⟨j, hj, h⟩)
    · exact .inl h
    · exact .inr (.inl ⟨j, mem_replace_of_next hj, h⟩)
  have hdo : ∀ id id', id' ≤ id → Marked e id → Marked e id' := by
    rintro id id' hle (h | ⟨j, hj, h⟩)
    · exact .inl (hle.trans h)
    · exact .inr ⟨j, hj, h.mono hle⟩
  refine ⟨?_, fun j hj => ?_, fun hu id hid => ?_⟩
  · have hco := hinv.counted
    have hl := hsp.length
    show e.stream.entries.length + (s.removed ++ e.removed).length ≤ e.stream.entriesAdded
    rw [hsp.entriesAdded, length_append]
    omega
  · rcases mem_or_mem_of_replace hj with ho | hne
    · exact (hinv.jobs j ho).mono (UInt64.le_refl _) fun x hx => .inl (hsp.subset hx)
    · exact hsp.next j hne
  · obtain ⟨ho, hn⟩ := Bool.or_eq_false_iff.mp hu
    rcases mem_append.mp hid with hid | hid
    · rcases hinv.traced ho id hid with h | ⟨j, hj, h⟩ | ⟨hl, hf⟩
      · exact .inl (h.trans hsp.maxDeleted)
      · rcases mem_replace_or_eq e.next hjo hj with hst | rfl
        · exact .inr (.inl ⟨j, hst, h⟩)
        · exact hm id (hsp.records hn id h)
      · -- If the command removed something, what it owes covers the older trims too.
        rcases eq_nil_or_concat e.removed with hni | ⟨rest, x, hx⟩
        · refine .inr (.inr ⟨?_, fun y hy => hf y (hsp.subset hy)⟩)
          have hs := hsp.length
          rw [hni, length_nil, Nat.add_zero] at hs
          rwa [hs]
        · have hxm : x ∈ e.removed := by simp [hx]
          obtain ⟨y, hy, rfl⟩ := hsp.mem_of_removed x hxm
          exact hm id (hdo _ id (hf y hy).le (hsp.removed hn _ hxm))
    · exact hm id (hsp.removed hn id hid)

theorem retentionInvariant_step (hca : 0 < cap) {a : RetentionAction β}
    (hinv : RetentionInvariant cap s) (hm : NeverLowers s a)
    (hst : s.step senderOf cap a = some t) : RetentionInvariant cap t := by
  cases a with
  | tick now =>
    simp only [RetentionState.step] at hst
    split_ifs at hst with hn
    obtain rfl := some.inj hst
    exact ⟨hinv.counted, fun j hj => (hinv.jobs j hj).mono hn fun _ he => .inl he, hinv.traced⟩
  | xadd v n =>
    obtain ⟨⟨id, added⟩, ha, hst⟩ := bind_eq_some_iff.mp hst
    obtain ⟨hid, hlt, rfl⟩ := Stream.xadd_eq_some ha
    dsimp only at hst
    split_ifs at hst with htr
    obtain rfl := some.inj hst
    exact hinv.xadd hca hid hlt htr
  | startSweep maxAgeSeconds =>
    obtain rfl := some.inj hst
    refine hinv.addJob ?_
    apply StreamId.firstOf_le
    rw [UInt64.le_iff_toNat_le, UInt64.toNat_ofNat']
    exact (Nat.mod_le _ _).trans (Nat.sub_le _ _)
  | startPurge sender =>
    obtain rfl := some.inj hst
    exact hinv.addJob trivial
  | command i o =>
    obtain ⟨job, hjo, rfl⟩ := map_eq_some_iff.mp hst
    exact hinv.command hjo (hm job hjo)

end

theorem mailboxMaxlen_pos (queueMaxlenStandard : Int) : 0 < mailboxMaxlen queueMaxlenStandard := by
  unfold mailboxMaxlen
  omega

/-- **In every run in which no `XSETID` lowers the mark, whenever every sweep has recorded what it
removed, a reader at any cursor is told of every entry removed after it.** -/
theorem retention_reports_gaps (senderOf : β → Option String) (queueMaxlenStandard : Int)
    (schedule : List (RetentionAction β)) (t : RetentionState β)
    (hmark : Along (RetentionState.step senderOf (mailboxMaxlen queueMaxlenStandard))
      NeverLowers .initial schedule)
    (hrun : run (RetentionState.step senderOf (mailboxMaxlen queueMaxlenStandard)) .initial schedule = some t)
    (hsettled : Settled t) : ReportsGaps (mailboxMaxlen queueMaxlenStandard) t := by
  have hcap := mailboxMaxlen_pos queueMaxlenStandard
  have hinv := run_invariant (retentionInvariant_step hcap) retentionInvariant_initial hmark hrun
  intro after c id hafter hid hc
  rcases hinv.traced hsettled.1 id hid with h | ⟨job, hjob, h⟩ | ⟨hlength, hfirst⟩
  · exact mailboxGap_of_deleted hafter hc h
  · have hrecording := Job.recording_of_records h
    rw [hsettled.2 job hjob] at hrecording
    cases hrecording
  · refine mailboxGap_of_trimmed hafter hc hcap hlength ?_ hfirst
    have hcount := hinv.counted
    have hpos := length_pos_of_mem hid
    omega

def sweepOlder : List (RetentionAction MessageEnvelope) :=
  [.tick 5, .xadd ⟨"m1", "alice", "carol", .directMessage, [], false, none, none⟩ 0,
    .tick 604800009, .xadd ⟨"m2", "bob", "carol", .directMessage, [], false, none, none⟩ 0,
    .startSweep 604800, .command 0 .ok, .command 0 .ok, .command 0 .ok]

theorem sweepOlder_reports : ∃ t, run (RetentionState.step envelopeSender (mailboxMaxlen 5000)) .initial
        (sweepOlder ++ [.command 0 .ok]) = some t ∧ t.removed = [⟨5, 0⟩] ∧
      (mailboxGap "0-0" (streamInfo t.stream) (mailboxMaxlen 5000)).isSome := by
  obtain ⟨t, hrun, hremoved, hunrec, hjobs⟩ := reaches
    (RetentionState.step envelopeSender (mailboxMaxlen 5000)) .initial (sweepOlder ++ [.command 0 .ok])
    (fun t => t.removed = [⟨5, 0⟩] ∧ t.unrecorded = false ∧ t.jobs = []) (by decide +kernel)
  refine ⟨t, hrun, hremoved, ?_⟩
  exact retention_reports_gaps envelopeSender 5000 _ t (by decide +kernel) hrun
    ⟨hunrec, by simp [hjobs]⟩ "0-0" 0 ⟨5, 0⟩ (by decide) (by simp [hremoved]) (by decide)

/-- A purge of the younger message runs between the sweep's `XINFO` and its `XSETID`. The `XSETID`
lowers the mark from the purged entry to the swept one, and a reader that has the swept message is
not told that one after it is gone. -/
theorem purge_during_sweep_hides_gap :
    ∃ t, run (RetentionState.step envelopeSender (mailboxMaxlen 5000)) .initial
        (sweepOlder ++ [.startPurge "bob", .command 1 .ok, .command 1 .ok, .command 0 .ok]) =
          some t ∧ Settled t ∧ ¬ ReportsGaps (mailboxMaxlen 5000) t := by
  obtain ⟨t, hrun, hremoved, hunrec, hjobs, hgap⟩ := reaches
    (RetentionState.step envelopeSender (mailboxMaxlen 5000)) .initial (sweepOlder ++ [.startPurge "bob",
    .command 1 .ok, .command 1 .ok, .command 0 .ok]) (fun t => t.removed = [⟨5, 0⟩, ⟨604800009, 0⟩] ∧
    t.unrecorded = false ∧ t.jobs = [] ∧ mailboxGap "5-0" (streamInfo t.stream) (mailboxMaxlen 5000) = none)
    (by decide +kernel)
  refine ⟨t, hrun, ⟨hunrec, by simp [hjobs]⟩, fun hreports => ?_⟩
  have hsome := hreports "5-0" ⟨5, 0⟩ ⟨604800009, 0⟩ (by decide) (by simp [hremoved]) (by decide)
  rw [hgap] at hsome
  cases hsome

end ConstructServer.Queue
