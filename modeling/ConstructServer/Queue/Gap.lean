import ConstructServer.Library.RedisStream

/-!
# Whether a mailbox lost messages it never delivered

A reader asks what is left after its cursor. What was removed after it leaves one of two traces:
the largest deleted id, which explicit deletions move and the age sweep records, and a stream at
its cap that has lost entries and starts after the cursor, for the trims of a full mailbox.
-/

namespace ConstructServer.Queue

open Redis

/-- The interval a mailbox can no longer deliver. -/
structure MailboxGap where
  afterCursor : String
  resumesAt : String

/-- What `XINFO STREAM` says that the rule reads. -/
structure StreamInfo where
  maxDeleted : Option String
  firstEntry : Option String
  lastGenerated : Option String
  length : Nat
  entriesAdded : Nat

/-- `u64::saturating_mul`. -/
def saturatingMul (a b : Nat) : Nat := min (a * b) (2 ^ 64 - 1)

/-- The rule, on what `XINFO STREAM` said and the mailbox cap. -/
def mailboxGap (after : String) (stream : StreamInfo) (cap : Nat) : Option MailboxGap :=
  match StreamId.parse after with
  | none => none
  | some afterId =>
    let gap : MailboxGap := ⟨after, stream.firstEntry.getD ""⟩
    if (stream.maxDeleted.bind StreamId.parse).any fun deleted =>
        deleted ≠ 0 && afterId < deleted then
      some gap
    else
      let lostSome := stream.length < stream.entriesAdded
      let atCap := 0 < cap ∧ saturatingMul cap 9 / 10 ≤ stream.length
      let beforeAll := (stream.firstEntry.bind StreamId.parse).all fun first => afterId < first
      if lostSome ∧ atCap ∧ beforeAll then some gap else none

def streamInfo {β : Type*} (s : Stream β) : StreamInfo where
  maxDeleted := some s.maxDeleted.render
  firstEntry := s.entries.head?.map fun e => e.1.render
  lastGenerated := some s.lastId.render
  length := s.entries.length
  entriesAdded := s.entriesAdded

/-- What the age sweep does after it has read `XINFO STREAM`. -/
inductive RecordDecision
  | done
  | setId (last : String)

/-- The order of `Option`: `None` is smaller than any value. -/
def optionLE (a b : Option StreamId) : Bool :=
  match a, b with
  | none, _ => true
  | some _, none => false
  | some a, some b => a ≤ b

def recordDecision (stream : StreamInfo) (removed : String) : RecordDecision :=
  match stream.lastGenerated with
  | none => .done
  | some last =>
    let already := stream.maxDeleted.bind StreamId.parse
    if optionLE (StreamId.parse removed) already then .done else .setId last

section

variable {β : Type*} {s : Stream β} {after : String} {c id : StreamId} {cap : Nat}

theorem mailboxGap_of_deleted (haf : StreamId.parse after = some c) (hc : c < id)
    (hid : id ≤ s.maxDeleted) : (mailboxGap after (streamInfo s) cap).isSome := by
  have hlt : c < s.maxDeleted := lt_of_lt_of_le hc hid
  have hne : s.maxDeleted ≠ 0 := ne_of_gt (lt_of_le_of_lt (StreamId.zero_le c) hlt)
  simp [mailboxGap, haf, streamInfo, hne, hlt]

theorem saturatingMul_nine_div_ten_le (cap : Nat) : saturatingMul cap 9 / 10 ≤ cap := by
  unfold saturatingMul
  omega

theorem mailboxGap_of_trimmed (haf : StreamId.parse after = some c) (hc : c < id)
    (hca : 0 < cap) (hl : cap ≤ s.entries.length)
    (hlo : s.entries.length < s.entriesAdded) (hf : ∀ e ∈ s.entries, id < e.1) :
    (mailboxGap after (streamInfo s) cap).isSome := by
  have hat : saturatingMul cap 9 / 10 ≤ s.entries.length :=
    (saturatingMul_nine_div_ten_le cap).trans hl
  have hbe : ((s.entries.head?.map fun e => e.1.render).bind StreamId.parse).all
      fun first => c < first := by
    cases hh : s.entries.head? with
    | none => rfl
    | some e =>
      have hlt : c < e.1 := hc.trans (hf e (List.mem_of_mem_head? hh))
      simp [hlt]
  simp only [mailboxGap, haf, streamInfo, hlo, hca, hat, hbe, and_self, if_true]
  split_ifs <;> rfl

variable (s) in
theorem recordDecision_streamInfo (removed : StreamId) : recordDecision (streamInfo s) removed.render =
      if removed ≤ s.maxDeleted then .done else .setId s.lastId.render := by
  simp [recordDecision, streamInfo, optionLE]

end

end ConstructServer.Queue
