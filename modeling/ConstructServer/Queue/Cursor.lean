import ConstructServer.Library.RedisStream

/-!
# Mailbox cursors

A client resumes from a cursor it was given as text, and several functions read that text: the
request check, the read that turns it into the start of an `XREAD`, and the comparisons that
move it forward. They agree: an accepted cursor other than `$` names one stream id.
-/

namespace ConstructServer.Queue

open Redis List Option

/-- The order of two cursors: by id when both are ids, and as text otherwise. -/
def compareStreamIdWatermarks (a b : String) : Ordering :=
  match StreamId.parse a, StreamId.parse b with
  | some x, some y => compare x y
  | _, _ => compare a b

/-- The order of two cursors in the live stream: text that is no id is not newer. -/
def compareStreamIds (a b : String) : Ordering :=
  match StreamId.parse a, StreamId.parse b with
  | some x, some y => compare x y
  | _, _ => .lt

theorem compareStreamIdWatermarks_eq {a b : String} {x y : StreamId}
    (ha : StreamId.parse a = some x) (hb : StreamId.parse b = some y) :
    compareStreamIdWatermarks a b = compare x y := by
  simp only [compareStreamIdWatermarks, ha, hb]

theorem compareStreamIds_eq {a b : String} {x y : StreamId}
    (ha : StreamId.parse a = some x)
    (hb : StreamId.parse b = some y) : compareStreamIds a b = compare x y := by
  simp only [compareStreamIds, ha, hb]

/-- Both parts of a text `ms-seq` are numbers. -/
def isValidStreamId (id : String) : Bool :=
  if id = "0" ∨ id = "$" ∨ id = "*" then true
  else match id.toList.splitOn '-' with
    | [ms, seq] => (Decimal.parseU64 ms).isSome && (Decimal.parseU64 seq).isSome
    | _ => false

/-- The id to read from: a bare number of milliseconds stands for its first id. -/
def normalizeStreamId (id : String) : Option String :=
  if isValidStreamId id then some id
  else if (Decimal.parseU64 id.toList).isSome then some (id ++ "-0")
  else none

/-- The start of a read: the cursor, or the beginning when there is none or it is no id. -/
def startOf (since : Option String) : String :=
  match since with
  | some id => (normalizeStreamId id).getD "0"
  | none => "0"

/-- The cursors a request may carry. -/
def isValidRedisStreamCursor (cursor : String) : Bool :=
  if cursor = "0" ∨ cursor = "$" then true
  else match Decimal.splitOnce '-' cursor.toList with
    | some (ts, seq) => (Decimal.parseU64 ts).isSome && (Decimal.parseU64 seq).isSome
    | none => (Decimal.parseU64 cursor.toList).isSome

/-- The position a read starts at: the beginning without a cursor, and none when Redis refuses
the cursor. -/
def positionOf (since : Option String) : Option Position := Position.parse (startOf since)

@[simp]
theorem positionOf_none : positionOf none = some (.after 0) := by
  decide

variable {c : String} {id : StreamId}

theorem eq_dollar_or_parse_of_valid (h : isValidRedisStreamCursor c) :
    c = "$" ∨ ∃ id, StreamId.parse c = some id := by
  unfold isValidRedisStreamCursor at h
  split_ifs at h with hs
  · obtain rfl | rfl := hs
    · exact .inr ⟨0, by decide⟩
    · exact .inl rfl
  · right
    unfold StreamId.parse
    cases hsp : Decimal.splitOnce '-' c.toList with
    | none =>
      simp only [hsp, isSome_iff_exists] at h ⊢
      obtain ⟨ms, hms⟩ := h
      exact ⟨⟨ms, 0⟩, by simp [hms]⟩
    | some p =>
      simp only [hsp, Bool.and_eq_true, isSome_iff_exists] at h ⊢
      obtain ⟨⟨ms, hms⟩, seq, hse⟩ := h
      exact ⟨⟨ms, seq⟩, by simp [hms, hse]⟩

theorem isValidRedisStreamCursor_render (id : StreamId) : isValidRedisStreamCursor id.render := by
  unfold isValidRedisStreamCursor
  split_ifs
  · rfl
  · simp [StreamId.splitOnce_render, Decimal.parseU64_printU64]

theorem isValidStreamId_of_parse (h : StreamId.parse c = some id) (hda : '-' ∈ c.toList) : isValidStreamId c := by
  unfold StreamId.parse at h
  cases hsp : Decimal.splitOnce '-' c.toList with
  | none => exact absurd hda (Decimal.splitOnce_eq_none_iff.mp hsp)
  | some p =>
    obtain ⟨ms, seq⟩ := p
    simp only [hsp, bind_eq_some_iff, map_eq_some_iff] at h
    obtain ⟨x, hms, y, hse, -⟩ := h
    obtain ⟨ht, hno⟩ := Decimal.splitOnce_eq_some_iff.mp hsp
    have hs : '-' ∉ seq := fun hm => by
      simp [Decimal.parseU64_eq_none_of_dash hm] at hse
    have hpa : c.toList.splitOn '-' = [ms, seq] := by
      rw [ht, splitOn_append_cons_self, splitOn_eq_singleton hno,
        splitOn_eq_singleton hs, singleton_append]
    simp [isValidStreamId, hpa, hms, hse]

theorem eq_zero_of_isValidStreamId (h : StreamId.parse c = some id) (hva : isValidStreamId c)
    (hda : '-' ∉ c.toList) : c = "0" := by
  unfold isValidStreamId at hva
  split_ifs at hva with hsp
  · obtain rfl | rfl | rfl := hsp
    · rfl
    · cases h.symm.trans (show StreamId.parse "$" = none by decide)
    · cases h.symm.trans (show StreamId.parse "*" = none by decide)
  · rw [splitOn_eq_singleton hda] at hva
    cases hva

theorem parse_append_zero (h : StreamId.parse c = some id)
    (hda : '-' ∉ c.toList) : StreamId.parse (c ++ "-0") = some id := by
  have hno := Decimal.splitOnce_eq_none_iff.mpr hda
  have hsp : Decimal.splitOnce '-' (c ++ "-0").toList = some (c.toList, ['0']) := by
    rw [String.toList_append]
    exact Decimal.splitOnce_append hda
  have hz : Decimal.parseU64 ['0'] = some 0 := by decide
  simp only [StreamId.parse, hno, map_eq_some_iff] at h
  obtain ⟨ms, hms, rfl⟩ := h
  simp only [StreamId.parse, hsp, hms, hz, bind_some, map_some]

theorem exists_normalizeStreamId (h : StreamId.parse c = some id) :
    ∃ t, normalizeStreamId c = some t ∧ StreamId.parse t = some id ∧
      (t.utf8ByteSize ≤ 127 ↔ c.utf8ByteSize ≤ if '-' ∈ c.toList then 127 else 125) := by
  by_cases hva : isValidStreamId c
  · refine ⟨c, by simp [normalizeStreamId, hva], h, ?_⟩
    split_ifs with hda
    · rfl
    · obtain rfl := eq_zero_of_isValidStreamId h hva hda
      decide
  · have hda : '-' ∉ c.toList := fun hda => hva (isValidStreamId_of_parse h hda)
    have hnu : (Decimal.parseU64 c.toList).isSome := by
      have hno := Decimal.splitOnce_eq_none_iff.mpr hda
      simp only [StreamId.parse, hno, map_eq_some_iff] at h
      obtain ⟨ms, hms, -⟩ := h
      simp [hms]
    refine ⟨c ++ "-0", by simp [normalizeStreamId, hva, hnu], parse_append_zero h hda, ?_⟩
    rw [if_neg hda, String.utf8ByteSize_append, show "-0".utf8ByteSize = 2 by decide]
    omega

/-- **A read starts after the id its cursor stands for**, if Redis takes a text of its length. -/
theorem positionOf_eq_after_iff (h : isValidRedisStreamCursor c) :
    positionOf (some c) = some (.after id) ↔
      StreamId.parse c = some id ∧ c.utf8ByteSize ≤ if '-' ∈ c.toList then 127 else 125 := by
  obtain rfl | ⟨i, hi⟩ := eq_dollar_or_parse_of_valid h
  · rw [show positionOf (some "$") = some .newest by decide,
      show StreamId.parse "$" = none by decide]
    simp
  · obtain ⟨t, ht, hpa, hsi⟩ := exists_normalizeStreamId hi
    rw [positionOf, startOf, ht, getD_some, Position.parse_eq_after_iff, hpa, hi, hsi]

@[simp]
theorem positionOf_render (id : StreamId) : positionOf (some id.render) = some (.after id) :=
  (positionOf_eq_after_iff (isValidRedisStreamCursor_render id)).mpr
    ⟨id.parse_render, id.utf8ByteSize_render_le.trans (by split_ifs <;> decide)⟩

/-- The id of a text as the gap check reads it: a text without a dash has the sequence `0`. -/
def streamId (id : String) : Option StreamId :=
  let parts := (Decimal.splitOnce '-' id.toList).getD (id.toList, ['0'])
  (Decimal.parseU64 parts.1).bind fun ms => (Decimal.parseU64 parts.2).map fun seq => ⟨ms, seq⟩

theorem streamId_eq_parse (id : String) : streamId id = StreamId.parse id := by
  have hz : Decimal.parseU64 ['0'] = some 0 := by decide
  unfold streamId StreamId.parse
  cases Decimal.splitOnce '-' id.toList with
  | none =>
    simp only [getD_none, hz, map_some]
    exact map_eq_bind.symm
  | some parts => rfl

end ConstructServer.Queue
