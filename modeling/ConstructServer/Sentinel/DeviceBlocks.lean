import ConstructServer.Library.RedisKeys
import ConstructServer.Library.Serial

/-!
# The blocks of a device

Who a device has blocked is in the database, and Redis keeps a copy for five minutes. A lookup asks
the copy first, in two commands, and fills it from the rows that it has read; a block or an unblock
changes the row and then deletes the copy. A lookup that has read the rows before a block and fills
the copy after the deletion makes the block invisible until the copy expires. If the calls of one
blocker come one after the other, and Redis answers the membership test and executes the deletion, a
block counts at once.
-/

namespace ConstructServer.Sentinel.DeviceBlocks

open Redis Calls Machine Keyspace Function

/-! ### The calls -/

structure BlockState where
  /-- In milliseconds. -/
  now : Nat
  rows : String → Finset String
  cache : Keyspace (Finset String)

def blocksKey (blocker : String) : String := "sentinel:blocks:" ++ blocker

def blocksCacheTtl : Nat := 300

inductive BlockStatement
  | sismember (blocker target : String)
  | existsCache (blocker : String)
  | selectBlocked (blocker : String)
  | sadd (blocker : String) (targets : Finset String)
  | expire (blocker : String)
  | del (blocker : String)
  | insertBlock (blocker blocked : String)
  | deleteBlock (blocker blocked : String)

abbrev BlockStatement.Reply : BlockStatement → Type
  | .sismember .. | .existsCache _ => Bool
  | .selectBlocked _ => Finset String
  | _ => Unit

def BlockStatement.blocker : BlockStatement → String
  | .sismember blocker _ | .existsCache blocker | .selectBlocked blocker | .sadd blocker _ | .expire blocker
  | .del blocker | .insertBlock blocker _ | .deleteBlock blocker _ => blocker

def BlockStatement.effect (q : BlockStatement) (_ : Unit) (s : BlockState) : Option (q.Reply × BlockState) :=
  match q with
  | .sismember blocker target => some (decide (target ∈ s.cache.smembers s.now (blocksKey blocker)), s)
  | .existsCache blocker => some ((s.cache.get s.now (blocksKey blocker)).isSome, s)
  | .selectBlocked blocker => some (s.rows blocker, s)
  | .sadd blocker targets =>
    some ((), { s with cache := s.cache.modify s.now (blocksKey blocker) ∅ (· ∪ targets) })
  | .expire blocker =>
    (s.cache.expire s.now (blocksKey blocker) blocksCacheTtl).map fun cache => ((), { s with cache })
  | .del blocker => some ((), { s with cache := s.cache.del (blocksKey blocker) })
  | .insertBlock blocker blocked =>
    some ((), { s with rows := update s.rows blocker (insert blocked (s.rows blocker)) })
  | .deleteBlock blocker blocked =>
    some ((), { s with rows := update s.rows blocker ((s.rows blocker).erase blocked) })

abbrev BlockCall (α : Type) : Type := Fallible BlockStatement BlockStatement.Reply StoreError α

def fillCache (blocker : String) (rows : Finset String) : BlockCall Unit := do
  if rows = ∅ then pure () else redis (BlockStatement.sadd blocker rows)

def loadBlocked (blocker target : String) : BlockCall Bool := do
  let rows ← database (.selectBlocked blocker)
  fillCache blocker rows
  let _ ← redis (.expire blocker)
  pure (decide (target ∈ rows))

def isBlocked (blocker target : String) : BlockCall Bool := do
  let cached ← demandOr (.sismember blocker target) false
  if cached then pure true
  else do
    let cacheExists ← redis (.existsCache blocker)
    if cacheExists then pure false else loadBlocked blocker target

def invalidateBlockCache (blocker : String) : BlockCall Unit := demandOr (BlockStatement.del blocker) ()

def blockDevice (blocker blocked : String) : BlockCall Unit := do
  let _ ← database (.insertBlock blocker blocked)
  invalidateBlockCache blocker

def unblockDevice (blocker blocked : String) : BlockCall Unit := do
  let _ ← database (.deleteBlock blocker blocked)
  invalidateBlockCache blocker

inductive BlockOp
  | isBlocked (blocker target : String)
  | blockDevice (blocker blocked : String)
  | unblockDevice (blocker blocked : String)

def BlockOp.blocker : BlockOp → String
  | .isBlocked blocker _ | .blockDevice blocker _ | .unblockDevice blocker _ => blocker

def BlockOp.body : BlockOp → BlockCall (Option Bool)
  | .isBlocked blocker target => do
    let answer ← DeviceBlocks.isBlocked blocker target
    pure (some answer)
  | .blockDevice blocker blocked => do
    DeviceBlocks.blockDevice blocker blocked
    pure none
  | .unblockDevice blocker blocked => do
    DeviceBlocks.unblockDevice blocker blocked
    pure none

/-! ### Calls side by side -/

/-- What is known of one pair from the calls that have returned. -/
structure BlockLog where
  /-- The last block or unblock has returned Ok, and none to the contrary has begun since. -/
  settled : Option Bool
  asked : List (Nat × Option Bool)
  /-- A lookup has answered otherwise. -/
  wrong : Bool

def BlockLog.empty : BlockLog := ⟨none, [], false⟩

def BlockLog.unsettle (v : Bool) (g : BlockLog) : BlockLog :=
  { g with settled := g.settled.filter (· = v), asked := g.asked.map fun p => (p.1, p.2.filter (· = v)) }

section

variable (B T : String)

def noteBlocks (n : Nat) (q : BlockStatement) (_ : Option q.Reply) (_ : BlockState) (g : BlockLog) :
    BlockLog :=
  match q with
  | .sismember blocker target =>
    if blocker = B ∧ target = T then { g with asked := (n, g.settled) :: g.asked } else g
  | .insertBlock blocker blocked => if blocker = B ∧ blocked = T then g.unsettle true else g
  | .deleteBlock blocker blocked => if blocker = B ∧ blocked = T then g.unsettle false else g
  | _ => g

def noteBlocksEnd (n : Nat) (c : BlockOp) (r : Except StoreError (Option Bool)) (w : BlockState × BlockLog) :
    BlockState × BlockLog :=
  match c, r with
  | .isBlocked blocker target, r =>
    if blocker = B ∧ target = T then
      (w.1, { w.2 with
        asked := w.2.asked.filter (·.1 ≠ n)
        wrong := w.2.wrong || decide (∃ p ∈ w.2.asked, p.1 = n ∧ ∃ v ∈ p.2, r = .ok (some !v)) })
    else w
  | .blockDevice blocker blocked, .ok _ =>
    if blocker = B ∧ blocked = T then (w.1, { w.2 with settled := some true }) else w
  | .unblockDevice blocker blocked, .ok _ =>
    if blocker = B ∧ blocked = T then (w.1, { w.2 with settled := some false }) else w
  | _, .error _ => w

def blockExec : Nat → (q : BlockStatement) → Input Unit → BlockState × BlockLog →
    Option (Option q.Reply × (BlockState × BlockLog)) :=
  noted (fallible BlockStatement.effect) (noteBlocks B T)

abbrev BlockPool : Type :=
  Pool BlockStatement (fun q => Option q.Reply) (Except StoreError (Option Bool)) BlockOp (BlockState × BlockLog)

abbrev BlockAction : Type := Action (Input Unit) BlockOp Nat

def BlockState.tick (ms : Nat) (s : BlockState) : BlockState := { s with now := s.now + ms }

def blockStep (pool : BlockPool) (a : BlockAction) : Option BlockPool :=
  pool.step (blockExec B T) (fun op _ => op.body.run) (noteBlocksEnd B T) (beside BlockState.tick) a

/-- What happens to the other blockers. -/
structure BlockEnv (w w' : BlockState × BlockLog) : Prop where
  now : w.1.now ≤ w'.1.now
  rows : w'.1.rows B = w.1.rows B
  cache : w'.1.cache (blocksKey B) = w.1.cache (blocksKey B)
  log : w'.2 = w.2

/-- The calls on the blocker come one after the other, and the membership test is answered and the
deletion of the copy executed. -/
def oneByOne : Serial BlockStatement (Input Unit) (BlockState × BlockLog) BlockOp :=
  .ofKey BlockOp.blocker B (BlockEnv B) (fun w => w.2.wrong = false)
    (fun q input _ => match q with
      | .sismember .. => input.outcome = .ok
      | .del _ => input.outcome ≠ .failed
      | _ => True)
    (fun _ => ⟨le_rfl, rfl, rfl, rfl⟩) fun h h' =>
      ⟨h.now.trans h'.now, h'.rows.trans h.rows, h'.cache.trans h.cache, h'.log.trans h.log⟩

/-- The row and the copy are as the calls that have returned say. -/
structure Settled (w : BlockState × BlockLog) : Prop where
  row : ∀ v ∈ w.2.settled, (T ∈ w.1.rows B ↔ v = true)
  copy : ∀ v ∈ w.2.settled, ∀ set, w.1.cache.get w.1.now (blocksKey B) = some set → (T ∈ set ↔ v = true)

structure Rest (w : BlockState × BlockLog) : Prop where
  settled : Settled B T w
  asked : w.2.asked = []

end

/-! ### The other blockers -/

section

variable {B T blocker : String} {n : Nat} {q : BlockStatement} {w w' : BlockState × BlockLog}

theorem blocksKey_ne (h : blocker ≠ B) : blocksKey B ≠ blocksKey blocker :=
  fun heq => h ((String.append_right_inj _).mp heq).symm

theorem unchanged_of_effect {s s' : BlockState} {x : q.Reply} (hq : q.blocker ≠ B)
    (h : q.effect () s = some (x, s')) :
    s'.now = s.now ∧ s'.rows B = s.rows B ∧ s'.cache (blocksKey B) = s.cache (blocksKey B) := by
  cases q with
  | sismember _ _ | existsCache _ | selectBlocked _ =>
    cases h
    exact ⟨rfl, rfl, rfl⟩
  | sadd blocker targets =>
    cases h
    have hk : blocksKey B ≠ blocksKey blocker := blocksKey_ne hq
    exact ⟨rfl, rfl, Function.update_of_ne hk _ _⟩
  | expire blocker =>
    have hk : blocksKey B ≠ blocksKey blocker := blocksKey_ne hq
    simp only [BlockStatement.effect, Option.map_eq_some_iff] at h
    obtain ⟨cache, hca, heq⟩ := h
    cases heq
    exact ⟨rfl, rfl, expire_apply_of_ne hca hk⟩
  | del blocker =>
    cases h
    have hk : blocksKey B ≠ blocksKey blocker := blocksKey_ne hq
    exact ⟨rfl, rfl, del_apply_of_ne hk⟩
  | insertBlock blocker blocked | deleteBlock blocker blocked =>
    cases h
    exact ⟨rfl, Function.update_of_ne (Ne.symm hq) _ _, rfl⟩

theorem note_other {s : BlockState} {g : BlockLog} {r : Option q.Reply} (hq : q.blocker ≠ B) :
    noteBlocks B T n q r s g = g := by
  cases q with
  | sismember blocker target | insertBlock blocker target | deleteBlock blocker target =>
    exact if_neg fun h => hq h.1
  | _ => rfl

theorem env_of_exec {input : Input Unit} {r : Option q.Reply} (hq : q.blocker ≠ B)
    (h : blockExec B T n q input w = some (r, w')) : BlockEnv B w w' := by
  obtain ⟨he, hl⟩ := noted_eq_some h
  rw [note_other hq] at hl
  rcases failed_or_effect he with ⟨hs, -⟩ | ⟨x, he, -⟩
  · exact ⟨hs ▸ le_rfl, hs ▸ rfl, hs ▸ rfl, hl⟩
  · obtain ⟨hn, hr, hca⟩ := unchanged_of_effect hq he
    exact ⟨hn.ge, hr, hca, hl⟩

theorem asks_body (c : BlockOp) : c.body.run.Asks fun q => q.blocker = c.blocker := by
  cases c with
  | isBlocked blocker target =>
    refine asks_then (asks_then (asks_demandOr rfl) fun cached => ?_) fun _ => trivial
    cases cached with
    | true => trivial
    | false =>
      refine asks_next rfl fun cacheExists => ?_
      cases cacheExists with
      | true => trivial
      | false =>
        refine asks_next rfl fun rows => asks_then ?_ fun _ =>
          asks_next rfl fun _ => trivial
        unfold fillCache
        split
        · trivial
        · exact asks_demand rfl
  | blockDevice blocker blocked | unblockDevice blocker blocked =>
    exact asks_then (asks_next rfl fun _ => asks_demandOr rfl) fun _ => trivial

end

/-! ### The calls on the blocker -/

section

variable {B T t : String} {n : Nat} {c : BlockOp} {w w' : BlockState × BlockLog}

theorem Settled.stable (h : Settled B T w) (he : BlockEnv B w w') : Settled B T w' := by
  refine ⟨fun v hv => ?_, fun v hv set hset => ?_⟩
  · rw [he.rows]
    exact h.row v (he.log ▸ hv)
  · have hg := get_mono he.now hset
    rw [get_congr he.cache] at hg
    exact h.copy v (he.log ▸ hv) set hg

theorem Rest.stable (h : Rest B T w) (he : BlockEnv B w w') : Rest B T w' :=
  ⟨h.settled.stable he, he.log ▸ h.asked⟩

/-- A lookup is under way. -/
structure Reading (B T t : String) (n : Nat) (w : BlockState × BlockLog) : Prop where
  settled : Settled B T w
  asked : w.2.asked = if t = T then [(n, w.2.settled)] else []

theorem Reading.stable (h : Reading B T t n w) (he : BlockEnv B w w') : Reading B T t n w' :=
  ⟨h.settled.stable he, he.log ▸ h.asked⟩

def Lacks (B t : String) (w : BlockState × BlockLog) : Prop :=
  ∀ set, w.1.cache.get w.1.now (blocksKey B) = some set → t ∉ set

def Uncached (B : String) (w : BlockState × BlockLog) : Prop :=
  w.1.cache.get w.1.now (blocksKey B) = none

theorem Lacks.stable (h : Lacks B t w) (he : BlockEnv B w w') : Lacks B t w' := by
  intro set hset
  have hg := get_mono he.now hset
  rw [get_congr he.cache] at hg
  exact h set hg

theorem Uncached.stable (h : Uncached B w) (he : BlockEnv B w w') : Uncached B w' := by
  unfold Uncached
  refine Option.eq_none_iff_forall_ne_some.mpr fun set hset => ?_
  have hg := get_mono he.now hset
  rw [get_congr he.cache, h] at hg
  cases hg

def Says (T t : String) (answer : Bool) (w : BlockState × BlockLog) : Prop :=
  t = T → ∀ v ∈ w.2.settled, answer = v

variable {post : Except StoreError Bool → BlockState × BlockLog → Prop}

/-- The call keeps to its turn on the blocker. -/
abbrev TakesTurn {α : Type} (B T : String) := (oneByOne B).discipline.Safe (α := α) (blockExec B T)

theorem safe_fillCache {rows : Finset String} (hc : c.blocker = B)
    (hw : Reading B T t n w ∧ Uncached B w ∧ w.1.rows B = rows) : TakesTurn B T n c (fillCache B rows).run
      (endsIn (Reading B T t n) fun _ w => Reading B T t n w ∧ w.1.rows B = rows) w := by
  unfold fillCache
  split
  · exact ⟨hw.1, hw.2.2⟩
  · refine Serial.safe_demand hc (fun w => Reading B T t n w ∧ Uncached B w ∧ w.1.rows B = rows)
      (fun h he => ⟨h.1.stable he, h.2.1.stable he, he.rows.trans h.2.2⟩) hw ?_
    intro input w r w' hal hw _ hexe
    obtain ⟨hef, hl⟩ := noted_eq_some hexe
    have hl : w'.2 = w.2 := hl
    refine ⟨(congrArg BlockLog.wrong hl).trans hal, ?_⟩
    -- Whether or not it has been filled, what the copy says of the target is what the row says.
    have hw' : Reading B T t n w' ∧ w'.1.rows B = rows := by
      obtain ⟨s', g'⟩ := w'
      cases hl
      rcases failed_or_effect hef with ⟨hs, -⟩ | ⟨x, hef, -⟩
      · cases hs
        exact ⟨hw.1, hw.2.2⟩
      · cases hef
        refine ⟨⟨⟨hw.1.settled.row, fun v hv set hset => ?_⟩, hw.1.asked⟩, hw.2.2⟩
        rw [get_modify_self, hw.2.1, Option.getD_none, Finset.empty_union] at hset
        cases hset
        rw [← hw.2.2]
        exact hw.1.settled.row v hv
    cases r with
    | none => exact hw'.1
    | some _ => exact hw'

theorem safe_expire {rows : Finset String} (hc : c.blocker = B)
    (hw : Reading B T t n w ∧ w.1.rows B = rows) :
    TakesTurn B T n c (redis (.expire B)).run
      (endsIn (Reading B T t n) fun _ w => Reading B T t n w ∧ w.1.rows B = rows) w := by
  refine Serial.safe_demand hc (fun w => Reading B T t n w ∧ w.1.rows B = rows)
    (fun h hen => ⟨h.1.stable hen, hen.rows.trans h.2⟩) hw ?_
  intro input w r w' hal hw _ hexe
  obtain ⟨he, hl⟩ := noted_eq_some hexe
  have hl : w'.2 = w.2 := hl
  refine ⟨(congrArg BlockLog.wrong hl).trans hal, ?_⟩
  have hw' : Reading B T t n w' ∧ w'.1.rows B = rows := by
    obtain ⟨s', g'⟩ := w'
    cases hl
    rcases failed_or_effect he with ⟨hs, -⟩ | ⟨x, he, -⟩
    · cases hs
      exact hw
    · simp only [BlockStatement.effect, Option.map_eq_some_iff] at he
      obtain ⟨cache, hca, heq⟩ := he
      cases heq
      refine ⟨⟨⟨hw.1.settled.row, fun v hv set hset => ?_⟩, hw.1.asked⟩, hw.2⟩
      rw [get_expire_self hca (by decide)] at hset
      exact hw.1.settled.copy v hv set hset
  cases r with
  | none => exact hw'.1
  | some _ => exact hw'

variable {q : BlockStatement}

theorem safe_read {err : StoreError} (K : BlockState × BlockLog → Prop)
    {mid : q.Reply → BlockState × BlockLog → Prop} (hc : c.blocker = B)
    (hst : ∀ {w w'}, K w → BlockEnv B w w' → K w') (hw : K w)
    (hno : ∀ {r s g}, noteBlocks B T n q r s g = g) (hK : ∀ {w}, K w → Reading B T t n w)
    (h : ∀ {s s' x g}, K (s, g) → q.effect () s = some (x, s') → s' = s ∧ mid x (s, g)) :
    TakesTurn B T n c (demand q err).run (endsIn (Reading B T t n) mid) w := by
  refine Serial.safe_demand hc K hst hw ?_
  intro input w r w' hal hw _ hexe
  obtain ⟨he, hl⟩ := noted_eq_some hexe
  rw [hno] at hl
  obtain ⟨s', g'⟩ := w'
  cases hl
  refine ⟨hal, ?_⟩
  cases r with
  | none =>
    rcases failed_or_effect he with ⟨hs, -⟩ | ⟨x, he, -⟩
    · cases hs
      exact hK hw
    · obtain ⟨hs, -⟩ := h hw he
      cases hs
      exact hK hw
  | some x =>
    obtain ⟨hs, hmi⟩ := h hw (effect_of_reply he)
    cases hs
    exact hmi

theorem safe_loadBlocked (hc : c.blocker = B) (hw : Reading B T t n w ∧ Uncached B w) :
    TakesTurn B T n c (loadBlocked B t).run
      (endsIn (Reading B T t n) fun answer w => Reading B T t n w ∧ Says T t answer w) w := by
  refine safe_then (fun rows w => Reading B T t n w ∧ Uncached B w ∧ w.1.rows B = rows) ?_ fun rows w hw => ?_
  · refine safe_read (fun w => Reading B T t n w ∧ Uncached B w) hc
      (fun h he => ⟨h.1.stable he, h.2.stable he⟩) hw rfl (fun h => h.1) ?_
    intro s s' x g hw hef
    cases hef
    exact ⟨rfl, hw.1, hw.2, rfl⟩
  refine safe_then _ (safe_fillCache hc hw) fun _ w hw => safe_then _ (safe_expire hc hw) fun _ w hw => ?_
  refine ⟨hw.1, fun ht v hv => ?_⟩
  subst ht
  have hr := hw.1.settled.row v hv
  rw [hw.2] at hr
  exact Bool.eq_iff_iff.mpr (decide_eq_true_iff.trans hr)

theorem safe_isBlocked (hc : c.blocker = B) (hw : Rest B T w) : TakesTurn B T n c (isBlocked B t).run
      (endsIn (Reading B T t n) fun answer w => Reading B T t n w ∧ Says T t answer w) w := by
  refine safe_then (fun cached w => Reading B T t n w ∧ (cached = true → Says T t true w) ∧
    (cached = false → Lacks B t w)) ?_ fun cached w hw => ?_
  · refine Serial.safe_demandOr hc (Rest B T) Rest.stable hw ?_
    intro input w r w' hal hw hca hexe
    obtain ⟨he, hl⟩ := noted_eq_some hexe
    obtain ⟨x, rfl, hs⟩ := reply_of_ok (hca hc) he
    have ha : w'.2 = { w.2 with asked := if t = T then [(n, w.2.settled)] else [] } := by
      rw [hl]
      simp only [noteBlocks, true_and, hw.asked]
      split
      · rfl
      · rw [← hw.asked]
    obtain ⟨s', g'⟩ := w'
    cases ha
    cases hs
    refine ⟨hal, ⟨⟨hw.settled.row, hw.settled.copy⟩, rfl⟩, fun hx ht v hv => ?_, fun hx set hset hm => ?_⟩
    · subst ht
      have hm := of_decide_eq_true hx
      unfold Keyspace.smembers at hm
      cases hset : w.1.cache.get w.1.now (blocksKey B) with
      | none =>
        rw [hset] at hm
        cases hm
      | some set =>
        rw [hset] at hm
        exact ((hw.settled.copy v hv set hset).mp hm).symm
    · have hm' := of_decide_eq_false hx
      unfold Keyspace.smembers at hm'
      rw [hset] at hm'
      exact hm' hm
  cases cached with
  | true => exact ⟨hw.1, hw.2.1 rfl⟩
  | false =>
    have hw : Reading B T t n w ∧ Lacks B t w := ⟨hw.1, hw.2.2 rfl⟩
    refine safe_then (fun cacheExists w => Reading B T t n w ∧ (cacheExists = true → Says T t false w) ∧
      (cacheExists = false → Uncached B w)) ?_ fun cacheExists w hw => ?_
    · refine safe_read (fun w => Reading B T t n w ∧ Lacks B t w) hc
        (fun h hen => ⟨h.1.stable hen, h.2.stable hen⟩) hw rfl (fun h => h.1) ?_
      intro s s' x g hw he
      cases he
      refine ⟨rfl, hw.1, fun hx ht v hv => ?_, fun hx => Option.isNone_iff_eq_none.mp (by simpa using hx)⟩
      subst ht
      obtain ⟨set, hset⟩ := Option.isSome_iff_exists.mp hx
      exact (Bool.eq_false_iff.mpr fun htr =>
        hw.2 set hset ((hw.1.settled.copy v hv set hset).mpr htr)).symm
    cases cacheExists with
    | true => exact ⟨hw.1, hw.2.1 rfl⟩
    | false => exact safe_loadBlocked hc ⟨hw.1, hw.2.2 rfl⟩

variable {v : Bool}

theorem Rest.row_changes (hw : Rest B T w) (hn : w'.1.now = w.1.now)
    (hca : w'.1.cache = w.1.cache) (hl : w'.2 = if t = T then w.2.unsettle v else w.2)
    (hr : w'.1.rows B = w.1.rows B ∨
      (t ∈ w'.1.rows B ↔ v = true) ∧ ∀ x, x ≠ t → (x ∈ w'.1.rows B ↔ x ∈ w.1.rows B)) : Rest B T w' := by
  by_cases ht : t = T
  · rw [if_pos ht] at hl
    subst ht
    have hse : ∀ u ∈ w'.2.settled, u ∈ w.2.settled ∧ u = v := by
      intro u hu
      rw [hl] at hu
      obtain ⟨hu, huv⟩ := Option.filter_eq_some_iff.mp hu
      exact ⟨hu, of_decide_eq_true huv⟩
    refine ⟨⟨fun u hu => ?_, fun u hu set hset => ?_⟩, ?_⟩
    · obtain ⟨hu, rfl⟩ := hse u hu
      rcases hr with hr | ⟨hro, -⟩
      · rw [hr]
        exact hw.settled.row u hu
      · exact hro
    · rw [hn, hca] at hset
      exact hw.settled.copy u (hse u hu).1 set hset
    · rw [hl]
      show w.2.asked.map _ = []
      rw [hw.asked]
      rfl
  · rw [if_neg ht] at hl
    refine ⟨⟨fun u hu => ?_, fun u hu set hset => ?_⟩, hl ▸ hw.asked⟩
    · have hs : T ∈ w'.1.rows B ↔ T ∈ w.1.rows B := by
        rcases hr with hr | ⟨-, hot⟩
        · rw [hr]
        · exact hot T (Ne.symm ht)
      exact hs.trans (hw.settled.row u (hl ▸ hu))
    · rw [hn, hca] at hset
      exact hw.settled.copy u (hl ▸ hu) set hset

/-- What a block or an unblock leaves behind. -/
structure Changed (B T t : String) (v : Bool) (w : BlockState × BlockLog) : Prop where
  rest : Rest B T w
  row : t ∈ w.1.rows B ↔ v = true

theorem Changed.stable (h : Changed B T t v w) (he : BlockEnv B w w') : Changed B T t v w' :=
  ⟨h.rest.stable he, he.rows ▸ h.row⟩

theorem safe_row (hc : c.blocker = B)
    (hq : q = .insertBlock B t ∧ v = true ∨ q = .deleteBlock B t ∧ v = false) (hw : Rest B T w) :
    TakesTurn B T n c (database q).run (endsIn (Rest B T) fun _ => Changed B T t v) w := by
  refine Serial.safe_demand hc (Rest B T) Rest.stable hw ?_
  intro input w r w' hal hw _ he
  obtain ⟨hef, hl⟩ := noted_eq_some he
  have hu : w'.2 = if t = T then w.2.unsettle v else w.2 := by
    rw [hl]
    rcases hq with ⟨rfl, rfl⟩ | ⟨rfl, rfl⟩ <;> simp only [noteBlocks, true_and]
  have hwr : w'.2.wrong = false := by
    rw [hu]
    split <;> exact hal
  refine ⟨hwr, ?_⟩
  rcases failed_or_effect hef with ⟨hs, rfl⟩ | ⟨x, hch, -⟩
  · exact hw.row_changes (congrArg BlockState.now hs) (congrArg BlockState.cache hs) hu
      (.inl (congrFun (congrArg BlockState.rows hs) B))
  · -- The row is as the call wants it.
    have hr : w'.1.now = w.1.now ∧ w'.1.cache = w.1.cache ∧ (t ∈ w'.1.rows B ↔ v = true) ∧
        ∀ x, x ≠ t → (x ∈ w'.1.rows B ↔ x ∈ w.1.rows B) := by
      rcases hq with ⟨rfl, rfl⟩ | ⟨rfl, rfl⟩
      · have hs : _ = w'.1 := congrArg Prod.snd (Option.some.inj hch)
        rw [← hs]
        refine ⟨rfl, rfl, ?_, fun y hy => ?_⟩
        · simp [Function.update_self]
        · simp [Function.update_self, hy]
      · have hs : _ = w'.1 := congrArg Prod.snd (Option.some.inj hch)
        rw [← hs]
        refine ⟨rfl, rfl, ?_, fun y hy => ?_⟩
        · simp [Function.update_self]
        · simp [Function.update_self, hy]
    obtain ⟨hn, hca, hr, hot⟩ := hr
    have hre := hw.row_changes hn hca hu (.inr ⟨hr, hot⟩)
    cases r with
    | none => exact hre
    | some _ => exact ⟨hre, hr⟩

theorem safe_invalidate (hc : c.blocker = B) (hw : Changed B T t v w) :
    TakesTurn B T n c (invalidateBlockCache B).run
      (endsIn (Rest B T) fun _ w => Changed B T t v w ∧ Uncached B w) w := by
  refine Serial.safe_demandOr hc (Changed B T t v) Changed.stable hw ?_
  intro input w r w' hal hw hca he
  obtain ⟨hef, hl⟩ := noted_eq_some he
  have hs := eq_of_fallible (hca hc) hef rfl
  obtain ⟨s', g'⟩ := w'
  cases hl
  cases hs
  have hu : Uncached B ({ w.1 with cache := w.1.cache.del (blocksKey B) }, w.2) :=
    get_del_self
  refine ⟨hal, ⟨⟨⟨hw.rest.settled.row, fun u _ set hset => ?_⟩, hw.rest.asked⟩, hw.row⟩, hu⟩
  cases hu.symm.trans hset

theorem safe_change (hc : c.blocker = B)
    (hq : q = .insertBlock B t ∧ v = true ∨ q = .deleteBlock B t ∧ v = false) (hw : Rest B T w) :
    TakesTurn B T n c (do
      let _ ← database q
      invalidateBlockCache B : BlockCall Unit).run
      (endsIn (Rest B T) fun _ w => Changed B T t v w ∧ Uncached B w) w :=
  safe_then _ (safe_row hc hq hw) fun _ _ hw => safe_invalidate hc hw

end

/-! ### Every run -/

section

variable {B T t : String} {n : Nat} {c : BlockOp} {w w' : BlockState × BlockLog}

variable {r : Except StoreError (Option Bool)}

theorem post_isBlocked (hw : Reading B T t n w) (hr : ∀ answer, r = .ok (some answer) → Says T t answer w) :
    (oneByOne B).Post (Rest B T) (noteBlocksEnd B T) n (.isBlocked B t) r w := by
  intro hal
  by_cases ht : t = T
  · have hen : noteBlocksEnd B T n (.isBlocked B t) r w = (w.1, { w.2 with
        asked := w.2.asked.filter (·.1 ≠ n)
        wrong := w.2.wrong || decide (∃ p ∈ w.2.asked, p.1 = n ∧ ∃ v ∈ p.2, r = .ok (some !v)) }) :=
      if_pos ⟨rfl, ht⟩
    have ha := hw.asked
    rw [if_pos ht] at ha
    have hri : ¬ ∃ p ∈ w.2.asked, p.1 = n ∧ ∃ v ∈ p.2, r = .ok (some !v) := by
      rintro ⟨p, hp, -, v, hv, han⟩
      rw [ha, List.mem_singleton] at hp
      subst hp
      exact Bool.not_ne_self v (hr _ han ht v hv)
    rw [hen]
    refine ⟨?_, fun _ => ⟨⟨hw.settled.row, hw.settled.copy⟩, ?_⟩, fun hc => absurd rfl hc⟩
    · show (w.2.wrong || decide _) = false
      rw [hal, decide_eq_false hri]
      rfl
    · show w.2.asked.filter (·.1 ≠ n) = []
      rw [ha]
      simp
  · have hen : noteBlocksEnd B T n (.isBlocked B t) r w = w := if_neg fun h => ht h.2
    have ha := hw.asked
    rw [if_neg ht] at ha
    rw [hen]
    exact ⟨hal, fun _ => ⟨hw.settled, ha⟩, fun hc => absurd rfl hc⟩

theorem post_change {v : Bool} (hc : c.blocker = B)
    (hen : noteBlocksEnd B T n c r w = match r with
      | .ok _ => if B = B ∧ t = T then (w.1, { w.2 with settled := some v }) else w
      | .error _ => w)
    (hr : Rest B T w) (hok : ∀ x, r = .ok x → (t ∈ w.1.rows B ↔ v = true) ∧ Uncached B w) :
    (oneByOne B).Post (Rest B T) (noteBlocksEnd B T) n c r w := by
  intro hal
  rw [hen]
  cases r with
  | error e => exact ⟨hal, fun _ => hr, fun hne => absurd hc hne⟩
  | ok x =>
    obtain ⟨hro, hu⟩ := hok x rfl
    by_cases ht : t = T
    · subst ht
      show (oneByOne B).always (if B = B ∧ t = t then _ else w) ∧ _
      rw [if_pos ⟨rfl, rfl⟩]
      refine ⟨hal, fun _ => ⟨⟨?_, ?_⟩, hr.asked⟩, fun hne => absurd hc hne⟩
      · rintro _ ⟨⟩
        exact hro
      · intro u _ set hset
        cases hu.symm.trans hset
    · show (oneByOne B).always (if B = B ∧ t = T then _ else w) ∧ _
      rw [if_neg fun h => ht h.2]
      exact ⟨hal, fun _ => hr, fun hne => absurd hc hne⟩

theorem post_other (hc : c.blocker ≠ B) : (oneByOne B).Post (Rest B T) (noteBlocksEnd B T) n c r w := by
  have hen : noteBlocksEnd B T n c r w = w := by
    cases c with
    | isBlocked blocker target => exact if_neg fun h => hc h.1
    | blockDevice blocker blocked | unblockDevice blocker blocked =>
      cases r with
      | ok _ => exact if_neg fun h => hc h.1
      | error _ => rfl
  intro hal
  rw [hen]
  exact ⟨hal, fun hne => absurd hne hc, fun _ => (oneByOne B).refl w⟩

theorem safe_body (hw : c.blocker = B → Rest B T w) : TakesTurn B T n c c.body.run
      ((oneByOne B).Post (Rest B T) (noteBlocksEnd B T) n c) w := by
  by_cases hc : c.blocker = B
  · have hre := hw hc
    clear hw
    cases c with
    | isBlocked blocker t =>
      have hb : blocker = B := hc
      subst hb
      refine safe_andThen.mpr ((safe_isBlocked hc hre).mono fun r w hr => ?_)
      cases r with
      | error e => exact post_isBlocked hr nofun
      | ok answer => exact post_isBlocked hr.1 fun _ heq => by cases heq; exact hr.2
    | blockDevice blocker t =>
      have hb : blocker = B := hc
      subst hb
      refine safe_andThen.mpr ((safe_change hc (.inl ⟨rfl, rfl⟩) hre).mono fun r w hr => ?_)
      cases r with
      | error e => exact post_change (t := t) (v := true) rfl rfl hr nofun
      | ok _ => exact post_change rfl rfl hr.1.rest fun _ _ => ⟨hr.1.row, hr.2⟩
    | unblockDevice blocker t =>
      have hb : blocker = B := hc
      subst hb
      refine safe_andThen.mpr ((safe_change hc (.inr ⟨rfl, rfl⟩) hre).mono fun r w hr => ?_)
      cases r with
      | error e => exact post_change (t := t) (v := false) rfl rfl hr nofun
      | ok _ => exact post_change rfl rfl hr.1.rest fun _ _ => ⟨hr.1.row, hr.2⟩
  · refine Serial.safe_other (fun hq hal hexe => ?_) (asks_body c) fun r w => post_other hc
    have he := env_of_exec (fun heq => hc (hq.symm.trans heq)) hexe
    exact ⟨(congrArg BlockLog.wrong he.log).trans hal, he⟩

/-- In every run in which the calls on the blocker come one after the other, its membership tests
are answered and its copy is deleted when it has to be: every answer of a lookup of the pair is what
the last block or unblock that had returned Ok before it began has set, unless one to the contrary
has begun since. -/
theorem blocks_count_at_once {s : BlockState} {as : List BlockAction} {pool : BlockPool}
    (hcareful : Along (blockStep B T) (oneByOne B).discipline.Careful (.init (s, .empty)) as)
    (hrun : run (blockStep B T) (.init (s, .empty)) as = some pool) : pool.store.2.wrong = false := by
  have hrest : Rest B T (s, .empty) := ⟨⟨nofun, nofun⟩, rfl⟩
  have htick : ∀ ms w, (oneByOne B).always w → (oneByOne B).always (beside BlockState.tick ms w) ∧
      (oneByOne B).env w (beside BlockState.tick ms w) :=
    fun ms w halways => ⟨halways, Nat.le_add_right _ _, rfl, rfl, rfl⟩
  have hwatched : (oneByOne B).watched (.isBlocked B T) := rfl
  have hright : (oneByOne B).always (s, .empty) := rfl
  exact (Serial.run_between hwatched Rest.stable (fun n c w _ _ hw => safe_body hw) htick hright hrest
    hcareful hrun).1

end

/-! ### A lookup that overlaps with a block -/

section

attribute [reducible] oneByOne

instance decidableBlockCare (B : String) (c : BlockOp) (q : BlockStatement) (input : Input Unit)
    (w : BlockState × BlockLog) : Decidable ((oneByOne B).discipline.care c q input w) := by
  cases q <;> infer_instance

def malloryBlocked : BlockState := ⟨0, update (fun _ => ∅) "alice" {"mallory"}, .empty⟩

/-- A lookup fills the copy, and a block deletes it: a lookup finds the block. -/
theorem blocks_count_at_once_demo : ∃ pool : BlockPool,
    run (blockStep "alice" "trent") (.init (malloryBlocked, .empty))
      (.start (.isBlocked "alice" "trent") :: proceeds () 0 5 ++ .start (.blockDevice "alice" "trent") :: proceeds () 0 2 ++
        .start (.isBlocked "alice" "trent") :: proceeds () 0 5) = some pool ∧
      pool.running.length = 0 ∧ pool.store.2.settled = some true ∧ pool.store.2.wrong = false :=
  reaches_with₂ (by decide +kernel) fun _ hrun _ _ => blocks_count_at_once (by decide +kernel) hrun

/-- A lookup reads the rows, a block is written and returns, and the lookup fills the copy with what
it has read: the next lookup says that Trent is not blocked. -/
theorem slow_lookup_hides_a_block : ∃ pool : BlockPool,
    run (blockStep "alice" "trent") (.init (malloryBlocked, .empty))
      (.start (.isBlocked "alice" "mallory") :: proceeds () 0 3 ++ .start (.blockDevice "alice" "trent") :: proceeds () 1 2 ++
        proceeds () 0 2 ++ .start (.isBlocked "alice" "trent") :: proceeds () 0 2) = some pool ∧
      pool.running.length = 0 ∧ "trent" ∈ pool.store.1.rows "alice" ∧ pool.store.2.settled = some true ∧
      pool.store.2.wrong = true :=
  reaches _ _ _ _ (by decide +kernel)

end

end ConstructServer.Sentinel.DeviceBlocks
