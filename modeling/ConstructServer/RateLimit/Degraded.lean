import Mathlib.Order.Interval.Finset.Nat
import ConstructServer.Library.Machine
import ConstructServer.Library.Table
import ConstructServer.Queue.Envelope

/-!
# Counting without Redis

While Redis is away a process counts events itself: one entry for each hashed key, with the start of
the window it belongs to. The windows are aligned to multiples of their length. A table at its cap
first drops the entries of the key's shard that are not in the window of the charge.
-/

namespace ConstructServer.RateLimit

open Queue Machine List

def maxTrackedKeys : Nat := 50000

def shards : UInt64 := 16

structure Entry where
  windowStart : Int
  count : Nat

/-- The entries of all shards, by hashed key; the shard of a key is its hash modulo their number. -/
structure DegradedLimiter where
  entries : Table UInt64 Entry
  tracked : Nat

structure DegradedOutcome where
  allowed : Bool
  tracked : Bool

/-- FNV-1a. -/
def fxhash (s : String) : UInt64 :=
  (utf8 s).foldl (fun h b => (h ^^^ b.toUInt64) * 0x0100000001b3) 0xcbf29ce484222325

def windowLength (windowSecs : Int) : Int := max windowSecs 1

def windowStartOf (windowSecs now : Int) : Int := now - now % windowLength windowSecs

namespace DegradedLimiter

variable (s : DegradedLimiter)

def purgeStale (shard : UInt64) (windowStart : Int) : DegradedLimiter :=
  let kept := s.entries.filter fun k e => k % shards ≠ shard || e.windowStart = windowStart
  ⟨kept, s.tracked - (s.entries.rows.length - kept.rows.length)⟩

def setEntry (hash : UInt64) (e : Entry) : DegradedLimiter :=
  { s with entries := s.entries.modify fun k r => if k = hash then e else r }

def track (hash : UInt64) (windowStart : Int) : DegradedLimiter × DegradedOutcome :=
  let s := if maxTrackedKeys ≤ s.tracked then s.purgeStale (hash % shards) windowStart else s
  if maxTrackedKeys ≤ s.tracked then (s, ⟨true, false⟩)
  else (⟨s.entries.insertNew hash ⟨windowStart, 1⟩, s.tracked + 1⟩, ⟨true, true⟩)

def charge (key : String) (limit : Int32) (windowSecs now : Int) : DegradedLimiter × DegradedOutcome :=
  if limit.toInt ≤ 0 then (s, ⟨false, true⟩)
  else
    let windowStart := windowStartOf windowSecs now
    let hash := fxhash key
    match s.entries.get? hash with
    | some e =>
      if e.windowStart = windowStart then
        let count := min (e.count + 1) (2 ^ 32 - 1)
        (s.setEntry hash ⟨windowStart, count⟩, ⟨count ≤ limit.toInt, true⟩)
      else (s.setEntry hash ⟨windowStart, 1⟩, ⟨true, true⟩)
    | none => s.track hash windowStart

end DegradedLimiter

structure Charge where
  key : String
  windowStart : Int
  count : Nat
  limit : Int

structure LimiterLog where
  now : Int
  lengths : UInt64 → Int
  allowed : List Charge
  lost : Bool

inductive LimiterCall
  | charge (key : String) (limit : Int32) (windowSecs now : Int)
  | purge (shard : UInt64) (windowSecs now : Int)
  | clear

def dropsLive (s s' : DegradedLimiter) (g : LimiterLog) (now : Int) : Bool :=
  s.entries.rows.any fun p =>
    (s'.entries.get? p.1).isNone && decide (now < p.2.windowStart + windowLength (g.lengths p.1))

def noteCharge (g : LimiterLog) (s : DegradedLimiter) (key : String) (limit : Int32) (windowSecs now : Int)
    (r : DegradedLimiter × DegradedOutcome) : LimiterLog :=
  let g := { g with now, lost := g.lost || dropsLive s r.1 g now }
  match r.1.entries.get? (fxhash key) with
  | some e =>
    if r.2.allowed ∧ r.2.tracked then
      { g with
        lengths := Function.update g.lengths (fxhash key) windowSecs
        allowed := g.allowed ++ [⟨key, e.windowStart, e.count, limit.toInt⟩] }
    else g
  | none => g

def limiterStep (w : DegradedLimiter × LimiterLog) : LimiterCall → Option (DegradedLimiter × LimiterLog)
  | .charge key limit windowSecs now =>
    if now < w.2.now then none
    else
      let r := w.1.charge key limit windowSecs now
      some (r.1, noteCharge w.2 w.1 key limit windowSecs now r)
  | .purge shard windowSecs now =>
    if now < w.2.now then none
    else
      let s := w.1.purgeStale shard (windowStartOf windowSecs now)
      some (s, { w.2 with now, lost := w.2.lost || dropsLive w.1 s w.2 now })
  | .clear => some (⟨.empty, 0⟩, w.2)

def LimiterLog.empty : LimiterLog := ⟨0, fun _ => 0, [], false⟩

def Steady (W : Int) (w : DegradedLimiter × LimiterLog) : LimiterCall → Prop
  | .charge _ _ windowSecs _ | .purge _ windowSecs _ => windowSecs = W
  | .clear => ∀ p ∈ w.1.entries.rows, p.2.windowStart + windowLength W ≤ w.2.now

section

variable {W now a : Int}

theorem windowLength_pos (W : Int) : 0 < windowLength W := by
  unfold windowLength
  omega

theorem windowStartOf_le (W now : Int) : windowStartOf W now ≤ now := by
  have h := Int.emod_nonneg now (windowLength_pos W).ne'
  unfold windowStartOf
  omega

theorem lt_windowStartOf_add (W now : Int) : now < windowStartOf W now + windowLength W := by
  have h := Int.emod_lt_of_pos now (windowLength_pos W)
  unfold windowStartOf
  omega

theorem dvd_windowStartOf (W now : Int) : windowLength W ∣ windowStartOf W now :=
  Int.dvd_self_sub_emod

theorem ended_of_ne (hd : windowLength W ∣ a) (ha : a ≤ now) (hne : a ≠ windowStartOf W now) :
    a + windowLength W ≤ now := by
  obtain ⟨q, rfl⟩ := hd
  obtain ⟨r, hr⟩ := dvd_windowStartOf W now
  have hp := windowLength_pos W
  have hlt := lt_windowStartOf_add W now
  have hle := windowStartOf_le W now
  rw [hr] at hne hlt hle
  have hqr : q < r := by
    by_contra hge
    have hq : r + 1 ≤ q := by
      have : q ≠ r := fun h => hne (h ▸ rfl)
      omega
    have := Int.mul_le_mul_of_nonneg_left hq hp.le
    rw [Int.mul_add, Int.mul_one] at this
    omega
  have := Int.mul_le_mul_of_nonneg_left (Int.add_one_le_of_lt hqr) hp.le
  rw [Int.mul_add, Int.mul_one] at this
  omega

end

/-- What steady calls keep. -/
structure Counted (W : Int) (s : DegradedLimiter) (g : LimiterLog) : Prop where
  tracked : s.tracked = s.entries.rows.length
  cap : s.tracked ≤ maxTrackedKeys
  entry : ∀ k e, s.entries.get? k = some e →
    g.lengths k = W ∧ windowLength W ∣ e.windowStart ∧ e.windowStart ≤ g.now ∧ e.count < 2 ^ 32
  logged : ∀ c ∈ g.allowed, c.windowStart + windowLength W ≤ g.now ∨
    ∃ e, s.entries.get? (fxhash c.key) = some e ∧ e.windowStart = c.windowStart ∧ c.count ≤ e.count
  distinct : g.allowed.Pairwise fun c c' =>
    fxhash c.key = fxhash c'.key → c.windowStart = c'.windowStart → c.count < c'.count
  bounded : ∀ c ∈ g.allowed, 1 ≤ c.count ∧ (c.count : Int) ≤ c.limit
  kept : g.lost = false

section

variable {W now : Int} {s s' : DegradedLimiter} {g : LimiterLog} {key : String} {limit : Int32}
  {e : Entry} {lost : Bool}

/-- What is gone from `s'` had ended. -/
def Ended (W now : Int) (s s' : DegradedLimiter) : Prop :=
  ∀ k e, s.entries.get? k = some e → s'.entries.get? k = none → e.windowStart + windowLength W ≤ now

theorem Counted.dropsLive (h : Counted W s g) (hg : Ended W now s s') : dropsLive s s' g now = false := by
  simp only [RateLimit.dropsLive, any_eq_false, Bool.and_eq_true, not_and, decide_eq_true_eq, not_lt]
  intro p hp hn
  have he := Table.get?_eq_some_iff.mpr hp
  rw [(h.entry _ _ he).1]
  exact hg _ _ he (Option.isNone_iff_eq_none.mp hn)

theorem Counted.mono (h : Counted W s g) (hn : g.now ≤ now) (ht : s'.tracked = s'.entries.rows.length)
    (hca : s'.tracked ≤ maxTrackedKeys)
    (hs : ∀ k e', s'.entries.get? k = some e' → ∃ e, s.entries.get? k = some e ∧
      e'.windowStart = e.windowStart ∧ e.count ≤ e'.count ∧ e'.count < 2 ^ 32)
    (hg : Ended W now s s') (hlo : lost = false) : Counted W s' ⟨now, g.lengths, g.allowed, lost⟩ := by
  refine ⟨ht, hca, fun k e' he' => ?_, fun c hc => ?_, h.distinct, h.bounded, hlo⟩
  · obtain ⟨e, he, hw, -, hm⟩ := hs k e' he'
    obtain ⟨hl, hd, hb, -⟩ := h.entry k e he
    exact ⟨hl, hw ▸ hd, hw ▸ hb.trans hn, hm⟩
  · obtain hen | ⟨e, he, hw, hle⟩ := h.logged c hc
    · exact .inl (hen.trans hn)
    · cases he' : s'.entries.get? (fxhash c.key) with
      | none => exact .inl (hw ▸ hg _ e he he')
      | some e' =>
        obtain ⟨e₁, he₁, hw₁, hle₁, -⟩ := hs _ e' he'
        obtain rfl := Option.some.inj (he.symm.trans he₁)
        exact .inr ⟨e', rfl, hw₁.trans hw, hle.trans hle₁⟩

theorem Counted.log {c : Charge} (h : Counted W s g) (hg : g.now = now)
    (ht : s'.tracked = s'.entries.rows.length) (hca : s'.tracked ≤ maxTrackedKeys)
    (hset : s'.entries.get? (fxhash c.key) = some ⟨c.windowStart, c.count⟩)
    (ho : ∀ k, k ≠ fxhash c.key → s'.entries.get? k = s.entries.get? k)
    (hw : c.windowStart = windowStartOf W now) (hli : (c.count : Int) ≤ c.limit) (hp : 1 ≤ c.count)
    (hm : c.count < 2 ^ 32)
    (hco : ∀ e, s.entries.get? (fxhash c.key) = some e → e.windowStart = windowStartOf W now →
      e.count < c.count) (hlo : lost = false) :
    Counted W s' ⟨now, Function.update g.lengths (fxhash c.key) W, g.allowed ++ [c], lost⟩ := by
  subst hg
  -- A charge in the window of this one has an entry, whose count is smaller.
  have hs : ∀ d ∈ g.allowed, fxhash d.key = fxhash c.key → d.windowStart = c.windowStart →
      d.count < c.count := by
    intro d hd hke hwd
    obtain hen | ⟨e, he, hwe, hle⟩ := h.logged d hd
    · have := lt_windowStartOf_add W g.now
      rw [hwd, hw] at hen
      omega
    · exact hle.trans_lt (hco e (hke ▸ he) (hwe.trans (hwd.trans hw)))
  refine ⟨ht, hca, fun k e he => ?_, fun d hd => ?_, ?_, fun d hd => ?_, hlo⟩
  · by_cases hk : k = fxhash c.key
    · subst hk
      obtain rfl := Option.some.inj (hset.symm.trans he)
      exact ⟨Function.update_self .., hw ▸ dvd_windowStartOf W g.now, hw ▸ windowStartOf_le W g.now, hm⟩
    · rw [ho k hk] at he
      obtain ⟨hl, hr⟩ := h.entry k e he
      exact ⟨(Function.update_of_ne hk ..).trans hl, hr⟩
  · rcases mem_concat hd with hd | rfl
    · obtain hen | ⟨e, he, hwe, hle⟩ := h.logged d hd
      · exact .inl hen
      by_cases hk : fxhash d.key = fxhash c.key
      · by_cases hwd : d.windowStart = c.windowStart
        · exact .inr ⟨_, hk ▸ hset, hwd.symm, (hs d hd hk hwd).le⟩
        · obtain ⟨-, hdv, hb, -⟩ := h.entry _ _ he
          exact .inl (hwe ▸ ended_of_ne hdv hb fun heq => hwd (hwe ▸ heq.trans hw.symm))
      · exact .inr ⟨e, (ho _ hk).trans he, hwe, hle⟩
    · exact .inr ⟨_, hset, rfl, le_rfl⟩
  · refine pairwise_append.mpr ⟨h.distinct, pairwise_singleton _ _, fun d hd d' hd' hk hwd => ?_⟩
    obtain rfl := mem_singleton.mp hd'
    exact hs d hd hk hwd
  · rcases mem_concat hd with hd | rfl
    · exact h.bounded d hd
    · exact ⟨hp, hli⟩

theorem Counted.purge (h : Counted W s g) (hn : g.now ≤ now) (shard : UInt64) :
    Ended W now s (s.purgeStale shard (windowStartOf W now)) ∧ ∀ {lost}, lost = false →
        Counted W (s.purgeStale shard (windowStartOf W now)) ⟨now, g.lengths, g.allowed, lost⟩ := by
  have hg : Ended W now s (s.purgeStale shard (windowStartOf W now)) := by
    intro k e he hno
    obtain ⟨-, hd, hle, -⟩ := h.entry k e he
    refine ended_of_ne hd (hle.trans hn) fun heq => ?_
    simp [DegradedLimiter.purgeStale, he, heq] at hno
  refine ⟨hg, fun hl => h.mono hn ?_ ((Nat.sub_le _ _).trans h.cap) (fun k e he => ?_) hg hl⟩
  · have hle := length_filter_le (fun p : UInt64 × Entry =>
      p.1 % shards ≠ shard || p.2.windowStart = windowStartOf W now) s.entries.rows
    have ht := h.tracked
    simp only [DegradedLimiter.purgeStale, Table.filter] at hle ⊢
    omega
  · simp only [DegradedLimiter.purgeStale, Table.get?_filter, Option.filter_eq_some_iff] at he
    exact ⟨e, he.1, rfl, le_rfl, (h.entry k e he.1).2.2.2⟩

theorem get?_setEntry_self (he : s.entries.get? (fxhash key) = some e) (e' : Entry) :
    (s.setEntry (fxhash key) e').entries.get? (fxhash key) = some e' := by
  simp [DegradedLimiter.setEntry, he]

theorem get?_setEntry_of_ne {k hash : UInt64} (hk : k ≠ hash) (e' : Entry) :
    (s.setEntry hash e').entries.get? k = s.entries.get? k := by
  simp [DegradedLimiter.setEntry, hk]

theorem ended_setEntry (hash : UInt64) (e' : Entry) : Ended W now s (s.setEntry hash e') := by
  intro k e he hn
  simp [DegradedLimiter.setEntry, he] at hn

theorem Counted.setEntry (h : Counted W s g) (hash : UInt64) (e' : Entry) :
    (s.setEntry hash e').tracked = (s.setEntry hash e').entries.rows.length := by
  simpa [DegradedLimiter.setEntry, Table.modify] using h.tracked

theorem Counted.refl (h : Counted W s g) (hno : g.now ≤ now) (hl : lost = false) :
    Counted W s ⟨now, g.lengths, g.allowed, lost⟩ :=
  h.mono hno h.tracked h.cap (fun k e he => ⟨e, he, rfl, le_rfl, (h.entry k e he).2.2.2⟩)
    (fun _ _ he hn => by rw [he] at hn; cases hn) hl

theorem ended_refl : Ended W now s s := fun _ _ he hn => by rw [he] at hn; cases hn

theorem Counted.track (h : Counted W s g) (hno : g.now ≤ now) (hli : 0 < limit.toInt)
    (he : s.entries.get? (fxhash key) = none) : Counted W (s.track (fxhash key) (windowStartOf W now)).1
      (noteCharge g s key limit W now (s.track (fxhash key) (windowStartOf W now))) := by
  unfold DegradedLimiter.track
  generalize hpu : (if maxTrackedKeys ≤ s.tracked then
    s.purgeStale (fxhash key % shards) (windowStartOf W now) else s) = p
  have hg : Ended W now s p := by
    rw [← hpu]
    split_ifs
    · exact (h.purge hno _).1
    · exact ended_refl
  have hp : ∀ {lost}, lost = false → Counted W p ⟨now, g.lengths, g.allowed, lost⟩ := by
    intro lost hl
    rw [← hpu]
    split_ifs
    · exact (h.purge hno _).2 hl
    · exact h.refl hno hl
  have hn : p.entries.get? (fxhash key) = none := by
    rw [← hpu]
    split_ifs
    · simp [DegradedLimiter.purgeStale, he]
    · exact he
  dsimp only
  split_ifs with hf
  · simp only [noteCharge, hn]
    exact hp (by simp [h.kept, h.dropsLive hg])
  · have hs : (p.entries.insertNew (fxhash key) ⟨windowStartOf W now, 1⟩).get? (fxhash key) =
        some ⟨windowStartOf W now, 1⟩ := by simp [Table.get?_insertNew_self, hn]
    have hle : (p.entries.insertNew (fxhash key) ⟨windowStartOf W now, 1⟩).rows.length =
        p.entries.rows.length + 1 := by
      simp [Table.insertNew, Table.get?_eq_none_iff.mp hn]
    have ho : ∀ k, k ≠ fxhash key → (p.entries.insertNew (fxhash key) ⟨windowStartOf W now, 1⟩).get? k =
        p.entries.get? k := fun k hk => Table.get?_insertNew_of_ne hk
    have ht := (hp rfl).tracked
    simp only [noteCharge, hs, and_self, if_true]
    refine (hp h.kept).log (c := ⟨key, windowStartOf W now, 1, limit.toInt⟩) rfl (by simp [hle, ht])
      (Nat.succ_le_of_lt (not_le.mp hf)) hs ho rfl (Int.add_one_le_of_lt hli) le_rfl
      (Nat.one_lt_two_pow (by decide)) (fun e he' => ?_) ?_
    · rw [hn] at he'
      cases he'
    · refine (Bool.or_eq_false_iff).mpr ⟨h.kept, h.dropsLive fun k e hk hk' => hg k e hk ?_⟩
      by_cases heq : k = fxhash key
      · rw [heq]
        exact hn
      · exact (ho k heq).symm.trans hk'

theorem Counted.charge (h : Counted W s g) (hn : g.now ≤ now) :
    Counted W (s.charge key limit W now).1 (noteCharge g s key limit W now (s.charge key limit W now)) := by
  have hlo : ∀ s', Ended W now s s' → (g.lost || RateLimit.dropsLive s s' g now) = false := fun s' hg => by
    simp [h.kept, h.dropsLive hg]
  by_cases hl : limit.toInt ≤ 0
  · have hch : s.charge key limit W now = (s, ⟨false, true⟩) := if_pos hl
    rw [hch]
    unfold noteCharge
    cases s.entries.get? (fxhash key) <;> exact h.refl hn (hlo _ ended_refl)
  have hp := not_le.mp hl
  cases he : s.entries.get? (fxhash key) with
  | none =>
    have hch : s.charge key limit W now = s.track (fxhash key) (windowStartOf W now) := by
      simp only [DegradedLimiter.charge, hl, if_false, he]
    rw [hch]
    exact h.track hn hp he
  | some e =>
    have hm := limit.toInt_lt
    have hsm := (h.entry _ _ he).2.2.2
    by_cases hs : e.windowStart = windowStartOf W now
    · obtain ⟨count, hco⟩ : ∃ count, count = min (e.count + 1) (2 ^ 32 - 1) := ⟨_, rfl⟩
      have hch : s.charge key limit W now = (s.setEntry (fxhash key) ⟨windowStartOf W now, count⟩,
          ⟨(count : Int) ≤ limit.toInt, true⟩) := by
        simp only [DegradedLimiter.charge, hl, if_false, he, hs, if_true, hco]
      rw [hch]
      simp only [noteCharge, get?_setEntry_self he]
      split_ifs with ha
      · have hle : (count : Int) ≤ limit.toInt := by simpa using ha
        -- The limit is an `i32`, so the count that it allows is not the largest one.
        refine (h.refl hn h.kept).log (c := ⟨key, windowStartOf W now, count, limit.toInt⟩) rfl (h.setEntry _ _)
          h.cap (get?_setEntry_self he _) (fun k hk => get?_setEntry_of_ne hk _) rfl hle ?_ ?_ (fun e₁ he₁ _ => ?_)
          (hlo _ (ended_setEntry _ _))
        · show 1 ≤ count
          omega
        · show count < 2 ^ 32
          omega
        · obtain rfl := Option.some.inj (he.symm.trans he₁)
          show e.count < count
          omega
      · refine h.mono hn (h.setEntry _ _) h.cap (fun k e' he' => ?_) (ended_setEntry _ _)
          (hlo _ (ended_setEntry _ _))
        by_cases hk : k = fxhash key
        · subst hk
          rw [get?_setEntry_self he] at he'
          obtain rfl := Option.some.inj he'
          refine ⟨e, he, hs.symm, ?_⟩
          show e.count ≤ count ∧ count < 2 ^ 32
          omega
        · rw [get?_setEntry_of_ne hk] at he'
          exact ⟨e', he', rfl, le_rfl, (h.entry k e' he').2.2.2⟩
    · have hch : s.charge key limit W now =
          (s.setEntry (fxhash key) ⟨windowStartOf W now, 1⟩, ⟨true, true⟩) := by
        simp only [DegradedLimiter.charge, hl, if_false, he, hs]
      rw [hch]
      simp only [noteCharge, get?_setEntry_self he, and_self, if_true]
      refine (h.refl hn h.kept).log (c := ⟨key, windowStartOf W now, 1, limit.toInt⟩) rfl (h.setEntry _ _) h.cap
        (get?_setEntry_self he _) (fun k hk => get?_setEntry_of_ne hk _) rfl (Int.add_one_le_of_lt hp) le_rfl
        (Nat.one_lt_two_pow (by decide)) (fun e₁ he₁ hw₁ => ?_) (hlo _ (ended_setEntry _ _))
      obtain rfl := Option.some.inj (he.symm.trans he₁)
      exact absurd hw₁ hs

variable {w w' : DegradedLimiter × LimiterLog} {a : LimiterCall}

theorem counted_step (h : Counted W w.1 w.2) (hG : Steady W w a) (hs : limiterStep w a = some w') :
    Counted W w'.1 w'.2 := by
  cases a with
  | charge key limit windowSecs now =>
    obtain rfl : windowSecs = W := hG
    simp only [limiterStep] at hs
    split_ifs at hs with hlt
    obtain rfl := Option.some.inj hs
    exact h.charge (not_lt.mp hlt)
  | purge shard windowSecs now =>
    obtain rfl : windowSecs = W := hG
    simp only [limiterStep] at hs
    split_ifs at hs with hlt
    obtain rfl := Option.some.inj hs
    obtain ⟨hg, hp⟩ := h.purge (not_lt.mp hlt) shard
    exact hp (by simp [h.kept, h.dropsLive hg])
  | clear =>
    obtain rfl := Option.some.inj hs
    refine h.mono (g := w.2) le_rfl rfl (Nat.zero_le _) (fun k e he => by cases he) (fun k e he _ => ?_) h.kept
    exact hG (k, e) (Table.get?_eq_some_iff.mp he)

end

section

variable {W : Int} {w : DegradedLimiter × LimiterLog} {calls : List LimiterCall}

def LimiterLog.chargesOf (g : LimiterLog) (key : String) (windowStart : Int) : List Charge :=
  g.allowed.filter fun c => c.key = key ∧ c.windowStart = windowStart

theorem Counted.length_le {s : DegradedLimiter} {g : LimiterLog} (h : Counted W s g) (key : String)
    (windowStart : Int) (L : Nat) (hL : ∀ c ∈ g.chargesOf key windowStart, c.limit ≤ L) :
    (g.chargesOf key windowStart).length ≤ L := by
  have hno : ((g.chargesOf key windowStart).map Charge.count).Nodup := by
    refine pairwise_map.mpr ((h.distinct.filter _).imp_of_mem fun {c c'} hc hc' hlt => ?_)
    obtain ⟨-, hc⟩ := mem_filter.mp hc
    obtain ⟨-, hc'⟩ := mem_filter.mp hc'
    simp only [decide_eq_true_eq] at hc hc'
    exact (hlt (by rw [hc.1, hc'.1]) (by rw [hc.2, hc'.2])).ne
  have hs : ((g.chargesOf key windowStart).map Charge.count).toFinset ⊆ Finset.Icc 1 L := by
    intro n hn
    obtain ⟨c, hc, rfl⟩ := mem_map.mp (mem_toFinset.mp hn)
    obtain ⟨hp, hle⟩ := h.bounded c (mem_of_mem_filter hc)
    have hl := hL c hc
    exact Finset.mem_Icc.mpr ⟨hp, by omega⟩
  have hca := Finset.card_le_card hs
  rwa [toFinset_card_of_nodup hno, length_map, Nat.card_Icc, Nat.add_sub_cancel] at hca

instance (W : Int) (w : DegradedLimiter × LimiterLog) : (a : LimiterCall) → Decidable (Steady W w a) := fun a => by
  cases a <;> dsimp only [Steady] <;> infer_instance

end

end ConstructServer.RateLimit
