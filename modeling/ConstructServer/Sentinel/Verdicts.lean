import ConstructServer.Library.RedisKeys
import ConstructServer.Library.Serial

/-!
# Bans and flags of a device

The verdict on a device is in the database, and Redis keeps it for days. A lookup asks Redis first
and puts a verdict there that it has read from the database; a ban is lifted by deleting it from
Redis and then from the database, so a lookup between the two puts it back into Redis, where it
outlives the row. A lookup that finds an expired ban clears it and does not look at the flag. If the
calls on one device come one after the other, a new ban that Redis has taken also reaches the
database, and no lookup finds an expired ban of a flagged device, then a lifted ban is gone and a
flagged device is called flagged.
-/

namespace ConstructServer.Sentinel.Verdicts

open Redis Calls Machine Keyspace

/-! ### The calls -/

/-- A row of `device_flags`, without the texts and times that nothing reads. -/
structure FlagRow where
  isBanned : Bool
  /-- A permanent ban has none. -/
  banExpiresAt : Option Nat
  isFlagged : Bool
deriving DecidableEq

structure VerdictState where
  /-- In milliseconds. -/
  now : Nat
  deviceFlags : String → Option FlagRow
  registeredAt : String → Option Nat
  bans : Keyspace Unit
  flags : Keyspace Unit

def banKey (deviceId : String) : String := "sentinel:ban:" ++ deviceId

def flagKey (deviceId : String) : String := "sentinel:flag:" ++ deviceId

def banFlagTtl : Nat := 7 * 24 * 3600

inductive TrustLevel
  | new
  | warming
  | trusted
  | flagged
  | banned
deriving DecidableEq

inductive VerdictStatement
  | clock
  | existsBan (deviceId : String)
  | existsFlag (deviceId : String)
  | selectFlags (deviceId : String)
  | selectRegisteredAt (deviceId : String)
  /-- `SETEX` by a lookup. -/
  | cacheBan (deviceId : String) (ttl : Nat)
  | cacheFlag (deviceId : String)
  /-- `SETEX` by a new verdict. -/
  | setBan (deviceId : String)
  | setFlag (deviceId : String)
  | delBan (deviceId : String)
  | delFlag (deviceId : String)
  | upsertBanned (deviceId : String)
  | upsertFlagged (deviceId : String)
  | updateUnbanned (deviceId : String)
  | updateUnflagged (deviceId : String)

abbrev VerdictStatement.Reply : VerdictStatement → Type
  | .clock => Nat
  | .existsBan _ | .existsFlag _ => Bool
  | .selectFlags _ => Option FlagRow
  | .selectRegisteredAt _ => Option Nat
  | _ => Unit

def VerdictState.updateFlags (s : VerdictState) (deviceId : String) (row : Option FlagRow) : VerdictState :=
  { s with deviceFlags := Function.update s.deviceFlags deviceId row }

def VerdictStatement.effect (q : VerdictStatement) (_ : Unit) (s : VerdictState) :
    Option (q.Reply × VerdictState) :=
  match q with
  | .clock => some (s.now, s)
  | .existsBan d => some ((s.bans.get s.now (banKey d)).isSome, s)
  | .existsFlag d => some ((s.flags.get s.now (flagKey d)).isSome, s)
  | .selectFlags d => some (s.deviceFlags d, s)
  | .selectRegisteredAt d => some (s.registeredAt d, s)
  | .cacheBan d ttl => (s.bans.setEx s.now (banKey d) () ttl).map fun bans => ((), { s with bans })
  | .setBan d => (s.bans.setEx s.now (banKey d) () banFlagTtl).map fun bans => ((), { s with bans })
  | .cacheFlag d | .setFlag d =>
    (s.flags.setEx s.now (flagKey d) () banFlagTtl).map fun flags => ((), { s with flags })
  | .delBan d => some ((), { s with bans := s.bans.del (banKey d) })
  | .delFlag d => some ((), { s with flags := s.flags.del (flagKey d) })
  | .upsertBanned d =>
    some ((), s.updateFlags d (some { (s.deviceFlags d).getD ⟨false, none, false⟩ with isBanned := true }))
  | .upsertFlagged d =>
    some ((), s.updateFlags d (some { (s.deviceFlags d).getD ⟨false, none, false⟩ with isFlagged := true }))
  | .updateUnbanned d =>
    some ((), s.updateFlags d ((s.deviceFlags d).map fun row =>
      { row with isBanned := false, banExpiresAt := none }))
  | .updateUnflagged d =>
    some ((), s.updateFlags d ((s.deviceFlags d).map fun row => { row with isFlagged := false }))

def VerdictStatement.input (q : VerdictStatement) (input : Input Unit) : Input Unit :=
  match q with
  | .clock => ⟨.ok, ()⟩
  | _ => input

def VerdictState.exec (q : VerdictStatement) (input : Input Unit) (s : VerdictState) :
    Option (Option q.Reply × VerdictState) :=
  fallible VerdictStatement.effect q (q.input input) s

abbrev VerdictCall (α : Type) : Type := Fallible VerdictStatement VerdictStatement.Reply StoreError α

def clearBan (deviceId : String) : VerdictCall Unit := do
  let _ ← redis (.delBan deviceId)
  let _ ← database (.updateUnbanned deviceId)

def clearFlag (deviceId : String) : VerdictCall Unit := do
  let _ ← redis (.delFlag deviceId)
  let _ ← database (.updateUnflagged deviceId)

def setBanned (deviceId : String) : VerdictCall Unit := do
  let _ ← redis (.setBan deviceId)
  let _ ← database (.upsertBanned deviceId)

def setFlagged (deviceId : String) : VerdictCall Unit := do
  let _ ← redis (.setFlag deviceId)
  let _ ← database (.upsertFlagged deviceId)

/-- The level of a device that was registered the given number of hours ago. -/
def levelOfAge (ageHours : Nat) : TrustLevel :=
  if ageHours < 48 then .new else if ageHours < 168 then .warming else .trusted

def ageBasedLevel (deviceId : String) : VerdictCall TrustLevel := do
  let created ← database (VerdictStatement.selectRegisteredAt deviceId)
  match created with
  | none => pure .new
  | some registeredAt => do
    let now ← redis VerdictStatement.clock
    pure (levelOfAge ((now - registeredAt) / 3600000))

def cacheBan (deviceId : String) (ttl : Nat) : VerdictCall TrustLevel := do
  let _ ← demandOr (VerdictStatement.cacheBan deviceId ttl) ()
  pure .banned

def bannedLevel (deviceId : String) (banExpiresAt : Option Nat) : VerdictCall TrustLevel :=
  match banExpiresAt with
  | none => cacheBan deviceId banFlagTtl
  | some expiresAt => do
    let now ← redis VerdictStatement.clock
    if now > expiresAt then do
      clearBan deviceId
      ageBasedLevel deviceId
    else do
      let now ← redis VerdictStatement.clock
      cacheBan deviceId (max ((expiresAt - now) / 1000) 1)

def rowLevel (deviceId : String) (row : Option FlagRow) : VerdictCall TrustLevel :=
  match row with
  | none => ageBasedLevel deviceId
  | some row =>
    if row.isBanned then bannedLevel deviceId row.banExpiresAt
    else if row.isFlagged then do
      let _ ← demandOr (VerdictStatement.cacheFlag deviceId) ()
      pure .flagged
    else ageBasedLevel deviceId

/-- An error of Redis counts as a miss. -/
def trustLevelInner (deviceId : String) : VerdictCall TrustLevel := do
  let ban ← demandOr (.existsBan deviceId) false
  if ban then pure .banned
  else do
    let flag ← demandOr (.existsFlag deviceId) false
    if flag then pure .flagged
    else do
      let row ← database (VerdictStatement.selectFlags deviceId)
      rowLevel deviceId row

/-- A device whose verdict is not known counts as flagged. -/
def trustLevel (deviceId : String) :
    Program VerdictStatement (fun q => Option q.Reply) (Except StoreError (Option TrustLevel)) :=
  conclude (fun level => .ok (some level)) (fun _ => .ok (some .flagged)) (trustLevelInner deviceId)

inductive VerdictOp
  | trustLevel (deviceId : String)
  | clearBan (deviceId : String)
  | clearFlag (deviceId : String)
  | setBanned (deviceId : String)
  | setFlagged (deviceId : String)

def VerdictOp.deviceId : VerdictOp → String
  | .trustLevel d | .clearBan d | .clearFlag d | .setBanned d | .setFlagged d => d

def VerdictOp.body : VerdictOp →
    Program VerdictStatement (fun q => Option q.Reply) (Except StoreError (Option TrustLevel))
  | .trustLevel d => Verdicts.trustLevel d
  | .clearBan d => conclude (fun _ => .ok none) .error (Verdicts.clearBan d)
  | .clearFlag d => conclude (fun _ => .ok none) .error (Verdicts.clearFlag d)
  | .setBanned d => conclude (fun _ => .ok none) .error (Verdicts.setBanned d)
  | .setFlagged d => conclude (fun _ => .ok none) .error (Verdicts.setFlagged d)

/-! ### Calls side by side -/

def FlaggedOnly (deviceId : String) (s : VerdictState) : Prop :=
  ∃ row ∈ s.deviceFlags deviceId, row.isFlagged = true ∧ row.isBanned = false

instance decidableFlaggedOnly (deviceId : String) (s : VerdictState) : Decidable (FlaggedOnly deviceId s) := by
  dsimp only [FlaggedOnly]
  infer_instance

/-- What is known of one device. -/
structure VerdictLog where
  /-- A ban has been cleared with Ok, and no new verdict has begun since. -/
  lifted : Bool
  asked : List Nat
  /-- A lookup that began then has answered banned, or one has answered other than flagged while
  the row said flagged and not banned. -/
  wrong : Bool

def VerdictLog.empty : VerdictLog := ⟨false, [], false⟩

section

variable (D : String)

def noteVerdict (n : Nat) (q : VerdictStatement) (r : Option q.Reply) (_ : VerdictState) (g : VerdictLog) :
    VerdictLog :=
  match q, r with
  | .existsBan d, _ => if d = D ∧ g.lifted then { g with asked := n :: g.asked } else g
  | .setBan d, _ | .setFlag d, _ => if d = D then { g with lifted := false, asked := [] } else g
  | .updateUnbanned d, some _ => if d = D then { g with lifted := true } else g
  | _, _ => g

def noteVerdictEnd (n : Nat) (c : VerdictOp) (r : Except StoreError (Option TrustLevel))
    (w : VerdictState × VerdictLog) : VerdictState × VerdictLog :=
  match c with
  | .trustLevel d =>
    if d = D then
      (w.1, { w.2 with
        asked := w.2.asked.filter (· ≠ n)
        wrong := w.2.wrong || decide (n ∈ w.2.asked ∧ r = .ok (some .banned)) ||
          decide (FlaggedOnly D w.1 ∧ r ≠ .ok (some .flagged)) })
    else w
  | _ => w

def verdictExec : Nat → (q : VerdictStatement) → Input Unit → VerdictState × VerdictLog →
    Option (Option q.Reply × (VerdictState × VerdictLog)) :=
  noted VerdictState.exec (noteVerdict D)

abbrev VerdictPool : Type :=
  Pool VerdictStatement (fun q => Option q.Reply) (Except StoreError (Option TrustLevel)) VerdictOp
    (VerdictState × VerdictLog)

abbrev VerdictAction : Type := Action (Input Unit) VerdictOp Nat

def VerdictState.tick (ms : Nat) (s : VerdictState) : VerdictState := { s with now := s.now + ms }

def verdictStep (pool : VerdictPool) (a : VerdictAction) : Option VerdictPool :=
  pool.step (verdictExec D) (fun op _ => op.body) (noteVerdictEnd D) (beside VerdictState.tick) a

/-- What happens to the other devices. -/
structure VerdictEnv (w w' : VerdictState × VerdictLog) : Prop where
  now : w.1.now ≤ w'.1.now
  row : w'.1.deviceFlags D = w.1.deviceFlags D
  ban : w'.1.bans (banKey D) = w.1.bans (banKey D)
  log : w'.2 = w.2

/-- No ban of a flagged device has expired and is still in its row. -/
def NoneExpired (s : VerdictState) : Prop :=
  ∀ row ∈ s.deviceFlags D, row.isBanned = true → row.isFlagged = true → ∀ e ∈ row.banExpiresAt, s.now ≤ e

/-- The calls on the device come one after the other, what Redis has taken of a new ban reaches the
database, and no lookup comes upon an expired ban of a flagged device. -/
def oneByOne : Serial VerdictStatement (Input Unit) (VerdictState × VerdictLog) VerdictOp :=
  .ofKey VerdictOp.deviceId D (VerdictEnv D) (fun w => w.2.wrong = false)
    (fun q input w => match q with
      | .setBan _ => input.outcome ≠ .lost
      | .upsertBanned _ => input.outcome ≠ .failed
      | .clock => NoneExpired D w.1
      | _ => True)
    (fun _ => ⟨le_rfl, rfl, rfl, rfl⟩) fun h h' =>
      ⟨h.now.trans h'.now, h'.row.trans h.row, h'.ban.trans h.ban, h'.log.trans h.log⟩

def Banned (s : VerdictState) : Prop := ∃ row ∈ s.deviceFlags D, row.isBanned = true

structure Base (w : VerdictState × VerdictLog) : Prop where
  lifted : w.2.lifted = true → ¬ Banned D w.1
  cached : (w.1.bans.get w.1.now (banKey D)).isSome → Banned D w.1

structure Rest (w : VerdictState × VerdictLog) : Prop where
  base : Base D w
  asked : w.2.asked = []

def Spares : VerdictStatement → Prop
  | .existsBan d | .cacheBan d _ | .setBan d | .setFlag d | .delBan d | .upsertBanned d | .upsertFlagged d
  | .updateUnbanned d | .updateUnflagged d => d ≠ D
  | .clock | .existsFlag _ | .selectFlags _ | .selectRegisteredAt _ | .cacheFlag _ | .delFlag _ => True

end

/-! ### The other devices -/

section

variable {D d : String} {n : Nat} {q : VerdictStatement} {w w' : VerdictState × VerdictLog}

theorem banKey_ne (h : d ≠ D) : banKey D ≠ banKey d :=
  fun heq => h ((String.append_right_inj _).mp heq).symm

theorem unchanged_of_effect {s s' : VerdictState} {x : q.Reply} (hq : Spares D q)
    (h : q.effect () s = some (x, s')) :
    s'.now = s.now ∧ s'.deviceFlags D = s.deviceFlags D ∧ s'.bans (banKey D) = s.bans (banKey D) := by
  cases q with
  | clock | existsBan _ | existsFlag _ | selectFlags _ | selectRegisteredAt _ | delFlag _ =>
    cases h
    exact ⟨rfl, rfl, rfl⟩
  | cacheBan d ttl =>
    have hk : banKey D ≠ banKey d := banKey_ne hq
    simp only [VerdictStatement.effect, Option.map_eq_some_iff] at h
    obtain ⟨bans, hba, heq⟩ := h
    obtain ⟨-, -, rfl⟩ := setEx_eq_some_iff.mp hba
    cases heq
    exact ⟨rfl, rfl, set_apply_of_ne hk⟩
  | setBan d =>
    have hk : banKey D ≠ banKey d := banKey_ne hq
    simp only [VerdictStatement.effect, Option.map_eq_some_iff] at h
    obtain ⟨bans, hba, heq⟩ := h
    obtain ⟨-, -, rfl⟩ := setEx_eq_some_iff.mp hba
    cases heq
    exact ⟨rfl, rfl, set_apply_of_ne hk⟩
  | cacheFlag d | setFlag d =>
    simp only [VerdictStatement.effect, Option.map_eq_some_iff] at h
    obtain ⟨flags, -, heq⟩ := h
    cases heq
    exact ⟨rfl, rfl, rfl⟩
  | delBan d =>
    cases h
    have hk : banKey D ≠ banKey d := banKey_ne hq
    exact ⟨rfl, rfl, del_apply_of_ne hk⟩
  | upsertBanned d | upsertFlagged d | updateUnbanned d | updateUnflagged d =>
    cases h
    exact ⟨rfl, Function.update_of_ne (Ne.symm hq) _ _, rfl⟩

theorem note_spares {s : VerdictState} {g : VerdictLog} {r : Option q.Reply} (hq : Spares D q) :
    noteVerdict D n q r s g = g := by
  cases q with
  | existsBan d => exact if_neg fun h => hq h.1
  | setBan d | setFlag d => exact if_neg hq
  | updateUnbanned d =>
    cases r with
    | none => rfl
    | some _ => exact if_neg hq
  | _ => rfl

theorem env_of_spares {input : Input Unit} {r : Option q.Reply} (hq : Spares D q)
    (h : verdictExec D n q input w = some (r, w')) : VerdictEnv D w w' := by
  obtain ⟨he, hl⟩ := noted_eq_some h
  rw [note_spares hq] at hl
  rcases failed_or_effect he with ⟨hs, -⟩ | ⟨x, he, -⟩
  · exact ⟨hs ▸ le_rfl, hs ▸ rfl, hs ▸ rfl, hl⟩
  · obtain ⟨hn, hr, hba⟩ := unchanged_of_effect hq he
    exact ⟨hn.ge, hr, hba, hl⟩

theorem asks_ageBasedLevel : (ageBasedLevel d).run.Asks (Spares D) := by
  refine asks_next trivial fun created => ?_
  cases created with
  | none => trivial
  | some registeredAt => exact asks_next trivial fun _ => trivial

theorem asks_bannedLevel {banExpiresAt : Option Nat} (hd : d ≠ D) :
    (bannedLevel d banExpiresAt).run.Asks (Spares D) := by
  have hca : ∀ ttl, (cacheBan d ttl).run.Asks (Spares D) :=
    fun ttl => asks_then (asks_demandOr hd) fun _ => trivial
  cases banExpiresAt with
  | none => exact hca _
  | some expiresAt =>
    refine asks_next trivial fun now => ?_
    split
    · exact asks_then (asks_next hd fun _ => asks_next hd fun _ => trivial) fun _ => asks_ageBasedLevel
    · exact asks_next trivial fun _ => hca _

theorem asks_trustLevelInner (hd : d ≠ D) : (trustLevelInner d).run.Asks (Spares D) := by
  refine asks_then (asks_demandOr hd) fun ban => ?_
  cases ban with
  | true => trivial
  | false =>
    refine asks_then (asks_demandOr trivial) fun flag => ?_
    cases flag with
    | true => trivial
    | false =>
      refine asks_next trivial fun row => ?_
      cases row with
      | none => exact asks_ageBasedLevel
      | some row =>
        simp only [rowLevel]
        split
        · exact asks_bannedLevel hd
        · split
          · exact asks_then (asks_demandOr trivial) fun _ => trivial
          · exact asks_ageBasedLevel

theorem asks_body {c : VerdictOp} (hc : c.deviceId ≠ D) : c.body.Asks (Spares D) := by
  cases c with
  | trustLevel d => exact asks_conclude (asks_trustLevelInner hc)
  | clearFlag d => exact asks_conclude (asks_next trivial fun _ => asks_next hc fun _ => trivial)
  | clearBan d | setBanned d | setFlagged d =>
    exact asks_conclude (asks_next hc fun _ => asks_next hc fun _ => trivial)

end

/-! ### The calls on the device -/

section

variable {D : String} {n : Nat} {c : VerdictOp} {w w' : VerdictState × VerdictLog}

theorem banned_congr {s s' : VerdictState} (h : s'.deviceFlags D = s.deviceFlags D) : Banned D s' ↔
    Banned D s := by
  unfold Banned
  rw [h]

theorem VerdictEnv.isSome_get (he : VerdictEnv D w w') (h : (w'.1.bans.get w'.1.now (banKey D)).isSome) :
    (w.1.bans.get w.1.now (banKey D)).isSome := by
  obtain ⟨u, hu⟩ := Option.isSome_iff_exists.mp h
  have hg := get_mono he.now hu
  rw [get_congr he.ban] at hg
  exact Option.isSome_iff_exists.mpr ⟨u, hg⟩

theorem Base.stable (h : Base D w) (he : VerdictEnv D w w') : Base D w' := by
  refine ⟨fun hl => ?_, fun hca => ?_⟩
  · rw [banned_congr he.row]
    exact h.lifted (he.log ▸ hl)
  · rw [banned_congr he.row]
    exact h.cached (he.isSome_get hca)

theorem Rest.stable (h : Rest D w) (he : VerdictEnv D w w') : Rest D w' :=
  ⟨h.base.stable he, he.log ▸ h.asked⟩

/-- A lookup is under way. -/
structure Looking (D : String) (n : Nat) (w : VerdictState × VerdictLog) : Prop where
  base : Base D w
  asked : ∀ m ∈ w.2.asked, m = n ∧ w.2.lifted = true

theorem Looking.stable (h : Looking D n w) (he : VerdictEnv D w w') : Looking D n w' :=
  ⟨h.base.stable he, he.log ▸ h.asked⟩

theorem Rest.looking (h : Rest D w) : Looking D n w := by
  refine ⟨h.base, fun m hm => ?_⟩
  rw [h.asked] at hm
  cases hm

theorem Looking.rest (h : Looking D n w) (hba : Banned D w.1) : Rest D w :=
  ⟨h.base, List.eq_nil_iff_forall_not_mem.mpr fun m hm => h.base.lifted (h.asked m hm).2 hba⟩

theorem Banned.not_flaggedOnly {s : VerdictState} (h : Banned D s) : ¬FlaggedOnly D s := by
  rintro ⟨row, hr, -, hn⟩
  obtain ⟨row', hr', hb⟩ := h
  cases hr.symm.trans hr'
  exact Bool.false_ne_true (hn.symm.trans hb)

theorem flaggedOnly_congr {s s' : VerdictState} (h : s'.deviceFlags D = s.deviceFlags D) :
    FlaggedOnly D s' ↔ FlaggedOnly D s := by
  unfold FlaggedOnly
  rw [h]

/-- The level is one that the lookup may answer with. -/
structure Fits (D : String) (level : TrustLevel) (w : VerdictState × VerdictLog) : Prop where
  banned : level = .banned → w.2.asked = []
  flagged : level ≠ .flagged → ¬FlaggedOnly D w.1

variable {q : VerdictStatement}

/-- The call keeps to its turn on the device. -/
abbrev TakesTurn {α : Type} (D : String) := (oneByOne D).discipline.Safe (α := α) (verdictExec D)

theorem safe_spares {e : StoreError} {K err : VerdictState × VerdictLog → Prop}
    (hc : c.deviceId = D) (hst : ∀ {w w'}, K w → VerdictEnv D w w' → K w') (her : ∀ {w}, K w → err w)
    (hq : Spares D q) (hw : K w) : TakesTurn D n c (demand q e).run (endsIn err fun _ => K) w := by
  refine Serial.safe_demand hc K hst hw ?_
  intro input w r w' hal hw _ hexe
  have he := env_of_spares hq hexe
  refine ⟨(congrArg VerdictLog.wrong he.log).trans hal, ?_⟩
  cases r with
  | none => exact her (hst hw he)
  | some _ => exact hst hw he

theorem safe_spares_or {x : q.Reply} {K err : VerdictState × VerdictLog → Prop}
    (hc : c.deviceId = D) (hst : ∀ {w w'}, K w → VerdictEnv D w w' → K w') (hq : Spares D q) (hw : K w) :
    TakesTurn D n c (demandOr q x : VerdictCall q.Reply).run (endsIn err fun _ => K) w := by
  refine Serial.safe_demandOr hc K hst hw ?_
  intro input w r w' hal hw _ hexe
  have he := env_of_spares hq hexe
  exact ⟨(congrArg VerdictLog.wrong he.log).trans hal, hst hw he⟩

theorem fits_levelOfAge {hou : Nat} (hw : ¬FlaggedOnly D w.1) : Fits D (levelOfAge hou) w := by
  refine ⟨fun hba => ?_, fun _ => hw⟩
  unfold levelOfAge at hba
  split at hba
  · cases hba
  · split at hba <;> cases hba

theorem safe_ageBasedLevel (hc : c.deviceId = D) (hw : Looking D n w ∧ ¬FlaggedOnly D w.1) :
    TakesTurn D n c (ageBasedLevel D).run (endsIn (Looking D n) fun level w => Looking D n w ∧ Fits D level w) w := by
  have hst : ∀ {w w'}, Looking D n w ∧ ¬FlaggedOnly D w.1 → VerdictEnv D w w' →
      Looking D n w' ∧ ¬FlaggedOnly D w'.1 :=
    fun h he => ⟨h.1.stable he, (flaggedOnly_congr he.row).not.mpr h.2⟩
  refine safe_then _ (safe_spares hc hst (fun h => h.1) trivial hw) fun created w hw => ?_
  cases created with
  | none => exact ⟨hw.1, nofun, fun _ => hw.2⟩
  | some registeredAt =>
    refine safe_then _ (safe_spares hc hst (fun h => h.1) trivial hw) fun now w hw => ?_
    exact ⟨hw.1, fits_levelOfAge hw.2⟩

theorem Rest.congr (h : Rest D w) (hn : w'.1.now = w.1.now) (hb : w'.1.bans = w.1.bans)
    (hba : Banned D w'.1 ↔ Banned D w.1) (hl : w'.2.lifted = true → w.2.lifted = true)
    (ha : w'.2.asked = []) : Rest D w' := by
  refine ⟨⟨fun h' => ?_, fun hca => ?_⟩, ha⟩
  · rw [hba]
    exact h.base.lifted (hl h')
  · rw [hn, hb] at hca
    exact hba.mpr (h.base.cached hca)

def Uncached (D : String) (w : VerdictState × VerdictLog) : Prop :=
  ¬ (w.1.bans.get w.1.now (banKey D)).isSome

theorem Uncached.stable (h : Uncached D w) (he : VerdictEnv D w w') : Uncached D w' :=
  fun hs => h (he.isSome_get hs)

section

-- What a call knows of the row, and keeps knowing when the ban is taken out of it.
variable {Q : VerdictState → Prop} (hQ : ∀ {s s'}, s'.deviceFlags D = s.deviceFlags D → Q s → Q s')
include hQ

theorem Rest.stable_and (h : Rest D w ∧ Q w.1) (he : VerdictEnv D w w') : Rest D w' ∧ Q w'.1 :=
  ⟨h.1.stable he, hQ he.row h.2⟩

theorem safe_delBan (hc : c.deviceId = D) (hw : Rest D w ∧ Q w.1) :
    TakesTurn D n c (redis (.delBan D)).run
      (endsIn (Rest D) fun _ w => (Rest D w ∧ Q w.1) ∧ Uncached D w) w := by
  refine Serial.safe_demand hc (fun w => Rest D w ∧ Q w.1) (Rest.stable_and hQ) hw ?_
  intro input w r w' hal hw _ hexe
  obtain ⟨he, hl⟩ := noted_eq_some hexe
  obtain ⟨s', g'⟩ := w'
  cases hl
  refine ⟨hal, ?_⟩
  rcases failed_or_effect he with ⟨hs, rfl⟩ | ⟨x, he, -⟩
  · cases hs
    exact hw.1
  · cases he
    have hu : Uncached D ({ w.1 with bans := w.1.bans.del (banKey D) }, w.2) := by
      unfold Uncached
      rw [get_del_self]
      exact Bool.false_ne_true
    have hr : Rest D ({ w.1 with bans := w.1.bans.del (banKey D) }, w.2) :=
      ⟨⟨hw.1.base.lifted, fun hca => absurd hca hu⟩, hw.1.asked⟩
    cases r with
    | none => exact hr
    | some _ => exact ⟨⟨hr, hQ (s := w.1) rfl hw.2⟩, hu⟩

omit hQ in
theorem not_banned_of_unbanned {s : VerdictState} :
    ¬ Banned D (s.updateFlags D ((s.deviceFlags D).map fun row =>
      { row with isBanned := false, banExpiresAt := none })) := by
  rintro ⟨row, hr, hba⟩
  simp only [VerdictState.updateFlags, Function.update_self, Option.mem_def, Option.map_eq_some_iff] at hr
  obtain ⟨row', -, rfl⟩ := hr
  cases hba

variable (hun : ∀ {s}, Q s → Q (s.updateFlags D ((s.deviceFlags D).map fun row =>
  { row with isBanned := false, banExpiresAt := none })))
include hun

theorem safe_updateUnbanned (hc : c.deviceId = D) (hw : (Rest D w ∧ Q w.1) ∧ Uncached D w) :
    TakesTurn D n c (database (.updateUnbanned D)).run
      (endsIn (Rest D) fun _ w => Rest D w ∧ Q w.1) w := by
  refine Serial.safe_demand hc (fun w => (Rest D w ∧ Q w.1) ∧ Uncached D w)
    (fun h hen => ⟨Rest.stable_and hQ h.1 hen, h.2.stable hen⟩) hw ?_
  intro input w r w' hal hw _ hexe
  obtain ⟨he, hl⟩ := noted_eq_some hexe
  have hl : w'.2.asked = w.2.asked ∧ w'.2.wrong = w.2.wrong ∧ (r = none → w'.2 = w.2) := by
    rw [hl]
    cases r with
    | none => exact ⟨rfl, rfl, fun _ => rfl⟩
    | some _ =>
      simp only [noteVerdict, if_true]
      exact ⟨trivial, trivial, nofun⟩
  obtain ⟨ha, hwr, hsa⟩ := hl
  refine ⟨hwr.trans hal, ?_⟩
  have hre : Rest D w' ∧ Q w'.1 := by
    rcases failed_or_effect he with ⟨hs, hr⟩ | ⟨x, he, -⟩
    · have hw' : w' = w := Prod.ext hs (hsa hr)
      rw [hw']
      exact hw.1
    · have hs : _ = w'.1 := congrArg Prod.snd (Option.some.inj he)
      refine ⟨⟨⟨fun _ => hs ▸ not_banned_of_unbanned, fun hca => absurd ?_ hw.2⟩,
        ha.trans hw.1.1.asked⟩, hs ▸ hun hw.1.2⟩
      rw [← hs] at hca
      exact hca
  cases r with
  | none => exact hre.1
  | some _ => exact hre

theorem safe_clearBan (hc : c.deviceId = D) (hw : Rest D w ∧ Q w.1) :
    TakesTurn D n c (clearBan D).run (endsIn (Rest D) fun _ w => Rest D w ∧ Q w.1) w := by
  refine safe_then _ (safe_delBan hQ hc hw) fun _ w hw => ?_
  exact safe_then _ (safe_updateUnbanned hQ hun hc hw) fun _ w hw => hw

end

theorem safe_cacheBan {ttl : Nat} (hc : c.deviceId = D) (hw : Rest D w ∧ Banned D w.1) :
    TakesTurn D n c (cacheBan D ttl).run (endsIn (Looking D n) fun level w => Looking D n w ∧ Fits D level w) w := by
  refine safe_then (fun _ w => Rest D w ∧ Banned D w.1) ?_ fun _ w hw => ?_
  · refine Serial.safe_demandOr hc (fun w => Rest D w ∧ Banned D w.1)
      (Rest.stable_and fun h => (banned_congr h).mpr) hw ?_
    intro input w r w' hal hw _ hexe
    obtain ⟨he, hlo⟩ := noted_eq_some hexe
    have hr : w'.1.deviceFlags = w.1.deviceFlags := by
      rcases failed_or_effect he with ⟨hs, -⟩ | ⟨x, he, -⟩
      · rw [hs]
      · simp only [VerdictStatement.effect, Option.map_eq_some_iff] at he
        obtain ⟨bans, -, heq⟩ := he
        have hs : _ = w'.1 := congrArg Prod.snd heq
        rw [← hs]
    have hlo : w'.2 = w.2 := hlo
    have hba : Banned D w'.1 := (banned_congr (congrFun hr D)).mpr hw.2
    refine ⟨(congrArg VerdictLog.wrong hlo).trans hal, ⟨⟨fun hl => ?_, fun _ => hba⟩,
      hlo ▸ hw.1.asked⟩, hba⟩
    exact absurd hw.2 (hw.1.base.lifted (hlo ▸ hl))
  · exact ⟨hw.1.looking, fun _ => hw.1.asked, fun _ => hw.2.not_flaggedOnly⟩

def Unflagged (D : String) (s : VerdictState) : Prop := ∀ row ∈ s.deviceFlags D, row.isFlagged = false

theorem Unflagged.not_flaggedOnly {s : VerdictState} (h : Unflagged D s) : ¬FlaggedOnly D s := by
  rintro ⟨row, hr, hf, -⟩
  exact Bool.false_ne_true ((h row hr).symm.trans hf)

theorem unflagged_of_unbanned {s : VerdictState} (h : Unflagged D s) :
    Unflagged D (s.updateFlags D ((s.deviceFlags D).map fun row =>
      { row with isBanned := false, banExpiresAt := none })) := by
  intro row hr
  simp only [VerdictState.updateFlags, Function.update_self, Option.mem_def, Option.map_eq_some_iff] at hr
  obtain ⟨row', hr', rfl⟩ := hr
  exact h row' hr'

theorem safe_clock {row : FlagRow} (hc : c.deviceId = D) (hb : row.isBanned = true)
    (hw : Rest D w ∧ w.1.deviceFlags D = some row) :
    TakesTurn D n c (redis .clock).run (endsIn (Looking D n) fun now w =>
      (Rest D w ∧ w.1.deviceFlags D = some row) ∧
        ∀ e ∈ row.banExpiresAt, now > e → row.isFlagged = false) w := by
  have hst : ∀ {w w'}, Rest D w ∧ w.1.deviceFlags D = some row → VerdictEnv D w w' →
      Rest D w' ∧ w'.1.deviceFlags D = some row := Rest.stable_and fun h h' => h.trans h'
  refine Serial.safe_demand hc _ hst hw ?_
  intro input w r w' hal hw hca hexe
  have he := env_of_spares (q := .clock) trivial hexe
  refine ⟨(congrArg VerdictLog.wrong he.log).trans hal, ?_⟩
  cases r with
  | none => exact (hst hw he).1.looking
  | some now =>
    refine ⟨hst hw he, fun e hex hlt => Bool.eq_false_iff.mpr fun hf => ?_⟩
    have hnow : w.1.now = now :=
      congrArg Prod.fst (Option.some.inj (effect_of_reply (noted_eq_some hexe).1))
    exact absurd (hnow ▸ hca hc row hw.2 hb hf e hex) (Nat.not_le_of_gt hlt)

theorem safe_bannedLevel {row : FlagRow} (hc : c.deviceId = D) (hb : row.isBanned = true)
    (hw : Rest D w ∧ w.1.deviceFlags D = some row) :
    TakesTurn D n c (bannedLevel D row.banExpiresAt).run
      (endsIn (Looking D n) fun level w => Looking D n w ∧ Fits D level w) w := by
  have hban : ∀ {w : VerdictState × VerdictLog}, w.1.deviceFlags D = some row → Banned D w.1 :=
    fun h => ⟨row, h, hb⟩
  have hclock := fun {w} (hw : Rest D w ∧ w.1.deviceFlags D = some row) => safe_clock (n := n) hc hb hw
  cases hex : row.banExpiresAt with
  | none => exact safe_cacheBan hc ⟨hw.1, hban hw.2⟩
  | some expiresAt =>
    refine safe_then _ (hclock hw) fun now w hw => ?_
    obtain ⟨hw, hfl⟩ := hw
    split
    · next hlt =>
      have hun : Unflagged D w.1 := fun row' hr' => by
        cases hw.2.symm.trans hr'
        exact hfl expiresAt hex hlt
      refine safe_then (fun _ w => Rest D w ∧ Unflagged D w.1) ?_ fun _ w hw =>
        safe_ageBasedLevel hc ⟨hw.1.looking, hw.2.not_flaggedOnly⟩
      refine (safe_clearBan (fun h hQ => by unfold Unflagged; rw [h]; exact hQ) unflagged_of_unbanned hc
        ⟨hw.1, hun⟩).mono fun r w hr => ?_
      cases r with
      | ok _ => exact hr
      | error _ => exact Rest.looking hr
    · exact safe_then _ (hclock hw) fun _ w hw => safe_cacheBan hc ⟨hw.1.1, hban hw.1.2⟩

theorem safe_rowLevel {row : Option FlagRow} (hc : c.deviceId = D)
    (hw : Looking D n w ∧ w.1.deviceFlags D = row) :
    TakesTurn D n c (rowLevel D row).run (endsIn (Looking D n) fun level w => Looking D n w ∧ Fits D level w) w := by
  obtain ⟨hl, hro⟩ := hw
  have hst : (∀ r ∈ row, r.isFlagged = false) → ¬FlaggedOnly D w.1 :=
    fun hn => Unflagged.not_flaggedOnly fun r hr => hn r (hro ▸ hr)
  cases row with
  | none => exact safe_ageBasedLevel hc ⟨hl, hst nofun⟩
  | some row =>
    simp only [rowLevel]
    split
    · rename_i hb
      exact safe_bannedLevel hc hb ⟨hl.rest ⟨row, hro, hb⟩, hro⟩
    · split
      · refine safe_then _ (safe_spares_or hc Looking.stable trivial hl) fun _ w hw => ?_
        exact ⟨hw, nofun, fun hne => absurd rfl hne⟩
      · rename_i hf
        refine safe_ageBasedLevel hc ⟨hl, hst ?_⟩
        rintro _ ⟨⟩
        exact Bool.eq_false_iff.mpr hf

theorem safe_existsBan (hc : c.deviceId = D) (hw : Rest D w) :
    TakesTurn D n c (demandOr (VerdictStatement.existsBan D) false : VerdictCall Bool).run
      (endsIn (Looking D n) fun ban w => Looking D n w ∧ (ban = true → Banned D w.1)) w := by
  refine Serial.safe_demandOr hc (Rest D) Rest.stable hw ?_
  intro input w r w' hal hw _ hexe
  obtain ⟨he, hl⟩ := noted_eq_some hexe
  have hl : w'.2 = { w.2 with asked := if w.2.lifted then [n] else [] } := by
    rw [hl]
    simp only [noteVerdict, true_and, hw.asked]
    split
    · rfl
    · rw [← hw.asked]
  have hs : w'.1 = w.1 := by
    rcases failed_or_effect he with ⟨hs, -⟩ | ⟨x, he, -⟩
    · exact hs
    · exact (congrArg Prod.snd (Option.some.inj he)).symm
  have hba : r.getD false = true → Banned D w.1 := by
    intro hr
    cases r with
    | none => cases hr
    | some x =>
      have hx : (w.1.bans.get w.1.now (banKey D)).isSome = x :=
        congrArg Prod.fst (Option.some.inj (effect_of_reply he))
      exact hw.base.cached (hx.trans hr)
  obtain ⟨s', g'⟩ := w'
  cases hl
  cases hs
  refine ⟨hal, ⟨⟨hw.base.lifted, hw.base.cached⟩, fun m hm => ?_⟩, hba⟩
  simp only at hm
  split at hm
  · exact ⟨List.mem_singleton.mp hm, ‹_›⟩
  · cases hm

theorem safe_trustLevelInner (hc : c.deviceId = D) (hw : Rest D w) : TakesTurn D n c (trustLevelInner D).run
      (endsIn (Looking D n) fun level w => Looking D n w ∧ Fits D level w) w := by
  refine safe_then _ (safe_existsBan hc hw) fun ban w hw => ?_
  cases ban with
  | true =>
    exact ⟨hw.1, fun _ => (hw.1.rest (hw.2 rfl)).asked, fun _ => (hw.2 rfl).not_flaggedOnly⟩
  | false =>
    refine safe_then _ (safe_spares_or hc Looking.stable trivial hw.1) fun flag w hw => ?_
    cases flag with
    | true => exact ⟨hw, nofun, fun hne => absurd rfl hne⟩
    | false =>
      refine safe_then (fun row w => Looking D n w ∧ w.1.deviceFlags D = row) ?_ fun row w hw =>
        safe_rowLevel hc hw
      refine Serial.safe_demand hc (Looking D n) Looking.stable hw ?_
      intro input w r w' hal hw _ hexe
      have he := env_of_spares (q := .selectFlags D) trivial hexe
      refine ⟨(congrArg VerdictLog.wrong he.log).trans hal, ?_⟩
      cases r with
      | none => exact hw.stable he
      | some row =>
        have hro : w.1.deviceFlags D = row :=
          congrArg Prod.fst (Option.some.inj (effect_of_reply (noted_eq_some hexe).1))
        exact ⟨hw.stable he, he.row.trans hro⟩

theorem safe_flagRow (hc : c.deviceId = D) (hq : q = .upsertFlagged D ∨ q = .updateUnflagged D)
    (hw : Rest D w) :
    TakesTurn D n c (database q).run (endsIn (Rest D) fun _ => Rest D) w := by
  refine Serial.safe_demand hc (Rest D) Rest.stable hw ?_
  intro input w r w' hal hw _ hexe
  obtain ⟨he, hlo⟩ := noted_eq_some hexe
  have hlo : w'.2 = w.2 := by
    rw [hlo]
    rcases hq with rfl | rfl <;> rfl
  have hl : w'.2.lifted = true → w.2.lifted = true := fun h => hlo ▸ h
  have ha : w'.2.asked = [] := hlo ▸ hw.asked
  refine ⟨(congrArg VerdictLog.wrong hlo).trans hal, ?_⟩
  have hr : Rest D w' := by
    rcases failed_or_effect he with ⟨hs, -⟩ | ⟨x, he, -⟩
    · exact hw.congr (congrArg VerdictState.now hs) (congrArg VerdictState.bans hs)
        (banned_congr (congrFun (congrArg VerdictState.deviceFlags hs) D)) hl ha
    · -- Whether the device is banned stays as it is.
      rcases hq with rfl | rfl
      all_goals
        have hs : _ = w'.1 := congrArg Prod.snd (Option.some.inj he)
        refine hw.congr (hs ▸ rfl) (hs ▸ rfl) ?_ hl ha
        rw [← hs]
        unfold Banned
        simp only [VerdictState.updateFlags, Function.update_self]
        cases w.1.deviceFlags D with
        | none => simp
        | some row => simp
  cases r with
  | none => exact hr
  | some _ => exact hr

theorem safe_clearFlag (hc : c.deviceId = D) (hw : Rest D w) :
    TakesTurn D n c (clearFlag D).run (endsIn (Rest D) fun _ => Rest D) w := by
  refine safe_then _ (safe_spares hc Rest.stable id trivial hw) fun _ w hw => ?_
  exact safe_then _ (safe_flagRow hc (.inr rfl) hw) fun _ w hw => hw

theorem safe_setFlagged (hc : c.deviceId = D) (hw : Rest D w) :
    TakesTurn D n c (setFlagged D).run (endsIn (Rest D) fun _ => Rest D) w := by
  refine safe_then (fun _ => Rest D) ?_ fun _ w hw =>
    safe_then _ (safe_flagRow hc (.inl rfl) hw) fun _ w hw => hw
  refine Serial.safe_demand hc (Rest D) Rest.stable hw ?_
  intro input w r w' hal hw _ hexe
  obtain ⟨he, hl⟩ := noted_eq_some hexe
  have hl : w'.2 = { w.2 with lifted := false, asked := [] } := hl.trans (if_pos rfl)
  have hs : w'.1.now = w.1.now ∧ w'.1.bans = w.1.bans ∧ w'.1.deviceFlags = w.1.deviceFlags := by
    rcases failed_or_effect he with ⟨hs, -⟩ | ⟨x, he, -⟩
    · rw [hs]
      exact ⟨rfl, rfl, rfl⟩
    · simp only [VerdictStatement.effect, Option.map_eq_some_iff] at he
      obtain ⟨flags, -, heq⟩ := he
      have hs : _ = w'.1 := congrArg Prod.snd heq
      rw [← hs]
      exact ⟨rfl, rfl, rfl⟩
  have hr : Rest D w' := hw.congr hs.1 hs.2.1 (banned_congr (congrFun hs.2.2 D))
    (by rw [hl]; nofun) (by rw [hl])
  refine ⟨(congrArg VerdictLog.wrong hl).trans hal, ?_⟩
  cases r with
  | none => exact hr
  | some _ => exact hr

/-- Redis has taken a new ban, and the row has not. -/
structure Pending (w : VerdictState × VerdictLog) : Prop where
  lifted : w.2.lifted = false
  asked : w.2.asked = []

theorem safe_setBan (hc : c.deviceId = D) (hw : Rest D w) : TakesTurn D n c (redis (.setBan D)).run
      (endsIn (Rest D) fun _ => Pending) w := by
  refine Serial.safe_demand hc (Rest D) Rest.stable hw ?_
  intro input w r w' hal hw hca he
  obtain ⟨hef, hl⟩ := noted_eq_some he
  have hl : w'.2 = { w.2 with lifted := false, asked := [] } := hl.trans (if_pos rfl)
  refine ⟨(congrArg VerdictLog.wrong hl).trans hal, ?_⟩
  have hpe : Pending w' := by
    constructor
    · rw [hl]
    · rw [hl]
  cases r with
  | some _ => exact hpe
  | none =>
    -- The command has failed, for its reply is not lost.
    have hs : w'.1 = w.1 := eq_of_no_reply (hca hc) hef
    exact hw.congr (congrArg VerdictState.now hs) (congrArg VerdictState.bans hs)
      (banned_congr (congrFun (congrArg VerdictState.deviceFlags hs) D))
      (fun h => absurd (hpe.lifted.symm.trans h) Bool.false_ne_true) hpe.asked

theorem safe_setBanned (hc : c.deviceId = D) (hw : Rest D w) :
    TakesTurn D n c (setBanned D).run (endsIn (Rest D) fun _ => Rest D) w := by
  refine safe_then _ (safe_setBan hc hw) fun _ w hw => safe_then (fun _ => Rest D) ?_ fun _ w hw => hw
  refine Serial.safe_demand hc Pending (fun h he => ⟨he.log ▸ h.lifted, he.log ▸ h.asked⟩) hw ?_
  intro input w r w' hal hw hca hexe
  obtain ⟨hef, hlo⟩ := noted_eq_some hexe
  have hs := eq_of_fallible (hca hc) hef rfl
  have hlo : w'.2 = w.2 := hlo
  refine ⟨(congrArg VerdictLog.wrong hlo).trans hal, ?_⟩
  have hba : Banned D w'.1 := by
    rw [hs]
    exact ⟨_, Function.update_self _ _ _, rfl⟩
  have hr : Rest D w' := by
    refine ⟨⟨fun hl => ?_, fun _ => hba⟩, by rw [hlo]; exact hw.asked⟩
    rw [hlo] at hl
    exact absurd (hw.lifted.symm.trans hl) Bool.false_ne_true
  cases r with
  | none => exact hr
  | some _ => exact hr

end

/-! ### Every run -/

section

variable {D : String} {n : Nat} {c : VerdictOp} {w w' : VerdictState × VerdictLog}

theorem post_trustLevel {level : TrustLevel} (hw : Looking D n w) (hf : Fits D level w) :
    (oneByOne D).Post (Rest D) (noteVerdictEnd D) n (.trustLevel D) (.ok (some level)) w := by
  intro hal
  have hen : noteVerdictEnd D n (.trustLevel D) (.ok (some level)) w = (w.1, { w.2 with
      asked := w.2.asked.filter (· ≠ n)
      wrong := w.2.wrong || decide (n ∈ w.2.asked ∧ Except.ok (some level) = (.ok (some .banned) : Except StoreError _)) ||
        decide (FlaggedOnly D w.1 ∧ Except.ok (some level) ≠ (.ok (some .flagged) : Except StoreError _)) }) :=
    if_pos rfl
  rw [hen]
  refine ⟨?_, fun _ => ⟨⟨hw.base.lifted, hw.base.cached⟩, ?_⟩, fun hc => absurd rfl hc⟩
  · show (w.2.wrong || decide _ || decide _) = false
    rw [hal, decide_eq_false, decide_eq_false]
    · rfl
    · rintro ⟨hfl, hne⟩
      exact hf.flagged (fun heq => hne (by rw [heq])) hfl
    · rintro ⟨hme, heq⟩
      cases heq
      rw [hf.banned rfl] at hme
      cases hme
  · refine List.filter_eq_nil_iff.mpr fun m hm => ?_
    simp [(hw.asked m hm).1]

theorem post_rest {r : Except StoreError (Option TrustLevel)} (hen : noteVerdictEnd D n c r w = w)
    (hr : c.deviceId = D → Rest D w) : (oneByOne D).Post (Rest D) (noteVerdictEnd D) n c r w := by
  intro hal
  rw [hen]
  exact ⟨hal, hr, fun _ => (oneByOne D).refl w⟩

theorem safe_concluded {p : VerdictCall Unit} (hen : ∀ {r w}, noteVerdictEnd D n c r w = w)
    (hp : TakesTurn D n c p.run (endsIn (Rest D) fun _ => Rest D) w) :
    TakesTurn D n c (conclude (fun _ => .ok none) .error p)
      ((oneByOne D).Post (Rest D) (noteVerdictEnd D) n c) w := by
  refine safe_conclude (hp.mono fun r w hr => ?_)
  cases r with
  | ok | error => exact post_rest hen fun _ => hr

theorem safe_body (hw : c.deviceId = D → Rest D w) :
    TakesTurn D n c c.body ((oneByOne D).Post (Rest D) (noteVerdictEnd D) n c) w := by
  by_cases hc : c.deviceId = D
  · have hre := hw hc
    clear hw
    cases c with
    | trustLevel d =>
      have hd : d = D := hc
      subst hd
      refine safe_conclude ((safe_trustLevelInner hc hre).mono fun r w hr => ?_)
      cases r with
      | ok level => exact post_trustLevel hr.1 hr.2
      | error e => exact post_trustLevel hr ⟨nofun, fun hne => absurd rfl hne⟩
    | clearBan d =>
      have hd : d = D := hc
      subst hd
      exact safe_concluded rfl ((safe_clearBan (Q := fun _ => True) (fun _ h => h) (fun h => h) hc
        ⟨hre, trivial⟩).mono fun r w hr => by cases r <;> [exact hr; exact hr.1])
    | clearFlag d =>
      have hd : d = D := hc
      subst hd
      exact safe_concluded rfl (safe_clearFlag hc hre)
    | setBanned d =>
      have hd : d = D := hc
      subst hd
      exact safe_concluded rfl (safe_setBanned hc hre)
    | setFlagged d =>
      have hd : d = D := hc
      subst hd
      exact safe_concluded rfl (safe_setFlagged hc hre)
  · refine Serial.safe_other (fun hq hal hexe => ?_) (asks_body hc) fun r w => post_rest ?_ fun hd => absurd hd hc
    · have he := env_of_spares hq hexe
      exact ⟨(congrArg VerdictLog.wrong he.log).trans hal, he⟩
    · cases c with
      | trustLevel d => exact if_neg hc
      | _ => rfl

/-- In every run in which the calls on the device come one after the other, a new ban that Redis has
taken reaches the database, and no lookup comes upon an expired ban of a flagged device: no lookup
that began after a ban was lifted with Ok, and before a new verdict, has said banned, and none has
said anything but flagged while the row said flagged and not banned. -/
theorem lifted_bans_are_gone {s : VerdictState} {as : List VerdictAction} {pool : VerdictPool}
    (hs : (s.bans.get s.now (banKey D)).isSome → Banned D s)
    (hcareful : Along (verdictStep D) (oneByOne D).discipline.Careful (.init (s, .empty)) as)
    (hrun : run (verdictStep D) (.init (s, .empty)) as = some pool) : pool.store.2.wrong = false := by
  have hrest : Rest D (s, .empty) := ⟨⟨nofun, hs⟩, rfl⟩
  have htick : ∀ ms w, (oneByOne D).always w → (oneByOne D).always (beside VerdictState.tick ms w) ∧
      (oneByOne D).env w (beside VerdictState.tick ms w) :=
    fun ms w halways => ⟨halways, Nat.le_add_right _ _, rfl, rfl, rfl⟩
  have hwatched : (oneByOne D).watched (.trustLevel D) := rfl
  have hright : (oneByOne D).always (s, .empty) := rfl
  exact (Serial.run_between hwatched Rest.stable (fun n c w _ _ hw => safe_body hw) htick hright hrest
    hcareful hrun).1

end

/-! ### A lookup that overlaps with the lifting of a ban -/

section

attribute [reducible] oneByOne

instance decidableNoneExpired (D : String) (s : VerdictState) : Decidable (NoneExpired D s) := by
  dsimp only [NoneExpired]
  infer_instance

instance decidableVerdictCare (D : String) (c : VerdictOp) (q : VerdictStatement) (input : Input Unit)
    (w : VerdictState × VerdictLog) : Decidable ((oneByOne D).discipline.care c q input w) := by
  cases q <;> infer_instance

def bannedDevice : VerdictState :=
  ⟨0, Function.update (fun _ => none) "d" (some ⟨true, none, true⟩), fun _ => some 0, .empty, .empty⟩

/-- A lookup puts the ban into Redis, the ban is lifted, and the next lookup says flagged. -/
theorem lifted_bans_are_gone_demo : ∃ pool : VerdictPool, run (verdictStep "d") (.init (bannedDevice, .empty))
      (.start (.trustLevel "d") :: proceeds () 0 4 ++ .start (.clearBan "d") :: proceeds () 0 2 ++
        .start (.trustLevel "d") :: proceeds () 0 4) = some pool ∧
      pool.running.length = 0 ∧ pool.store.2.lifted = true ∧ pool.store.2.wrong = false :=
  have hbanned : Banned "d" bannedDevice := ⟨⟨true, none, true⟩, by decide +kernel, rfl⟩
  reaches_with₂ (by decide +kernel) fun _ hrun _ _ => lifted_bans_are_gone (fun _ => hbanned) (by decide +kernel) hrun

/-- A ban is being lifted: it is gone from Redis when a lookup reads the row, which still has it,
and puts it back into Redis. The row is then changed and the call returns Ok; the next lookup says
banned, although the row says flagged and not banned. -/
theorem lookup_restores_a_lifted_ban : ∃ pool : VerdictPool,
    run (verdictStep "d") (.init (bannedDevice, .empty))
      (.start (.clearBan "d") :: proceeds () 0 1 ++ .start (.trustLevel "d") :: proceeds () 1 4 ++ proceeds () 0 1 ++
        .start (.trustLevel "d") :: proceeds () 0 1) = some pool ∧
      pool.running.length = 0 ∧ pool.store.2.lifted = true ∧ FlaggedOnly "d" pool.store.1 ∧
      pool.store.2.wrong = true :=
  reaches _ _ _ _ (by decide +kernel)

/-- A lookup that clears an expired ban does not look at the flag of the same row: all by itself, it
says new of a device that the row says is flagged. -/
theorem expired_ban_hides_the_flag : ∃ pool : VerdictPool,
    run (verdictStep "d") (.init (⟨5, fun _ => some ⟨true, some 4, true⟩, fun _ => none, .empty,
      .empty⟩, .empty)) (.start (.trustLevel "d") :: proceeds () 0 7) = some pool ∧
      pool.running.length = 0 ∧ FlaggedOnly "d" pool.store.1 ∧ pool.store.2.wrong = true :=
  reaches _ _ _ _ (by decide +kernel)

end

end ConstructServer.Sentinel.Verdicts
