import ConstructServer.Library.Machine
import ConstructServer.Library.RedisKeys
import ConstructServer.Queue.Envelope

/-!
# Redeeming Privacy Pass tokens

A sealed send pays with a token, or shares a unit that an earlier send to the same recipient has
paid for. A token is spent by marking its nonce for thirty days. A spent token opens a unit for
its spend id and recipient, which covers a number of further sends for two hours. Sends run side
by side, one Redis call at a time, and any call may fail or lose its reply.
-/

namespace ConstructServer.Messaging

open Queue Redis Machine Keyspace List Option Function

def spentTtlSecs : Nat := 30 * 24 * 60 * 60

def spendUnitTtlSecs : Nat := 2 * 60 * 60

def maxEnvelopesPerSpendUnit : Nat := 256

def spendIdLen : Nat := 32

inductive TokenRedeemResult
  | ok
  | unitCovered
  | missingToken
  | decryptFailed
  | invalidToken
  | doubleSpent
  | unitExhausted
  | redisError
  | notConfigured
deriving DecidableEq

inductive UnitLookup
  | covered
  | exhausted
  | needToken
  | redisError

abbrev SpendId := { id : Bytes // id.length = spendIdLen }

def normalizeSpendId (raw : Bytes) : Except Unit (Option SpendId) :=
  if raw = [] then .ok none
  else if h : raw.length = spendIdLen then .ok (some ⟨raw, h⟩)
  else .error ()

/-- The keys of the server and the libraries it calls. -/
structure TokenServer where
  configured : Bool
  sha256 : Bytes → Bytes
  openSealedTokenBytes : Bytes → Option Bytes
  verifyToken : Bytes → Bytes → Bool

/-- What a send brings to pay with. -/
structure RedeemRequest where
  tokenNonce : Bytes
  tokenBytes : Bytes
  tokenSpendId : Bytes
  recipientUserId : String

section

variable (server : TokenServer)

def unitKey (spendId : SpendId) (recipientUserId : String) : String :=
  "pp:unit:" ++ Framing.hexEncode
    (server.sha256 (spendId.val ++ utf8 "|" ++ utf8 recipientUserId))

def spentKey (nonce : Bytes) : String := "spent:" ++ Framing.hexEncode (server.sha256 nonce)

def tryCoverWithPaidUnit (units : Keyspace Nat) (now : Nat) (key : String) (o : Outcome) :
    UnitLookup × Keyspace Nat :=
  if o = .failed then (.redisError, units)
  else
    let (lookup, units) : UnitLookup × Keyspace Nat := match units.get now key with
      | none => (.needToken, units)
      | some n =>
        if maxEnvelopesPerSpendUnit ≤ n then (.exhausted, units) else (.covered, units.incr now key)
    (if o = .lost then .redisError else lookup, units)

/-- The script that opens a unit, or counts another paying send in it; whether it was opened. -/
def openSpendUnit (units : Keyspace Nat) (now : Nat) (key : String) : Keyspace Nat × Bool :=
  let (units, fresh) := units.setNX now key 1 (some spendUnitTtlSecs)
  if fresh then (units, true) else (units.incr now key, false)

def checkToken (tokenNonce tokenBytes : Bytes) : Option TokenRedeemResult :=
  if tokenNonce = [] ∨ tokenBytes = [] then some .missingToken
  else if tokenNonce.length ≠ 32 then some .invalidToken
  else
    match server.openSealedTokenBytes tokenBytes with
    | none => some .decryptFailed
    | some token =>
      if token.length ≠ 32 then some .invalidToken
      else if server.verifyToken token tokenNonce then none else some .invalidToken

def redeemToken (spent : Keyspace Unit) (now : Nat) (tokenNonce tokenBytes : Bytes) (o : Outcome) :
    TokenRedeemResult × Keyspace Unit :=
  match checkToken server tokenNonce tokenBytes with
  | some result => (result, spent)
  | none =>
    if o = .failed then (.redisError, spent)
    else
      let (spent, fresh) := spent.setNX now (spentKey server tokenNonce) () (some spentTtlSecs)
      (if o = .lost then .redisError else if fresh then .ok else .doubleSpent, spent)

end

inductive RedeemPhase
  | covering (spendId : SpendId)
  | spending (spendId : Option SpendId)
  | opening (spendId : SpendId)
deriving DecidableEq

def RedeemPhase.spendId : RedeemPhase → Option SpendId
  | .covering id => some id
  | .spending id => id
  | .opening id => some id

structure RedeemProcess where
  request : RedeemRequest
  phase : RedeemPhase

structure RedeemAnswer where
  request : RedeemRequest
  result : TokenRedeemResult
  time : Nat

/-- A token that was spent with success. -/
structure Redemption where
  nonce : Bytes
  spendId : Option SpendId
  recipientUserId : String
  time : Nat

/-- A unit from the time it was opened. -/
structure SpendUnit where
  spendId : SpendId
  recipientUserId : String
  time : Nat

/-- Redis, the sends under way, the answers, the tokens redeemed and the units opened. -/
structure TokenState where
  now : Nat
  spent : Keyspace Unit
  units : Keyspace Nat
  pool : List RedeemProcess
  answered : List RedeemAnswer
  redeemed : List Redemption
  opened : List SpendUnit

def TokenState.initial : TokenState := ⟨0, .empty, .empty, [], [], [], []⟩

inductive TokenAction
  | tick (now : Nat)
  | arrive (request : RedeemRequest)
  | cover (i : Nat) (o : Outcome)
  | spend (i : Nat) (o : Outcome)
  | openUnit (i : Nat) (o : Outcome)

section

variable (server : TokenServer)

namespace TokenState

variable (s : TokenState)

def moveOn (i : Nat) (p : RedeemProcess) (phase : RedeemPhase) : TokenState :=
  { s with pool := Machine.replace s.pool i (some { p with phase }) }

def answer (i : Nat) (p : RedeemProcess) (result : TokenRedeemResult) : TokenState :=
  { s with
    pool := Machine.replace s.pool i none
    answered := s.answered ++ [⟨p.request, result, s.now⟩] }

def arrive (request : RedeemRequest) : TokenState :=
  let refuse (result : TokenRedeemResult) : TokenState :=
    { s with answered := s.answered ++ [⟨request, result, s.now⟩] }
  if !server.configured then refuse .notConfigured
  else
    match normalizeSpendId request.tokenSpendId with
    | .error () => refuse .invalidToken
    | .ok none => { s with pool := s.pool ++ [⟨request, .spending none⟩] }
    | .ok (some id) => { s with pool := s.pool ++ [⟨request, .covering id⟩] }

def cover (i : Nat) (p : RedeemProcess) (id : SpendId) (o : Outcome) : TokenState :=
  let (lookup, units) := tryCoverWithPaidUnit s.units s.now
    (unitKey server id p.request.recipientUserId) o
  let s := { s with units }
  match lookup with
  | .covered => s.answer i p .unitCovered
  | .exhausted => s.answer i p .unitExhausted
  | .needToken => s.moveOn i p (.spending (some id))
  | .redisError => s.answer i p .redisError

def spend (i : Nat) (p : RedeemProcess) (id : Option SpendId) (o : Outcome) : TokenState :=
  let (result, spent) := redeemToken server s.spent s.now p.request.tokenNonce p.request.tokenBytes o
  let s := { s with spent }
  if result = .ok then
    let s : TokenState := { s with
      redeemed := s.redeemed ++ [⟨p.request.tokenNonce, id, p.request.recipientUserId, s.now⟩] }
    match id with
    | none => s.answer i p .ok
    | some id => s.moveOn i p (.opening id)
  else s.answer i p result

def openUnit (i : Nat) (p : RedeemProcess) (id : SpendId) (o : Outcome) : TokenState :=
  if o = .failed then s.answer i p .ok
  else
    let (units, fresh) := openSpendUnit s.units s.now (unitKey server id p.request.recipientUserId)
    let opened := if fresh then s.opened ++ [⟨id, p.request.recipientUserId, s.now⟩] else s.opened
    { s with units, opened }.answer i p .ok

def step (s : TokenState) : TokenAction → Option TokenState
  | .tick now => if s.now ≤ now then some { s with now } else none
  | .arrive request => some (s.arrive server request)
  | .cover i o =>
    match s.pool[i]? with
    | some p => match p.phase with
      | .covering id => some (s.cover server i p id o)
      | _ => none
    | none => none
  | .spend i o =>
    match s.pool[i]? with
    | some p => match p.phase with
      | .spending id => some (s.spend server i p id o)
      | _ => none
    | none => none
  | .openUnit i o =>
    match s.pool[i]? with
    | some p => match p.phase with
      | .opening id => some (s.openUnit server i p id o)
      | _ => none
    | none => none

end TokenState

end

/-- The send was answered as covered, under the id and for the recipient of the unit and while it
lasts. -/
def RedeemAnswer.coveredBy (a : RedeemAnswer) (u : SpendUnit) : Bool :=
  a.result = .unitCovered ∧ a.request.tokenSpendId = u.spendId.val ∧
    a.request.recipientUserId = u.recipientUserId ∧ u.time ≤ a.time ∧
    a.time ≤ u.time + spendUnitTtlSecs * 1000

def Redemption.paysFor (r : Redemption) (id : SpendId) (recipientUserId : String) : Bool :=
  r.spendId = some id ∧ r.recipientUserId = recipientUserId

def SpendUnit.isFor (u : SpendUnit) (id : SpendId) (recipientUserId : String) : Bool :=
  u.spendId = id ∧ u.recipientUserId = recipientUserId

def RedeemProcess.opens (p : RedeemProcess) (id : SpendId) (recipientUserId : String) : Bool :=
  p.phase = .opening id ∧ p.request.recipientUserId = recipientUserId

structure TokensPayOnce (s : TokenState) : Prop where
  once : ∀ nonce start, s.redeemed.countP (fun r => r.nonce = nonce ∧ start ≤ r.time ∧
    r.time < start + spentTtlSecs * 1000) ≤ 1
  covered : ∀ a ∈ s.answered, a.result = .unitCovered → ∃ u ∈ s.opened, a.coveredBy u = true ∧
    ∃ r ∈ s.redeemed, r.paysFor u.spendId u.recipientUserId = true ∧ r.time ≤ u.time
  bounded : ∀ u ∈ s.opened, s.answered.countP (·.coveredBy u) ≤ maxEnvelopesPerSpendUnit
  paid : ∀ id recipientUserId, s.opened.countP (·.isFor id recipientUserId) ≤
    s.redeemed.countP (·.paysFor id recipientUserId)

section

variable {server : TokenServer}

theorem unitKey_injective (hsh : Injective server.sha256) {id id' : SpendId}
    {r r' : String} (h : unitKey server id r = unitKey server id' r') : id = id' ∧ r = r' := by
  have hby : id.val ++ utf8 "|" ++ utf8 r = id'.val ++ utf8 "|" ++ utf8 r' :=
    hsh (Framing.hexEncode_injective (String.append_right_inj _ |>.mp h))
  rw [append_assoc, append_assoc] at hby
  obtain ⟨hid, hr⟩ := append_inj hby (id.property.trans id'.property.symm)
  exact ⟨Subtype.ext hid, utf8_injective (append_cancel_left hr)⟩

end

section

variable (server : TokenServer)

structure SpentInvariant (now : Nat) (spent : Keyspace Unit) (redeemed : List Redemption) :
    Prop where
  logged : spent.Logged now spentTtlSecs (redeemed.map fun r => (spentKey server r.nonce, r.time))
  spread : redeemed.Pairwise fun a b => a.nonce = b.nonce → a.time + spentTtlSecs * 1000 < b.time

/-- The counters of the units: each counts the sends that its unit has covered and one that paid. -/
structure UnitInvariant (now : Nat) (units : Keyspace Nat) (answered : List RedeemAnswer)
    (opened : List SpendUnit) : Prop where
  logged : units.Logged now spendUnitTtlSecs
    (opened.map fun u => (unitKey server u.spendId u.recipientUserId, u.time))
  unitOf : ∀ k c, units k = some c → ∃ u ∈ opened, unitKey server u.spendId u.recipientUserId = k ∧
    c.deadline = some (u.time + spendUnitTtlSecs * 1000)
  answeredBefore : ∀ a ∈ answered, a.time ≤ now
  covered : ∀ a ∈ answered, a.result = .unitCovered → ∃ u ∈ opened, a.coveredBy u = true
  bounded : ∀ u ∈ opened, answered.countP (·.coveredBy u) < maxEnvelopesPerSpendUnit
  counted : ∀ u ∈ opened, now ≤ u.time + spendUnitTtlSecs * 1000 →
    ∀ c, units (unitKey server u.spendId u.recipientUserId) = some c →
      answered.countP (·.coveredBy u) < c.value

/-- Every unit that is open or about to be opened is paid for by a token of its own. -/
structure PaidInvariant (now : Nat) (pool : List RedeemProcess) (opened : List SpendUnit)
    (redeemed : List Redemption) : Prop where
  before : ∀ u ∈ opened, ∃ r ∈ redeemed, r.paysFor u.spendId u.recipientUserId = true ∧
    r.time ≤ u.time
  redeemedBefore : ∀ r ∈ redeemed, r.time ≤ now
  spendIds : ∀ p ∈ pool, ∀ id ∈ p.phase.spendId, p.request.tokenSpendId = id.val
  paid : ∀ id recipientUserId, opened.countP (·.isFor id recipientUserId) +
    pool.countP (·.opens id recipientUserId) ≤ redeemed.countP (·.paysFor id recipientUserId)

end

section

variable {server : TokenServer} {now : Nat} {spent : Keyspace Unit} {redeemed : List Redemption}
  (hinv : SpentInvariant server now spent redeemed)

include hinv

theorem SpentInvariant.tick {now' : Nat} (hle : now ≤ now') : SpentInvariant server now' spent redeemed :=
  ⟨hinv.logged.tick hle, hinv.spread⟩

theorem SpentInvariant.mark {k : String} (hg : spent.get now k = none) :
    SpentInvariant server now (spent.set now k () (some spentTtlSecs)) redeemed :=
  ⟨fun e he => hinv.logged.set hg () e (mem_append_left _ he), hinv.spread⟩

theorem SpentInvariant.redeem {r : Redemption}
    (hg : spent.get now (spentKey server r.nonce) = none) (hti : r.time = now) :
    SpentInvariant server now (spent.set now (spentKey server r.nonce) () (some spentTtlSecs)) (redeemed ++ [r]) := by
  constructor
  · rw [map_append, map_singleton, hti]
    exact hinv.logged.set hg ()
  · rw [pairwise_append]
    refine ⟨hinv.spread, pairwise_singleton _ _, ?_⟩
    intro a ha b hb hno
    obtain rfl := mem_singleton.mp hb
    rw [hti]
    refine hinv.logged.expired hg (mem_map.mpr ⟨a, ha, ?_⟩)
    rw [hno]

end

theorem countP_le_one_of_spread {redeemed : List Redemption}
    (h : redeemed.Pairwise fun a b => a.nonce = b.nonce → a.time + spentTtlSecs * 1000 < b.time)
    (nonce : Bytes) (start : Nat) : redeemed.countP (fun r => r.nonce = nonce ∧ start ≤ r.time ∧
      r.time < start + spentTtlSecs * 1000) ≤ 1 := by
  induction redeemed with
  | nil => exact Nat.zero_le 1
  | cons r redeemed ih =>
    obtain ⟨hr, hre⟩ := pairwise_cons.mp h
    rw [countP_cons]
    split_ifs with hw
    · obtain ⟨hno, hst, -⟩ := of_decide_eq_true hw
      have hn : redeemed.countP (fun r => r.nonce = nonce ∧ start ≤ r.time ∧
          r.time < start + spentTtlSecs * 1000) = 0 := by
        rw [countP_eq_zero]
        intro r' hr' hw'
        obtain ⟨hn', -, hen⟩ := of_decide_eq_true hw'
        have := hr r' hr' (hno.trans hn'.symm)
        omega
      rw [hn]
    · exact ih hre

section

variable {server : TokenServer} {now : Nat} {units : Keyspace Nat} {answered : List RedeemAnswer}
  {opened : List SpendUnit} (hinv : UnitInvariant server now units answered opened)

include hinv

theorem UnitInvariant.tick {now' : Nat} (hle : now ≤ now') :
    UnitInvariant server now' units answered opened where
  logged := hinv.logged.tick hle
  unitOf := hinv.unitOf
  answeredBefore a ha := (hinv.answeredBefore a ha).trans hle
  covered := hinv.covered
  bounded := hinv.bounded
  counted u hu hlt := hinv.counted u hu (hle.trans hlt)

theorem UnitInvariant.answer {a : RedeemAnswer} (hti : a.time = now) (hr : a.result ≠ .unitCovered) :
    UnitInvariant server now units (answered ++ [a]) opened := by
  have hcou : ∀ u, (answered ++ [a]).countP (·.coveredBy u) = answered.countP (·.coveredBy u) := by
    intro u
    simp [countP_append, RedeemAnswer.coveredBy, hr]
  refine ⟨hinv.logged, hinv.unitOf, ?_, ?_, ?_, ?_⟩
  · intro b hb
    rcases mem_concat hb with hb | rfl
    · exact hinv.answeredBefore b hb
    · rw [hti]
  · intro b hb hco
    rcases mem_concat hb with hb | rfl
    · exact hinv.covered b hb hco
    · exact absurd hco hr
  · intro u hu
    rw [hcou]
    exact hinv.bounded u hu
  · intro u hu
    rw [hcou]
    exact hinv.counted u hu

variable {n : Nat}

theorem UnitInvariant.unitOf_incr {k : String} (hg : units.get now k = some n) :
    ∀ k' c, units.incr now k k' = some c → ∃ u ∈ opened, unitKey server u.spendId u.recipientUserId = k' ∧
        c.deadline = some (u.time + spendUnitTtlSecs * 1000) := by
  intro k' c hc
  by_cases hk : k' = k
  · obtain ⟨c₀, hce, hl, -⟩ := get_eq_some_iff.mp hg
    rw [hk, incr_apply_self hce hl] at hc
    obtain rfl := some_inj.mp hc
    rw [hk]
    exact hinv.unitOf k c₀ hce
  · rw [incr_apply_of_ne hk] at hc
    exact hinv.unitOf k' c hc

theorem UnitInvariant.counted_incr {k : String} (hg : units.get now k = some n)
    {u : SpendUnit} (hu : u ∈ opened) (hlt : now ≤ u.time + spendUnitTtlSecs * 1000) {c : Cell Nat}
    (hc : units.incr now k (unitKey server u.spendId u.recipientUserId) = some c) :
    if unitKey server u.spendId u.recipientUserId = k then answered.countP (·.coveredBy u) < n ∧
      c.value = n + 1
    else answered.countP (·.coveredBy u) < c.value := by
  obtain ⟨c₀, hce, hl, hva⟩ := get_eq_some_iff.mp hg
  split_ifs with hk
  · rw [hk, incr_apply_self hce hl] at hc
    obtain rfl := some_inj.mp hc
    have hco := hinv.counted u hu hlt c₀ (hk ▸ hce)
    rw [hva] at hco
    exact ⟨hco, by rw [hva]⟩
  · rw [incr_apply_of_ne hk] at hc
    exact hinv.counted u hu hlt c hc

theorem UnitInvariant.incr {k : String} (hg : units.get now k = some n) :
    UnitInvariant server now (units.incr now k) answered opened where
  logged := hinv.logged.incr
  unitOf := hinv.unitOf_incr hg
  answeredBefore := hinv.answeredBefore
  covered := hinv.covered
  bounded := hinv.bounded
  counted u hu hlt c hc := by
    have h := hinv.counted_incr hg hu hlt hc
    split_ifs at h <;> omega

theorem UnitInvariant.exists_unit (hsh : Injective server.sha256) {id : SpendId}
    {recipientUserId : String} (hg : units.get now (unitKey server id recipientUserId) = some n) :
    ∃ u ∈ opened, u.spendId = id ∧ u.recipientUserId = recipientUserId ∧ u.time ≤ now ∧
      now ≤ u.time + spendUnitTtlSecs * 1000 := by
  obtain ⟨c, hce, hl, -⟩ := get_eq_some_iff.mp hg
  obtain ⟨u, hu, hk, hd⟩ := hinv.unitOf _ c hce
  obtain ⟨hid, hre⟩ := unitKey_injective hsh hk
  have hti := (hinv.logged _ (mem_map.mpr ⟨u, hu, rfl⟩)).1
  rw [Cell.live, hd, all_some, decide_eq_true_eq] at hl
  exact ⟨u, hu, hid, hre, hti, hl⟩

theorem UnitInvariant.cover (hsh : Injective server.sha256) {id : SpendId}
    {a : RedeemAnswer} (hid : a.request.tokenSpendId = id.val) (hti : a.time = now)
    (hg : units.get now (unitKey server id a.request.recipientUserId) = some n)
    (hlt : n < maxEnvelopesPerSpendUnit) :
    UnitInvariant server now (units.incr now (unitKey server id a.request.recipientUserId))
      (answered ++ [a]) opened := by
  have hke : ∀ u, a.coveredBy u = true →
      unitKey server u.spendId u.recipientUserId = unitKey server id a.request.recipientUserId ∧
        now ≤ u.time + spendUnitTtlSecs * 1000 := by
    intro u hco
    simp only [RedeemAnswer.coveredBy, decide_eq_true_eq, hid, hti] at hco
    obtain ⟨-, hsp, hre, -, hw⟩ := hco
    rw [hre, Subtype.ext hsp]
    exact ⟨rfl, hw⟩
  have hcou : ∀ u, (answered ++ [a]).countP (·.coveredBy u) =
      answered.countP (·.coveredBy u) + if a.coveredBy u then 1 else 0 := by
    intro u
    rw [countP_append, countP_singleton]
  obtain ⟨c₀, hce, hl, hva⟩ := get_eq_some_iff.mp hg
  refine ⟨hinv.logged.incr, hinv.unitOf_incr hg, ?_, ?_, ?_, ?_⟩
  · intro b hb
    rcases mem_concat hb with hb | rfl
    · exact hinv.answeredBefore b hb
    · rw [hti]
  · intro b hb hco
    rcases mem_concat hb with hb | rfl
    · exact hinv.covered b hb hco
    · obtain ⟨u, hu, hsp, hre, hst, hen⟩ := hinv.exists_unit hsh hg
      refine ⟨u, hu, ?_⟩
      simp [RedeemAnswer.coveredBy, hco, hid, hsp, hre, hti, hst, hen]
  · intro u hu
    rw [hcou]
    split_ifs with hco
    · -- The counter was below the limit and above what the unit had covered.
      obtain ⟨hk, hw⟩ := hke u hco
      have hcoun := hinv.counted u hu hw c₀ (hk ▸ hce)
      omega
    · exact hinv.bounded u hu
  · intro u hu hw c hc
    have h := hinv.counted_incr hg hu hw hc
    rw [hcou]
    by_cases hco : a.coveredBy u = true
    · rw [if_pos (hke u hco).1] at h
      rw [if_pos hco]
      omega
    · rw [if_neg hco]
      split_ifs at h <;> omega

theorem UnitInvariant.openUnit (u : SpendUnit) (hti : u.time = now)
    (hg : units.get now (unitKey server u.spendId u.recipientUserId) = none) :
    UnitInvariant server now (units.set now (unitKey server u.spendId u.recipientUserId) 1
      (some spendUnitTtlSecs)) answered (opened ++ [u]) := by
  have he : ∀ u' ∈ opened, unitKey server u'.spendId u'.recipientUserId =
      unitKey server u.spendId u.recipientUserId →
        u'.time + spendUnitTtlSecs * 1000 < now := by
    intro u' hu' hke
    refine hinv.logged.expired hg (mem_map.mpr ⟨u', hu', ?_⟩)
    rw [hke]
  have hno : answered.countP (·.coveredBy u) = 0 := by
    rw [countP_eq_zero]
    intro a ha hco
    have hbe := hinv.answeredBefore a ha
    simp only [RedeemAnswer.coveredBy, decide_eq_true_eq] at hco
    obtain ⟨hr, hsp, hre, hst, -⟩ := hco
    obtain ⟨u', hu', hc'⟩ := hinv.covered a ha hr
    simp only [RedeemAnswer.coveredBy, decide_eq_true_eq] at hc'
    obtain ⟨-, hs', hr', -, hen⟩ := hc'
    have hke : unitKey server u'.spendId u'.recipientUserId =
        unitKey server u.spendId u.recipientUserId := by
      rw [Subtype.ext (hs'.symm.trans hsp), ← hr', hre]
    have := he u' hu' hke
    omega
  refine ⟨?_, ?_, hinv.answeredBefore, ?_, ?_, ?_⟩
  · rw [map_append, map_singleton, hti]
    exact hinv.logged.set hg 1
  · intro k c hc
    by_cases hk : k = unitKey server u.spendId u.recipientUserId
    · rw [hk, Keyspace.set, update_self] at hc
      obtain rfl := some_inj.mp hc
      exact ⟨u, by simp, hk.symm, by simp [hti]⟩
    · rw [Keyspace.set, update_of_ne hk] at hc
      obtain ⟨u', hu', hke, hd⟩ := hinv.unitOf k c hc
      exact ⟨u', mem_append_left _ hu', hke, hd⟩
  · intro a ha hr
    obtain ⟨u', hu', hco⟩ := hinv.covered a ha hr
    exact ⟨u', mem_append_left _ hu', hco⟩
  · intro u' hu'
    rcases mem_append.mp hu' with hu' | hu'
    · exact hinv.bounded u' hu'
    · rw [mem_singleton.mp hu', hno]
      decide
  · intro u' hu' hw c hc
    rcases mem_append.mp hu' with hu' | hu'
    · by_cases hk : unitKey server u'.spendId u'.recipientUserId =
          unitKey server u.spendId u.recipientUserId
      · exact absurd hw (he u' hu' hk).not_ge
      · rw [Keyspace.set, update_of_ne hk] at hc
        exact hinv.counted u' hu' hw c hc
    · obtain rfl := mem_singleton.mp hu'
      rw [Keyspace.set, update_self] at hc
      obtain rfl := some_inj.mp hc
      rw [hno]
      exact Nat.one_pos

end

section

variable {now i : Nat} {pool : List RedeemProcess} {opened : List SpendUnit}
  {redeemed : List Redemption} {p : RedeemProcess}
  (hinv : PaidInvariant now pool opened redeemed)

include hinv

theorem PaidInvariant.tick {now' : Nat} (hle : now ≤ now') : PaidInvariant now' pool opened redeemed where
  before := hinv.before
  redeemedBefore r hr := (hinv.redeemedBefore r hr).trans hle
  spendIds := hinv.spendIds
  paid := hinv.paid

variable {next : Option RedeemProcess}

theorem PaidInvariant.spendIds_replace (hp : pool[i]? = some p)
    (hn : ∀ q ∈ next, q.request = p.request ∧ q.phase.spendId = p.phase.spendId) :
    ∀ q ∈ Machine.replace pool i next, ∀ id ∈ q.phase.spendId, q.request.tokenSpendId = id.val := by
  intro q hq id hid
  rcases mem_or_mem_of_replace hq with hq | hq
  · exact hinv.spendIds q hq id hid
  · obtain ⟨hre, hsId⟩ := hn q hq
    rw [hre]
    exact hinv.spendIds p (mem_of_getElem? hp) id (hsId ▸ hid)

theorem PaidInvariant.arrive (hp : ∀ id, p.phase ≠ .opening id)
    (hsIds : ∀ id ∈ p.phase.spendId, p.request.tokenSpendId = id.val) :
    PaidInvariant now (pool ++ [p]) opened redeemed where
  before := hinv.before
  redeemedBefore := hinv.redeemedBefore
  spendIds := by
    intro q hq
    rcases mem_concat hq with hq | rfl
    · exact hinv.spendIds q hq
    · exact hsIds
  paid id recipientUserId := by
    have h := hinv.paid id recipientUserId
    simpa [countP_append, RedeemProcess.opens, hp] using h

theorem PaidInvariant.replace (hp : pool[i]? = some p)
    (hn : ∀ q ∈ next, q.request = p.request ∧ q.phase.spendId = p.phase.spendId)
    (hph : ∀ q ∈ next, ∀ id, q.phase ≠ .opening id) :
    PaidInvariant now (Machine.replace pool i next) opened redeemed where
  before := hinv.before
  redeemedBefore := hinv.redeemedBefore
  spendIds := hinv.spendIds_replace hp hn
  paid id recipientUserId := by
    have h := hinv.paid id recipientUserId
    have hco := countP_replace next (·.opens id recipientUserId) hp
    have hno : next.toList.countP (·.opens id recipientUserId) = 0 := by
      rw [countP_eq_zero]
      intro q hq hop
      simp only [RedeemProcess.opens, decide_eq_true_eq] at hop
      exact hph q (mem_toList.mp hq) id hop.1
    omega

theorem PaidInvariant.redeem (hp : pool[i]? = some p)
    (hn : ∀ q ∈ next, q.request = p.request ∧ q.phase.spendId = p.phase.spendId)
    {r : Redemption} (hti : r.time = now) (hr : ∀ q ∈ next, ∀ id, q.phase = .opening id →
      r.paysFor id q.request.recipientUserId = true) :
    PaidInvariant now (Machine.replace pool i next) opened (redeemed ++ [r]) where
  before u hu := by
    obtain ⟨r', hr', hpa⟩ := hinv.before u hu
    exact ⟨r', mem_append_left _ hr', hpa⟩
  redeemedBefore r' hr' := by
    rcases mem_append.mp hr' with hr' | hr'
    · exact hinv.redeemedBefore r' hr'
    · rw [mem_singleton.mp hr', hti]
  spendIds := hinv.spendIds_replace hp hn
  paid id recipientUserId := by
    have h := hinv.paid id recipientUserId
    have hco := countP_replace next (·.opens id recipientUserId) hp
    have hne : next.toList.countP (·.opens id recipientUserId) ≤
        if r.paysFor id recipientUserId then 1 else 0 := by
      cases next with
      | none => simp
      | some q =>
        rw [toList_some, countP_singleton]
        split_ifs with hop hpa
        · exact le_rfl
        · simp only [RedeemProcess.opens, decide_eq_true_eq] at hop
          rw [← hop.2] at hpa
          exact absurd (hr q rfl id hop.1) hpa
        · exact Nat.zero_le _
        · exact le_rfl
    rw [countP_append, countP_singleton]
    omega

theorem PaidInvariant.openUnit {id : SpendId} (hp : pool[i]? = some p)
    (hph : p.phase = .opening id) {u : SpendUnit} (hid : u.spendId = id)
    (hre : u.recipientUserId = p.request.recipientUserId) (hti : u.time = now) :
    PaidInvariant now (Machine.replace pool i none) (opened ++ [u]) redeemed where
  before u' hu' := by
    rcases mem_append.mp hu' with hu' | hu'
    · exact hinv.before u' hu'
    · rw [mem_singleton.mp hu']
      -- The send itself is counted among those that have paid, so there is a token.
      have h := hinv.paid u.spendId u.recipientUserId
      have hse : 0 < pool.countP (·.opens u.spendId u.recipientUserId) := by
        rw [countP_pos_iff]
        exact ⟨p, mem_of_getElem? hp, by simp [RedeemProcess.opens, hph, hid, hre]⟩
      have hpo : 0 < redeemed.countP (·.paysFor u.spendId u.recipientUserId) := by omega
      obtain ⟨r, hr, hpa⟩ := countP_pos_iff.mp hpo
      exact ⟨r, hr, hpa, hti ▸ hinv.redeemedBefore r hr⟩
  redeemedBefore := hinv.redeemedBefore
  spendIds := hinv.spendIds_replace hp (by simp)
  paid id' recipientUserId := by
    have h := hinv.paid id' recipientUserId
    have hco := countP_replace none (·.opens id' recipientUserId) hp
    have hs : u.isFor id' recipientUserId = p.opens id' recipientUserId := by
      simp [SpendUnit.isFor, RedeemProcess.opens, hph, hid, hre]
    rw [toList_none, countP_nil] at hco
    rw [countP_append, countP_singleton, hs]
    omega

end

structure TokenInvariant (server : TokenServer) (s : TokenState) : Prop where
  spent : SpentInvariant server s.now s.spent s.redeemed
  units : UnitInvariant server s.now s.units s.answered s.opened
  paid : PaidInvariant s.now s.pool s.opened s.redeemed

section

variable {server : TokenServer} {s t : TokenState} {i : Nat} {p : RedeemProcess}

theorem normalizeSpendId_some {raw : Bytes} {id : SpendId}
    (h : normalizeSpendId raw = .ok (some id)) : raw = id.val := by
  unfold normalizeSpendId at h
  split_ifs at h
  · cases h
  · cases h
    rfl

theorem checkToken_ne {nonce bytes : Bytes} {result : TokenRedeemResult}
    (h : checkToken server nonce bytes = some result) : result ≠ .ok ∧ result ≠ .unitCovered := by
  unfold checkToken at h
  split_ifs at h
  · cases h
    decide
  · cases h
    decide
  · split at h
    · cases h
      decide
    · split_ifs at h <;> cases h
      · decide
      · decide

theorem redeemToken_eq {spent spent' : Keyspace Unit} {now : Nat} {nonce bytes : Bytes} {o : Outcome}
    {result : TokenRedeemResult} (h : redeemToken server spent now nonce bytes o = (result, spent')) :
    (result ≠ .ok ∧ result ≠ .unitCovered ∧ spent' = spent) ∨
      (result = .redisError ∨ result = .ok) ∧ spent.get now (spentKey server nonce) = none ∧
        spent' = spent.set now (spentKey server nonce) () (some spentTtlSecs) := by
  unfold redeemToken at h
  cases hch : checkToken server nonce bytes with
  | some refused =>
    simp only [hch, Prod.mk.injEq] at h
    obtain ⟨rfl, rfl⟩ := h
    exact .inl ⟨(checkToken_ne hch).1, (checkToken_ne hch).2, rfl⟩
  | none =>
    simp only [hch] at h
    by_cases ho : o = .failed
    · simp only [if_pos ho, Prod.mk.injEq] at h
      obtain ⟨rfl, rfl⟩ := h
      exact .inl (by simp)
    rcases hset : spent.setNX now (spentKey server nonce) () (some spentTtlSecs) with ⟨marks, fresh⟩
    simp only [if_neg ho, hset, Prod.mk.injEq] at h
    obtain ⟨rfl, rfl⟩ := h
    rcases setNX_eq hset with ⟨rfl, hg, rfl⟩ | ⟨rfl, hg, rfl⟩
    · by_cases hl : o = .lost <;> simp [hl, hg]
    · by_cases hl : o = .lost <;> simp [hl]

theorem tryCover_eq {units units' : Keyspace Nat} {now : Nat} {key : String} {o : Outcome}
    {lookup : UnitLookup} (h : tryCoverWithPaidUnit units now key o = (lookup, units')) :
    (lookup ≠ .covered ∧ units' = units) ∨
      (lookup = .covered ∨ lookup = .redisError) ∧ ∃ n, units.get now key = some n ∧
        n < maxEnvelopesPerSpendUnit ∧ units' = units.incr now key := by
  unfold tryCoverWithPaidUnit at h
  by_cases ho : o = .failed
  · simp only [if_pos ho, Prod.mk.injEq] at h
    obtain ⟨rfl, rfl⟩ := h
    exact .inl (by simp)
  rw [if_neg ho] at h
  cases hg : units.get now key with
  | none =>
    simp only [hg, Prod.mk.injEq] at h
    obtain ⟨rfl, rfl⟩ := h
    by_cases hl : o = .lost <;> simp [hl]
  | some n =>
    by_cases hma : maxEnvelopesPerSpendUnit ≤ n
    · simp only [hg, if_pos hma, Prod.mk.injEq] at h
      obtain ⟨rfl, rfl⟩ := h
      by_cases hl : o = .lost <;> simp [hl]
    · simp only [hg, if_neg hma, Prod.mk.injEq] at h
      obtain ⟨rfl, rfl⟩ := h
      refine .inr ⟨?_, n, rfl, by omega, rfl⟩
      by_cases hl : o = .lost <;> simp [hl]

namespace TokenInvariant

variable (hinv : TokenInvariant server s)

include hinv

theorem answer (hp : s.pool[i]? = some p) {result : TokenRedeemResult}
    (hr : result ≠ .unitCovered) : TokenInvariant server (s.answer i p result) where
  spent := hinv.spent
  units := hinv.units.answer rfl hr
  paid := hinv.paid.replace hp (by simp) (by simp)

theorem arrive (request : RedeemRequest) : TokenInvariant server (s.arrive server request) := by
  have hre : ∀ result, result ≠ .unitCovered →
      TokenInvariant server { s with answered := s.answered ++ [⟨request, result, s.now⟩] } :=
    fun result hr => ⟨hinv.spent, hinv.units.answer rfl hr, hinv.paid⟩
  unfold TokenState.arrive
  split_ifs
  · exact hre .notConfigured (by decide)
  cases hid : normalizeSpendId request.tokenSpendId with
  | error e => exact hre .invalidToken (by decide)
  | ok id =>
    cases id with
    | none =>
      refine ⟨hinv.spent, hinv.units, hinv.paid.arrive (by simp) ?_⟩
      simp [RedeemPhase.spendId]
    | some id =>
      refine ⟨hinv.spent, hinv.units, hinv.paid.arrive (by simp) ?_⟩
      intro id' hid'
      obtain rfl := some_inj.mp hid'
      exact normalizeSpendId_some hid

theorem cover (hsh : Injective server.sha256) (hp : s.pool[i]? = some p) {id : SpendId}
    (hph : p.phase = .covering id) (o : Outcome) : TokenInvariant server (s.cover server i p id o) := by
  have hid : p.request.tokenSpendId = id.val :=
    hinv.paid.spendIds p (mem_of_getElem? hp) id (by simp [hph, RedeemPhase.spendId])
  unfold TokenState.cover
  rcases hca : tryCoverWithPaidUnit s.units s.now (unitKey server id p.request.recipientUserId) o
    with ⟨lookup, units⟩
  rcases tryCover_eq hca with ⟨hl, rfl⟩ | ⟨hl, n, hg, hlt, rfl⟩
  · cases lookup with
    | covered => exact absurd rfl hl
    | exhausted | redisError => exact hinv.answer hp (by decide)
    | needToken =>
      refine ⟨hinv.spent, hinv.units, hinv.paid.replace hp ?_ ?_⟩
      · intro q hq
        obtain rfl := some_inj.mp hq
        exact ⟨rfl, by rw [hph]; rfl⟩
      · intro q hq id'
        obtain rfl := some_inj.mp hq
        simp
  · rcases hl with rfl | rfl
    · refine ⟨hinv.spent, ?_, hinv.paid.replace hp (by simp) (by simp)⟩
      exact hinv.units.cover (a := ⟨p.request, .unitCovered, s.now⟩) hsh hid rfl hg hlt
    · exact ⟨hinv.spent, (hinv.units.incr hg).answer rfl (by simp),
        hinv.paid.replace hp (by simp) (by simp)⟩

theorem spend (hp : s.pool[i]? = some p) {id : Option SpendId} (hph : p.phase = .spending id)
    (o : Outcome) : TokenInvariant server (s.spend server i p id o) := by
  unfold TokenState.spend
  rcases hca : redeemToken server s.spent s.now p.request.tokenNonce p.request.tokenBytes o with ⟨result, spent⟩
  dsimp only
  rcases redeemToken_eq hca with ⟨hok, hco, rfl⟩ | ⟨rfl | rfl, hg, rfl⟩
  · rw [if_neg hok]
    exact hinv.answer hp hco
  · rw [if_neg (by decide)]
    exact ⟨hinv.spent.mark hg, hinv.units.answer rfl (by simp),
      hinv.paid.replace hp (by simp) (by simp)⟩
  · rw [if_pos rfl]
    have hs : SpentInvariant server s.now
        (s.spent.set s.now (spentKey server p.request.tokenNonce) () (some spentTtlSecs))
        (s.redeemed ++ [⟨p.request.tokenNonce, id, p.request.recipientUserId, s.now⟩]) :=
      hinv.spent.redeem (r := ⟨p.request.tokenNonce, id, p.request.recipientUserId, s.now⟩) hg rfl
    cases id with
    | none =>
      exact ⟨hs, hinv.units.answer rfl (by simp), hinv.paid.redeem hp (by simp) rfl (by simp)⟩
    | some id =>
      refine ⟨hs, hinv.units, hinv.paid.redeem hp ?_ rfl ?_⟩
      · intro q hq
        obtain rfl := some_inj.mp hq
        exact ⟨rfl, by rw [hph]; rfl⟩
      · intro q hq id' hid'
        obtain rfl := some_inj.mp hq
        cases hid'
        simp [Redemption.paysFor]

theorem openUnit (hp : s.pool[i]? = some p) {id : SpendId} (hph : p.phase = .opening id)
    (o : Outcome) : TokenInvariant server (s.openUnit server i p id o) := by
  unfold TokenState.openUnit openSpendUnit
  split_ifs with ho
  · exact hinv.answer hp (by decide)
  rcases hset : s.units.setNX s.now (unitKey server id p.request.recipientUserId) 1
    (some spendUnitTtlSecs) with ⟨units, fresh⟩
  rcases setNX_eq hset with ⟨rfl, hg, rfl⟩ | ⟨rfl, hg, rfl⟩
  · refine ⟨hinv.spent, ?_, hinv.paid.openUnit hp hph rfl rfl rfl⟩
    exact (hinv.units.openUnit ⟨id, p.request.recipientUserId, s.now⟩ rfl hg).answer rfl (by simp)
  · obtain ⟨n, hn⟩ := isSome_iff_exists.mp hg
    exact ⟨hinv.spent, (hinv.units.incr hn).answer rfl (by simp),
      hinv.paid.replace hp (by simp) (by simp)⟩

end TokenInvariant

theorem tokenInvariant_initial : TokenInvariant server .initial where
  spent := ⟨logged_nil, List.Pairwise.nil⟩
  units :=
    { logged := logged_nil
      unitOf := fun _ _ h => by cases h
      answeredBefore := fun _ h => by cases h
      covered := fun _ h => by cases h
      bounded := fun _ h => by cases h
      counted := fun _ h => by cases h }
  paid :=
    { before := fun _ h => by cases h
      redeemedBefore := fun _ h => by cases h
      spendIds := fun _ h => by cases h
      paid := fun _ _ => le_rfl }

theorem tokenInvariant_step {action : TokenAction} (hsh : Injective server.sha256)
    (hinv : TokenInvariant server s) (hst : s.step server action = some t) : TokenInvariant server t := by
  cases action with
  | tick now =>
    simp only [TokenState.step, ite_none_right_eq_some, some_inj] at hst
    obtain ⟨hle, rfl⟩ := hst
    exact ⟨hinv.spent.tick hle, hinv.units.tick hle, hinv.paid.tick hle⟩
  | arrive request =>
    obtain rfl := some_inj.mp hst
    exact hinv.arrive request
  | cover i o =>
    simp only [TokenState.step] at hst
    split at hst
    · split at hst <;> cases hst
      exact hinv.cover hsh ‹_› ‹_› o
    · cases hst
  | spend i o =>
    simp only [TokenState.step] at hst
    split at hst
    · split at hst <;> cases hst
      exact hinv.spend ‹_› ‹_› o
    · cases hst
  | openUnit i o =>
    simp only [TokenState.step] at hst
    split at hst
    · split at hst <;> cases hst
      exact hinv.openUnit ‹_› ‹_› o
    · cases hst

/-- **In every run, tokens pay once.** -/
theorem run_tokensPayOnce {actions : List TokenAction} (hsha : Injective server.sha256)
    (hrun : run (TokenState.step server) .initial actions = some s) : TokensPayOnce s := by
  have hinv : TokenInvariant server s :=
    run_invariant (G := fun _ _ => True) (fun hinv _ => tokenInvariant_step hsha hinv)
      tokenInvariant_initial (along_of_forall fun _ _ => trivial) hrun
  constructor
  · exact countP_le_one_of_spread hinv.spent.spread
  · intro a ha hresult
    obtain ⟨u, hu, hcovered⟩ := hinv.units.covered a ha hresult
    exact ⟨u, hu, hcovered, hinv.paid.before u hu⟩
  · intro u hu
    exact (hinv.units.bounded u hu).le
  · intro id recipientUserId
    exact (Nat.le_add_right _ _).trans (hinv.paid.paid id recipientUserId)

end

def lenientServer : TokenServer := ⟨true, id, some, fun _ _ => true⟩

def nonceOf (n : UInt8) : Bytes := List.replicate 32 n

def oneToken : List TokenAction :=
  [.arrive ⟨nonceOf 1, nonceOf 2, nonceOf 3, "bob"⟩, .cover 0 .ok, .spend 0 .ok, .openUnit 0 .ok,
    .arrive ⟨[], [], nonceOf 3, "bob"⟩, .cover 0 .ok,
    .arrive ⟨nonceOf 1, nonceOf 2, [], "bob"⟩, .spend 0 .ok,
    .arrive ⟨[], [], nonceOf 3, "carol"⟩, .cover 0 .ok, .spend 0 .ok]

theorem oneToken_paysOnce : ∃ t, run (TokenState.step lenientServer) .initial oneToken = some t ∧
      t.answered.map RedeemAnswer.result = [.ok, .unitCovered, .doubleSpent, .missingToken] ∧
        TokensPayOnce t :=
  reaches_with (by decide +kernel) fun t hrun _ =>
    @run_tokensPayOnce lenientServer t oneToken injective_id hrun

end ConstructServer.Messaging
