import Mathlib.Algebra.Order.Ring.Int
import ConstructServer.Identity.Signatures
import ConstructServer.Library.Machine
import ConstructServer.Library.Table

/-!
# An invite is redeemed once

To accept or to revoke an invite is to insert its id into the used ones, where it stays for an hour
longer than an invite lives. Expired rows may be deleted, and those of an account go with it.
Between the checks of an acceptance and its insertion other calls run.
-/

namespace ConstructServer.Identity

open Machine List Option

open Queue (Bytes)

inductive InviteAgeError
  | invalid (e : InviteValidationError)
  | expired
  | futureTimestamp

namespace InviteToken

def effectiveTtl (t : InviteToken) : Int64 := if t.ttl < 43200 then .ofNat t.ttl.toNat else 43200

def isExpired (t : InviteToken) (now ttlSeconds : Int64) : Bool := ttlSeconds < now - t.ts

def isFuture (t : InviteToken) (now : Int64) : Bool := now + 60 < t.ts

def validateWithExpiry (decode : String → Option Bytes) (now : Int64) (t : InviteToken) :
    Except InviteAgeError Unit :=
  match t.validate decode now with
  | .error e => .error (.invalid e)
  | .ok () =>
    if t.isExpired now t.effectiveTtl then .error .expired
    else if t.isFuture now then .error .futureTimestamp
    else .ok ()

theorem effectiveTtl_le (t : InviteToken) : t.effectiveTtl.toInt ≤ 43200 := by
  unfold effectiveTtl
  split
  · rename_i h
    have hlt : t.ttl.toNat < 43200 := UInt32.lt_iff_toNat_lt.mp h
    rw [Int64.toInt_ofNat_of_lt (by omega)]
    omega
  · decide

theorem validateWithExpiry_window {decode : String → Option Bytes} {now : Nat} {t : InviteToken}
    (hnow : now < 2 ^ 62)
    (h : t.validateWithExpiry decode (.ofNat now) = .ok ()) : t.ts.toInt ≤ now + 60 ∧
      now ≤ t.ts.toInt + 43200 := by
  unfold validateWithExpiry at h
  split at h
  · cases h
  rename_i hva
  split_ifs at h with hex hfu
  -- The timestamp is positive, so neither side of the two comparisons wraps.
  have hpo := (count_fields hva).1
  have hts := t.ts.toInt_lt
  have hle := t.effectiveTtl_le
  have hno : (Int64.ofNat now).toInt = now := Int64.toInt_ofNat_of_lt (by omega)
  have h60 : (60 : Int64).toInt = 60 := rfl
  simp only [isExpired, isFuture, decide_eq_true_eq, Int64.lt_iff_toInt_lt, Int64.toInt_sub, Int64.toInt_add, hno, h60,
    Int.bmod_def] at hex hfu
  omega

end InviteToken

inductive AcceptError
  | invalid (e : InviteAgeError)
  | inviteInvalidSignature
  | publicKeyNotFound
  | addressMismatch

/-- The checks of `accept_invite`: `verified` is the answer of the signature check, and `creator`
the recovery key in the row of the account, if there is one. -/
def checkInvite (decode : String → Option Bytes) (now : Int64) (t : InviteToken) (verified : Bool)
    (creator : Option (Option Bytes)) : Except AcceptError Unit :=
  match t.validateWithExpiry decode now with
  | .error e => .error (.invalid e)
  | .ok () =>
    if !verified then .error .inviteInvalidSignature
    else match creator with
      | none => .error .publicKeyNotFound
      | some key => if key = some t.addr then .ok () else .error .addressMismatch

structure UsedInvite where
  userId : Uuid
  expiresAt : Nat

/-- A successful insertion: by an acceptance of `invite`, or by a revocation. -/
structure Burn where
  jti : Uuid
  user : Uuid
  time : Nat
  invite : Option InviteToken

structure InviteState where
  clock : Nat
  used : Table Uuid UsedInvite
  /-- The accounts that were deleted. -/
  gone : List Uuid
  /-- The acceptances that have made their checks, and when. -/
  pending : List (InviteToken × Nat)
  burns : List Burn

inductive InviteAction
  | check (t : InviteToken) (verified : Bool) (creator : Option (Option Bytes))
  | burn (i : Nat)
  | revoke (jti user : Uuid)
  | deleteAccount (user : Uuid)
  | cleanup
  | tick (seconds : Nat)

namespace InviteState

/-- `burn_used_invite`; the row refers to its account. -/
def burnUsedInvite (s : InviteState) (jti user : Uuid) (invite : Option InviteToken) : InviteState :=
  if user ∈ s.gone ∨ (s.used.get? jti).isSome then s
  else { s with
    used := s.used.insertNew jti ⟨user, s.clock + 46800⟩
    burns := ⟨jti, user, s.clock, invite⟩ :: s.burns }

def step (decode : String → Option Bytes) (s : InviteState) : InviteAction → Option InviteState
  | .check t verified creator =>
    -- An account that was deleted is not found.
    if creator.isSome ∧ t.uuid ∈ s.gone then none
    else match checkInvite decode (.ofNat s.clock) t verified creator with
      | .error _ => some s
      | .ok () => some { s with pending := s.pending ++ [(t, s.clock)] }
  | .burn i => s.pending[i]?.map fun p =>
    { s.burnUsedInvite p.1.jti p.1.uuid (some p.1) with pending := s.pending.eraseIdx i }
  | .revoke jti user => some (s.burnUsedInvite jti user none)
  | .deleteAccount user => some { s with
    gone := user :: s.gone
    used := s.used.filter fun _ r => r.userId ≠ user }
  | .cleanup => some { s with used := s.used.filter fun _ r => s.clock ≤ r.expiresAt }
  | .tick seconds => if s.clock + seconds < 2 ^ 62 then some { s with clock := s.clock + seconds } else none

/-- An acceptance inserts at most 59 minutes after its checks. -/
def timely (s : InviteState) : InviteAction → Bool
  | .burn i => s.pending[i]?.all fun p => s.clock ≤ p.2 + 3540
  | _ => true

/-- A burn excludes that the invite is accepted later, unless it was made for an account that is not
the creator's and has been deleted since. -/
def Excludes (gone : List Uuid) (later earlier : Burn) : Prop :=
  ∀ t ∈ later.invite, earlier.jti = t.jti → t.ts.toInt ≤ earlier.time + 60 →
    earlier.user ≠ t.uuid ∧ earlier.user ∈ gone

structure Kept (s : InviteState) : Prop where
  clock : s.clock < 2 ^ 62
  checked : ∀ p ∈ s.pending, p.1.ts.toInt ≤ p.2 + 60 ∧ p.2 ≤ p.1.ts.toInt + 43200 ∧ p.2 ≤ s.clock
  invite : ∀ b ∈ s.burns, ∀ t ∈ b.invite, b.jti = t.jti ∧ b.user = t.uuid ∧ t.ts.toInt ≤ b.time + 60
  /-- The row of a burn is there until it has expired or its account is deleted. -/
  row : ∀ b ∈ s.burns, b.user ∈ s.gone ∨ b.time + 46800 < s.clock ∨
    ∃ r, s.used.get? b.jti = some r ∧ r.userId = b.user ∧ r.expiresAt = b.time + 46800
  excludes : s.burns.Pairwise (Excludes s.gone)

variable {s s' : InviteState} {a : InviteAction} {decode : String → Option Bytes}

theorem Kept.burnUsedInvite {jti user : Uuid} {invite : Option InviteToken} (h : Kept s)
    (hin : ∀ t ∈ invite, jti = t.jti ∧ user = t.uuid ∧ t.ts.toInt ≤ s.clock + 60 ∧ s.clock ≤ t.ts.toInt + 46740) :
    Kept (s.burnUsedInvite jti user invite) := by
  unfold InviteState.burnUsedInvite
  split_ifs with hno
  · exact h
  simp only [not_or, Bool.not_eq_true, isSome_eq_false_iff, isNone_iff_eq_none] at hno
  refine ⟨h.clock, h.checked, ?_, ?_, pairwise_cons.mpr ⟨?_, h.excludes⟩⟩
  · refine forall_mem_cons.mpr ⟨fun t ht => ?_, h.invite⟩
    exact ⟨(hin t ht).1, (hin t ht).2.1, (hin t ht).2.2.1⟩
  · refine forall_mem_cons.mpr ⟨.inr (.inr ?_), fun b hb => ?_⟩
    · exact ⟨_, Table.get?_insertNew_self.trans (by rw [hno.2, none_or]), rfl, rfl⟩
    · refine (h.row b hb).imp_right (Or.imp_right ?_)
      rintro ⟨r, hr, hu, he⟩
      have hne : b.jti ≠ jti := by
        rintro rfl
        simp [hno.2] at hr
      exact ⟨r, (Table.get?_insertNew_of_ne hne).trans hr, hu, he⟩
  · intro b hb t ht hj hts
    obtain ⟨rfl, rfl, -, hcl⟩ := hin t ht
    -- The earlier row has not expired yet: if it is not there, its account was deleted.
    rcases h.row b hb with hg | he | ⟨r, hr, -⟩
    · exact ⟨fun hu => hno.1 (hu ▸ hg), hg⟩
    · omega
    · simp [hj, hno.2] at hr

theorem of_checkInvite {now : Int64} {t : InviteToken} {verified : Bool} {creator : Option (Option Bytes)}
    (h : checkInvite decode now t verified creator = .ok ()) : t.validateWithExpiry decode now = .ok () := by
  unfold checkInvite at h
  split at h
  · cases h
  · assumption

theorem Kept.step (h : Kept s) (hg : s.timely a) (hs : s.step decode a = some s') : Kept s' := by
  cases a with
  | check t verified creator =>
    simp only [InviteState.step] at hs
    split_ifs at hs
    split at hs
    · exact some.inj hs ▸ h
    · rename_i hch
      obtain rfl := some.inj hs
      refine ⟨h.clock, fun p hp => ?_, h.invite, h.row, h.excludes⟩
      rcases mem_concat hp with hp | rfl
      · exact h.checked p hp
      · have hwi := InviteToken.validateWithExpiry_window h.clock (of_checkInvite hch)
        exact ⟨hwi.1, hwi.2, le_rfl⟩
  | burn i =>
    obtain ⟨p, hp, rfl⟩ := map_eq_some_iff.mp hs
    have hch := h.checked p (mem_of_getElem? hp)
    have hti : s.clock ≤ p.2 + 3540 := by simpa [timely, hp] using hg
    -- What is left of the hour when the clocks differ by a minute is enough for the call.
    have hbu : Kept (s.burnUsedInvite p.1.jti p.1.uuid (some p.1)) := h.burnUsedInvite fun t ht => by
      obtain rfl := some.inj ht
      exact ⟨rfl, rfl, by omega, by omega⟩
    refine ⟨hbu.clock, fun q hq => ?_, hbu.invite, hbu.row, hbu.excludes⟩
    have hcl : (s.burnUsedInvite p.1.jti p.1.uuid (some p.1)).clock = s.clock := by
      unfold InviteState.burnUsedInvite
      split_ifs <;> rfl
    exact hcl ▸ h.checked q (mem_of_mem_eraseIdx hq)
  | revoke jti user =>
    obtain rfl := some.inj hs
    exact h.burnUsedInvite fun t ht => by cases ht
  | deleteAccount user =>
    obtain rfl := some.inj hs
    refine ⟨h.clock, h.checked, h.invite, fun b hb => ?_, h.excludes.imp fun hex t ht hj hts => ?_⟩
    · rcases h.row b hb with hgo | he | ⟨r, hr, hu, he⟩
      · exact .inl (mem_cons_of_mem _ hgo)
      · exact .inr (.inl he)
      · by_cases hbu : b.user = user
        · exact .inl (hbu ▸ mem_cons_self)
        · exact .inr (.inr ⟨r, by simp [hr, hu, hbu], hu, he⟩)
    · exact ⟨(hex t ht hj hts).1, mem_cons_of_mem _ (hex t ht hj hts).2⟩
  | cleanup =>
    obtain rfl := some.inj hs
    refine ⟨h.clock, h.checked, h.invite, fun b hb => (h.row b hb).imp_right ?_, h.excludes⟩
    rintro (he | ⟨r, hr, hu, he⟩)
    · exact .inl he
    · by_cases hle : s.clock ≤ r.expiresAt
      · exact .inr ⟨r, by simp [hr, hle], hu, he⟩
      · exact .inl (show b.time + 46800 < s.clock by omega)
  | tick seconds =>
    simp only [InviteState.step] at hs
    split_ifs at hs with hlt
    obtain rfl := some.inj hs
    refine ⟨hlt, fun p hp => ?_, h.invite, fun b hb => (h.row b hb).imp_right (Or.imp_left ?_), h.excludes⟩
    · have hch := h.checked p hp
      exact ⟨hch.1, hch.2.1, hch.2.2.trans (Nat.le_add_right _ _)⟩
    · exact fun he => he.trans_le (Nat.le_add_right _ _)

/-- No invite is accepted twice, and one that was revoked is not accepted while the account that
revoked it exists. -/
theorem invite_redeemed_once {start : Nat} (hst : start < 2 ^ 62) {actions : List InviteAction}
    (hg : Along (step decode) (fun s a => s.timely a) ⟨start, .empty, [], [], []⟩ actions)
    (hr : run (step decode) ⟨start, .empty, [], [], []⟩ actions = some s) :
    ((s.burns.filterMap Burn.invite).map fun t => (t.jti, t.uuid, t.ts)).Nodup ∧
      s.burns.Pairwise (Excludes s.gone) := by
  have hke : Kept s := run_invariant Kept.step ⟨hst, by simp, by simp, by simp, .nil⟩ hg hr
  refine ⟨?_, hke.excludes⟩
  rw [List.Nodup, pairwise_map, pairwise_filterMap]
  refine hke.excludes.imp_of_mem fun {later earlier} hl he hex t ht t' ht' heq => ?_
  simp only [Prod.mk.injEq] at heq
  obtain ⟨hj, hu, hts⟩ := hke.invite earlier he t' ht'
  exact (hex t ht (hj.trans heq.1.symm) (heq.2.2 ▸ hts)).1 (hu.trans heq.2.1.symm)

def overlappingCalls (t : InviteToken) : List InviteAction :=
  [.check t true (some (some t.addr)), .check t true (some (some t.addr)), .burn 1, .tick 9, .burn 0,
    .revoke t.jti t.uuid]

theorem overlapping_calls_burn_once :
    ∃ s, run (step InviteToken.anySignature) ⟨5, .empty, [], [], []⟩
        (overlappingCalls (.ofServer "a.b" 5 "u")) = some s ∧
      s.burns.map Burn.time = [5] ∧ s.burns.Pairwise (Excludes s.gone) :=
  reaches_with (by decide +kernel) fun _ hr _ => (invite_redeemed_once (by decide) (by decide +kernel) hr).2

end InviteState

end ConstructServer.Identity
