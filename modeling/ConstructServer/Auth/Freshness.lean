import Mathlib.Algebra.Order.Ring.Int
import Mathlib.Tactic.Tauto

/-!
# How old a signed message may be

The login of a device and the proofs of group administrators carry an `i64` timestamp that must lie
within 300 seconds of the server's clock. Both sides compute the difference and its absolute value
in 64 bits, which a release build lets wrap: the difference of two far ends of the range is small
again, and the absolute value of `i64::MIN` is negative.
-/

namespace ConstructServer.Auth.Freshness

/-- The answers to an old timestamp. -/
inductive Refusal
  | validation (message : String)
  | invalidArgument (message : String)

/-- The test of both callers: `(now - timestamp).abs() > 300`. -/
def checkAge {ε : Type} (refusal : ε) (now timestamp : Int64) : Except ε Unit :=
  if 300 < (now - timestamp).abs then .error refusal else .ok ()

/-- Step 1 of `authenticate_device_core`. -/
def authenticateDeviceCore : Int64 → Int64 → Except Refusal Unit :=
  checkAge (.validation "Timestamp expired (must be within ±5 minutes)")

/-- The first test of `verify_admin_proof`. -/
def verifyAdminProof : Int64 → Int64 → Except Refusal Unit :=
  checkAge (.invalidArgument "Signature timestamp expired or invalid")

/-- Both tests let the timestamp through. -/
def Accepts (now timestamp : Int64) : Prop :=
  (authenticateDeviceCore now timestamp).isOk ∧ (verifyAdminProof now timestamp).isOk

instance (now timestamp : Int64) : Decidable (Accepts now timestamp) := inferInstanceAs (Decidable (_ ∧ _))

def distance (now timestamp : Int64) : Nat := (now.toInt - timestamp.toInt).natAbs

/-- Neither the difference nor its absolute value wraps into the accepted range. -/
def Representable (now timestamp : Int64) : Prop :=
  distance now timestamp ≠ 2 ^ 63 ∧ distance now timestamp < 2 ^ 64 - 300

instance (now timestamp : Int64) : Decidable (Representable now timestamp) := inferInstanceAs (Decidable (_ ∧ _))

theorem isOk_checkAge {refusal : Refusal} {now timestamp : Int64} :
    (checkAge refusal now timestamp).isOk ↔ ¬ 300 < (now - timestamp).abs := by
  unfold checkAge
  split_ifs with h <;> simp [h, Except.isOk, Except.toBool]

theorem toInt_abs (a : Int64) :
    a.abs.toInt = if a.toInt = -2 ^ 63 then -2 ^ 63 else (a.toInt.natAbs : Int) := by
  have hmin : a.toBitVec = BitVec.intMin 64 ↔ a.toInt = -2 ^ 63 := by
    rw [← BitVec.toInt_inj, BitVec.toInt_intMin]
    rfl
  have hmsb : a.toBitVec.msb = true ↔ a.toInt < 0 := by
    rw [BitVec.msb_eq_toInt, decide_eq_true_iff]
    rfl
  have habs : a.abs.toInt = a.toBitVec.abs.toInt := rfl
  rw [habs, BitVec.toInt_abs_eq_ite]
  simp only [hmin, hmsb]
  change (if a.toInt = -2 ^ 63 then _ else if a.toInt < 0 then -a.toInt else a.toInt) = _
  split_ifs with h h0
  · rfl
  · omega
  · omega

theorem accepts_iff {now timestamp : Int64} :
    Accepts now timestamp ↔ distance now timestamp ≤ 300 ∨ ¬ Representable now timestamp := by
  have hn := now.le_toInt
  have hn' := now.toInt_lt
  have ht := timestamp.le_toInt
  have ht' := timestamp.toInt_lt
  have h300 : (300 : Int64).toInt = 300 := rfl
  simp only [Accepts, authenticateDeviceCore, verifyAdminProof, isOk_checkAge, and_self,
    Int64.lt_iff_toInt_lt, toInt_abs, Int64.toInt_sub, h300, Representable, distance, Int.bmod_def]
  split_ifs <;> omega

/-- The test is the intended one exactly for the timestamps that do not wrap into its range, and
a message all of whose acceptances are of that kind is accepted during 600 seconds at most. -/
theorem accepts_exactly_near_iff (now timestamp : Int64) :
    ((Accepts now timestamp ↔ distance now timestamp ≤ 300) ↔ Representable now timestamp) ∧
      ∀ later, Representable now timestamp → Representable later timestamp →
        Accepts now timestamp → Accepts later timestamp → distance later now ≤ 600 := by
  refine ⟨?_, fun later hr hr' ha ha' => ?_⟩
  · have hfar : ¬ Representable now timestamp → ¬ distance now timestamp ≤ 300 := by
      unfold Representable
      omega
    rw [accepts_iff]
    tauto
  · have hn : distance now timestamp ≤ 300 := (accepts_iff.mp ha).resolve_right (not_not_intro hr)
    have hl : distance later timestamp ≤ 300 :=
      (accepts_iff.mp ha').resolve_right (not_not_intro hr')
    unfold distance at *
    omega

/-- On 14 November 2023 a timestamp of 292 billion years before passes, and is as far as that. -/
theorem accepts_opposite : Accepts 1700000000 (-9223372035154775808) ∧
    distance 1700000000 (-9223372035154775808) = 2 ^ 63 := by
  decide

/-- A timestamp that does not wrap, at two times. -/
theorem accepts_within_600 : distance 1700000600 1700000000 ≤ 600 :=
  (accepts_exactly_near_iff 1700000000 1700000300).2 1700000600 (by decide) (by decide) (by decide) (by decide)

end ConstructServer.Auth.Freshness
