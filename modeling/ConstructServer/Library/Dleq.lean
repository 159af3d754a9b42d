import Mathlib.Algebra.Field.Basic
import Mathlib.Algebra.Module.Basic

/-!
# Equality of discrete logarithms

Over a vector space of points, a proof that two points are the same multiple of two others: a
commitment with a nonce, a challenge that is the hash of the commitment, and a response. A batch of
points is proved at once, with a linear combination of its points.
-/

namespace Dleq

variable {F G : Type*} [Field F] [AddCommGroup G] [Module F G]

/-- The points times their weights, added to what there is. -/
def combine (acc : G) : List (F × G) → G
  | [] => acc
  | (d, p) :: terms => combine (acc + d • p) terms

theorem combine_smul (k : F) (acc : G) (terms : List (F × G)) :
    combine (k • acc) (terms.map fun term => (term.1, k • term.2)) = k • combine acc terms := by
  induction terms generalizing acc with
  | nil => rfl
  | cons term terms ih =>
    rw [List.map_cons, combine, smul_comm term.1 k term.2, ← smul_add, ih]
    rfl

structure Proof (F : Type*) where
  challenge : F
  response : F

def prove (hash : G → G → F) (t k : F) (g m : G) : Proof F :=
  let c := hash (t • g) (t • m)
  ⟨c, t + c * k⟩

/-- The hash of what the commitment must have been is the challenge. -/
def verify [DecidableEq F] (hash : G → G → F) (g m gk mk : G) (proof : Proof F) : Bool :=
  hash (proof.response • g - proof.challenge • gk) (proof.response • m - proof.challenge • mk) =
    proof.challenge

/-- What the response is without the part of the challenge. -/
theorem commitment_eq (t c k : F) (p : G) : (t + c * k) • p - c • k • p = t • p := by
  rw [add_smul, mul_smul, add_sub_cancel_right]

/-- **A proof is accepted.** -/
theorem verify_prove [DecidableEq F] (hash : G → G → F) (t k : F) (g m : G) :
    verify hash g m (k • g) (k • m) (prove hash t k g m) = true := by
  unfold verify prove
  rw [commitment_eq, commitment_eq, decide_eq_true_eq]

end Dleq
