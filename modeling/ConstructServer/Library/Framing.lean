import Mathlib.Data.List.Basic
import Mathlib.Algebra.Order.Ring.Nat

/-!
# Length-prefixed framing and hexadecimal text

A sequence of fields written as one byte string, every field behind its length as a big-endian
`u64`, so that the boundaries between fields cannot move; and the lower-case hexadecimal text of
a digest.
-/

namespace Framing

open List

def beBytes : Nat → Nat → List UInt8
  | 0, _ => []
  | w + 1, n => beBytes w (n / 256) ++ [UInt8.ofNat n]

@[simp]
theorem length_beBytes (w n : Nat) : (beBytes w n).length = w := by
  induction w generalizing n with
  | zero => rfl
  | succ w ih => simp [beBytes, ih]

theorem beBytes_injective {w m n : Nat} (hm : m < 256 ^ w) (hn : n < 256 ^ w)
    (h : beBytes w m = beBytes w n) : m = n := by
  induction w generalizing m n with
  | zero =>
    rw [Nat.pow_zero] at hm hn
    omega
  | succ w ih =>
    rw [Nat.pow_succ] at hm hn
    obtain ⟨hh, hl⟩ := append_inj' h rfl
    have hdi : m / 256 = n / 256 := ih (by omega) (by omega) hh
    have hmo : m % 256 = n % 256 := by
      simpa using congrArg UInt8.toNat (singleton_inj.mp hl)
    omega

def frameField (f : List UInt8) : List UInt8 := beBytes 8 f.length ++ f

def frame (fields : List (List UInt8)) : List UInt8 := fields.flatMap frameField

/-- The field fits in memory: its length is a `u64`. -/
def Fits (f : List UInt8) : Prop := f.length < 2 ^ 64

instance (f : List UInt8) : Decidable (Fits f) := inferInstanceAs (Decidable (f.length < 2 ^ 64))

theorem frameField_append_inj {f g s t : List UInt8} (hf : Fits f) (hg : Fits g)
    (h : frameField f ++ s = frameField g ++ t) : f = g ∧ s = t := by
  simp only [frameField, append_assoc] at h
  obtain ⟨hl, hr⟩ := append_inj h (by simp)
  have hfg : f.length = g.length := beBytes_injective hf hg hl
  exact append_inj hr hfg

/-- Fields that fit in memory are determined by their frame. -/
theorem frame_injective {fs gs : List (List UInt8)} (hl : fs.length = gs.length)
    (hf : ∀ f ∈ fs, Fits f) (hg : ∀ g ∈ gs, Fits g) (h : frame fs = frame gs) : fs = gs := by
  induction fs generalizing gs with
  | nil => exact (length_eq_zero_iff.mp hl.symm).symm
  | cons f fs ih =>
    cases gs with
    | nil => cases hl
    | cons g gs =>
      simp only [frame, flatMap_cons] at h
      obtain ⟨rfl, hr⟩ := frameField_append_inj (hf f (by simp)) (hg g (by simp)) h
      rw [ih (Nat.succ.inj hl) (fun f h => hf f (by simp [h])) (fun g h => hg g (by simp [h]))
        hr]

def hexByte (b : UInt8) : List Char := [(b.toNat / 16).digitChar, (b.toNat % 16).digitChar]

/-- `hex::encode`. -/
def hexEncode (bytes : List UInt8) : String := String.ofList (bytes.flatMap hexByte)

theorem digitChar_injective {m n : Nat} (hm : m < 16) (hn : n < 16)
    (h : m.digitChar = n.digitChar) : m = n := by
  have key : ∀ m n : Fin 16, m.val.digitChar = n.val.digitChar → m = n := by decide
  exact congrArg Fin.val (key ⟨m, hm⟩ ⟨n, hn⟩ h)

theorem hexByte_injective {b c : UInt8} (h : hexByte b = hexByte c) : b = c := by
  have hb : b.toNat < 256 := b.toNat_lt
  have hc : c.toNat < 256 := c.toNat_lt
  simp only [hexByte, List.cons.injEq, and_true] at h
  have hh : b.toNat / 16 = c.toNat / 16 := digitChar_injective (by omega) (by omega) h.1
  have hl : b.toNat % 16 = c.toNat % 16 := digitChar_injective (by omega) (by omega) h.2
  exact UInt8.toNat_inj.mp (by omega)

theorem flatMap_hexByte_injective {bs cs : List UInt8}
    (h : bs.flatMap hexByte = cs.flatMap hexByte) : bs = cs := by
  induction bs generalizing cs with
  | nil =>
    cases cs with
    | nil => rfl
    | cons c cs => simp [hexByte] at h
  | cons b bs ih =>
    cases cs with
    | nil => simp [hexByte] at h
    | cons c cs =>
      rw [flatMap_cons, flatMap_cons] at h
      obtain ⟨hby, hr⟩ := append_inj h rfl
      rw [hexByte_injective hby, ih hr]

theorem hexEncode_injective : Function.Injective hexEncode := fun _ _ h =>
  flatMap_hexByte_injective (by simpa [hexEncode] using congrArg String.toList h)

end Framing
