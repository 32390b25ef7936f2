import Mathlib.Data.Int.Basic
import Mathlib.Tactic.Linarith

/-!
# Machine integers over `Int`

Signed 32-bit arithmetic is carried out in `Int` and wrapped after every
operation, so that a program's own sums can overflow exactly where the machine's
do. A computation whose exact value fits is the exact value (`wrap32_of_fits`);
that is the only fact the developments over this module need.
-/

namespace MachineInt

/-- The values of a signed 32-bit integer. -/
def Fits32 (x : Int) : Prop := -2147483648 ≤ x ∧ x < 2147483648

instance (x : Int) : Decidable (Fits32 x) := inferInstanceAs (Decidable (_ ∧ _))

/-- Two's complement wrap-around to 32 bits. -/
def wrap32 (x : Int) : Int := x.bmod 4294967296

theorem wrap32_of_fits {x : Int} (h : Fits32 x) : wrap32 x = x := by
  unfold wrap32
  rw [Int.bmod_def]
  unfold Fits32 at h
  split <;> omega

theorem fits_wrap32 (x : Int) : Fits32 (wrap32 x) := by
  unfold wrap32 Fits32
  rw [Int.bmod_def]
  split <;> omega

/-- A sum that wraps in between is still exact when the final value fits. -/
theorem wrap32_add_sub {a b c : Int} (h : Fits32 (a + b - c)) :
    wrap32 (wrap32 (a + b) - c) = a + b - c := by
  unfold Fits32 at h
  unfold wrap32
  rw [Int.bmod_def, Int.bmod_def]
  split <;> split <;> omega

def add32 (a b : Int) : Int := wrap32 (a + b)

def sub32 (a b : Int) : Int := wrap32 (a - b)

theorem add32_of_fits {a b : Int} (h : Fits32 (a + b)) : add32 a b = a + b :=
  wrap32_of_fits h

theorem sub32_of_fits {a b : Int} (h : Fits32 (a - b)) : sub32 a b = a - b :=
  wrap32_of_fits h

/-- Conversion of an unsigned 32-bit value to `int`. -/
def toInt32 (x : Nat) : Int := wrap32 x

theorem toInt32_of_lt {x : Nat} (h : x < 2147483648) : toInt32 x = x :=
  wrap32_of_fits ⟨by omega, by omega⟩

/-- Conversion of an `int` to an unsigned 16-bit value. -/
def toUInt16 (x : Int) : Nat := (x % 65536).toNat

/-- Conversion of an `int` to an unsigned 32-bit value. -/
def toUInt32 (x : Int) : Nat := (x % 4294967296).toNat

theorem toUInt32_of_nonneg {x : Int} (h : 0 ≤ x) (h' : x < 4294967296) :
    (toUInt32 x : Int) = x := by
  unfold toUInt32
  omega

end MachineInt
