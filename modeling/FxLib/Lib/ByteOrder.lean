import Mathlib.Data.List.Basic
import Mathlib.Data.Nat.ModEq
import Mathlib.Tactic.Ring

/-!
# Network byte order

The number a list of bytes spells, most significant byte first, and the bytes of
a number at a given width.
-/

namespace ByteOrder

def value : List UInt8 → Nat
  | [] => 0
  | b :: bs => b.toNat * 256 ^ bs.length + value bs

def bytes : Nat → Nat → List UInt8
  | 0, _ => []
  | k + 1, n => UInt8.ofNat (n / 256 ^ k) :: bytes k n

@[simp] theorem bytes_length (k n : Nat) : (bytes k n).length = k := by
  induction k with
  | zero => rfl
  | succ k ih => simp [bytes, ih]

theorem value_lt (bs : List UInt8) : value bs < 256 ^ bs.length := by
  induction bs with
  | nil => simp [value]
  | cons b bs ih =>
    have hb := b.toNat_lt
    calc b.toNat * 256 ^ bs.length + value bs
        < b.toNat * 256 ^ bs.length + 256 ^ bs.length := by omega
      _ = (b.toNat + 1) * 256 ^ bs.length := by ring
      _ ≤ 256 * 256 ^ bs.length := Nat.mul_le_mul_right _ (by omega)
      _ = 256 ^ (b :: bs).length := by rw [List.length_cons, pow_succ, Nat.mul_comm]

theorem value_bytes (k n : Nat) : value (bytes k n) = n % 256 ^ k := by
  induction k with
  | zero => simp [bytes, value, Nat.mod_one]
  | succ k ih =>
    have hhead : (UInt8.ofNat (n / 256 ^ k)).toNat = n / 256 ^ k % 256 := by simp
    rw [bytes, value, bytes_length, ih, hhead, Nat.mod_pow_succ]
    ring

/-- What does not fit the width is not seen. -/
theorem bytes_mod (k n : Nat) : bytes k (n % 256 ^ k) = bytes k n := by
  have hmod : ∀ j m, j ≤ k → bytes j (m % 256 ^ k) = bytes j m := by
    intro j m hj
    induction j with
    | zero => rfl
    | succ j ih =>
      obtain ⟨d, rfl⟩ := Nat.exists_eq_add_of_le hj
      have hhead : m % 256 ^ (j + 1 + d) / 256 ^ j = m / 256 ^ j % 256 ^ (d + 1) := by
        rw [show j + 1 + d = j + (d + 1) by omega, pow_add, Nat.mod_mul_right_div_self]
      have hbyte : UInt8.ofNat (m / 256 ^ j % 256 ^ (d + 1)) = UInt8.ofNat (m / 256 ^ j) := by
        apply UInt8.toNat_inj.mp
        rw [UInt8.toNat_ofNat', UInt8.toNat_ofNat', pow_succ', Nat.mod_mul_right_mod]
      rw [bytes, bytes, ih (by omega), hhead, hbyte]
  exact hmod k n le_rfl

theorem bytes_add_mul (a k n : Nat) : bytes k (a * 256 ^ k + n) = bytes k n := by
  rw [← bytes_mod, Nat.mul_comm, Nat.mul_add_mod, bytes_mod]

/-- A number that fits its width is read back. -/
theorem value_bytes_of_lt {k n : Nat} (h : n < 256 ^ k) : value (bytes k n) = n := by
  rw [value_bytes, Nat.mod_eq_of_lt h]

theorem bytes_value (bs : List UInt8) : bytes bs.length (value bs) = bs := by
  induction bs with
  | nil => rfl
  | cons b bs ih =>
    have hlt := value_lt bs
    have hpos : 0 < 256 ^ bs.length := Nat.pow_pos (by omega)
    have hhead : (b.toNat * 256 ^ bs.length + value bs) / 256 ^ bs.length = b.toNat := by
      rw [Nat.mul_comm, Nat.mul_add_div hpos, Nat.div_eq_of_lt hlt, Nat.add_zero]
    rw [List.length_cons, bytes, value, hhead, UInt8.ofNat_toNat, bytes_add_mul, ih]

theorem value_append (as bs : List UInt8) :
    value (as ++ bs) = value as * 256 ^ bs.length + value bs := by
  induction as with
  | nil => simp [value]
  | cons a as ih =>
    rw [List.cons_append, value, value, ih, List.length_append, pow_add]
    ring

/-- The upper bytes and the lower bytes. -/
theorem bytes_add (j k n : Nat) : bytes (j + k) n = bytes j (n / 256 ^ k) ++ bytes k n := by
  induction j with
  | zero => simp [bytes]
  | succ j ih =>
    rw [Nat.succ_add, bytes, bytes, ih, List.cons_append, Nat.div_div_eq_div_mul, ← pow_add,
      Nat.add_comm k j]

end ByteOrder
