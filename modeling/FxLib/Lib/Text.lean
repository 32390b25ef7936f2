import Mathlib.Data.List.TakeWhile
import FxLib.Lib.MachineInt

/-!
# Texts in memory

A C string ends at its first NUL, a line at its newline. What follows the part that is read does
not matter.
-/

/-- The text at the start of a memory. -/
def cString (pStr : List UInt8) : List UInt8 := pStr.takeWhile (· ≠ 0)

theorem cString_eq {text : List UInt8} (h : 0 ∉ text) (rest : List UInt8) :
    cString (text ++ 0 :: rest) = text := by
  have hall : ∀ c ∈ text, decide (c ≠ 0) = true := fun c hc => by
    simpa using ne_of_mem_of_not_mem hc h
  rw [cString, List.takeWhile_append_of_pos hall]
  simp

/-- A text with a NUL in it does not reach what follows. -/
theorem cString_append_of_mem {text : List UInt8} (h : 0 ∈ text) (rest : List UInt8) :
    cString (text ++ rest) = cString text := by
  obtain ⟨a, b, hsplit, hnot⟩ := List.eq_append_cons_of_mem h
  rw [hsplit, List.append_assoc, List.cons_append, cString_eq hnot, cString_eq hnot]

theorem cString_append_of_not_mem {text : List UInt8} (h : 0 ∉ text) (rest : List UInt8) :
    cString (text ++ rest) = text ++ cString rest := by
  rw [cString, cString, List.takeWhile_append_of_pos fun c hc => by
    simpa using ne_of_mem_of_not_mem hc h]

theorem cString_eq_self_iff (text : List UInt8) : cString text = text ↔ 0 ∉ text := by
  constructor
  · intro h hmem
    have hne := List.takeWhile_eq_self_iff.mp h 0 hmem
    simp at hne
  · intro h
    refine List.takeWhile_eq_self_iff.mpr fun c hc => ?_
    simpa using ne_of_mem_of_not_mem hc h

theorem zero_not_mem_cString (text : List UInt8) : 0 ∉ cString text := fun h => by
  simpa using List.mem_takeWhile_imp h

namespace Text

/-- `isspace`. -/
def isSpace (c : UInt8) : Bool := c = 32 ∨ 9 ≤ c ∧ c ≤ 13

def isDigit (c : UInt8) : Bool := 48 ≤ c ∧ c ≤ 57

/-- The number that the digits at the start of a text spell. -/
def decimal (text : List UInt8) : Nat :=
  (text.takeWhile isDigit).foldl (fun n c => 10 * n + (c.toNat - 48)) 0

/-- `strtoll` to the base ten: a number out of range gives the bound that it is beyond. -/
def strtoll (text : List UInt8) : Int :=
  let value : Int := match text.dropWhile isSpace with
    | 45 :: digits => -decimal digits
    | 43 :: digits => decimal digits
    | digits => decimal digits
  max (-9223372036854775808) (min 9223372036854775807 value)

/-- `atoi` is the low half of `strtol`. -/
def atoi (text : List UInt8) : Int := MachineInt.wrap32 (strtoll text)

/-- The decimal digits of a number. -/
def digits (n : Nat) : List UInt8 := (Nat.toDigits 10 n).map fun c => c.toNat.toUInt8

/-- `%u`. -/
def printUInt (n : UInt32) : List UInt8 := digits n.toNat

/-- `%d` takes an `unsigned int` for an `int`. -/
def printInt (n : UInt32) : List UInt8 :=
  if n.toNat < 2147483648 then digits n.toNat else 45 :: digits (4294967296 - n.toNat)

theorem isDigit_of_mem_digits {n : Nat} {c : UInt8} (h : c ∈ digits n) : isDigit c = true := by
  obtain ⟨d, hd, rfl⟩ := List.mem_map.mp h
  have hdigit := Nat.isDigit_of_mem_toDigits (by decide) (by decide) hd
  simp only [Char.isDigit, ge_iff_le, Bool.and_eq_true, decide_eq_true_eq, UInt32.le_iff_toNat_le,
    Char.reduceVal, UInt32.reduceToNat] at hdigit
  have hto : d.toNat.toUInt8.toNat = d.toNat := by
    rw [Nat.toUInt8_eq, UInt8.toNat_ofNat_of_lt']
    have : d.toNat = d.val.toNat := rfl
    rw [UInt8.size]
    omega
  simp only [isDigit, Bool.decide_and, Bool.and_eq_true, decide_eq_true_eq, UInt8.le_iff_toNat_le,
    hto, UInt8.reduceToNat]
  exact hdigit

theorem digits_ne_nil (n : Nat) : digits n ≠ [] := by
  simp [digits, Nat.toDigits_ne_nil]

/-- Behind an element that ends it, nothing matters. -/
theorem takeWhile_append_cons {α : Type} {p : α → Bool} {a : α} (ha : p a = false)
    (xs ys : List α) : (xs ++ a :: ys).takeWhile p = xs.takeWhile p := by
  induction xs with
  | nil => simp [ha]
  | cons x xs ih =>
    simp only [List.cons_append, List.takeWhile_cons, ih]

/-- What `std::getline` reads, call after call, until it fails. -/
def lines : List UInt8 → List (List UInt8)
  | [] => []
  | c :: cs =>
    if c = 10 then [] :: lines cs
    else match lines cs with
      | [] => [[c]]
      | line :: rest => (c :: line) :: rest

theorem lines_ne_nil (text : List UInt8) : lines (text ++ [10]) ≠ [] := by
  cases text with
  | nil => simp [lines]
  | cons c cs =>
    simp only [List.cons_append, lines]
    split_ifs
    · simp
    · split <;> simp

/-- Behind a newline the next line begins. -/
theorem lines_append (text rest : List UInt8) :
    lines (text ++ 10 :: rest) = lines (text ++ [10]) ++ lines rest := by
  induction text with
  | nil => rfl
  | cons c cs ih =>
    obtain ⟨line, more, hcs⟩ := List.exists_cons_of_ne_nil (lines_ne_nil cs)
    simp only [List.cons_append, lines, ih, hcs]
    split_ifs <;> rfl

end Text
