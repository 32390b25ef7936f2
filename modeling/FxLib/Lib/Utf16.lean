import Mathlib.Data.List.Basic

/-!
# UTF-16

Strings of 16 bit code units, and their way through UTF-8. A surrogate that is not one of a pair is
no character: it becomes U+FFFD on the way, so a string comes back if and only if all of its
surrogates are paired.
-/

namespace Utf16

def High (u : UInt16) : Prop := 0xD800 ≤ u.toNat ∧ u.toNat < 0xDC00

def Low (u : UInt16) : Prop := 0xDC00 ≤ u.toNat ∧ u.toNat < 0xE000

instance (u : UInt16) : Decidable (High u) := inferInstanceAs (Decidable (_ ∧ _))

instance (u : UInt16) : Decidable (Low u) := inferInstanceAs (Decidable (_ ∧ _))

/-- Every surrogate is one of a pair. -/
def Paired : List UInt16 → Prop
  | [] => True
  | [u] => ¬ High u ∧ ¬ Low u
  | u :: v :: rest =>
    if High u ∧ Low v then Paired rest else (¬ High u ∧ ¬ Low u) ∧ Paired (v :: rest)

instance decidablePaired : (s : List UInt16) → Decidable (Paired s)
  | [] => inferInstanceAs (Decidable True)
  | [u] => inferInstanceAs (Decidable (¬ High u ∧ ¬ Low u))
  | u :: v :: rest =>
    have := decidablePaired rest
    have := decidablePaired (v :: rest)
    inferInstanceAs (Decidable (if High u ∧ Low v then Paired rest
      else (¬ High u ∧ ¬ Low u) ∧ Paired (v :: rest)))

/-- The character of a unit that is not the first of a pair. -/
def single (u : UInt16) : Char := if High u ∨ Low u then '\uFFFD' else Char.ofNat u.toNat

def pair (u v : UInt16) : Char :=
  Char.ofNat (0x10000 + (u.toNat - 0xD800) * 0x400 + (v.toNat - 0xDC00))

def chars : List UInt16 → List Char
  | [] => []
  | [u] => [single u]
  | u :: v :: rest =>
    if High u ∧ Low v then pair u v :: chars rest else single u :: chars (v :: rest)

def encodeChar (c : Char) : List UInt16 :=
  if c.toNat < 0x10000 then [.ofNat c.toNat]
  else [.ofNat (0xD800 + (c.toNat - 0x10000) / 0x400),
    .ofNat (0xDC00 + (c.toNat - 0x10000) % 0x400)]

def encode (cs : List Char) : List UInt16 := cs.flatMap encodeChar

theorem toNat_ofNat_of_isValid {n : Nat} (h : n.isValidChar) : (Char.ofNat n).toNat = n := by
  rw [Char.ofNat, dif_pos h]
  rfl

theorem encodeChar_single {u : UInt16} (h : ¬ High u ∧ ¬ Low u) : encodeChar (single u) = [u] := by
  have hlt := u.toNat_lt
  have hvalid : u.toNat.isValidChar := by
    have h' := h
    simp only [High, Low] at h'
    rw [Nat.isValidChar]
    omega
  rw [single, if_neg (by tauto), encodeChar, toNat_ofNat_of_isValid hvalid, if_pos (by omega),
    UInt16.ofNat_toNat]

/-- A surrogate by itself does not come back. -/
theorem encodeChar_surrogate {u : UInt16} (h : High u ∨ Low u) :
    encodeChar (single u) = [0xFFFD] ∧ u ≠ 0xFFFD := by
  constructor
  · rw [single, if_pos h]
    rfl
  · rintro rfl
    revert h
    decide

theorem encodeChar_pair {u v : UInt16} (hu : High u) (hv : Low v) :
    encodeChar (pair u v) = [u, v] := by
  obtain ⟨hu, hu'⟩ := hu
  obtain ⟨hv, hv'⟩ := hv
  have hvalid :
      (0x10000 + (u.toNat - 0xD800) * 0x400 + (v.toNat - 0xDC00)).isValidChar := by
    rw [Nat.isValidChar]
    omega
  rw [pair, encodeChar, toNat_ofNat_of_isValid hvalid, if_neg (by omega)]
  have hhigh : 0xD800 + (0x10000 + (u.toNat - 0xD800) * 0x400 + (v.toNat - 0xDC00) - 0x10000) /
      0x400 = u.toNat := by omega
  have hlow : 0xDC00 + (0x10000 + (u.toNat - 0xD800) * 0x400 + (v.toNat - 0xDC00) - 0x10000) %
      0x400 = v.toNat := by omega
  rw [hhigh, hlow, UInt16.ofNat_toNat, UInt16.ofNat_toNat]

theorem encode_chars_iff (s : List UInt16) : encode (chars s) = s ↔ Paired s := by
  induction s using chars.induct with
  | case1 => exact iff_of_true rfl trivial
  | case2 u =>
    rw [chars, encode, List.flatMap_singleton, Paired]
    by_cases h : High u ∨ Low u
    · obtain ⟨hencode, hne⟩ := encodeChar_surrogate h
      rw [hencode]
      refine iff_of_false (fun heq => hne (List.head_eq_of_cons_eq heq).symm) (by tauto)
    · have hplain : ¬ High u ∧ ¬ Low u := by tauto
      exact iff_of_true (encodeChar_single hplain) hplain
  | case3 u v rest hpair ih =>
    rw [chars, if_pos hpair, Paired, if_pos hpair, ← ih, encode, List.flatMap_cons,
      encodeChar_pair hpair.1 hpair.2, encode]
    simp
  | case4 u v rest hpair ih =>
    rw [chars, if_neg hpair, Paired, if_neg hpair, ← ih, encode, List.flatMap_cons]
    by_cases h : High u ∨ Low u
    · obtain ⟨hencode, hne⟩ := encodeChar_surrogate h
      rw [hencode]
      refine iff_of_false (fun heq => hne (List.head_eq_of_cons_eq heq).symm) (by tauto)
    · have hplain : ¬ High u ∧ ¬ Low u := by tauto
      rw [encodeChar_single hplain]
      simp [hplain, encode]

/-! ### UTF-8 -/

def toUtf8 (s : List UInt16) : List UInt8 := (chars s).flatMap String.utf8EncodeChar

/-- What is no UTF-8 is given to `replace`. -/
def ofUtf8 (replace : List UInt8 → List Char) (bytes : List UInt8) : List UInt16 :=
  encode ((bytes.toByteArray.utf8Decode?.map Array.toList).getD (replace bytes))

theorem ofUtf8_toUtf8 (replace : List UInt8 → List Char) (s : List UInt16) :
    ofUtf8 replace (toUtf8 s) = encode (chars s) := by
  have hdecode : (toUtf8 s).toByteArray.utf8Decode? = some (chars s).toArray :=
    List.utf8Decode?_utf8Encode
  rw [ofUtf8, hdecode]
  rfl

/-- The way through UTF-8 brings a string back if and only if its surrogates are paired. -/
theorem ofUtf8_toUtf8_iff (replace : List UInt8 → List Char) (s : List UInt16) :
    ofUtf8 replace (toUtf8 s) = s ↔ Paired s := by
  rw [ofUtf8_toUtf8, encode_chars_iff]

end Utf16
