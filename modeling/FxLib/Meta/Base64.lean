import FxLib.Lib.Blocks

/-!
# base64

`base64_encode` and `base64_decode`: three bytes and four characters of six bits. A text is read up
to its first character outside the alphabet, with an index that is an `int`; a last group of two or
three characters gives one or two bytes.
-/

namespace Base64

def base64Chars : List UInt8 :=
  "ABCDEFGHIJKLMNOPQRSTUVWXYZabcdefghijklmnopqrstuvwxyz0123456789+/".toUTF8.toList

def base64Char (i : UInt8) : UInt8 := base64Chars.getD i.toNat 0

/-- `base64_chars.find(c)`, cut to a byte. What is not found gives `npos`. -/
def find (c : UInt8) : UInt8 :=
  if base64Chars.idxOf c < 64 then UInt8.ofNat (base64Chars.idxOf c) else 255

def isAlnum (c : UInt8) : Bool := 48 ≤ c ∧ c ≤ 57 ∨ 65 ≤ c ∧ c ≤ 90 ∨ 97 ≤ c ∧ c ≤ 122

def isBase64 (c : UInt8) : Bool := isAlnum c ∨ c = 43 ∨ c = 47

/-- `char_array_4` of three bytes. -/
def toFour (a : List UInt8) : List UInt8 :=
  [(a.getD 0 0 &&& 0xfc) >>> 2,
    ((a.getD 0 0 &&& 0x03) <<< 4) + ((a.getD 1 0 &&& 0xf0) >>> 4),
    ((a.getD 1 0 &&& 0x0f) <<< 2) + ((a.getD 2 0 &&& 0xc0) >>> 6),
    a.getD 2 0 &&& 0x3f]

/-- `char_array_3` of four numbers. -/
def toThree (a : List UInt8) : List UInt8 :=
  [(a.getD 0 0 <<< 2) + ((a.getD 1 0 &&& 0x30) >>> 4),
    ((a.getD 1 0 &&& 0xf) <<< 4) + ((a.getD 2 0 &&& 0x3c) >>> 2),
    ((a.getD 2 0 &&& 0x3) <<< 6) + a.getD 3 0]

/-- Behind the loop `i` bytes are left in `char_array_3`. -/
def encodeRest (charArray3 : List UInt8) : List UInt8 :=
  let i := charArray3.length
  if i = 0 then []
  else ((toFour (charArray3 ++ List.replicate (3 - i) 0)).take (i + 1)).map base64Char
    ++ List.replicate (3 - i) 61

def base64Encode (bytes : List UInt8) : List UInt8 :=
  let s := Blocks.feed 3 (fun ret a => ret ++ (toFour a).map base64Char) ([], []) bytes
  s.1 ++ encodeRest s.2

/-- The zeros that fill the last group are looked up as well. -/
def decodeRest (charArray4 : List UInt8) : List UInt8 :=
  let i := charArray4.length
  if i = 0 then []
  else (toThree ((charArray4 ++ List.replicate (4 - i) 0).map find)).take (i - 1)

/-- What the loop reads. -/
def characters (encodedString : List UInt8) : List UInt8 :=
  encodedString.takeWhile fun c => c ≠ 61 ∧ isBase64 c

/-- With an index that has no end. -/
def decode (encodedString : List UInt8) : List UInt8 :=
  let s := Blocks.feed 4 (fun ret a => ret ++ toThree (a.map find)) ([], [])
    (characters encodedString)
  s.1 ++ decodeRest s.2

/-- `in_` is an `int` that counts the characters; `none` where it overflows. -/
def base64Decode (encodedString : List UInt8) : Option (List UInt8) :=
  if (characters encodedString).length < 2147483648 then some (decode encodedString) else none

/-! ### One character -/

/-- A property of bytes that holds of all 256. -/
private theorem forall_byte {p : UInt8 → Prop} (h : ∀ i : Fin 256, p (UInt8.ofNat i)) :
    ∀ b, p b := fun b => by
  simpa using h ⟨b.toNat, b.toNat_lt⟩

theorem find_base64Char (b : UInt8) :
    b.toNat < 64 → find (base64Char b) = b ∧ isBase64 (base64Char b) = true := by
  revert b
  apply forall_byte
  decide +kernel

theorem base64Char_find (b : UInt8) :
    isBase64 b = true → base64Char (find b) = b ∧ (find b).toNat < 64 := by
  revert b
  apply forall_byte
  decide +kernel

/-- The bit operations of the two functions on one byte. -/
private theorem bits_all (b : UInt8) :
    ((b &&& 0xfc) >>> 2).toNat = b.toNat / 4 ∧ ((b &&& 0x03) <<< 4).toNat = b.toNat % 4 * 16 ∧
      ((b &&& 0xf0) >>> 4).toNat = b.toNat / 16 ∧ ((b &&& 0x0f) <<< 2).toNat = b.toNat % 16 * 4 ∧
      ((b &&& 0xc0) >>> 6).toNat = b.toNat / 64 ∧ (b &&& 0x3f).toNat = b.toNat % 64 ∧
      (b <<< 2).toNat = b.toNat % 64 * 4 ∧ ((b &&& 0x30) >>> 4).toNat = b.toNat / 16 % 4 ∧
      ((b &&& 0xf) <<< 4).toNat = b.toNat % 16 * 16 ∧
      ((b &&& 0x3c) >>> 2).toNat = b.toNat / 4 % 16 ∧
      ((b &&& 0x3) <<< 6).toNat = b.toNat % 4 * 64 := by
  revert b
  apply forall_byte
  decide +kernel

/-! ### One group -/

section

variable (x y z w : UInt8)

theorem toFour_toNat :
    (toFour [x, y, z]).map UInt8.toNat =
      [x.toNat / 4, x.toNat % 4 * 16 + y.toNat / 16, y.toNat % 16 * 4 + z.toNat / 64,
        z.toNat % 64] := by
  have hy := y.toNat_lt
  have hz := z.toNat_lt
  have hsecond : x.toNat % 4 * 16 + y.toNat / 16 < 2 ^ 8 := by omega
  have hthird : y.toNat % 16 * 4 + z.toNat / 64 < 2 ^ 8 := by omega
  simp only [toFour, List.getD_cons_zero, List.getD_cons_succ, List.map_cons, List.map_nil,
    UInt8.toNat_add, bits_all x, bits_all y, bits_all z]
  rw [Nat.mod_eq_of_lt hsecond, Nat.mod_eq_of_lt hthird]

theorem toThree_toNat :
    (toThree [x, y, z, w]).map UInt8.toNat =
      [(x.toNat % 64 * 4 + y.toNat / 16 % 4) % 256,
        (y.toNat % 16 * 16 + z.toNat / 4 % 16) % 256, (z.toNat % 4 * 64 + w.toNat) % 256] := by
  simp only [toThree, List.getD_cons_zero, List.getD_cons_succ, List.map_cons, List.map_nil,
    UInt8.toNat_add, bits_all x, bits_all y, bits_all z]

end

private theorem map_toNat_inj {a b : List UInt8} (h : a.map UInt8.toNat = b.map UInt8.toNat) :
    a = b :=
  List.map_injective_iff.mpr (fun _ _ => UInt8.toNat_inj.mp) h

theorem toFour_lt {a : List UInt8} (h : a.length = 3) : ∀ i ∈ toFour a, i.toNat < 64 := by
  obtain ⟨x, y, z, rfl⟩ := List.length_eq_three.mp h
  have hx := x.toNat_lt
  have hy := y.toNat_lt
  have hz := z.toNat_lt
  intro i hi
  have hmem : i.toNat ∈ (toFour [x, y, z]).map UInt8.toNat := List.mem_map_of_mem hi
  rw [toFour_toNat] at hmem
  simp only [List.mem_cons, List.not_mem_nil, or_false] at hmem
  omega

theorem toThree_toFour {a : List UInt8} (h : a.length = 3) : toThree (toFour a) = a := by
  obtain ⟨x, y, z, rfl⟩ := List.length_eq_three.mp h
  have hx := x.toNat_lt
  have hy := y.toNat_lt
  have hz := z.toNat_lt
  have hfour := toFour_toNat x y z
  obtain ⟨p, q, r, t, hlist⟩ : ∃ p q r t, toFour [x, y, z] = [p, q, r, t] := ⟨_, _, _, _, rfl⟩
  rw [hlist] at hfour ⊢
  simp only [List.map_cons, List.map_nil, List.cons.injEq, and_true] at hfour
  apply map_toNat_inj
  rw [toThree_toNat]
  simp only [List.map_cons, List.map_nil, List.cons.injEq, and_true]
  omega

theorem toFour_toThree {x y z w : UInt8} (hx : x.toNat < 64) (hy : y.toNat < 64)
    (hz : z.toNat < 64) (hw : w.toNat < 64) : toFour (toThree [x, y, z, w]) = [x, y, z, w] := by
  have hthree := toThree_toNat x y z w
  obtain ⟨p, q, r, hlist⟩ : ∃ p q r, toThree [x, y, z, w] = [p, q, r] := ⟨_, _, _, rfl⟩
  rw [hlist] at hthree ⊢
  simp only [List.map_cons, List.map_nil, List.cons.injEq, and_true] at hthree
  apply map_toNat_inj
  rw [toFour_toNat]
  simp only [List.map_cons, List.map_nil, List.cons.injEq, and_true]
  omega

/-! ### Group by group -/

theorem base64Encode_short {a : List UInt8} (h : a.length < 3) :
    base64Encode a = encodeRest a := by
  rw [base64Encode, Blocks.feed_short (by simpa using h)]
  simp

theorem base64Encode_block {a : List UInt8} (h : a.length = 3) (bytes : List UInt8) :
    base64Encode (a ++ bytes) = (toFour a).map base64Char ++ base64Encode bytes := by
  have hne : a ≠ [] := by
    rintro rfl
    simp at h
  rw [base64Encode, Blocks.feed_append, Blocks.feed_block hne (by simpa using h), Blocks.feed_out]
  simp [base64Encode, List.append_assoc]

theorem characters_append {a : List UInt8} (ha : ∀ c ∈ a, c ≠ 61 ∧ isBase64 c = true)
    (rest : List UInt8) : characters (a ++ rest) = a ++ characters rest :=
  List.takeWhile_append_of_pos (by simpa using ha)

/-- Where the text ends or goes on with a character outside the alphabet. -/
theorem decode_short (a rest : List UInt8) (h : a.length < 4)
    (ha : ∀ c ∈ a, c ≠ 61 ∧ isBase64 c = true)
    (hrest : rest.head?.all fun c => c = 61 ∨ isBase64 c = false) :
    decode (a ++ rest) = decodeRest a := by
  have hstop : characters rest = [] := by
    cases rest with
    | nil => rfl
    | cons c rest =>
      simp only [List.head?_cons, Option.all_some, decide_eq_true_eq] at hrest
      rw [characters, List.takeWhile_cons_of_neg]
      simpa [or_iff_not_imp_left] using hrest
  rw [decode, characters_append ha, hstop, List.append_nil, Blocks.feed_short (by simpa using h)]
  simp

theorem decode_block {a : List UInt8} (h : a.length = 4)
    (ha : ∀ c ∈ a, c ≠ 61 ∧ isBase64 c = true) (text : List UInt8) :
    decode (a ++ text) = toThree (a.map find) ++ decode text := by
  have hne : a ≠ [] := by
    rintro rfl
    simp at h
  rw [decode, characters_append ha, Blocks.feed_append, Blocks.feed_block hne (by simpa using h),
    Blocks.feed_out]
  simp [decode, List.append_assoc]

/-- The padding character is none of the alphabet. -/
theorem ne_pad {c : UInt8} (h : isBase64 c = true) : c ≠ 61 := by
  rintro rfl
  simp [isBase64, isAlnum] at h

/-! ### The round trips -/

/-- Whole groups of the alphabet, and a last group whose unused bits are zero. -/
inductive Canonical : List UInt8 → Prop
  | nil : Canonical []
  | one {x y : UInt8} : isBase64 x = true → isBase64 y = true → (find y).toNat % 16 = 0 →
      Canonical [x, y, 61, 61]
  | two {x y z : UInt8} : isBase64 x = true → isBase64 y = true → isBase64 z = true →
      (find z).toNat % 4 = 0 → Canonical [x, y, z, 61]
  | group {x y z w : UInt8} {text : List UInt8} : isBase64 x = true → isBase64 y = true →
      isBase64 z = true → isBase64 w = true → Canonical text → Canonical (x :: y :: z :: w :: text)

/-- The first two numbers of a group that has one byte. -/
theorem base64Encode_one (x : UInt8) : ∃ p q : UInt8, base64Encode [x] =
    [base64Char p, base64Char q, 61, 61] ∧ p.toNat = x.toNat / 4 ∧ q.toNat = x.toNat % 4 * 16 := by
  have hfour := toFour_toNat x 0 0
  obtain ⟨p, q, r, t, hlist⟩ : ∃ p q r t, toFour [x, 0, 0] = [p, q, r, t] := ⟨_, _, _, _, rfl⟩
  rw [hlist] at hfour
  simp only [List.map_cons, List.map_nil, List.cons.injEq, and_true, UInt8.toNat_zero] at hfour
  refine ⟨p, q, ?_, hfour.1, by omega⟩
  rw [base64Encode_short (by simp)]
  simp [encodeRest, hlist, List.replicate]

theorem base64Encode_two (x y : UInt8) : ∃ p q r : UInt8, base64Encode [x, y] =
    [base64Char p, base64Char q, base64Char r, 61] ∧ p.toNat = x.toNat / 4 ∧
      q.toNat = x.toNat % 4 * 16 + y.toNat / 16 ∧ r.toNat = y.toNat % 16 * 4 := by
  have hfour := toFour_toNat x y 0
  obtain ⟨p, q, r, t, hlist⟩ : ∃ p q r t, toFour [x, y, 0] = [p, q, r, t] := ⟨_, _, _, _, rfl⟩
  rw [hlist] at hfour
  simp only [List.map_cons, List.map_nil, List.cons.injEq, and_true, UInt8.toNat_zero] at hfour
  refine ⟨p, q, r, ?_, hfour.1, hfour.2.1, by omega⟩
  rw [base64Encode_short (by simp)]
  simp [encodeRest, hlist]

theorem base64Encode_group {a : List UInt8} (h : a.length = 3) : ∃ p q r t : UInt8,
    toFour a = [p, q, r, t] ∧ p.toNat < 64 ∧ q.toNat < 64 ∧ r.toNat < 64 ∧ t.toNat < 64 := by
  have hlt := toFour_lt h
  obtain ⟨p, q, r, t, hlist⟩ : ∃ p q r t, toFour a = [p, q, r, t] := ⟨_, _, _, _, rfl⟩
  rw [hlist] at hlt
  simp only [List.forall_mem_cons] at hlt
  exact ⟨p, q, r, t, hlist, hlt.1, hlt.2.1, hlt.2.2.1, hlt.2.2.2.1⟩

theorem decode_one {x y : UInt8} (hx : isBase64 x = true) (hy : isBase64 y = true) :
    ∃ b : UInt8, decode [x, y, 61, 61] = [b] ∧
      b.toNat = ((find x).toNat % 64 * 4 + (find y).toNat / 16 % 4) % 256 := by
  have hthree := toThree_toNat (find x) (find y) (find 0) (find 0)
  obtain ⟨b, c, d, hlist⟩ : ∃ b c d, toThree [find x, find y, find 0, find 0] = [b, c, d] :=
    ⟨_, _, _, rfl⟩
  rw [hlist] at hthree
  simp only [List.map_cons, List.map_nil, List.cons.injEq, and_true] at hthree
  refine ⟨b, ?_, hthree.1⟩
  have hdecode := decode_short [x, y] [61, 61] (by simp)
    (by simp [hx, hy, ne_pad hx, ne_pad hy]) (by simp)
  simpa [decodeRest, List.replicate, hlist] using hdecode

theorem decode_two {x y z : UInt8} (hx : isBase64 x = true) (hy : isBase64 y = true)
    (hz : isBase64 z = true) : ∃ b c : UInt8, decode [x, y, z, 61] = [b, c] ∧
      b.toNat = ((find x).toNat % 64 * 4 + (find y).toNat / 16 % 4) % 256 ∧
      c.toNat = ((find y).toNat % 16 * 16 + (find z).toNat / 4 % 16) % 256 := by
  have hthree := toThree_toNat (find x) (find y) (find z) (find 0)
  obtain ⟨b, c, d, hlist⟩ : ∃ b c d, toThree [find x, find y, find z, find 0] = [b, c, d] :=
    ⟨_, _, _, rfl⟩
  rw [hlist] at hthree
  simp only [List.map_cons, List.map_nil, List.cons.injEq, and_true] at hthree
  refine ⟨b, c, ?_, hthree.1, hthree.2.1⟩
  have hdecode := decode_short [x, y, z] [61] (by simp)
    (by simp [hx, hy, hz, ne_pad hx, ne_pad hy, ne_pad hz]) (by simp)
  simpa [decodeRest, List.replicate, hlist] using hdecode

theorem decode_group {x y z w : UInt8} (hx : isBase64 x = true) (hy : isBase64 y = true)
    (hz : isBase64 z = true) (hw : isBase64 w = true) (text : List UInt8) :
    decode (x :: y :: z :: w :: text) =
      toThree [find x, find y, find z, find w] ++ decode text :=
  decode_block (a := [x, y, z, w]) rfl
    (by simp [hx, hy, hz, hw, ne_pad hx, ne_pad hy, ne_pad hz, ne_pad hw]) text

/-- Encoding puts out canonical texts. -/
theorem canonical_base64Encode (bytes : List UInt8) : Canonical (base64Encode bytes) := by
  induction bytes using Blocks.induction (n := 3) (by decide) with
  | short a h =>
    rcases a with _ | ⟨x, _ | ⟨y, _ | ⟨z, a⟩⟩⟩
    · exact .nil
    · obtain ⟨p, q, hencode, hp, hq⟩ := base64Encode_one x
      have hx := x.toNat_lt
      obtain ⟨-, hcharp⟩ := find_base64Char p (by omega)
      obtain ⟨hfindq, hcharq⟩ := find_base64Char q (by omega)
      rw [hencode]
      exact .one hcharp hcharq (by rw [hfindq]; omega)
    · obtain ⟨p, q, r, hencode, hp, hq, hr⟩ := base64Encode_two x y
      have hx := x.toNat_lt
      have hy := y.toNat_lt
      obtain ⟨-, hcharp⟩ := find_base64Char p (by omega)
      obtain ⟨-, hcharq⟩ := find_base64Char q (by omega)
      obtain ⟨hfindr, hcharr⟩ := find_base64Char r (by omega)
      rw [hencode]
      exact .two hcharp hcharq hcharr (by rw [hfindr]; omega)
    · simp only [List.length_cons] at h
      omega
  | block a bytes h ih =>
    obtain ⟨p, q, r, t, hlist, hp, hq, hr, ht⟩ := base64Encode_group h
    rw [base64Encode_block h, hlist]
    exact .group (find_base64Char p hp).2 (find_base64Char q hq).2 (find_base64Char r hr).2
      (find_base64Char t ht).2 ih

theorem decode_encode (bytes : List UInt8) : decode (base64Encode bytes) = bytes := by
  induction bytes using Blocks.induction (n := 3) (by decide) with
  | short a h =>
    rcases a with _ | ⟨x, _ | ⟨y, _ | ⟨z, a⟩⟩⟩
    · rfl
    · obtain ⟨p, q, hencode, hp, hq⟩ := base64Encode_one x
      have hx := x.toNat_lt
      obtain ⟨hfindp, hcharp⟩ := find_base64Char p (by omega)
      obtain ⟨hfindq, hcharq⟩ := find_base64Char q (by omega)
      obtain ⟨b, hdecode, hb⟩ := decode_one hcharp hcharq
      rw [hfindp, hfindq, hp, hq] at hb
      rw [hencode, hdecode, UInt8.toNat_inj.mp (show b.toNat = x.toNat by omega)]
    · obtain ⟨p, q, r, hencode, hp, hq, hr⟩ := base64Encode_two x y
      have hx := x.toNat_lt
      have hy := y.toNat_lt
      obtain ⟨hfindp, hcharp⟩ := find_base64Char p (by omega)
      obtain ⟨hfindq, hcharq⟩ := find_base64Char q (by omega)
      obtain ⟨hfindr, hcharr⟩ := find_base64Char r (by omega)
      obtain ⟨b, c, hdecode, hb, hc⟩ := decode_two hcharp hcharq hcharr
      rw [hfindp, hfindq, hp, hq] at hb
      rw [hfindq, hfindr, hq, hr] at hc
      rw [hencode, hdecode, UInt8.toNat_inj.mp (show b.toNat = x.toNat by omega),
        UInt8.toNat_inj.mp (show c.toNat = y.toNat by omega)]
    · simp only [List.length_cons] at h
      omega
  | block a bytes h ih =>
    obtain ⟨p, q, r, t, hlist, hp, hq, hr, ht⟩ := base64Encode_group h
    obtain ⟨hfindp, hcharp⟩ := find_base64Char p hp
    obtain ⟨hfindq, hcharq⟩ := find_base64Char q hq
    obtain ⟨hfindr, hcharr⟩ := find_base64Char r hr
    obtain ⟨hfindt, hchart⟩ := find_base64Char t ht
    have hgroup := decode_group hcharp hcharq hcharr hchart (base64Encode bytes)
    rw [hfindp, hfindq, hfindr, hfindt, ← hlist, toThree_toFour h, ih] at hgroup
    rw [base64Encode_block h, hlist]
    exact hgroup

/-- A character is the one that its own number stands for. -/
theorem base64Char_eq {c p : UInt8} (hc : isBase64 c = true) (h : p.toNat = (find c).toNat) :
    base64Char p = c := by
  rw [UInt8.toNat_inj.mp h, (base64Char_find c hc).1]

theorem Canonical.encode_decode {text : List UInt8} (h : Canonical text) :
    base64Encode (decode text) = text := by
  induction h with
  | nil => rfl
  | @one x y hx hy hzero =>
    have hxlt := (base64Char_find x hx).2
    have hylt := (base64Char_find y hy).2
    obtain ⟨b, hdecode, hb⟩ := decode_one hx hy
    obtain ⟨p, q, hencode, hp, hq⟩ := base64Encode_one b
    rw [hdecode, hencode, base64Char_eq hx (by omega), base64Char_eq hy (by omega)]
  | @two x y z hx hy hz hzero =>
    have hxlt := (base64Char_find x hx).2
    have hylt := (base64Char_find y hy).2
    have hzlt := (base64Char_find z hz).2
    obtain ⟨b, c, hdecode, hb, hc⟩ := decode_two hx hy hz
    obtain ⟨p, q, r, hencode, hp, hq, hr⟩ := base64Encode_two b c
    rw [hdecode, hencode, base64Char_eq hx (by omega), base64Char_eq hy (by omega),
      base64Char_eq hz (by omega)]
  | @group x y z w text hx hy hz hw htext ih =>
    obtain ⟨hxchar, hxlt⟩ := base64Char_find x hx
    obtain ⟨hychar, hylt⟩ := base64Char_find y hy
    obtain ⟨hzchar, hzlt⟩ := base64Char_find z hz
    obtain ⟨hwchar, hwlt⟩ := base64Char_find w hw
    rw [decode_group hx hy hz hw, base64Encode_block rfl, ih,
      toFour_toThree hxlt hylt hzlt hwlt]
    simp [hxchar, hychar, hzchar, hwchar]

/-- Four characters for every three bytes, and one more than the bytes of a last group. -/
theorem characters_base64Encode (bytes : List UInt8) :
    (characters (base64Encode bytes)).length = (4 * bytes.length + 2) / 3 := by
  induction bytes using Blocks.induction (n := 3) (by decide) with
  | short a h =>
    rcases a with _ | ⟨x, _ | ⟨y, _ | ⟨z, a⟩⟩⟩
    · rfl
    · obtain ⟨p, q, hencode, hp, hq⟩ := base64Encode_one x
      have hx := x.toNat_lt
      obtain ⟨-, hcharp⟩ := find_base64Char p (by omega)
      obtain ⟨-, hcharq⟩ := find_base64Char q (by omega)
      simp [hencode, characters, hcharp, hcharq, ne_pad hcharp, ne_pad hcharq]
    · obtain ⟨p, q, r, hencode, hp, hq, hr⟩ := base64Encode_two x y
      have hx := x.toNat_lt
      have hy := y.toNat_lt
      obtain ⟨-, hcharp⟩ := find_base64Char p (by omega)
      obtain ⟨-, hcharq⟩ := find_base64Char q (by omega)
      obtain ⟨-, hcharr⟩ := find_base64Char r (by omega)
      simp [hencode, characters, hcharp, hcharq, hcharr, ne_pad hcharp, ne_pad hcharq,
        ne_pad hcharr]
    · simp only [List.length_cons] at h
      omega
  | block a bytes h ih =>
    have hall : ∀ c ∈ (toFour a).map base64Char, c ≠ 61 ∧ isBase64 c = true := by
      intro c hc
      obtain ⟨i, hi, rfl⟩ := List.mem_map.mp hc
      have halphabet := (find_base64Char i (toFour_lt h i hi)).2
      exact ⟨ne_pad halphabet, halphabet⟩
    have hfour : ((toFour a).map base64Char).length = 4 := by simp [toFour]
    rw [base64Encode_block h, characters_append hall, List.length_append, List.length_append,
      hfour, ih, h]
    omega

/-- A byte string comes back exactly if the index has room for its text. The texts that come back
are the canonical ones that the index has room for. -/
theorem round_trips :
    (∀ bytes, base64Decode (base64Encode bytes) = some bytes ↔ bytes.length < 1610612736) ∧
      ∀ text, (base64Decode text).map base64Encode = some text ↔
        Canonical text ∧ (characters text).length < 2147483648 := by
  constructor
  · intro bytes
    rw [base64Decode, characters_base64Encode, decode_encode]
    split_ifs with hroom
    · exact iff_of_true rfl (by omega)
    · exact iff_of_false (by simp) (by omega)
  · intro text
    rw [base64Decode]
    split_ifs with hroom
    · rw [Option.map_some, Option.some.injEq, and_iff_left hroom]
      refine ⟨fun h => ?_, Canonical.encode_decode⟩
      rw [← h]
      exact canonical_base64Encode _
    · exact iff_of_false (by simp) fun h => hroom h.2

end Base64
