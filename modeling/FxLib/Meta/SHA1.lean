import FxLib.Lib.Memory
import FxLib.Lib.SecureHash
import FxLib.Lib.Text

/-!
# SHA1

The class of `sha1.h`: a message comes in pieces of any length, and the digest is asked for when
it is complete. The block and the two words of the length are the object's own.
-/

open SecureHash

structure SHA1 where
  /-- `H[5]`, in order. -/
  h : Words
  lengthLow : UInt32
  lengthHigh : UInt32
  messageBlock : Int → UInt8
  messageBlockIndex : Nat
  computed : Bool
  corrupted : Bool

namespace SHA1

def circularShift (bits : UInt32) (word : UInt32) : UInt32 :=
  (word <<< bits) &&& 0xFFFFFFFF ||| (word &&& 0xFFFFFFFF) >>> (32 - bits)

/-- One turn of a loop over `t`. The four loops differ in what they make of `B`, `C` and `D`, and
in the word of `K`. -/
def turn (f : UInt32 → UInt32 → UInt32 → UInt32) (k : UInt32) (w : List UInt32) (x : Words)
    (t : Nat) : Words :=
  let temp := (circularShift 5 x.a + f x.b x.c x.d + x.e + w.getD t 0 + k) &&& 0xFFFFFFFF
  { a := temp, b := x.a, c := circularShift 30 x.b, d := x.c, e := x.d }

/-- The words of `W` that come from the block. -/
def wordOfBlock (messageBlock : Int → UInt8) (t : Nat) : UInt32 :=
  (messageBlock (t * 4)).toUInt32 <<< 24 ||| (messageBlock (t * 4 + 1)).toUInt32 <<< 16
    ||| (messageBlock (t * 4 + 2)).toUInt32 <<< 8 ||| (messageBlock (t * 4 + 3)).toUInt32

/-- `W` behind its two loops. -/
def wordSequence (messageBlock : Int → UInt8) : List UInt32 :=
  let w := fill (fun _ t => wordOfBlock messageBlock t) 0 16 (List.replicate 80 0)
  fill (fun w t => circularShift 1
    (w.getD (t - 3) 0 ^^^ w.getD (t - 8) 0 ^^^ w.getD (t - 14) 0 ^^^ w.getD (t - 16) 0)) 16 64 w

def processMessageBlock (s : SHA1) : SHA1 :=
  let w := wordSequence s.messageBlock
  let x := (List.range' 0 20).foldl
    (turn (fun b c d => (b &&& c) ||| (~~~b &&& d)) 0x5A827999 w) s.h
  let x := (List.range' 20 20).foldl (turn (fun b c d => b ^^^ c ^^^ d) 0x6ED9EBA1 w) x
  let x := (List.range' 40 20).foldl
    (turn (fun b c d => (b &&& c) ||| (b &&& d) ||| (c &&& d)) 0x8F1BBCDC w) x
  let x := (List.range' 60 20).foldl (turn (fun b c d => b ^^^ c ^^^ d) 0xCA62C1D6 w) x
  { s with
    h := {
      a := (s.h.a + x.a) &&& 0xFFFFFFFF
      b := (s.h.b + x.b) &&& 0xFFFFFFFF
      c := (s.h.c + x.c) &&& 0xFFFFFFFF
      d := (s.h.d + x.d) &&& 0xFFFFFFFF
      e := (s.h.e + x.e) &&& 0xFFFFFFFF }
    messageBlockIndex := 0 }

/-- `Message_Block[Message_Block_Index++] = element`. -/
def put (s : SHA1) (element : UInt8) : SHA1 :=
  { s with
    messageBlock := Memory.write s.messageBlock s.messageBlockIndex [element]
    messageBlockIndex := s.messageBlockIndex + 1 }

/-- `while (Message_Block_Index < bound) Message_Block[Message_Block_Index++] = 0`. -/
def putZeros (bound : Nat) (s : SHA1) : SHA1 :=
  if s.messageBlockIndex < bound then putZeros bound (s.put 0) else s
termination_by bound - s.messageBlockIndex
decreasing_by
  simp only [put]
  omega

/-- The eight bytes from `Message_Block[56]`. -/
def putLength (s : SHA1) : SHA1 :=
  { s with messageBlock := Memory.write s.messageBlock 56 [
      (s.lengthHigh >>> 24).toUInt8, (s.lengthHigh >>> 16).toUInt8,
      (s.lengthHigh >>> 8).toUInt8, s.lengthHigh.toUInt8,
      (s.lengthLow >>> 24).toUInt8, (s.lengthLow >>> 16).toUInt8,
      (s.lengthLow >>> 8).toUInt8, s.lengthLow.toUInt8] }

def padMessage (s : SHA1) : SHA1 :=
  let s :=
    if s.messageBlockIndex > 55 then
      ((s.put 0x80).putZeros 64).processMessageBlock.putZeros 56
    else (s.put 0x80).putZeros 56
  s.putLength.processMessageBlock

/-- The length counts eight bits more; `Corrupted` where both words have come round. -/
def countByte (s : SHA1) : SHA1 :=
  let s := { s with lengthLow := (s.lengthLow + 8) &&& 0xFFFFFFFF }
  if s.lengthLow = 0 then
    let s := { s with lengthHigh := (s.lengthHigh + 1) &&& 0xFFFFFFFF }
    if s.lengthHigh = 0 then { s with corrupted := true } else s
  else s

/-- One turn of the loop of `Input`. -/
def takeByte (s : SHA1) (element : UInt8) : SHA1 :=
  let s := (s.put element).countByte
  if s.messageBlockIndex = 64 then s.processMessageBlock else s

/-- The loop of `Input`, which stops where the object is corrupted. -/
def takeBytes (s : SHA1) : List UInt8 → SHA1
  | [] => s
  | element :: message => if s.corrupted then s else takeBytes (s.takeByte element) message

def input (s : SHA1) (message : List UInt8) : SHA1 :=
  if message = [] then s
  else if s.computed ∨ s.corrupted then { s with corrupted := true }
  else s.takeBytes message

/-- `operator<<` of a text: one call of `Input` for each character. -/
def shiftLeft (s : SHA1) (text : List UInt8) : SHA1 :=
  (cString text).foldl (fun s c => s.input [c]) s

/-- The object and `message_digest_array`, `none` where it is left as it was. -/
def result (s : SHA1) : SHA1 × Option Words :=
  if s.corrupted then (s, none)
  else
    let s := if s.computed then s else { s.padMessage with computed := true }
    (s, some s.h)

/-- `Reset` leaves the block. -/
def reset (s : SHA1) : SHA1 :=
  { s with
    lengthLow := 0
    lengthHigh := 0
    messageBlockIndex := 0
    h := ⟨0x67452301, 0xEFCDAB89, 0x98BADCFE, 0x10325476, 0xC3D2E1F0⟩
    computed := false
    corrupted := false }

/-- `messageDigest` is `none` where the caller's array is left as it was. -/
inductive Call where
  | reset
  | input (message : List UInt8)
  | shiftLeft (text : List UInt8)
  | result

def call (s : SHA1) : Call → SHA1 × List (Option Words)
  | .reset => (s.reset, [])
  | .input message => (s.input message, [])
  | .shiftLeft text => (s.shiftLeft text, [])
  | .result => (s.result.1, [s.result.2])

/-- The object after a sequence of calls, and what `Result` said at each of its calls. -/
def calls (s : SHA1) : List Call → SHA1 × List (Option Words)
  | [] => (s, [])
  | c :: cs => (((s.call c).1.calls cs).1, (s.call c).2 ++ ((s.call c).1.calls cs).2)

/-! ### What the class is for -/

/-- The message that has been taken, and whether its digest has been asked for. -/
inductive Hash where
  | taking (message : List UInt8)
  | asked (message : List UInt8)
  | spoilt

namespace Hash

/-- The first length that does not fit 64 bits when it is counted in bits. -/
def limit : Nat := 2 ^ 61

def input : Hash → List UInt8 → Hash
  | h, [] => h
  | taking message, a :: more =>
    if message.length + more.length + 1 < limit then taking (message ++ a :: more) else spoilt
  | asked _, _ :: _ => spoilt
  | spoilt, _ :: _ => spoilt

def call : Hash → Call → Hash × List (Option Words)
  | _, .reset => (taking [], [])
  | h, .input message => (h.input message, [])
  | h, .shiftLeft text => (h.input (cString text), [])
  | taking message, .result => (asked message, [some (digest message)])
  | asked message, .result => (asked message, [some (digest message)])
  | spoilt, .result => (spoilt, [none])

def calls (h : Hash) : List Call → Hash × List (Option Words)
  | [] => (h, [])
  | c :: cs => (((h.call c).1.calls cs).1, (h.call c).2 ++ ((h.call c).1.calls cs).2)

@[simp] theorem input_nil (h : Hash) : h.input [] = h := by cases h <;> rfl

@[simp] theorem spoilt_input (more : List UInt8) : spoilt.input more = spoilt := by
  cases more <;> rfl

/-- Pieces are taken as their concatenation is. -/
theorem input_append (h : Hash) (xs ys : List UInt8) :
    (h.input xs).input ys = h.input (xs ++ ys) := by
  cases xs with
  | nil => simp
  | cons x xs =>
    cases h with
    | taking message =>
      rw [List.cons_append, input, input, List.length_append]
      by_cases hfits : message.length + xs.length + 1 < limit
      · rw [if_pos hfits]
        cases ys with
        | nil => simp [hfits]
        | cons y ys => simp [input, Nat.add_assoc, Nat.add_comm 1]
      · rw [if_neg hfits, spoilt_input, if_neg (by omega)]
    | asked message => rw [List.cons_append, input, spoilt_input, input]
    | spoilt => simp

theorem input_cons (h : Hash) (b : UInt8) (more : List UInt8) :
    h.input (b :: more) = (h.input [b]).input more := (input_append h [b] more).symm

end Hash

/-! ### A block -/

private theorem and_ones (x : UInt32) : x &&& 0xFFFFFFFF = x := UInt32.and_neg_one

theorem circularShift_eq (bits word : UInt32) : circularShift bits word = rotate bits word := by
  rw [circularShift, rotate, and_ones, and_ones]

private theorem shift_or {x y k : Nat} (h : y < 2 ^ k) : x <<< k ||| y = x * 2 ^ k + y := by
  rw [← Nat.shiftLeft_add_eq_or_of_lt h, Nat.shiftLeft_eq]

/-- A byte moved by less than a word loses nothing. -/
private theorem byte_shift (b : UInt8) {k : UInt32} (hk : k.toNat ≤ 24) :
    (b.toUInt32 <<< k).toNat = b.toNat <<< k.toNat := by
  have hb := b.toNat_lt
  have hfits : b.toNat <<< k.toNat < 2 ^ 32 := by
    rw [Nat.shiftLeft_eq]
    calc b.toNat * 2 ^ k.toNat ≤ b.toNat * 2 ^ 24 :=
          Nat.mul_le_mul_left _ (Nat.pow_le_pow_right (by omega) hk)
      _ < 2 ^ 32 := by omega
  rw [UInt32.toNat_shiftLeft, UInt8.toNat_toUInt32, Nat.mod_eq_of_lt (show k.toNat < 32 by omega),
    Nat.mod_eq_of_lt hfits]

theorem word_of_bytes (b0 b1 b2 b3 : UInt8) :
    b0.toUInt32 <<< 24 ||| b1.toUInt32 <<< 16 ||| b2.toUInt32 <<< 8 ||| b3.toUInt32 =
      UInt32.ofNat (ByteOrder.value [b0, b1, b2, b3]) := by
  have h0 := b0.toNat_lt
  have h1 := b1.toNat_lt
  have h2 := b2.toNat_lt
  have h3 := b3.toNat_lt
  have hlow : b2.toNat <<< 8 ||| b3.toNat = b2.toNat * 2 ^ 8 + b3.toNat := shift_or h3
  have hmid : b1.toNat <<< 16 ||| (b2.toNat * 2 ^ 8 + b3.toNat) =
      b1.toNat * 2 ^ 16 + (b2.toNat * 2 ^ 8 + b3.toNat) := shift_or (by omega)
  have htop : b0.toNat <<< 24 ||| (b1.toNat * 2 ^ 16 + (b2.toNat * 2 ^ 8 + b3.toNat)) =
      b0.toNat * 2 ^ 24 + (b1.toNat * 2 ^ 16 + (b2.toNat * 2 ^ 8 + b3.toNat)) :=
    shift_or (by omega)
  apply UInt32.toNat_inj.mp
  calc (b0.toUInt32 <<< 24 ||| b1.toUInt32 <<< 16 ||| b2.toUInt32 <<< 8 ||| b3.toUInt32).toNat
      = b0.toNat <<< 24 ||| (b1.toNat <<< 16 ||| (b2.toNat <<< 8 ||| b3.toNat)) := by
        rw [UInt32.toNat_or, UInt32.toNat_or, UInt32.toNat_or, byte_shift b0 (by decide),
          byte_shift b1 (by decide), byte_shift b2 (by decide), UInt8.toNat_toUInt32,
          Nat.or_assoc, Nat.or_assoc]
        rfl
    _ = b0.toNat * 2 ^ 24 + (b1.toNat * 2 ^ 16 + (b2.toNat * 2 ^ 8 + b3.toNat)) := by
        rw [hlow, hmid, htop]
    _ = (UInt32.ofNat (ByteOrder.value [b0, b1, b2, b3])).toNat := by
        rw [UInt32.toNat_ofNat', Nat.mod_eq_of_lt]
        · simp [ByteOrder.value]
        · exact lt_of_lt_of_eq (ByteOrder.value_lt [b0, b1, b2, b3]) (by simp)

theorem wordOfBlock_eq (messageBlock : Int → UInt8) {t : Nat} (ht : t < 16) :
    wordOfBlock messageBlock t = blockWord (Memory.read messageBlock 0 64) t := by
  rw [wordOfBlock, word_of_bytes, blockWord, Memory.read_drop _ _ (by omega),
    Memory.read_take _ _ (by omega)]
  have hstart : (0 : Int) + (4 * t : Nat) = t * 4 := by omega
  simp only [hstart, Memory.read]
  congr 6

/-- The two loops over `W` make the words of the standard. -/
theorem wordSequence_eq (messageBlock : Int → UInt8) {t : Nat} (ht : t < 80) :
    (wordSequence messageBlock).getD t 0 =
      schedule (blockWord (Memory.read messageBlock 0 64)) t := by
  have hall : (wordSequence messageBlock)[t]? =
      some (schedule (blockWord (Memory.read messageBlock 0 64)) t) := by
    refine fill_eq (fun w t hfirst _ hw => ?_) (by simp) (fun i hi => ?_) ht
    · simp only [List.getD, hw (t - 3) (by omega), hw (t - 8) (by omega), hw (t - 14) (by omega),
        hw (t - 16) (by omega), Option.getD_some]
      rw [circularShift_eq, schedule_of_le hfirst]
    · refine fill_eq (fun w t _ ht _ => ?_) (by simp) (fun i hi => absurd hi (by omega)) (by omega)
      rw [wordOfBlock_eq messageBlock (by omega), schedule_of_lt (by omega)]
  rw [List.getD, hall, Option.getD_some]

/-- A loop over `t` makes steps of the standard where its function and word are those of `t`. -/
theorem turns_eq {f : UInt32 → UInt32 → UInt32 → UInt32} {k : UInt32} {w : List UInt32}
    {w' : Nat → UInt32} {first n : Nat} (hw : ∀ t < first + n, w.getD t 0 = w' t)
    (hf : ∀ t, first ≤ t → t < first + n → logical t = f ∧ constant t = k) (x : Words) :
    (List.range' first n).foldl (turn f k w) x = (List.range' first n).foldl (step w') x := by
  apply List.foldl_ext
  intro x t ht
  obtain ⟨i, hi, rfl⟩ := List.mem_range'.mp ht
  obtain ⟨hlogical, hconstant⟩ := hf (first + 1 * i) (by omega) (by omega)
  rw [turn, step, and_ones, circularShift_eq, circularShift_eq, hw _ (by omega), hlogical,
    hconstant]

theorem processMessageBlock_eq (s : SHA1) :
    s.processMessageBlock = { s with
      h := compress s.h (Memory.read s.messageBlock 0 64)
      messageBlockIndex := 0 } := by
  have hw : ∀ t < 80, (wordSequence s.messageBlock).getD t 0 =
      schedule (blockWord (Memory.read s.messageBlock 0 64)) t := fun t ht =>
    wordSequence_eq s.messageBlock ht
  have hfirst := turns_eq (fun t ht => hw t (by omega)) fun t _ (h : t < 0 + 20) =>
    steps_choose (by omega)
  have hsecond := turns_eq (fun t ht => hw t (by omega)) fun t h (h' : t < 20 + 20) =>
    steps_parity h h'
  have hthird := turns_eq (fun t ht => hw t (by omega)) fun t h (h' : t < 40 + 20) =>
    steps_majority h h'
  have hlast := turns_eq (fun t ht => hw t (by omega)) fun t h (_ : t < 60 + 20) =>
    steps_last h
  have hrange : List.range 80 =
      List.range' 0 20 ++ List.range' 20 20 ++ List.range' 40 20 ++ List.range' 60 20 := by
    decide
  have hturns : s.processMessageBlock = { s with
      h := s.h.add ((List.range' 60 20).foldl (turn parity 0xCA62C1D6 (wordSequence s.messageBlock))
        ((List.range' 40 20).foldl (turn majority 0x8F1BBCDC (wordSequence s.messageBlock))
          ((List.range' 20 20).foldl (turn parity 0x6ED9EBA1 (wordSequence s.messageBlock))
            ((List.range' 0 20).foldl (turn choose 0x5A827999 (wordSequence s.messageBlock)) s.h))))
      messageBlockIndex := 0 } := by
    simp only [processMessageBlock, and_ones]
    rfl
  rw [hturns, hfirst, hsecond, hthird, hlast, compress, hrange, List.foldl_append,
    List.foldl_append, List.foldl_append]

/-- The bytes of a word as the source takes them out. -/
theorem bytes_of_word (x : UInt32) :
    [(x >>> 24).toUInt8, (x >>> 16).toUInt8, (x >>> 8).toUInt8, x.toUInt8] =
      ByteOrder.bytes 4 x.toNat := by
  have hbyte : ∀ (k : UInt32) (j : Nat), k.toNat = 8 * j → j < 4 →
      (x >>> k).toUInt8 = UInt8.ofNat (x.toNat / 256 ^ j) := by
    intro k j hk hj
    apply UInt8.toNat_inj.mp
    rw [UInt32.toNat_toUInt8, UInt32.toNat_shiftRight, UInt8.toNat_ofNat', hk,
      Nat.mod_eq_of_lt (show 8 * j < 32 by omega), Nat.shiftRight_eq_div_pow, pow_mul]
    rfl
  have hlow : x.toUInt8 = UInt8.ofNat (x.toNat / 256 ^ 0) := by
    apply UInt8.toNat_inj.mp
    simp
  rw [hbyte 24 3 rfl (by omega), hbyte 16 2 rfl (by omega), hbyte 8 1 rfl (by omega), hlow]
  rfl

/-! ### The bytes that wait in the block -/

/-- The object has these words and these waiting bytes. Around the block the memory is `m`. -/
structure Holds (m : Int → UInt8) (s : SHA1) (h : Words) (waiting : List UInt8) : Prop where
  h : s.h = h
  index : s.messageBlockIndex = waiting.length
  block : Memory.read s.messageBlock 0 waiting.length = waiting
  outside : ∀ a, a < 0 ∨ 64 ≤ a → s.messageBlock a = m a

/-- The length in bits, in two words. -/
def bits (s : SHA1) : Nat := s.lengthHigh.toNat * 2 ^ 32 + s.lengthLow.toNat

variable {m : Int → UInt8} {s : SHA1} {h : Words} {waiting : List UInt8}

theorem Holds.put (hs : Holds m s h waiting) (hroom : waiting.length < 64) (element : UInt8) :
    Holds m (s.put element) h (waiting ++ [element]) := by
  have hindex := hs.index
  refine ⟨hs.h, by simp [SHA1.put, hs.index], ?_, fun a ha => ?_⟩
  case refine_2 =>
    rw [← hs.outside a ha]
    exact Memory.write_outside _ _ _ (by simp; omega)
  have hfront : Memory.read s.messageBlock 0 s.messageBlockIndex = waiting := by
    rw [hs.index, hs.block]
  rw [SHA1.put, List.length_append, List.length_singleton, Memory.read_add, ← hs.index,
    Memory.read_write_disjoint _ _ (by omega), hfront, Int.zero_add]
  exact congrArg (waiting ++ ·)
    (Memory.read_write_same s.messageBlock s.messageBlockIndex [element])

theorem Holds.process (hs : Holds m s h waiting) (hfull : waiting.length = 64) :
    Holds m s.processMessageBlock (compress h waiting) [] := by
  have hblock : Memory.read s.messageBlock 0 64 = waiting := by rw [← hfull, hs.block]
  rw [processMessageBlock_eq]
  exact ⟨by rw [hs.h, hblock], rfl, rfl, hs.outside⟩

theorem Holds.putZeros (hs : Holds m s h waiting) {bound : Nat} (hbound : bound ≤ 64)
    (hle : waiting.length ≤ bound) :
    Holds m (s.putZeros bound) h (waiting ++ List.replicate (bound - waiting.length) 0) := by
  induction s using SHA1.putZeros.induct bound generalizing waiting with
  | case1 s hlt ih =>
    rw [hs.index] at hlt
    have hnext := ih (hs.put (by omega) 0) (by simp; omega)
    obtain ⟨k, hk⟩ : ∃ k, bound - waiting.length = k + 1 :=
      ⟨bound - waiting.length - 1, by omega⟩
    have hrest : bound - (waiting ++ [(0 : UInt8)]).length = k := by simp; omega
    rw [hrest] at hnext
    rw [SHA1.putZeros, hs.index, if_pos hlt, hk, List.replicate_succ]
    simpa using hnext
  | case2 s hge =>
    rw [SHA1.putZeros, if_neg hge]
    rw [hs.index] at hge
    simpa [show bound - waiting.length = 0 by omega] using hs

@[simp] theorem bits_put (s : SHA1) (element : UInt8) : (s.put element).bits = s.bits := rfl

@[simp] theorem bits_putZeros (s : SHA1) (bound : Nat) : (s.putZeros bound).bits = s.bits := by
  induction s using SHA1.putZeros.induct bound with
  | case1 s hlt ih => rw [SHA1.putZeros, if_pos hlt, ih, bits_put]
  | case2 s hge => rw [SHA1.putZeros, if_neg hge]

@[simp] theorem bits_process (s : SHA1) : s.processMessageBlock.bits = s.bits := by
  simp only [processMessageBlock_eq, bits]

/-- The eight bytes at the end of the block, which the index does not count. -/
theorem Holds.processLength (hs : Holds m s h waiting) (h56 : waiting.length = 56) :
    Holds m s.putLength.processMessageBlock
      (compress h (waiting ++ ByteOrder.bytes 8 s.bits)) [] := by
  have hlow := s.lengthLow.toNat_lt
  have hbytes : ByteOrder.bytes 8 s.bits =
      ByteOrder.bytes 4 s.lengthHigh.toNat ++ ByteOrder.bytes 4 s.lengthLow.toNat := by
    have hhigh : (s.lengthHigh.toNat * 256 ^ 4 + s.lengthLow.toNat) / 256 ^ 4 =
        s.lengthHigh.toNat := by omega
    rw [bits, show (2 : Nat) ^ 32 = 256 ^ 4 by norm_num, ByteOrder.bytes_add 4 4, hhigh,
      ByteOrder.bytes_add_mul]
  have hblock : Memory.read s.putLength.messageBlock 0 (56 + 8) =
      waiting ++ ByteOrder.bytes 8 s.bits := by
    have hfront : Memory.read s.messageBlock 0 56 = waiting := by rw [← h56, hs.block]
    rw [hbytes, ← bytes_of_word, ← bytes_of_word, putLength, Memory.read_add,
      Memory.read_write_disjoint _ _ (by omega), hfront]
    exact congrArg (waiting ++ ·)
      (Memory.read_write_same s.messageBlock 56 [_, _, _, _, _, _, _, _])
  rw [processMessageBlock_eq, hblock]
  refine ⟨by rw [← hs.h]; rfl, rfl, rfl, fun a ha => ?_⟩
  rw [← hs.outside a ha]
  exact Memory.write_outside _ _ _ (by simp; omega)

theorem padMessage_long (h : 55 < s.messageBlockIndex) : s.padMessage =
    (((s.put 0x80).putZeros 64).processMessageBlock.putZeros 56).putLength.processMessageBlock := by
  rw [padMessage]
  exact congrArg (fun s : SHA1 => s.putLength.processMessageBlock) (if_pos h)

theorem padMessage_short (h : ¬ 55 < s.messageBlockIndex) : s.padMessage =
    ((s.put 0x80).putZeros 56).putLength.processMessageBlock := by
  rw [padMessage]
  exact congrArg (fun s : SHA1 => s.putLength.processMessageBlock) (if_neg h)

/-- The padding, whichever of the two ways is taken. -/
theorem Holds.pad (hs : Holds m s h waiting) (hlt : waiting.length < 64) :
    Holds m s.padMessage (Blocks.feed 64 compress (h, waiting)
      (0x80 :: List.replicate ((119 - waiting.length) % 64) 0
        ++ ByteOrder.bytes 8 s.bits)).1 [] := by
  have hone := hs.put hlt 0x80
  have hlen : (waiting ++ [(0x80 : UInt8)]).length = waiting.length + 1 := List.length_append
  by_cases hlong : 55 < waiting.length
  · -- the zeros go on in a second block
    have hfilled := hone.putZeros le_rfl (by omega)
    rw [hlen] at hfilled
    have hlast := ((hfilled.process (by simp; omega)).putZeros (show 56 ≤ 64 by omega)
      (by simp)).processLength (by simp)
    rw [bits_putZeros, bits_process, bits_putZeros, bits_put, List.nil_append, List.length_nil,
      List.append_assoc] at hlast
    have hfirst : Blocks.feed 64 compress (h, waiting)
        (0x80 :: List.replicate (64 - (waiting.length + 1)) 0) =
        (compress h (waiting ++ 0x80 :: List.replicate (64 - (waiting.length + 1)) 0), []) :=
      Blocks.feed_block (by simp) (by simp; omega)
    have hsplit : (119 - waiting.length) % 64 = (64 - (waiting.length + 1)) + 56 := by omega
    rw [padMessage_long (by rwa [hs.index]), hsplit, List.replicate_add,
      ← List.cons_append, List.append_assoc, Blocks.feed_append, hfirst,
      Blocks.feed_block (by simp) (by simp), List.nil_append]
    exact hlast
  · have hlast := (hone.putZeros (show 56 ≤ 64 by omega) (by omega)).processLength (by simp; omega)
    rw [hlen, bits_putZeros, bits_put, List.append_assoc, List.append_assoc] at hlast
    have hcount : (119 - waiting.length) % 64 = 56 - (waiting.length + 1) := by omega
    rw [padMessage_short (by rwa [hs.index]), hcount,
      Blocks.feed_block (by simp) (by simp; omega), List.cons_append]
    exact hlast

/-! ### Input -/

theorem Holds.countByte (hs : Holds m s h waiting) : Holds m s.countByte h waiting := by
  obtain ⟨hh, hindex, hblock, houtside⟩ := hs
  simp only [SHA1.countByte]
  split_ifs <;> exact ⟨hh, hindex, hblock, houtside⟩

@[simp] theorem countByte_computed (s : SHA1) : s.countByte.computed = s.computed := by
  simp only [countByte]
  split_ifs <;> rfl

/-- The two words count to 2^64 bits. -/
theorem countByte_bits {n : Nat} (hbits : s.bits = 8 * n) (hopen : s.corrupted = false) :
    if n + 1 < Hash.limit then s.countByte.bits = 8 * (n + 1) ∧ s.countByte.corrupted = false
    else s.countByte.corrupted = true := by
  have hlow := s.lengthLow.toNat_lt
  have hhigh := s.lengthHigh.toNat_lt
  have hlow8 : (s.lengthLow + 8).toNat = (s.lengthLow.toNat + 8) % 2 ^ 32 := by
    simp [UInt32.toNat_add]
  have hhigh1 : (s.lengthHigh + 1).toNat = (s.lengthHigh.toNat + 1) % 2 ^ 32 := by
    simp [UInt32.toNat_add]
  rw [bits] at hbits
  simp only [countByte, and_ones, ← UInt32.toNat_inj, hlow8, hhigh1, UInt32.toNat_zero,
    Hash.limit]
  split_ifs with hshort hzero hzero' hzero hzero'
  · exfalso
    omega
  · refine ⟨?_, hopen⟩
    have hcarry : (s.lengthHigh.toNat + 1) % 2 ^ 32 = s.lengthHigh.toNat + 1 := by omega
    have hcome : s.lengthLow.toNat + 8 = 2 ^ 32 := by omega
    rw [bits, hlow8, hhigh1, hcarry, hzero, Nat.mul_add, ← hbits]
    clear hzero hzero' hcarry hlow8 hhigh1 hbits
    omega
  · refine ⟨?_, hopen⟩
    simp only [bits, hlow8]
    omega
  · rfl
  · exfalso
    omega
  · exfalso
    omega

/-- What the object holds for each state of its abstract one. Around the block the memory is
`m`. -/
inductive Represents (m : Int → UInt8) (s : SHA1) : Hash → Prop
  | taking {message : List UInt8} :
      Holds m s (Blocks.feed 64 compress (initial, []) message).1
        (Blocks.feed 64 compress (initial, []) message).2 →
      s.bits = 8 * message.length → message.length < Hash.limit →
      s.computed = false → s.corrupted = false → Represents m s (.taking message)
  | asked {message : List UInt8} :
      Holds m s (digest message) [] → s.computed = true → s.corrupted = false →
      Represents m s (.asked message)
  | spoilt :
      s.corrupted = true → (∀ a, a < 0 ∨ 64 ≤ a → s.messageBlock a = m a) →
      Represents m s .spoilt

variable {message : List UInt8} {a : Hash}

theorem waiting_length (message : List UInt8) :
    (Blocks.feed 64 compress (initial, []) message).2.length < 64 := by
  rw [Blocks.feed_eq (by decide)]
  exact Blocks.rest_length_lt (by decide) message

theorem Holds.takeByte (hs : Holds m s h waiting) (hlt : waiting.length < 64) (element : UInt8) :
    Holds m (s.takeByte element) (Blocks.push 64 compress (h, waiting) element).1
      (Blocks.push 64 compress (h, waiting) element).2 := by
  have hput := (hs.put hlt element).countByte
  have hlen : (waiting ++ [element]).length = waiting.length + 1 := List.length_append
  rw [SHA1.takeByte, Blocks.push]
  by_cases hfull : waiting.length + 1 = 64
  · rw [if_pos hfull, if_pos (by rw [hput.index, hlen, hfull])]
    exact hput.process (by rw [hlen, hfull])
  · rw [if_neg hfull, if_neg (by rwa [hput.index, hlen])]
    exact hput

theorem takeByte_flags (s : SHA1) (element : UInt8) :
    (s.takeByte element).bits = (s.put element).countByte.bits ∧
      (s.takeByte element).computed = s.computed ∧
      (s.takeByte element).corrupted = (s.put element).countByte.corrupted := by
  have hcomputed : (s.put element).countByte.computed = s.computed := countByte_computed _
  rw [← hcomputed]
  simp only [takeByte]
  split_ifs
  · exact ⟨bits_process _, by rw [processMessageBlock_eq], by rw [processMessageBlock_eq]⟩
  · exact ⟨rfl, rfl, rfl⟩

theorem Represents.takeByte (hs : Represents m s (.taking message)) (element : UInt8) :
    Represents m (s.takeByte element) ((Hash.taking message).input [element]) := by
  obtain ⟨hholds, hbits, -, hcomputed, hcorrupted⟩ := hs
  have hnext := hholds.takeByte (waiting_length message) element
  have hflags := takeByte_flags s element
  have hcount := countByte_bits (s := s.put element) hbits hcorrupted
  rw [Hash.input, List.length_nil, Nat.add_zero]
  by_cases hshort : message.length + 1 < Hash.limit
  · rw [if_pos hshort] at hcount ⊢
    refine .taking ?_ ?_ ?_ (hflags.2.1.trans hcomputed) (hflags.2.2.trans hcount.2)
    · rw [Blocks.feed_snoc]
      exact hnext
    · rw [hflags.1, hcount.1, List.length_append, List.length_singleton]
    · rwa [List.length_append, List.length_singleton]
  · rw [if_neg hshort] at hcount ⊢
    exact .spoilt (hflags.2.2.trans hcount) hnext.outside

theorem takeBytes_corrupted (hs : s.corrupted = true) (more : List UInt8) :
    s.takeBytes more = s := by
  cases more with
  | nil => rfl
  | cons element more => rw [takeBytes, if_pos hs]

theorem Represents.takeBytes (hs : Represents m s (.taking message)) (more : List UInt8) :
    Represents m (s.takeBytes more) ((Hash.taking message).input more) := by
  induction more generalizing s message with
  | nil => exact hs
  | cons element more ih =>
    have hopen : ¬ s.corrupted = true := by
      cases hs with
      | taking _ _ _ _ hcorrupted => simp [hcorrupted]
    have hstep := hs.takeByte element
    rw [SHA1.takeBytes, if_neg hopen, Hash.input_cons]
    rw [Hash.input, List.length_nil, Nat.add_zero] at hstep ⊢
    by_cases hshort : message.length + 1 < Hash.limit
    · rw [if_pos hshort] at hstep ⊢
      exact ih hstep
    · rw [if_neg hshort] at hstep ⊢
      cases hstep with
      | spoilt hcorrupted houtside =>
        rw [Hash.spoilt_input, takeBytes_corrupted hcorrupted]
        exact .spoilt hcorrupted houtside

theorem Represents.outside (hs : Represents m s a) :
    ∀ i, i < 0 ∨ 64 ≤ i → s.messageBlock i = m i := by
  cases hs with
  | taking hholds => exact hholds.outside
  | asked hholds => exact hholds.outside
  | spoilt _ houtside => exact houtside

theorem Represents.input (hs : Represents m s a) (more : List UInt8) :
    Represents m (s.input more) (a.input more) := by
  rw [SHA1.input]
  cases more with
  | nil => simpa using hs
  | cons element more =>
    rw [if_neg (List.cons_ne_nil _ _)]
    cases hs with
    | taking hholds hbits hfits hcomputed hcorrupted =>
      rw [if_neg (by simp [hcomputed, hcorrupted])]
      exact Represents.takeBytes (.taking hholds hbits hfits hcomputed hcorrupted) _
    | asked hholds hcomputed hcorrupted =>
      rw [if_pos (Or.inl hcomputed)]
      exact .spoilt rfl hholds.outside
    | spoilt hcorrupted houtside =>
      rw [if_pos (Or.inr hcorrupted)]
      exact .spoilt rfl houtside

/-- One call of `Input` for each character does what one call for the text does. -/
theorem Represents.shiftLeft (hs : Represents m s a) (text : List UInt8) :
    Represents m (s.shiftLeft text) (a.input (cString text)) := by
  rw [SHA1.shiftLeft]
  generalize cString text = chars
  induction chars generalizing s a with
  | nil => simpa using hs
  | cons c chars ih =>
    rw [List.foldl_cons, Hash.input_cons]
    exact ih (hs.input [c])

theorem represents_reset (houtside : ∀ i, i < 0 ∨ 64 ≤ i → s.messageBlock i = m i) :
    Represents m s.reset (.taking []) := by
  have hbits : s.reset.bits = 8 * ([] : List UInt8).length := by simp [bits, reset]
  have hfits : ([] : List UInt8).length < Hash.limit := by simp [Hash.limit]
  exact .taking ⟨rfl, rfl, rfl, houtside⟩ hbits hfits rfl rfl

theorem putZeros_corrupted (s : SHA1) (bound : Nat) :
    (s.putZeros bound).corrupted = s.corrupted := by
  induction s using SHA1.putZeros.induct bound with
  | case1 s hlt ih => rw [SHA1.putZeros, if_pos hlt, ih, put]
  | case2 s hge => rw [SHA1.putZeros, if_neg hge]

theorem padMessage_corrupted (s : SHA1) : s.padMessage.corrupted = s.corrupted := by
  have hprocess : ∀ s : SHA1, s.processMessageBlock.corrupted = s.corrupted := fun s => by
    rw [processMessageBlock_eq]
  by_cases hlong : 55 < s.messageBlockIndex
  · rw [padMessage_long hlong, hprocess, putLength, putZeros_corrupted, hprocess,
      putZeros_corrupted, put]
  · rw [padMessage_short hlong, hprocess, putLength, putZeros_corrupted, put]

/-- What has been taken, padded, is what the standard pads. -/
theorem digest_eq_pad {n : Nat} (hn : n = 8 * message.length) :
    (Blocks.feed 64 compress (Blocks.feed 64 compress (initial, []) message)
      (0x80 :: List.replicate
          ((119 - (Blocks.feed 64 compress (initial, []) message).2.length) % 64) 0
        ++ ByteOrder.bytes 8 n)).1 = digest message := by
  have hrest : (Blocks.feed 64 compress (initial, []) message).2.length =
      message.length % 64 := by
    rw [Blocks.feed_eq (by decide)]
    exact Blocks.rest_length message
  rw [← Blocks.feed_append, hrest, hn, ← List.append_assoc]
  exact congrArg Prod.fst (digest_eq_feed message)

theorem Represents.result (hs : Represents m s a) :
    Represents m s.result.1 (a.call .result).1 ∧ [s.result.2] = (a.call .result).2 := by
  cases hs with
  | @taking message hholds hbits hfits hcomputed hcorrupted =>
    have hpad := hholds.pad (waiting_length message)
    have hresult : s.result =
        ({ s.padMessage with computed := true }, some s.padMessage.h) := by
      simp [SHA1.result, hcomputed, hcorrupted]
    rw [digest_eq_pad hbits] at hpad
    rw [hresult, hpad.h]
    refine ⟨.asked ⟨hpad.h, hpad.index, hpad.block, hpad.outside⟩ rfl ?_, rfl⟩
    exact (padMessage_corrupted s).trans hcorrupted
  | @asked message hholds hcomputed hcorrupted =>
    have hresult : s.result = (s, some (digest message)) := by
      simp [SHA1.result, hcomputed, hcorrupted, hholds.h]
    rw [hresult]
    exact ⟨.asked hholds hcomputed hcorrupted, rfl⟩
  | spoilt hcorrupted houtside =>
    rw [SHA1.result, if_pos hcorrupted]
    exact ⟨.spoilt hcorrupted houtside, rfl⟩

theorem Represents.call (hs : Represents m s a) (c : Call) :
    Represents m (s.call c).1 (a.call c).1 ∧ (s.call c).2 = (a.call c).2 := by
  cases c with
  | reset => exact ⟨represents_reset hs.outside, rfl⟩
  | input more => exact ⟨hs.input more, rfl⟩
  | shiftLeft text => exact ⟨hs.shiftLeft text, rfl⟩
  | result => exact hs.result

theorem Represents.calls (hs : Represents m s a) (cs : List Call) :
    Represents m (s.calls cs).1 (a.calls cs).1 ∧ (s.calls cs).2 = (a.calls cs).2 := by
  induction cs generalizing s a with
  | nil => exact ⟨hs, rfl⟩
  | cons c cs ih =>
    obtain ⟨hnext, hvalue⟩ := hs.call c
    obtain ⟨hlast, hlater⟩ := ih hnext
    exact ⟨hlast, by rw [SHA1.calls, Hash.calls, hvalue, hlater]⟩

/-- From its constructor on, whatever is called in whatever order, the object gives the digests of
the standard of the messages it has been told, and leaves the memory around its block alone. -/
theorem calls_eq (s : SHA1) (cs : List Call) :
    (s.reset.calls cs).2 = (Hash.calls (.taking []) cs).2 ∧
      ∀ i, i < 0 ∨ 64 ≤ i → (s.reset.calls cs).1.messageBlock i = s.messageBlock i := by
  obtain ⟨hlast, hvalue⟩ := (represents_reset (fun _ _ => rfl)).calls cs
  exact ⟨hvalue, hlast.outside⟩

/-- The first example of the standard, "abc". -/
example : ((SHA1.mk initial 0 0 (fun _ => 0) 0 false false).reset.calls
    [.shiftLeft [97, 98, 99], .result]).2 =
      [some ⟨0xA9993E36, 0x4706816A, 0xBA3E2571, 0x7850C26C, 0x9CD0D89D⟩] := by
  decide +kernel

end SHA1
