import FxLib.Lib.Blocks
import FxLib.Lib.ByteOrder

/-!
# The secure hash standard

The digest of a message as the standard of 1995 defines it: the message is padded to blocks of
sixteen words, and a block changes five words in eighty steps.
-/

namespace SecureHash

structure Words where
  a : UInt32
  b : UInt32
  c : UInt32
  d : UInt32
  e : UInt32
  deriving DecidableEq

def Words.add (x y : Words) : Words := ⟨x.a + y.a, x.b + y.b, x.c + y.c, x.d + y.d, x.e + y.e⟩

def rotate (n : UInt32) (x : UInt32) : UInt32 := x <<< n ||| x >>> (32 - n)

def choose (b c d : UInt32) : UInt32 := b &&& c ||| ~~~b &&& d

def parity (b c d : UInt32) : UInt32 := b ^^^ c ^^^ d

def majority (b c d : UInt32) : UInt32 := b &&& c ||| b &&& d ||| c &&& d

/-- The function of step `t`. -/
def logical (t : Nat) : UInt32 → UInt32 → UInt32 → UInt32 :=
  if t < 20 then choose else if t < 40 then parity else if t < 60 then majority else parity

def constant (t : Nat) : UInt32 :=
  if t < 20 then 0x5A827999 else if t < 40 then 0x6ED9EBA1
  else if t < 60 then 0x8F1BBCDC else 0xCA62C1D6

/-- The words of a block, and those that are made from them. -/
def schedule (m : Nat → UInt32) (t : Nat) : UInt32 :=
  if t < 16 then m t
  else rotate 1 (schedule m (t - 3) ^^^ schedule m (t - 8) ^^^ schedule m (t - 14)
    ^^^ schedule m (t - 16))
termination_by t

def step (w : Nat → UInt32) (x : Words) (t : Nat) : Words :=
  ⟨rotate 5 x.a + logical t x.b x.c x.d + x.e + w t + constant t, x.a, rotate 30 x.b, x.c, x.d⟩

/-- Word `t` of a block is spelt by four bytes, the most significant one first. -/
def blockWord (block : List UInt8) (t : Nat) : UInt32 :=
  UInt32.ofNat (ByteOrder.value ((block.drop (4 * t)).take 4))

def compress (h : Words) (block : List UInt8) : Words :=
  h.add ((List.range 80).foldl (step (schedule (blockWord block))) h)

def initial : Words := ⟨0x67452301, 0xEFCDAB89, 0x98BADCFE, 0x10325476, 0xC3D2E1F0⟩

/-- A one bit, as many zeros as the length of eight bytes needs to end a block, and the length. -/
def pad (message : List UInt8) : List UInt8 :=
  message ++ 0x80 :: List.replicate ((119 - message.length % 64) % 64) 0
    ++ ByteOrder.bytes 8 (8 * message.length)

def digest (message : List UInt8) : Words :=
  (Blocks.blocks 64 (pad message)).foldl compress initial

/-- The digest as a text of twenty bytes. -/
def Words.bytes (x : Words) : List UInt8 :=
  [x.a, x.b, x.c, x.d, x.e].flatMap fun w => ByteOrder.bytes 4 w.toNat

theorem pad_length (message : List UInt8) : 64 ∣ (pad message).length := by
  simp only [pad, List.length_append, List.length_cons, List.length_replicate,
    ByteOrder.bytes_length]
  omega

@[simp] theorem Words.bytes_length (x : Words) : x.bytes.length = 20 := by
  simp [Words.bytes]

theorem schedule_of_lt {m : Nat → UInt32} {t : Nat} (h : t < 16) : schedule m t = m t := by
  rw [schedule, if_pos h]

theorem schedule_of_le {m : Nat → UInt32} {t : Nat} (h : 16 ≤ t) :
    schedule m t = rotate 1 (schedule m (t - 3) ^^^ schedule m (t - 8) ^^^ schedule m (t - 14)
      ^^^ schedule m (t - 16)) := by
  rw [schedule, if_neg (by omega)]

theorem steps_choose {t : Nat} (h : t < 20) : logical t = choose ∧ constant t = 0x5A827999 := by
  simp [logical, constant, h]

theorem steps_parity {t : Nat} (h : 20 ≤ t) (h' : t < 40) :
    logical t = parity ∧ constant t = 0x6ED9EBA1 := by
  simp [logical, constant, h', Nat.not_lt.mpr h]

theorem steps_majority {t : Nat} (h : 40 ≤ t) (h' : t < 60) :
    logical t = majority ∧ constant t = 0x8F1BBCDC := by
  simp [logical, constant, h', Nat.not_lt.mpr h, show ¬ t < 20 by omega]

theorem steps_last {t : Nat} (h : 60 ≤ t) : logical t = parity ∧ constant t = 0xCA62C1D6 := by
  simp [logical, constant, Nat.not_lt.mpr h, show ¬ t < 20 by omega, show ¬ t < 40 by omega]

/-- What is fed to the blocks in one piece is what the digest is of. -/
theorem digest_eq_feed (message : List UInt8) :
    Blocks.feed 64 compress (initial, []) (pad message) = (digest message, []) :=
  Blocks.feed_eq_of_dvd (by omega) initial (pad_length message)

/-! ### Arrays that a loop fills -/

section

variable {β : Type*}

/-- `for (t = first; t < first + n; t++) W[t] = next(W, t)`. -/
def fill (next : List β → Nat → β) (first n : Nat) (w : List β) : List β :=
  (List.range' first n).foldl (fun w t => w.set t (next w t)) w

theorem fill_succ (next : List β → Nat → β) (first n : Nat) (w : List β) :
    fill next first (n + 1) w =
      (fill next first n w).set (first + n) (next (fill next first n w) (first + n)) := by
  rw [fill, List.range'_concat, List.foldl_append, Nat.one_mul]
  rfl

@[simp] theorem fill_length (next : List β → Nat → β) (first n : Nat) (w : List β) :
    (fill next first n w).length = w.length := by
  induction n with
  | zero => rfl
  | succ n ih => rw [fill_succ, List.length_set, ih]

/-- A loop whose turns look at earlier cells alone fills its cells with what satisfies the same
recurrence. -/
theorem fill_eq {next : List β → Nat → β} {spec : Nat → β} {first n : Nat} {w : List β}
    (hnext : ∀ w t, first ≤ t → t < first + n → (∀ i < t, w[i]? = some (spec i)) →
      next w t = spec t)
    (hroom : first + n ≤ w.length) (hw : ∀ i < first, w[i]? = some (spec i)) {i : Nat}
    (hi : i < first + n) : (fill next first n w)[i]? = some (spec i) := by
  induction n generalizing i with
  | zero => exact hw i hi
  | succ n ih =>
    have hbefore : ∀ i < first + n, (fill next first n w)[i]? = some (spec i) := fun i hi =>
      ih (fun w t hfirst ht => hnext w t hfirst (by omega)) (by omega) hi
    rw [fill_succ]
    by_cases hlast : i = first + n
    · have hcell : first + n < (fill next first n w).length := by
        rw [fill_length]
        omega
      rw [hlast, List.getElem?_set_self hcell]
      exact congrArg some (hnext _ _ (by omega) (by omega) hbefore)
    · rw [List.getElem?_set_ne (Ne.symm hlast)]
      exact hbefore i (by omega)

end

end SecureHash
