import Mathlib.Data.List.Basic
import Mathlib.Tactic.Linarith

/-!
# Byte memory

A block of memory is a total function from addresses (relative to the start of
the block, so a stray address is just another address) to cells. `read` and
`write` are the two directions of a block copy; `readRing` walks a circular
region and is the content of a ring buffer.
-/

namespace Memory

variable {α : Type*}

/-- `n` consecutive cells from address `off`. -/
def read (m : Int → α) (off : Int) : Nat → List α
  | 0 => []
  | n + 1 => m off :: read m (off + 1) n

/-- Copy a list of cells to address `off`. -/
def write (m : Int → α) (off : Int) : List α → Int → α
  | [] => m
  | x :: xs => fun a => if a = off then x else write m (off + 1) xs a

@[simp] theorem read_length (m : Int → α) (off : Int) (n : Nat) :
    (read m off n).length = n := by
  induction n generalizing off with
  | zero => rfl
  | succ n ih => simp [read, ih]

@[simp] theorem read_zero (m : Int → α) (off : Int) : read m off 0 = [] := rfl

theorem read_succ (m : Int → α) (off : Int) (n : Nat) :
    read m off (n + 1) = m off :: read m (off + 1) n := rfl

theorem read_getElem (m : Int → α) (off : Int) (n i : Nat) (h : i < (read m off n).length) :
    (read m off n)[i] = m (off + i) := by
  induction n generalizing off i with
  | zero => simp at h
  | succ n ih =>
    cases i with
    | zero => simp [read_succ]
    | succ i =>
      simp only [read_succ, List.getElem_cons_succ]
      rw [ih]
      congr 1
      push_cast
      omega

theorem read_add (m : Int → α) (off : Int) (a b : Nat) :
    read m off (a + b) = read m off a ++ read m (off + a) b := by
  induction a generalizing off with
  | zero => simp
  | succ a ih =>
    rw [Nat.succ_add, read_succ, read_succ, ih, List.cons_append]
    congr 3
    push_cast
    omega

theorem read_take (m : Int → α) (off : Int) {k n : Nat} (h : k ≤ n) :
    (read m off n).take k = read m off k := by
  obtain ⟨d, rfl⟩ := Nat.exists_eq_add_of_le h
  rw [read_add]
  simp

theorem read_drop (m : Int → α) (off : Int) {k n : Nat} (h : k ≤ n) :
    (read m off n).drop k = read m (off + k) (n - k) := by
  obtain ⟨d, rfl⟩ := Nat.exists_eq_add_of_le h
  rw [read_add]
  simp

theorem read_congr {m m' : Int → α} {off : Int} {n : Nat}
    (h : ∀ a, off ≤ a → a < off + n → m a = m' a) : read m off n = read m' off n := by
  refine List.ext_getElem (by simp) fun i hi _ => ?_
  rw [read_getElem, read_getElem]
  simp only [read_length] at hi
  exact h _ (by omega) (by omega)

theorem write_outside (m : Int → α) (off : Int) (xs : List α) {a : Int}
    (h : a < off ∨ off + xs.length ≤ a) : write m off xs a = m a := by
  induction xs generalizing off with
  | nil => rfl
  | cons x xs ih =>
    rw [List.length_cons] at h
    push_cast at h
    change (if a = off then x else write m (off + 1) xs a) = m a
    rw [if_neg (by omega)]
    exact ih (off + 1) (by omega)

theorem write_inside (m : Int → α) (off : Int) (xs : List α) {i : Nat} (h : i < xs.length) :
    write m off xs (off + i) = xs[i] := by
  induction xs generalizing off i with
  | nil => simp at h
  | cons x xs ih =>
    cases i with
    | zero => simp [write]
    | succ i =>
      change (if off + ((i + 1 : Nat) : Int) = off then x else
        write m (off + 1) xs (off + ((i + 1 : Nat) : Int))) = (x :: xs)[i + 1]
      rw [if_neg (by omega)]
      have := ih (off + 1) (i := i) (by simpa using h)
      rw [List.getElem_cons_succ, ← this]
      congr 1
      push_cast
      omega

@[simp] theorem read_write_same (m : Int → α) (off : Int) (xs : List α) :
    read (write m off xs) off xs.length = xs := by
  refine List.ext_getElem (by simp) fun i h h' => ?_
  rw [read_getElem, write_inside m off xs h']

theorem read_write_disjoint (m : Int → α) {off off' : Int} {n : Nat} (xs : List α)
    (h : off' + n ≤ off ∨ off + xs.length ≤ off') :
    read (write m off xs) off' n = read m off' n :=
  read_congr fun _ hlo hhi => write_outside m off xs (by omega)

/-- Two blocks written one behind the other are read as one. -/
theorem read_write_write (m : Int → α) (off : Int) (xs ys : List α) :
    read (write (write m off xs) (off + xs.length) ys) off (xs.length + ys.length) = xs ++ ys := by
  rw [read_add, read_write_same, read_write_disjoint _ _ (Or.inl le_rfl), read_write_same]

/-- The address `n` cells after `start` in a ring of `cap` cells, for `n ≤ cap`. -/
def ringPos (cap start : Int) (n : Nat) : Int :=
  if start + n < cap then start + n else start + n - cap

/-- `n` consecutive cells of the ring `[0, cap)`, from `start`. -/
def readRing (m : Int → α) (cap : Int) (start : Int) : Nat → List α
  | 0 => []
  | n + 1 => m start :: readRing m cap (if start + 1 = cap then 0 else start + 1) n

@[simp] theorem readRing_zero (m : Int → α) (cap start : Int) :
    readRing m cap start 0 = [] := rfl

@[simp] theorem readRing_length (m : Int → α) (cap start : Int) (n : Nat) :
    (readRing m cap start n).length = n := by
  induction n generalizing start with
  | zero => rfl
  | succ n ih => simp [readRing, ih]

/-- Up to the end of the block the ring is the block. -/
theorem readRing_eq_read (m : Int → α) {cap start : Int} {n : Nat} (h : start + n ≤ cap) :
    readRing m cap start n = read m start n := by
  induction n generalizing start with
  | zero => rfl
  | succ n ih =>
    rw [readRing, read_succ]
    by_cases he : start + 1 = cap
    · have hn : n = 0 := by omega
      subst hn
      simp
    · rw [if_neg he, ih (by push_cast at h; omega)]

/-- Past the end of the block the ring goes on at its head. -/
theorem readRing_wrap (m : Int → α) {cap start : Int} {n : Nat} (hs : start < cap)
    (h : cap ≤ start + n) :
    readRing m cap start n =
      read m start (cap - start).toNat ++ readRing m cap 0 (start + n - cap).toNat := by
  induction n generalizing start with
  | zero => omega
  | succ n ih =>
    obtain ⟨k, hk⟩ : ∃ k : Nat, (cap - start).toNat = k + 1 := ⟨(cap - start).toNat - 1, by omega⟩
    rw [readRing, hk, read_succ, List.cons_append]
    by_cases he : start + 1 = cap
    · have hk0 : k = 0 := by omega
      subst hk0
      rw [if_pos he]
      simp only [read_zero, List.nil_append]
      congr 2
      push_cast
      omega
    · rw [if_neg he, ih (by omega) (by push_cast at h; omega)]
      congr 3
      · omega
      · push_cast
        omega

theorem readRing_add (m : Int → α) {cap start : Int} (a b : Nat) (h0 : 0 ≤ start)
    (hs : start < cap) (ha : start + a < cap + cap) :
    readRing m cap start (a + b) =
      readRing m cap start a ++ readRing m cap (ringPos cap start a) b := by
  induction a generalizing start with
  | zero => simp [ringPos, hs]
  | succ a ih =>
    rw [Nat.succ_add, readRing, readRing, List.cons_append]
    push_cast at ha
    by_cases he : start + 1 = cap
    · rw [if_pos he, ih (by omega) (by omega) (by omega)]
      congr 3
      unfold ringPos
      push_cast
      split <;> split <;> omega
    · rw [if_neg he, ih (by omega) (by omega) (by omega)]
      congr 3
      unfold ringPos
      push_cast
      split <;> split <;> omega

theorem readRing_congr {m m' : Int → α} {cap start : Int} {n : Nat} (h0 : 0 ≤ start)
    (hs : start < cap) (hn : (n : Int) ≤ cap)
    (h : ∀ i, i < n → m (ringPos cap start i) = m' (ringPos cap start i)) :
    readRing m cap start n = readRing m' cap start n := by
  induction n generalizing start with
  | zero => rfl
  | succ n ih =>
    have hhead : m start = m' start := by
      have h0' := h 0 (by omega)
      simpa [ringPos, hs] using h0'
    rw [readRing, readRing, hhead]
    push_cast at hn
    congr 1
    refine ih (by split <;> omega) (by split <;> omega) (by omega) fun i hi => ?_
    have hstep := h (i + 1) (by omega)
    have hpos : ringPos cap start (i + 1) =
        ringPos cap (if start + 1 = cap then 0 else start + 1) i := by
      unfold ringPos
      push_cast
      split <;> split <;> split <;> omega
    rwa [hpos] at hstep

theorem readRing_take (m : Int → α) {cap start : Int} {k n : Nat} (h : k ≤ n) (h0 : 0 ≤ start)
    (hs : start < cap) (hk : start + k < cap + cap) :
    (readRing m cap start n).take k = readRing m cap start k := by
  obtain ⟨d, rfl⟩ := Nat.exists_eq_add_of_le h
  rw [readRing_add m k d h0 hs hk]
  simp

theorem readRing_drop (m : Int → α) {cap start : Int} {k n : Nat} (h : k ≤ n) (h0 : 0 ≤ start)
    (hs : start < cap) (hk : start + k < cap + cap) :
    (readRing m cap start n).drop k = readRing m cap (ringPos cap start k) (n - k) := by
  obtain ⟨d, rfl⟩ := Nat.exists_eq_add_of_le h
  rw [readRing_add m k d h0 hs hk]
  simp

theorem readRing_getElem (m : Int → α) {cap start : Int} {n i : Nat} (h0 : 0 ≤ start)
    (hs : start < cap) (hi : start + i < cap + cap) (h : i < (readRing m cap start n).length) :
    (readRing m cap start n)[i] = m (ringPos cap start i) := by
  induction n generalizing start i with
  | zero => simp at h
  | succ n ih =>
    cases i with
    | zero => simp [readRing, ringPos, hs]
    | succ i =>
      simp only [readRing, List.getElem_cons_succ]
      push_cast at hi
      by_cases he : start + 1 = cap
      · simp only [if_pos he]
        rw [ih (by omega) (by omega) (by omega)]
        congr 1
        simp only [ringPos]
        push_cast
        split <;> split <;> omega
      · simp only [if_neg he]
        rw [ih (by omega) (by omega) (by omega)]
        congr 1
        simp only [ringPos]
        push_cast
        split <;> split <;> omega

/-- Copy a list into the ring `[0, cap)`, in two pieces when it passes the end. -/
def writeRing (m : Int → α) (cap off : Int) (xs : List α) : Int → α :=
  write (write m off (xs.take (cap - off).toNat)) 0 (xs.drop (cap - off).toNat)

theorem writeRing_eq_write (m : Int → α) {cap off : Int} {xs : List α}
    (h : off + xs.length ≤ cap) : writeRing m cap off xs = write m off xs := by
  have hk : xs.length ≤ (cap - off).toNat := by omega
  simp [writeRing, write, List.take_of_length_le hk, List.drop_of_length_le hk]

theorem writeRing_inside (m : Int → α) {cap off : Int} {xs : List α} {i : Nat}
    (hs : off < cap) (hlen : (xs.length : Int) ≤ cap) (hi : i < xs.length) :
    writeRing m cap off xs (ringPos cap off i) = xs[i] := by
  simp only [writeRing, ringPos]
  by_cases h : off + (i : Int) < cap
  · rw [if_pos h, write_outside _ _ _ (by simp only [List.length_drop]; omega),
      write_inside _ _ _ (by simp only [List.length_take]; omega)]
    simp
  · have hidx : off + (i : Int) - cap = 0 + ((i - (cap - off).toNat : Nat) : Int) := by omega
    rw [if_neg h, hidx, write_inside _ _ _ (by simp only [List.length_drop]; omega)]
    simp only [List.getElem_drop]
    congr 1
    omega

theorem writeRing_outside (m : Int → α) {cap off : Int} {xs : List α} {a : Int} (h0 : 0 ≤ off)
    (hs : off < cap) (ha : ∀ i, i < xs.length → a ≠ ringPos cap off i) :
    writeRing m cap off xs a = m a := by
  have hfirst : a < off ∨ off + (xs.take (cap - off).toNat).length ≤ a := by
    by_contra hc
    simp only [List.length_take] at hc
    refine ha (a - off).toNat (by omega) ?_
    simp only [ringPos]
    split <;> omega
  have hsecond : a < 0 ∨ 0 + ((xs.drop (cap - off).toNat).length : Int) ≤ a := by
    by_contra hc
    simp only [List.length_drop] at hc
    refine ha (a + cap - off).toNat (by omega) ?_
    simp only [ringPos]
    split <;> omega
  rw [writeRing, write_outside _ _ _ hsecond, write_outside _ _ _ hfirst]

theorem readRing_writeRing (m : Int → α) {cap off : Int} {xs : List α} (h0 : 0 ≤ off)
    (hs : off < cap) (hlen : (xs.length : Int) ≤ cap) :
    readRing (writeRing m cap off xs) cap off xs.length = xs := by
  refine List.ext_getElem (by simp) fun i h h' => ?_
  rw [readRing_getElem _ h0 hs (by omega), writeRing_inside m hs hlen h']

end Memory
