import Mathlib.Data.List.Basic
import Mathlib.Data.List.Induction
import Mathlib.Tactic.Linarith

/-!
# Block functions

A function of whole blocks that is fed one element at a time. What has been fed is the state after
the whole blocks and the elements that wait for their block to fill.
-/

namespace Blocks

variable {α σ : Type*} (n : Nat) (f : σ → List α → σ)

/-- The `n`-element blocks of a list. A rest that does not fill one is left out. -/
def blocks (xs : List α) : List (List α) :=
  (List.range (xs.length / n)).map fun i => (xs.drop (n * i)).take n

/-- What does not fill a block. -/
def rest (xs : List α) : List α := xs.drop (n * (xs.length / n))

def push (s : σ × List α) (a : α) : σ × List α :=
  if s.2.length + 1 = n then (f s.1 (s.2 ++ [a]), []) else (s.1, s.2 ++ [a])

def feed (s : σ × List α) (xs : List α) : σ × List α := xs.foldl (push n f) s

variable {n f}

@[simp] theorem feed_nil (s : σ × List α) : feed n f s [] = s := rfl

@[simp] theorem feed_cons (s : σ × List α) (a : α) (xs : List α) :
    feed n f s (a :: xs) = feed n f (push n f s a) xs := rfl

theorem feed_append (s : σ × List α) (xs ys : List α) :
    feed n f s (xs ++ ys) = feed n f (feed n f s xs) ys := List.foldl_append

theorem feed_snoc (s : σ × List α) (xs : List α) (a : α) :
    feed n f s (xs ++ [a]) = push n f (feed n f s xs) a := feed_append s xs [a]

/-- Elements that do not fill the block wait. -/
theorem feed_short {s : σ × List α} {xs : List α} (h : s.2.length + xs.length < n) :
    feed n f s xs = (s.1, s.2 ++ xs) := by
  induction xs generalizing s with
  | nil => simp
  | cons a xs ih =>
    rw [List.length_cons] at h
    have hpush : push n f s a = (s.1, s.2 ++ [a]) := if_neg (by omega)
    rw [feed_cons, hpush, ih (by simp; omega)]
    simp

/-- Elements that fill it are taken with those that waited. -/
theorem feed_block {s : σ × List α} {xs : List α} (hne : xs ≠ [])
    (h : s.2.length + xs.length = n) : feed n f s xs = (f s.1 (s.2 ++ xs), []) := by
  obtain ⟨front, a, rfl⟩ := (List.eq_nil_or_concat' xs).resolve_left hne
  rw [List.length_append, List.length_singleton] at h
  rw [feed_snoc, feed_short (by omega), push, if_pos (by simp; omega)]
  simp

theorem rest_length (xs : List α) : (rest n xs).length = xs.length % n := by
  have hmod := Nat.mod_add_div xs.length n
  rw [rest, List.length_drop]
  omega

theorem rest_length_lt (hn : 0 < n) (xs : List α) : (rest n xs).length < n := by
  rw [rest_length]
  exact Nat.mod_lt _ hn

/-! ### One more element -/

private theorem div_succ_of_full {l : Nat} (hn : 0 < n) (h : l % n + 1 = n) :
    (l + 1) / n = l / n + 1 := by
  have hmod := Nat.mod_add_div l n
  have hl : l + 1 = n * (l / n + 1) := by
    rw [Nat.mul_add]
    omega
  rw [hl, Nat.mul_div_cancel_left _ hn]

private theorem div_succ_of_room {l : Nat} (hn : 0 < n) (h : l % n + 1 ≠ n) :
    (l + 1) / n = l / n := by
  have hmod := Nat.mod_add_div l n
  have hlt := Nat.mod_lt l hn
  have hl : l + 1 = (l % n + 1) + n * (l / n) := by omega
  rw [hl, Nat.add_mul_div_left _ _ hn, Nat.div_eq_of_lt (by omega), Nat.zero_add]

theorem rest_snoc (hn : 0 < n) (xs : List α) (a : α) :
    rest n (xs ++ [a]) = if xs.length % n + 1 = n then [] else rest n xs ++ [a] := by
  have hmod := Nat.mod_add_div xs.length n
  rw [rest, List.length_append, List.length_singleton]
  by_cases hfull : xs.length % n + 1 = n
  · rw [if_pos hfull, div_succ_of_full hn hfull]
    apply List.drop_eq_nil_of_le
    rw [List.length_append, List.length_singleton, Nat.mul_add]
    omega
  · rw [if_neg hfull, div_succ_of_room hn hfull, List.drop_append_of_le_length (by omega), rest]

theorem blocks_snoc (hn : 0 < n) (xs : List α) (a : α) :
    blocks n (xs ++ [a]) =
      if xs.length % n + 1 = n then blocks n xs ++ [rest n xs ++ [a]] else blocks n xs := by
  have hmod := Nat.mod_add_div xs.length n
  have hold : ∀ i ∈ List.range (xs.length / n),
      ((xs ++ [a]).drop (n * i)).take n = (xs.drop (n * i)).take n := by
    intro i hi
    have hblock : n * i + n ≤ n * (xs.length / n) := by
      rw [← Nat.mul_succ]
      exact Nat.mul_le_mul_left n (List.mem_range.mp hi)
    rw [List.drop_append_of_le_length (by omega), List.take_append_of_le_length]
    rw [List.length_drop]
    omega
  rw [blocks, List.length_append, List.length_singleton]
  by_cases hfull : xs.length % n + 1 = n
  · rw [if_pos hfull, div_succ_of_full hn hfull, List.range_succ, List.map_append,
      List.map_congr_left hold]
    have hlast : ((xs ++ [a]).drop (n * (xs.length / n))).take n = rest n xs ++ [a] := by
      rw [List.drop_append_of_le_length (by omega), rest]
      apply List.take_of_length_le
      rw [List.length_append, List.length_drop, List.length_singleton]
      omega
    rw [List.map_singleton, hlast, blocks]
  · rw [if_neg hfull, div_succ_of_room hn hfull, List.map_congr_left hold, blocks]

/-- Feeding a list takes its blocks in order and leaves the rest waiting. -/
theorem feed_eq (hn : 0 < n) (s : σ) (xs : List α) :
    feed n f (s, []) xs = ((blocks n xs).foldl f s, rest n xs) := by
  induction xs using List.reverseRecOn with
  | nil => simp [blocks, rest]
  | append_singleton xs a ih =>
    rw [feed_snoc, ih, push, rest_length, blocks_snoc hn, rest_snoc hn]
    by_cases hfull : xs.length % n + 1 = n
    · simp [hfull]
    · simp [hfull]

/-- A list of whole blocks leaves nothing. -/
theorem feed_eq_of_dvd (hn : 0 < n) (s : σ) {xs : List α} (h : n ∣ xs.length) :
    feed n f (s, []) xs = ((blocks n xs).foldl f s, []) := by
  rw [feed_eq hn, Prod.mk.injEq]
  refine ⟨rfl, List.length_eq_zero_iff.mp ?_⟩
  rw [rest_length, Nat.mod_eq_zero_of_dvd h]

/-! ### Functions that put out a list for each block -/

/-- What has been put out before stays in front. -/
theorem feed_out {β : Type*} (g : List α → List β) (out : List β) (waiting xs : List α) :
    feed n (fun out a => out ++ g a) (out, waiting) xs =
      (out ++ (feed n (fun out a => out ++ g a) ([], waiting) xs).1,
        (feed n (fun out a => out ++ g a) ([], waiting) xs).2) := by
  induction xs generalizing out waiting with
  | nil => simp
  | cons a xs ih =>
    rw [feed_cons, feed_cons, push, push]
    by_cases hfull : waiting.length + 1 = n
    · rw [if_pos hfull, if_pos hfull, ih, ih ([] ++ _)]
      simp
    · rw [if_neg hfull, if_neg hfull, ih]

/-- A list is short, or a block and a list. -/
theorem induction {p : List α → Prop} (hn : 0 < n) (short : ∀ xs, xs.length < n → p xs)
    (block : ∀ a xs, a.length = n → p xs → p (a ++ xs)) (xs : List α) : p xs := by
  induction hlen : xs.length using Nat.strong_induction_on generalizing xs with
  | _ l ih =>
    by_cases hshort : xs.length < n
    · exact short xs hshort
    · rw [← List.take_append_drop n xs]
      refine block _ _ (by simp; omega) (ih _ ?_ _ rfl)
      rw [List.length_drop]
      omega

end Blocks
