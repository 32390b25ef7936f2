import Mathlib.Data.List.Basic
import Mathlib.Logic.Function.Basic

/-!
# Free lists threaded through the blocks

Blocks are numbered from 0, every free block holds the number of the next one, and the number
`last`, which is no block's, ends the list.
-/

namespace FreeList

/-- The free blocks, from the number `head` on. -/
def Threaded (link : Nat → Nat) (last : Nat) : Nat → List Nat → Prop
  | head, [] => head = last
  | head, i :: free => head = i ∧ i < last ∧ Threaded link last (link i) free

variable {link link' : Nat → Nat} {last head i : Nat} {free : List Nat}

theorem Threaded.lt (h : Threaded link last head free) (hi : i ∈ free) : i < last := by
  induction free generalizing head with
  | nil => cases hi
  | cons j free ih =>
    obtain ⟨-, hj, hrest⟩ := h
    rcases List.mem_cons.mp hi with rfl | hmem
    · exact hj
    · exact ih hrest hmem

theorem Threaded.head_le (h : Threaded link last head free) : head ≤ last := by
  cases free with
  | nil =>
    have hlast : head = last := h
    omega
  | cons i free =>
    obtain ⟨rfl, hi, -⟩ := h
    omega

/-- Only the links of the free blocks matter. -/
theorem Threaded.congr (h : Threaded link last head free) (hsame : ∀ i ∈ free, link' i = link i) :
    Threaded link' last head free := by
  induction free generalizing head with
  | nil => exact h
  | cons i free ih =>
    obtain ⟨hhead, hi, hrest⟩ := h
    refine ⟨hhead, hi, ?_⟩
    rw [hsame i List.mem_cons_self]
    exact ih hrest fun j hj => hsame j (List.mem_cons_of_mem i hj)

/-- A free block is taken. -/
theorem Threaded.pop (h : Threaded link last head free) (hlt : head < last) :
    ∃ rest, free = head :: rest ∧ Threaded link last (link head) rest := by
  cases free with
  | nil =>
    have hlast : head = last := h
    omega
  | cons i rest =>
    obtain ⟨rfl, -, hrest⟩ := h
    exact ⟨rest, rfl, hrest⟩

/-- The links say which blocks are free. -/
theorem Threaded.unique {free' : List Nat} (h : Threaded link last head free)
    (h' : Threaded link last head free') : free = free' := by
  induction free generalizing head free' with
  | nil =>
    cases free' with
    | nil => rfl
    | cons i free' =>
      obtain ⟨rfl, hlt, -⟩ := h'
      have hlast : head = last := h
      omega
  | cons i free ih =>
    obtain ⟨rfl, hlt, hrest⟩ := h
    obtain ⟨rest, rfl, hrest'⟩ := h'.pop hlt
    rw [ih hrest hrest']

/-- A block becomes the first free one. -/
theorem Threaded.push (h : Threaded link last head free) (hi : i < last) (hfresh : i ∉ free) :
    Threaded (Function.update link i head) last i (i :: free) := by
  refine ⟨rfl, hi, ?_⟩
  rw [Function.update_self]
  exact h.congr fun j hj => Function.update_of_ne (ne_of_mem_of_not_mem hj hfresh) _ _

/-- The blocks are free one after the other. -/
theorem threaded_range' {n : Nat} (hlink : ∀ i, head ≤ i → i < last → link i = i + 1)
    (hn : head + n = last) : Threaded link last head (List.range' head n) := by
  induction n generalizing head with
  | zero => exact hn
  | succ n ih =>
    refine ⟨rfl, by omega, ?_⟩
    rw [hlink head (Nat.le_refl head) (by omega)]
    exact ih (fun i hi => hlink i (by omega)) (by omega)

end FreeList
