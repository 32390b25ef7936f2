import Mathlib.Data.List.Pairwise
import Mathlib.Order.Lattice

/-!
# Ordered multimaps as lists

The elements of a multimap in the order of an iterator. A new element goes behind all
elements whose key is not greater, so elements of one key stand in the order in which they came.
-/

namespace Multimap

variable {α κ : Type*} [LinearOrder κ] (key : α → κ)

/-- Insertion at the upper bound. -/
def insertUpper (x : α) : List α → List α
  | [] => [x]
  | y :: ys => if key x < key y then x :: y :: ys else y :: insertUpper x ys

theorem perm_insertUpper (x : α) (l : List α) : (insertUpper key x l).Perm (x :: l) := by
  induction l with
  | nil => exact List.Perm.refl _
  | cons y ys ih =>
    rw [insertUpper]
    split_ifs
    · exact List.Perm.refl _
    · exact (ih.cons y).trans (List.Perm.swap x y ys)

theorem mem_insertUpper {x z : α} {l : List α} :
    z ∈ insertUpper key x l ↔ z = x ∨ z ∈ l := by
  rw [(perm_insertUpper key x l).mem_iff, List.mem_cons]

/-- Smaller keys come first, and within one key `older` decides. -/
def Before (older : α → α → Prop) (x y : α) : Prop :=
  key x < key y ∨ (key x = key y ∧ older x y)

variable {key} {older : α → α → Prop}

/-- A new element that is younger than all others keeps the order. -/
theorem pairwise_insertUpper {x : α} {l : List α} (h : l.Pairwise (Before key older))
    (hx : ∀ y ∈ l, older y x) : (insertUpper key x l).Pairwise (Before key older) := by
  induction l with
  | nil => exact List.pairwise_singleton _ _
  | cons y ys ih =>
    obtain ⟨hhead, htail⟩ := List.pairwise_cons.mp h
    rw [insertUpper]
    split_ifs with hlt
    · refine List.pairwise_cons.mpr ⟨fun z hz => Or.inl ?_, h⟩
      rcases List.mem_cons.mp hz with rfl | hz
      · exact hlt
      · rcases hhead z hz with hlt' | ⟨heq, -⟩
        · exact hlt.trans hlt'
        · exact heq ▸ hlt
    · refine List.pairwise_cons.mpr ⟨fun z hz => ?_, ih htail fun z hz => hx z (by simp [hz])⟩
      rcases (mem_insertUpper key).mp hz with rfl | hz
      · rcases (not_lt.mp hlt).lt_or_eq with hlt' | heq
        · exact Or.inl hlt'
        · exact Or.inr ⟨heq, hx y (by simp)⟩
      · exact hhead z hz

/-- A key above which the first element lies lies below all keys. -/
theorem lt_of_head {x z : α} {l : List α} (h : (x :: l).Pairwise (Before key older)) {k : κ}
    (hk : k < key x) (hz : z ∈ x :: l) : k < key z := by
  rcases List.mem_cons.mp hz with rfl | hz
  · exact hk
  · rcases (List.pairwise_cons.mp h).1 z hz with hlt | ⟨heq, -⟩
    · exact hk.trans hlt
    · exact heq ▸ hk

end Multimap
