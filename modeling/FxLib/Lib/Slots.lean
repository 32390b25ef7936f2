import Mathlib.Data.List.Basic

/-!
# Numbered slots

An array of slots, some of them blank, and a table that says for each item which slot it has. The
two agree when they say the same; putting an item on a blank slot and taking it away keep that.
-/

namespace Slots

variable {α : Type*} [DecidableEq α] {blank a : α} {slots : List α} {place : α → Option Nat}
  {i : Nat}

def Agree (blank : α) (slots : List α) (place : α → Option Nat) : Prop :=
  ∀ i a, a ≠ blank → (slots[i]? = some a ↔ place a = some i)

theorem Agree.occupy (h : Agree blank slots place) (hfree : slots[i]? = some blank)
    (hnone : place a = none) :
    Agree blank (slots.set i a) (fun b => if b = a then some i else place b) := by
  intro k b hb
  simp only
  by_cases hk : k = i
  · -- the slot was blank, so it was nobody's
    subst hk
    rw [List.getElem?_set_self (List.getElem?_eq_some_iff.mp hfree).1]
    by_cases hba : b = a
    · simp [hba]
    · rw [if_neg hba, ← h k b hb, hfree]
      simp [Ne.symm hba, Ne.symm hb]
  · rw [List.getElem?_set_ne (Ne.symm hk), h k b hb]
    by_cases hba : b = a
    · subst hba
      rw [if_pos rfl, hnone]
      simp [Ne.symm hk]
    · rw [if_neg hba]

theorem Agree.vacate (h : Agree blank slots place) (hat : slots[i]? = some a)
    (hplace : place a = some i) :
    Agree blank (slots.set i blank) (fun b => if b = a then none else place b) := by
  intro k b hb
  simp only
  by_cases hk : k = i
  · subst hk
    rw [List.getElem?_set_self (List.getElem?_eq_some_iff.mp hat).1]
    by_cases hba : b = a
    · subst hba
      simp [Ne.symm hb]
    · rw [if_neg hba, ← h k b hb, hat]
      simp [Ne.symm hba, Ne.symm hb]
  · rw [List.getElem?_set_ne (Ne.symm hk), h k b hb]
    by_cases hba : b = a
    · subst hba
      rw [if_pos rfl, hplace]
      simp [Ne.symm hk]
    · rw [if_neg hba]

/-- To a blank slot from the one that the item has. -/
theorem Agree.move (h : Agree blank slots place) (ha : a ≠ blank) {k : Nat}
    (hfree : slots[k]? = some blank) (hplace : place a = some i) :
    Agree blank ((slots.set k a).set i blank) (fun b => if b = a then some k else place b) := by
  have hat : slots[i]? = some a := (h i a ha).mpr hplace
  have hne : i ≠ k := by
    rintro rfl
    rw [hat] at hfree
    exact ha (Option.some.inj hfree)
  have hstill : (slots.set i blank)[k]? = some blank := by
    rw [List.getElem?_set_ne hne, hfree]
  have hmoved := (h.vacate hat hplace).occupy hstill (if_pos rfl)
  rw [List.set_comm _ _ hne] at hmoved
  intro j b hb
  rw [hmoved j b hb]
  simp only
  by_cases hba : b = a
  · rw [if_pos hba, if_pos hba]
  · rw [if_neg hba, if_neg hba, if_neg hba]

/-- An item that has a slot is found among the slots that are not blank. -/
theorem Agree.find_isSome (h : Agree blank slots place) (ha : a ≠ blank)
    (hplace : place a = some i) : (slots.find? (· ≠ blank)).isSome := by
  rw [List.find?_isSome]
  exact ⟨a, List.mem_of_getElem? ((h i a ha).mpr hplace), decide_eq_true ha⟩

theorem Agree.place_of_find (h : Agree blank slots place)
    (hfind : slots.find? (· ≠ blank) = some a) : ∃ i, place a = some i := by
  have ha : a ≠ blank := by simpa using List.find?_some hfind
  obtain ⟨i, hi⟩ := List.mem_iff_getElem?.mp (List.mem_of_find?_eq_some hfind)
  exact ⟨i, (h i a ha).mp hi⟩

/-- The first item on a slot other than `i`. -/
def FirstOther (blank : α) (slots : List α) (i : Nat) (a : α) : Prop :=
  a ≠ blank ∧ ∃ j, j ≠ i ∧ slots[j]? = some a ∧ ∀ k < j, k ≠ i → slots[k]? = some blank

/-- With the slot `i` blank, the first item is the first on another slot. -/
theorem find_set_blank_iff :
    (slots.set i blank).find? (· ≠ blank) = some a ↔ FirstOther blank slots i a := by
  simp only [FirstOther, List.find?_eq_some_iff_getElem, decide_eq_true_eq, List.length_set]
  refine and_congr_right fun ha => ?_
  constructor
  · rintro ⟨j, hj, hget, hbefore⟩
    have hne : j ≠ i := by
      rintro rfl
      rw [List.getElem_set_self] at hget
      exact ha hget.symm
    rw [List.getElem_set_ne (Ne.symm hne)] at hget
    refine ⟨j, hne, by rw [List.getElem?_eq_getElem hj, hget], fun k hk hki => ?_⟩
    have hblank := hbefore k hk
    rw [List.getElem_set_ne (Ne.symm hki)] at hblank
    rw [List.getElem?_eq_getElem (Nat.lt_trans hk (by simpa using hj))]
    simpa using hblank
  · rintro ⟨j, hne, hget, hbefore⟩
    obtain ⟨hj, hget⟩ := List.getElem?_eq_some_iff.mp hget
    refine ⟨j, hj, by rw [List.getElem_set_ne (Ne.symm hne), hget], fun k hk => ?_⟩
    by_cases hki : k = i
    · subst hki
      simp
    · have hblank := hbefore k hk hki
      rw [List.getElem?_eq_getElem (Nat.lt_trans hk hj)] at hblank
      simp [List.getElem_set_ne (Ne.symm hki), Option.some.inj hblank]

end Slots
