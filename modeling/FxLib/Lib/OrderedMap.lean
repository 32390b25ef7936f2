import Mathlib.Data.List.Pairwise
import Mathlib.Order.Lattice

/-!
# Ordered maps

A map as the list of its entries with strictly ascending keys, in the order of an iterator.
-/

structure OrderedMap (κ α : Type) [LinearOrder κ] where
  entries : List (κ × α)
  sorted : entries.Pairwise fun a b => a.1 < b.1

namespace OrderedMap

variable {κ α : Type} [LinearOrder κ] {m : OrderedMap κ α} {k k' : κ} {v v' : α}

def insertEntry (k : κ) (v : α) : List (κ × α) → List (κ × α)
  | [] => [(k, v)]
  | e :: es =>
    if k < e.1 then (k, v) :: e :: es
    else if e.1 < k then e :: insertEntry k v es
    else (k, v) :: es

theorem mem_insertEntry {l : List (κ × α)} (h : l.Pairwise fun a b => a.1 < b.1)
    {e : κ × α} : e ∈ insertEntry k v l ↔ e = (k, v) ∨ e ∈ l ∧ e.1 ≠ k := by
  induction l with
  | nil => simp [insertEntry]
  | cons y ys ih =>
    obtain ⟨hhead, htail⟩ := List.pairwise_cons.mp h
    rw [insertEntry]
    by_cases hlt : k < y.1
    · rw [if_pos hlt, List.mem_cons]
      refine or_congr_right ⟨fun he => ⟨he, ?_⟩, And.left⟩
      rcases List.mem_cons.mp he with rfl | he
      · exact hlt.ne'
      · exact (hlt.trans (hhead e he)).ne'
    · rw [if_neg hlt]
      by_cases hgt : y.1 < k
      · rw [if_pos hgt, List.mem_cons, ih htail, List.mem_cons]
        constructor
        · rintro (rfl | rfl | ⟨he, hne⟩)
          · exact Or.inr ⟨Or.inl rfl, hgt.ne⟩
          · exact Or.inl rfl
          · exact Or.inr ⟨Or.inr he, hne⟩
        · rintro (rfl | ⟨rfl | he, hne⟩)
          · exact Or.inr (Or.inl rfl)
          · exact Or.inl rfl
          · exact Or.inr (Or.inr ⟨he, hne⟩)
      · have hk : y.1 = k := le_antisymm (not_lt.mp hlt) (not_lt.mp hgt)
        rw [if_neg hgt, List.mem_cons, List.mem_cons]
        refine or_congr_right ⟨fun he => ⟨Or.inr he, ?_⟩, ?_⟩
        · rw [← hk]
          exact (hhead e he).ne'
        · rintro ⟨rfl | he, hne⟩
          · exact absurd hk hne
          · exact he

theorem pairwise_insertEntry {l : List (κ × α)} (h : l.Pairwise fun a b => a.1 < b.1) :
    (insertEntry k v l).Pairwise fun a b => a.1 < b.1 := by
  induction l with
  | nil => exact List.pairwise_singleton _ _
  | cons y ys ih =>
    obtain ⟨hhead, htail⟩ := List.pairwise_cons.mp h
    rw [insertEntry]
    by_cases hlt : k < y.1
    · rw [if_pos hlt]
      refine List.pairwise_cons.mpr ⟨fun z hz => ?_, h⟩
      rcases List.mem_cons.mp hz with rfl | hz
      · exact hlt
      · exact hlt.trans (hhead z hz)
    · rw [if_neg hlt]
      by_cases hgt : y.1 < k
      · rw [if_pos hgt]
        refine List.pairwise_cons.mpr ⟨fun z hz => ?_, ih htail⟩
        rcases (mem_insertEntry htail).mp hz with rfl | ⟨hz, -⟩
        · exact hgt
        · exact hhead z hz
      · rw [if_neg hgt]
        refine List.pairwise_cons.mpr ⟨fun z hz => ?_, htail⟩
        exact (not_lt.mp hgt).trans_lt (hhead z hz)

def empty : OrderedMap κ α := ⟨[], List.Pairwise.nil⟩

def find (m : OrderedMap κ α) (k : κ) : Option α := m.entries.lookup k

/-- The value at a key is replaced, or comes in. -/
def set (m : OrderedMap κ α) (k : κ) (v : α) : OrderedMap κ α :=
  ⟨insertEntry k v m.entries, pairwise_insertEntry m.sorted⟩

def erase (m : OrderedMap κ α) (k : κ) : OrderedMap κ α :=
  ⟨m.entries.filter (·.1 ≠ k), m.sorted.filter _⟩

def keys (m : OrderedMap κ α) : List κ := m.entries.map Prod.fst

theorem lookup_eq_some_iff {l : List (κ × α)} (h : l.Pairwise fun a b => a.1 < b.1) :
    l.lookup k = some v ↔ (k, v) ∈ l := by
  induction l with
  | nil => simp
  | cons y ys ih =>
    obtain ⟨hhead, htail⟩ := List.pairwise_cons.mp h
    obtain ⟨key, value⟩ := y
    rw [List.lookup_cons, List.mem_cons]
    by_cases hk : k = key
    · subst hk
      have hout : (k, v) ∉ ys := fun hin => lt_irrefl k (hhead _ hin)
      simp [hout, eq_comm]
    · simp [hk, beq_false_of_ne hk, ih htail]

theorem find_eq_some_iff : m.find k = some v ↔ (k, v) ∈ m.entries := lookup_eq_some_iff m.sorted

/-- A key stands in one entry. -/
theorem entry_unique {e e' : κ × α} (h : e ∈ m.entries) (h' : e' ∈ m.entries)
    (hkey : e.1 = e'.1) : e = e' := by
  have hfind : m.find e.1 = some e.2 := find_eq_some_iff.mpr h
  have hfind' : m.find e'.1 = some e'.2 := find_eq_some_iff.mpr h'
  rw [hkey, hfind'] at hfind
  exact Prod.ext hkey (Option.some.inj hfind).symm

theorem find_set [DecidableEq κ] (m : OrderedMap κ α) (k : κ) (v : α) (k' : κ) :
    (m.set k v).find k' = if k' = k then some v else m.find k' := by
  refine Option.ext fun v' => ?_
  rw [find_eq_some_iff, set, mem_insertEntry m.sorted, ← find_eq_some_iff]
  split_ifs with hk
  · simp [hk, eq_comm]
  · simp [hk]

theorem find_erase [DecidableEq κ] (m : OrderedMap κ α) (k k' : κ) :
    (m.erase k).find k' = if k' = k then none else m.find k' := by
  refine Option.ext fun v' => ?_
  rw [find_eq_some_iff, erase, List.mem_filter, ← find_eq_some_iff]
  split_ifs with hk
  · simp [hk]
  · simp [hk]

theorem nodup_keys (m : OrderedMap κ α) : m.keys.Nodup :=
  List.Pairwise.map Prod.fst (fun _ _ hlt => ne_of_lt hlt) m.sorted

theorem mem_keys : k ∈ m.keys ↔ (m.find k).isSome := by
  simp [keys, Option.isSome_iff_exists, find_eq_some_iff]

end OrderedMap

/-- The order of the bytes of a `std::string`. -/
instance linearOrderUInt8 : LinearOrder UInt8 where
  le_refl := UInt8.le_refl
  le_trans _ _ _ := UInt8.le_trans
  lt_iff_le_not_ge a b := by
    rw [UInt8.not_le]
    exact ⟨fun h => ⟨UInt8.le_of_lt h, h⟩, And.right⟩
  le_antisymm _ _ := UInt8.le_antisymm
  le_total := UInt8.le_total
  toDecidableLE := inferInstance
  toDecidableLT := inferInstance
