import Mathlib.Data.Finmap
import Mathlib.Order.Lattice

/-!
# Finite maps as sorted lists

A list of entries with strictly ascending keys, and the finite map that it represents.
-/

namespace SortedEntries

variable {K V : Type} [LinearOrder K]

structure Represents (entries : List (K × V)) (m : Finmap fun _ : K => V) : Prop where
  sorted : entries.Pairwise fun a b => a.1 < b.1
  lookup : ∀ k v, m.lookup k = some v ↔ (k, v) ∈ entries

/-- How many keys of the map are before `k`. -/
def rank (m : Finmap fun _ : K => V) (k : K) : Nat := (m.keys.filter (· < k)).card

/-- The keys before the position `i` are smaller than `k`, the others greater. -/
structure Gap (entries : List (K × V)) (k : K) (i : Nat) : Prop where
  le : i ≤ entries.length
  below : ∀ j x, entries[j]? = some x → j < i → x.1 < k
  above : ∀ j x, entries[j]? = some x → i ≤ j → k < x.1

variable {entries : List (K × V)} {m : Finmap fun _ : K => V} {k : K} {v : V} {i : Nat}

theorem represents_empty : Represents ([] : List (K × V)) ∅ :=
  ⟨List.Pairwise.nil, fun k v => by simp⟩

theorem Represents.lt (h : Represents entries m) {j : Nat} {x y : K × V}
    (hx : entries[i]? = some x) (hy : entries[j]? = some y) (hij : i < j) : x.1 < y.1 := by
  obtain ⟨hi, rfl⟩ := List.getElem?_eq_some_iff.mp hx
  obtain ⟨hj, rfl⟩ := List.getElem?_eq_some_iff.mp hy
  exact List.pairwise_iff_getElem.mp h.sorted i j hi hj hij

theorem Represents.nodup (h : Represents entries m) : (entries.map Prod.fst).Nodup :=
  List.Pairwise.map Prod.fst (fun _ _ hlt => ne_of_lt hlt) h.sorted

theorem Represents.keys (h : Represents entries m) :
    m.keys = (entries.map Prod.fst).toFinset := by
  ext k
  rw [Finmap.mem_keys, Finmap.mem_iff, List.mem_toFinset, List.mem_map]
  constructor
  · rintro ⟨v, hv⟩
    exact ⟨(k, v), (h.lookup k v).mp hv, rfl⟩
  · rintro ⟨⟨k', v⟩, hin, rfl⟩
    exact ⟨v, (h.lookup k' v).mpr hin⟩

theorem Represents.card (h : Represents entries m) : m.keys.card = entries.length := by
  rw [h.keys, List.toFinset_card_of_nodup h.nodup, List.length_map]

theorem Represents.found (h : Represents entries m) (hi : entries[i]? = some (k, v)) :
    m.lookup k = some v := (h.lookup k v).mpr (List.mem_of_getElem? hi)

theorem Gap.absent (h : Represents entries m) (hgap : Gap entries k i) : k ∉ m := by
  rw [Finmap.mem_iff]
  rintro ⟨v, hv⟩
  obtain ⟨j, hj⟩ := List.getElem?_of_mem ((h.lookup k v).mp hv)
  rcases Nat.lt_or_ge j i with hlt | hge
  · exact lt_irrefl k (hgap.below j _ hj hlt)
  · exact lt_irrefl k (hgap.above j _ hj hge)

/-- The keys before `k` are those of the first `i` entries. -/
theorem Represents.rank_eq (h : Represents entries m) (hle : i ≤ entries.length)
    (hbelow : ∀ j x, entries[j]? = some x → j < i → x.1 < k)
    (habove : ∀ j x, entries[j]? = some x → i ≤ j → k ≤ x.1) : rank m k = i := by
  have hkeys : m.keys.filter (· < k) = ((entries.take i).map Prod.fst).toFinset := by
    ext key
    rw [h.keys, Finset.mem_filter, List.mem_toFinset, List.mem_toFinset, List.mem_map, List.mem_map]
    constructor
    · rintro ⟨⟨x, hx, rfl⟩, hlt⟩
      obtain ⟨j, hj⟩ := List.getElem?_of_mem hx
      have hji : j < i := by
        by_contra hc
        exact absurd hlt (not_lt.mpr (habove j x hj (by omega)))
      refine ⟨x, List.mem_of_getElem? (i := j) ?_, rfl⟩
      rw [List.getElem?_take_of_lt hji]
      exact hj
    · rintro ⟨x, hx, rfl⟩
      obtain ⟨j, hj⟩ := List.getElem?_of_mem hx
      obtain ⟨hjlen, -⟩ := List.getElem?_eq_some_iff.mp hj
      rw [List.length_take] at hjlen
      rw [List.getElem?_take_of_lt (by omega)] at hj
      exact ⟨⟨x, List.mem_of_getElem? hj, rfl⟩, hbelow j x hj (by omega)⟩
  have hnodup : ((entries.take i).map Prod.fst).Nodup :=
    h.nodup.sublist ((List.take_sublist i entries).map Prod.fst)
  rw [rank, hkeys, List.toFinset_card_of_nodup hnodup, List.length_map, List.length_take,
    Nat.min_eq_left hle]

theorem Gap.rank (h : Represents entries m) (hgap : Gap entries k i) : rank m k = i :=
  h.rank_eq hgap.le hgap.below fun j x hj hge => (hgap.above j x hj hge).le

theorem Represents.rank_found (h : Represents entries m) (hi : entries[i]? = some (k, v)) :
    rank m k = i := by
  obtain ⟨hlt, -⟩ := List.getElem?_eq_some_iff.mp hi
  refine h.rank_eq hlt.le (fun j x hj hji => h.lt hj hi hji) fun j x hj hge => ?_
  rcases Nat.lt_or_eq_of_le hge with hlt | rfl
  · exact (h.lt hi hj hlt).le
  · rw [hi] at hj
    obtain rfl := Option.some.inj hj
    exact le_rfl

theorem Represents.insert (h : Represents entries m) (hgap : Gap entries k i) (v : V) :
    Represents (entries.take i ++ (k, v) :: entries.drop i) (m.insert k v) := by
  refine ⟨?_, fun key value => ?_⟩
  · have hall := h.sorted
    rw [← List.take_append_drop i entries] at hall
    obtain ⟨htake, hdrop, hcross⟩ := List.pairwise_append.mp hall
    have hbelow : ∀ x ∈ entries.take i, x.1 < k := by
      intro x hx
      obtain ⟨j, hj⟩ := List.getElem?_of_mem hx
      obtain ⟨hjlen, -⟩ := List.getElem?_eq_some_iff.mp hj
      rw [List.length_take] at hjlen
      rw [List.getElem?_take_of_lt (by omega)] at hj
      exact hgap.below j x hj (by omega)
    have habove : ∀ x ∈ entries.drop i, k < x.1 := by
      intro x hx
      obtain ⟨j, hj⟩ := List.getElem?_of_mem hx
      rw [List.getElem?_drop] at hj
      exact hgap.above (i + j) x hj (by omega)
    refine List.pairwise_append.mpr ⟨htake, List.pairwise_cons.mpr ⟨habove, hdrop⟩, ?_⟩
    intro x hx y hy
    rcases List.mem_cons.mp hy with rfl | hy
    · exact hbelow x hx
    · exact hcross x hx y hy
  · have hmem : (key, value) ∈ entries.take i ++ (k, v) :: entries.drop i ↔
        (key, value) = (k, v) ∨ (key, value) ∈ entries := by
      conv_rhs => rw [← List.take_append_drop i entries]
      simp only [List.mem_append, List.mem_cons]
      exact or_left_comm
    rw [hmem]
    by_cases hkey : key = k
    · subst hkey
      rw [Finmap.lookup_insert]
      constructor
      · intro hv
        exact Or.inl (by rw [Option.some.inj hv])
      · rintro (heq | hin)
        · rw [(Prod.mk.inj heq).2]
        · exact absurd (Finmap.mem_iff.mpr ⟨value, (h.lookup key value).mpr hin⟩) (hgap.absent h)
    · rw [Finmap.lookup_insert_of_ne _ hkey, h.lookup]
      constructor
      · exact Or.inr
      · rintro (heq | hin)
        · exact absurd (Prod.mk.inj heq).1 hkey
        · exact hin

theorem Represents.erase (h : Represents entries m) (hi : entries[i]? = some (k, v)) :
    Represents (entries.eraseIdx i) (m.erase k) := by
  refine ⟨h.sorted.sublist (List.eraseIdx_sublist entries i), fun key value => ?_⟩
  by_cases hkey : key = k
  · subst hkey
    rw [Finmap.lookup_erase]
    refine ⟨fun hc => (nomatch hc), fun hin => ?_⟩
    obtain ⟨j, hji, hj⟩ := List.mem_eraseIdx_iff_getElem?.mp hin
    rcases Nat.lt_or_gt_of_ne hji with hlt | hlt
    · exact absurd (h.lt hj hi hlt) (lt_irrefl _)
    · exact absurd (h.lt hi hj hlt) (lt_irrefl _)
  · rw [Finmap.lookup_erase_ne hkey, h.lookup, List.mem_eraseIdx_iff_getElem?]
    constructor
    · intro hin
      obtain ⟨j, hj⟩ := List.getElem?_of_mem hin
      refine ⟨j, ?_, hj⟩
      rintro rfl
      rw [hi] at hj
      exact hkey (Prod.mk.inj (Option.some.inj hj)).1.symm
    · rintro ⟨j, -, hj⟩
      exact List.mem_of_getElem? hj

end SortedEntries
