import Mathlib.Data.Vector.Basic
import Mathlib.Order.Fin.Basic
import FxLib.Lib.SortedEntries

/-!
# The map in shared memory

`ShareMemory::Map` of `meta_header/share_mem_container/share_mem_map.h`: a sorted array of `MAXNUM`
pairs, of which the first `size` are live. An index outside the array gives `none`, and so does a
search whose fuel does not suffice. The order of the keys is `KeyLess`.
-/

namespace ShareMemory

/-- `0XFFFFFFFF`. -/
def notFound : Nat := 4294967295

structure Map (K V : Type) (MAXNUM : Nat) where
  size : Nat
  keyStores : List.Vector (K × V) MAXNUM

/-- The sum of the two indices is an `unsigned int`. -/
def midIndex (dwLeftIndex dwRightIndex : Nat) : Nat := (dwLeftIndex + dwRightIndex) % 4294967296 / 2

def moved {α : Type} (xs : List α) (dst src n : Nat) : List α :=
  xs.take dst ++ (xs.drop src).take n ++ xs.drop (dst + n)

theorem moved_length {α : Type} {xs : List α} {dst src n : Nat} (hsrc : src + n ≤ xs.length)
    (hdst : dst + n ≤ xs.length) : (moved xs dst src n).length = xs.length := by
  simp only [moved, List.length_append, List.length_take, List.length_drop]
  omega

theorem moved_getElem? {α : Type} {xs : List α} {dst src n : Nat} (hsrc : src + n ≤ xs.length)
    (hdst : dst + n ≤ xs.length) (j : Nat) :
    (moved xs dst src n)[j]? = if dst ≤ j ∧ j < dst + n then xs[src + (j - dst)]? else xs[j]? := by
  have htake : (xs.take dst).length = dst := List.length_take_of_le (by omega)
  have hmid : ((xs.drop src).take n).length = n :=
    List.length_take_of_le (by rw [List.length_drop]; omega)
  rw [moved]
  rcases Nat.lt_or_ge j dst with hj | hj
  · rw [if_neg (by omega), List.append_assoc, List.getElem?_append_left (by omega),
      List.getElem?_take_of_lt hj]
  · rcases Nat.lt_or_ge j (dst + n) with hjn | hjn
    · rw [if_pos ⟨hj, hjn⟩, List.getElem?_append_left (by rw [List.length_append]; omega),
        List.getElem?_append_right (by omega), htake, List.getElem?_take_of_lt (by omega),
        List.getElem?_drop]
    · rw [if_neg (by omega), List.getElem?_append_right (by rw [List.length_append]; omega),
        List.length_append, htake, hmid, List.getElem?_drop, Nat.add_sub_cancel' hjn]

/-- The pairs from `i` on make room for one more. -/
theorem moved_insert {α : Type} {xs : List α} {i n : Nat} (p : α) (hi : i ≤ n)
    (hn : n < xs.length) :
    ((moved xs (i + 1) i (n - i)).set i p).take (n + 1) =
      (xs.take n).take i ++ p :: (xs.take n).drop i := by
  have hlen : ((xs.take n).take i).length = i := by
    rw [List.length_take, List.length_take]
    omega
  have hmoved : (moved xs (i + 1) i (n - i)).length = xs.length :=
    moved_length (by omega) (by omega)
  refine List.ext_getElem? fun j => ?_
  rw [List.getElem?_take, List.getElem?_set, moved_getElem? (by omega) (by omega), hmoved]
  rcases Nat.lt_trichotomy j i with hj | rfl | hj
  · rw [List.getElem?_append_left (by omega), if_pos (by omega), if_neg (by omega),
      if_neg (by omega), List.getElem?_take_of_lt hj, List.getElem?_take_of_lt (by omega)]
  · rw [List.getElem?_append_right (by omega), hlen, Nat.sub_self, if_pos (by omega),
      if_pos rfl, if_pos (by omega)]
    rfl
  · obtain ⟨k, rfl⟩ : ∃ k, j = i + 1 + k := ⟨j - i - 1, by omega⟩
    rw [List.getElem?_append_right (by omega), hlen, show i + 1 + k - i = k + 1 by omega,
      List.getElem?_cons_succ, List.getElem?_drop, List.getElem?_take]
    rcases Nat.lt_or_ge (i + 1 + k) (n + 1) with hlt | hge
    · rw [if_pos hlt, if_neg (by omega), if_pos (by omega), if_pos (by omega)]
      congr 1
      omega
    · rw [if_neg (by omega), if_neg (by omega)]

/-- The pairs behind `i` close the gap. -/
theorem moved_erase {α : Type} {xs : List α} {i n : Nat} (p : α) (hi : i + 1 < n)
    (hn : n ≤ xs.length) :
    ((moved xs i (i + 1) (n - 1 - i)).set (n - 1) p).take (n - 1) = (xs.take n).eraseIdx i := by
  refine List.ext_getElem? fun j => ?_
  rw [List.getElem?_take, List.getElem?_set, moved_getElem? (by omega) (by omega),
    List.getElem?_eraseIdx, List.getElem?_take, List.getElem?_take]
  rcases Nat.lt_or_ge j i with hj | hj
  · rw [if_pos (by omega), if_neg (by omega), if_neg (by omega), if_pos hj, if_pos (by omega)]
  · rcases Nat.lt_or_ge j (n - 1) with hjn | hjn
    · rw [if_pos hjn, if_neg (by omega), if_pos (by omega), if_neg (by omega), if_pos (by omega)]
      congr 1
      omega
    · rw [if_neg (by omega), if_neg (by omega), if_neg (by omega)]
/-- `Equal`. -/
def equal {K : Type} [LinearOrder K] (a b : K) : Prop := ¬ a < b ∧ ¬ b < a

instance {K : Type} [LinearOrder K] (a b : K) : Decidable (equal a b) :=
  inferInstanceAs (Decidable (_ ∧ _))

/-- Where an iterator or a pointer points, `none` for `nullptr`, and the value that stands there. -/
structure Reply (V : Type) where
  position : Option Nat
  value : Option V

namespace Map

variable {K V : Type} {MAXNUM : Nat}

/-! ### The array -/

def read (s : Map K V MAXNUM) (i : Nat) : Option (K × V) := s.keyStores.toList[i]?

def write (s : Map K V MAXNUM) (i : Nat) (pair : K × V) : Option (Map K V MAXNUM) :=
  if i < MAXNUM then
    some { s with keyStores := ⟨s.keyStores.toList.set i pair, by simp⟩ }
  else none

def memmove (s : Map K V MAXNUM) (dst src n : Nat) : Option (Map K V MAXNUM) :=
  if h : src + n ≤ MAXNUM ∧ dst + n ≤ MAXNUM then
    some { s with
      keyStores := ⟨moved s.keyStores.toList dst src n, by
        rw [moved_length (by simpa using h.1) (by simpa using h.2), List.Vector.toList_length]⟩ }
  else none

def writeFirst (s : Map K V MAXNUM) (i : Nat) (k : K) : Option (Map K V MAXNUM) :=
  (s.read i).bind fun pair => s.write i (k, pair.2)

def writeSecond (s : Map K V MAXNUM) (i : Nat) (v : V) : Option (Map K V MAXNUM) :=
  (s.read i).bind fun pair => s.write i (pair.1, v)

/-! ### The operations -/

/-- `Map()`. -/
def new (keyStores : List.Vector (K × V) MAXNUM) : Map K V MAXNUM := ⟨0, keyStores⟩

section Order

variable [LinearOrder K]

def searchLoop (s : Map K V MAXNUM) (k : K) : Nat → Nat → Nat → Nat → Option (Nat × Nat × Nat)
  | 0, _, _, _ => none
  | fuel + 1, dwLeftIndex, dwRightIndex, dwMidIndex =>
    if dwLeftIndex < dwRightIndex then
      (s.read dwMidIndex).bind fun pair =>
        if equal pair.1 k then some (dwLeftIndex, dwRightIndex, dwMidIndex)
        else if pair.1 < k then
          searchLoop s k fuel (dwMidIndex + 1) dwRightIndex (midIndex (dwMidIndex + 1) dwRightIndex)
        else if k < pair.1 then
          searchLoop s k fuel dwLeftIndex dwMidIndex (midIndex dwLeftIndex dwMidIndex)
        else
          searchLoop s k fuel dwLeftIndex dwRightIndex (midIndex dwLeftIndex dwRightIndex)
    else some (dwLeftIndex, dwRightIndex, dwMidIndex)

/-- `Search`: the index, and the two that the search leaves behind. -/
def search (s : Map K V MAXNUM) (fuel : Nat) (k : K) : Option (Nat × Nat × Nat) :=
  if s.size = 0 then some (notFound, 0, 0)
  else
    (s.searchLoop k fuel 0 (s.size - 1) (midIndex 0 (s.size - 1))).bind fun (l, r, dwMidIndex) =>
      (s.read dwMidIndex).bind fun pair =>
        if equal pair.1 k then some (dwMidIndex, l, r) else some (notFound, l, r)

/-- `_Alloc`: where the new pair is; its second component is whatever stands there. -/
def alloc (s : Map K V MAXNUM) (fuel : Nat) (k : K) : Option (Option Nat × Map K V MAXNUM) :=
  if s.size ≥ MAXNUM then some (none, s)
  else if s.size = 0 then
    (s.writeFirst 0 k).map fun s => (some 0, { s with size := s.size + 1 })
  else
    (s.search fuel k).bind fun (dwIndex, dwLeftIndex, dwRightIndex) =>
      if dwIndex ≠ notFound then some (none, s)
      else
        (s.read dwLeftIndex).bind fun left =>
          if k < left.1 then
            (s.memmove (dwLeftIndex + 1) dwLeftIndex (s.size - dwLeftIndex)).bind fun s =>
              (s.writeFirst dwLeftIndex k).map fun s =>
                (some dwLeftIndex, { s with size := s.size + 1 })
          else
            (s.read dwRightIndex).bind fun right =>
              if right.1 < k then
                (s.writeFirst s.size k).map fun s => (some s.size, { s with size := s.size + 1 })
              else
                (s.memmove (dwRightIndex + 1) dwRightIndex (s.size - dwRightIndex)).bind fun s =>
                  (s.writeFirst dwRightIndex k).map fun s =>
                    (some dwRightIndex, { s with size := s.size + 1 })

/-- `end()`. -/
def endReply (s : Map K V MAXNUM) : Reply V := ⟨some s.size, none⟩

def insert (s : Map K V MAXNUM) (fuel : Nat) (k : K) (v : V) :
    Option (Reply V × Map K V MAXNUM) :=
  (s.alloc fuel k).bind fun (pPair, s) =>
    match pPair with
    | none => some (s.endReply, s)
    | some i => (s.writeSecond i v).map fun s => (⟨some i, some v⟩, s)

/-- `Alloc`: the address of the second component. -/
def allocValue (s : Map K V MAXNUM) (fuel : Nat) (k : K) : Option (Reply V × Map K V MAXNUM) :=
  (s.alloc fuel k).bind fun (pPair, s) =>
    match pPair with
    | none => some (⟨none, none⟩, s)
    | some i => (s.read i).map fun pair => (⟨some i, some pair.2⟩, s)

/-- `zero` is the pair whose bytes are zero. -/
def erase (zero : K × V) (s : Map K V MAXNUM) (fuel : Nat) (k : K) :
    Option (Reply V × Map K V MAXNUM) :=
  (s.search fuel k).bind fun (dwIndex, _, _) =>
    if dwIndex = notFound then some (s.endReply, s)
    else if dwIndex = s.size - 1 then
      ({ s with size := s.size - 1 }.write dwIndex zero).map fun s => (⟨some dwIndex, none⟩, s)
    else
      (s.memmove dwIndex (dwIndex + 1) (s.size - 1 - dwIndex)).bind fun s =>
        (s.write (s.size - 1) zero).map fun s =>
          (⟨some dwIndex, none⟩, { s with size := s.size - 1 })

def find (s : Map K V MAXNUM) (fuel : Nat) (k : K) : Option (Reply V × Map K V MAXNUM) :=
  (s.search fuel k).bind fun (dwIndex, _, _) =>
    if dwIndex = notFound then some (s.endReply, s)
    else (s.read dwIndex).map fun pair => (⟨some dwIndex, some pair.2⟩, s)

/-- `operator[]`: where `_Alloc` gives `nullptr`, that is dereferenced. -/
def index [Inhabited V] (s : Map K V MAXNUM) (fuel : Nat) (k : K) :
    Option (Reply V × Map K V MAXNUM) :=
  (s.search fuel k).bind fun (dwIndex, _, _) =>
    if dwIndex = notFound then
      (s.alloc fuel k).bind fun (pPair, s) =>
        pPair.bind fun i => (s.writeSecond i default).map fun s => (⟨some i, some default⟩, s)
    else (s.read dwIndex).map fun pair => (⟨some dwIndex, some pair.2⟩, s)

end Order

end Map

/-! ### Calls -/

inductive Op (K V : Type) where
  | insert (k : K) (v : V)
  | alloc (k : K)
  | erase (k : K)
  | find (k : K)
  | index (k : K)

variable {K V : Type} {MAXNUM : Nat} [LinearOrder K] [Inhabited V]

def Map.step (zero : K × V) (s : Map K V MAXNUM) (fuel : Nat) :
    Op K V → Option (Reply V × Map K V MAXNUM)
  | .insert k v => s.insert fuel k v
  | .alloc k => s.allocValue fuel k
  | .erase k => s.erase zero fuel k
  | .find k => s.find fuel k
  | .index k => s.index fuel k

open SortedEntries

/-- What a finite map of at most `MAXNUM` entries answers. A position is the number of smaller keys,
and that of no key the number of all. `junk` is the value that `Alloc` leaves in its pair. -/
def Op.spec (MAXNUM : Nat) (junk : V) (m : Finmap fun _ : K => V) :
    Op K V → Reply V × Finmap fun _ : K => V
  | .insert k v =>
    if k ∈ m ∨ MAXNUM ≤ m.keys.card then (⟨some m.keys.card, none⟩, m)
    else (⟨some (rank m k), some v⟩, m.insert k v)
  | .alloc k =>
    if k ∈ m ∨ MAXNUM ≤ m.keys.card then (⟨none, none⟩, m)
    else (⟨some (rank m k), some junk⟩, m.insert k junk)
  | .erase k =>
    if k ∈ m then (⟨some (rank m k), none⟩, m.erase k) else (⟨some m.keys.card, none⟩, m)
  | .find k =>
    match m.lookup k with
    | some v => (⟨some (rank m k), some v⟩, m)
    | none => (⟨some m.keys.card, none⟩, m)
  | .index k =>
    match m.lookup k with
    | some v => (⟨some (rank m k), some v⟩, m)
    | none => (⟨some (rank m k), some default⟩, m.insert k default)

/-- `operator[]` is called with a key that is there, or on a map that is not full. -/
def Op.Admissible (MAXNUM : Nat) (m : Finmap fun _ : K => V) : Op K V → Prop
  | .index k => k ∈ m ∨ m.keys.card < MAXNUM
  | _ => True

/-- The live pairs. -/
def Map.entries (s : Map K V MAXNUM) : List (K × V) := s.keyStores.toList.take s.size

/-- The array is the finite map `m`. -/
structure Map.Refines (s : Map K V MAXNUM) (m : Finmap fun _ : K => V) : Prop where
  size_le : s.size ≤ MAXNUM
  represents : Represents s.entries m

/-- Every call of the sequence ends, stays inside the array and answers what the finite map does. -/
def Map.Agrees (zero : K × V) (s : Map K V MAXNUM) (m : Finmap fun _ : K => V) :
    List (Op K V) → Prop
  | [] => s.Refines m
  | op :: ops => s.Refines m ∧ (op.Admissible MAXNUM m → ∃ fuel junk s',
      s.step zero fuel op = some ((op.spec MAXNUM junk m).1, s') ∧
        Map.Agrees zero s' (op.spec MAXNUM junk m).2 ops)

/-! ### The search -/

namespace Map

variable {s : Map K V MAXNUM} {m : Finmap fun _ : K => V} {k : K}

omit [LinearOrder K] [Inhabited V] in
theorem entries_length (h : s.size ≤ MAXNUM) : s.entries.length = s.size := by
  rw [entries, List.length_take, List.Vector.toList_length, Nat.min_eq_left h]

omit [LinearOrder K] [Inhabited V] in
/-- An index of a live pair is inside the array. -/
theorem read_live {i : Nat} (hle : s.size ≤ MAXNUM) (hi : i < s.size) :
    ∃ pair, s.read i = some pair ∧ s.entries[i]? = some pair := by
  have hlen : i < s.keyStores.toList.length := by
    rw [List.Vector.toList_length]
    omega
  refine ⟨s.keyStores.toList[i], List.getElem?_eq_getElem hlen, ?_⟩
  rw [entries, List.getElem?_take_of_lt hi]
  exact List.getElem?_eq_getElem hlen

omit [LinearOrder K] in
theorem midIndex_eq {l r : Nat} (hlr : l ≤ r) (hr : r < 2147483648) :
    midIndex l r = (l + r) / 2 := by
  rw [midIndex, Nat.mod_eq_of_lt (by omega)]

/-- What the loop knows: everything on the left is smaller than `k`, everything on the right is
greater. -/
structure Searching (s : Map K V MAXNUM) (k : K) (l r : Nat) : Prop where
  le : l ≤ r
  lt : r < s.size
  below : ∀ j x, s.entries[j]? = some x → j < l → x.1 < k
  above : r = s.size - 1 ∨ ∃ x, s.entries[r]? = some x ∧ k < x.1

/-- Where the search may end. -/
inductive Searched (s : Map K V MAXNUM) (k : K) : Nat × Nat × Nat → Prop
  | found {l r mid : Nat} (v : V) (hmid : s.entries[mid]? = some (k, v)) : Searched s k (l, r, mid)
  | absent {l : Nat} (searching : Searching s k l l)
      (hne : ∀ v, s.entries[l]? ≠ some (k, v)) : Searched s k (l, l, l)

omit [Inhabited V] in
theorem equal_iff {a b : K} : equal a b ↔ a = b := by
  constructor
  · rintro ⟨hab, hba⟩
    exact le_antisymm (not_lt.mp hba) (not_lt.mp hab)
  · rintro rfl
    exact ⟨lt_irrefl a, lt_irrefl a⟩

omit [Inhabited V] in
theorem searchLoop_searched (hle : s.size ≤ MAXNUM) (hsmall : s.size ≤ 2147483648)
    (h : Represents s.entries m) {l r fuel : Nat} (hs : Searching s k l r) (hfuel : r - l < fuel) :
    ∃ result, s.searchLoop k fuel l r (midIndex l r) = some result ∧ Searched s k result := by
  have hlt := hs.lt
  have hlr := hs.le
  induction fuel generalizing l r with
  | zero => omega
  | succ fuel ih =>
    have hmid := midIndex_eq hlr (show r < 2147483648 by omega)
    rw [searchLoop]
    by_cases hgo : l < r
    · obtain ⟨pair, hread, hentry⟩ := read_live (i := midIndex l r) hle (by omega)
      rw [if_pos hgo, hread, Option.bind_some]
      by_cases heq : equal pair.1 k
      · rw [if_pos heq]
        obtain ⟨key, v⟩ := pair
        obtain rfl := equal_iff.mp heq
        exact ⟨_, rfl, .found v hentry⟩
      · rw [if_neg heq]
        by_cases hless : pair.1 < k
        · rw [if_pos hless]
          refine ih ⟨by omega, hlt, fun j x hj hjl => ?_, hs.above⟩ (by omega) hlt (by omega)
          rcases Nat.lt_or_eq_of_le (Nat.le_of_lt_succ hjl) with hlt' | rfl
          · exact (h.lt hj hentry hlt').trans hless
          · rw [hentry] at hj
            obtain rfl := Option.some.inj hj
            exact hless
        · have hgreater : k < pair.1 :=
            lt_of_le_of_ne (not_lt.mp hless) fun hc => heq (equal_iff.mpr hc.symm)
          rw [if_neg hless, if_pos hgreater]
          exact ih ⟨by omega, by omega, hs.below, Or.inr ⟨pair, hentry, hgreater⟩⟩ (by omega)
            (by omega) (by omega)
    · obtain rfl : l = r := by omega
      have hmid' : midIndex l l = l := by omega
      rw [if_neg hgo, hmid']
      by_cases hfound : ∃ v, s.entries[l]? = some (k, v)
      · obtain ⟨v, hv⟩ := hfound
        exact ⟨_, rfl, .found v hv⟩
      · exact ⟨_, rfl, .absent hs fun v hv => hfound ⟨v, hv⟩⟩

/-- `Search` on a map that is not empty. -/
inductive Search (s : Map K V MAXNUM) (k : K) : Nat × Nat × Nat → Prop
  | found {l r i : Nat} (v : V) (hi : s.entries[i]? = some (k, v)) : Search s k (i, l, r)
  | first {l : Nat} (hl : l < s.size) (x : K × V) (hx : s.entries[l]? = some x) (hlt : k < x.1)
      (gap : Gap s.entries k l) : Search s k (notFound, l, l)
  | last {l : Nat} (hl : l < s.size) (x : K × V) (hx : s.entries[l]? = some x) (hlt : x.1 < k)
      (gap : Gap s.entries k s.size) : Search s k (notFound, l, l)

omit [Inhabited V] in
theorem search_result (hle : s.size ≤ MAXNUM) (hsmall : s.size ≤ 2147483648) (hpos : s.size ≠ 0)
    (h : Represents s.entries m) (k : K) :
    ∃ result, s.search (s.size + 1) k = some result ∧ Search s k result := by
  have hlen := entries_length hle
  obtain ⟨⟨l, r, mid⟩, hloop, hsearched⟩ := searchLoop_searched (k := k) hle hsmall h
    (l := 0) (r := s.size - 1) ⟨Nat.zero_le _, by omega,
      fun _ _ _ hj => absurd hj (Nat.not_lt_zero _), Or.inl rfl⟩
        (show s.size - 1 - 0 < s.size + 1 by omega)
  rw [search, if_neg hpos, hloop, Option.bind_some]
  cases hsearched with
  | found v hmid =>
    obtain ⟨hlt, -⟩ := List.getElem?_eq_some_iff.mp hmid
    obtain ⟨pair, hread, hentry⟩ := read_live (i := mid) hle (by omega)
    rw [hmid] at hentry
    obtain rfl := Option.some.inj hentry
    simp only [hread, Option.bind_some]
    rw [if_pos (equal_iff.mpr rfl)]
    exact ⟨_, rfl, .found v hmid⟩
  | absent searching hne =>
    obtain ⟨pair, hread, hentry⟩ := read_live (i := l) hle searching.lt
    obtain ⟨key, v⟩ := pair
    have hkey : key ≠ k := by
      rintro rfl
      exact hne v hentry
    simp only [hread, Option.bind_some]
    rw [if_neg fun hc => hkey (equal_iff.mp hc)]
    rcases lt_or_gt_of_ne hkey with hlt | hlt
    · refine ⟨_, rfl, .last searching.lt _ hentry hlt
          ⟨hlen.ge, fun j x hj hjs => ?_, fun j x hj hjs => ?_⟩⟩
      · have hlast : l = s.size - 1 := by
          rcases searching.above with hlast | ⟨x, hx, hgt⟩
          · exact hlast
          · rw [hentry] at hx
            obtain rfl := Option.some.inj hx
            exact absurd (hlt.trans hgt) (lt_irrefl _)
        rcases Nat.lt_or_ge j l with hjl | hjl
        · exact searching.below j x hj hjl
        · obtain rfl : j = l := by omega
          rw [hentry] at hj
          obtain rfl := Option.some.inj hj
          exact hlt
      · obtain ⟨hjlen, -⟩ := List.getElem?_eq_some_iff.mp hj
        omega
    · refine ⟨_, rfl, .first searching.lt _ hentry hlt
        ⟨by have := searching.lt; omega, searching.below, fun j x hj hjl => ?_⟩⟩
      rcases Nat.lt_or_eq_of_le hjl with hjl | rfl
      · exact hlt.trans (h.lt hentry hj hjl)
      · rw [hentry] at hj
        obtain rfl := Option.some.inj hj
        exact hlt

/-! ### A new pair -/

/-- The pair `(k, junk)` stands at `i`. -/
structure Placed (s s' : Map K V MAXNUM) (k : K) (i : Nat) (junk : V) : Prop where
  size : s'.size = s.size + 1
  entries : s'.entries = s.entries.take i ++ (k, junk) :: s.entries.drop i

omit [LinearOrder K] [Inhabited V] in
theorem moveUp_placed {i : Nat} (hi : i ≤ s.size) (hroom : s.size < MAXNUM) :
    ∃ s' junk, ((s.memmove (i + 1) i (s.size - i)).bind fun s =>
      (s.writeFirst i k).map fun s => (some i, { s with size := s.size + 1 })) =
        some (some i, s') ∧ Placed s s' k i junk := by
  have hlen : s.keyStores.toList.length = MAXNUM := s.keyStores.toList_length
  have hmoved : (moved s.keyStores.toList (i + 1) i (s.size - i)).length = MAXNUM := by
    rw [moved_length (by omega) (by omega), hlen]
  obtain ⟨pair, hpair⟩ : ∃ pair, (moved s.keyStores.toList (i + 1) i (s.size - i))[i]? =
      some pair := ⟨_, List.getElem?_eq_getElem (by omega)⟩
  refine ⟨⟨s.size + 1, ⟨(moved s.keyStores.toList (i + 1) i (s.size - i)).set i (k, pair.2),
    by rw [List.length_set, hmoved]⟩⟩, pair.2, ?_, rfl, ?_⟩
  · rw [memmove, dif_pos ⟨by omega, by omega⟩, Option.bind_some, writeFirst]
    simp only [read, List.Vector.toList_mk, hpair, Option.bind_some, write]
    rw [if_pos (by omega), Option.map_some]
  · exact moved_insert (k, pair.2) hi (by omega)

omit [LinearOrder K] [Inhabited V] in
theorem writeFirst_placed (hroom : s.size < MAXNUM) :
    ∃ s' junk, ((s.writeFirst s.size k).map fun t =>
      (some t.size, ({ t with size := t.size + 1 } : Map K V MAXNUM))) = some (some s.size, s') ∧
        Placed s s' k s.size junk := by
  have hlen : s.keyStores.toList.length = MAXNUM := s.keyStores.toList_length
  obtain ⟨pair, hpair⟩ : ∃ pair, s.keyStores.toList[s.size]? = some pair :=
    ⟨_, List.getElem?_eq_getElem (by omega)⟩
  refine ⟨⟨s.size + 1, ⟨s.keyStores.toList.set s.size (k, pair.2), by rw [List.length_set, hlen]⟩⟩,
    pair.2, ?_, rfl, ?_⟩
  · rw [writeFirst]
    simp only [read, hpair, Option.bind_some, write]
    rw [if_pos hroom, Option.map_some]
  · have htake : s.entries.length = s.size := entries_length hroom.le
    rw [List.take_of_length_le htake.le, List.drop_of_length_le htake.le]
    show (s.keyStores.toList.set s.size (k, pair.2)).take (s.size + 1) = _
    rw [List.take_succ_eq_append_getElem (by rw [List.length_set]; omega),
      List.take_set_of_le le_rfl, List.getElem_set_self]
    rfl

omit [Inhabited V] in
theorem alloc_placed (hsmall : s.size ≤ 2147483648) (h : Represents s.entries m) (hk : k ∉ m)
    (hroom : s.size < MAXNUM) :
    ∃ i junk s', s.alloc (s.size + 1) k = some (some i, s') ∧ Placed s s' k i junk ∧
      Gap s.entries k i := by
  rw [alloc, if_neg (by omega)]
  by_cases hempty : s.size = 0
  · obtain ⟨s', junk, heq, hplaced⟩ := writeFirst_placed (k := k) hroom
    rw [if_pos hempty]
    have hzero : ((s.writeFirst 0 k).map fun t =>
        (some 0, ({ t with size := t.size + 1 } : Map K V MAXNUM))) = some (some 0, s') := by
      rw [hempty] at heq
      obtain ⟨t, ht, hpair⟩ := Option.map_eq_some_iff.mp heq
      rw [ht, Option.map_some, ← (Prod.mk.inj hpair).2]
    rw [hempty] at hplaced
    refine ⟨0, junk, s', hzero, hplaced, Nat.zero_le _,
      fun _ _ _ hj => absurd hj (Nat.not_lt_zero _), fun j x hj _ => ?_⟩
    obtain ⟨hjlen, -⟩ := List.getElem?_eq_some_iff.mp hj
    rw [entries_length hroom.le] at hjlen
    omega
  · obtain ⟨⟨idx, l, r⟩, hsearch, hresult⟩ := search_result hroom.le hsmall hempty h k
    rw [if_neg hempty, hsearch, Option.bind_some]
    cases hresult with
    | found v hi => exact absurd (Finmap.mem_iff.mpr ⟨v, h.found hi⟩) hk
    | first hl x hx hlt gap =>
      obtain ⟨pair, hread, hentry⟩ := read_live hroom.le hl
      rw [hx] at hentry
      obtain rfl := Option.some.inj hentry
      obtain ⟨s', junk, heq, hplaced⟩ := moveUp_placed (k := k) hl.le hroom
      simp only [ne_eq, not_true_eq_false, if_false, hread, Option.bind_some]
      rw [if_pos hlt]
      exact ⟨l, junk, s', heq, hplaced, gap⟩
    | last hl x hx hlt gap =>
      obtain ⟨pair, hread, hentry⟩ := read_live hroom.le hl
      rw [hx] at hentry
      obtain rfl := Option.some.inj hentry
      obtain ⟨s', junk, heq, hplaced⟩ := writeFirst_placed (k := k) hroom
      simp only [ne_eq, not_true_eq_false, if_false, hread, Option.bind_some]
      rw [if_neg (not_lt.mpr hlt.le), if_pos hlt]
      exact ⟨s.size, junk, s', heq, hplaced, gap⟩

omit [Inhabited V] in
theorem alloc_refused (hle : s.size ≤ MAXNUM) (hsmall : s.size ≤ 2147483648)
    (h : Represents s.entries m) (hk : k ∈ m ∨ MAXNUM ≤ m.keys.card) :
    s.alloc (s.size + 1) k = some (none, s) := by
  rw [h.card, entries_length hle] at hk
  rw [alloc]
  by_cases hfull : s.size ≥ MAXNUM
  · rw [if_pos hfull]
  · have hin : k ∈ m := hk.resolve_right (by omega)
    have hpos : s.size ≠ 0 := by
      intro hempty
      obtain ⟨v, hv⟩ := Finmap.mem_iff.mp hin
      have hmem := (h.lookup k v).mp hv
      rw [List.eq_nil_of_length_eq_zero ((entries_length hle).trans hempty)] at hmem
      exact absurd hmem List.not_mem_nil
    obtain ⟨⟨idx, l, r⟩, hsearch, hresult⟩ := search_result hle hsmall hpos h k
    rw [if_neg hfull, if_neg hpos, hsearch, Option.bind_some]
    cases hresult with
    | found v hi =>
      have hidx : idx < s.size := by
        obtain ⟨hlt, -⟩ := List.getElem?_eq_some_iff.mp hi
        rwa [entries_length hle] at hlt
      simp only
      rw [if_pos (by rw [notFound]; omega)]
    | first hl x hx hlt gap => exact absurd hin (gap.absent h)
    | last hl x hx hlt gap => exact absurd hin (gap.absent h)

/-! ### Every call -/

omit [LinearOrder K] [Inhabited V] in
theorem Placed.get {s' : Map K V MAXNUM} {i : Nat} {junk : V} (h : Placed s s' k i junk)
    (hi : i ≤ s.entries.length) : s'.entries[i]? = some (k, junk) := by
  have hlen : (s.entries.take i).length = i := List.length_take_of_le hi
  rw [h.entries, List.getElem?_append_right hlen.le, hlen, Nat.sub_self]
  rfl

omit [LinearOrder K] [Inhabited V] in
theorem Placed.writeSecond {s' : Map K V MAXNUM} {i : Nat} {junk : V} (h : Placed s s' k i junk)
    (hroom : s.size < MAXNUM) (hi : i ≤ s.entries.length) (v : V) :
    ∃ s'', s'.writeSecond i v = some s'' ∧ Placed s s'' k i v := by
  have hlen : (s.entries.take i).length = i := List.length_take_of_le hi
  have hle : s'.size ≤ MAXNUM := by
    rw [h.size]
    exact hroom
  have hlive : i < s'.size := by
    rw [h.size]
    rw [entries_length hroom.le] at hi
    omega
  obtain ⟨pair, hread, hentry⟩ := read_live hle hlive
  rw [h.get hi] at hentry
  obtain rfl := Option.some.inj hentry
  refine ⟨{ s' with keyStores := ⟨s'.keyStores.toList.set i (k, v), by simp⟩ }, ?_, h.size, ?_⟩
  · rw [Map.writeSecond, hread, Option.bind_some, write, if_pos (by omega)]
  · show (s'.keyStores.toList.set i (k, v)).take s'.size = _
    rw [List.take_set]
    show s'.entries.set i (k, v) = _
    rw [h.entries, List.set_append_right _ _ hlen.le, hlen, Nat.sub_self]
    rfl

omit [Inhabited V] in
theorem Placed.refines {s' : Map K V MAXNUM} {i : Nat} {junk : V} (h : Placed s s' k i junk)
    (hroom : s.size < MAXNUM) (hrep : Represents s.entries m) (hgap : Gap s.entries k i) :
    s'.Refines (m.insert k junk) := by
  refine ⟨by rw [h.size]; exact hroom, ?_⟩
  rw [h.entries]
  exact hrep.insert hgap junk

omit [Inhabited V] in
theorem search_cases (hle : s.size ≤ MAXNUM) (hsmall : s.size ≤ 2147483648)
    (h : Represents s.entries m) (k : K) :
    ∃ i l r, s.search (s.size + 1) k = some (i, l, r) ∧
      ((∃ v, s.entries[i]? = some (k, v) ∧ i < s.size ∧ i ≠ notFound) ∨ i = notFound ∧ k ∉ m) := by
  by_cases hempty : s.size = 0
  · refine ⟨notFound, 0, 0, if_pos hempty, Or.inr ⟨rfl, fun hin => ?_⟩⟩
    obtain ⟨v, hv⟩ := Finmap.mem_iff.mp hin
    have hmem := (h.lookup k v).mp hv
    rw [List.eq_nil_of_length_eq_zero ((entries_length hle).trans hempty)] at hmem
    exact absurd hmem List.not_mem_nil
  · obtain ⟨⟨i, l, r⟩, hsearch, hresult⟩ := search_result hle hsmall hempty h k
    refine ⟨i, l, r, hsearch, ?_⟩
    cases hresult with
    | found v hi =>
      obtain ⟨hlt, -⟩ := List.getElem?_eq_some_iff.mp hi
      rw [entries_length hle] at hlt
      exact Or.inl ⟨v, hi, hlt, by rw [notFound]; omega⟩
    | first hl x hx hlt gap => exact Or.inr ⟨rfl, gap.absent h⟩
    | last hl x hx hlt gap => exact Or.inr ⟨rfl, gap.absent h⟩

omit [Inhabited V] in
/-- Of a pair that is there the index is its rank, and the array holds its value. -/
theorem Refines.at {i : Nat} {v : V} (h : s.Refines m) (hi : s.entries[i]? = some (k, v)) :
    s.read i = some (k, v) ∧ m.lookup k = some v ∧ rank m k = i := by
  obtain ⟨hlt, -⟩ := List.getElem?_eq_some_iff.mp hi
  rw [entries_length h.size_le] at hlt
  obtain ⟨pair, hread, hentry⟩ := read_live h.size_le hlt
  rw [hi] at hentry
  obtain rfl := Option.some.inj hentry
  exact ⟨hread, h.represents.found hi, h.represents.rank_found hi⟩

omit [Inhabited V] in
theorem Refines.size_eq (h : s.Refines m) : m.keys.card = s.size :=
  h.represents.card.trans (entries_length h.size_le)

omit [Inhabited V] in
theorem erase_refines (zero : K × V) {i : Nat} {v : V} (h : s.Refines m)
    (hi : s.entries[i]? = some (k, v)) {l r : Nat}
    (hsearch : s.search (s.size + 1) k = some (i, l, r)) (hne : i ≠ notFound) :
    ∃ s', s.erase zero (s.size + 1) k = some (⟨some i, none⟩, s') ∧ s'.Refines (m.erase k) := by
  have hle := h.size_le
  have hstore : s.keyStores.toList.length = MAXNUM := s.keyStores.toList_length
  obtain ⟨hlt, -⟩ := List.getElem?_eq_some_iff.mp hi
  rw [entries_length hle] at hlt
  have herase := h.represents.erase hi
  rw [erase, hsearch, Option.bind_some]
  simp only
  rw [if_neg hne]
  by_cases hlast : i = s.size - 1
  · rw [if_pos hlast, write, if_pos (by omega), Option.map_some]
    refine ⟨_, rfl, (by simp only; omega), ?_⟩
    have hentries : (s.keyStores.toList.set i zero).take (s.size - 1) = s.entries.eraseIdx i := by
      rw [List.take_set_of_le (by omega), List.eraseIdx_eq_take_drop_succ, entries, List.take_take,
        List.drop_of_length_le (by rw [List.length_take]; omega), List.append_nil,
        Nat.min_eq_left (by omega), hlast]
    rw [← hentries] at herase
    exact herase
  · have hmoved : (moved s.keyStores.toList i (i + 1) (s.size - 1 - i)).length = MAXNUM := by
      rw [moved_length (by omega) (by omega), hstore]
    rw [if_neg hlast, memmove, dif_pos ⟨by omega, by omega⟩, Option.bind_some, write,
      if_pos (show s.size - 1 < MAXNUM by omega), Option.map_some]
    refine ⟨_, rfl, (by simp only; omega), ?_⟩
    have hentries := moved_erase zero (i := i) (show i + 1 < s.size by omega)
      (hle.trans hstore.ge)
    rw [← entries] at hentries
    rw [← hentries] at herase
    exact herase

omit [Inhabited V] in
/-- `_Alloc` of a key that is not there, when there is room. -/
theorem Refines.alloc_room (h : s.Refines m) (hsmall : s.size ≤ 2147483648)
    (hk : ¬ (k ∈ m ∨ MAXNUM ≤ m.keys.card)) :
    s.size < MAXNUM ∧ ∃ i junk s',
      s.alloc (s.size + 1) k = some (some i, s') ∧ Placed s s' k i junk ∧ Gap s.entries k i := by
  rw [not_or, h.size_eq] at hk
  exact ⟨not_le.mp hk.2, alloc_placed hsmall h.represents hk.1 (not_le.mp hk.2)⟩

/-- The call gives what it gives on the finite map, and leaves what refines what is left there. -/
def Simulates (s : Map K V MAXNUM) (zero : K × V) (m : Finmap fun _ : K => V) (op : Op K V) :
    Prop :=
  ∃ junk s', s.step zero (s.size + 1) op = some ((op.spec MAXNUM junk m).1, s') ∧
    s'.Refines (op.spec MAXNUM junk m).2

theorem simulates_insert (zero : K × V) (h : s.Refines m) (hsmall : s.size ≤ 2147483648) (k : K)
    (v : V) : s.Simulates zero m (.insert k v) := by
  by_cases hk : k ∈ m ∨ MAXNUM ≤ m.keys.card
  · refine ⟨v, s, ?_, ?_⟩
    · rw [step, insert, alloc_refused h.size_le hsmall h.represents hk, Option.bind_some, Op.spec,
        if_pos hk, h.size_eq]
      rfl
    · rw [Op.spec, if_pos hk]
      exact h
  · obtain ⟨hroom, i, junk, s', halloc, hplaced, hgap⟩ := h.alloc_room hsmall hk
    obtain ⟨s'', hwrite, hplaced'⟩ := hplaced.writeSecond hroom hgap.le v
    refine ⟨v, s'', ?_, ?_⟩
    · rw [step, insert, halloc, Option.bind_some, Op.spec, if_neg hk, hgap.rank h.represents]
      simp only [hwrite, Option.map_some]
    · rw [Op.spec, if_neg hk]
      exact hplaced'.refines hroom h.represents hgap

theorem simulates_alloc (zero : K × V) (h : s.Refines m) (hsmall : s.size ≤ 2147483648) (k : K) :
    s.Simulates zero m (.alloc k) := by
  by_cases hk : k ∈ m ∨ MAXNUM ≤ m.keys.card
  · refine ⟨default, s, ?_, ?_⟩
    · rw [step, allocValue, alloc_refused h.size_le hsmall h.represents hk, Option.bind_some,
        Op.spec, if_pos hk]
    · rw [Op.spec, if_pos hk]
      exact h
  · obtain ⟨hroom, i, junk, s', halloc, hplaced, hgap⟩ := h.alloc_room hsmall hk
    have hrefines := hplaced.refines hroom h.represents hgap
    obtain ⟨hread, -, -⟩ := hrefines.at (hplaced.get hgap.le)
    refine ⟨junk, s', ?_, ?_⟩
    · rw [step, allocValue, halloc, Option.bind_some, Op.spec, if_neg hk, hgap.rank h.represents]
      simp only [hread, Option.map_some]
    · rw [Op.spec, if_neg hk]
      exact hrefines

theorem simulates_erase (zero : K × V) (h : s.Refines m) (hsmall : s.size ≤ 2147483648) (k : K) :
    s.Simulates zero m (.erase k) := by
  obtain ⟨i, l, r, hsearch, ⟨v, hi, -, hne⟩ | ⟨rfl, hk⟩⟩ :=
    search_cases h.size_le hsmall h.represents k
  · obtain ⟨-, hlookup, hrank⟩ := h.at hi
    obtain ⟨s', herase, hrefines⟩ := erase_refines zero h hi hsearch hne
    have hk : k ∈ m := Finmap.mem_iff.mpr ⟨v, hlookup⟩
    refine ⟨default, s', ?_, ?_⟩
    · rw [step, herase, Op.spec, if_pos hk, hrank]
    · rw [Op.spec, if_pos hk]
      exact hrefines
  · refine ⟨default, s, ?_, ?_⟩
    · rw [step, erase, hsearch, Option.bind_some, Op.spec, if_neg hk, h.size_eq]
      simp only
      rw [if_pos trivial]
      rfl
    · rw [Op.spec, if_neg hk]
      exact h

theorem simulates_find (zero : K × V) (h : s.Refines m) (hsmall : s.size ≤ 2147483648) (k : K) :
    s.Simulates zero m (.find k) := by
  obtain ⟨i, l, r, hsearch, ⟨v, hi, -, hne⟩ | ⟨rfl, hk⟩⟩ :=
    search_cases h.size_le hsmall h.represents k
  · obtain ⟨hread, hlookup, hrank⟩ := h.at hi
    refine ⟨default, s, ?_, ?_⟩
    · rw [step, find, hsearch, Option.bind_some]
      simp only [Op.spec, hlookup, hrank]
      rw [if_neg hne, hread, Option.map_some]
    · simp only [Op.spec, hlookup]
      exact h
  · refine ⟨default, s, ?_, ?_⟩
    · rw [step, find, hsearch, Option.bind_some]
      simp only [Op.spec, Finmap.lookup_eq_none.mpr hk, h.size_eq]
      rw [if_pos trivial]
      rfl
    · simp only [Op.spec, Finmap.lookup_eq_none.mpr hk]
      exact h

/-- `operator[]` allocates a key that is not there, for which there has to be room. -/
theorem simulates_index (zero : K × V) (h : s.Refines m) (hsmall : s.size ≤ 2147483648) {k : K}
    (hadm : (Op.index k : Op K V).Admissible MAXNUM m) : s.Simulates zero m (.index k) := by
  obtain ⟨i, l, r, hsearch, ⟨v, hi, -, hne⟩ | ⟨rfl, hk⟩⟩ :=
    search_cases h.size_le hsmall h.represents k
  · obtain ⟨hread, hlookup, hrank⟩ := h.at hi
    refine ⟨default, s, ?_, ?_⟩
    · rw [step, index, hsearch, Option.bind_some]
      simp only [Op.spec, hlookup, hrank]
      rw [if_neg hne, hread, Option.map_some]
    · simp only [Op.spec, hlookup]
      exact h
  · have hroomy : ¬ (k ∈ m ∨ MAXNUM ≤ m.keys.card) := by
      rw [not_or]
      exact ⟨hk, not_le.mpr (hadm.resolve_left hk)⟩
    obtain ⟨hroom, i, junk, s', halloc, hplaced, hgap⟩ := h.alloc_room hsmall hroomy
    obtain ⟨s'', hwrite, hplaced'⟩ := hplaced.writeSecond hroom hgap.le default
    refine ⟨default, s'', ?_, ?_⟩
    · rw [step, index, hsearch, Option.bind_some]
      simp only [Op.spec, Finmap.lookup_eq_none.mpr hk, hgap.rank h.represents]
      rw [if_pos trivial, halloc, Option.bind_some]
      simp only [hwrite, Option.bind_some, Option.map_some]
    · simp only [Op.spec, Finmap.lookup_eq_none.mpr hk]
      exact hplaced'.refines hroom h.represents hgap

theorem step_refines (zero : K × V) (h : s.Refines m) (hsmall : s.size ≤ 2147483648)
    (op : Op K V) (hadm : op.Admissible MAXNUM m) :
    ∃ junk s', s.step zero (s.size + 1) op = some ((op.spec MAXNUM junk m).1, s') ∧
      s'.Refines (op.spec MAXNUM junk m).2 := by
  cases op with
  | insert k v => exact simulates_insert zero h hsmall k v
  | alloc k => exact simulates_alloc zero h hsmall k
  | erase k => exact simulates_erase zero h hsmall k
  | find k => exact simulates_find zero h hsmall k
  | index k => exact simulates_index zero h hsmall hadm

/-! ### Every sequence of calls -/

/-- No sorted row of keys that fits into the array has an index of 2^31. -/
def Indexable (K : Type) [LinearOrder K] (MAXNUM : Nat) : Prop :=
  ∀ keys : List K, keys.Pairwise (· < ·) → keys.length ≤ MAXNUM → keys.length ≤ 2147483648

theorem Refines.agrees (zero : K × V) (hindex : Indexable K MAXNUM) (h : s.Refines m)
    (ops : List (Op K V)) : s.Agrees zero m ops := by
  induction ops generalizing s m with
  | nil => exact h
  | cons op ops ih =>
    refine ⟨h, fun hadm => ?_⟩
    have hlen : (s.entries.map Prod.fst).length = s.size := by
      rw [List.length_map, entries_length h.size_le]
    have hsmall := hindex _ (List.pairwise_map.mpr h.represents.sorted) (hlen.trans_le h.size_le)
    rw [hlen] at hsmall
    obtain ⟨junk, s', hstep, hrefines⟩ := step_refines zero h hsmall op hadm
    exact ⟨s.size + 1, junk, s', hstep, ih hrefines⟩

omit [LinearOrder K] [Inhabited V] in
theorem midIndex_lt (l r : Nat) : midIndex l r < 2147483648 := by
  rw [midIndex]
  omega

omit [Inhabited V] in
theorem searchLoop_lt {fuel l r mid l' r' mid' : Nat} (hmid : mid < 2147483648)
    (h : s.searchLoop k fuel l r mid = some (l', r', mid')) : mid' < 2147483648 := by
  induction fuel generalizing l r mid with
  | zero => cases h
  | succ fuel ih =>
    rw [searchLoop] at h
    split_ifs at h
    · obtain ⟨pair, -, h⟩ := Option.bind_eq_some_iff.mp h
      split_ifs at h
      · obtain ⟨-, -, rfl⟩ := Option.some.inj h
        exact hmid
      · exact ih (midIndex_lt _ _) h
      · exact ih (midIndex_lt _ _) h
      · exact ih (midIndex_lt _ _) h
    · obtain ⟨-, -, rfl⟩ := Option.some.inj h
      exact hmid

omit [Inhabited V] in
/-- The sum of two indices wraps, so no search finds a key at 2^31 or behind it. -/
theorem search_lt {fuel i l r : Nat} (h : s.search fuel k = some (i, l, r)) :
    i = notFound ∨ i < 2147483648 := by
  rw [search] at h
  split_ifs at h
  · obtain ⟨rfl, -⟩ := Option.some.inj h
    exact Or.inl rfl
  · obtain ⟨⟨l', r', mid⟩, hloop, h⟩ := Option.bind_eq_some_iff.mp h
    obtain ⟨pair, -, h⟩ := Option.bind_eq_some_iff.mp h
    split_ifs at h
    · obtain ⟨rfl, -⟩ := Option.some.inj h
      exact Or.inr (searchLoop_lt (midIndex_lt _ _) hloop)
    · obtain ⟨rfl, -⟩ := Option.some.inj h
      exact Or.inl rfl

/-- Keys that are not there are inserted as long as there is room. -/
theorem agrees_inserts {zero : K × V} {keys : List K} {rest : List (Op K V)}
    (h : s.Agrees zero m (keys.map (fun k => .insert k default) ++ rest)) (hnodup : keys.Nodup)
    (hfresh : ∀ k ∈ keys, k ∉ m) (hroom : m.keys.card + keys.length ≤ MAXNUM) :
    ∃ (s' : Map K V MAXNUM) (m' : Finmap fun _ : K => V), s'.Agrees zero m' rest ∧
      (∀ k, k ∈ m' ↔ k ∈ keys ∨ k ∈ m) ∧ m'.keys.card = m.keys.card + keys.length := by
  induction keys generalizing s m with
  | nil => exact ⟨s, m, h, fun k => by simp, rfl⟩
  | cons key keys ih =>
    obtain ⟨hkey, hnodup⟩ := List.nodup_cons.mp hnodup
    rw [List.length_cons] at hroom ⊢
    have hout := hfresh key List.mem_cons_self
    have hnot : ¬ (key ∈ m ∨ MAXNUM ≤ m.keys.card) := by
      rw [not_or]
      exact ⟨hout, by omega⟩
    obtain ⟨-, hgo⟩ := h
    obtain ⟨fuel, junk, s', -, h⟩ := hgo trivial
    rw [Op.spec, if_neg hnot] at h
    dsimp only at h
    have hcard : (m.insert key default).keys.card = m.keys.card + 1 := by
      have hkeys : (m.insert key default).keys = Insert.insert key m.keys := by
        ext k
        rw [Finmap.mem_keys, Finmap.mem_insert, Finset.mem_insert, Finmap.mem_keys]
      rw [hkeys, Finset.card_insert_of_notMem (by rwa [Finmap.mem_keys])]
    obtain ⟨s'', m', h, hmem, hcard'⟩ := ih h hnodup (fun k hk hin => by
      rcases Finmap.mem_insert.mp hin with rfl | hin
      · exact hkey hk
      · exact hfresh k (List.mem_cons_of_mem key hk) hin) (by omega)
    refine ⟨s'', m', h, fun k => ?_, by omega⟩
    rw [hmem, Finmap.mem_insert, List.mem_cons]
    tauto

/-- Of 2^31 + 1 keys the greatest is not found. -/
theorem not_agrees (zero : K × V) (store : List.Vector (K × V) MAXNUM) {keys : List K} {last : K}
    (hsorted : (keys ++ [last]).Pairwise (· < ·)) (hlen : keys.length = 2147483648)
    (hroom : 2147483648 < MAXNUM) :
    ¬ (new store).Agrees zero ∅ ((keys ++ [last]).map (fun k => .insert k default) ++
      [.find last]) := by
  intro h
  obtain ⟨s, m, h, hmem, hcard⟩ := agrees_inserts h (hsorted.imp fun hlt => ne_of_lt hlt)
    (fun k _ => Finmap.notMem_empty) (by simp [hlen]; omega)
  have hlast : last ∈ m := (hmem last).mpr (Or.inl (by simp))
  have hgreatest : ∀ k ∈ m, k ≤ last := by
    intro k hk
    rcases List.mem_append.mp ((hmem k).mp hk |>.resolve_right Finmap.notMem_empty) with hk | hk
    · exact ((List.pairwise_append.mp hsorted).2.2 k hk last (by simp)).le
    · exact (List.mem_singleton.mp hk).le
  obtain ⟨hrefines, hgo⟩ := h
  obtain ⟨fuel, junk, s', hstep, -⟩ := hgo trivial
  obtain ⟨v, hv⟩ := Finmap.mem_iff.mp hlast
  obtain ⟨j, hj⟩ := List.getElem?_of_mem ((hrefines.represents.lookup last v).mp hv)
  -- the greatest key stands at the end
  have hsize : s.entries.length = 2147483649 := by
    rw [← hrefines.represents.card, hcard]
    simp [hlen]
  obtain ⟨hjlen, -⟩ := List.getElem?_eq_some_iff.mp hj
  have hend : j = 2147483648 := by
    by_contra hne
    obtain ⟨x, hx⟩ : ∃ x, s.entries[2147483648]? = some x :=
      ⟨_, List.getElem?_eq_getElem (by omega)⟩
    have hxin : x.1 ∈ m :=
      Finmap.mem_iff.mpr ⟨x.2, (hrefines.represents.lookup x.1 x.2).mpr (List.mem_of_getElem? hx)⟩
    exact absurd (hrefines.represents.lt hj hx (by omega)) (not_lt.mpr (hgreatest x.1 hxin))
  have hrank := hrefines.represents.rank_found hj
  rw [step, find] at hstep
  obtain ⟨⟨i, l, r⟩, hsearch, hstep⟩ := Option.bind_eq_some_iff.mp hstep
  simp only [Op.spec, hv, hrank, hend] at hstep
  split_ifs at hstep with hnone
  · have hvalue := congrArg (fun p => p.1.value) (Option.some.inj hstep)
    exact absurd hvalue (by simp [endReply])
  · obtain ⟨pair, -, hpair⟩ := Option.map_eq_some_iff.mp hstep
    have hposition := congrArg (fun p => p.1.position) hpair
    have hi := (search_lt hsearch).resolve_left hnone
    simp only [Option.some.injEq] at hposition
    omega

/-- The array behaves as a finite map of at most `MAXNUM` entries, exactly when it never holds a key
at the index 2^31. -/
theorem agrees_iff_indexable :
    (∀ (zero : K × V) (store : List.Vector (K × V) MAXNUM) (ops : List (Op K V)),
      (new store).Agrees zero ∅ ops) ↔ Indexable K MAXNUM := by
  constructor
  · intro hall keys hsorted hle
    by_contra hlong
    rw [not_le] at hlong
    obtain ⟨last, hlast⟩ : ∃ last, keys[2147483648]? = some last :=
      ⟨_, List.getElem?_eq_getElem hlong⟩
    have hsplit : keys.take 2147483648 ++ [last] <+: keys := by
      obtain ⟨hlt, rfl⟩ := List.getElem?_eq_some_iff.mp hlast
      rw [← List.take_succ_eq_append_getElem]
      exact List.take_prefix _ _
    refine not_agrees (last, (default : V))
      (List.Vector.replicate MAXNUM (last, default)) (hsorted.sublist hsplit.sublist)
      (List.length_take_of_le hlong.le) (by omega) (hall _ _ _)
  · intro hindex zero store ops
    have hempty : (new store).Refines ∅ := by
      refine ⟨Nat.zero_le _, ?_⟩
      rw [entries, new, List.take_zero]
      exact represents_empty
    exact hempty.agrees zero hindex ops

/-- The keys 0 to 2^31 in an array with room for one more. -/
theorem not_agrees_of_large :
    ¬ ∀ (zero : Fin 4294967296 × UInt8) (store : List.Vector (Fin 4294967296 × UInt8) 2147483650)
      (ops : List (Op (Fin 4294967296) UInt8)), (new store).Agrees zero ∅ ops := by
  intro hall
  obtain ⟨n, hn⟩ : ∃ n, n = 2147483648 := ⟨_, rfl⟩
  have hsorted : ((List.range (n + 1)).map (Fin.ofNat 4294967296)).Pairwise (· < ·) := by
    refine List.pairwise_map.mpr ?_
    refine List.Pairwise.imp_of_mem (fun {a b} ha hb hlt => ?_) List.pairwise_lt_range
    rw [List.mem_range] at ha hb
    rw [Fin.lt_def, Fin.val_ofNat, Fin.val_ofNat, Nat.mod_eq_of_lt (by omega),
      Nat.mod_eq_of_lt (by omega)]
    exact hlt
  rw [List.range_succ, List.map_append, List.map_singleton] at hsorted
  exact not_agrees _ _ hsorted (by rw [List.length_map, List.length_range, hn]) (by omega)
    (hall (0, 0) (List.Vector.replicate _ (0, 0)) _)

end Map

end ShareMemory
