import FxLib.Lib.While
import Mathlib.Data.Fintype.Card
import Mathlib.Data.List.ProdSigma
import Mathlib.Tactic.SplitIfs

/-!
# The board of a player and its blocks

The game server and the client of WebGame each have a table of the blocks and the same tests, lock
and erase over a board. Here the table is an argument, and each of the two applies these functions
to its own one.
-/

namespace WebGame

abbrev rowNum : Nat := 22

abbrev columnNum : Nat := 12

abbrev tetrisUnit : Nat := 4

/-- The position is that of the lower left corner: the cells are the four rows above `dwPosY`. -/
structure Tetris where
  dwTetrisShape : UInt32
  dwTetrisDirect : UInt32
  dwTetrisColor : UInt32
  dwPosX : Int
  dwPosY : Int
  deriving DecidableEq

/-- Shape, direction, row and column. The rows 0 to 3 are the cells, then come the lower, the left
and the right border. -/
abbrev TetrisTable := List (List (List (List UInt32)))

namespace TetrisTable

def entry (table : TetrisTable) (dwShape dwDirect i j : Nat) : UInt32 :=
  (((table.getD dwShape []).getD dwDirect []).getD i []).getD j 0

def blockInfo (table : TetrisTable) (t : Tetris) (i j : Nat) : UInt32 :=
  table.entry t.dwTetrisShape.toNat t.dwTetrisDirect.toNat i j

end TetrisTable

/-- `(int)dwBlockInfo & 0x0000000F`. -/
def border (dwBlockInfo : UInt32) : Int := (dwBlockInfo &&& 0x0000000F).toNat

def units : List (Nat × Nat) := List.range tetrisUnit ×ˢ List.range tetrisUnit

def Inside (dwRow dwCol : Int) : Prop :=
  (0 ≤ dwRow ∧ dwRow < rowNum) ∧ 0 ≤ dwCol ∧ dwCol < columnNum

instance (dwRow dwCol : Int) : Decidable (Inside dwRow dwCol) :=
  inferInstanceAs (Decidable (_ ∧ _))

abbrev TetrisPool := Fin rowNum → Fin columnNum → UInt32

namespace TetrisPool

def get (pool : TetrisPool) (dwRow dwCol : Int) : UInt32 :=
  if h : Inside dwRow dwCol then
    pool ⟨dwRow.toNat, (Int.toNat_lt h.1.1).mpr h.1.2⟩ ⟨dwCol.toNat, (Int.toNat_lt h.2.1).mpr h.2.2⟩
  else 0

/-- A write. That all of them are inside is `Tetris.Fits` below. -/
def set (pool : TetrisPool) (dwRow dwCol : Int) (dwColor : UInt32) : TetrisPool :=
  fun i j => if (i : Int) = dwRow ∧ (j : Int) = dwCol then dwColor else pool i j

def checkTetris (pool : TetrisPool) (dwCol dwRow : Int) : Bool :=
  if dwRow ≥ rowNum then true
  else if dwRow < 0 then true
  else if dwCol ≥ columnNum then true
  else if dwCol < 0 then true
  else pool.get dwRow dwCol &&& 0xFFFFFF00 != 0

def checkLeftTetris (table : TetrisTable) (pool : TetrisPool) (t : Tetris) : Bool :=
  (List.range tetrisUnit).any fun i =>
    let dwBlockInfo := table.blockInfo t 5 i
    dwBlockInfo != 0 &&
      pool.checkTetris (t.dwPosX + border dwBlockInfo - 1) (t.dwPosY - tetrisUnit + i)

def checkRightTetris (table : TetrisTable) (pool : TetrisPool) (t : Tetris) : Bool :=
  (List.range tetrisUnit).any fun i =>
    let dwBlockInfo := table.blockInfo t 6 i
    dwBlockInfo != 0 &&
      pool.checkTetris (t.dwPosX + border dwBlockInfo + 1) (t.dwPosY - tetrisUnit + i)

def checkDownTetris (table : TetrisTable) (pool : TetrisPool) (t : Tetris) : Bool :=
  (List.range tetrisUnit).any fun i =>
    let dwBlockInfo := table.blockInfo t 4 i
    dwBlockInfo != 0 && pool.checkTetris (t.dwPosX + i) (t.dwPosY - border dwBlockInfo)

/-- The loop of the two rotations over the block that is turned already. The rows that are tested
are those below `dwPosY`. -/
def checkRotation (table : TetrisTable) (pool : TetrisPool) (t : Tetris) : Bool :=
  units.any fun u =>
    table.blockInfo t u.1 u.2 != 0 && pool.checkTetris (t.dwPosX + u.2) (t.dwPosY + u.1)

/-- The loop of `DownTetris` that fixes the block. -/
def lock (table : TetrisTable) (pool : TetrisPool) (t : Tetris) : TetrisPool :=
  units.foldl (fun pool u =>
    if table.blockInfo t u.1 u.2 = 0 then pool
    else pool.set (t.dwPosY - tetrisUnit + u.1) (t.dwPosX + u.2) t.dwTetrisColor) pool

def checkErase (pool : TetrisPool) : Option (Fin rowNum) :=
  (List.finRange rowNum).find? fun i => (List.finRange columnNum).all fun j => pool i j != 0

def setRow (pool : TetrisPool) (dwRow : Nat) (row : Fin columnNum → UInt32) : TetrisPool :=
  fun i => if i.val = dwRow then row else pool i

/-- The second loop of `EraseTetris`, from `dwRow` up. -/
def shift : (dwRow : Nat) → dwRow < rowNum → TetrisPool → TetrisPool
  | 0, _, pool => pool
  | dwRow + 1, h, pool =>
    shift dwRow (Nat.lt_of_succ_lt h)
      (pool.setRow (dwRow + 1) (pool ⟨dwRow, Nat.lt_of_succ_lt h⟩))

def eraseTetris (pool : TetrisPool) (dwRow : Fin rowNum) : TetrisPool :=
  (shift dwRow.val dwRow.isLt (pool.setRow dwRow.val fun _ => 0)).setRow 0 fun _ => 0

def eraseFound (pool : TetrisPool) : TetrisPool :=
  match pool.checkErase with
  | none => pool
  | some dwRow => pool.eraseTetris dwRow

/-- `while (CheckErase(dwRow)) EraseTetris(dwRow)`. -/
def eraseRows (pool : TetrisPool) : TetrisPool :=
  (While.run (fun pool => (checkErase pool).isSome = true) eraseFound (rowNum + 1) pool).getD pool

variable {table : TetrisTable} {pool : TetrisPool} {t : Tetris} {dwRow dwCol : Int}

theorem get_fin (pool : TetrisPool) (i : Fin rowNum) (j : Fin columnNum) :
    pool.get i j = pool i j := by
  have h : Inside i j := ⟨⟨by omega, by have := i.isLt; omega⟩, by omega, by have := j.isLt; omega⟩
  rw [get, dif_pos h]
  rfl

theorem inside_of_checkTetris (h : pool.checkTetris dwCol dwRow = false) : Inside dwRow dwCol := by
  rw [checkTetris] at h
  split_ifs at h
  exact ⟨⟨by omega, by omega⟩, by omega, by omega⟩

theorem mem_units {u : Nat × Nat} : u ∈ units ↔ u.1 < tetrisUnit ∧ u.2 < tetrisUnit := by
  rw [units, List.mem_product, List.mem_range, List.mem_range]

/-! ### Locking a block -/

/-- The cell of the board is that of the unit `u` of the block. -/
def Hits (table : TetrisTable) (t : Tetris) (i : Fin rowNum) (j : Fin columnNum)
    (u : Nat × Nat) : Prop :=
  table.blockInfo t u.1 u.2 ≠ 0 ∧ (i : Int) = t.dwPosY - tetrisUnit + u.1 ∧
    (j : Int) = t.dwPosX + u.2

instance (table : TetrisTable) (t : Tetris) (i : Fin rowNum) (j : Fin columnNum) (u : Nat × Nat) :
    Decidable (Hits table t i j u) :=
  inferInstanceAs (Decidable (_ ∧ _))

theorem foldl_lock (l : List (Nat × Nat)) (pool : TetrisPool) (i : Fin rowNum)
    (j : Fin columnNum) :
    (l.foldl (fun pool u => if table.blockInfo t u.1 u.2 = 0 then pool
      else set pool (t.dwPosY - tetrisUnit + u.1) (t.dwPosX + u.2) t.dwTetrisColor) pool) i j =
        if ∃ u ∈ l, Hits table t i j u then t.dwTetrisColor else pool i j := by
  induction l generalizing pool with
  | nil => simp
  | cons u l ih =>
    rw [List.foldl_cons, ih]
    have hone : (if table.blockInfo t u.1 u.2 = 0 then pool
        else set pool (t.dwPosY - tetrisUnit + u.1) (t.dwPosX + u.2) t.dwTetrisColor) i j =
          if Hits table t i j u then t.dwTetrisColor else pool i j := by
      by_cases hblock : table.blockInfo t u.1 u.2 = 0
      · rw [if_pos hblock, if_neg fun hits => hits.1 hblock]
      · rw [if_neg hblock, set]
        exact if_congr ⟨fun hpos => ⟨hblock, hpos⟩, fun hits => hits.2⟩ rfl rfl
    rw [hone]
    by_cases hrest : ∃ u ∈ l, Hits table t i j u
    · rw [if_pos hrest, if_pos]
      obtain ⟨v, hv, hits⟩ := hrest
      exact ⟨v, List.mem_cons_of_mem _ hv, hits⟩
    · rw [if_neg hrest]
      refine if_congr ⟨fun hits => ⟨u, List.mem_cons_self, hits⟩, ?_⟩ rfl rfl
      rintro ⟨v, hv, hits⟩
      rcases List.mem_cons.mp hv with rfl | hv
      · exact hits
      · exact absurd ⟨v, hv, hits⟩ hrest

/-- A block that is locked covers its cells and nothing else. -/
theorem lock_apply (table : TetrisTable) (pool : TetrisPool) (t : Tetris) (i : Fin rowNum)
    (j : Fin columnNum) :
    pool.lock table t i j =
      if ∃ u ∈ units, Hits table t i j u then t.dwTetrisColor else pool i j :=
  foldl_lock units pool i j

/-! ### Erasing full rows -/

def Full (pool : TetrisPool) (i : Fin rowNum) : Prop := ∀ j, pool i j ≠ 0

theorem full_of_checkErase {i : Fin rowNum} (h : pool.checkErase = some i) : pool.Full i := by
  intro j
  have hall := List.find?_some h
  rw [List.all_eq_true] at hall
  exact bne_iff_ne.mp (hall j (List.mem_finRange j))

theorem not_full_of_checkErase (h : pool.checkErase = none) (i : Fin rowNum) : ¬ pool.Full i := by
  intro hfull
  have hnone := List.find?_eq_none.mp h i (List.mem_finRange i)
  apply hnone
  rw [List.all_eq_true]
  intro j _
  exact bne_iff_ne.mpr (hfull j)

theorem shift_apply {dwRow : Nat} (h : dwRow < rowNum) (pool : TetrisPool) (i : Fin rowNum) :
    shift dwRow h pool i =
      if h' : 0 < i.val ∧ i.val ≤ dwRow then pool ⟨i.val - 1, by omega⟩ else pool i := by
  induction dwRow generalizing pool with
  | zero =>
    rw [dif_neg (by omega)]
    rfl
  | succ dwRow ih =>
    rw [shift, ih]
    by_cases hi : 0 < i.val ∧ i.val ≤ dwRow
    · rw [dif_pos hi, dif_pos (by omega), setRow, if_neg (by simp only; omega)]
    · rw [dif_neg hi, setRow]
      by_cases hi' : i.val = dwRow + 1
      · rw [if_pos hi', dif_pos (by omega)]
        congr 1
        exact Fin.ext (by simp only; omega)
      · rw [if_neg hi', dif_neg (by omega)]

/-- The rows above the one that is erased come down by one, and the first one is empty. -/
theorem eraseTetris_apply (pool : TetrisPool) (dwRow i : Fin rowNum) :
    pool.eraseTetris dwRow i =
      if h : i.val = 0 then fun _ => 0
      else if i.val ≤ dwRow.val then pool ⟨i.val - 1, by omega⟩ else pool i := by
  rw [eraseTetris, setRow]
  by_cases hi : i.val = 0
  · rw [if_pos hi, dif_pos hi]
  · rw [if_neg hi, dif_neg hi, shift_apply]
    by_cases hle : i.val ≤ dwRow.val
    · rw [dif_pos ⟨by omega, hle⟩, if_pos hle, setRow, if_neg (by simp only; omega)]
    · rw [dif_neg (by omega), if_neg hle, setRow, if_neg (by omega)]

instance (pool : TetrisPool) (i : Fin rowNum) : Decidable (pool.Full i) :=
  inferInstanceAs (Decidable (∀ j, pool i j ≠ 0))

def fullRows (pool : TetrisPool) : Finset (Fin rowNum) := Finset.univ.filter pool.Full

theorem mem_fullRows {i : Fin rowNum} : i ∈ pool.fullRows ↔ pool.Full i := by
  rw [fullRows, Finset.mem_filter]
  exact and_iff_right (Finset.mem_univ i)

/-- Every full row that is left was another full row before. -/
theorem card_fullRows_lt {i : Fin rowNum} (hfull : pool.Full i) :
    (pool.eraseTetris i).fullRows.card < pool.fullRows.card := by
  have hpos : ∀ k ∈ (pool.eraseTetris i).fullRows, 0 < k.val := by
    intro k hk
    by_contra hzero
    refine mem_fullRows.mp hk 0 ?_
    rw [eraseTetris_apply, dif_pos (by omega)]
  have hless : ((pool.fullRows).erase i).card < pool.fullRows.card :=
    Finset.card_erase_lt_of_mem (mem_fullRows.mpr hfull)
  refine Nat.lt_of_le_of_lt (Finset.card_le_card_of_injOn
    (fun k => if k.val ≤ i.val then ⟨k.val - 1, by omega⟩ else k) ?_ ?_) hless
  · intro k hk
    have hk0 := hpos k hk
    have hk' := mem_fullRows.mp hk
    rw [Full, eraseTetris_apply, dif_neg (by omega)] at hk'
    rw [Finset.mem_coe, Finset.mem_erase, mem_fullRows]
    beta_reduce
    by_cases hle : k.val ≤ i.val
    · rw [if_pos hle] at hk' ⊢
      exact ⟨by simp only [ne_eq, Fin.ext_iff]; omega, hk'⟩
    · rw [if_neg hle] at hk' ⊢
      exact ⟨by simp only [ne_eq, Fin.ext_iff]; omega, hk'⟩
  · intro k hk l hl heq
    have hk0 := hpos k hk
    have hl0 := hpos l hl
    simp only at heq
    split_ifs at heq with hki hli hli
    · rw [Fin.mk.injEq] at heq
      exact Fin.ext (by omega)
    · rw [Fin.ext_iff] at heq
      simp only at heq
      omega
    · rw [Fin.ext_iff] at heq
      simp only at heq
      omega
    · exact heq

/-- The loop over the full rows ends, with no full row left. -/
theorem eraseRows_ends (pool : TetrisPool) :
    While.run (fun pool => (checkErase pool).isSome = true) eraseFound (rowNum + 1) pool =
      some pool.eraseRows ∧ ∀ i, ¬ pool.eraseRows.Full i := by
  have hfuel : pool.fullRows.card < rowNum + 1 := by
    have hle := Finset.card_le_univ pool.fullRows
    rw [Fintype.card_fin] at hle
    exact Nat.lt_succ_of_le hle
  have hbody : ∀ pool : TetrisPool, True → (checkErase pool).isSome = true → True →
      True ∧ (eraseFound pool).fullRows.card < pool.fullRows.card := by
    intro pool _ hsome _
    obtain ⟨i, hi⟩ := Option.isSome_iff_exists.mp hsome
    refine ⟨trivial, ?_⟩
    rw [eraseFound, hi]
    exact card_fullRows_lt (full_of_checkErase hi)
  obtain ⟨ended, hrun, -, hnone⟩ :=
    While.total (fun _ => True) (fun _ => True) (fun pool : TetrisPool => pool.fullRows.card) hbody
      trivial (fun _ _ _ => trivial) hfuel
  rw [eraseRows, hrun]
  exact ⟨rfl, not_full_of_checkErase (by simpa using hnone)⟩

theorem eraseRows_of_none (h : pool.checkErase = none) : pool.eraseRows = pool := by
  rw [eraseRows, While.run_done (by simp [h])]
  rfl

end TetrisPool

/-! ### Blocks on the board -/

/-- The borders of a table are beyond all cells of the block. -/
structure TetrisTable.Bordered (table : TetrisTable) : Prop where
  left : ∀ s d : Nat, s < 7 → d < 4 → ∀ u ∈ units, table.entry s d u.1 u.2 ≠ 0 →
    ∃ k < tetrisUnit, table.entry s d 5 k ≠ 0 ∧ border (table.entry s d 5 k) ≤ u.2
  right : ∀ s d : Nat, s < 7 → d < 4 → ∀ u ∈ units, table.entry s d u.1 u.2 ≠ 0 →
    ∃ k < tetrisUnit, table.entry s d 6 k ≠ 0 ∧ u.2 ≤ border (table.entry s d 6 k)
  down : ∀ s d : Nat, s < 7 → d < 4 → ∀ u ∈ units, table.entry s d u.1 u.2 ≠ 0 →
    ∃ k < tetrisUnit, table.entry s d 4 k ≠ 0 ∧ border (table.entry s d 4 k) + u.1 < tetrisUnit

namespace Tetris

/-- The block is one of the table, it has come in whole, and its cells are on the board, so every
index that the programs use is in range. -/
structure Fits (table : TetrisTable) (t : Tetris) : Prop where
  shape : t.dwTetrisShape.toNat < 7
  direct : t.dwTetrisDirect.toNat < 4
  whole : 4 ≤ t.dwPosY
  inside : ∀ u ∈ units, table.blockInfo t u.1 u.2 ≠ 0 →
    Inside (t.dwPosY - tetrisUnit + u.1) (t.dwPosX + u.2)

variable {table : TetrisTable} {pool : TetrisPool} {t : Tetris}

theorem checkTetris_of_any {l : List Nat} {f : Nat → UInt32} {g : Nat → Bool} {k : Nat}
    (h : (l.any fun i => f i != 0 && g i) = false) (hk : k ∈ l) (hne : f k ≠ 0) : g k = false := by
  have hall := List.any_eq_false.mp h k hk
  simpa [hne] using hall

theorem Fits.left (h : t.Fits table) (htable : table.Bordered)
    (hcheck : pool.checkLeftTetris table t = false) :
    ({ t with dwPosX := t.dwPosX - 1 } : Tetris).Fits table := by
  constructor
  · exact h.shape
  · exact h.direct
  · exact h.whole
  · intro u hu hne
    obtain ⟨hrow, hcol⟩ := h.inside u hu hne
    obtain ⟨k, hk, hborder, hle⟩ := htable.left _ _ h.shape h.direct u hu hne
    have hfree := TetrisPool.inside_of_checkTetris
      (checkTetris_of_any hcheck (List.mem_range.mpr hk) hborder)
    have hedge := hfree.2.1
    rw [TetrisTable.blockInfo] at hedge
    exact ⟨hrow, by simp only; omega, by simp only; omega⟩

theorem Fits.right (h : t.Fits table) (htable : table.Bordered)
    (hcheck : pool.checkRightTetris table t = false) :
    ({ t with dwPosX := t.dwPosX + 1 } : Tetris).Fits table := by
  constructor
  · exact h.shape
  · exact h.direct
  · exact h.whole
  · intro u hu hne
    obtain ⟨hrow, hcol⟩ := h.inside u hu hne
    obtain ⟨k, hk, hborder, hle⟩ := htable.right _ _ h.shape h.direct u hu hne
    have hfree := TetrisPool.inside_of_checkTetris
      (checkTetris_of_any hcheck (List.mem_range.mpr hk) hborder)
    have hedge := hfree.2.2
    rw [TetrisTable.blockInfo] at hedge
    exact ⟨hrow, by simp only; omega, by simp only; omega⟩

theorem Fits.down (h : t.Fits table) (htable : table.Bordered)
    (hcheck : pool.checkDownTetris table t = false) :
    ({ t with dwPosY := t.dwPosY + 1 } : Tetris).Fits table := by
  constructor
  · exact h.shape
  · exact h.direct
  · have hwhole := h.whole
    simp only
    omega
  · intro u hu hne
    obtain ⟨hrow, hcol⟩ := h.inside u hu hne
    obtain ⟨k, hk, hborder, hle⟩ := htable.down _ _ h.shape h.direct u hu hne
    have hfree := TetrisPool.inside_of_checkTetris
      (checkTetris_of_any hcheck (List.mem_range.mpr hk) hborder)
    have hedge := hfree.1.2
    rw [TetrisTable.blockInfo] at hedge
    exact ⟨⟨by simp only; omega, by simp only; omega⟩, hcol⟩

/-- The rotated block is tested four rows lower than where it is. -/
theorem Fits.rotate (h : t.Fits table) {dwDirect : UInt32} (hdirect : dwDirect.toNat < 4)
    (hcheck : pool.checkRotation table { t with dwTetrisDirect := dwDirect } = false) :
    ({ t with dwTetrisDirect := dwDirect } : Tetris).Fits table := by
  constructor
  · exact h.shape
  · exact hdirect
  · exact h.whole
  · intro u hu hne
    have hwhole := h.whole
    have hall := List.any_eq_false.mp hcheck u hu
    have hfree : pool.checkTetris (t.dwPosX + u.2) (t.dwPosY + u.1) = false := by
      simpa [hne] using hall
    obtain ⟨hrow, hcol⟩ := TetrisPool.inside_of_checkTetris hfree
    have hrow' := hrow.2
    have hunit : (tetrisUnit : Int) = 4 := rfl
    exact ⟨⟨by simp only; omega, by simp only; omega⟩, hcol⟩

end Tetris

end WebGame
