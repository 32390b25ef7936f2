import FxLib.Lib.Grid
import FxLib.WebGame.TetrisBase

/-!
# The rules of the game

What a block may do is said over its cells: it can be where all of them are on the board and free.
The tests of the server look at three more rows of the table instead, the borders of a block. They
are set against the cells here, and the rows that are erased against the whole board.
-/

namespace WebGame

open Grid

namespace TetrisPool

/-- On the board and empty. -/
def Free (pool : TetrisPool) (dwRow dwCol : Int) : Prop :=
  Inside dwRow dwCol ∧ pool.get dwRow dwCol = 0

instance (pool : TetrisPool) (dwRow dwCol : Int) : Decidable (pool.Free dwRow dwCol) :=
  inferInstanceAs (Decidable (_ ∧ _))

/-- Every cell is empty or has a colour of the palette. -/
def Painted (pool : TetrisPool) : Prop := ∀ i j, pool i j = 0 ∨ pool i j ∈ g_dwColors

instance (pool : TetrisPool) : Decidable pool.Painted :=
  inferInstanceAs (Decidable (∀ i j, pool i j = 0 ∨ pool i j ∈ g_dwColors))

variable {pool : TetrisPool} {dwRow dwCol : Int}

/-- No colour of the palette is lost by the mask of `CheckTetris`. -/
theorem color_mask : ∀ dwColor ∈ g_dwColors, dwColor &&& 0xFFFFFF00 ≠ 0 := by
  rw [← List.forall_iff_forall_mem]
  decide

theorem Painted.get (h : pool.Painted) (dwRow dwCol : Int) :
    pool.get dwRow dwCol = 0 ∨ pool.get dwRow dwCol ∈ g_dwColors := by
  rw [TetrisPool.get]
  split_ifs with hinside
  · exact h _ _
  · exact .inl rfl

theorem checkTetris_of_inside (h : Inside dwRow dwCol) :
    pool.checkTetris dwCol dwRow = (pool.get dwRow dwCol &&& 0xFFFFFF00 != 0) := by
  obtain ⟨⟨hrow, hrow'⟩, hcol, hcol'⟩ := h
  rw [checkTetris, if_neg (by omega), if_neg (by omega), if_neg (by omega), if_neg (by omega)]

theorem checkTetris_eq_false_iff (h : pool.Painted) :
    pool.checkTetris dwCol dwRow = false ↔ pool.Free dwRow dwCol := by
  constructor
  · intro hcheck
    have hinside := inside_of_checkTetris hcheck
    refine ⟨hinside, ?_⟩
    rw [checkTetris_of_inside hinside] at hcheck
    rcases h.get dwRow dwCol with hzero | hcolor
    · exact hzero
    · exact absurd (bne_eq_false_iff_eq.mp hcheck) (color_mask _ hcolor)
  · rintro ⟨hinside, hzero⟩
    rw [checkTetris_of_inside hinside, hzero]
    rfl

end TetrisPool

/-! ### Cells and borders -/

namespace TetrisTable

/-- The cells of a block by row and column. -/
def cells (table : TetrisTable) (s d : Nat) : List Cell :=
  (units.filter fun u => table.entry s d u.1 u.2 ≠ 0).map fun u => (↑u.1, ↑u.2)

/-- The entries of one row of the table that are not 0, with what is asked for each. -/
def asked (table : TetrisTable) (s d i : Nat) (cell : Nat → Int → Cell) : List Cell :=
  (List.range tetrisUnit).filterMap fun k =>
    if table.entry s d i k = 0 then none else some (cell k (border (table.entry s d i k)))

/-- The cells that `CheckDownTetris` asks for. -/
def lower (table : TetrisTable) (s d : Nat) : List Cell :=
  table.asked s d 4 fun k b => (tetrisUnit - b, ↑k)

/-- The cells that `CheckLeftTetris` asks for. -/
def leftward (table : TetrisTable) (s d : Nat) : List Cell :=
  table.asked s d 5 fun k b => (↑k, b - 1)

/-- The cells that `CheckRightTetris` asks for. -/
def rightward (table : TetrisTable) (s d : Nat) : List Cell :=
  table.asked s d 6 fun k b => (↑k, b + 1)

variable {table : TetrisTable} {s d : Nat}

theorem forall_cells {good : Cell → Prop} :
    (∀ c ∈ table.cells s d, good c) ↔
      ∀ u ∈ units, table.entry s d u.1 u.2 ≠ 0 → good (↑u.1, ↑u.2) := by
  simp only [cells, List.forall_mem_map, List.mem_filter, decide_eq_true_eq, and_imp]

theorem any_asked {i : Nat} {cell : Nat → Int → Cell} {test : Cell → Bool} :
    (table.asked s d i cell).any test = (List.range tetrisUnit).any fun k =>
      table.entry s d i k != 0 && test (cell k (border (table.entry s d i k))) := by
  rw [asked, List.any_filterMap]
  congr 1
  funext k
  by_cases hzero : table.entry s d i k = 0
  · rw [if_pos hzero, hzero]
    rfl
  · rw [if_neg hzero, bne_iff_ne.mpr hzero, Bool.true_and]

end TetrisTable

namespace Tetris

def cells (t : Tetris) : List Cell :=
  g_dwTetrisTable.cells t.dwTetrisShape.toNat t.dwTetrisDirect.toNat

/-- Where a cell of the block is on the board. -/
def place (t : Tetris) (c : Cell) : Cell := (t.dwPosY - tetrisUnit + c.1, t.dwPosX + c.2)

/-- The cell of the block is on the board and free. -/
def FreeAt (pool : TetrisPool) (t : Tetris) (c : Cell) : Prop :=
  pool.Free (t.place c).1 (t.place c).2

instance (pool : TetrisPool) (t : Tetris) (c : Cell) : Decidable (FreeAt pool t c) :=
  inferInstanceAs (Decidable (pool.Free _ _))

/-- The block can be where it is: `DownTetris` would fix it there, and `PrintInfo` draws it
there. -/
def Clear (pool : TetrisPool) (t : Tetris) : Prop := ∀ c ∈ t.cells, FreeAt pool t c

instance (pool : TetrisPool) (t : Tetris) : Decidable (Clear pool t) :=
  inferInstanceAs (Decidable (∀ c ∈ t.cells, FreeAt pool t c))

/-- One of the 28 pairs of a shape and a direction. -/
def Known (t : Tetris) : Prop := t.dwTetrisShape.toNat < 7 ∧ t.dwTetrisDirect.toNat < 4

instance (t : Tetris) : Decidable t.Known := inferInstanceAs (Decidable (_ ∧ _))

def down (t : Tetris) : Tetris := { t with dwPosY := t.dwPosY + 1 }

def left (t : Tetris) : Tetris := { t with dwPosX := t.dwPosX - 1 }

def right (t : Tetris) : Tetris := { t with dwPosX := t.dwPosX + 1 }

def turn (t : Tetris) (dwDirect : UInt32) : Tetris := { t with dwTetrisDirect := dwDirect }

variable {pool : TetrisPool} {t : Tetris}

/-- The cells after a move by `offset`, as `down`, `left` and `right` make it. -/
theorem forall_moved {t' : Tetris} {offset : Cell} (hcells : t'.cells = t.cells)
    (hrow : t'.dwPosY = t.dwPosY + offset.1) (hcol : t'.dwPosX = t.dwPosX + offset.2) :
    Clear pool t' ↔ ∀ c ∈ t.cells, FreeAt pool t (c + offset) := by
  rw [Clear, hcells]
  have hcell : ∀ c : Cell, FreeAt pool t' c ↔ FreeAt pool t (c + offset) := by
    intro c
    rw [FreeAt, FreeAt, place, place, hrow, hcol, Prod.fst_add, Prod.snd_add]
    simp only
    rw [show t.dwPosY + offset.1 - tetrisUnit + c.1 = t.dwPosY - tetrisUnit + (c.1 + offset.1) by
      omega, show t.dwPosX + offset.2 + c.2 = t.dwPosX + (c.2 + offset.2) by omega]
  simp only [hcell]

theorem clear_down : Clear pool t.down ↔ ∀ c ∈ t.cells, FreeAt pool t (c + (1, 0)) :=
  forall_moved rfl rfl (Int.add_zero _).symm

theorem clear_left : Clear pool t.left ↔ ∀ c ∈ t.cells, FreeAt pool t (c + (0, -1)) :=
  forall_moved rfl (Int.add_zero _).symm rfl

theorem clear_right : Clear pool t.right ↔ ∀ c ∈ t.cells, FreeAt pool t (c + (0, 1)) :=
  forall_moved rfl (Int.add_zero _).symm rfl

end Tetris

/-! ### What the tests ask -/

namespace TetrisPool

variable {table : TetrisTable} {pool : TetrisPool} {t : Tetris}

/-- `CheckTetris` on the cells of a list, until one of them answers. -/
def checkCells (pool : TetrisPool) (l : List Cell) : Bool := l.any fun c => pool.checkTetris c.2 c.1

theorem checkCells_eq_false_iff (h : pool.Painted) {l : List Cell} :
    pool.checkCells (l.map t.place) = false ↔ ∀ c ∈ l, t.FreeAt pool c := by
  rw [checkCells, List.any_map, List.any_eq_false]
  refine forall₂_congr fun c _ => ?_
  rw [Bool.not_eq_true, Function.comp_apply, checkTetris_eq_false_iff h]
  rfl

theorem checkDownTetris_eq : pool.checkDownTetris table t = pool.checkCells
    ((table.lower t.dwTetrisShape.toNat t.dwTetrisDirect.toNat).map t.place) := by
  rw [checkCells, List.any_map, TetrisTable.lower, TetrisTable.any_asked, checkDownTetris]
  congr 1
  funext k
  simp only [TetrisTable.blockInfo, Tetris.place, Function.comp_apply]
  rw [← Int.add_sub_assoc, Int.sub_add_cancel]

theorem checkLeftTetris_eq : pool.checkLeftTetris table t = pool.checkCells
    ((table.leftward t.dwTetrisShape.toNat t.dwTetrisDirect.toNat).map t.place) := by
  rw [checkCells, List.any_map, TetrisTable.leftward, TetrisTable.any_asked, checkLeftTetris]
  congr 1
  funext k
  simp only [TetrisTable.blockInfo, Tetris.place, Function.comp_apply]
  rw [← Int.add_sub_assoc]

theorem checkRightTetris_eq : pool.checkRightTetris table t = pool.checkCells
    ((table.rightward t.dwTetrisShape.toNat t.dwTetrisDirect.toNat).map t.place) := by
  rw [checkCells, List.any_map, TetrisTable.rightward, TetrisTable.any_asked, checkRightTetris]
  congr 1
  funext k
  simp only [TetrisTable.blockInfo, Tetris.place, Function.comp_apply]
  rw [← Int.add_assoc]

/-- The rotated block is asked for four rows below its place. -/
theorem checkRotation_eq : pool.checkRotation g_dwTetrisTable t = pool.checkCells
    ((t.cells.map (· + (4, 0))).map t.place) := by
  rw [checkCells, List.map_map, List.any_map, Tetris.cells, TetrisTable.cells, List.any_map,
    List.any_filter, checkRotation]
  congr 1
  funext u
  have hrow : t.dwPosY - (tetrisUnit : Int) + (u.1 + 4) = t.dwPosY + u.1 := by
    have hunit : (tetrisUnit : Int) = 4 := rfl
    omega
  simp only [TetrisTable.blockInfo, Tetris.place, Function.comp_apply, Prod.fst_add, Prod.snd_add,
    hrow, Int.add_zero]
  by_cases hzero :
      g_dwTetrisTable.entry t.dwTetrisShape.toNat t.dwTetrisDirect.toNat u.1 u.2 = 0 <;>
    simp [hzero]

end TetrisPool

/-! ### Full rows -/

namespace TetrisPool

variable {pool : TetrisPool}

/-- `CheckErase` on one row. -/
def FullRow (row : Fin columnNum → UInt32) : Prop := ∀ j, row j ≠ 0

instance (row : Fin columnNum → UInt32) : Decidable (FullRow row) :=
  inferInstanceAs (Decidable (∀ j, row j ≠ 0))

/-- A board without its full rows, and with as many empty ones on top. -/
def cleared (pool : TetrisPool) : List (Fin columnNum → UInt32) :=
  collapse FullRow (fun _ => 0) (List.ofFn pool)

theorem not_fullRow_empty : ¬ FullRow fun _ => 0 := fun h => h 0 rfl

/-- Erasing a row takes it out of the list and puts an empty one in front. -/
theorem ofFn_eraseTetris (pool : TetrisPool) (i : Fin rowNum) :
    List.ofFn (pool.eraseTetris i) = (fun _ => 0) :: (List.ofFn pool).eraseIdx i := by
  have hi := i.isLt
  apply List.ext_getElem
  · rw [List.length_cons, List.length_eraseIdx_of_lt (by rw [List.length_ofFn]; exact hi)]
    simp
  · intro k hk hk'
    rw [List.getElem_ofFn, eraseTetris_apply]
    cases k with
    | zero => rfl
    | succ k =>
      rw [dif_neg (Nat.succ_ne_zero k), List.getElem_cons_succ, List.getElem_eraseIdx]
      simp only [List.getElem_ofFn]
      by_cases hlt : k < i.val
      · rw [if_pos (Nat.succ_le_of_lt hlt), dif_pos hlt]
        rfl
      · rw [if_neg (by omega), dif_neg hlt]

theorem cleared_eraseTetris {i : Fin rowNum} (hfull : pool.Full i) :
    (pool.eraseTetris i).cleared = pool.cleared := by
  rw [cleared, ofFn_eraseTetris, collapse_eraseIdx (by rw [List.length_ofFn]; exact i.isLt) ?_
    not_fullRow_empty, cleared]
  rw [List.getElem_ofFn]
  exact hfull

/-- The loop over the full rows leaves the others in their order, below as many empty ones. -/
theorem ofFn_eraseRows (pool : TetrisPool) : List.ofFn pool.eraseRows = pool.cleared := by
  obtain ⟨hrun, hnone⟩ := eraseRows_ends pool
  have hkeep := While.run_invariant (fun p : TetrisPool => p.cleared = pool.cleared)
    (fun p hp hsome => by
      obtain ⟨i, hi⟩ := Option.isSome_iff_exists.mp hsome
      rw [eraseFound, hi, cleared_eraseTetris (full_of_checkErase hi), hp]) rfl hrun
  rw [← hkeep.1, cleared, collapse_of_none]
  intro row hrow
  obtain ⟨i, rfl⟩ := List.mem_ofFn.mp hrow
  exact hnone i

end TetrisPool

/-! ### The borders of the table -/

namespace TetrisBase

theorem cells_four : ∀ s : Fin 7, ∀ d : Fin 4,
    (g_dwTetrisTable.cells s d).Nodup ∧ (g_dwTetrisTable.cells s d).length = 4 := by
  decide +kernel

theorem borders_lower : ∀ s : Fin 7, ∀ d : Fin 4,
    Borders (g_dwTetrisTable.cells s d) (g_dwTetrisTable.lower s d) (1, 0) := by
  decide +kernel

/-- The left border of the block 3, direction 0, has a 2 where its leftmost cell is 3. -/
theorem borders_leftward : ∀ s : Fin 7, ∀ d : Fin 4, ¬ (s = 3 ∧ d = 0) →
    Borders (g_dwTetrisTable.cells s d) (g_dwTetrisTable.leftward s d) (0, -1) := by
  decide +kernel

/-- The right border of the block 2, direction 2, stands one row too high. -/
theorem borders_rightward : ∀ s : Fin 7, ∀ d : Fin 4, ¬ (s = 2 ∧ d = 2) →
    Borders (g_dwTetrisTable.cells s d) (g_dwTetrisTable.rightward s d) (0, 1) := by
  decide +kernel

theorem cells_leftward : g_dwTetrisTable.cells 3 0 = [(1, 1), (1, 2), (1, 3), (2, 3)] ∧
    g_dwTetrisTable.leftward 3 0 = [(1, 0), (2, 1)] := by decide +kernel

theorem cells_rightward : g_dwTetrisTable.cells 2 2 = [(1, 1), (1, 2), (1, 3), (2, 1)] ∧
    g_dwTetrisTable.rightward 2 2 = [(0, 4), (1, 2)] := by decide +kernel

variable {s : TetrisBase}

/-- The block comes to its new place if it can be there, and else nothing changes. -/
structure Exact (s after : TetrisBase) (t : Tetris) : Prop where
  made : t.Clear s.dwTetrisPools → after = { s with oCurrentTetris := t }
  refused : ¬ t.Clear s.dwTetrisPools → after = s

/-- A request is exact if its test is. -/
theorem exact_iff {t : Tetris} (hne : t ≠ s.oCurrentTetris) {free : Prop} [Decidable free] :
    Exact s (if free then { s with oCurrentTetris := t } else s) t ↔
      (free ↔ t.Clear s.dwTetrisPools) := by
  have hother : { s with oCurrentTetris := t } ≠ s := fun heq =>
    hne (congrArg TetrisBase.oCurrentTetris heq)
  constructor
  · intro h
    by_cases hclear : t.Clear s.dwTetrisPools
    · have hmade := h.made hclear
      refine iff_of_true ?_ hclear
      by_contra hfree
      rw [if_neg hfree] at hmade
      exact hother hmade.symm
    · have hrefused := h.refused hclear
      refine iff_of_false (fun hfree => ?_) hclear
      rw [if_pos hfree] at hrefused
      exact hother hrefused
  · intro h
    exact ⟨fun hclear => if_pos (h.mpr hclear), fun hclear => if_neg (mt h.mp hclear)⟩

/-! ### Left and right -/

theorem fst_leftTetris : s.leftTetris.1 =
    if s.checkLeftTetris = false then { s with oCurrentTetris := s.oCurrentTetris.left }
    else s := by
  rw [leftTetris, apply_ite Prod.fst]
  rfl

theorem fst_rightTetris : s.rightTetris.1 =
    if s.checkRightTetris = false then { s with oCurrentTetris := s.oCurrentTetris.right }
    else s := by
  rw [rightTetris, apply_ite Prod.fst]
  rfl

/-- The cell asked for in the third row of the block 3, direction 0, is free when the one that
counts is. -/
def LeftAgrees (pool : TetrisPool) (t : Tetris) : Prop :=
  t.dwTetrisShape = 3 ∧ t.dwTetrisDirect = 0 → t.FreeAt pool (1, 0) →
    (t.FreeAt pool (2, 1) ↔ t.FreeAt pool (2, 2))

/-- The cell asked for above the block 2, direction 2, is free when the two that count are. -/
def RightAgrees (pool : TetrisPool) (t : Tetris) : Prop :=
  t.dwTetrisShape = 2 ∧ t.dwTetrisDirect = 2 →
    (t.FreeAt pool (0, 4) ↔ t.FreeAt pool (1, 4) ∧ t.FreeAt pool (2, 2))

theorem not_pair {t : Tetris} (hknown : t.Known) {a b : UInt32}
    (h : ¬ (t.dwTetrisShape = a ∧ t.dwTetrisDirect = b)) (a' : Fin 7) (b' : Fin 4)
    (ha : a'.val = a.toNat) (hb : b'.val = b.toNat) :
    ¬ ((⟨t.dwTetrisShape.toNat, hknown.1⟩ : Fin 7) = a' ∧
      (⟨t.dwTetrisDirect.toNat, hknown.2⟩ : Fin 4) = b') := by
  rintro ⟨rfl, rfl⟩
  exact h ⟨UInt32.toNat_inj.mp ha, UInt32.toNat_inj.mp hb⟩

theorem checkLeftTetris_exact_iff (hpool : s.dwTetrisPools.Painted)
    (hknown : s.oCurrentTetris.Known) (hclear : s.oCurrentTetris.Clear s.dwTetrisPools) :
    (s.checkLeftTetris = false ↔ s.oCurrentTetris.left.Clear s.dwTetrisPools) ↔
      LeftAgrees s.dwTetrisPools s.oCurrentTetris := by
  rw [checkLeftTetris, TetrisPool.checkLeftTetris_eq, TetrisPool.checkCells_eq_false_iff hpool,
    Tetris.clear_left]
  by_cases hpair : s.oCurrentTetris.dwTetrisShape = 3 ∧ s.oCurrentTetris.dwTetrisDirect = 0
  · have hshape : s.oCurrentTetris.dwTetrisShape.toNat = 3 := by rw [hpair.1]; rfl
    have hdirect : s.oCurrentTetris.dwTetrisDirect.toNat = 0 := by rw [hpair.2]; rfl
    rw [Tetris.Clear, Tetris.cells] at hclear
    rw [Tetris.cells]
    rw [hshape, hdirect, cells_leftward.1] at hclear ⊢
    rw [cells_leftward.2]
    simp only [LeftAgrees, hpair, forall_const, List.forall_mem_cons, List.not_mem_nil,
      IsEmpty.forall_iff, and_true, Prod.mk_add_mk] at hclear ⊢
    norm_num
    tauto
  · have hborders := borders_leftward _ _ (not_pair hknown hpair 3 0 rfl rfl)
    refine iff_of_true (hborders.forall_iff hclear) fun h => absurd h hpair

theorem checkRightTetris_exact_iff (hpool : s.dwTetrisPools.Painted)
    (hknown : s.oCurrentTetris.Known) (hclear : s.oCurrentTetris.Clear s.dwTetrisPools) :
    (s.checkRightTetris = false ↔ s.oCurrentTetris.right.Clear s.dwTetrisPools) ↔
      RightAgrees s.dwTetrisPools s.oCurrentTetris := by
  rw [checkRightTetris, TetrisPool.checkRightTetris_eq, TetrisPool.checkCells_eq_false_iff hpool,
    Tetris.clear_right]
  by_cases hpair : s.oCurrentTetris.dwTetrisShape = 2 ∧ s.oCurrentTetris.dwTetrisDirect = 2
  · have hshape : s.oCurrentTetris.dwTetrisShape.toNat = 2 := by rw [hpair.1]; rfl
    have hdirect : s.oCurrentTetris.dwTetrisDirect.toNat = 2 := by rw [hpair.2]; rfl
    rw [Tetris.Clear, Tetris.cells] at hclear
    rw [Tetris.cells]
    rw [hshape, hdirect, cells_rightward.1] at hclear ⊢
    rw [cells_rightward.2]
    simp only [RightAgrees, hpair, forall_const, List.forall_mem_cons, List.not_mem_nil,
      IsEmpty.forall_iff, and_true, Prod.mk_add_mk] at hclear ⊢
    norm_num
    tauto
  · have hborders := borders_rightward _ _ (not_pair hknown hpair 2 2 rfl rfl)
    refine iff_of_true (hborders.forall_iff hclear) fun h => absurd h hpair

/-- Both moves are exact if and only if the cells that two wrong entries of the table lead to
make no difference. -/
theorem moves_exact_iff (hpool : s.dwTetrisPools.Painted) (hknown : s.oCurrentTetris.Known)
    (hclear : s.oCurrentTetris.Clear s.dwTetrisPools) :
    Exact s s.leftTetris.1 s.oCurrentTetris.left ∧
        Exact s s.rightTetris.1 s.oCurrentTetris.right ↔
      LeftAgrees s.dwTetrisPools s.oCurrentTetris ∧
        RightAgrees s.dwTetrisPools s.oCurrentTetris := by
  have hleft : s.oCurrentTetris.left ≠ s.oCurrentTetris := by
    intro heq
    have hcol := congrArg Tetris.dwPosX heq
    simp only [Tetris.left] at hcol
    omega
  have hright : s.oCurrentTetris.right ≠ s.oCurrentTetris := by
    intro heq
    have hcol := congrArg Tetris.dwPosX heq
    simp only [Tetris.right] at hcol
    omega
  rw [fst_leftTetris, fst_rightTetris, exact_iff hleft, exact_iff hright,
    checkLeftTetris_exact_iff hpool hknown hclear, checkRightTetris_exact_iff hpool hknown hclear]

/-- An empty board with a block of the given shape and direction on it. -/
def bare (dwShape dwDirect : UInt32) (dwPosX dwPosY : Int) : TetrisBase :=
  ⟨fun _ _ => 0, ⟨dwShape, dwDirect, 0xFF000000, dwPosX, dwPosY⟩,
    ⟨0, 0, 0xFF000000, 4, 4⟩⟩

theorem moves_exact_square :
    Exact (bare 6 0 4 10) (bare 6 0 4 10).leftTetris.1 (bare 6 0 4 10).oCurrentTetris.left ∧
      Exact (bare 6 0 4 10) (bare 6 0 4 10).rightTetris.1
        (bare 6 0 4 10).oCurrentTetris.right :=
  (moves_exact_iff (by decide +kernel) (by decide) (by decide +kernel)).mpr
    ⟨fun h => absurd h (by decide), fun h => absurd h (by decide)⟩

/-- A block of the kind 2 in direction 2, with one cell of the board filled to its right. -/
def beside : TetrisBase :=
  { bare 2 2 4 10 with dwTetrisPools := fun i j => if i = 7 ∧ j = 8 then 0xFF000000 else 0 }

/-- It is moved onto the filled cell. -/
theorem right_not_exact :
    beside.dwTetrisPools.Painted ∧ beside.oCurrentTetris.Known ∧
      beside.oCurrentTetris.Clear beside.dwTetrisPools ∧
      ¬ beside.oCurrentTetris.right.Clear beside.dwTetrisPools ∧
      ¬ Exact beside beside.rightTetris.1 beside.oCurrentTetris.right := by
  have hblocked : ¬ beside.oCurrentTetris.right.Clear beside.dwTetrisPools := by decide +kernel
  refine ⟨by decide +kernel, by decide, by decide +kernel, hblocked, fun hexact => ?_⟩
  have hcol := congrArg (fun s => s.oCurrentTetris.dwPosX) (hexact.refused hblocked)
  revert hcol
  decide +kernel

/-! ### Rotations -/

theorem fst_leftRotation : s.leftRotation.1 =
    if s.dwTetrisPools.checkRotation g_dwTetrisTable
        (s.oCurrentTetris.turn ((s.oCurrentTetris.dwTetrisDirect - 1) % 4)) = false then
      { s with oCurrentTetris :=
        s.oCurrentTetris.turn ((s.oCurrentTetris.dwTetrisDirect - 1) % 4) }
    else s := by
  rw [leftRotation]
  simp only [Tetris.turn]
  split_ifs <;> simp_all

theorem fst_rightRotation : s.rightRotation.1 =
    if s.dwTetrisPools.checkRotation g_dwTetrisTable
        (s.oCurrentTetris.turn ((s.oCurrentTetris.dwTetrisDirect + 1) % 4)) = false then
      { s with oCurrentTetris :=
        s.oCurrentTetris.turn ((s.oCurrentTetris.dwTetrisDirect + 1) % 4) }
    else s := by
  rw [rightRotation]
  simp only [Tetris.turn]
  split_ifs <;> simp_all

/-- A rotation comes about if and only if the rotated block can be where it is, it changes the
direction only, and one to the right takes one to the left back. -/
structure Rotates (s : TetrisBase) : Prop where
  left : Exact s s.leftRotation.1
    (s.oCurrentTetris.turn ((s.oCurrentTetris.dwTetrisDirect - 1) % 4))
  right : Exact s s.rightRotation.1
    (s.oCurrentTetris.turn ((s.oCurrentTetris.dwTetrisDirect + 1) % 4))
  restores : s.leftRotation.1 ≠ s → s.leftRotation.1.rightRotation.1 ≠ s.leftRotation.1 →
    s.leftRotation.1.rightRotation.1 = s

/-- The block can be four rows below its place if and only if it can be at its place. -/
def RotationAgrees (pool : TetrisPool) (t : Tetris) : Prop :=
  (∀ c ∈ t.cells, t.FreeAt pool (c + (4, 0))) ↔ t.Clear pool

instance (pool : TetrisPool) (t : Tetris) : Decidable (RotationAgrees pool t) :=
  inferInstanceAs (Decidable (_ ↔ _))

theorem direct_cases {dwDirect : UInt32} (h : dwDirect.toNat < 4) :
    dwDirect = 0 ∨ dwDirect = 1 ∨ dwDirect = 2 ∨ dwDirect = 3 := by
  simp only [← UInt32.toNat_inj]
  simp
  omega

theorem direct_restored {dwDirect : UInt32} (h : dwDirect.toNat < 4) :
    ((dwDirect - 1) % 4 + 1) % 4 = dwDirect ∧ (dwDirect - 1) % 4 ≠ dwDirect ∧
      (dwDirect + 1) % 4 ≠ dwDirect := by
  rcases direct_cases h with rfl | rfl | rfl | rfl <;> decide

/-- Both rotations are exact if and only if the rows below the block, which are asked for, are as
free as its own. -/
theorem rotations_exact_iff (hpool : s.dwTetrisPools.Painted) (hknown : s.oCurrentTetris.Known) :
    Rotates s ↔
      RotationAgrees s.dwTetrisPools
          (s.oCurrentTetris.turn ((s.oCurrentTetris.dwTetrisDirect - 1) % 4)) ∧
        RotationAgrees s.dwTetrisPools
          (s.oCurrentTetris.turn ((s.oCurrentTetris.dwTetrisDirect + 1) % 4)) := by
  obtain ⟨hback, hneLeft, hneRight⟩ := direct_restored hknown.2
  have hleft : Exact s s.leftRotation.1
      (s.oCurrentTetris.turn ((s.oCurrentTetris.dwTetrisDirect - 1) % 4)) ↔
      RotationAgrees s.dwTetrisPools
        (s.oCurrentTetris.turn ((s.oCurrentTetris.dwTetrisDirect - 1) % 4)) := by
    rw [fst_leftRotation, exact_iff fun heq => hneLeft (congrArg Tetris.dwTetrisDirect heq),
      TetrisPool.checkRotation_eq, TetrisPool.checkCells_eq_false_iff hpool,
      List.forall_mem_map]
    rfl
  have hright : Exact s s.rightRotation.1
      (s.oCurrentTetris.turn ((s.oCurrentTetris.dwTetrisDirect + 1) % 4)) ↔
      RotationAgrees s.dwTetrisPools
        (s.oCurrentTetris.turn ((s.oCurrentTetris.dwTetrisDirect + 1) % 4)) := by
    rw [fst_rightRotation, exact_iff fun heq => hneRight (congrArg Tetris.dwTetrisDirect heq),
      TetrisPool.checkRotation_eq, TetrisPool.checkCells_eq_false_iff hpool,
      List.forall_mem_map]
    rfl
  rw [← hleft, ← hright]
  refine ⟨fun h => ⟨h.left, h.right⟩, fun h => ⟨h.1, h.2, fun hmade hagain => ?_⟩⟩
  -- Both rotations have been made, so the direction went down by one and up by one.
  rw [fst_leftRotation] at hmade hagain ⊢
  split_ifs at hmade hagain ⊢ with hfree
  rw [fst_rightRotation] at hagain ⊢
  split_ifs at hagain ⊢ with hfree'
  · simp only [Tetris.turn, hback]
  · exact absurd rfl hagain
  · exact absurd rfl hmade

theorem rotations_exact_upper : Rotates (bare 0 0 4 8) :=
  (rotations_exact_iff (by decide +kernel) (by decide)).mpr ⟨by decide +kernel, by decide +kernel⟩

/-- A square two rows above the floor cannot be turned. -/
theorem rotations_not_exact :
    (bare 6 0 4 20).dwTetrisPools.Painted ∧ (bare 6 0 4 20).oCurrentTetris.Known ∧
      (bare 6 0 4 20).oCurrentTetris.Clear (bare 6 0 4 20).dwTetrisPools ∧
      ((bare 6 0 4 20).oCurrentTetris.turn 3).Clear (bare 6 0 4 20).dwTetrisPools ∧
      (bare 6 0 4 20).leftRotation.1.oCurrentTetris = (bare 6 0 4 20).oCurrentTetris ∧
      ¬ Rotates (bare 6 0 4 20) := by
  have hclear : ((bare 6 0 4 20).oCurrentTetris.turn 3).Clear (bare 6 0 4 20).dwTetrisPools := by
    decide +kernel
  have hrefused : (bare 6 0 4 20).leftRotation.1.oCurrentTetris =
      (bare 6 0 4 20).oCurrentTetris := by decide +kernel
  refine ⟨by decide +kernel, by decide, by decide +kernel, hclear, hrefused, fun hrotates => ?_⟩
  have hdirect := congrArg (fun s => s.oCurrentTetris.dwTetrisDirect) (hrotates.left.made hclear)
  revert hdirect
  decide +kernel

/-! ### Down -/

/-- A cell of the block. -/
def Covers (t : Tetris) (i : Fin rowNum) (j : Fin columnNum) : Prop :=
  ∃ c ∈ t.cells, (i : Int) = t.dwPosY - tetrisUnit + c.1 ∧ (j : Int) = t.dwPosX + c.2

instance (t : Tetris) (i : Fin rowNum) (j : Fin columnNum) : Decidable (Covers t i j) :=
  inferInstanceAs (Decidable (∃ c ∈ t.cells, _))

theorem covers_iff {t : Tetris} {i : Fin rowNum} {j : Fin columnNum} :
    (∃ u ∈ units, TetrisPool.Hits g_dwTetrisTable t i j u) ↔ Covers t i j := by
  constructor
  · rintro ⟨u, hu, hne, hpos⟩
    refine ⟨(↑u.1, ↑u.2), List.mem_map.mpr ⟨u, List.mem_filter.mpr ⟨hu, ?_⟩, rfl⟩, hpos⟩
    exact decide_eq_true hne
  · rintro ⟨c, hc, hpos⟩
    obtain ⟨u, hu, rfl⟩ := List.mem_map.mp hc
    obtain ⟨hu, hne⟩ := List.mem_filter.mp hu
    exact ⟨u, hu, of_decide_eq_true hne, hpos⟩

/-- What a step down is for: the block falls by one row if there is room for it, and else it is
fixed where it is; unless it has not come in whole, the full rows are then cleared. -/
structure Drops (s after : TetrisBase) : Prop where
  falls : s.oCurrentTetris.down.Clear s.dwTetrisPools →
    after = { s with oCurrentTetris := s.oCurrentTetris.down }
  lands : ¬ s.oCurrentTetris.down.Clear s.dwTetrisPools → ∃ locked : TetrisPool,
    (∀ i j, locked i j = if Covers s.oCurrentTetris i j then s.oCurrentTetris.dwTetrisColor
      else s.dwTetrisPools i j) ∧
    (s.oCurrentTetris.dwPosY ≤ tetrisUnit → after.dwTetrisPools = locked) ∧
    (tetrisUnit < s.oCurrentTetris.dwPosY → List.ofFn after.dwTetrisPools = locked.cleared)

theorem checkDownTetris_eq_false_iff (hpool : s.dwTetrisPools.Painted)
    (hknown : s.oCurrentTetris.Known) (hclear : s.oCurrentTetris.Clear s.dwTetrisPools) :
    s.checkDownTetris = false ↔ s.oCurrentTetris.down.Clear s.dwTetrisPools := by
  rw [checkDownTetris, TetrisPool.checkDownTetris_eq, TetrisPool.checkCells_eq_false_iff hpool,
    Tetris.clear_down]
  exact (borders_lower ⟨_, hknown.1⟩ ⟨_, hknown.2⟩).forall_iff hclear

/-- `DownTetris` does what it is for, on any board and with any block, and its loop over the full
rows ends on every board. -/
theorem downTetris_drops (hpool : s.dwTetrisPools.Painted) (hknown : s.oCurrentTetris.Known)
    (hclear : s.oCurrentTetris.Clear s.dwTetrisPools) (rand : Rand) :
    (s.oCurrentTetris.cells.Nodup ∧ s.oCurrentTetris.cells.length = 4) ∧
      Drops s (s.downTetris rand).1 ∧
      ∀ pool : TetrisPool, While.run (fun pool => (TetrisPool.checkErase pool).isSome = true)
        TetrisPool.eraseFound (rowNum + 1) pool = some pool.eraseRows := by
  have hfree := checkDownTetris_eq_false_iff hpool hknown hclear
  refine ⟨cells_four ⟨_, hknown.1⟩ ⟨_, hknown.2⟩, ?_, fun pool => (pool.eraseRows_ends).1⟩
  constructor
  · intro hroom
    rw [downTetris, if_pos (hfree.mpr hroom)]
    rfl
  · intro hroom
    refine ⟨s.dwTetrisPools.lock g_dwTetrisTable s.oCurrentTetris, fun i j => ?_, ?_, ?_⟩
    · rw [TetrisPool.lock_apply]
      exact if_congr covers_iff rfl rfl
    · intro htop
      rw [downTetris, if_neg (mt hfree.mp hroom), if_pos htop]
    · intro hwhole
      rw [downTetris, if_neg (mt hfree.mp hroom), if_neg (by omega)]
      exact TetrisPool.ofFn_eraseRows _

/-- A long block in the gap of the lowest row, above which one cell is filled. -/
def closing : TetrisBase :=
  { bare 0 1 4 24 with dwTetrisPools := fun i j =>
      if i = 21 ∧ (j < 4 ∨ 7 < j) ∨ i = 20 ∧ j = 0 then 0xFF000000 else 0 }

/-- It lands, and the full row is cleared. -/
theorem downTetris_drops_long :
    Drops closing (closing.downTetris ⟨0, 0, 0⟩).1 ∧ ¬ closing.oCurrentTetris.down.Clear
      closing.dwTetrisPools ∧ (closing.downTetris ⟨0, 0, 0⟩).1.dwTetrisPools =
        fun i j => if i = 21 ∧ j = 0 then 0xFF000000 else 0 :=
  ⟨(downTetris_drops (by decide +kernel) (by decide) (by decide +kernel) ⟨0, 0, 0⟩).2.1,
    by decide +kernel, by decide +kernel⟩

end TetrisBase

end WebGame
