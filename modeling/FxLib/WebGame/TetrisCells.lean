import FxLib.Lib.Transition
import FxLib.WebGame.TetrisRules

/-!
# The cells that a game touches

The object of a player is there before its game begins: the session hands requests to it whatever
the state of the scene, and `Init` comes with `ESS_Gaming` only. Here every operation has the list
of the cells that it reads or writes, so what is asked of a run is that all of them are on the
board.
-/

namespace WebGame

open Grid

namespace TetrisPool

/-- The cells that a loop of `CheckTetris` reads. It ends with the first test that answers, and a
cell that is not on the board answers unread. -/
def readCells (pool : TetrisPool) : List Cell → List Cell
  | [] => []
  | c :: l =>
    if pool.checkTetris c.2 c.1 = true then if Inside c.1 c.2 then [c] else []
    else c :: readCells pool l

/-- A loop over all rows and columns: those of `CheckErase` and of `EraseTetris`, whose row is one
that `CheckErase` has found, and the copy and the output of `PrintInfo`. -/
def allCells : List Cell :=
  (List.range rowNum ×ˢ List.range columnNum).map fun c => (↑c.1, ↑c.2)

theorem readCells_inside {pool : TetrisPool} {l : List Cell} {c : Cell}
    (h : c ∈ pool.readCells l) : Inside c.1 c.2 := by
  induction l with
  | nil => cases h
  | cons d l ih =>
    rw [readCells] at h
    split_ifs at h with hcheck hinside
    · rwa [List.mem_singleton.mp h]
    · cases h
    · rcases List.mem_cons.mp h with rfl | hrest
      · exact inside_of_checkTetris (Bool.not_eq_true _ ▸ hcheck)
      · exact ih hrest

theorem allCells_inside : ∀ c ∈ allCells, Inside c.1 c.2 := by
  rw [allCells, List.forall_mem_map]
  intro c hc
  obtain ⟨hrow, hcol⟩ := List.mem_product.mp hc
  exact ⟨⟨Int.natCast_nonneg _, Int.ofNat_lt.mpr (List.mem_range.mp hrow)⟩,
    Int.natCast_nonneg _, Int.ofNat_lt.mpr (List.mem_range.mp hcol)⟩

end TetrisPool

/-! ### One operation -/

namespace TetrisBase

/-- The cells of `PrintInfo`, on its copy of the board. -/
def printCells (s : TetrisBase) : List Cell :=
  TetrisPool.allCells ++ s.oCurrentTetris.cells.map s.oCurrentTetris.place ++ TetrisPool.allCells

def checkDownCells (s : TetrisBase) : List Cell :=
  s.dwTetrisPools.readCells ((g_dwTetrisTable.lower s.oCurrentTetris.dwTetrisShape.toNat
    s.oCurrentTetris.dwTetrisDirect.toNat).map s.oCurrentTetris.place)

def checkLeftCells (s : TetrisBase) : List Cell :=
  s.dwTetrisPools.readCells ((g_dwTetrisTable.leftward s.oCurrentTetris.dwTetrisShape.toNat
    s.oCurrentTetris.dwTetrisDirect.toNat).map s.oCurrentTetris.place)

def checkRightCells (s : TetrisBase) : List Cell :=
  s.dwTetrisPools.readCells ((g_dwTetrisTable.rightward s.oCurrentTetris.dwTetrisShape.toNat
    s.oCurrentTetris.dwTetrisDirect.toNat).map s.oCurrentTetris.place)

/-- The loop of the two rotations, over the block that is turned already. -/
def checkRotationCells (s : TetrisBase) (dwDirect : UInt32) : List Cell :=
  let t := s.oCurrentTetris.turn dwDirect
  s.dwTetrisPools.readCells ((t.cells.map (· + (4, 0))).map t.place)

/-- A block that is fixed in the first rows ends `DownTetris` before the full rows and the
output. -/
def downCells (s : TetrisBase) (rand : Rand) : List Cell :=
  s.checkDownCells ++
    if s.checkDownTetris = false then (s.downTetris rand).1.printCells
    else s.oCurrentTetris.cells.map s.oCurrentTetris.place ++
      if s.oCurrentTetris.dwPosY ≤ tetrisUnit then []
      else TetrisPool.allCells ++ (s.downTetris rand).1.printCells

def requestCells (s : TetrisBase) (request : TetrisRequest) (rand : Rand) : List Cell :=
  match request with
  | .move .down => s.downCells rand
  | .move .left => s.checkLeftCells
  | .move .right => s.checkRightCells
  | .move .none => []
  | .rotation .left => s.checkRotationCells ((s.oCurrentTetris.dwTetrisDirect - 1) % 4)
  | .rotation .right => s.checkRotationCells ((s.oCurrentTetris.dwTetrisDirect + 1) % 4)
  | .rotation .none => []

variable {s : TetrisBase}

theorem place_inside {t : Tetris} (h : t.Fits g_dwTetrisTable) :
    ∀ c ∈ t.cells.map t.place, Inside c.1 c.2 := by
  rw [List.forall_mem_map, Tetris.cells, TetrisTable.forall_cells]
  exact h.inside

theorem Fits.printCells (h : s.Fits) : ∀ c ∈ s.printCells, Inside c.1 c.2 := by
  intro c hc
  rw [TetrisBase.printCells, List.mem_append, List.mem_append] at hc
  rcases hc with (hc | hc) | hc
  · exact TetrisPool.allCells_inside c hc
  · exact place_inside h.current c hc
  · exact TetrisPool.allCells_inside c hc

theorem Fits.downCells (h : s.Fits) (rand : Rand) : ∀ c ∈ s.downCells rand, Inside c.1 c.2 := by
  intro c hc
  have hprint := (h.downTetris rand).printCells c
  rw [TetrisBase.downCells, List.mem_append] at hc
  rcases hc with hc | hc
  · exact TetrisPool.readCells_inside hc
  · split_ifs at hc with hfree htop
    · exact hprint hc
    · rw [List.append_nil] at hc
      exact place_inside h.current c hc
    · simp only [List.mem_append] at hc
      rcases hc with hc | hc | hc
      · exact place_inside h.current c hc
      · exact TetrisPool.allCells_inside c hc
      · exact hprint hc

/-- The blocks of a game that has begun are on the board, and so is all that is done with them. -/
theorem Fits.requestCells (h : s.Fits) (request : TetrisRequest) (rand : Rand) :
    ∀ c ∈ s.requestCells request rand, Inside c.1 c.2 := by
  intro c hc
  cases request with
  | move eDirection =>
    cases eDirection with
    | none => cases hc
    | down => exact h.downCells rand c hc
    | left => exact TetrisPool.readCells_inside hc
    | right => exact TetrisPool.readCells_inside hc
  | rotation eDirection =>
    cases eDirection with
    | none => cases hc
    | left => exact TetrisPool.readCells_inside hc
    | right => exact TetrisPool.readCells_inside hc

end TetrisBase

/-! ### The object of a player -/

/-- `gaming` is that the scene is in `ESS_Gaming`. -/
structure TetrisScene where
  gaming : Bool
  tetris : TetrisBase

inductive SceneOp where
  /-- `ChangeState(ESS_Gaming)`, which calls `Init` of all players. -/
  | gameStart (rand rand' : Rand)
  /-- `Run`. Only `Gaming` calls `Update`; `suspended` is that its suspend time is over. -/
  | update (suspended : Bool) (rand : Rand)
  | request (request : TetrisRequest) (rand : Rand)

namespace TetrisScene

/-- What the constructors leave. -/
def new : TetrisScene := ⟨false, ⟨fun _ _ => 0, ⟨0, 0, 0, 0, 0⟩, ⟨0, 0, 0, 0, 0⟩⟩⟩

def step (σ : TetrisScene) : SceneOp → Option TetrisScene
  | .gameStart rand rand' => some ⟨true, (TetrisBase.init rand rand').1⟩
  | .update suspended rand =>
    some { σ with tetris :=
      if σ.gaming && suspended then (σ.tetris.downTetris rand).1 else σ.tetris }
  | .request request rand => some { σ with tetris := (σ.tetris.onRequest request rand).1 }

/-- The cells that the requests and the drops of a step touch. -/
def touched (σ : TetrisScene) : SceneOp → List Cell
  | .gameStart _ _ => []
  | .update suspended rand => if σ.gaming && suspended then σ.tetris.downCells rand else []
  | .request request rand => σ.tetris.requestCells request rand

def OnBoard (σ : TetrisScene) (op : SceneOp) : Prop := ∀ c ∈ σ.touched op, Inside c.1 c.2

/-- A request to move down is dealt with in `ESS_Gaming`. -/
def InTime (σ : TetrisScene) : SceneOp → Prop
  | .request (.move .down) _ => σ.gaming = true
  | _ => True

/-- Before the game: all that a request can have changed is the direction. -/
def Waiting (σ : TetrisScene) : Prop :=
  ∃ dwDirect : Fin 4, σ = ⟨false, ⟨fun _ _ => 0, ⟨0, .ofNat dwDirect, 0, 0, 0⟩, ⟨0, 0, 0, 0, 0⟩⟩⟩

def Kept (σ : TetrisScene) : Prop := σ.Waiting ∨ σ.gaming = true ∧ σ.tetris.Fits

variable {σ σ' : TetrisScene} {op : SceneOp}

theorem kept_new : Kept new := .inl ⟨0, rfl⟩

/-- No block can be moved aside where it has not come in, and a turn only turns it. -/
theorem Waiting.onRequest (h : σ.Waiting) (request : TetrisRequest) (rand : Rand)
    (hdown : request ≠ .move .down) :
    Waiting { σ with tetris := (σ.tetris.onRequest request rand).1 } := by
  obtain ⟨dwDirect, rfl⟩ := h
  cases request with
  | move eDirection =>
    cases eDirection with
    | none => exact ⟨dwDirect, rfl⟩
    | down => exact absurd rfl hdown
    | left =>
      refine ⟨dwDirect, ?_⟩
      rw [TetrisBase.onRequest, TetrisBase.fst_leftTetris, if_neg]
      revert dwDirect
      decide +kernel
    | right =>
      refine ⟨dwDirect, ?_⟩
      rw [TetrisBase.onRequest, TetrisBase.fst_rightTetris, if_neg]
      revert dwDirect
      decide +kernel
  | rotation eDirection =>
    cases eDirection with
    | none => exact ⟨dwDirect, rfl⟩
    | left =>
      rw [TetrisBase.onRequest, TetrisBase.fst_leftRotation]
      split_ifs
      · refine ⟨dwDirect - 1, ?_⟩
        simp only [Tetris.turn]
        congr 3
        revert dwDirect
        decide
      · exact ⟨dwDirect, rfl⟩
    | right =>
      rw [TetrisBase.onRequest, TetrisBase.fst_rightRotation]
      split_ifs
      · refine ⟨dwDirect + 1, ?_⟩
        simp only [Tetris.turn]
        congr 3
        revert dwDirect
        decide
      · exact ⟨dwDirect, rfl⟩

theorem off_board : ∀ dwDirect : Fin 4, ∀ dwPosY : Fin 2,
    let t : Tetris := ⟨0, .ofNat dwDirect, 0, 0, (dwPosY.val : Int)⟩
    ∃ c ∈ t.cells.map t.place, ¬ Inside c.1 c.2 := by
  decide +kernel

/-- The first step down touches rows above the board, whether the block falls or is fixed. -/
theorem Waiting.down (h : σ.Waiting) (rand : Rand) :
    ∃ c ∈ σ.tetris.downCells rand, ¬ Inside c.1 c.2 := by
  obtain ⟨dwDirect, rfl⟩ := h
  rw [TetrisBase.downCells]
  split_ifs with hfree
  · obtain ⟨c, hc, hout⟩ := off_board dwDirect 1
    refine ⟨c, List.mem_append_right _ ?_, hout⟩
    rw [TetrisBase.downTetris, if_pos hfree]
    exact List.mem_append_left _ (List.mem_append_right _ hc)
  · obtain ⟨c, hc, hout⟩ := off_board dwDirect 0
    exact ⟨c, List.mem_append_right _ (List.mem_append_left _ hc), hout⟩
  · obtain ⟨c, hc, hout⟩ := off_board dwDirect 0
    exact ⟨c, List.mem_append_right _ (List.mem_append_left _ hc), hout⟩

theorem Waiting.gaming (h : σ.Waiting) : σ.gaming = false := by
  obtain ⟨dwDirect, rfl⟩ := h
  rfl

theorem Waiting.inTime_iff (h : σ.Waiting) (op : SceneOp) : InTime σ op ↔ OnBoard σ op := by
  have hgaming := h.gaming
  cases op with
  | gameStart rand rand' => exact iff_of_true trivial fun c hc => by cases hc
  | update suspended rand =>
    refine iff_of_true trivial fun c hc => ?_
    rw [touched, hgaming, Bool.false_and] at hc
    cases hc
  | request request rand =>
    cases request with
    | move eDirection =>
      cases eDirection with
      | none => exact iff_of_true trivial fun c hc => by cases hc
      | down =>
        refine iff_of_false (fun hin => ?_) fun hall => ?_
        · exact Bool.false_ne_true (hgaming.symm.trans hin)
        · obtain ⟨c, hc, hout⟩ := h.down rand
          exact hout (hall c hc)
      | left => exact iff_of_true trivial fun c hc => TetrisPool.readCells_inside hc
      | right => exact iff_of_true trivial fun c hc => TetrisPool.readCells_inside hc
    | rotation eDirection =>
      cases eDirection with
      | none => exact iff_of_true trivial fun c hc => by cases hc
      | left => exact iff_of_true trivial fun c hc => TetrisPool.readCells_inside hc
      | right => exact iff_of_true trivial fun c hc => TetrisPool.readCells_inside hc

theorem Kept.inTime_iff (h : σ.Kept) (op : SceneOp) : InTime σ op ↔ OnBoard σ op := by
  rcases h with hwaiting | ⟨hgaming, hfits⟩
  · exact hwaiting.inTime_iff op
  · refine iff_of_true ?_ fun c hc => ?_
    · rw [InTime.eq_def]
      split
      · exact hgaming
      · trivial
    · cases op with
      | gameStart rand rand' => cases hc
      | update suspended rand =>
        rw [touched] at hc
        split_ifs at hc
        · exact hfits.downCells rand c hc
        · cases hc
      | request request rand => exact hfits.requestCells request rand c hc

theorem Kept.step (h : σ.Kept) (hin : InTime σ op) (hstep : σ.step op = some σ') : σ'.Kept := by
  rw [TetrisScene.step.eq_def] at hstep
  cases op with
  | gameStart rand rand' =>
    obtain rfl := Option.some.inj hstep
    exact .inr ⟨rfl, TetrisBase.fits_init rand rand'⟩
  | update suspended rand =>
    obtain rfl := Option.some.inj hstep
    rcases h with hwaiting | ⟨hgaming, hfits⟩
    · obtain ⟨dwDirect, rfl⟩ := hwaiting
      exact .inl ⟨dwDirect, rfl⟩
    · refine .inr ⟨hgaming, ?_⟩
      simp only
      split_ifs
      · exact hfits.downTetris rand
      · exact hfits
  | request request rand =>
    obtain rfl := Option.some.inj hstep
    rcases h with hwaiting | ⟨hgaming, hfits⟩
    · refine .inl (hwaiting.onRequest request rand ?_)
      rintro rfl
      exact Bool.false_ne_true (hwaiting.gaming.symm.trans hin)
    · exact .inr ⟨hgaming, hfits.onRequest request rand⟩

/-- In a run of the scene every cell that is touched is on the board if and only if every request
to move down is dealt with in `ESS_Gaming`. -/
theorem onBoard_iff_inTime (ops : List SceneOp) :
    Transition.Always TetrisScene.step OnBoard new ops ↔
      Transition.Always TetrisScene.step InTime new ops :=
  (Transition.always_iff Kept (fun _ op h => h.inTime_iff op)
    (fun _ _ _ h hin hstep => h.step hin hstep) kept_new).symm

/-- A client that enters while the game is being prepared and asks its block down. -/
theorem off_board_before_game :
    ¬ Transition.Always TetrisScene.step OnBoard new [.request (.move .down) ⟨0, 0, 0⟩] := by
  intro h
  obtain ⟨c, hc, hout⟩ := Waiting.down (σ := new) ⟨0, rfl⟩ ⟨0, 0, 0⟩
  exact hout (h.1 c hc)

end TetrisScene

end WebGame
