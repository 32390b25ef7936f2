import FxLib.WebGame.TetrisPool

/-!
# The Tetris of a player on the game server

`TetrisBase`, with the calls of `rand` as an argument and the messages that go out as a result. The
tick and the suspend time are left out: when a block drops by itself is up to the caller.
-/

namespace WebGame

def g_dwColors : List UInt32 :=
  [0xFF000000, 0x00FF0000, 0x0000FF00, 0xFFFF0000, 0x00FFFF00, 0xFF00FF00, 0xF00F0000, 0x00F0F000]

def g_dwTetrisTable : TetrisTable :=
  [[[[0, 0xFFFFFFFF, 0, 0], [0, 0xFFFFFFFF, 0, 0], [0, 0xFFFFFFFF, 0, 0],
     [0, 0xFFFFFFFF, 0, 0], [0, 0xFFFFFFF0, 0, 0],
     [0xFFFFFFF1, 0xFFFFFFF1, 0xFFFFFFF1, 0xFFFFFFF1],
     [0xFFFFFFF1, 0xFFFFFFF1, 0xFFFFFFF1, 0xFFFFFFF1]],
    [[0, 0, 0, 0], [0xFFFFFFFF, 0xFFFFFFFF, 0xFFFFFFFF, 0xFFFFFFFF], [0, 0, 0, 0],
     [0, 0, 0, 0], [0xFFFFFFF2, 0xFFFFFFF2, 0xFFFFFFF2, 0xFFFFFFF2], [0, 0xFFFFFFF0, 0, 0],
     [0, 0xFFFFFFF3, 0, 0]],
    [[0, 0xFFFFFFFF, 0, 0], [0, 0xFFFFFFFF, 0, 0], [0, 0xFFFFFFFF, 0, 0],
     [0, 0xFFFFFFFF, 0, 0], [0, 0xFFFFFFF0, 0, 0],
     [0xFFFFFFF1, 0xFFFFFFF1, 0xFFFFFFF1, 0xFFFFFFF1],
     [0xFFFFFFF1, 0xFFFFFFF1, 0xFFFFFFF1, 0xFFFFFFF1]],
    [[0, 0, 0, 0], [0xFFFFFFFF, 0xFFFFFFFF, 0xFFFFFFFF, 0xFFFFFFFF], [0, 0, 0, 0],
     [0, 0, 0, 0], [0xFFFFFFF2, 0xFFFFFFF2, 0xFFFFFFF2, 0xFFFFFFF2], [0, 0xFFFFFFF0, 0, 0],
     [0, 0xFFFFFFF3, 0, 0]]],
   [[[0, 0, 0xFFFFFFFF, 0], [0, 0, 0xFFFFFFFF, 0xFFFFFFFF], [0, 0, 0xFFFFFFFF, 0],
     [0, 0, 0, 0], [0, 0, 0xFFFFFFF1, 0xFFFFFFF2], [0xFFFFFFF2, 0xFFFFFFF2, 0xFFFFFFF2, 0],
     [0xFFFFFFF2, 0xFFFFFFF3, 0xFFFFFFF2, 0]],
    [[0, 0, 0, 0], [0, 0xFFFFFFFF, 0xFFFFFFFF, 0xFFFFFFFF], [0, 0, 0xFFFFFFFF, 0],
     [0, 0, 0, 0], [0, 0xFFFFFFF2, 0xFFFFFFF1, 0xFFFFFFF2], [0, 0xFFFFFFF1, 0xFFFFFFF2, 0],
     [0, 0xFFFFFFF3, 0xFFFFFFF2, 0]],
    [[0, 0, 0xFFFFFFFF, 0], [0, 0xFFFFFFFF, 0xFFFFFFFF, 0], [0, 0, 0xFFFFFFFF, 0],
     [0, 0, 0, 0], [0, 0xFFFFFFF2, 0xFFFFFFF1, 0], [0xFFFFFFF2, 0xFFFFFFF1, 0xFFFFFFF2, 0],
     [0xFFFFFFF2, 0xFFFFFFF2, 0xFFFFFFF2, 0]],
    [[0, 0, 0xFFFFFFFF, 0], [0, 0xFFFFFFFF, 0xFFFFFFFF, 0xFFFFFFFF], [0, 0, 0, 0],
     [0, 0, 0, 0], [0, 0xFFFFFFF2, 0xFFFFFFF2, 0xFFFFFFF2], [0xFFFFFFF2, 0xFFFFFFF1, 0, 0],
     [0xFFFFFFF2, 0xFFFFFFF3, 0, 0]]],
   [[[0, 0, 0, 0xFFFFFFFF], [0, 0xFFFFFFFF, 0xFFFFFFFF, 0xFFFFFFFF], [0, 0, 0, 0],
     [0, 0, 0, 0], [0, 0xFFFFFFF2, 0xFFFFFFF2, 0xFFFFFFF2], [0xFFFFFFF3, 0xFFFFFFF1, 0, 0],
     [0xFFFFFFF3, 0xFFFFFFF3, 0, 0]],
    [[0, 0, 0xFFFFFFFF, 0], [0, 0, 0xFFFFFFFF, 0], [0, 0, 0xFFFFFFFF, 0xFFFFFFFF],
     [0, 0, 0, 0], [0, 0, 0xFFFFFFF1, 0xFFFFFFF1], [0xFFFFFFF2, 0xFFFFFFF2, 0xFFFFFFF2, 0],
     [0xFFFFFFF2, 0xFFFFFFF2, 0xFFFFFFF3, 0]],
    [[0, 0, 0, 0], [0, 0xFFFFFFFF, 0xFFFFFFFF, 0xFFFFFFFF], [0, 0xFFFFFFFF, 0, 0],
     [0, 0, 0, 0], [0, 0xFFFFFFF1, 0xFFFFFFF2, 0xFFFFFFF2], [0, 0xFFFFFFF1, 0xFFFFFFF1, 0],
     [0xFFFFFFF3, 0xFFFFFFF1, 0, 0]],
    [[0, 0xFFFFFFFF, 0xFFFFFFFF, 0], [0, 0, 0xFFFFFFFF, 0], [0, 0, 0xFFFFFFFF, 0],
     [0, 0, 0, 0], [0, 0xFFFFFFF3, 0xFFFFFFF1, 0], [0xFFFFFFF1, 0xFFFFFFF2, 0xFFFFFFF2, 0],
     [0xFFFFFFF2, 0xFFFFFFF2, 0xFFFFFFF2, 0]]],
   [[[0, 0, 0, 0], [0, 0xFFFFFFFF, 0xFFFFFFFF, 0xFFFFFFFF], [0, 0, 0, 0xFFFFFFFF],
     [0, 0, 0, 0], [0, 0xFFFFFFF2, 0xFFFFFFF2, 0xFFFFFFF1], [0, 0xFFFFFFF1, 0xFFFFFFF2, 0],
     [0, 0xFFFFFFF3, 0xFFFFFFF3, 0]],
    [[0, 0, 0xFFFFFFFF, 0], [0, 0, 0xFFFFFFFF, 0], [0, 0xFFFFFFFF, 0xFFFFFFFF, 0],
     [0, 0, 0, 0], [0, 0xFFFFFFF1, 0xFFFFFFF1, 0], [0xFFFFFFF2, 0xFFFFFFF2, 0xFFFFFFF1, 0],
     [0xFFFFFFF2, 0xFFFFFFF2, 0xFFFFFFF2, 0]],
    [[0, 0xFFFFFFFF, 0, 0], [0, 0xFFFFFFFF, 0xFFFFFFFF, 0xFFFFFFFF], [0, 0, 0, 0],
     [0, 0, 0, 0], [0, 0xFFFFFFF2, 0xFFFFFFF2, 0xFFFFFFF2], [0xFFFFFFF1, 0xFFFFFFF1, 0, 0],
     [0xFFFFFFF1, 0xFFFFFFF3, 0, 0]],
    [[0, 0, 0xFFFFFFFF, 0xFFFFFFFF], [0, 0, 0xFFFFFFFF, 0], [0, 0, 0xFFFFFFFF, 0],
     [0, 0, 0, 0], [0, 0, 0xFFFFFFF1, 0xFFFFFFF3], [0xFFFFFFF2, 0xFFFFFFF2, 0xFFFFFFF2, 0],
     [0xFFFFFFF3, 0xFFFFFFF2, 0xFFFFFFF2, 0]]],
   [[[0, 0, 0, 0xFFFFFFFF], [0, 0, 0xFFFFFFFF, 0xFFFFFFFF], [0, 0, 0xFFFFFFFF, 0],
     [0, 0, 0, 0], [0, 0, 0xFFFFFFF1, 0xFFFFFFF2], [0xFFFFFFF3, 0xFFFFFFF2, 0xFFFFFFF2, 0],
     [0xFFFFFFF3, 0xFFFFFFF3, 0xFFFFFFF2, 0]],
    [[0, 0, 0, 0], [0, 0xFFFFFFFF, 0xFFFFFFFF, 0], [0, 0, 0xFFFFFFFF, 0xFFFFFFFF],
     [0, 0, 0, 0], [0, 0xFFFFFFF2, 0xFFFFFFF1, 0xFFFFFFF1], [0, 0xFFFFFFF1, 0xFFFFFFF2, 0],
     [0, 0xFFFFFFF2, 0xFFFFFFF3, 0]],
    [[0, 0, 0, 0xFFFFFFFF], [0, 0, 0xFFFFFFFF, 0xFFFFFFFF], [0, 0, 0xFFFFFFFF, 0],
     [0, 0, 0, 0], [0, 0, 0xFFFFFFF1, 0xFFFFFFF2], [0xFFFFFFF3, 0xFFFFFFF2, 0xFFFFFFF2, 0],
     [0xFFFFFFF3, 0xFFFFFFF3, 0xFFFFFFF2, 0]],
    [[0, 0, 0, 0], [0, 0xFFFFFFFF, 0xFFFFFFFF, 0], [0, 0, 0xFFFFFFFF, 0xFFFFFFFF],
     [0, 0, 0, 0], [0, 0xFFFFFFF2, 0xFFFFFFF1, 0xFFFFFFF1], [0, 0xFFFFFFF1, 0xFFFFFFF2, 0],
     [0, 0xFFFFFFF2, 0xFFFFFFF3, 0]]],
   [[[0, 0, 0, 0], [0, 0, 0xFFFFFFFF, 0], [0, 0, 0xFFFFFFFF, 0xFFFFFFFF],
     [0, 0, 0, 0xFFFFFFFF], [0, 0, 0xFFFFFFF1, 0xFFFFFFF0],
     [0, 0xFFFFFFF2, 0xFFFFFFF2, 0xFFFFFFF3], [0, 0xFFFFFFF2, 0xFFFFFFF3, 0xFFFFFFF3]],
    [[0, 0, 0, 0], [0, 0, 0xFFFFFFFF, 0xFFFFFFFF], [0, 0xFFFFFFFF, 0xFFFFFFFF, 0],
     [0, 0, 0, 0], [0, 0xFFFFFFF1, 0xFFFFFFF1, 0xFFFFFFF2], [0, 0xFFFFFFF2, 0xFFFFFFF1, 0],
     [0, 0xFFFFFFF3, 0xFFFFFFF2, 0]],
    [[0, 0, 0, 0], [0, 0, 0xFFFFFFFF, 0], [0, 0, 0xFFFFFFFF, 0xFFFFFFFF],
     [0, 0, 0, 0xFFFFFFFF], [0, 0, 0xFFFFFFF1, 0xFFFFFFF0],
     [0, 0xFFFFFFF2, 0xFFFFFFF2, 0xFFFFFFF3], [0, 0xFFFFFFF2, 0xFFFFFFF3, 0xFFFFFFF3]],
    [[0, 0, 0, 0], [0, 0, 0xFFFFFFFF, 0xFFFFFFFF], [0, 0xFFFFFFFF, 0xFFFFFFFF, 0],
     [0, 0, 0, 0], [0, 0xFFFFFFF1, 0xFFFFFFF1, 0xFFFFFFF2], [0, 0xFFFFFFF2, 0xFFFFFFF1, 0],
     [0, 0xFFFFFFF3, 0xFFFFFFF2, 0]]],
   [[[0, 0, 0, 0], [0, 0xFFFFFFFF, 0xFFFFFFFF, 0], [0, 0xFFFFFFFF, 0xFFFFFFFF, 0],
     [0, 0, 0, 0], [0, 0xFFFFFFF1, 0xFFFFFFF1, 0], [0, 0xFFFFFFF1, 0xFFFFFFF1, 0],
     [0, 0xFFFFFFF2, 0xFFFFFFF2, 0]],
    [[0, 0, 0, 0], [0, 0xFFFFFFFF, 0xFFFFFFFF, 0], [0, 0xFFFFFFFF, 0xFFFFFFFF, 0],
     [0, 0, 0, 0], [0, 0xFFFFFFF1, 0xFFFFFFF1, 0], [0, 0xFFFFFFF1, 0xFFFFFFF1, 0],
     [0, 0xFFFFFFF2, 0xFFFFFFF2, 0]],
    [[0, 0, 0, 0], [0, 0xFFFFFFFF, 0xFFFFFFFF, 0], [0, 0xFFFFFFFF, 0xFFFFFFFF, 0],
     [0, 0, 0, 0], [0, 0xFFFFFFF1, 0xFFFFFFF1, 0], [0, 0xFFFFFFF1, 0xFFFFFFF1, 0],
     [0, 0xFFFFFFF2, 0xFFFFFFF2, 0]],
    [[0, 0, 0, 0], [0, 0xFFFFFFFF, 0xFFFFFFFF, 0], [0, 0xFFFFFFFF, 0xFFFFFFFF, 0],
     [0, 0, 0, 0], [0, 0xFFFFFFF1, 0xFFFFFFF1, 0], [0, 0xFFFFFFF1, 0xFFFFFFF1, 0],
     [0, 0xFFFFFFF2, 0xFFFFFFF2, 0]]]]

/-- `GameProto.Tetris`. -/
structure TetrisInfo where
  dwTetrisShape : UInt32
  dwTetrisDirect : UInt32
  dwTetrisColor : UInt32
  dwPosX : Int
  dwPosY : Int
  deriving DecidableEq

def Tetris.fillTetris (t : Tetris) : TetrisInfo :=
  ⟨t.dwTetrisShape, t.dwTetrisDirect, t.dwTetrisColor, t.dwPosX, t.dwPosY⟩

inductive EMoveDirection where
  | none
  | down
  | left
  | right
  deriving DecidableEq

inductive ERotationDirection where
  | none
  | left
  | right
  deriving DecidableEq

/-- The messages about the Tetris of one player. -/
inductive TetrisNotify where
  | initTetris (currTetris nextTetris : TetrisInfo)
  | move (eDirection : EMoveDirection)
  | rotation (eDirection : ERotationDirection)
  | nextTetris (nextTetris : TetrisInfo)
  | dead
  deriving DecidableEq

/-- `NotifyPlayer` sends to everybody, `NotifyPlayerExcept` leaves the player itself out. -/
inductive TetrisSent where
  | notifyPlayer (msg : TetrisNotify)
  | notifyPlayerExcept (msg : TetrisNotify)
  deriving DecidableEq

def TetrisSent.toOwner : TetrisSent → Option TetrisNotify
  | .notifyPlayer msg => some msg
  | .notifyPlayerExcept _ => none

def TetrisSent.toOther : TetrisSent → TetrisNotify
  | .notifyPlayer msg => msg
  | .notifyPlayerExcept msg => msg

/-- Three results of `rand`: for the shape, the direction and the colour. -/
structure Rand where
  shape : Nat
  direct : Nat
  color : Nat

def newTetris (rand : Rand) : Tetris where
  dwTetrisShape := .ofNat (rand.shape % 7)
  dwTetrisDirect := .ofNat (rand.direct % 4)
  dwTetrisColor := g_dwColors.getD (rand.color % 8) 0
  dwPosX := (columnNum - tetrisUnit) / 2
  dwPosY := tetrisUnit

inductive TetrisRequest where
  | move (eDirection : EMoveDirection)
  | rotation (eDirection : ERotationDirection)
  deriving DecidableEq

structure TetrisBase where
  dwTetrisPools : TetrisPool
  oCurrentTetris : Tetris
  oNextTetris : Tetris

namespace TetrisBase

/-- `CommonTetris::Init`. -/
def init (rand rand' : Rand) : TetrisBase × List TetrisSent :=
  let s : TetrisBase := ⟨fun _ _ => 0, newTetris rand, newTetris rand'⟩
  (s, [.notifyPlayer (.initTetris s.oCurrentTetris.fillTetris s.oNextTetris.fillTetris)])

def checkDownTetris (s : TetrisBase) : Bool :=
  s.dwTetrisPools.checkDownTetris g_dwTetrisTable s.oCurrentTetris

def checkLeftTetris (s : TetrisBase) : Bool :=
  s.dwTetrisPools.checkLeftTetris g_dwTetrisTable s.oCurrentTetris

def checkRightTetris (s : TetrisBase) : Bool :=
  s.dwTetrisPools.checkRightTetris g_dwTetrisTable s.oCurrentTetris

def downTetris (s : TetrisBase) (rand : Rand) : TetrisBase × List TetrisSent :=
  if s.checkDownTetris = false then
    ({ s with oCurrentTetris := { s.oCurrentTetris with dwPosY := s.oCurrentTetris.dwPosY + 1 } },
      [.notifyPlayerExcept (.move .down)])
  else
    let dwTetrisPools := s.dwTetrisPools.lock g_dwTetrisTable s.oCurrentTetris
    if s.oCurrentTetris.dwPosY ≤ tetrisUnit then
      ({ s with dwTetrisPools := dwTetrisPools }, [.notifyPlayer .dead])
    else
      (⟨dwTetrisPools.eraseRows, s.oNextTetris, newTetris rand⟩,
        [.notifyPlayerExcept (.move .down),
          .notifyPlayer (.nextTetris (newTetris rand).fillTetris)])

def leftTetris (s : TetrisBase) : TetrisBase × List TetrisSent :=
  if s.checkLeftTetris = false then
    ({ s with oCurrentTetris := { s.oCurrentTetris with dwPosX := s.oCurrentTetris.dwPosX - 1 } },
      [.notifyPlayerExcept (.move .left)])
  else (s, [])

def rightTetris (s : TetrisBase) : TetrisBase × List TetrisSent :=
  if s.checkRightTetris = false then
    ({ s with oCurrentTetris := { s.oCurrentTetris with dwPosX := s.oCurrentTetris.dwPosX + 1 } },
      [.notifyPlayerExcept (.move .right)])
  else (s, [])

def leftRotation (s : TetrisBase) : TetrisBase × List TetrisSent :=
  let t := { s.oCurrentTetris with dwTetrisDirect := (s.oCurrentTetris.dwTetrisDirect - 1) % 4 }
  if s.dwTetrisPools.checkRotation g_dwTetrisTable t then (s, [])
  else ({ s with oCurrentTetris := t }, [.notifyPlayerExcept (.rotation .left)])

def rightRotation (s : TetrisBase) : TetrisBase × List TetrisSent :=
  let t := { s.oCurrentTetris with dwTetrisDirect := (s.oCurrentTetris.dwTetrisDirect + 1) % 4 }
  if s.dwTetrisPools.checkRotation g_dwTetrisTable t then (s, [])
  else ({ s with oCurrentTetris := t }, [.notifyPlayerExcept (.rotation .right)])

/-- `OnPlayerRequestMove` and `OnPlayerRequestRotation`. A block that drops by itself in `Update`
is a `move .down` as well. -/
def onRequest (s : TetrisBase) (request : TetrisRequest) (rand : Rand) :
    TetrisBase × List TetrisSent :=
  match request with
  | .move .down => s.downTetris rand
  | .move .left => s.leftTetris
  | .move .right => s.rightTetris
  | .move .none => (s, [])
  | .rotation .left => s.leftRotation
  | .rotation .right => s.rightRotation
  | .rotation .none => (s, [])

/-- Both blocks are on the board, the next one as it will be when its turn comes. -/
structure Fits (s : TetrisBase) : Prop where
  current : s.oCurrentTetris.Fits g_dwTetrisTable
  next : s.oNextTetris.Fits g_dwTetrisTable

theorem bordered : g_dwTetrisTable.Bordered := by
  have hleft : ∀ s : Fin 7, ∀ d : Fin 4, ∀ u ∈ units, g_dwTetrisTable.entry s d u.1 u.2 ≠ 0 →
      ∃ k < tetrisUnit, g_dwTetrisTable.entry s d 5 k ≠ 0 ∧
        border (g_dwTetrisTable.entry s d 5 k) ≤ u.2 := by decide +kernel
  have hright : ∀ s : Fin 7, ∀ d : Fin 4, ∀ u ∈ units, g_dwTetrisTable.entry s d u.1 u.2 ≠ 0 →
      ∃ k < tetrisUnit, g_dwTetrisTable.entry s d 6 k ≠ 0 ∧
        u.2 ≤ border (g_dwTetrisTable.entry s d 6 k) := by decide +kernel
  have hdown : ∀ s : Fin 7, ∀ d : Fin 4, ∀ u ∈ units, g_dwTetrisTable.entry s d u.1 u.2 ≠ 0 →
      ∃ k < tetrisUnit, g_dwTetrisTable.entry s d 4 k ≠ 0 ∧
        border (g_dwTetrisTable.entry s d 4 k) + u.1 < tetrisUnit := by decide +kernel
  constructor
  · exact fun s d hs hd => hleft ⟨s, hs⟩ ⟨d, hd⟩
  · exact fun s d hs hd => hright ⟨s, hs⟩ ⟨d, hd⟩
  · exact fun s d hs hd => hdown ⟨s, hs⟩ ⟨d, hd⟩

/-- Every block that the server makes is on the board. -/
theorem newTetris_fits (rand : Rand) : (newTetris rand).Fits g_dwTetrisTable := by
  constructor
  · rw [newTetris, UInt32.toNat_ofNat_of_lt' (Nat.lt_trans (Nat.mod_lt _ (by decide)) (by decide))]
    exact Nat.mod_lt _ (by decide)
  · rw [newTetris, UInt32.toNat_ofNat_of_lt' (Nat.lt_trans (Nat.mod_lt _ (by decide)) (by decide))]
    exact Nat.mod_lt _ (by decide)
  · exact Int.le_refl 4
  · intro u hu _
    obtain ⟨hrow, hcol⟩ := TetrisPool.mem_units.mp hu
    have hunit : (tetrisUnit : Int) = 4 := rfl
    have hcolumn : (columnNum : Int) = 12 := rfl
    have hrows : (rowNum : Int) = 22 := rfl
    constructor
    · simp only [newTetris]
      omega
    · simp only [newTetris]
      omega

variable {s : TetrisBase}

theorem Fits.downTetris (h : s.Fits) (rand : Rand) : (s.downTetris rand).1.Fits := by
  rw [TetrisBase.downTetris]
  by_cases hfree : s.checkDownTetris = false
  · rw [if_pos hfree]
    exact ⟨h.current.down bordered hfree, h.next⟩
  · rw [if_neg hfree]
    split_ifs
    · exact ⟨h.current, h.next⟩
    · exact ⟨h.next, newTetris_fits rand⟩

theorem direct_lt (dwDirect : UInt32) : (dwDirect % 4).toNat < 4 := by
  rw [UInt32.toNat_mod]
  exact Nat.mod_lt _ (by decide)

/-- Every index of a request is in range, and so after it. -/
theorem Fits.onRequest (h : s.Fits) (request : TetrisRequest) (rand : Rand) :
    (s.onRequest request rand).1.Fits := by
  cases request with
  | move eDirection =>
    cases eDirection with
    | none => exact h
    | down => exact h.downTetris rand
    | left =>
      rw [TetrisBase.onRequest, leftTetris]
      by_cases hfree : s.checkLeftTetris = false
      · rw [if_pos hfree]
        exact ⟨h.current.left bordered hfree, h.next⟩
      · rw [if_neg hfree]
        exact h
    | right =>
      rw [TetrisBase.onRequest, rightTetris]
      by_cases hfree : s.checkRightTetris = false
      · rw [if_pos hfree]
        exact ⟨h.current.right bordered hfree, h.next⟩
      · rw [if_neg hfree]
        exact h
  | rotation eDirection =>
    cases eDirection with
    | none => exact h
    | left =>
      rw [TetrisBase.onRequest, leftRotation]
      simp only
      split_ifs with hcheck
      · exact h
      · exact ⟨h.current.rotate (direct_lt _) (Bool.not_eq_true _ ▸ hcheck), h.next⟩
    | right =>
      rw [TetrisBase.onRequest, rightRotation]
      simp only
      split_ifs with hcheck
      · exact h
      · exact ⟨h.current.rotate (direct_lt _) (Bool.not_eq_true _ ▸ hcheck), h.next⟩

theorem fits_init (rand rand' : Rand) : (init rand rand').1.Fits :=
  ⟨newTetris_fits rand, newTetris_fits rand'⟩

end TetrisBase

end WebGame
