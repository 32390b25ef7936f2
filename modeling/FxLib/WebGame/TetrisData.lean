import FxLib.WebGame.TetrisBase

/-!
# The Tetris of a player on a client

`TetrisData`, which every client has for every player, and `UserTetrisData`, which it has for its
own player. The two blocks are objects that may be null; a member function that goes through a null
one throws, which leaves what it has done until then.
-/

namespace WebGame

def s_dwTetrisTable : TetrisTable :=
  [[[[0, 0xFFFFFFFF, 0, 0], [0, 0xFFFFFFFF, 0, 0], [0, 0xFFFFFFFF, 0, 0],
     [0, 0xFFFFFFFF, 0, 0], [0, 0xFFFFFFF0, 0, 0],
     [0xFFFFFFF1, 0xFFFFFFF1, 0xFFFFFFF1, 0xFFFFFFF1],
     [0xFFFFFFF1, 0xFFFFFFF1, 0xFFFFFFF1, 0xFFFFFFF1]],
    [[0, 0, 0, 0], [0xFFFFFFFF, 0xFFFFFFFF, 0xFFFFFFFF, 0xFFFFFFFF], [0, 0, 0, 0],
     [0, 0, 0, 0], [0xFFFFFFF2, 0xFFFFFFF2, 0xFFFFFFF2, 0xFFFFFFF2], [0, 0xFFFFFFF0, 0, 0],
     [0, 0xFFFFFFF3, 0, 0]],
    [[0, 0xFFFFFFFF, 0, 0], [0, 0xFFFFFFFF, 0, 0], [0, 0xFFFFFFFF, 0, 0],
     [0, 0xFFFFFFFF, 0, 0], [0, 0xFFFFFFF0, 0, 0],
     [0xFFFFFFF1, 0xFFFFFFF1, 0xFFFFFFF1, 0xFFFFFFF1],
     [0xFFFFFFF1, 0xFFFFFFF1, 0xFFFFFFF1, 0xFFFFFFF1]],
    [[0, 0, 0, 0], [0xFFFFFFFF, 0xFFFFFFFF, 0xFFFFFFFF, 0xFFFFFFFF], [0, 0, 0, 0],
     [0, 0, 0, 0], [0xFFFFFFF2, 0xFFFFFFF2, 0xFFFFFFF2, 0xFFFFFFF2], [0, 0xFFFFFFF0, 0, 0],
     [0, 0xFFFFFFF3, 0, 0]]],
   [[[0, 0, 0xFFFFFFFF, 0], [0, 0, 0xFFFFFFFF, 0xFFFFFFFF], [0, 0, 0xFFFFFFFF, 0],
     [0, 0, 0, 0], [0, 0, 0xFFFFFFF1, 0xFFFFFFF2], [0xFFFFFFF2, 0xFFFFFFF2, 0xFFFFFFF2, 0],
     [0xFFFFFFF2, 0xFFFFFFF3, 0xFFFFFFF2, 0]],
    [[0, 0, 0, 0], [0, 0xFFFFFFFF, 0xFFFFFFFF, 0xFFFFFFFF], [0, 0, 0xFFFFFFFF, 0],
     [0, 0, 0, 0], [0, 0xFFFFFFF2, 0xFFFFFFF1, 0xFFFFFFF2], [0, 0xFFFFFFF1, 0xFFFFFFF2, 0],
     [0, 0xFFFFFFF3, 0xFFFFFFF2, 0]],
    [[0, 0, 0xFFFFFFFF, 0], [0, 0xFFFFFFFF, 0xFFFFFFFF, 0], [0, 0, 0xFFFFFFFF, 0],
     [0, 0, 0, 0], [0, 0xFFFFFFF2, 0xFFFFFFF1, 0], [0xFFFFFFF2, 0xFFFFFFF1, 0xFFFFFFF2, 0],
     [0xFFFFFFF2, 0xFFFFFFF2, 0xFFFFFFF2, 0]],
    [[0, 0, 0xFFFFFFFF, 0], [0, 0xFFFFFFFF, 0xFFFFFFFF, 0xFFFFFFFF], [0, 0, 0, 0],
     [0, 0, 0, 0], [0, 0xFFFFFFF2, 0xFFFFFFF2, 0xFFFFFFF2], [0xFFFFFFF2, 0xFFFFFFF1, 0, 0],
     [0xFFFFFFF2, 0xFFFFFFF3, 0, 0]]],
   [[[0, 0, 0, 0xFFFFFFFF], [0, 0xFFFFFFFF, 0xFFFFFFFF, 0xFFFFFFFF], [0, 0, 0, 0],
     [0, 0, 0, 0], [0, 0xFFFFFFF2, 0xFFFFFFF2, 0xFFFFFFF2], [0xFFFFFFF3, 0xFFFFFFF1, 0, 0],
     [0xFFFFFFF3, 0xFFFFFFF3, 0, 0]],
    [[0, 0, 0xFFFFFFFF, 0], [0, 0, 0xFFFFFFFF, 0], [0, 0, 0xFFFFFFFF, 0xFFFFFFFF],
     [0, 0, 0, 0], [0, 0, 0xFFFFFFF1, 0xFFFFFFF1], [0xFFFFFFF2, 0xFFFFFFF2, 0xFFFFFFF2, 0],
     [0xFFFFFFF2, 0xFFFFFFF2, 0xFFFFFFF3, 0]],
    [[0, 0, 0, 0], [0, 0xFFFFFFFF, 0xFFFFFFFF, 0xFFFFFFFF], [0, 0xFFFFFFFF, 0, 0],
     [0, 0, 0, 0], [0, 0xFFFFFFF1, 0xFFFFFFF2, 0xFFFFFFF2], [0, 0xFFFFFFF1, 0xFFFFFFF1, 0],
     [0xFFFFFFF3, 0xFFFFFFF1, 0, 0]],
    [[0, 0xFFFFFFFF, 0xFFFFFFFF, 0], [0, 0, 0xFFFFFFFF, 0], [0, 0, 0xFFFFFFFF, 0],
     [0, 0, 0, 0], [0, 0xFFFFFFF3, 0xFFFFFFF1, 0], [0xFFFFFFF1, 0xFFFFFFF2, 0xFFFFFFF2, 0],
     [0xFFFFFFF2, 0xFFFFFFF2, 0xFFFFFFF2, 0]]],
   [[[0, 0, 0, 0], [0, 0xFFFFFFFF, 0xFFFFFFFF, 0xFFFFFFFF], [0, 0, 0, 0xFFFFFFFF],
     [0, 0, 0, 0], [0, 0xFFFFFFF2, 0xFFFFFFF2, 0xFFFFFFF1], [0, 0xFFFFFFF1, 0xFFFFFFF2, 0],
     [0, 0xFFFFFFF3, 0xFFFFFFF3, 0]],
    [[0, 0, 0xFFFFFFFF, 0], [0, 0, 0xFFFFFFFF, 0], [0, 0xFFFFFFFF, 0xFFFFFFFF, 0],
     [0, 0, 0, 0], [0, 0xFFFFFFF1, 0xFFFFFFF1, 0], [0xFFFFFFF2, 0xFFFFFFF2, 0xFFFFFFF1, 0],
     [0xFFFFFFF2, 0xFFFFFFF2, 0xFFFFFFF2, 0]],
    [[0, 0xFFFFFFFF, 0, 0], [0, 0xFFFFFFFF, 0xFFFFFFFF, 0xFFFFFFFF], [0, 0, 0, 0],
     [0, 0, 0, 0], [0, 0xFFFFFFF2, 0xFFFFFFF2, 0xFFFFFFF2], [0xFFFFFFF1, 0xFFFFFFF1, 0, 0],
     [0xFFFFFFF1, 0xFFFFFFF3, 0, 0]],
    [[0, 0, 0xFFFFFFFF, 0xFFFFFFFF], [0, 0, 0xFFFFFFFF, 0], [0, 0, 0xFFFFFFFF, 0],
     [0, 0, 0, 0], [0, 0, 0xFFFFFFF1, 0xFFFFFFF3], [0xFFFFFFF2, 0xFFFFFFF2, 0xFFFFFFF2, 0],
     [0xFFFFFFF3, 0xFFFFFFF2, 0xFFFFFFF2, 0]]],
   [[[0, 0, 0, 0xFFFFFFFF], [0, 0, 0xFFFFFFFF, 0xFFFFFFFF], [0, 0, 0xFFFFFFFF, 0],
     [0, 0, 0, 0], [0, 0, 0xFFFFFFF1, 0xFFFFFFF2], [0xFFFFFFF3, 0xFFFFFFF2, 0xFFFFFFF2, 0],
     [0xFFFFFFF3, 0xFFFFFFF3, 0xFFFFFFF2, 0]],
    [[0, 0, 0, 0], [0, 0xFFFFFFFF, 0xFFFFFFFF, 0], [0, 0, 0xFFFFFFFF, 0xFFFFFFFF],
     [0, 0, 0, 0], [0, 0xFFFFFFF2, 0xFFFFFFF1, 0xFFFFFFF1], [0, 0xFFFFFFF1, 0xFFFFFFF2, 0],
     [0, 0xFFFFFFF2, 0xFFFFFFF3, 0]],
    [[0, 0, 0, 0xFFFFFFFF], [0, 0, 0xFFFFFFFF, 0xFFFFFFFF], [0, 0, 0xFFFFFFFF, 0],
     [0, 0, 0, 0], [0, 0, 0xFFFFFFF1, 0xFFFFFFF2], [0xFFFFFFF3, 0xFFFFFFF2, 0xFFFFFFF2, 0],
     [0xFFFFFFF3, 0xFFFFFFF3, 0xFFFFFFF2, 0]],
    [[0, 0, 0, 0], [0, 0xFFFFFFFF, 0xFFFFFFFF, 0], [0, 0, 0xFFFFFFFF, 0xFFFFFFFF],
     [0, 0, 0, 0], [0, 0xFFFFFFF2, 0xFFFFFFF1, 0xFFFFFFF1], [0, 0xFFFFFFF1, 0xFFFFFFF2, 0],
     [0, 0xFFFFFFF2, 0xFFFFFFF3, 0]]],
   [[[0, 0, 0, 0], [0, 0, 0xFFFFFFFF, 0], [0, 0, 0xFFFFFFFF, 0xFFFFFFFF],
     [0, 0, 0, 0xFFFFFFFF], [0, 0, 0xFFFFFFF1, 0xFFFFFFF0],
     [0, 0xFFFFFFF2, 0xFFFFFFF2, 0xFFFFFFF3], [0, 0xFFFFFFF2, 0xFFFFFFF3, 0xFFFFFFF3]],
    [[0, 0, 0, 0], [0, 0, 0xFFFFFFFF, 0xFFFFFFFF], [0, 0xFFFFFFFF, 0xFFFFFFFF, 0],
     [0, 0, 0, 0], [0, 0xFFFFFFF1, 0xFFFFFFF1, 0xFFFFFFF2], [0, 0xFFFFFFF2, 0xFFFFFFF1, 0],
     [0, 0xFFFFFFF3, 0xFFFFFFF2, 0]],
    [[0, 0, 0, 0], [0, 0, 0xFFFFFFFF, 0], [0, 0, 0xFFFFFFFF, 0xFFFFFFFF],
     [0, 0, 0, 0xFFFFFFFF], [0, 0, 0xFFFFFFF1, 0xFFFFFFF0],
     [0, 0xFFFFFFF2, 0xFFFFFFF2, 0xFFFFFFF3], [0, 0xFFFFFFF2, 0xFFFFFFF3, 0xFFFFFFF3]],
    [[0, 0, 0, 0], [0, 0, 0xFFFFFFFF, 0xFFFFFFFF], [0, 0xFFFFFFFF, 0xFFFFFFFF, 0],
     [0, 0, 0, 0], [0, 0xFFFFFFF1, 0xFFFFFFF1, 0xFFFFFFF2], [0, 0xFFFFFFF2, 0xFFFFFFF1, 0],
     [0, 0xFFFFFFF3, 0xFFFFFFF2, 0]]],
   [[[0, 0, 0, 0], [0, 0xFFFFFFFF, 0xFFFFFFFF, 0], [0, 0xFFFFFFFF, 0xFFFFFFFF, 0],
     [0, 0, 0, 0], [0, 0xFFFFFFF1, 0xFFFFFFF1, 0], [0, 0xFFFFFFF1, 0xFFFFFFF1, 0],
     [0, 0xFFFFFFF2, 0xFFFFFFF2, 0]],
    [[0, 0, 0, 0], [0, 0xFFFFFFFF, 0xFFFFFFFF, 0], [0, 0xFFFFFFFF, 0xFFFFFFFF, 0],
     [0, 0, 0, 0], [0, 0xFFFFFFF1, 0xFFFFFFF1, 0], [0, 0xFFFFFFF1, 0xFFFFFFF1, 0],
     [0, 0xFFFFFFF2, 0xFFFFFFF2, 0]],
    [[0, 0, 0, 0], [0, 0xFFFFFFFF, 0xFFFFFFFF, 0], [0, 0xFFFFFFFF, 0xFFFFFFFF, 0],
     [0, 0, 0, 0], [0, 0xFFFFFFF1, 0xFFFFFFF1, 0], [0, 0xFFFFFFF1, 0xFFFFFFF1, 0],
     [0, 0xFFFFFFF2, 0xFFFFFFF2, 0]],
    [[0, 0, 0, 0], [0, 0xFFFFFFFF, 0xFFFFFFFF, 0], [0, 0xFFFFFFFF, 0xFFFFFFFF, 0],
     [0, 0, 0, 0], [0, 0xFFFFFFF1, 0xFFFFFFF1, 0], [0, 0xFFFFFFF1, 0xFFFFFFF1, 0],
     [0, 0xFFFFFFF2, 0xFFFFFFF2, 0]]]]

/-- The two programs have the same table. -/
theorem s_dwTetrisTable_eq : s_dwTetrisTable = g_dwTetrisTable := rfl

def Tetris.init (oTetris : TetrisInfo) : Tetris :=
  ⟨oTetris.dwTetrisShape, oTetris.dwTetrisDirect, oTetris.dwTetrisColor, oTetris.dwPosX,
    oTetris.dwPosY⟩

@[simp] theorem Tetris.init_fillTetris (t : Tetris) : Tetris.init t.fillTetris = t := rfl

structure TetrisData where
  dwTetrisPool : TetrisPool
  oCurrentTetris : Option Tetris
  oNextTetris : Option Tetris

namespace TetrisData

/-- `new TetrisData()`. -/
def new : TetrisData := ⟨fun _ _ => 0, some ⟨0, 0, 0, 0, 0⟩, some ⟨0, 0, 0, 0, 0⟩⟩

/-- The end of the two `Sync` functions that replace the board. -/
def sync (d : TetrisData) (dwTetrisPool : TetrisPool) (currTetris nextTetris : TetrisInfo) :
    TetrisData :=
  match d.oCurrentTetris, d.oNextTetris with
  | none, _ => { d with dwTetrisPool := dwTetrisPool }
  | some _, none => ⟨dwTetrisPool, some (.init currTetris), none⟩
  | some _, some _ => ⟨dwTetrisPool, some (.init currTetris), some (.init nextTetris)⟩

def syncInitTetris (d : TetrisData) (currTetris nextTetris : TetrisInfo) : TetrisData :=
  d.sync (fun _ _ => 0) currTetris nextTetris

def syncNextTetris (d : TetrisData) (nextTetris : TetrisInfo) : TetrisData :=
  { d with oNextTetris := some (.init nextTetris) }

/-! The member functions return whether they have done anything. -/

def downTetris (d : TetrisData) : TetrisData × Bool :=
  match d.oCurrentTetris with
  | none => (d, false)
  | some t =>
    if d.dwTetrisPool.checkDownTetris s_dwTetrisTable t = false then
      ({ d with oCurrentTetris := some { t with dwPosY := t.dwPosY + 1 } }, true)
    else
      let dwTetrisPool := d.dwTetrisPool.lock s_dwTetrisTable t
      if t.dwPosY ≤ tetrisUnit then ({ d with dwTetrisPool := dwTetrisPool }, true)
      else (⟨dwTetrisPool.eraseRows, d.oNextTetris, none⟩, true)

def leftTetris (d : TetrisData) : TetrisData × Bool :=
  match d.oCurrentTetris with
  | none => (d, false)
  | some t =>
    if d.dwTetrisPool.checkLeftTetris s_dwTetrisTable t = false then
      ({ d with oCurrentTetris := some { t with dwPosX := t.dwPosX - 1 } }, true)
    else (d, false)

def rightTetris (d : TetrisData) : TetrisData × Bool :=
  match d.oCurrentTetris with
  | none => (d, false)
  | some t =>
    if d.dwTetrisPool.checkRightTetris s_dwTetrisTable t = false then
      ({ d with oCurrentTetris := some { t with dwPosX := t.dwPosX + 1 } }, true)
    else (d, false)

def leftRotation (d : TetrisData) : TetrisData × Bool :=
  match d.oCurrentTetris with
  | none => (d, false)
  | some t =>
    let t' := { t with dwTetrisDirect := (t.dwTetrisDirect - 1) % 4 }
    if d.dwTetrisPool.checkRotation s_dwTetrisTable t' then (d, false)
    else ({ d with oCurrentTetris := some t' }, true)

def rightRotation (d : TetrisData) : TetrisData × Bool :=
  match d.oCurrentTetris with
  | none => (d, false)
  | some t =>
    let t' := { t with dwTetrisDirect := (t.dwTetrisDirect + 1) % 4 }
    if d.dwTetrisPool.checkRotation s_dwTetrisTable t' then (d, false)
    else ({ d with oCurrentTetris := some t' }, true)

/-- `TetrisOperator`. -/
def operate (d : TetrisData) : TetrisRequest → TetrisData × Bool
  | .move .down => d.downTetris
  | .move .left => d.leftTetris
  | .move .right => d.rightTetris
  | .move .none => (d, false)
  | .rotation .left => d.leftRotation
  | .rotation .right => d.rightRotation
  | .rotation .none => (d, false)

/-- The handlers of `GameControler`. -/
def onNotify (d : TetrisData) : TetrisNotify → TetrisData
  | .initTetris currTetris nextTetris => d.syncInitTetris currTetris nextTetris
  | .move eDirection => (d.operate (.move eDirection)).1
  | .rotation eDirection => (d.operate (.rotation eDirection)).1
  | .nextTetris nextTetris => d.syncNextTetris nextTetris
  | .dead => d

end TetrisData

/-! ### The Tetris of the client's own player -/

namespace UserTetrisData

/-- What the member functions of `UserTetrisData` have in common: they do nothing while there is no
next block, and what has been done is requested from the server. -/
def override (d : TetrisData) (base : TetrisData × Bool) (request : TetrisRequest) :
    TetrisData × Option TetrisRequest :=
  match d.oNextTetris with
  | none => (d, none)
  | some _ => if base.2 then (base.1, some request) else (base.1, none)

def downTetris (d : TetrisData) : TetrisData × Option TetrisRequest :=
  override d d.downTetris (.move .down)

def leftTetris (d : TetrisData) : TetrisData × Option TetrisRequest :=
  override d d.leftTetris (.move .left)

def rightTetris (d : TetrisData) : TetrisData × Option TetrisRequest :=
  override d d.rightTetris (.move .right)

def leftRotation (d : TetrisData) : TetrisData × Option TetrisRequest :=
  override d d.leftRotation (.rotation .left)

def rightRotation (d : TetrisData) : TetrisData × Option TetrisRequest :=
  override d d.rightRotation (.rotation .right)

def operate (d : TetrisData) : TetrisRequest → TetrisData × Option TetrisRequest
  | .move .down => downTetris d
  | .move .left => leftTetris d
  | .move .right => rightTetris d
  | .move .none => (d, none)
  | .rotation .left => leftRotation d
  | .rotation .right => rightRotation d
  | .rotation .none => (d, none)

/-- The handlers again; a move or a rotation would be sent back to the server. -/
def onNotify (d : TetrisData) : TetrisNotify → TetrisData × Option TetrisRequest
  | .initTetris currTetris nextTetris => (d.syncInitTetris currTetris nextTetris, none)
  | .move eDirection => operate d (.move eDirection)
  | .rotation eDirection => operate d (.rotation eDirection)
  | .nextTetris nextTetris => (d.syncNextTetris nextTetris, none)
  | .dead => (d, none)

theorem operate_eq (d : TetrisData) (request : TetrisRequest) :
    operate d request = override d (d.operate request) request := by
  have hnone : ∀ request, override d (d, false) request = (d, none) := by
    intro request
    rw [override]
    cases d.oNextTetris with
    | none => rfl
    | some t => rfl
  cases request with
  | move eDirection =>
    cases eDirection with
    | none => exact (hnone _).symm
    | down => rfl
    | left => rfl
    | right => rfl
  | rotation eDirection =>
    cases eDirection with
    | none => exact (hnone _).symm
    | left => rfl
    | right => rfl

/-- Nothing happens while the client waits for its next block. -/
theorem operate_of_waiting {d : TetrisData} (h : d.oNextTetris = none) (request : TetrisRequest) :
    operate d request = (d, none) := by
  rw [operate_eq, override, h]

end UserTetrisData

/-! ### A client next to the server -/

namespace TetrisBase

/-- What a client that has the same board and the same blocks has. -/
def view (s : TetrisBase) : TetrisData :=
  ⟨s.dwTetrisPools, some s.oCurrentTetris, some s.oNextTetris⟩

/-- A `Sync` function makes a client what the server is if the board is right and both blocks are
there. -/
theorem sync_eq_view_iff {d : TetrisData} {s : TetrisBase} {dwTetrisPool : TetrisPool} :
    d.sync dwTetrisPool s.oCurrentTetris.fillTetris s.oNextTetris.fillTetris = s.view ↔
      dwTetrisPool = s.dwTetrisPools ∧
        d.oCurrentTetris.isSome = true ∧ d.oNextTetris.isSome = true := by
  obtain ⟨pool, current, next⟩ := d
  cases current with
  | none =>
    refine iff_of_false (fun h => ?_) (by simp)
    cases congrArg TetrisData.oCurrentTetris h
  | some t =>
    cases next with
    | none =>
      refine iff_of_false (fun h => ?_) (by simp)
      cases congrArg TetrisData.oNextTetris h
    | some t' =>
      constructor
      · intro h
        exact ⟨congrArg TetrisData.dwTetrisPool h, rfl, rfl⟩
      · rintro ⟨rfl, -, -⟩
        rfl

variable (s : TetrisBase)

/-- The player has reached the top: the block is locked where it came in. -/
def Dies : Prop := s.checkDownTetris = true ∧ s.oCurrentTetris.dwPosY ≤ tetrisUnit

instance : Decidable s.Dies := inferInstanceAs (Decidable (_ ∧ _))

def locked : TetrisPool := s.dwTetrisPools.lock g_dwTetrisTable s.oCurrentTetris

end TetrisBase

/-- The message that a request of another player leads to. -/
def TetrisRequest.notify : TetrisRequest → TetrisNotify
  | .move eDirection => .move eDirection
  | .rotation eDirection => .rotation eDirection

theorem TetrisData.onNotify_notify (d : TetrisData) (request : TetrisRequest) :
    d.onNotify request.notify = (d.operate request).1 := by
  cases request with
  | move eDirection => rfl
  | rotation eDirection => rfl

namespace TetrisBase

/-- What a request does on the server and the same operation on a client that has the same state. -/
inductive Served (s : TetrisBase) (request : TetrisRequest) (rand : Rand) : Prop
  | refused (hserver : s.onRequest request rand = (s, []))
      (hclient : s.view.operate request = (s.view, false))
  | moved (s' : TetrisBase)
      (hserver : s.onRequest request rand = (s', [.notifyPlayerExcept request.notify]))
      (hclient : s.view.operate request = (s'.view, true))
      (hlives : ¬(request = .move .down ∧ s.Dies))
  | died (hrequest : request = .move .down) (hdies : s.Dies)
      (hserver : s.onRequest request rand =
        ({ s with dwTetrisPools := s.locked }, [.notifyPlayer .dead]))
      (hclient : s.view.operate request = (({ s with dwTetrisPools := s.locked } : TetrisBase).view,
        true))
  | locked (hlives : ¬ s.Dies)
      (hserver : s.onRequest request rand =
        (⟨s.locked.eraseRows, s.oNextTetris, newTetris rand⟩, [.notifyPlayerExcept request.notify,
          .notifyPlayer (.nextTetris (newTetris rand).fillTetris)]))
      (hclient : s.view.operate request = (⟨s.locked.eraseRows, some s.oNextTetris, none⟩, true))

variable {s : TetrisBase} {rand : Rand}

theorem served_down : s.Served (.move .down) rand := by
  by_cases hfree : s.checkDownTetris = false
  · refine .moved _ (if_pos hfree) (if_pos hfree) fun hdown => ?_
    rw [Dies, hfree] at hdown
    exact absurd hdown.2.1 Bool.false_ne_true
  · have hlocks := Bool.eq_true_of_not_eq_false hfree
    by_cases hpos : s.oCurrentTetris.dwPosY ≤ tetrisUnit
    · exact .died rfl ⟨hlocks, hpos⟩ ((if_neg hfree).trans (if_pos hpos))
        ((if_neg hfree).trans (if_pos hpos))
    · exact .locked (fun hdies => hpos hdies.2) ((if_neg hfree).trans (if_neg hpos))
        ((if_neg hfree).trans (if_neg hpos))

theorem served (s : TetrisBase) (request : TetrisRequest) (rand : Rand) :
    s.Served request rand := by
  cases request with
  | move eDirection =>
    cases eDirection with
    | none => exact .refused rfl rfl
    | down => exact served_down
    | left =>
      by_cases hfree : s.checkLeftTetris = false
      · exact .moved _ (if_pos hfree) (if_pos hfree) (by simp)
      · exact .refused (if_neg hfree) (if_neg hfree)
    | right =>
      by_cases hfree : s.checkRightTetris = false
      · exact .moved _ (if_pos hfree) (if_pos hfree) (by simp)
      · exact .refused (if_neg hfree) (if_neg hfree)
  | rotation eDirection =>
    cases eDirection with
    | none => exact .refused rfl rfl
    | left =>
      by_cases hcheck : s.dwTetrisPools.checkRotation g_dwTetrisTable { s.oCurrentTetris with
          dwTetrisDirect := (s.oCurrentTetris.dwTetrisDirect - 1) % 4 } = true
      · exact .refused (if_pos hcheck) (if_pos hcheck)
      · exact .moved _ (if_neg hcheck) (if_neg hcheck) (by simp)
    | right =>
      by_cases hcheck : s.dwTetrisPools.checkRotation g_dwTetrisTable { s.oCurrentTetris with
          dwTetrisDirect := (s.oCurrentTetris.dwTetrisDirect + 1) % 4 } = true
      · exact .refused (if_pos hcheck) (if_pos hcheck)
      · exact .moved _ (if_neg hcheck) (if_neg hcheck) (by simp)

/-- A client that has its next block requests what it has done. -/
theorem operate_view_of_done {request : TetrisRequest} {d : TetrisData}
    (h : s.view.operate request = (d, true)) :
    UserTetrisData.operate s.view request = (d, some request) := by
  rw [UserTetrisData.operate_eq, h]
  rfl

theorem operate_view_of_refused {request : TetrisRequest} {d : TetrisData}
    (h : s.view.operate request = (d, false)) :
    UserTetrisData.operate s.view request = (d, none) := by
  rw [UserTetrisData.operate_eq, h]
  rfl

end TetrisBase

end WebGame
