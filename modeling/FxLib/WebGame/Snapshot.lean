import FxLib.WebGame.Player
import FxLib.WebGame.TetrisData

/-!
# The boards that a player gets when it enters

In a running game `OnPlayerRequestGameEnter` sends the Tetris of every player to the client that
enters. The message is declared outside of the loop over the players, and `FillTetrisData` adds to
the repeated field of the cells.
-/

namespace WebGame

/-- `GameNotifyPlayerGameTetrisData`. -/
structure TetrisDataMsg where
  dwPlayerId : PlayerId
  dwData : List UInt32
  currTetris : TetrisInfo
  nextTetris : TetrisInfo

namespace TetrisDataMsg

def empty : TetrisDataMsg := ⟨0, [], ⟨0, 0, 0, 0, 0⟩, ⟨0, 0, 0, 0, 0⟩⟩

end TetrisDataMsg

def TetrisPool.cells (pool : TetrisPool) : List UInt32 :=
  (List.finRange rowNum).flatMap fun i => (List.finRange columnNum).map fun j => pool i j

def TetrisBase.fillTetrisData (s : TetrisBase) (qwPlayerId : PlayerId) (refData : TetrisDataMsg) :
    TetrisDataMsg :=
  ⟨qwPlayerId, refData.dwData ++ s.dwTetrisPools.cells, s.oCurrentTetris.fillTetris,
    s.oNextTetris.fillTetris⟩

/-- The loop over `m_qwRoles`, with the message as the round before has left it. -/
def snapshot (tetris : PlayerId → TetrisBase) : TetrisDataMsg → List PlayerId → List TetrisDataMsg
  | _, [] => []
  | oData, qwPlayerId :: qwRoles =>
    if qwPlayerId = 0 then snapshot tetris oData qwRoles
    else
      let oData := (tetris qwPlayerId).fillTetrisData qwPlayerId oData
      oData :: snapshot tetris oData qwRoles

/-- The player whose board is the first one in the message. -/
def firstRole (qwRoles : List PlayerId) : Option PlayerId := qwRoles.find? (· ≠ 0)

/-! ### The client -/

/-- The cells are read by their index. -/
def TetrisData.syncTetrisData (d : TetrisData) (oTetris : TetrisDataMsg) : TetrisData :=
  d.sync (fun i j => oTetris.dwData.getD (i.val * columnNum + j.val) 0) oTetris.currTetris
    oTetris.nextTetris

abbrev TetrisDataManager := PlayerId → Option TetrisData

namespace TetrisDataManager

/-- For every player of the scene, when the scene comes. -/
def setPlayer (m : TetrisDataManager) (qwPlayerId : PlayerId) : TetrisDataManager :=
  match m qwPlayerId with
  | some _ => m
  | none => Function.update m qwPlayerId (some .new)

def onGameNotifyPlayerGameTetrisData (m : TetrisDataManager) (oRet : TetrisDataMsg) :
    TetrisDataManager :=
  match m oRet.dwPlayerId with
  | none => m
  | some d => Function.update m oRet.dwPlayerId (some (d.syncTetrisData oRet))

/-- The client that enters gets the scene and then the boards. -/
def enter (m : TetrisDataManager) (tetris : PlayerId → TetrisBase) (qwRoles : List PlayerId) :
    TetrisDataManager :=
  (snapshot tetris .empty qwRoles).foldl onGameNotifyPlayerGameTetrisData
    ((qwRoles.filter (· ≠ 0)).foldl setPlayer m)

end TetrisDataManager

/-! ### The cells of a message -/

theorem getElem?_flatMap_of_length {α β : Type} {f : α → List β} {n : Nat} {l : List α}
    (hlength : ∀ a ∈ l, (f a).length = n) (i : Nat) {j : Nat} (hj : j < n) :
    (l.flatMap f)[i * n + j]? = l[i]?.bind fun a => (f a)[j]? := by
  induction l generalizing i with
  | nil => simp
  | cons a l ih =>
    have ha := hlength a List.mem_cons_self
    rw [List.flatMap_cons]
    cases i with
    | zero =>
      rw [Nat.zero_mul, Nat.zero_add, List.getElem?_append_left (by omega)]
      rfl
    | succ i =>
      rw [Nat.succ_mul, Nat.add_right_comm,
        List.getElem?_append_right (by omega), ha, Nat.add_sub_cancel,
        ih (fun b hb => hlength b (List.mem_cons_of_mem _ hb))]
      rfl

/-- A message that begins with the cells of a board is read as this board. -/
theorem getD_cells (pool : TetrisPool) (rest : List UInt32) (i : Fin rowNum) (j : Fin columnNum) :
    (pool.cells ++ rest).getD (i.val * columnNum + j.val) 0 = pool i j := by
  have hcell : pool.cells[i.val * columnNum + j.val]? = some (pool i j) := by
    rw [TetrisPool.cells, getElem?_flatMap_of_length (fun a _ => by
      rw [List.length_map, List.length_finRange]) i.val j.isLt]
    simp
  rw [List.getD_eq_getElem?_getD, List.getElem?_append_left, hcell]
  · rfl
  · exact (List.getElem?_eq_some_iff.mp hcell).1

structure Tells (tetris : PlayerId → TetrisBase) (board : TetrisPool) (msg : TetrisDataMsg) :
    Prop where
  dwData : ∃ rest, msg.dwData = board.cells ++ rest
  currTetris : msg.currTetris = (tetris msg.dwPlayerId).oCurrentTetris.fillTetris
  nextTetris : msg.nextTetris = (tetris msg.dwPlayerId).oNextTetris.fillTetris

variable {tetris : PlayerId → TetrisBase} {board : TetrisPool} {qwRoles : List PlayerId}

/-- Every message has the blocks of its player and begins with the board of the first one. -/
theorem tells_snapshot {oData : TetrisDataMsg}
    (h : (oData.dwData = [] ∧ ∀ f, firstRole qwRoles = some f → board = (tetris f).dwTetrisPools) ∨
      ∃ rest, oData.dwData = board.cells ++ rest) :
    ∀ msg ∈ snapshot tetris oData qwRoles, Tells tetris board msg := by
  induction qwRoles generalizing oData with
  | nil =>
    intro msg hmsg
    cases hmsg
  | cons q qwRoles ih =>
    rw [snapshot]
    by_cases hq : q = 0
    · rw [if_pos hq]
      apply ih
      rw [firstRole, List.find?_cons_of_neg (by simp [hq])] at h
      exact h
    · rw [if_neg hq]
      have hdata : ∃ rest,
          oData.dwData ++ (tetris q).dwTetrisPools.cells = board.cells ++ rest := by
        rcases h with ⟨hempty, hfirst⟩ | ⟨rest, hrest⟩
        · rw [hfirst q (List.find?_cons_of_pos (by simp [hq])), hempty]
          exact ⟨[], by simp⟩
        · exact ⟨rest ++ (tetris q).dwTetrisPools.cells, by rw [hrest, List.append_assoc]⟩
      intro msg hmsg
      rcases List.mem_cons.mp hmsg with rfl | hmsg
      · exact ⟨hdata, rfl, rfl⟩
      · exact ih (.inr hdata) msg hmsg

theorem map_snapshot (tetris : PlayerId → TetrisBase) (oData : TetrisDataMsg)
    (qwRoles : List PlayerId) :
    (snapshot tetris oData qwRoles).map TetrisDataMsg.dwPlayerId = qwRoles.filter (· ≠ 0) := by
  induction qwRoles generalizing oData with
  | nil => rfl
  | cons q qwRoles ih =>
    rw [snapshot]
    by_cases hq : q = 0
    · rw [if_pos hq, ih, List.filter_cons_of_neg (by simp [hq])]
    · rw [if_neg hq, List.map_cons, ih, List.filter_cons_of_pos (by simp [hq])]
      rfl

/-! ### What the client makes of it -/

namespace TetrisDataManager

theorem setPlayer_apply (m : TetrisDataManager) (p q : PlayerId) :
    m.setPlayer p q = if q = p then some ((m q).getD .new) else m q := by
  rw [setPlayer]
  by_cases hq : q = p
  · subst hq
    rw [if_pos rfl]
    cases hm : m q with
    | none => simp
    | some d => simp [hm]
  · rw [if_neg hq]
    cases m p with
    | none => exact Function.update_of_ne hq _ _
    | some d => rfl

theorem foldl_setPlayer (l : List PlayerId) (m : TetrisDataManager) (q : PlayerId) :
    l.foldl setPlayer m q = if q ∈ l then some ((m q).getD .new) else m q := by
  induction l generalizing m with
  | nil => rfl
  | cons p l ih =>
    rw [List.foldl_cons, ih, setPlayer_apply]
    by_cases hq : q = p
    · subst hq
      simp
    · simp [hq]

theorem sync_sync (d : TetrisData) (pool : TetrisPool) (curr next : TetrisInfo) :
    (d.sync pool curr next).sync pool curr next = d.sync pool curr next := by
  obtain ⟨pool', current, next'⟩ := d
  cases current with
  | none => rfl
  | some t =>
    cases next' with
    | none => rfl
    | some t' => rfl

/-- What a message that tells the board makes of a player's Tetris. -/
def told (tetris : PlayerId → TetrisBase) (board : TetrisPool) (q : PlayerId) (d : TetrisData) :
    TetrisData :=
  d.sync board (tetris q).oCurrentTetris.fillTetris (tetris q).oNextTetris.fillTetris

theorem onGameNotifyPlayerGameTetrisData_apply {msg : TetrisDataMsg}
    (h : Tells tetris board msg) (m : TetrisDataManager) (q : PlayerId) :
    m.onGameNotifyPlayerGameTetrisData msg q =
      if q = msg.dwPlayerId then (m q).map (told tetris board q) else m q := by
  have hsync : ∀ d : TetrisData, d.syncTetrisData msg = told tetris board msg.dwPlayerId d := by
    intro d
    obtain ⟨rest, hrest⟩ := h.dwData
    have hboard : (fun (i : Fin rowNum) (j : Fin columnNum) =>
        msg.dwData.getD (i.val * columnNum + j.val) 0) = board := by
      funext i j
      rw [hrest, getD_cells]
    rw [TetrisData.syncTetrisData, hboard, h.currTetris, h.nextTetris, told]
  rw [onGameNotifyPlayerGameTetrisData]
  by_cases hq : q = msg.dwPlayerId
  · subst hq
    rw [if_pos rfl]
    cases hm : m msg.dwPlayerId with
    | none => simp [hm]
    | some d => simp [hsync]
  · rw [if_neg hq]
    cases m msg.dwPlayerId with
    | none => rfl
    | some d => exact Function.update_of_ne hq _ _

theorem foldl_apply {l : List TetrisDataMsg} (h : ∀ msg ∈ l, Tells tetris board msg)
    (m : TetrisDataManager) (q : PlayerId) :
    l.foldl onGameNotifyPlayerGameTetrisData m q =
      if q ∈ l.map TetrisDataMsg.dwPlayerId then (m q).map (told tetris board q) else m q := by
  induction l generalizing m with
  | nil => rfl
  | cons msg l ih =>
    rw [List.foldl_cons, ih fun msg' hmsg' => h msg' (List.mem_cons_of_mem _ hmsg'),
      onGameNotifyPlayerGameTetrisData_apply (h msg List.mem_cons_self)]
    by_cases hq : q = msg.dwPlayerId
    · rw [if_pos hq, List.map_cons, if_pos (List.mem_cons.mpr (.inl hq))]
      split_ifs
      · rw [Option.map_map]
        refine congrFun (congrArg Option.map (funext fun d => ?_)) (m q)
        exact sync_sync d board _ _
      · rfl
    · simp [hq]

/-- After it has entered, a client has for every player its own blocks and the board of the first
player. -/
theorem enter_apply {f : PlayerId} (hfirst : firstRole qwRoles = some f) (m : TetrisDataManager)
    {q : PlayerId} (hq : q ∈ qwRoles) (hzero : q ≠ 0) :
    m.enter tetris qwRoles q =
      some (told tetris (tetris f).dwTetrisPools q ((m q).getD .new)) := by
  have htells : ∀ msg ∈ snapshot tetris .empty qwRoles,
      Tells tetris (tetris f).dwTetrisPools msg := by
    refine tells_snapshot (.inl ⟨rfl, fun g hg => ?_⟩)
    rw [hfirst] at hg
    rw [Option.some.inj hg]
  have hrole : q ∈ qwRoles.filter (· ≠ 0) := List.mem_filter.mpr ⟨hq, by simp [hzero]⟩
  rw [enter, foldl_apply htells, map_snapshot, if_pos hrole, foldl_setPlayer, if_pos hrole]
  rfl

/-- A player's Tetris is right after the client has entered if and only if its board is that of the
first player and neither block was missing. -/
theorem enter_eq_view_iff {f : PlayerId} (hfirst : firstRole qwRoles = some f)
    (m : TetrisDataManager) {q : PlayerId} (hq : q ∈ qwRoles) (hzero : q ≠ 0) :
    m.enter tetris qwRoles q = some (tetris q).view ↔
      (tetris f).dwTetrisPools = (tetris q).dwTetrisPools ∧
        ((m q).getD .new).oCurrentTetris.isSome = true ∧
          ((m q).getD .new).oNextTetris.isSome = true := by
  rw [enter_apply hfirst m hq hzero, Option.some.injEq]
  exact TetrisBase.sync_eq_view_iff

theorem exists_firstRole {q : PlayerId} (hq : q ∈ qwRoles) (hzero : q ≠ 0) :
    ∃ f, firstRole qwRoles = some f := by
  rw [← Option.isSome_iff_exists, firstRole, List.find?_isSome]
  exact ⟨q, hq, by simp [hzero]⟩

/-- The client has every player's Tetris right if and only if all boards are the same and no block
was missing. -/
theorem entered_iff_same_boards (tetris : PlayerId → TetrisBase) (qwRoles : List PlayerId)
    (m : TetrisDataManager) :
    (∀ q ∈ qwRoles, q ≠ 0 → m.enter tetris qwRoles q = some (tetris q).view) ↔
      ∀ q ∈ qwRoles, q ≠ 0 →
        (∀ f, firstRole qwRoles = some f →
          (tetris f).dwTetrisPools = (tetris q).dwTetrisPools) ∧
        ((m q).getD .new).oCurrentTetris.isSome = true ∧
          ((m q).getD .new).oNextTetris.isSome = true := by
  refine forall_congr' fun q => forall_congr' fun hq => forall_congr' fun hzero => ?_
  obtain ⟨f, hfirst⟩ := exists_firstRole hq hzero
  rw [enter_eq_view_iff hfirst m hq hzero]
  refine and_congr_left fun _ => ⟨?_, fun hall => hall f hfirst⟩
  rintro hboard f' hfirst'
  rw [hfirst] at hfirst'
  rw [← Option.some.inj hfirst']
  exact hboard

/-- The first player has an empty board, the second one has a cell on it. -/
def twoBoards (q : PlayerId) : TetrisBase :=
  let start := (TetrisBase.init ⟨0, 0, 0⟩ ⟨0, 0, 0⟩).1
  if q = 1 then start
  else { start with dwTetrisPools := start.dwTetrisPools.set 21 0 0xFF000000 }

theorem not_entered_of_two_boards :
    ¬ ∀ (tetris : PlayerId → TetrisBase) (qwRoles : List PlayerId) (m : TetrisDataManager),
      ∀ q ∈ qwRoles, q ≠ 0 → m.enter tetris qwRoles q = some (tetris q).view := by
  intro hall
  have hview := hall twoBoards [1, 2] (fun _ => none) 2 (by decide) (by decide)
  have hfirst : firstRole [1, 2] = some 1 := by decide
  have hboard := ((enter_eq_view_iff hfirst _ (by decide) (by decide)).mp hview).1
  exact absurd (congrFun (congrFun hboard 21) 0) (by decide)

end TetrisDataManager

end WebGame
