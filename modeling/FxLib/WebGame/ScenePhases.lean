import Mathlib.Data.List.Count
import Mathlib.Data.List.Dedup
import Mathlib.Data.List.Sort
import Mathlib.Order.Bounds.Defs
import FxLib.Lib.MachineInt
import FxLib.WebGame.PlayerBinding

/-!
# The phases of a game

`Run` of `WebGame/GameScene.cpp`, with what the scene itself tells its players and what a session
is sent when its player enters. The boards and their messages are left to `TetrisBase`. `dwSecond`
is the clock of the time handler, and the two `s_dwNotifyTime` are there from the first call of
their function on. Nobody looks at what `Send` answers, so what a full ring does not take is lost.
-/

open MachineInt

namespace WebGame

inductive EGameSceneState where
  | none
  | prepare
  | gameReady
  | gaming
  | transact
  deriving DecidableEq

/-- What the scene calls `NotifyPlayer` with. -/
inductive SceneNotify where
  | gameState (state : EGameSceneState)
  | prepareTime (dwLeftTime : Nat)
  | gameReadyTime (dwLeftTime : Nat)
  | gameInitTetris (dwPlayerId : PlayerId)
  deriving DecidableEq

/-- What a session is sent. -/
inductive SceneMessage where
  | notify (n : SceneNotify)
  | ackPlayerEnter (dwResult : EErrorCode)
  | gameConfig
  | gameSceneInfo (state : EGameSceneState)
  | gameTetrisData (dwPlayerId : PlayerId)
  deriving DecidableEq

/-- What the connection of a session has taken. `enteredAt` says how much the players had been told
when the session entered last, and `missed` whether it has been refused a message since. -/
structure SceneSession where
  inbox : List SceneMessage
  enteredAt : Nat
  missed : Bool
  deriving DecidableEq

structure SceneRun where
  scene : GameScene
  eSceneState : EGameSceneState
  dwGameStartTime : Nat
  dwPrepareTime : Nat
  dwGameReadyTime : Nat
  dwSecond : Nat
  prepareNotify : Option Nat
  readyNotify : Option Nat
  /-- What the scene has told its players so far. -/
  notified : List SceneNotify
  sessions : Nat → SceneSession
  /-- What `Send` answers, call by call, and how often it has been called. -/
  takes : Nat → Bool
  sends : Nat

/-- The ids of `m_mapPlayers`, in its order. -/
def playerIds (qwRoles : List PlayerId) : List PlayerId :=
  (qwRoles.filter (· ≠ 0)).dedup.insertionSort (· ≤ ·)
namespace SceneRun

def setSession (s : SceneRun) (session : Nat) (c : SceneSession) : SceneRun :=
  { s with sessions := Function.update s.sessions session c }

/-- `Send` on a session. -/
def send (s : SceneRun) (m : Nat × SceneMessage) : SceneRun :=
  let c := s.sessions m.1
  let s' := s.setSession m.1
    (if s.takes s.sends then { c with inbox := c.inbox ++ [m.2] } else { c with missed := true })
  { s' with sends := s.sends + 1 }

def notifyPlayer (s : SceneRun) (n : SceneNotify) : SceneRun :=
  (s.scene.notifyPlayer.map (·, SceneMessage.notify n)).foldl send
    { s with notified := s.notified ++ [n] }

/-- `Init` of every player. -/
def onGameStart (s : SceneRun) : SceneRun :=
  (playerIds s.scene.qwRoles).foldl
    (fun s qwPlayerId => s.notifyPlayer (.gameInitTetris qwPlayerId)) s

def changeState (s : SceneRun) (eGameSceneState : EGameSceneState) : SceneRun :=
  let s := { s with eSceneState := eGameSceneState }.notifyPlayer (.gameState eGameSceneState)
  match eGameSceneState with
  | .gaming => s.onGameStart
  | .none | .prepare | .gameReady | .transact => s

/-- The scene that `Init` makes of the roles, told the time of `GetSecond` and the
configuration. -/
def init (qwRoles : List PlayerId) (dwSecond dwPrepareTime dwGameReadyTime : Nat)
    (takes : Nat → Bool) : SceneRun :=
  changeState
    { scene := .init qwRoles, eSceneState := .none, dwGameStartTime := dwSecond
      dwPrepareTime := dwPrepareTime, dwGameReadyTime := dwGameReadyTime, dwSecond := dwSecond
      prepareNotify := none, readyNotify := none, notified := []
      sessions := fun _ => ⟨[], 0, false⟩, takes := takes, sends := 0 } .prepare

def preparing (s : SceneRun) : SceneRun :=
  let dwNotifyTime := s.prepareNotify.getD (toUInt32 (s.dwGameStartTime + 5))
  let s := { s with prepareNotify := some dwNotifyTime }
  let dwLeftTime := wrap32 (s.dwGameStartTime + s.dwPrepareTime - s.dwSecond)
  if dwLeftTime < 0 then s.changeState .gameReady
  else if s.dwSecond ≥ dwNotifyTime then
    let s := s.notifyPlayer (.prepareTime dwLeftTime.toNat)
    -- every second in the last five, every fifth before
    if dwNotifyTime ≥ toUInt32 (s.dwGameStartTime + s.dwPrepareTime - 5) then
      { s with prepareNotify := some (toUInt32 (dwNotifyTime + 1)) }
    else { s with prepareNotify := some (toUInt32 (dwNotifyTime + 5)) }
  else s

def gameReady (s : SceneRun) : SceneRun :=
  let dwNotifyTime := s.readyNotify.getD (toUInt32 (s.dwGameStartTime + s.dwPrepareTime + 1))
  let s := { s with readyNotify := some dwNotifyTime }
  let dwLeftTime :=
    wrap32 (s.dwGameStartTime + s.dwPrepareTime + s.dwGameReadyTime - s.dwSecond)
  if dwLeftTime < 0 then s.changeState .gaming
  else if s.dwSecond ≥ dwNotifyTime then
    { s.notifyPlayer (.gameReadyTime dwLeftTime.toNat) with
      readyNotify := some (toUInt32 (dwNotifyTime + 1)) }
  else s

/-- `GetTimeHandler()->Run()` reads the clock, then the scene runs. -/
def run (s : SceneRun) (dwSecond : Nat) : SceneRun :=
  let s := { s with dwSecond := dwSecond }
  match s.eSceneState with
  | .prepare => s.preparing
  | .gameReady => s.gameReady
  | .none | .gaming | .transact => s

/-- The boards that a player gets who enters when the game has begun. -/
def boards (s : SceneRun) : List SceneMessage :=
  if s.eSceneState = .gaming then (s.scene.qwRoles.filter (· ≠ 0)).map .gameTetrisData else []

/-- `OnPlayerRequestGameEnter`. -/
def onPlayerRequestGameEnter (s : SceneRun) (session : Nat) (qwPlayerId : PlayerId) : SceneRun :=
  match s.scene.getPlayer qwPlayerId with
  | none => s.send (session, .ackPlayerEnter .cannotFindPlayer)
  | some _ =>
    let messages :=
      [.ackPlayerEnter .none, .gameConfig, .gameSceneInfo s.eSceneState] ++ s.boards
    let c := { s.sessions session with enteredAt := s.notified.length, missed := false }
    (messages.map (session, ·)).foldl send (s.setSession session c)

inductive Label where
  | run (dwSecond : Nat)
  | connect
  | enter (session : Nat) (qwPlayerId : PlayerId)
  | close (session : Nat)
  deriving DecidableEq
def step (s : SceneRun) (l : Label) : Option SceneRun :=
  match l with
  | .run dwSecond => if s.scene.crashed then none else some (s.run dwSecond)
  | .connect => (s.scene.step .connect).map fun scene =>
    { s with scene := scene
             sessions := fun session =>
               if s.scene.connection session then s.sessions session else ⟨[], 0, false⟩ }
  | .enter session qwPlayerId =>
    (s.scene.step (.enter session qwPlayerId (s.eSceneState = .gaming))).map fun scene =>
      { s.onPlayerRequestGameEnter session qwPlayerId with scene := scene }
  | .close session => (s.scene.step (.close session)).map fun scene => { s with scene := scene }

/-! ### What is told -/

/-- The messages among `sends` that go to a session. -/
def sentTo (session : Nat) (sends : List (Nat × SceneMessage)) : List SceneMessage :=
  (sends.filter (·.1 = session)).map Prod.snd

/-- What a session gets that is sent each message `k` times. -/
def copies (k : Nat) (ns : List SceneNotify) : List SceneMessage :=
  ns.flatMap fun n => List.replicate k (.notify n)

/-- Nothing but the sessions has changed, and a session that has missed nothing has got its messages
among `sends`. -/
structure Sends (s s' : SceneRun) (sends : List (Nat × SceneMessage)) : Prop where
  rest : s' = { s with sends := s'.sends, sessions := s'.sessions }
  enteredAt : ∀ session, (s'.sessions session).enteredAt = (s.sessions session).enteredAt
  inbox : ∀ session, (s'.sessions session).missed = false →
    (s.sessions session).missed = false ∧
      (s'.sessions session).inbox = (s.sessions session).inbox ++ sentTo session sends

/-- The players have been told `ns`. -/
structure Tells (s s' : SceneRun) (ns : List SceneNotify) : Prop where
  rest : s' = { s with
    notified := s.notified ++ ns, sends := s'.sends, sessions := s'.sessions }
  enteredAt : ∀ session, (s'.sessions session).enteredAt = (s.sessions session).enteredAt
  inbox : ∀ session, (s'.sessions session).missed = false →
    (s.sessions session).missed = false ∧
      (s'.sessions session).inbox = (s.sessions session).inbox ++
        copies (s.scene.notifyPlayer.count session) ns

variable {s s' s'' : SceneRun} {session : Nat} {p q : PlayerId} {ns ns' : List SceneNotify}

theorem sends_send (s : SceneRun) (m : Nat × SceneMessage) : Sends s (s.send m) [m] := by
  have hself : (s.send m).sessions = Function.update s.sessions m.1
      (if s.takes s.sends then { s.sessions m.1 with inbox := (s.sessions m.1).inbox ++ [m.2] }
        else { s.sessions m.1 with missed := true }) := rfl
  refine ⟨rfl, fun session => ?_, fun session hmissed => ?_⟩
  · rw [hself, Function.update_apply]
    split_ifs with hc
    · rw [hc]
    · rw [hc]
    · rfl
  · rw [hself, Function.update_apply] at hmissed ⊢
    by_cases hc : session = m.1
    · rw [if_pos hc] at hmissed ⊢
      split_ifs at hmissed ⊢ with htakes
      subst hc
      exact ⟨hmissed, by simp [sentTo]⟩
    · rw [if_neg hc] at hmissed ⊢
      exact ⟨hmissed, by simp [sentTo, Ne.symm hc]⟩

theorem Sends.trans {xs ys : List (Nat × SceneMessage)} (h : Sends s s' xs)
    (h' : Sends s' s'' ys) : Sends s s'' (xs ++ ys) := by
  refine ⟨?_, fun session => (h'.enteredAt session).trans (h.enteredAt session), ?_⟩
  · rw [h'.rest, h.rest]
  · intro session hmissed
    obtain ⟨hmissed', hinbox'⟩ := h'.inbox session hmissed
    obtain ⟨hmissed'', hinbox⟩ := h.inbox session hmissed'
    refine ⟨hmissed'', ?_⟩
    rw [hinbox', hinbox, List.append_assoc]
    simp [sentTo]

theorem sends_foldl (s : SceneRun) (sends : List (Nat × SceneMessage)) :
    Sends s (sends.foldl send s) sends := by
  induction sends generalizing s with
  | nil => exact ⟨rfl, fun _ => rfl, fun session h => ⟨h, by simp [sentTo]⟩⟩
  | cons m sends ih => exact (s.sends_send m).trans (ih (s.send m))

theorem sentTo_notify (session : Nat) (receivers : List Nat) (n : SceneNotify) :
    sentTo session (receivers.map (·, SceneMessage.notify n)) =
      copies (receivers.count session) [n] := by
  induction receivers with
  | nil => rfl
  | cons c receivers ih =>
    simp only [sentTo, copies, List.flatMap_cons, List.flatMap_nil, List.append_nil] at ih ⊢
    by_cases hc : c = session
    · simp [hc, ih, List.replicate_succ]
    · simp [hc, ih]

theorem notifyPlayer_tells (s : SceneRun) (n : SceneNotify) : Tells s (s.notifyPlayer n) [n] := by
  have h := sends_foldl { s with notified := s.notified ++ [n] }
    (s.scene.notifyPlayer.map (·, SceneMessage.notify n))
  refine ⟨h.rest, h.enteredAt, fun session hmissed => ?_⟩
  obtain ⟨hmissed', hinbox⟩ := h.inbox session hmissed
  rw [sentTo_notify] at hinbox
  exact ⟨hmissed', hinbox⟩

theorem Tells.trans (h : Tells s s' ns) (h' : Tells s' s'' ns') : Tells s s'' (ns ++ ns') := by
  have hscene : s'.scene = s.scene := by
    rw [h.rest]
  refine ⟨?_, fun session => (h'.enteredAt session).trans (h.enteredAt session), ?_⟩
  · rw [h'.rest, h.rest]
    simp
  · intro session hmissed
    obtain ⟨hmissed', hinbox'⟩ := h'.inbox session hmissed
    obtain ⟨hmissed'', hinbox⟩ := h.inbox session hmissed'
    refine ⟨hmissed'', ?_⟩
    rw [hinbox', hinbox, hscene, List.append_assoc]
    simp [copies]

theorem onGameStart_tells (s : SceneRun) :
    Tells s s.onGameStart ((playerIds s.scene.qwRoles).map .gameInitTetris) := by
  have hall : ∀ (ids : List PlayerId) (s : SceneRun), Tells s
      (ids.foldl (fun s qwPlayerId => s.notifyPlayer (.gameInitTetris qwPlayerId)) s)
        (ids.map .gameInitTetris) := by
    intro ids
    induction ids with
    | nil =>
      intro s
      exact ⟨by simp, fun _ => rfl, fun session h => ⟨h, by simp [copies]⟩⟩
    | cons p ids ih =>
      intro s
      exact (s.notifyPlayer_tells (.gameInitTetris p)).trans (ih _)
  exact hall _ s

theorem changeState_gameReady (s : SceneRun) :
    Tells { s with eSceneState := .gameReady } (s.changeState .gameReady)
      [.gameState .gameReady] :=
  notifyPlayer_tells ..

theorem changeState_gaming (s : SceneRun) :
    Tells { s with eSceneState := .gaming } (s.changeState .gaming)
      (.gameState .gaming :: (playerIds s.scene.qwRoles).map .gameInitTetris) := by
  have hstate := notifyPlayer_tells { s with eSceneState := .gaming } (.gameState .gaming)
  have hroles : (notifyPlayer { s with eSceneState := .gaming }
      (.gameState .gaming)).scene.qwRoles = s.scene.qwRoles := by
    rw [hstate.rest]
  have hstart := onGameStart_tells (notifyPlayer { s with eSceneState := .gaming }
    (.gameState .gaming))
  rw [hroles] at hstart
  exact hstate.trans hstart

/-- What a call of `Run` does, but for the clock and the two timers. -/
inductive Runs (s s' : SceneRun) : Prop
  | quiet (eq : s' = s)
  | prepareTime (dwLeftTime : Nat) (state : s.eSceneState = .prepare)
      (tells : Tells s s' [.prepareTime dwLeftTime])
  | gameReadyTime (dwLeftTime : Nat) (state : s.eSceneState = .gameReady)
      (tells : Tells s s' [.gameReadyTime dwLeftTime])
  | gameReady (state : s.eSceneState = .prepare)
      (tells : Tells { s with eSceneState := .gameReady } s' [.gameState .gameReady])
  | gaming (state : s.eSceneState = .gameReady)
      (tells : Tells { s with eSceneState := .gaming } s'
        (.gameState .gaming :: (playerIds s.scene.qwRoles).map .gameInitTetris))

/-- The clock and the timers may change. -/
def setTimers (s : SceneRun) (dwSecond : Nat) (prepareNotify readyNotify : Option Nat) :
    SceneRun :=
  { s with dwSecond := dwSecond, prepareNotify := prepareNotify, readyNotify := readyNotify }

/-- It does not matter to the players when the timers are set. -/
theorem setTimers_notifyPlayer (s : SceneRun) (n : SceneNotify) (dwSecond : Nat)
    (prepareNotify readyNotify : Option Nat) :
    (s.notifyPlayer n).setTimers dwSecond prepareNotify readyNotify =
      (s.setTimers dwSecond prepareNotify readyNotify).notifyPlayer n := by
  have hfold : ∀ (sends : List (Nat × SceneMessage)) (s : SceneRun),
      (sends.foldl send s).setTimers dwSecond prepareNotify readyNotify =
        sends.foldl send (s.setTimers dwSecond prepareNotify readyNotify) := by
    intro sends
    induction sends with
    | nil => exact fun _ => rfl
    | cons m sends ih => exact fun s => ih (s.send m)
  exact hfold _ _

theorem notifyPlayer_prepareNotify (s : SceneRun) (n : SceneNotify) (t : Option Nat) :
    { s.notifyPlayer n with prepareNotify := t } =
      { s with prepareNotify := t }.notifyPlayer n := by
  have h := s.setTimers_notifyPlayer n s.dwSecond t s.readyNotify
  rw [(s.notifyPlayer_tells n).rest] at h ⊢
  exact h

theorem notifyPlayer_readyNotify (s : SceneRun) (n : SceneNotify) (t : Option Nat) :
    { s.notifyPlayer n with readyNotify := t } = { s with readyNotify := t }.notifyPlayer n := by
  have h := s.setTimers_notifyPlayer n s.dwSecond s.prepareNotify t
  rw [(s.notifyPlayer_tells n).rest] at h ⊢
  exact h

theorem dwGameStartTime_notifyPlayer (s : SceneRun) (n : SceneNotify) :
    (s.notifyPlayer n).dwGameStartTime = s.dwGameStartTime := by
  rw [(s.notifyPlayer_tells n).rest]

theorem dwPrepareTime_notifyPlayer (s : SceneRun) (n : SceneNotify) :
    (s.notifyPlayer n).dwPrepareTime = s.dwPrepareTime := by
  rw [(s.notifyPlayer_tells n).rest]

theorem run_runs (s : SceneRun) (dwSecond : Nat) : ∃ prepareNotify readyNotify,
    Runs (s.setTimers dwSecond prepareNotify readyNotify) (s.run dwSecond) := by
  simp only [run]
  split
  · rename_i hstate
    simp only [preparing, notifyPlayer_prepareNotify]
    split_ifs
    · exact ⟨_, _, .gameReady hstate (changeState_gameReady _)⟩
    · exact ⟨_, _, .prepareTime _ hstate (notifyPlayer_tells _ _)⟩
    · exact ⟨_, _, .prepareTime _ hstate (notifyPlayer_tells _ _)⟩
    · exact ⟨_, _, .quiet rfl⟩
  · rename_i hstate
    simp only [gameReady, notifyPlayer_readyNotify]
    split_ifs
    · exact ⟨_, _, .gaming hstate (changeState_gaming _)⟩
    · exact ⟨_, _, .gameReadyTime _ hstate (notifyPlayer_tells _ _)⟩
    · exact ⟨_, _, .quiet rfl⟩
  all_goals exact ⟨_, _, .quiet rfl⟩

/-! ### The course of a game -/

/-- All that the players are told until a state is reached: `lefts` and `lefts'` are the times left
in the preparation and before the game. -/
def course (ids : List PlayerId) (lefts lefts' : List Nat) : EGameSceneState → List SceneNotify
  | .prepare => .gameState .prepare :: lefts.map .prepareTime
  | .gameReady => .gameState .prepare :: lefts.map .prepareTime ++
      .gameState .gameReady :: lefts'.map .gameReadyTime
  | .gaming => .gameState .prepare :: lefts.map .prepareTime ++
      .gameState .gameReady :: lefts'.map .gameReadyTime ++
      .gameState .gaming :: ids.map .gameInitTetris
  | .none | .transact => []

/-- The states that a scene is in behind `Init`. -/
def Started (s : SceneRun) : Prop := s.eSceneState ∈ [.prepare, .gameReady, .gaming]

structure OnCourse (qwRoles : List PlayerId) (s : SceneRun) (lefts lefts' : List Nat) : Prop where
  roles : s.scene.qwRoles = qwRoles
  started : s.Started
  notified : s.notified = course (playerIds qwRoles) lefts lefts' s.eSceneState

variable {qwRoles : List PlayerId} {lefts lefts' : List Nat}

theorem onCourse_init (qwRoles : List PlayerId) (dwSecond dwPrepareTime dwGameReadyTime : Nat)
    (takes : Nat → Bool) :
    OnCourse qwRoles (init qwRoles dwSecond dwPrepareTime dwGameReadyTime takes) [] [] := by
  rw [init, changeState, (notifyPlayer_tells _ _).rest]
  exact ⟨rfl, by simp [Started], rfl⟩

theorem OnCourse.keep (h : OnCourse qwRoles s lefts lefts') (hscene : s'.scene.qwRoles =
    s.scene.qwRoles) (hstate : s'.eSceneState = s.eSceneState) (hnotified : s'.notified =
    s.notified) : OnCourse qwRoles s' lefts lefts' := by
  refine ⟨hscene.trans h.roles, ?_, ?_⟩
  · rw [Started, hstate]
    exact h.started
  · rw [hnotified, hstate]
    exact h.notified

theorem OnCourse.prepareTime (h : OnCourse qwRoles s lefts lefts')
    (hstate : s.eSceneState = .prepare) {dwLeftTime : Nat}
    (htells : Tells s s' [.prepareTime dwLeftTime]) :
    OnCourse qwRoles s' (lefts ++ [dwLeftTime]) lefts' := by
  have hnotified := h.notified
  simp only [hstate, course] at hnotified
  rw [htells.rest]
  refine ⟨h.roles, h.started, ?_⟩
  simp only [hstate, hnotified, course]
  simp

theorem OnCourse.gameReadyTime (h : OnCourse qwRoles s lefts lefts')
    (hstate : s.eSceneState = .gameReady) {dwLeftTime : Nat}
    (htells : Tells s s' [.gameReadyTime dwLeftTime]) :
    OnCourse qwRoles s' lefts (lefts' ++ [dwLeftTime]) := by
  have hnotified := h.notified
  simp only [hstate, course] at hnotified
  rw [htells.rest]
  refine ⟨h.roles, h.started, ?_⟩
  simp only [hstate, hnotified, course]
  simp

theorem OnCourse.gameReady (h : OnCourse qwRoles s lefts lefts')
    (hstate : s.eSceneState = .prepare)
    (htells : Tells { s with eSceneState := .gameReady } s' [.gameState .gameReady]) :
    OnCourse qwRoles s' lefts [] := by
  have hnotified := h.notified
  simp only [hstate, course] at hnotified
  rw [htells.rest]
  refine ⟨h.roles, by simp [Started], ?_⟩
  simp [hnotified, course]

theorem OnCourse.gaming (h : OnCourse qwRoles s lefts lefts')
    (hstate : s.eSceneState = .gameReady)
    (htells : Tells { s with eSceneState := .gaming } s'
      (.gameState .gaming :: (playerIds s.scene.qwRoles).map .gameInitTetris)) :
    OnCourse qwRoles s' lefts lefts' := by
  have hnotified := h.notified
  simp only [hstate, course] at hnotified
  rw [htells.rest]
  refine ⟨h.roles, by simp [Started], ?_⟩
  simp [hnotified, course, h.roles]

theorem OnCourse.runs (h : OnCourse qwRoles s lefts lefts') (hruns : Runs s s') :
    ∃ lefts lefts', OnCourse qwRoles s' lefts lefts' := by
  cases hruns with
  | quiet eq => exact ⟨_, _, eq ▸ h⟩
  | prepareTime dwLeftTime state tells => exact ⟨_, _, h.prepareTime state tells⟩
  | gameReadyTime dwLeftTime state tells => exact ⟨_, _, h.gameReadyTime state tells⟩
  | gameReady state tells => exact ⟨_, _, h.gameReady state tells⟩
  | gaming state tells => exact ⟨_, _, h.gaming state tells⟩

end SceneRun

theorem GameScene.step_qwRoles {s s' : GameScene} {l : GameScene.Label}
    (hstep : s.step l = some s') : s'.qwRoles = s.qwRoles := by
  simp only [step] at hstep
  split_ifs at hstep
  cases l with
  | connect =>
    cases hstep
    simp only [createSession]
    split <;> rfl
  | enter session p gaming =>
    simp only at hstep
    split_ifs at hstep
    cases hstep
    simp only [onPlayerRequestGameEnter]
    split
    · rfl
    · split_ifs <;> rfl
  | close session =>
    simp only at hstep
    split_ifs at hstep
    cases hstep
    simp only [onClose]
    split <;> rfl

namespace SceneRun

variable {s s' : SceneRun} {session : Nat} {p q : PlayerId} {qwRoles : List PlayerId}
  {lefts lefts' : List Nat}

/-- What a request to enter leaves as it is. -/
theorem onPlayerRequestGameEnter_rest (s : SceneRun) (session : Nat) (p : PlayerId) :
    s.onPlayerRequestGameEnter session p = { s with
      sends := (s.onPlayerRequestGameEnter session p).sends
      sessions := (s.onPlayerRequestGameEnter session p).sessions } := by
  rw [onPlayerRequestGameEnter]
  split
  · exact (s.sends_send _).rest
  · rw [(sends_foldl _ _).rest]
    rfl

/-- Players that enter and leave change nothing of the course. -/
theorem OnCourse.ofSession (h : OnCourse qwRoles s lefts lefts') {l : Label}
    (hl : ∀ dwSecond, l ≠ .run dwSecond) (hstep : s.step l = some s') :
    OnCourse qwRoles s' lefts lefts' := by
  cases l with
  | run dwSecond => exact absurd rfl (hl dwSecond)
  | connect | close session =>
    obtain ⟨scene, hscene, rfl⟩ := Option.map_eq_some_iff.mp hstep
    exact h.keep (GameScene.step_qwRoles hscene) rfl rfl
  | enter session p =>
    obtain ⟨scene, hscene, rfl⟩ := Option.map_eq_some_iff.mp hstep
    rw [onPlayerRequestGameEnter_rest]
    exact h.keep (GameScene.step_qwRoles hscene) rfl rfl

theorem OnCourse.step (h : OnCourse qwRoles s lefts lefts') {l : Label}
    (hstep : s.step l = some s') : ∃ lefts lefts', OnCourse qwRoles s' lefts lefts' := by
  by_cases hl : ∃ dwSecond, l = .run dwSecond
  · obtain ⟨dwSecond, rfl⟩ := hl
    simp only [SceneRun.step] at hstep
    split_ifs at hstep
    cases hstep
    obtain ⟨a, b, hruns⟩ := s.run_runs dwSecond
    have hkeep : OnCourse qwRoles (s.setTimers dwSecond a b) lefts lefts' := h.keep rfl rfl rfl
    exact hkeep.runs hruns
  · exact ⟨lefts, lefts', h.ofSession (fun dwSecond hc => hl ⟨dwSecond, hc⟩) hstep⟩

theorem mem_playerIds {p : PlayerId} : p ∈ playerIds qwRoles ↔ p ≠ 0 ∧ p ∈ qwRoles := by
  simp [playerIds, and_comm]

/-- The board of every player is made once, when the game begins. -/
theorem OnCourse.inits (h : OnCourse qwRoles s lefts lefts') (p : PlayerId) :
    s.notified.count (.gameInitTetris p) =
      if s.eSceneState = .gaming ∧ p ≠ 0 ∧ p ∈ qwRoles then 1 else 0 := by
  have hlefts : ∀ lefts : List Nat,
      (lefts.map SceneNotify.prepareTime).count (.gameInitTetris p) = 0 ∧
        (lefts.map SceneNotify.gameReadyTime).count (.gameInitTetris p) = 0 := fun lefts => by
    simp [List.count_eq_zero]
  have hids : ((playerIds qwRoles).map SceneNotify.gameInitTetris).count (.gameInitTetris p) =
      if p ≠ 0 ∧ p ∈ qwRoles then 1 else 0 := by
    have hnodup : (playerIds qwRoles).Nodup :=
      (List.perm_insertionSort _ _).nodup_iff.mpr (List.nodup_dedup _)
    rw [List.count_map_of_injective _ _ (fun _ _ hpq => by cases hpq; rfl), hnodup.count]
    simp only [mem_playerIds]
  have hstarted := h.started
  rw [h.notified]
  simp only [Started, List.mem_cons, List.not_mem_nil, or_false] at hstarted
  rcases hstarted with hstate | hstate | hstate
  · simp [hstate, course, hlefts]
  · simp [hstate, course, hlefts]
  · simp [hstate, course, hlefts, hids]

/-! ### What a client knows -/

/-- The state of the scene that a client has been told last. -/
def tellState (known : EGameSceneState) : SceneMessage → EGameSceneState
  | .gameSceneInfo state => state
  | .notify (.gameState state) => state
  | .notify (.prepareTime _) | .notify (.gameReadyTime _) | .notify (.gameInitTetris _)
  | .ackPlayerEnter _ | .gameConfig | .gameTetrisData _ => known

def notification : SceneMessage → Option SceneNotify
  | .notify n => some n
  | .ackPlayerEnter _ | .gameConfig | .gameSceneInfo _ | .gameTetrisData _ => none

/-- Each of the first in turn, once or more often, and nothing else. -/
inductive Repeats : List SceneNotify → List SceneNotify → Prop
  | nil : Repeats [] []
  | cons (n : SceneNotify) (k : Nat) {ns ms : List SceneNotify} (tail : Repeats ns ms) :
      Repeats (n :: ns) (List.replicate (k + 1) n ++ ms)

/-- Whoever has got `messages` behind the information about the scene, when it entered, knows the
state, has been told everything since, and in the game has the board of every player. -/
structure Informed (s : SceneRun) (enteredAt : Nat) (eSceneState : EGameSceneState)
    (messages : List SceneMessage) : Prop where
  state : messages.foldl tellState eSceneState = s.eSceneState
  since : Repeats (s.notified.drop enteredAt) (messages.filterMap notification)
  boards : s.eSceneState = .gaming → ∀ p ∈ playerIds s.scene.qwRoles,
    .notify (.gameInitTetris p) ∈ messages ∨ .gameTetrisData p ∈ messages

def Knows (s : SceneRun) (c : SceneSession) : Prop :=
  c.enteredAt ≤ s.notified.length ∧ ∃ before eSceneState messages,
    c.inbox = before ++ .gameSceneInfo eSceneState :: messages ∧
      s.Informed c.enteredAt eSceneState messages

/-- The player of every session that a player is bound to knows, if its connection has taken
everything since it entered. -/
def AllKnow (s : SceneRun) : Prop :=
  ∀ p session, s.scene.getPlayer p = some (some session) →
    (s.sessions session).missed = false → s.Knows (s.sessions session)

variable {messages : List SceneMessage} {c : SceneSession}

/-- Messages that name no state. -/
theorem foldl_tellState {known : EGameSceneState}
    (h : ∀ m ∈ messages, tellState known m = known) : messages.foldl tellState known = known := by
  induction messages with
  | nil => rfl
  | cons m messages ih =>
    rw [List.foldl_cons, h m List.mem_cons_self]
    exact ih fun m' hm' => h m' (List.mem_cons_of_mem m hm')

theorem mem_copies {k : Nat} {ns : List SceneNotify} {m : SceneMessage} :
    m ∈ copies k ns ↔ k ≠ 0 ∧ ∃ n ∈ ns, m = .notify n := by
  simp only [copies, List.mem_flatMap, List.mem_replicate]
  constructor
  · rintro ⟨n, hn, hk, rfl⟩
    exact ⟨hk, n, hn, rfl⟩
  · rintro ⟨hk, n, hn, rfl⟩
    exact ⟨n, hn, hk, rfl⟩

theorem Repeats.append {ns ms ns' ms' : List SceneNotify} (h : Repeats ns ms)
    (h' : Repeats ns' ms') : Repeats (ns ++ ns') (ms ++ ms') := by
  induction h with
  | nil => exact h'
  | cons n k tail ih =>
    rw [List.cons_append, List.append_assoc]
    exact .cons n k ih

theorem repeats_copies {k : Nat} (hk : 0 < k) (ns : List SceneNotify) :
    Repeats ns ((copies k ns).filterMap notification) := by
  obtain ⟨k, rfl⟩ := Nat.exists_eq_succ_of_ne_zero hk.ne'
  induction ns with
  | nil => exact .nil
  | cons n ns ih =>
    rw [copies, List.flatMap_cons, List.filterMap_append,
      List.filterMap_replicate_of_some (show notification (.notify n) = some n from rfl)]
    exact .cons n k ih

/-- A session that a role is bound to is told at least once. -/
theorem count_pos (hp : s.scene.getPlayer p = some (some session))
    (hrole : p ∈ s.scene.qwRoles) : 0 < s.scene.notifyPlayer.count session := by
  rw [List.count_pos_iff, GameScene.notifyPlayer, List.mem_filterMap]
  exact ⟨p, hrole, by rw [hp]; rfl⟩

/-- What the players are told keeps them informed, whether the state is a new one or not. -/
theorem Knows.tells (eSceneState : EGameSceneState) (h : s.Knows (s.sessions session))
    (htells : Tells { s with eSceneState := eSceneState } s' ns)
    (hk : 0 < s.scene.notifyPlayer.count session)
    (hinbox : (s'.sessions session).inbox = (s.sessions session).inbox ++
      copies (s.scene.notifyPlayer.count session) ns)
    (hstate : (copies (s.scene.notifyPlayer.count session) ns).foldl tellState s.eSceneState =
      eSceneState)
    (hboards : eSceneState = .gaming → s.eSceneState = .gaming ∨
      ∀ p ∈ playerIds s.scene.qwRoles, .gameInitTetris p ∈ ns) :
    s'.Knows (s'.sessions session) := by
  obtain ⟨hle, before, eSceneState', messages, hbefore, hinformed⟩ := h
  have hentered := htells.enteredAt session
  have hnotified : s'.notified = s.notified ++ ns := by
    rw [htells.rest]
  have hstate' : s'.eSceneState = eSceneState := by
    rw [htells.rest]
  have hroles : s'.scene.qwRoles = s.scene.qwRoles := by
    rw [htells.rest]
  rw [Knows, hentered]
  refine ⟨?_, before, eSceneState',
    messages ++ copies (s.scene.notifyPlayer.count session) ns, ?_, ?_, ?_, ?_⟩
  · rw [hnotified, List.length_append]
    exact hle.trans (Nat.le_add_right _ _)
  · rw [hinbox, hbefore]
    simp
  · rw [List.foldl_append, hinformed.state, hstate']
    exact hstate
  · rw [hnotified, List.drop_append_of_le_length hle, List.filterMap_append]
    exact hinformed.since.append (repeats_copies hk ns)
  · intro hgaming p hp
    rw [hroles] at hp
    rcases hboards (hstate'.symm.trans hgaming) with hold | hnew
    · exact (hinformed.boards hold p hp).imp (List.mem_append_left _) (List.mem_append_left _)
    · exact .inl (List.mem_append_right _ (mem_copies.mpr ⟨hk.ne', _, hnew p hp, rfl⟩))

/-- The copies of a new state come first, and nothing behind them names one. -/
theorem foldl_copies_gameState {k : Nat} (hk : 0 < k) (known eSceneState : EGameSceneState)
    (ids : List PlayerId) :
    (copies k (.gameState eSceneState :: ids.map .gameInitTetris)).foldl tellState known =
      eSceneState := by
  obtain ⟨k, rfl⟩ := Nat.exists_eq_succ_of_ne_zero hk.ne'
  rw [copies, List.flatMap_cons, List.replicate_succ, List.cons_append, List.foldl_cons]
  apply foldl_tellState
  intro m hm
  rcases List.mem_append.mp hm with hsame | hboard
  · rw [(List.mem_replicate.mp hsame).2]
    rfl
  · obtain ⟨-, n, hn, rfl⟩ := mem_copies.mp hboard
    obtain ⟨p, -, rfl⟩ := List.mem_map.mp hn
    rfl

theorem AllKnow.runs (h : s.AllKnow) (hscene : s.scene.Kept) (hruns : Runs s s') :
    s'.AllKnow := by
  have hk : ∀ {p session}, s.scene.getPlayer p = some (some session) →
      0 < s.scene.notifyPlayer.count session := fun {p session} hp =>
    count_pos hp ((hscene.players p).mp (by rw [hp]; rfl)).2
  have hquiet : ∀ {n : SceneNotify}, (∀ known, tellState known (.notify n) = known) →
      Tells s s' [n] → s'.AllKnow := by
    intro n hn htells p session hp hmissed
    rw [htells.rest] at hp
    obtain ⟨hmissed', hinbox⟩ := htells.inbox session hmissed
    refine (h p session hp hmissed').tells s.eSceneState htells (hk hp) hinbox ?_
      (fun hgaming => .inl hgaming)
    apply foldl_tellState
    intro m hm
    obtain ⟨-, n', hn', rfl⟩ := mem_copies.mp hm
    rw [List.mem_singleton.mp hn']
    exact hn _
  cases hruns with
  | quiet eq => exact eq ▸ h
  | prepareTime dwLeftTime state tells => exact hquiet (fun _ => rfl) tells
  | gameReadyTime dwLeftTime state tells => exact hquiet (fun _ => rfl) tells
  | gameReady state tells =>
    intro p session hp hmissed
    rw [tells.rest] at hp
    obtain ⟨hmissed', hinbox⟩ := tells.inbox session hmissed
    exact (h p session hp hmissed').tells _ tells (hk hp) hinbox
      (foldl_copies_gameState (hk hp) _ _ []) nofun
  | gaming state tells =>
    intro p session hp hmissed
    rw [tells.rest] at hp
    obtain ⟨hmissed', hinbox⟩ := tells.inbox session hmissed
    refine (h p session hp hmissed').tells _ tells (hk hp) hinbox
      (foldl_copies_gameState (hk hp) _ _ _) fun _ => .inr fun q hq => ?_
    exact List.mem_cons_of_mem _ (List.mem_map_of_mem hq)

/-- A session closes only as the one session of its player. -/
def Own (s : SceneRun) : Label → Prop
  | .close session => s.scene.Own (.close session)
  | .run _ | .connect | .enter .. => True

instance (s : SceneRun) : (l : Label) → Decidable (s.Own l)
  | .close session =>
    -- over the roles of the scene, not over all ids
    have : Decidable (∀ q ∈ s.scene.qwRoles, s.scene.getPlayer q = some (some session) →
        q = s.scene.qwPlayerId session) := List.decidableBAll _ _
    inferInstanceAs (Decidable (_ → _ ∧ _))
  | .run _ => inferInstanceAs (Decidable True)
  | .connect => inferInstanceAs (Decidable True)
  | .enter .. => inferInstanceAs (Decidable True)

theorem Knows.keep (h : s.Knows c) (hroles : s'.scene.qwRoles = s.scene.qwRoles)
    (hstate : s'.eSceneState = s.eSceneState) (hnotified : s'.notified = s.notified) :
    s'.Knows c := by
  obtain ⟨hle, before, eSceneState, messages, hinbox, hinformed⟩ := h
  rw [Knows, hnotified]
  refine ⟨hle, before, eSceneState, messages, hinbox, ?_, ?_, ?_⟩
  · rw [hstate]
    exact hinformed.state
  · rw [hnotified]
    exact hinformed.since
  · rw [hstate, hroles]
    exact hinformed.boards

/-- More that tells nothing of the scene. -/
theorem Knows.append (h : s.Knows c) {c' : SceneSession} {m : SceneMessage}
    (hentered : c'.enteredAt = c.enteredAt) (hinbox : c'.inbox = c.inbox ++ [m])
    (hm : ∀ known, tellState known m = known) (hnone : notification m = none) : s.Knows c' := by
  obtain ⟨hle, before, eSceneState, messages, hbefore, hinformed⟩ := h
  rw [Knows, hentered]
  refine ⟨hle, before, eSceneState, messages ++ [m], ?_, ?_, ?_, ?_⟩
  · rw [hinbox, hbefore]
    simp
  · rw [List.foldl_append, hinformed.state]
    exact hm _
  · rw [List.filterMap_append, List.filterMap_cons, hnone]
    simpa using hinformed.since
  · intro hgaming p hp
    exact (hinformed.boards hgaming p hp).imp (List.mem_append_left _) (List.mem_append_left _)

theorem mem_boards {m : SceneMessage} (hm : m ∈ s.boards) : ∃ p, m = .gameTetrisData p := by
  rw [boards] at hm
  split_ifs at hm
  · obtain ⟨p, -, rfl⟩ := List.mem_map.mp hm
    exact ⟨p, rfl⟩
  · cases hm

/-- Whoever enters is told where the scene is. -/
theorem knows_entered (s : SceneRun) (hentered : c.enteredAt = s.notified.length)
    (hinbox : c.inbox = messages ++
      ([.ackPlayerEnter .none, .gameConfig, .gameSceneInfo s.eSceneState] ++ s.boards)) :
    s.Knows c := by
  rw [Knows, hentered]
  refine ⟨le_rfl, messages ++ [.ackPlayerEnter .none, .gameConfig], s.eSceneState, s.boards,
    by simp [hinbox], ?_, ?_, ?_⟩
  · apply foldl_tellState
    intro m hm
    obtain ⟨p, rfl⟩ := mem_boards hm
    rfl
  · have hnone : s.boards.filterMap notification = [] := by
      rw [List.filterMap_eq_nil_iff]
      intro m hm
      obtain ⟨p, rfl⟩ := mem_boards hm
      rfl
    rw [List.drop_length, hnone]
    exact .nil
  · intro hgaming p hp
    rw [boards, if_pos hgaming]
    obtain ⟨hzero, hrole⟩ := mem_playerIds.mp hp
    exact .inr (List.mem_map_of_mem (List.mem_filter.mpr ⟨hrole, by simpa using hzero⟩))

theorem AllKnow.connect (h : s.AllKnow) (hscene : s.scene.Kept)
    (hstep : s.step .connect = some s') : s'.AllKnow := by
  obtain ⟨scene, hcreate, rfl⟩ := Option.map_eq_some_iff.mp hstep
  intro p session hp hmissed
  have hold : s.scene.getPlayer p = some (some session) := by
    simp only [GameScene.step, hscene.alive, Bool.false_eq_true, if_false] at hcreate
    cases hcreate
    simp only [GameScene.createSession] at hp
    split at hp
    · exact hp
    · exact hp
  -- the session of a player is in use, so its messages stay
  have hopen := (hscene.bound p session hold).2
  simp only [hopen, if_true] at hmissed ⊢
  exact (h p session hold hmissed).keep (GameScene.step_qwRoles hcreate) rfl rfl

theorem AllKnow.close (h : s.AllKnow) (hscene : s.scene.Kept) {session : Nat}
    (hown : s.scene.Own (.close session)) (hstep : s.step (.close session) = some s') :
    s'.AllKnow := by
  obtain ⟨scene, hclose, rfl⟩ := Option.map_eq_some_iff.mp hstep
  intro p c hp hmissed
  have hroles := GameScene.step_qwRoles hclose
  simp only [GameScene.step, hscene.alive, Bool.false_eq_true, if_false] at hclose
  split_ifs at hclose with hopen
  cases hclose
  obtain ⟨⟨bound, hplayer, -⟩, -⟩ := hown hopen
  rw [GameScene.getPlayer_onClose hplayer] at hp
  split_ifs at hp
  · cases hp
  · exact (h p c hp hmissed).keep hroles rfl rfl

theorem sentTo_self (session : Nat) (messages : List SceneMessage) :
    sentTo session (messages.map (session, ·)) = messages := by
  simp [sentTo, List.filter_map, Function.comp_def]

theorem sentTo_of_ne {session c : Nat} (hc : c ≠ session) (messages : List SceneMessage) :
    sentTo c (messages.map (session, ·)) = [] := by
  simp [sentTo, List.filter_map, Function.comp_def, Ne.symm hc]

/-- A request to enter as nobody of the scene is answered. -/
theorem knows_refused {session c : Nat} (hplayer : s.scene.getPlayer p = none)
    (hmissed : ((s.onPlayerRequestGameEnter session p).sessions c).missed = false)
    (h : (s.sessions c).missed = false → s.Knows (s.sessions c)) :
    s.Knows ((s.onPlayerRequestGameEnter session p).sessions c) := by
  have hsends := s.sends_send (session, .ackPlayerEnter .cannotFindPlayer)
  simp only [onPlayerRequestGameEnter, hplayer] at hmissed ⊢
  obtain ⟨hmissed', hinbox⟩ := hsends.inbox c hmissed
  have hentered := hsends.enteredAt c
  by_cases hc : c = session
  · subst hc
    have hone := sentTo_self c [.ackPlayerEnter .cannotFindPlayer]
    rw [List.map_singleton] at hone
    rw [hone] at hinbox
    exact (h hmissed').append hentered hinbox (fun _ => rfl) rfl
  · have hsame : (s.send (session, .ackPlayerEnter .cannotFindPlayer)).sessions c =
        s.sessions c := Function.update_of_ne hc _ _
    rw [hsame]
    exact h hmissed'

theorem sessions_setSession_self (s : SceneRun) (session : Nat) (c : SceneSession) :
    (s.setSession session c).sessions session = c := Function.update_self ..

theorem sessions_setSession_of_ne {session session' : Nat} (h : session' ≠ session)
    (s : SceneRun) (c : SceneSession) :
    (s.setSession session c).sessions session' = s.sessions session' := Function.update_of_ne h ..

/-- The session that enters is told everything, and no other is. -/
theorem knows_enter {session c : Nat} {old : Option Nat}
    (hplayer : s.scene.getPlayer p = some old)
    (hmissed : ((s.onPlayerRequestGameEnter session p).sessions c).missed = false)
    (h : c ≠ session → (s.sessions c).missed = false → s.Knows (s.sessions c)) :
    s.Knows ((s.onPlayerRequestGameEnter session p).sessions c) := by
  simp only [onPlayerRequestGameEnter, hplayer] at hmissed ⊢
  have hsends := sends_foldl (s.setSession session
    { s.sessions session with enteredAt := s.notified.length, missed := false })
    ((([.ackPlayerEnter .none, .gameConfig, .gameSceneInfo s.eSceneState] ++ s.boards :
      List SceneMessage)).map (session, ·))
  obtain ⟨hmissed', hinbox⟩ := hsends.inbox c hmissed
  have hentered := hsends.enteredAt c
  by_cases hc : c = session
  · subst hc
    rw [sentTo_self] at hinbox
    rw [sessions_setSession_self] at hinbox hentered
    exact s.knows_entered hentered hinbox
  · rw [sentTo_of_ne hc, List.append_nil] at hinbox
    rw [sessions_setSession_of_ne hc] at hinbox hentered hmissed'
    obtain ⟨hle, hknows⟩ := h hc hmissed'
    rw [Knows, hentered, hinbox]
    exact ⟨hle, hknows⟩

theorem AllKnow.enter (h : s.AllKnow) (hscene : s.scene.Kept) {session : Nat} {p : PlayerId}
    (hstep : s.step (.enter session p) = some s') : s'.AllKnow := by
  obtain ⟨scene, hscene', rfl⟩ := Option.map_eq_some_iff.mp hstep
  have hroles := GameScene.step_qwRoles hscene'
  have hrest := s.onPlayerRequestGameEnter_rest session p
  simp only [GameScene.step, hscene.alive, Bool.false_eq_true, if_false] at hscene'
  split_ifs at hscene'
  cases hscene'
  intro q c hq hmissed
  have hknows : s.Knows ((s.onPlayerRequestGameEnter session p).sessions c) := by
    cases hplayer : s.scene.getPlayer p with
    | none =>
      simp only [GameScene.onPlayerRequestGameEnter, hplayer] at hq
      exact knows_refused hplayer hmissed (h q c hq)
    | some old =>
      have hget : (s.scene.onPlayerRequestGameEnter session p
          (s.eSceneState = .gaming)).getPlayer q =
            if q = p then some (some session) else s.scene.getPlayer q := by
        simp only [GameScene.onPlayerRequestGameEnter, hplayer]
        split <;> exact GameScene.getPlayer_setPlayerSession ..
      rw [hget] at hq
      refine knows_enter hplayer hmissed fun hc hmissed' => ?_
      split_ifs at hq
      · cases hq
        exact absurd rfl hc
      · exact h q c hq hmissed'
  refine hknows.keep hroles ?_ ?_
  · rw [hrest]
  · rw [hrest]

/-- The players and sessions of the scene take the steps of a scene without phases. -/
theorem kept_step (hscene : s.scene.Kept) {l : Label} (hown : s.Own l)
    (hstep : s.step l = some s') : s'.scene.Kept := by
  cases l with
  | run dwSecond =>
    simp only [SceneRun.step] at hstep
    split_ifs at hstep
    cases hstep
    obtain ⟨a, b, hruns⟩ := s.run_runs dwSecond
    generalize s.run dwSecond = s' at hruns
    cases hruns with
    | quiet eq => exact eq ▸ hscene
    | prepareTime dwLeftTime state tells => rwa [tells.rest]
    | gameReadyTime dwLeftTime state tells => rwa [tells.rest]
    | gameReady state tells => rwa [tells.rest]
    | gaming state tells => rwa [tells.rest]
  | connect =>
    obtain ⟨scene, hscene', rfl⟩ := Option.map_eq_some_iff.mp hstep
    exact hscene.step (l := .connect) trivial hscene'
  | enter session p =>
    obtain ⟨scene, hscene', rfl⟩ := Option.map_eq_some_iff.mp hstep
    exact hscene.step (l := .enter ..) trivial hscene'
  | close session =>
    obtain ⟨scene, hscene', rfl⟩ := Option.map_eq_some_iff.mp hstep
    exact hscene.step (l := .close session) hown hscene'

theorem AllKnow.step (h : s.AllKnow) (hscene : s.scene.Kept) {l : Label} (hown : s.Own l)
    (hstep : s.step l = some s') : s'.AllKnow := by
  cases l with
  | run dwSecond =>
    simp only [SceneRun.step] at hstep
    split_ifs at hstep
    cases hstep
    obtain ⟨a, b, hruns⟩ := s.run_runs dwSecond
    have hkeep : (s.setTimers dwSecond a b).AllKnow :=
      fun p session hp hmissed => (h p session hp hmissed).keep rfl rfl rfl
    exact hkeep.runs hscene hruns
  | connect => exact h.connect hscene hstep
  | enter session p => exact h.enter hscene hstep
  | close session => exact h.close hscene hown hstep

theorem kept_init (qwRoles : List PlayerId) (dwSecond dwPrepareTime dwGameReadyTime : Nat)
    (takes : Nat → Bool) :
    (init qwRoles dwSecond dwPrepareTime dwGameReadyTime takes).scene.Kept ∧
      (init qwRoles dwSecond dwPrepareTime dwGameReadyTime takes).AllKnow := by
  rw [init, changeState, (notifyPlayer_tells _ _).rest]
  refine ⟨GameScene.kept_init qwRoles, fun p session hp => ?_⟩
  simp only [GameScene.init, GameScene.getPlayer] at hp
  split_ifs at hp
  cases hp

/-- What the players of a scene rely on. -/
structure Played (qwRoles : List PlayerId) (s : SceneRun) : Prop where
  alive : s.scene.crashed = false
  /-- The preparation, the countdown and the game come once each, in this order. -/
  course : s.Started ∧
    ∃ lefts lefts', s.notified = course (playerIds qwRoles) lefts lefts' s.eSceneState
  inits : ∀ p, s.notified.count (.gameInitTetris p) =
    if s.eSceneState = .gaming ∧ p ≠ 0 ∧ p ∈ qwRoles then 1 else 0
  knows : s.AllKnow

section Runs

variable {dwSecond dwPrepareTime dwGameReadyTime : Nat} {takes : Nat → Bool} {ls : List Label}

/-- The invariants that a run keeps whatever the clock reads. -/
theorem all_know (hown : Transition.Always step Own
      (init qwRoles dwSecond dwPrepareTime dwGameReadyTime takes) ls)
    (hrun : Transition.run step (init qwRoles dwSecond dwPrepareTime dwGameReadyTime takes) ls =
      some s) : s.scene.Kept ∧ s.AllKnow := by
  have hstep : ∀ s l s', s.scene.Kept ∧ s.AllKnow → s.Own l → step s l = some s' →
      s'.scene.Kept ∧ s'.AllKnow := by
    rintro s l s' ⟨hkept, hall⟩ hl hs
    exact ⟨kept_step hkept hl hs, hall.step hkept hl hs⟩
  exact Transition.invariant_of_always hstep
    (kept_init qwRoles dwSecond dwPrepareTime dwGameReadyTime takes) hown hrun

/-- Whatever the clock reads, whoever comes and goes and whatever `Send` answers, as long as a
session closes only as the one session of its player. -/
theorem players_follow (hown : Transition.Always step Own
      (init qwRoles dwSecond dwPrepareTime dwGameReadyTime takes) ls)
    (hrun : Transition.run step (init qwRoles dwSecond dwPrepareTime dwGameReadyTime takes) ls =
      some s) : Played qwRoles s := by
  have hstep : ∀ s l s', (∃ lefts lefts', OnCourse qwRoles s lefts lefts') →
      step s l = some s' → ∃ lefts lefts', OnCourse qwRoles s' lefts lefts' := by
    rintro s l s' ⟨lefts, lefts', h⟩ hs
    exact h.step hs
  obtain ⟨lefts, lefts', h⟩ := Transition.invariant hstep
    ⟨[], [], onCourse_init qwRoles dwSecond dwPrepareTime dwGameReadyTime takes⟩ hrun
  obtain ⟨hkept, hall⟩ := all_know hown hrun
  exact ⟨hkept.alive, ⟨h.started, lefts, lefts', h.notified⟩, h.inits, hall⟩

end Runs

/-- Seven comes while the game is prepared and goes again, nine comes when it has begun. -/
def comeAndGo : List Label :=
  [.run 100, .connect, .enter 0 7, .run 105, .run 106, .run 107, .run 108, .run 108, .close 0,
    .run 110, .run 111, .run 112, .connect, .enter 0 9, .run 113]

/-- The ring of the first session has no room for its first message. -/
theorem players_follow_two :
    ∃ s, Transition.run step (init [7, 0, 9] 100 7 3 (· ≠ 0)) comeAndGo = some s ∧
      s.eSceneState = .gaming ∧ Played [7, 0, 9] s := by
  have hgaming : (Transition.run step (init [7, 0, 9] 100 7 3 (· ≠ 0)) comeAndGo).map
      eSceneState = some .gaming := by decide +kernel
  obtain ⟨s, hrun, hstate⟩ := Option.map_eq_some_iff.mp hgaming
  exact ⟨s, hrun, hstate, players_follow (by decide +kernel) hrun⟩

end SceneRun

end WebGame
