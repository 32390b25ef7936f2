import Mathlib.Logic.Function.Basic
import Mathlib.Tactic.SplitIfs

/-!
# Players of a login server

`Player` and `PlayerManager` of the login server, and the messages between login and team servers.
Sessions are numbered by the objects of the pool. What a player carries for other clients to see
(name, avatar, sex, balance) and its token are left out.
-/

namespace WebGame

abbrev PlayerId := UInt64
abbrev ServerId := UInt32

/-- Team ids come from `incr` in redis, which fails before it would overflow. -/
abbrev TeamId := Nat

inductive EErrorCode where
  | none
  | alreadyInTeam
  | makeTeamNotIdle
  | cannotFindPlayer
  | noGameManagerServer
  | noTeamServer
  | noLoginServer
  | playerNotOnline
  | failIntoTeam
  | noTeamId
  | notLeader
  | teamHasStart
  | teamSlotHasPlayer
  deriving DecidableEq

inductive LoginRequestTeam where
  | makeTeam (qwPlayerId : PlayerId) (qwTeamId : TeamId)
  | kickPlayer (qwPlayerId : PlayerId) (qwTeamId : TeamId)
  | gameStart (qwPlayerId : PlayerId) (qwTeamId : TeamId)
  | enterTeam (qwPlayerId : PlayerId) (qwTeamId : TeamId)
  | playerLeave (qwPlayerId : PlayerId) (qwTeamId : TeamId)
  deriving DecidableEq

/-- The answers to them, and `TeamNotifyLoginTeamInfo`. -/
inductive TeamAckLogin where
  | makeTeam (dwResult : EErrorCode) (qwPlayerId : PlayerId) (qwTeamId : TeamId)
  | kickPlayer (dwResult : EErrorCode) (qwPlayerId : PlayerId)
  | gameStart (dwResult : EErrorCode) (qwPlayerId : PlayerId) (qwTeamId : TeamId)
  | enterTeam (dwResult : EErrorCode) (qwPlayerId : PlayerId) (qwTeamId : TeamId)
  | playerLeave (dwResult : EErrorCode) (qwPlayerId : PlayerId)
  | teamInfo (qwPlayerId : PlayerId) (qwTeamId : TeamId)
  deriving DecidableEq

/-- The player that a request is about, if it asks for a change of its membership. -/
def LoginRequestTeam.about : LoginRequestTeam → Option PlayerId
  | .makeTeam qwPlayerId _ => some qwPlayerId
  | .kickPlayer qwPlayerId _ => some qwPlayerId
  | .enterTeam qwPlayerId _ => some qwPlayerId
  | .playerLeave qwPlayerId _ => some qwPlayerId
  | .gameStart .. => none

/-- The player that an answer is about, if the answer changes it. -/
def TeamAckLogin.about : TeamAckLogin → Option PlayerId
  | .makeTeam _ qwPlayerId _ => some qwPlayerId
  | .kickPlayer _ qwPlayerId => some qwPlayerId
  | .enterTeam _ qwPlayerId _ => some qwPlayerId
  | .playerLeave _ qwPlayerId => some qwPlayerId
  | .gameStart .. => none
  | .teamInfo .. => none

inductive EPlayrState where
  | none
  | idle
  | login
  | makeTeam
  | teamCompleted
  | gamePrepare
  | gameCountingSeconds
  | gamIng
  deriving DecidableEq

structure Player where
  pSession : Option Nat
  qwPyayerId : PlayerId
  eState : EPlayrState
  qwTeamId : TeamId
  dwTeamServerId : ServerId
  deriving DecidableEq

namespace Player

def new : Player := ⟨none, 0, .idle, 0, 0⟩

def setState (p : Player) (eState : EPlayrState) : Player := { p with eState := eState }

def setTeamInfo (p : Player) (qwTeamId : TeamId) (dwTeamServerId : ServerId) : Player :=
  { p with qwTeamId := qwTeamId, dwTeamServerId := dwTeamServerId }

def onPlayerRequestLogin (p : Player) (pSession : Nat) (qwPlayerId : PlayerId) : Player :=
  { p with pSession := some pSession, qwPyayerId := qwPlayerId }

/-- `OnPlayerRequestLoginMakeTeam`, with the id that the query to redis leaves and whether there is
a session for a team server. -/
def onPlayerRequestLoginMakeTeam (p : Player) (qwTeamId : TeamId) (teamSession : Bool) :
    Option (Player × LoginRequestTeam) :=
  if p.qwTeamId ≠ 0 then none
  else if p.eState ≠ .idle then none
  else if teamSession = false then none
  else some (p.setState .makeTeam, .makeTeam p.qwPyayerId qwTeamId)

/-- `OnPlayerRequestLoginInviteTeam`: whether another login server is asked. `found` says that the
invitee is on this one; everything else goes to clients. -/
def onPlayerRequestLoginInviteTeam (p : Player) (qwPlayerId : PlayerId) (found : Bool) : Bool :=
  if qwPlayerId = p.qwPyayerId then false
  else if p.qwTeamId = 0 then false
  else !found

/-- The request of `OnClose` to the team server, when its session is there. -/
def kickRequest (p : Player) (teamSession : ServerId → Bool) :
    Option (ServerId × LoginRequestTeam) :=
  if p.qwTeamId ≠ 0 ∧ teamSession p.dwTeamServerId = true then
    some (p.dwTeamServerId, .kickPlayer p.qwPyayerId p.qwTeamId)
  else none

/-- The rest of `OnClose`: the set of the players online in redis, as `RedisSetPlayerOffLine`
leaves it. -/
def setOffLine (p : Player) (serverId : ServerId) (online : PlayerId → Option ServerId) :
    PlayerId → Option ServerId :=
  if (online p.qwPyayerId).getD 0 = serverId then Function.update online p.qwPyayerId none
  else online

end Player

abbrev PlayerManager := PlayerId → Option Player

namespace PlayerManager

def getPlayer (m : PlayerManager) (qwPlayerId : PlayerId) : Option Player := m qwPlayerId

/-- The session that is kicked comes with the new map. -/
def onPlayerLogin (m : PlayerManager) (pSession : Nat) (qwPlayerId : PlayerId) :
    Option Nat × PlayerManager :=
  match m.getPlayer qwPlayerId with
  | some player => (player.pSession,
      Function.update m qwPlayerId (some (player.onPlayerRequestLogin pSession qwPlayerId)))
  | none => (none,
      Function.update m qwPlayerId (some (Player.new.onPlayerRequestLogin pSession qwPlayerId)))

def onSessionClose (m : PlayerManager) (qwPlayerId : PlayerId) : PlayerManager :=
  Function.update m qwPlayerId none

/-- What the handlers of `CTeamSession` do with the player of an answer, if it is there. -/
def modify (m : PlayerManager) (qwPlayerId : PlayerId) (f : Player → Player) : PlayerManager :=
  match m.getPlayer qwPlayerId with
  | none => m
  | some player => Function.update m qwPlayerId (some (f player))

def onTeamAckLoginMakeTeam (m : PlayerManager) (dwServerId : ServerId) (dwResult : EErrorCode)
    (qwPlayerId : PlayerId) (qwTeamId : TeamId) : PlayerManager :=
  m.modify qwPlayerId fun player =>
    if dwResult = .none then (player.setTeamInfo qwTeamId dwServerId).setState .teamCompleted
    else (player.setTeamInfo 0 0).setState .idle

def onTeamAckLoginKickPlayer (m : PlayerManager) (dwResult : EErrorCode)
    (qwPlayerId : PlayerId) : PlayerManager :=
  if dwResult ≠ .none then m else m.modify qwPlayerId (·.setTeamInfo 0 0)

/-- The result is not looked at. -/
def onTeamAckLoginEnterTeam (m : PlayerManager) (dwServerId : ServerId)
    (qwPlayerId : PlayerId) (qwTeamId : TeamId) : PlayerManager :=
  m.modify qwPlayerId fun player =>
    (player.setState .teamCompleted).setTeamInfo qwTeamId dwServerId

def onTeamAckLoginPlayerLeave (m : PlayerManager) (qwPlayerId : PlayerId) : PlayerManager :=
  m.modify qwPlayerId fun player => (player.setState .idle).setTeamInfo 0 0

/-- An answer from the team server `dwServerId`. -/
def onAnswer (m : PlayerManager) (dwServerId : ServerId) : TeamAckLogin → PlayerManager
  | .makeTeam dwResult qwPlayerId qwTeamId =>
    m.onTeamAckLoginMakeTeam dwServerId dwResult qwPlayerId qwTeamId
  | .kickPlayer dwResult qwPlayerId => m.onTeamAckLoginKickPlayer dwResult qwPlayerId
  | .enterTeam _ qwPlayerId qwTeamId =>
    m.onTeamAckLoginEnterTeam dwServerId qwPlayerId qwTeamId
  | .playerLeave _ qwPlayerId => m.onTeamAckLoginPlayerLeave qwPlayerId
  | .gameStart .. => m
  | .teamInfo .. => m

variable (m : PlayerManager) (pSession : Nat) (qwPlayerId : PlayerId)

/-- A player that stays keeps its team. -/
theorem onPlayerLogin_self : (m.onPlayerLogin pSession qwPlayerId).2.getPlayer qwPlayerId =
    some (((m.getPlayer qwPlayerId).getD Player.new).onPlayerRequestLogin pSession qwPlayerId) := by
  rw [onPlayerLogin]
  cases h : m.getPlayer qwPlayerId with
  | none => simp [getPlayer]
  | some player => simp [getPlayer]

theorem onPlayerLogin_of_ne {id : PlayerId} (h : id ≠ qwPlayerId) :
    (m.onPlayerLogin pSession qwPlayerId).2.getPlayer id = m.getPlayer id := by
  rw [onPlayerLogin]
  cases m.getPlayer qwPlayerId with
  | none => simp [getPlayer, h]
  | some player => simp [getPlayer, h]

theorem onPlayerLogin_kicks : (m.onPlayerLogin pSession qwPlayerId).1 =
    (m.getPlayer qwPlayerId).bind Player.pSession := by
  cases h : m.getPlayer qwPlayerId with
  | none => simp [onPlayerLogin, h]
  | some player => simp [onPlayerLogin, h]

@[simp] theorem onSessionClose_self :
    (m.onSessionClose qwPlayerId).getPlayer qwPlayerId = none := by
  simp [onSessionClose, getPlayer]

theorem onSessionClose_of_ne {id : PlayerId} (h : id ≠ qwPlayerId) :
    (m.onSessionClose qwPlayerId).getPlayer id = m.getPlayer id := by
  simp [onSessionClose, getPlayer, h]

theorem getPlayer_modify (f : Player → Player) : (m.modify qwPlayerId f).getPlayer qwPlayerId =
    (m.getPlayer qwPlayerId).map f := by
  rw [modify]
  cases h : m.getPlayer qwPlayerId with
  | none => exact h
  | some player => simp [getPlayer]

theorem getPlayer_modify_of_ne {id : PlayerId} (h : id ≠ qwPlayerId) (f : Player → Player) :
    (m.modify qwPlayerId f).getPlayer id = m.getPlayer id := by
  rw [modify]
  cases m.getPlayer qwPlayerId with
  | none => rfl
  | some player => simp [getPlayer, h]

/-- An answer touches nobody but the player that it is about. -/
theorem getPlayer_onAnswer_of_ne {id : PlayerId} {dwServerId : ServerId} {a : TeamAckLogin}
    (h : a.about ≠ some id) : (m.onAnswer dwServerId a).getPlayer id = m.getPlayer id := by
  cases a with
  | makeTeam r q t =>
    exact m.getPlayer_modify_of_ne q (fun hq => h (by simp [TeamAckLogin.about, hq])) _
  | enterTeam r q t =>
    exact m.getPlayer_modify_of_ne q (fun hq => h (by simp [TeamAckLogin.about, hq])) _
  | playerLeave r q =>
    exact m.getPlayer_modify_of_ne q (fun hq => h (by simp [TeamAckLogin.about, hq])) _
  | kickPlayer r q =>
    simp only [onAnswer, onTeamAckLoginKickPlayer]
    split_ifs
    · rfl
    · exact m.getPlayer_modify_of_ne q (fun hq => h (by simp [TeamAckLogin.about, hq])) _
  | gameStart | teamInfo => rfl

end PlayerManager

end WebGame
