import Mathlib.Data.List.Basic
import FxLib.WebGame.Player

/-!
# Teams

`CTeam`, `CTeamManager` and the handlers of a team server for the requests of the login servers and
for the answers of the game managers. The change of a slot is in `FxLib.WebGame.TeamSlots`.
-/

namespace WebGame

def maxClientNum : Nat := 8

inductive ETeamState where
  | none
  | idle
  | startGame
  deriving DecidableEq

structure TeamRoleData where
  qwPlayerId : PlayerId
  dwSlotId : Nat
  dwServerId : ServerId
  deriving DecidableEq

/-- The players of the map stand in the order in which they have come; it only decides in which
order notices go out. -/
structure CTeam where
  mapPlayers : List TeamRoleData
  pPlayerSlots : List PlayerId
  qwLeader : PlayerId
  eState : ETeamState
  qwTeamId : TeamId
  deriving DecidableEq

namespace CTeam

def new (qwTeamId : TeamId) : CTeam :=
  ⟨[], List.replicate maxClientNum 0, 0, .idle, qwTeamId⟩

def getTeamRoleData (t : CTeam) (qwPlayerId : PlayerId) : Option TeamRoleData :=
  t.mapPlayers.find? (·.qwPlayerId = qwPlayerId)

/-- The first slot that is 0. -/
def freeSlot (t : CTeam) : Nat := t.pPlayerSlots.findIdx (· = 0)

def insertIntoTeam (t : CTeam) (qwPlayerId : PlayerId) : Bool × CTeam :=
  if t.mapPlayers.length ≥ maxClientNum then (false, t)
  else if (t.getTeamRoleData qwPlayerId).isSome then (false, t)
  else if t.freeSlot < t.pPlayerSlots.length then
    (true, { t with
      pPlayerSlots := t.pPlayerSlots.set t.freeSlot qwPlayerId
      mapPlayers := t.mapPlayers ++ [⟨qwPlayerId, t.freeSlot, 0⟩]
      qwLeader := if t.qwLeader = 0 then qwPlayerId else t.qwLeader })
  else (false, t)

def kickPlayer (t : CTeam) (qwPlayerId : PlayerId) : Bool × CTeam :=
  match t.getTeamRoleData qwPlayerId with
  | none => (false, t)
  | some role =>
    let slots := t.pPlayerSlots.set role.dwSlotId 0
    (true, { t with
      pPlayerSlots := slots
      mapPlayers := t.mapPlayers.filter (·.qwPlayerId ≠ qwPlayerId)
      qwLeader := (slots.find? (· ≠ 0)).getD t.qwLeader })

/-- `set_dw_server_id` on the data of a player. -/
def setServerId (t : CTeam) (qwPlayerId : PlayerId) (dwServerId : ServerId) : CTeam :=
  { t with mapPlayers := t.mapPlayers.map fun role =>
      if role.qwPlayerId = qwPlayerId then { role with dwServerId := dwServerId } else role }

def setState (t : CTeam) (eState : ETeamState) : CTeam := { t with eState := eState }

/-- A message for each player whose login server is there. -/
def notify (t : CTeam) (loginSession : ServerId → Bool) (msg : PlayerId → TeamAckLogin) :
    List (ServerId × TeamAckLogin) :=
  (t.mapPlayers.filter (loginSession ·.dwServerId)).map fun role =>
    (role.dwServerId, msg role.qwPlayerId)

def notifyPlayer (t : CTeam) (loginSession : ServerId → Bool) :
    List (ServerId × TeamAckLogin) :=
  t.notify loginSession (.teamInfo · t.qwTeamId)

def Has (t : CTeam) (qwPlayerId : PlayerId) : Prop :=
  ∃ role ∈ t.mapPlayers, role.qwPlayerId = qwPlayerId

variable {t : CTeam} {p q : PlayerId}

theorem has_iff_getTeamRoleData : t.Has p ↔ (t.getTeamRoleData p).isSome := by
  simp [Has, getTeamRoleData]

theorem not_has_new (qwTeamId : TeamId) (p : PlayerId) : ¬ (new qwTeamId).Has p := by
  simp [Has, new]

@[simp] theorem has_setState (eState : ETeamState) : (t.setState eState).Has q ↔ t.Has q :=
  Iff.rfl

@[simp] theorem has_setServerId (dwServerId : ServerId) :
    (t.setServerId p dwServerId).Has q ↔ t.Has q := by
  constructor
  · rintro ⟨role, hrole, rfl⟩
    obtain ⟨before, hbefore, rfl⟩ := List.mem_map.mp hrole
    refine ⟨before, hbefore, ?_⟩
    split_ifs
    · rfl
    · rfl
  · rintro ⟨role, hrole, rfl⟩
    refine ⟨_, List.mem_map.mpr ⟨role, hrole, rfl⟩, ?_⟩
    split_ifs
    · rfl
    · rfl

/-- Who is let in is in, next to those who were. -/
theorem has_insertIntoTeam (h : (t.insertIntoTeam p).1 = true) :
    (t.insertIntoTeam p).2.Has q ↔ t.Has q ∨ q = p := by
  have hplayers : (t.insertIntoTeam p).2.mapPlayers = t.mapPlayers ++ [⟨p, t.freeSlot, 0⟩] := by
    rw [insertIntoTeam] at h ⊢
    split_ifs at h ⊢ <;> rfl
  simp only [Has, hplayers, List.mem_append, List.mem_singleton]
  constructor
  · rintro ⟨role, hrole | rfl, rfl⟩
    · exact .inl ⟨role, hrole, rfl⟩
    · exact .inr rfl
  · rintro (⟨role, hrole, rfl⟩ | rfl)
    · exact ⟨role, .inl hrole, rfl⟩
    · exact ⟨_, .inr rfl, rfl⟩

theorem insertIntoTeam_new (qwTeamId : TeamId) (p : PlayerId) :
    ((new qwTeamId).insertIntoTeam p).1 = true := by
  have hroom : ¬ (new qwTeamId).mapPlayers.length ≥ maxClientNum := by simp [new, maxClientNum]
  have hslot : (new qwTeamId).freeSlot < (new qwTeamId).pPlayerSlots.length := by
    simp [freeSlot, new, maxClientNum, List.replicate_succ, List.findIdx_cons]
  rw [insertIntoTeam, if_neg hroom, if_neg (by simp [new, getTeamRoleData]), if_pos hslot]

theorem has_kickPlayer : (t.kickPlayer p).2.Has q ↔ t.Has q ∧ q ≠ p := by
  rw [kickPlayer]
  cases h : t.getTeamRoleData p with
  | none =>
    have hp : ¬ t.Has p := by simp [has_iff_getTeamRoleData, h]
    refine ⟨fun hq => ⟨hq, ?_⟩, And.left⟩
    rintro rfl
    exact hp hq
  | some role =>
    simp only [Has, List.mem_filter, decide_eq_true_eq]
    constructor
    · rintro ⟨role, ⟨hrole, hne⟩, rfl⟩
      exact ⟨⟨role, hrole, rfl⟩, hne⟩
    · rintro ⟨⟨role, hrole, rfl⟩, hne⟩
      exact ⟨role, ⟨hrole, hne⟩, rfl⟩

theorem mem_notify {loginSession : ServerId → Bool} {msg : PlayerId → TeamAckLogin}
    {a : ServerId × TeamAckLogin} (h : a ∈ t.notify loginSession msg) : ∃ q, a.2 = msg q := by
  obtain ⟨role, -, rfl⟩ := List.mem_map.mp h
  exact ⟨role.qwPlayerId, rfl⟩

end CTeam

/-- The teams of a team server, and the game starts that a game manager has been asked for. -/
structure TeamServer where
  mapTeams : TeamId → Option CTeam
  starting : List TeamId

namespace TeamServer

def getTeam (s : TeamServer) (qwTeamId : TeamId) : Option CTeam := s.mapTeams qwTeamId

def setTeam (s : TeamServer) (qwTeamId : TeamId) (team : CTeam) : TeamServer :=
  { s with mapTeams := Function.update s.mapTeams qwTeamId (some team) }

def releaseTeam (s : TeamServer) (qwTeamId : TeamId) : TeamServer :=
  { s with mapTeams := Function.update s.mapTeams qwTeamId none }

/-- `CreateTeam`; that the id is not taken is asserted there. -/
def createTeam (s : TeamServer) (qwTeamId : TeamId) : CTeam :=
  (s.getTeam qwTeamId).getD (.new qwTeamId)

section Handlers

variable (s : TeamServer) (loginSession : ServerId → Bool) (dwServerId : ServerId)
  (qwPlayerId : PlayerId) (qwTeamId : TeamId)

def onLoginRequestTeamMakeTeam : TeamServer × List (ServerId × TeamAckLogin) :=
  let team := ((s.createTeam qwTeamId).insertIntoTeam qwPlayerId).2.setServerId qwPlayerId
    dwServerId
  (s.setTeam qwTeamId team, team.notifyPlayer loginSession ++
    [(dwServerId, .makeTeam .none qwPlayerId qwTeamId)])

/-- What a kick and a leave have in common; they differ in the answer. -/
def onErase (ack : EErrorCode → TeamAckLogin) : TeamServer × List (ServerId × TeamAckLogin) :=
  match s.getTeam qwTeamId with
  | none => (s, [(dwServerId, ack .noTeamId)])
  | some team =>
    let (kicked, team) := team.kickPlayer qwPlayerId
    let answer := (dwServerId, ack (if kicked then .none else .noTeamId))
    if team.mapPlayers.length = 0 then (s.releaseTeam qwTeamId, [answer])
    else (s.setTeam qwTeamId team, answer :: team.notifyPlayer loginSession)

def onLoginRequestTeamKickPlayer : TeamServer × List (ServerId × TeamAckLogin) :=
  s.onErase loginSession dwServerId qwPlayerId qwTeamId (.kickPlayer · qwPlayerId)

def onLoginRequestTeamPlayerLeave : TeamServer × List (ServerId × TeamAckLogin) :=
  s.onErase loginSession dwServerId qwPlayerId qwTeamId (.playerLeave · qwPlayerId)

def onLoginRequestTeamEnterTeam : TeamServer × List (ServerId × TeamAckLogin) :=
  match s.getTeam qwTeamId with
  | none => (s, [(dwServerId, .enterTeam .noTeamId qwPlayerId qwTeamId)])
  | some team =>
    match team.insertIntoTeam qwPlayerId with
    | (false, _) => (s, [(dwServerId, .enterTeam .failIntoTeam qwPlayerId qwTeamId)])
    | (true, team) =>
      let team := team.setServerId qwPlayerId dwServerId
      (s.setTeam qwTeamId team, team.notifyPlayer loginSession ++
        [(dwServerId, .enterTeam .none qwPlayerId qwTeamId)])

/-- `gameManager` says whether there is a session of a game manager. -/
def onLoginRequestTeamGameStart (gameManager : Bool) :
    TeamServer × List (ServerId × TeamAckLogin) :=
  match s.getTeam qwTeamId with
  | none => (s, [(dwServerId, .gameStart .noTeamId qwPlayerId qwTeamId)])
  | some team =>
    if team.qwLeader ≠ qwPlayerId then
      (s, [(dwServerId, .gameStart .notLeader qwPlayerId qwTeamId)])
    else if team.eState = .startGame then
      (s, [(dwServerId, .gameStart .teamHasStart qwPlayerId qwTeamId)])
    else if gameManager = false then
      (s, [(dwServerId, .gameStart .noGameManagerServer qwPlayerId qwTeamId)])
    else
      ({ s.setTeam qwTeamId (team.setState .startGame) with
        starting := s.starting ++ [qwTeamId] }, [])

def onGameManagerAckTeamGameStart (success : Bool) :
    TeamServer × List (ServerId × TeamAckLogin) :=
  let s := { s with starting := s.starting.erase qwTeamId }
  match s.getTeam qwTeamId with
  | none => (s, [])
  | some team =>
    if success = false then (s.setTeam qwTeamId (team.setState .idle), [])
    else (s.releaseTeam qwTeamId, team.notify loginSession (.gameStart .none · qwTeamId))

def onRequest (gameManager : Bool) :
    LoginRequestTeam → TeamServer × List (ServerId × TeamAckLogin)
  | .makeTeam qwPlayerId qwTeamId =>
    s.onLoginRequestTeamMakeTeam loginSession dwServerId qwPlayerId qwTeamId
  | .kickPlayer qwPlayerId qwTeamId =>
    s.onLoginRequestTeamKickPlayer loginSession dwServerId qwPlayerId qwTeamId
  | .gameStart qwPlayerId qwTeamId =>
    s.onLoginRequestTeamGameStart dwServerId qwPlayerId qwTeamId gameManager
  | .enterTeam qwPlayerId qwTeamId =>
    s.onLoginRequestTeamEnterTeam loginSession dwServerId qwPlayerId qwTeamId
  | .playerLeave qwPlayerId qwTeamId =>
    s.onLoginRequestTeamPlayerLeave loginSession dwServerId qwPlayerId qwTeamId

end Handlers

def Member (s : TeamServer) (qwTeamId : TeamId) (qwPlayerId : PlayerId) : Prop :=
  ∃ team, s.getTeam qwTeamId = some team ∧ team.Has qwPlayerId

/-- Who is a member after the team `t` has been set. -/
theorem member_setTeam {s : TeamServer} {t u : TeamId} {team : CTeam} {q : PlayerId} :
    (s.setTeam t team).Member u q ↔ u = t ∧ team.Has q ∨ u ≠ t ∧ s.Member u q := by
  by_cases hu : u = t
  · subst hu
    simp [Member, setTeam, getTeam]
  · simp [Member, setTeam, getTeam, hu]

theorem member_releaseTeam {s : TeamServer} {t u : TeamId} {q : PlayerId} :
    (s.releaseTeam t).Member u q ↔ u ≠ t ∧ s.Member u q := by
  by_cases hu : u = t
  · subst hu
    simp [Member, releaseTeam, getTeam]
  · simp [Member, releaseTeam, getTeam, hu]

/-- The answers that change a player at its login server; the others are for its client. -/
def changes (a : ServerId × TeamAckLogin) : Bool := a.2.about.isSome

theorem filter_notify {t : CTeam} {loginSession : ServerId → Bool}
    (msg : PlayerId → TeamAckLogin) (h : ∀ q, (msg q).about = none) :
    (t.notify loginSession msg).filter changes = [] := by
  rw [List.filter_eq_nil_iff]
  intro a ha
  obtain ⟨q, hq⟩ := t.mem_notify ha
  simp [changes, hq, h]

variable {s : TeamServer} {loginSession : ServerId → Bool} {i : ServerId} {p q : PlayerId}
  {t u : TeamId}

theorem onLoginRequestTeamMakeTeam_answers :
    (s.onLoginRequestTeamMakeTeam loginSession i p t).2.filter changes =
      [(i, .makeTeam .none p t)] := by
  simp only [onLoginRequestTeamMakeTeam, List.filter_append, CTeam.notifyPlayer]
  rw [filter_notify _ fun _ => rfl]
  rfl

theorem member_onLoginRequestTeamMakeTeam (hnew : s.getTeam t = none) :
    (s.onLoginRequestTeamMakeTeam loginSession i p t).1.Member u q ↔
      s.Member u q ∨ u = t ∧ q = p := by
  have hnone : ¬ s.Member t q := by simp [Member, hnew]
  simp only [onLoginRequestTeamMakeTeam, member_setTeam, createTeam, hnew, Option.getD_none,
    CTeam.has_setServerId, CTeam.has_insertIntoTeam (CTeam.insertIntoTeam_new t p)]
  by_cases hu : u = t
  · subst hu
    simp [CTeam.not_has_new, hnone]
  · simp [hu]

/-- What a kick and a leave do: one answer, and the player is in the team no more. -/
theorem onErase_answers (s : TeamServer) (loginSession : ServerId → Bool) (i : ServerId)
    (t : TeamId) (ack : EErrorCode → TeamAckLogin) (hack : ∀ e, (ack e).about = some p) :
    ∃ e, (s.onErase loginSession i p t ack).2.filter changes = [(i, ack e)] := by
  have hone : ∀ e, changes (i, ack e) = true := fun e => by simp [changes, hack]
  rw [onErase]
  cases s.getTeam t with
  | none => exact ⟨.noTeamId, by simp [hone]⟩
  | some team =>
    simp only
    split_ifs
    · exact ⟨.none, by simp [hone]⟩
    · exact ⟨.noTeamId, by simp [hone]⟩
    · refine ⟨.none, ?_⟩
      rw [List.filter_cons_of_pos (hone _), CTeam.notifyPlayer, filter_notify _ fun _ => rfl]
    · refine ⟨.noTeamId, ?_⟩
      rw [List.filter_cons_of_pos (hone _), CTeam.notifyPlayer, filter_notify _ fun _ => rfl]

theorem member_onErase (ack : EErrorCode → TeamAckLogin) :
    (s.onErase loginSession i p t ack).1.Member u q ↔ s.Member u q ∧ ¬ (u = t ∧ q = p) := by
  rw [onErase]
  cases hteam : s.getTeam t with
  | none =>
    refine ⟨fun h => ⟨h, ?_⟩, And.left⟩
    rintro ⟨rfl, -⟩
    obtain ⟨team, hsome, -⟩ := h
    rw [hteam] at hsome
    cases hsome
  | some team =>
    have hsome : s.Member t q ↔ team.Has q := by simp [Member, hteam]
    have hkick : (team.kickPlayer p).2.Has q ↔ team.Has q ∧ q ≠ p := CTeam.has_kickPlayer
    simp only
    by_cases hempty : (team.kickPlayer p).2.mapPlayers.length = 0
    · have hnone : ¬ (team.kickPlayer p).2.Has q := by
        rintro ⟨role, hrole, -⟩
        rw [List.length_eq_zero_iff.mp hempty] at hrole
        cases hrole
      rw [if_pos hempty, member_releaseTeam]
      by_cases hu : u = t
      · subst hu
        rw [hkick, ← hsome] at hnone
        tauto
      · simp [hu]
    · rw [if_neg hempty, member_setTeam]
      by_cases hu : u = t
      · subst hu
        simp [hkick, hsome]
      · simp [hu]

theorem onLoginRequestTeamEnterTeam_cases (s : TeamServer) (loginSession : ServerId → Bool)
    (i : ServerId) (p : PlayerId) (t : TeamId) :
    (∃ e, e ≠ .none ∧ s.onLoginRequestTeamEnterTeam loginSession i p t =
        (s, [(i, .enterTeam e p t)])) ∨
      (s.onLoginRequestTeamEnterTeam loginSession i p t).2.filter changes =
        [(i, .enterTeam .none p t)] ∧ (s.getTeam t).isSome ∧
        ∀ u q, (s.onLoginRequestTeamEnterTeam loginSession i p t).1.Member u q ↔
          s.Member u q ∨ u = t ∧ q = p := by
  rw [onLoginRequestTeamEnterTeam]
  cases hteam : s.getTeam t with
  | none => exact .inl ⟨.noTeamId, by simp, rfl⟩
  | some team =>
    simp only
    rcases hinsert : team.insertIntoTeam p with ⟨_ | _, team'⟩
    · exact .inl ⟨.failIntoTeam, by simp, rfl⟩
    · refine .inr ⟨?_, rfl, fun u q => ?_⟩
      · simp only [List.filter_append, CTeam.notifyPlayer]
        rw [filter_notify _ fun _ => rfl]
        rfl
      · have hhas : team'.Has q ↔ team.Has q ∨ q = p := by
          have hq := CTeam.has_insertIntoTeam (t := team) (p := p) (q := q) (by rw [hinsert])
          rwa [hinsert] at hq
        have hsome : s.Member t q ↔ team.Has q := by simp [Member, hteam]
        simp only [member_setTeam, CTeam.has_setServerId, hhas]
        by_cases hu : u = t
        · subst hu
          simp [hsome]
        · simp [hu]

theorem onLoginRequestTeamGameStart_answers (gameManager : Bool) :
    (s.onLoginRequestTeamGameStart i p t gameManager).2.filter changes = [] := by
  rw [onLoginRequestTeamGameStart]
  cases s.getTeam t with
  | none => rfl
  | some team =>
    simp only
    split_ifs <;> rfl

theorem member_onLoginRequestTeamGameStart (gameManager : Bool) :
    (s.onLoginRequestTeamGameStart i p t gameManager).1.Member u q ↔ s.Member u q := by
  rw [onLoginRequestTeamGameStart]
  cases hteam : s.getTeam t with
  | none => exact Iff.rfl
  | some team =>
    simp only
    split_ifs
    · exact Iff.rfl
    · exact Iff.rfl
    · exact Iff.rfl
    · have hsome : s.Member t q ↔ team.Has q := by simp [Member, hteam]
      have hset : TeamServer.Member { s.setTeam t (team.setState .startGame) with
          starting := s.starting ++ [t] } u q ↔
            (s.setTeam t (team.setState .startGame)).Member u q := Iff.rfl
      rw [hset, member_setTeam, CTeam.has_setState]
      by_cases hu : u = t
      · subst hu
        simp [hsome]
      · simp [hu]

theorem onGameManagerAckTeamGameStart_answers (success : Bool) :
    (s.onGameManagerAckTeamGameStart loginSession t success).2.filter changes = [] := by
  rw [onGameManagerAckTeamGameStart]
  cases TeamServer.getTeam { s with starting := s.starting.erase t } t with
  | none => rfl
  | some team =>
    simp only
    split_ifs
    · rfl
    · exact filter_notify (.gameStart .none · t) fun _ => rfl

/-- A game that starts takes its team away. -/
theorem member_onGameManagerAckTeamGameStart (s : TeamServer) (loginSession : ServerId → Bool)
    (t u : TeamId) (q : PlayerId) (success : Bool) :
    (s.onGameManagerAckTeamGameStart loginSession t success).1.Member u q ↔
      s.Member u q ∧ ¬ (success = true ∧ u = t) := by
  rw [onGameManagerAckTeamGameStart]
  have hget : TeamServer.getTeam { s with starting := s.starting.erase t } t = s.getTeam t := rfl
  have hrest : TeamServer.Member { s with starting := s.starting.erase t } u q ↔ s.Member u q :=
    Iff.rfl
  cases hteam : s.getTeam t with
  | none =>
    have hnone : ¬ s.Member t q := by simp [Member, hteam]
    simp only [hget, hteam, hrest]
    refine ⟨fun h => ⟨h, ?_⟩, And.left⟩
    rintro ⟨-, rfl⟩
    exact hnone h
  | some team =>
    have hsome : s.Member t q ↔ team.Has q := by simp [Member, hteam]
    simp only [hget, hteam]
    split_ifs with hs
    · rw [member_setTeam, CTeam.has_setState, hrest]
      by_cases hu : u = t
      · subst hu
        simp [hsome, hs]
      · simp [hu]
    · rw [member_releaseTeam, hrest]
      simp [hs, and_comm]

theorem isSome_setTeam {team : CTeam} (h : (s.getTeam t).isSome)
    (hu : ((s.setTeam t team).getTeam u).isSome) : (s.getTeam u).isSome := by
  by_cases hut : u = t
  · subst hut
    exact h
  · simpa [setTeam, getTeam, hut] using hu

theorem isSome_releaseTeam (hu : ((s.releaseTeam t).getTeam u).isSome) :
    (s.getTeam u).isSome := by
  by_cases hut : u = t
  · subst hut
    simp [releaseTeam, getTeam] at hu
  · simpa [releaseTeam, getTeam, hut] using hu

theorem isSome_onErase (ack : EErrorCode → TeamAckLogin)
    (hu : ((s.onErase loginSession i p t ack).1.getTeam u).isSome) : (s.getTeam u).isSome := by
  rw [onErase] at hu
  cases hteam : s.getTeam t with
  | none =>
    rw [hteam] at hu
    exact hu
  | some team =>
    simp only [hteam] at hu
    by_cases hempty : (team.kickPlayer p).2.mapPlayers.length = 0
    · rw [if_pos hempty] at hu
      exact isSome_releaseTeam hu
    · rw [if_neg hempty] at hu
      exact isSome_setTeam (by simp [hteam]) hu

/-- The teams of a server are those that were made there. -/
theorem isSome_onRequest (gameManager : Bool) (r : LoginRequestTeam)
    (hu : ((s.onRequest loginSession i gameManager r).1.getTeam u).isSome) :
    (s.getTeam u).isSome ∨ ∃ p, r = .makeTeam p u := by
  cases r with
  | makeTeam p t =>
    by_cases hut : u = t
    · exact .inr ⟨p, by rw [hut]⟩
    · simp only [onRequest, onLoginRequestTeamMakeTeam, setTeam, getTeam,
        Function.update_of_ne hut] at hu
      exact .inl hu
  | kickPlayer p t => exact .inl (isSome_onErase _ hu)
  | playerLeave p t => exact .inl (isSome_onErase _ hu)
  | gameStart p t =>
    refine .inl ?_
    simp only [onRequest, onLoginRequestTeamGameStart] at hu
    cases hteam : s.getTeam t with
    | none =>
      rw [hteam] at hu
      exact hu
    | some team =>
      simp only [hteam] at hu
      split_ifs at hu
      · exact hu
      · exact hu
      · exact hu
      · exact isSome_setTeam (by simp [hteam]) hu
  | enterTeam p t =>
    refine .inl ?_
    simp only [onRequest, onLoginRequestTeamEnterTeam] at hu
    cases hteam : s.getTeam t with
    | none =>
      rw [hteam] at hu
      exact hu
    | some team =>
      simp only [hteam] at hu
      rcases hinsert : team.insertIntoTeam p with ⟨_ | _, team'⟩
      · rw [hinsert] at hu
        exact hu
      · rw [hinsert] at hu
        exact isSome_setTeam (by simp [hteam]) hu

theorem isSome_onGameManagerAckTeamGameStart (success : Bool)
    (hu : ((s.onGameManagerAckTeamGameStart loginSession t success).1.getTeam u).isSome) :
    (s.getTeam u).isSome := by
  have hget : TeamServer.getTeam { s with starting := s.starting.erase t } t = s.getTeam t := rfl
  rw [onGameManagerAckTeamGameStart] at hu
  cases hteam : s.getTeam t with
  | none =>
    simp only [hget, hteam] at hu
    exact hu
  | some team =>
    simp only [hget, hteam] at hu
    split_ifs at hu
    · exact isSome_setTeam (s := s) (by simp [hteam]) hu
    · exact isSome_releaseTeam (s := s) hu

theorem mem_of_filter_changes {out : List (ServerId × TeamAckLogin)}
    {a b : ServerId × TeamAckLogin} (h : out.filter changes = [b]) (ha : a ∈ out)
    (hq : a.2.about = some q) : a = b := by
  have hmem : a ∈ out.filter changes := List.mem_filter.mpr ⟨ha, by simp [changes, hq]⟩
  rwa [h, List.mem_singleton] at hmem

/-- A request leaves everybody alone but the player that it is about. -/
theorem onRequest_other (s : TeamServer) (loginSession : ServerId → Bool) (i : ServerId)
    (gameManager : Bool) {r : LoginRequestTeam} (hq : r.about ≠ some q)
    (hnew : ∀ p t, r = .makeTeam p t → s.getTeam t = none) :
    (∀ u, (s.onRequest loginSession i gameManager r).1.Member u q ↔ s.Member u q) ∧
      ∀ a ∈ (s.onRequest loginSession i gameManager r).2, a.2.about ≠ some q := by
  cases r with
  | makeTeam p t =>
    have hp : q ≠ p := fun hc => hq (by simp [LoginRequestTeam.about, hc])
    refine ⟨fun u => (member_onLoginRequestTeamMakeTeam (hnew p t rfl)).trans (by simp [hp]),
      fun a ha hc => hq ?_⟩
    rw [mem_of_filter_changes onLoginRequestTeamMakeTeam_answers ha hc] at hc
    exact hc
  | kickPlayer p t =>
    have hp : q ≠ p := fun hc => hq (by simp [LoginRequestTeam.about, hc])
    refine ⟨fun u => (member_onErase _).trans (by simp [hp]), fun a ha hc => hq ?_⟩
    obtain ⟨e, he⟩ := onErase_answers s loginSession i t
      (.kickPlayer · p) fun _ => rfl
    rw [mem_of_filter_changes he ha hc] at hc
    exact hc
  | playerLeave p t =>
    have hp : q ≠ p := fun hc => hq (by simp [LoginRequestTeam.about, hc])
    refine ⟨fun u => (member_onErase _).trans (by simp [hp]), fun a ha hc => hq ?_⟩
    obtain ⟨e, he⟩ := onErase_answers s loginSession i t
      (.playerLeave · p) fun _ => rfl
    rw [mem_of_filter_changes he ha hc] at hc
    exact hc
  | enterTeam p t =>
    have hp : q ≠ p := fun hc => hq (by simp [LoginRequestTeam.about, hc])
    rcases s.onLoginRequestTeamEnterTeam_cases loginSession i p t with ⟨e, -, he⟩ |
      ⟨hout, -, hmember⟩
    · rw [onRequest, he]
      refine ⟨fun u => Iff.rfl, fun a ha hc => hq ?_⟩
      rw [List.mem_singleton.mp ha] at hc
      exact hc
    · refine ⟨fun u => (hmember u q).trans (by simp [hp]), fun a ha hc => hq ?_⟩
      rw [mem_of_filter_changes hout ha hc] at hc
      exact hc
  | gameStart p t =>
    refine ⟨fun u => member_onLoginRequestTeamGameStart gameManager, fun a ha hc => ?_⟩
    have hmem := List.mem_filter.mpr ⟨ha, show changes a = true by simp [changes, hc]⟩
    rw [onRequest, onLoginRequestTeamGameStart_answers] at hmem
    cases hmem

end TeamServer

end WebGame
