import FxLib.WebGame.TeamSlots

/-!
# The start of a game

The leader of a team asks for a game; the team server sends the slots to a game manager and, when
the answer comes, tells the players that are in the team by then. `ETS_StartGame` only keeps a
second start away: players come and go in between.
-/

namespace WebGame

structure TeamRequestGameManagerGameStart where
  qwTeamId : TeamId
  qwPlayerIds : List PlayerId
  deriving DecidableEq

namespace CTeam

variable {t : CTeam} {p q : PlayerId}

theorem slotOf_setServerId (p : PlayerId) (i : ServerId) :
    (t.setServerId p i).slotOf = t.slotOf := by
  have hid : ∀ role : TeamRoleData,
      (if role.qwPlayerId = p then { role with dwServerId := i } else role).qwPlayerId =
          role.qwPlayerId ∧
        (if role.qwPlayerId = p then { role with dwServerId := i } else role).dwSlotId =
          role.dwSlotId := by
    intro role
    split_ifs
    · exact ⟨rfl, rfl⟩
    · exact ⟨rfl, rfl⟩
  funext q
  rw [slotOf, slotOf, getTeamRoleData, getTeamRoleData, setServerId, List.find?_map, Option.map_map]
  simp only [Function.comp_def, hid]

theorem Sound.setServerId (h : t.Sound) (p : PlayerId) (i : ServerId) :
    (t.setServerId p i).Sound := by
  constructor
  · constructor
    · rw [slotOf_setServerId]
      exact h.slot_iff
    · intro role hrole
      obtain ⟨before, hbefore, rfl⟩ := List.mem_map.mp hrole
      split_ifs
      · exact h.in_range before hbefore
      · exact h.in_range before hbefore
    · rw [CTeam.setServerId, List.length_map]
      exact h.at_most
    · intro hne
      rw [has_setServerId]
      apply h.leader
      intro hnil
      exact hne (by rw [CTeam.setServerId, hnil]; rfl)
  · exact h.slots
  · rw [has_setServerId]
    exact h.nonzero

theorem Sound.setState (h : t.Sound) (eState : ETeamState) : (t.setState eState).Sound :=
  ⟨⟨h.slot_iff, h.in_range, h.at_most, h.leader⟩, h.slots, h.nonzero⟩

/-- The slots that are not 0 hold the members. -/
theorem Sound.mem_slots (h : t.Sound) : p ∈ t.pPlayerSlots ∧ p ≠ 0 ↔ t.Has p := by
  rw [has_iff_slotOf]
  constructor
  · rintro ⟨hmem, hp⟩
    obtain ⟨i, hi⟩ := List.mem_iff_getElem?.mp hmem
    rw [(h.slot_iff i p hp).mp hi]
    rfl
  · intro hsome
    have hp := h.ne_zero (has_iff_slotOf.mpr hsome)
    obtain ⟨i, hi⟩ := Option.isSome_iff_exists.mp hsome
    exact ⟨List.mem_of_getElem? ((h.slot_iff i p hp).mpr hi), hp⟩

@[simp] theorem eState_insertIntoTeam (t : CTeam) (p : PlayerId) :
    (t.insertIntoTeam p).2.eState = t.eState := by
  rcases t.insertIntoTeam_cases p with ⟨hsame, -⟩ | ⟨-, -, -, hinsert⟩
  · rw [hsame]
  · rw [hinsert]

@[simp] theorem eState_kickPlayer (t : CTeam) (p : PlayerId) :
    (t.kickPlayer p).2.eState = t.eState := by
  rcases t.kickPlayer_cases p with ⟨-, hkick⟩ | ⟨role, -, hkick⟩
  · rw [hkick]
  · rw [hkick]

@[simp] theorem eState_changeSlot (t : CTeam) (behind p : PlayerId) (i : Nat) :
    (t.changeSlot behind p i).2.eState = t.eState := by
  rcases t.changeSlot_cases behind p i with hsame | ⟨role, -, -, hchange⟩
  · rw [hsame]
  · rw [hchange]

@[simp] theorem eState_setServerId (t : CTeam) (p : PlayerId) (i : ServerId) :
    (t.setServerId p i).eState = t.eState := rfl

theorem mapPlayers_ne_nil : t.mapPlayers ≠ [] ↔ ∃ q, t.Has q := by
  constructor
  · intro h
    obtain ⟨role, hrole⟩ := List.exists_mem_of_ne_nil _ h
    exact ⟨role.qwPlayerId, role, hrole, rfl⟩
  · rintro ⟨q, role, hrole, -⟩
    exact List.ne_nil_of_mem hrole

end CTeam

namespace TeamServer

/-- `OnLoginRequestTeamChangeSlot`: the result goes back in `TeamAckLoginChangeSlot`. -/
def onLoginRequestTeamChangeSlot (s : TeamServer) (loginSession : ServerId → Bool)
    (behind : PlayerId) (qwPlayerId : PlayerId) (qwTeamId : TeamId) (dwSlotId : Nat) :
    TeamServer × EErrorCode × List (ServerId × TeamAckLogin) :=
  match s.getTeam qwTeamId with
  | none => (s, .noTeamId, [])
  | some team =>
    let answer := team.changeSlot behind qwPlayerId dwSlotId
    (s.setTeam qwTeamId answer.2, answer.1, answer.2.notifyPlayer loginSession)

/-- What `OnLoginRequestTeamGameStart` sends to the game manager. -/
def gameStartRequest (s : TeamServer) (qwPlayerId : PlayerId) (qwTeamId : TeamId)
    (gameManager : Bool) : Option TeamRequestGameManagerGameStart :=
  match s.getTeam qwTeamId with
  | none => none
  | some team =>
    if team.qwLeader ≠ qwPlayerId then none
    else if team.eState = .startGame then none
    else if gameManager = false then none
    else some ⟨qwTeamId, team.pPlayerSlots⟩

end TeamServer

/-- The players that hear of a game that has started. -/
def notified (out : List (ServerId × TeamAckLogin)) : List PlayerId :=
  out.filterMap fun a =>
    match a.2 with
    | .gameStart .none qwPlayerId _ => some qwPlayerId
    | _ => none

/-- A game that has started: what was asked, and who has heard of it. -/
structure StartedGame where
  request : TeamRequestGameManagerGameStart
  notified : List PlayerId
  deriving DecidableEq

/-- A team server, the requests that no game manager has answered and the games so far. -/
structure GameStarts where
  server : TeamServer
  requests : List TeamRequestGameManagerGameStart
  started : List StartedGame

namespace GameStarts

/-- `loginSession` tells the login servers that have a session when the message is handled. -/
inductive Label where
  | request (loginSession : ServerId → Bool) (gameManager : Bool) (dwServerId : ServerId)
      (msg : LoginRequestTeam)
  | changeSlot (loginSession : ServerId → Bool) (behind : PlayerId) (qwPlayerId : PlayerId)
      (qwTeamId : TeamId) (dwSlotId : Nat)
  | answer (loginSession : ServerId → Bool) (request : TeamRequestGameManagerGameStart)
      (success : Bool)

def new : GameStarts := ⟨⟨fun _ => none, []⟩, [], []⟩

/-- The request that the handler of a message sends to a game manager. -/
def asks (s : GameStarts) (gameManager : Bool) : LoginRequestTeam →
    List TeamRequestGameManagerGameStart
  | .gameStart qwPlayerId qwTeamId =>
    (s.server.gameStartRequest qwPlayerId qwTeamId gameManager).toList
  | .makeTeam .. => []
  | .kickPlayer .. => []
  | .enterTeam .. => []
  | .playerLeave .. => []

def step (s : GameStarts) : Label → Option GameStarts
  | .request loginSession gameManager dwServerId msg =>
    some { s with
      server := (s.server.onRequest loginSession dwServerId gameManager msg).1
      requests := s.requests ++ s.asks gameManager msg }
  | .changeSlot loginSession behind qwPlayerId qwTeamId dwSlotId =>
    some { s with
      server := (s.server.onLoginRequestTeamChangeSlot loginSession behind qwPlayerId qwTeamId
        dwSlotId).1 }
  | .answer loginSession request success =>
    if request ∈ s.requests then
      let handled := s.server.onGameManagerAckTeamGameStart loginSession request.qwTeamId success
      some { s with
        server := handled.1
        requests := s.requests.erase request
        started := s.started ++
          if success then [⟨request, notified handled.2⟩] else [] }
    else none

def Agrees (game : StartedGame) : Prop :=
  ∀ p, p ∈ game.notified ↔ p ∈ game.request.qwPlayerIds ∧ p ≠ 0

/-- Nobody comes or goes while the team waits for the game manager, slots exist, and all login
servers are there when the players are told. -/
def Steady (s : GameStarts) : Label → Prop
  | .request _ _ _ (.makeTeam qwPlayerId qwTeamId) =>
    qwPlayerId ≠ 0 ∧ s.server.getTeam qwTeamId = none
  | .request _ _ _ (.enterTeam qwPlayerId qwTeamId) =>
    qwPlayerId ≠ 0 ∧ ∀ team ∈ s.server.getTeam qwTeamId, team.eState = .startGame →
      (team.getTeamRoleData qwPlayerId).isSome ∨ maxClientNum ≤ team.mapPlayers.length
  | .request _ _ _ (.kickPlayer qwPlayerId qwTeamId)
  | .request _ _ _ (.playerLeave qwPlayerId qwTeamId) =>
    ∀ team ∈ s.server.getTeam qwTeamId, team.eState = .startGame →
      (team.getTeamRoleData qwPlayerId).isNone
  | .request _ _ _ (.gameStart ..) => True
  | .changeSlot _ behind qwPlayerId qwTeamId dwSlotId =>
    ∀ team ∈ s.server.getTeam qwTeamId, team.InBounds (.changeSlot qwPlayerId dwSlotId behind)
  | .answer loginSession request success =>
    success = true → ∀ team ∈ s.server.getTeam request.qwTeamId, ∀ role ∈ team.mapPlayers,
      loginSession role.dwServerId = true

instance (s : GameStarts) : (l : Label) → Decidable (s.Steady l)
  | .request _ _ _ (.makeTeam ..) => inferInstanceAs (Decidable (_ ∧ _ = none))
  | .request _ _ _ (.enterTeam ..) =>
    inferInstanceAs (Decidable (_ ∧ ∀ team ∈ s.server.getTeam _, _ → _))
  | .request _ _ _ (.kickPlayer ..) | .request _ _ _ (.playerLeave ..) =>
    inferInstanceAs (Decidable (∀ team ∈ s.server.getTeam _, _ → _))
  | .request _ _ _ (.gameStart ..) => inferInstanceAs (Decidable True)
  | .changeSlot .. => inferInstanceAs (Decidable (∀ team ∈ s.server.getTeam _, CTeam.InBounds _ _))
  | .answer .. =>
    inferInstanceAs (Decidable (_ → ∀ team ∈ s.server.getTeam _, ∀ role ∈ team.mapPlayers, _))

structure Kept (s : GameStarts) : Prop where
  sound : ∀ t team, s.server.getTeam t = some team → team.Sound ∧ team.mapPlayers ≠ []
  asked : ∀ request ∈ s.requests, ∃ team, s.server.getTeam request.qwTeamId = some team ∧
    team.eState = .startGame ∧ ∀ p, p ∈ request.qwPlayerIds ∧ p ≠ 0 ↔ team.Has p
  once : (s.requests.map (·.qwTeamId)).Nodup
  agrees : ∀ game ∈ s.started, Agrees game

variable {s s' : GameStarts} {t : TeamId} {p : PlayerId} {team team' : CTeam}

theorem kept_new : Kept new := by
  constructor
  · intro t team h
    cases h
  · intro request h
    cases h
  · exact List.nodup_nil
  · intro game h
    cases h

theorem getTeam_setTeam (server : TeamServer) (t u : TeamId) (team : CTeam) :
    (server.setTeam t team).getTeam u = if u = t then some team else server.getTeam u :=
  Function.update_apply ..

theorem getTeam_releaseTeam (server : TeamServer) (t u : TeamId) :
    (server.releaseTeam t).getTeam u = if u = t then none else server.getTeam u :=
  Function.update_apply ..

theorem Kept.waiting (h : Kept s) (hasked : t ∈ s.requests.map (·.qwTeamId)) :
    ∃ team, s.server.getTeam t = some team ∧ team.eState = .startGame := by
  obtain ⟨request, hrequest, rfl⟩ := List.mem_map.mp hasked
  obtain ⟨team, hteam, hstate, -⟩ := h.asked request hrequest
  exact ⟨team, hteam, hstate⟩

/-- A team may change as long as, while it waits, its members stay the same. -/
theorem Kept.setTeam (h : Kept s) (hsound : team'.Sound) (hne : team'.mapPlayers ≠ [])
    (hwait : t ∈ s.requests.map (·.qwTeamId) → ∀ team, s.server.getTeam t = some team →
      team.eState = .startGame → team'.eState = .startGame ∧ ∀ q, team'.Has q ↔ team.Has q)
    (hserver : ∀ u, s'.server.getTeam u = if u = t then some team' else s.server.getTeam u)
    (hrequests : s'.requests = s.requests) (hstarted : s'.started = s.started) : Kept s' := by
  constructor
  · intro u found hfound
    rw [hserver] at hfound
    by_cases hu : u = t
    · rw [if_pos hu] at hfound
      obtain rfl := Option.some.inj hfound
      exact ⟨hsound, hne⟩
    · rw [if_neg hu] at hfound
      exact h.sound u found hfound
  · intro request hrequest
    rw [hrequests] at hrequest
    obtain ⟨found, hfound, hstate, hmembers⟩ := h.asked request hrequest
    rw [hserver]
    by_cases hu : request.qwTeamId = t
    · rw [if_pos hu]
      rw [hu] at hfound
      obtain ⟨hstate', hsame⟩ := hwait
        (List.mem_map.mpr ⟨request, hrequest, hu⟩) found hfound hstate
      exact ⟨team', rfl, hstate', fun q => (hmembers q).trans (hsame q).symm⟩
    · rw [if_neg hu]
      exact ⟨found, hfound, hstate, hmembers⟩
  · rw [hrequests]
    exact h.once
  · rw [hstarted]
    exact h.agrees

theorem Kept.releaseTeam (h : Kept s)
    (hwait : t ∉ s.requests.map (·.qwTeamId))
    (hserver : ∀ u, s'.server.getTeam u = if u = t then none else s.server.getTeam u)
    (hrequests : s'.requests = s.requests) (hstarted : s'.started = s.started) : Kept s' := by
  constructor
  · intro u found hfound
    rw [hserver] at hfound
    by_cases hu : u = t
    · rw [if_pos hu] at hfound
      cases hfound
    · rw [if_neg hu] at hfound
      exact h.sound u found hfound
  · intro request hrequest
    rw [hrequests] at hrequest
    obtain ⟨found, hfound, hstate, hmembers⟩ := h.asked request hrequest
    have hu : request.qwTeamId ≠ t := by
      rintro rfl
      exact hwait (List.mem_map.mpr ⟨request, hrequest, rfl⟩)
    rw [hserver, if_neg hu]
    exact ⟨found, hfound, hstate, hmembers⟩
  · rw [hrequests]
    exact h.once
  · rw [hstarted]
    exact h.agrees

/-- A new team with its first player. -/
theorem Kept.makeTeam (h : Kept s) (hp : p ≠ 0) (hnew : s.server.getTeam t = none)
    (loginSession : ServerId → Bool) (i : ServerId) :
    Kept { s with server := (s.server.onLoginRequestTeamMakeTeam loginSession i p t).1 } := by
  have hhas := CTeam.has_insertIntoTeam (q := p) (CTeam.insertIntoTeam_new t p)
  have hsound := ((CTeam.sound_new t).insertIntoTeam hp fun _ => .inl rfl).setServerId p i
  refine h.setTeam (t := t) hsound ?_ ?_ ?_ rfl rfl
  · apply CTeam.mapPlayers_ne_nil.mpr
    exact ⟨p, CTeam.has_setServerId i |>.mpr (hhas.mpr (.inr rfl))⟩
  · intro _ team hteam
    rw [hnew] at hteam
    cases hteam
  · intro u
    rw [TeamServer.onLoginRequestTeamMakeTeam, TeamServer.createTeam, hnew]
    exact getTeam_setTeam ..

/-- A kick or a leave; the last player takes the team along. -/
theorem Kept.onErase (h : Kept s)
    (hwait : ∀ team ∈ s.server.getTeam t, team.eState = .startGame →
      (team.getTeamRoleData p).isNone)
    (loginSession : ServerId → Bool) (i : ServerId) (ack : EErrorCode → TeamAckLogin) :
    Kept { s with server := (s.server.onErase loginSession i p t ack).1 } := by
  rw [TeamServer.onErase]
  cases hteam : s.server.getTeam t with
  | none => exact h
  | some team =>
    obtain ⟨hsound, hne⟩ := h.sound t team hteam
    have hhas : ∀ q, (team.kickPlayer p).2.Has q ↔ team.Has q ∧ q ≠ p := fun q =>
      CTeam.has_kickPlayer
    have hkeep : team.eState = .startGame → ∀ q, (team.kickPlayer p).2.Has q ↔ team.Has q := by
      intro hstate q
      rw [hhas]
      refine ⟨And.left, fun hq => ⟨hq, ?_⟩⟩
      rintro rfl
      have hnone := hwait team hteam hstate
      rw [CTeam.has_iff_getTeamRoleData] at hq
      simp [Option.isNone_iff_eq_none.mp hnone] at hq
    simp only
    by_cases hempty : (team.kickPlayer p).2.mapPlayers.length = 0
    · rw [if_pos hempty]
      refine h.releaseTeam (t := t) ?_ (fun u => getTeam_releaseTeam ..) rfl rfl
      intro hasked
      obtain ⟨found, hfound, hstate⟩ := h.waiting hasked
      rw [hteam] at hfound
      obtain rfl := Option.some.inj hfound
      obtain ⟨q, hq⟩ := CTeam.mapPlayers_ne_nil.mp hne
      obtain ⟨role, hrole, -⟩ := (hkeep hstate q).mpr hq
      rw [List.length_eq_zero_iff.mp hempty] at hrole
      cases hrole
    · rw [if_neg hempty]
      refine h.setTeam (t := t) hsound.kickPlayer ?_ ?_ (fun u => getTeam_setTeam ..) rfl rfl
      · intro hnil
        exact hempty (by rw [hnil]; rfl)
      · intro _ found hfound hstate
        rw [hteam] at hfound
        obtain rfl := Option.some.inj hfound
        exact ⟨by rw [CTeam.eState_kickPlayer, hstate], hkeep hstate⟩

theorem Kept.enterTeam (h : Kept s) (hp : p ≠ 0)
    (hwait : ∀ team ∈ s.server.getTeam t, team.eState = .startGame →
      (team.getTeamRoleData p).isSome ∨ maxClientNum ≤ team.mapPlayers.length)
    (loginSession : ServerId → Bool) (i : ServerId) :
    Kept { s with server := (s.server.onLoginRequestTeamEnterTeam loginSession i p t).1 } := by
  rw [TeamServer.onLoginRequestTeamEnterTeam]
  cases hteam : s.server.getTeam t with
  | none => exact h
  | some team =>
    obtain ⟨hsound, hne⟩ := h.sound t team hteam
    simp only
    rcases hinsert : team.insertIntoTeam p with ⟨_ | _, team'⟩
    · exact h
    · have hletIn : (team.insertIntoTeam p).1 = true := by rw [hinsert]
      have hsound' : team'.Sound := by
        have hnew := hsound.insertIntoTeam hp fun hnil => absurd hnil hne
        rwa [hinsert] at hnew
      refine h.setTeam (t := t) (hsound'.setServerId p i) ?_ ?_ (fun u => getTeam_setTeam ..) rfl
        rfl
      · have hhas := CTeam.has_insertIntoTeam (q := p) hletIn
        rw [hinsert] at hhas
        apply CTeam.mapPlayers_ne_nil.mpr
        exact ⟨p, (CTeam.has_setServerId i).mpr (hhas.mpr (.inr rfl))⟩
      · -- a team that waits lets nobody in
        intro _ found hfound hstate
        rw [hteam] at hfound
        obtain rfl := Option.some.inj hfound
        rcases team.insertIntoTeam_cases p with ⟨-, hrefused⟩ | ⟨hroom, hnone, -, -⟩
        · rw [hrefused] at hletIn
          cases hletIn
        · rcases hwait team hteam hstate with hin | hfull
          · have hslot := CTeam.has_iff_slotOf.mp (CTeam.has_iff_getTeamRoleData.mpr hin)
            rw [hnone] at hslot
            cases hslot
          · exact absurd hroom (Nat.not_lt.mpr hfull)

theorem Kept.changeSlot (h : Kept s) {behind : PlayerId} {i : Nat}
    (hbound : ∀ team ∈ s.server.getTeam t, team.InBounds (.changeSlot p i behind))
    (loginSession : ServerId → Bool) :
    Kept { s with
      server := (s.server.onLoginRequestTeamChangeSlot loginSession behind p t i).1 } := by
  rw [TeamServer.onLoginRequestTeamChangeSlot]
  cases hteam : s.server.getTeam t with
  | none => exact h
  | some team =>
    obtain ⟨hsound, hne⟩ := h.sound t team hteam
    refine h.setTeam (t := t) (hsound.changeSlot (hbound team hteam)) ?_ ?_
      (fun u => getTeam_setTeam ..) rfl rfl
    · obtain ⟨q, hq⟩ := CTeam.mapPlayers_ne_nil.mp hne
      exact CTeam.mapPlayers_ne_nil.mpr ⟨q, (CTeam.has_changeSlot behind).mpr hq⟩
    · intro _ found hfound hstate
      rw [hteam] at hfound
      obtain rfl := Option.some.inj hfound
      exact ⟨by rw [CTeam.eState_changeSlot, hstate], fun q => CTeam.has_changeSlot behind⟩

/-- The request carries the members of the team that begins to wait. -/
theorem Kept.gameStart (h : Kept s) (i : ServerId) (p : PlayerId) (t : TeamId)
    (gameManager : Bool) :
    Kept { s with
      server := (s.server.onLoginRequestTeamGameStart i p t gameManager).1
      requests := s.requests ++ (s.server.gameStartRequest p t gameManager).toList } := by
  rw [TeamServer.onLoginRequestTeamGameStart, TeamServer.gameStartRequest]
  cases hteam : s.server.getTeam t with
  | none => simpa using h
  | some team =>
    obtain ⟨hsound, hne⟩ := h.sound t team hteam
    simp only
    split_ifs with hleader hstart hmanager
    · simpa using h
    · simpa using h
    · simpa using h
    · have hidle : t ∉ s.requests.map (·.qwTeamId) := by
        intro hasked
        obtain ⟨found, hfound, hstate⟩ := h.waiting hasked
        rw [hteam] at hfound
        obtain rfl := Option.some.inj hfound
        exact hstart hstate
      have hwaits : Kept ⟨s.server.setTeam t (team.setState .startGame), s.requests, s.started⟩ :=
        h.setTeam (t := t) (hsound.setState .startGame) hne
          (fun hasked => absurd hasked hidle) (fun u => getTeam_setTeam s.server t u _) rfl rfl
      constructor
      · exact hwaits.sound
      · intro request hrequest
        rcases List.mem_append.mp hrequest with hrequest | hrequest
        · exact hwaits.asked request hrequest
        · rw [Option.toList_some, List.mem_singleton] at hrequest
          subst hrequest
          refine ⟨team.setState .startGame, ?_, rfl, fun q => hsound.mem_slots⟩
          exact (getTeam_setTeam s.server t t _).trans (if_pos rfl)
      · rw [List.map_append, List.nodup_append]
        refine ⟨h.once, List.pairwise_singleton _ _, ?_⟩
        intro u hu v hv
        rw [Option.toList_some, List.map_singleton, List.mem_singleton] at hv
        subst hv
        rintro rfl
        exact hidle hu
      · exact h.agrees

/-- An answer is the only one for its team. -/
theorem Kept.forget (h : Kept s) {request : TeamRequestGameManagerGameStart}
    (hrequest : request ∈ s.requests) :
    Kept { s with requests := s.requests.erase request } ∧
      request.qwTeamId ∉ (s.requests.erase request).map (·.qwTeamId) := by
  constructor
  · constructor
    · exact h.sound
    · intro request' hrequest'
      exact h.asked request' (List.mem_of_mem_erase hrequest')
    · exact h.once.sublist (List.erase_sublist.map _)
    · exact h.agrees
  · have hperm := (List.perm_cons_erase hrequest).map (·.qwTeamId)
    have hnodup := hperm.nodup_iff.mp h.once
    rw [List.map_cons, List.nodup_cons] at hnodup
    exact hnodup.1

/-- Every player whose login server is there hears of the start. -/
theorem notified_notify (loginSession : ServerId → Bool) (t : TeamId) :
    notified (team.notify loginSession (.gameStart .none · t)) =
      (team.mapPlayers.filter (loginSession ·.dwServerId)).map (·.qwPlayerId) := by
  rw [notified, CTeam.notify, List.filterMap_map]
  exact congrFun List.filterMap_eq_map _

theorem Kept.answer (h : Kept s) {request : TeamRequestGameManagerGameStart}
    (hrequest : request ∈ s.requests) {loginSession : ServerId → Bool} {success : Bool}
    (hthere : success = true → ∀ team ∈ s.server.getTeam request.qwTeamId,
      ∀ role ∈ team.mapPlayers, loginSession role.dwServerId = true)
    (hstep : s.step (.answer loginSession request success) = some s') : Kept s' := by
  obtain ⟨team, hteam, -, hmembers⟩ := h.asked request hrequest
  obtain ⟨hsound, hne⟩ := h.sound request.qwTeamId team hteam
  obtain ⟨hrest, hlast⟩ := h.forget hrequest
  have hget : TeamServer.getTeam { s.server with
      starting := s.server.starting.erase request.qwTeamId } request.qwTeamId = some team := hteam
  simp only [step, if_pos hrequest, TeamServer.onGameManagerAckTeamGameStart, hget] at hstep
  cases hstep
  cases success with
  | false =>
    refine hrest.setTeam (t := request.qwTeamId) (hsound.setState .idle) hne
      (fun hasked => absurd hasked hlast) (fun u => getTeam_setTeam ..) rfl (List.append_nil _)
  | true =>
    have hgone : Kept { s with
        server := s.server.releaseTeam request.qwTeamId
        requests := s.requests.erase request } :=
      hrest.releaseTeam hlast (fun u => getTeam_releaseTeam ..) rfl rfl
    constructor
    · exact hgone.sound
    · exact hgone.asked
    · exact hgone.once
    · intro game hgame
      rcases List.mem_append.mp hgame with hgame | hgame
      · exact h.agrees game hgame
      · rw [if_pos rfl, List.mem_singleton] at hgame
        subst hgame
        intro q
        have hall : team.mapPlayers.filter (loginSession ·.dwServerId) = team.mapPlayers :=
          List.filter_eq_self.mpr (hthere rfl team hteam)
        simp only [Bool.true_eq_false, if_false]
        rw [notified_notify, hall, hmembers, List.mem_map]
        exact Iff.rfl

theorem Kept.step {l : Label} (h : Kept s) (hsteady : s.Steady l) (hstep : s.step l = some s') :
    Kept s' := by
  cases l with
  | request loginSession gameManager i msg =>
    cases hstep
    cases msg with
    | makeTeam p t =>
      rw [asks, List.append_nil]
      exact h.makeTeam hsteady.1 hsteady.2 loginSession i
    | kickPlayer p t =>
      rw [asks, List.append_nil]
      exact h.onErase hsteady loginSession i (.kickPlayer · p)
    | playerLeave p t =>
      rw [asks, List.append_nil]
      exact h.onErase hsteady loginSession i (.playerLeave · p)
    | enterTeam p t =>
      rw [asks, List.append_nil]
      exact h.enterTeam hsteady.1 hsteady.2 loginSession i
    | gameStart p t => exact h.gameStart i p t gameManager
  | changeSlot loginSession behind p t i =>
    cases hstep
    exact h.changeSlot hsteady loginSession
  | answer loginSession request success =>
    by_cases hrequest : request ∈ s.requests
    · exact h.answer hrequest hsteady hstep
    · simp [GameStarts.step, hrequest] at hstep

/-- Whoever is asked for is told, and nobody else. -/
theorem agrees_of_steady {labels : List Label} {s : GameStarts}
    (hsteady : Transition.Always step Steady new labels)
    (hrun : Transition.run step new labels = some s) : ∀ game ∈ s.started, Agrees game :=
  (Transition.invariant_of_always (fun _ _ _ h hl hstep => h.step hl hstep) kept_new hsteady
    hrun).agrees

/-- Player 7 makes team 5, 8 comes and goes to slot 3, and the game starts. -/
def twoPlayers : List Label :=
  [.request (· = 1) true 1 (.makeTeam 7 5), .request (· = 1) true 1 (.enterTeam 8 5),
    .changeSlot (· = 1) 0 8 5 3, .request (· = 1) true 1 (.gameStart 7 5),
    .answer (· = 1) ⟨5, [7, 0, 0, 8, 0, 0, 0, 0]⟩ true]

theorem agrees_of_steady_two :
    ∃ s, Transition.run step new twoPlayers = some s ∧
      s.started = [⟨⟨5, [7, 0, 0, 8, 0, 0, 0, 0]⟩, [7, 8]⟩] ∧ ∀ game ∈ s.started, Agrees game :=
  have hsteady : Transition.Always step Steady new twoPlayers := by decide +kernel
  ⟨_, rfl, rfl, agrees_of_steady hsteady rfl⟩

/-- Player 8 enters the team while it waits for the game manager. -/
theorem not_agrees_of_late_entry :
    ¬ ∀ (labels : List Label) (s : GameStarts), Transition.run step new labels = some s →
      ∀ game ∈ s.started, Agrees game := by
  intro h
  have hlate := h [.request (· = 1) true 1 (.makeTeam 7 5),
    .request (· = 1) true 1 (.gameStart 7 5), .request (· = 1) true 1 (.enterTeam 8 5),
    .answer (· = 1) ⟨5, [7, 0, 0, 0, 0, 0, 0, 0]⟩ true] _ rfl
    ⟨⟨5, [7, 0, 0, 0, 0, 0, 0, 0]⟩, [7, 8]⟩ (by decide +kernel) 8
  exact absurd (hlate.mp (by decide)) (by decide)

end GameStarts

end WebGame
