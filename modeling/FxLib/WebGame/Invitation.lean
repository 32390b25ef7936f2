import FxLib.Lib.Transition
import FxLib.WebGame.Player

/-!
# Invitations into a team

A player invites another one, who may be on another login server, and is told when the other
refuses. Both ways there is a local and a remote branch, and the set of the players online in redis
says which server to ask. The handlers change no player, so the players are a parameter here.
-/

namespace WebGame

/-- The players of each login server, the set in redis, and for which servers each has a session. -/
structure LoginWorld where
  login : ServerId → PlayerManager
  online : PlayerId → Option ServerId
  loginSession : ServerId → ServerId → Bool

inductive LoginToPlayer where
  | ackInviteTeam (dwResult : EErrorCode)
  | notifyInviteTeam (qwPlayerId : PlayerId) (qwTeamId : TeamId) (dwTeamServerId : ServerId)
  | notifyRefuseEnterTeam (qwPlayerId : PlayerId) (szReason : List UInt8)
  deriving DecidableEq

inductive LoginToLogin where
  | requestInviteTeam (qwInviteId qwInviteeId : PlayerId) (qwTeamId : TeamId)
      (dwTeamServerId : ServerId)
  | ackInviteTeam (dwResult : EErrorCode) (qwInviteId qwInviteeId : PlayerId)
  | notifyPlayerRefuseEnterTeam (qwInviteId qwInviteeId : PlayerId) (szReason : List UInt8)
  deriving DecidableEq

inductive Sent where
  | player (session : Nat) (msg : LoginToPlayer)
  | login (dwServerId : ServerId) (msg : LoginToLogin)
  deriving DecidableEq

/-- `GetSession()->Send`. Here and below `none` is a program that goes through a null pointer. -/
def Player.send (p : Player) (msg : LoginToPlayer) : Option (List Sent) :=
  p.pSession.map fun session => [.player session msg]

namespace LoginWorld

variable (w : LoginWorld)

def getPlayer (i : ServerId) (qwPlayerId : PlayerId) : Option Player :=
  (w.login i).getPlayer qwPlayerId

/-- `RedisGetServerId`; 0 when there is no answer. -/
def redisGetServerId (qwPlayerId : PlayerId) : ServerId := (w.online qwPlayerId).getD 0

/-! ### The handlers of a login server -/

/-- `Player::OnPlayerRequestLoginInviteTeam`. The server is looked up with the id of the player
itself. -/
def onPlayerRequestLoginInviteTeam (i : ServerId) (player : Player) (qwPlayerId : PlayerId) :
    Option (List Sent) :=
  if qwPlayerId = player.qwPyayerId then player.send (.ackInviteTeam .alreadyInTeam)
  else if player.qwTeamId = 0 then player.send (.ackInviteTeam .noTeamId)
  else
    match w.getPlayer i qwPlayerId with
    | some invitee =>
      if invitee.qwTeamId ≠ 0 then player.send (.ackInviteTeam .alreadyInTeam)
      else do
        let notify ← invitee.send
          (.notifyInviteTeam player.qwPyayerId player.qwTeamId player.dwTeamServerId)
        let ack ← player.send (.ackInviteTeam .none)
        some (notify ++ ack)
    | none =>
      let dwServerId := w.redisGetServerId player.qwPyayerId
      if w.loginSession i dwServerId then
        some [.login dwServerId (.requestInviteTeam player.qwPyayerId qwPlayerId player.qwTeamId
          player.dwTeamServerId)]
      else player.send (.ackInviteTeam .playerNotOnline)

/-- `CPlayerSession::OnPlayerRequestLoginRefuseEnterTeam` of the session of `qwPlayerId`. The remote
branch sends through the player that has not been found. -/
def onPlayerRequestLoginRefuseEnterTeam (i : ServerId) (qwPlayerId : PlayerId)
    (qwInviteId : PlayerId) (szReason : List UInt8) : Option (List Sent) :=
  match w.getPlayer i qwPlayerId with
  | none => some []
  | some _ =>
    match w.getPlayer i qwInviteId with
    | some invitePlay => invitePlay.send (.notifyRefuseEnterTeam qwPlayerId szReason)
    | none =>
      if w.loginSession i (w.redisGetServerId qwInviteId) then none else some []

/-- `OnLoginRequestLoginInviteTeam`; answers go back to the server `sender`. -/
def onLoginRequestLoginInviteTeam (i sender : ServerId) (qwInviteId qwInviteeId : PlayerId)
    (qwTeamId : TeamId) (dwTeamServerId : ServerId) : Option (List Sent) :=
  match w.getPlayer i qwInviteeId with
  | none => some [.login sender (.ackInviteTeam .cannotFindPlayer qwInviteId qwInviteeId)]
  | some player =>
    if player.qwTeamId ≠ 0 then
      some [.login sender (.ackInviteTeam .alreadyInTeam qwInviteId qwInviteeId)]
    else player.send (.notifyInviteTeam qwInviteId qwTeamId dwTeamServerId)

def onLoginAckLoginInviteTeam (i : ServerId) (dwResult : EErrorCode) (qwInviteId : PlayerId) :
    Option (List Sent) :=
  match w.getPlayer i qwInviteId with
  | none => some []
  | some player => player.send (.ackInviteTeam dwResult)

def onLoginNotifyLoginPlayerRefuseEnterTeam (i : ServerId) (qwInviteId qwInviteeId : PlayerId)
    (szReason : List UInt8) : Option (List Sent) :=
  match w.getPlayer i qwInviteId with
  | none => some []
  | some player => player.send (.notifyRefuseEnterTeam qwInviteeId szReason)

def onLogin (i sender : ServerId) : LoginToLogin → Option (List Sent)
  | .requestInviteTeam qwInviteId qwInviteeId qwTeamId dwTeamServerId =>
    w.onLoginRequestLoginInviteTeam i sender qwInviteId qwInviteeId qwTeamId dwTeamServerId
  | .ackInviteTeam dwResult qwInviteId _ => w.onLoginAckLoginInviteTeam i dwResult qwInviteId
  | .notifyPlayerRefuseEnterTeam qwInviteId qwInviteeId szReason =>
    w.onLoginNotifyLoginPlayerRefuseEnterTeam i qwInviteId qwInviteeId szReason

/-! ### What follows from one request -/

/-- A message between two login servers. -/
structure LoginMail where
  sender : ServerId
  receiver : ServerId
  msg : LoginToLogin
  deriving DecidableEq

/-- The messages on their way, and what the sessions of each server have got. -/
structure Exchange where
  flight : List LoginMail
  received : List (ServerId × Nat × LoginToPlayer)
  crashed : Bool
  deriving DecidableEq

namespace Exchange

def post (s : Exchange) (i : ServerId) : Option (List Sent) → Exchange
  | none => { s with crashed := true }
  | some sent =>
    { s with
      flight := s.flight ++ sent.filterMap fun
        | .login j msg => some ⟨i, j, msg⟩
        | .player .. => none
      received := s.received ++ sent.filterMap fun
        | .player session msg => some (i, session, msg)
        | .login .. => none }

end Exchange

/-- The mail arrives in any order. -/
def step (s : Exchange) (mail : LoginMail) : Option Exchange :=
  if mail ∈ s.flight then
    some (({ s with flight := s.flight.erase mail } : Exchange).post mail.receiver
      (w.onLogin mail.receiver mail.sender mail.msg))
  else none

def quiet : Exchange := ⟨[], [], false⟩

/-- A player of the server `i` asks for an invitation. -/
def invite (i : ServerId) (player : Player) (qwPlayerId : PlayerId) : Exchange :=
  quiet.post i (w.onPlayerRequestLoginInviteTeam i player qwPlayerId)

def refuse (i : ServerId) (qwPlayerId qwInviteId : PlayerId) (szReason : List UInt8) : Exchange :=
  quiet.post i (w.onPlayerRequestLoginRefuseEnterTeam i qwPlayerId qwInviteId szReason)

/-- Everything arrives, and then the sessions have got what they should have. -/
def Leads (s : Exchange) (good : Exchange → Prop) : Prop :=
  (∃ mails s', Transition.run w.step s mails = some s' ∧ s'.flight = []) ∧
    ∀ mails s', Transition.run w.step s mails = some s' → s'.flight = [] → good s'

/-- The invitations that have come, over all servers and sessions. -/
def invitations (s : Exchange) : List (ServerId × Nat × LoginToPlayer) :=
  s.received.filter fun
    | (_, _, .notifyInviteTeam ..) => true
    | _ => false

def refusals (s : Exchange) : List (ServerId × Nat × LoginToPlayer) :=
  s.received.filter fun
    | (_, _, .notifyRefuseEnterTeam ..) => true
    | _ => false

/-- The players are where redis says, and a player that is online has a session. -/
structure Accurate : Prop where
  online_iff : ∀ i p, w.online p = some i ↔ (w.getPlayer i p).isSome
  session : ∀ i p player, w.getPlayer i p = some player → player.pSession.isSome

/-- The invitation of `invitee` on the server `j` by `inviter` on the server `i` reaches its
session, once. -/
def Invites (i j : ServerId) (inviter invitee : Player) : Prop :=
  w.Leads (w.invite i inviter invitee.qwPyayerId) fun s =>
    s.crashed = false ∧ ∃ session, invitee.pSession = some session ∧ invitations s =
      [(j, session, .notifyInviteTeam inviter.qwPyayerId inviter.qwTeamId inviter.dwTeamServerId)]

/-- The refusal of `invitee` on the server `j` reaches the session of `inviter` on `i`, once. -/
def Refuses (i j : ServerId) (inviter invitee : Player) : Prop :=
  ∀ szReason, w.Leads (w.refuse j invitee.qwPyayerId inviter.qwPyayerId szReason) fun s =>
    s.crashed = false ∧ ∃ session, inviter.pSession = some session ∧ refusals s =
      [(i, session, .notifyRefuseEnterTeam invitee.qwPyayerId szReason)]

structure Routed (i j : ServerId) (inviter invitee : Player) : Prop where
  invites : w.Invites i j inviter invitee
  refuses : w.Refuses i j inviter invitee

variable {w} {i j : ServerId} {inviter invitee : Player} {s : Exchange} {good : Exchange → Prop}

/-- With nothing on its way there is nothing to wait for. -/
theorem leads_iff_of_flight_nil (hflight : s.flight = []) : w.Leads s good ↔ good s := by
  constructor
  · rintro ⟨-, hall⟩
    exact hall [] s rfl hflight
  · intro hgood
    constructor
    · exact ⟨[], s, rfl, hflight⟩
    · intro mails s' hrun hs'
      cases mails with
      | nil =>
        obtain rfl : s = s' := by simpa [Transition.run] using hrun
        exact hgood
      | cons mail mails =>
        obtain ⟨m, hm, -⟩ := Transition.run_cons hrun
        rw [step, hflight, if_neg List.not_mem_nil] at hm
        cases hm

section Placed

variable (hw : w.Accurate) (hinviter : w.getPlayer i inviter.qwPyayerId = some inviter)
  (hinvitee : w.getPlayer j invitee.qwPyayerId = some invitee)

include hw hinviter in
theorem Accurate.redisGetServerId_eq : w.redisGetServerId inviter.qwPyayerId = i := by
  have honline : w.online inviter.qwPyayerId = some i :=
    (hw.online_iff i inviter.qwPyayerId).mpr (by rw [hinviter]; rfl)
  rw [redisGetServerId, honline]
  rfl

include hw hinviter in
theorem Accurate.getPlayer_eq_none (h : i ≠ j) : w.getPlayer j inviter.qwPyayerId = none := by
  by_contra hfound
  have hi : w.online inviter.qwPyayerId = some i :=
    (hw.online_iff i inviter.qwPyayerId).mpr (by rw [hinviter]; rfl)
  have hj : w.online inviter.qwPyayerId = some j :=
    (hw.online_iff j inviter.qwPyayerId).mpr (Option.isSome_iff_ne_none.mpr hfound)
  exact h (Option.some.inj (hi.symm.trans hj))

include hinviter hinvitee in
theorem id_ne (hteam : inviter.qwTeamId ≠ 0) (hfree : invitee.qwTeamId = 0) (h : i = j) :
    invitee.qwPyayerId ≠ inviter.qwPyayerId := by
  intro hid
  rw [hid, ← h, hinviter] at hinvitee
  obtain rfl := Option.some.inj hinvitee
  exact hteam hfree

include hw hinviter hinvitee in
theorem invites_of_eq (hteam : inviter.qwTeamId ≠ 0) (hfree : invitee.qwTeamId = 0) (h : i = j) :
    w.Invites i j inviter invitee := by
  obtain ⟨session, hsession⟩ := Option.isSome_iff_exists.mp (hw.session _ _ _ hinvitee)
  obtain ⟨own, hown⟩ := Option.isSome_iff_exists.mp (hw.session _ _ _ hinviter)
  have hid := id_ne hinviter hinvitee hteam hfree h
  subst h
  have hstate : w.invite i inviter invitee.qwPyayerId =
      ⟨[], [(i, session, .notifyInviteTeam inviter.qwPyayerId inviter.qwTeamId
        inviter.dwTeamServerId), (i, own, .ackInviteTeam .none)], false⟩ := by
    rw [invite, onPlayerRequestLoginInviteTeam, if_neg hid, if_neg hteam, hinvitee]
    simp only [ne_eq, hfree, not_true_eq_false, if_false, Player.send, hsession, hown]
    rfl
  rw [Invites, hstate, leads_iff_of_flight_nil rfl]
  exact ⟨rfl, session, hsession, rfl⟩

include hw hinviter hinvitee in
theorem refuses_of_eq (h : i = j) : w.Refuses i j inviter invitee := by
  obtain ⟨own, hown⟩ := Option.isSome_iff_exists.mp (hw.session _ _ _ hinviter)
  subst h
  intro szReason
  have hstate : w.refuse i invitee.qwPyayerId inviter.qwPyayerId szReason =
      ⟨[], [(i, own, .notifyRefuseEnterTeam invitee.qwPyayerId szReason)], false⟩ := by
    rw [refuse, onPlayerRequestLoginRefuseEnterTeam, hinvitee]
    simp only [hinviter, Player.send, hown]
    rfl
  rw [hstate, leads_iff_of_flight_nil rfl]
  exact ⟨rfl, own, hown, rfl⟩

include hw hinviter hinvitee in
/-- The server that is asked is the one that asks, and it does not know the invitee. -/
theorem not_invites_of_ne (hteam : inviter.qwTeamId ≠ 0) (h : i ≠ j) :
    ¬ w.Invites i j inviter invitee := by
  obtain ⟨own, hown⟩ := Option.isSome_iff_exists.mp (hw.session _ _ _ hinviter)
  have hid : invitee.qwPyayerId ≠ inviter.qwPyayerId := by
    intro hid
    have hnone := hw.getPlayer_eq_none hinviter h
    rw [← hid, hinvitee] at hnone
    cases hnone
  have hmissing := hw.getPlayer_eq_none hinvitee (Ne.symm h)
  have hserver := hw.redisGetServerId_eq hinviter
  have hinvite : w.invite i inviter invitee.qwPyayerId = quiet.post i
      (if w.loginSession i i then
        some [.login i (.requestInviteTeam inviter.qwPyayerId invitee.qwPyayerId inviter.qwTeamId
          inviter.dwTeamServerId)]
      else inviter.send (.ackInviteTeam .playerNotOnline)) := by
    rw [invite, onPlayerRequestLoginInviteTeam, if_neg hid, if_neg hteam, hmissing]
    simp only [hserver]
  rw [Invites, hinvite]
  rintro ⟨-, hall⟩
  by_cases hself : w.loginSession i i = true
  · rw [if_pos hself] at hall
    -- the request comes back unanswered, and the inviter is told so
    have hrun : Transition.run w.step (quiet.post i (some [.login i (.requestInviteTeam
        inviter.qwPyayerId invitee.qwPyayerId inviter.qwTeamId inviter.dwTeamServerId)]))
        [⟨i, i, .requestInviteTeam inviter.qwPyayerId invitee.qwPyayerId inviter.qwTeamId
          inviter.dwTeamServerId⟩,
        ⟨i, i, .ackInviteTeam .cannotFindPlayer inviter.qwPyayerId invitee.qwPyayerId⟩] =
        some ⟨[], [(i, own, .ackInviteTeam .cannotFindPlayer)], false⟩ := by
      simp [Transition.run, step, quiet, Exchange.post, onLogin, onLoginRequestLoginInviteTeam,
        hmissing, onLoginAckLoginInviteTeam, hinviter, Player.send, hown]
    obtain ⟨-, session, -, hgot⟩ := hall _ _ hrun rfl
    cases hgot
  · rw [if_neg hself, Player.send, hown] at hall
    obtain ⟨-, session, -, hgot⟩ := hall [] _ rfl rfl
    cases hgot

include hw hinviter hinvitee in
/-- The refusal goes through the player that has not been found, or nowhere. -/
theorem not_refuses_of_ne (h : i ≠ j) : ¬ w.Refuses i j inviter invitee := by
  intro hall
  have hmissing := hw.getPlayer_eq_none hinviter h
  have hgood := hall []
  rw [refuse, onPlayerRequestLoginRefuseEnterTeam, hinvitee] at hgood
  simp only [hmissing, hw.redisGetServerId_eq hinviter] at hgood
  by_cases hlink : w.loginSession j i = true
  · rw [if_pos hlink, leads_iff_of_flight_nil rfl] at hgood
    have hcrashed : true = false := hgood.1
    cases hcrashed
  · rw [if_neg hlink, leads_iff_of_flight_nil rfl] at hgood
    obtain ⟨-, session, -, hgot⟩ := hgood
    cases hgot

end Placed

/-- Invitations and refusals are routed on one login server and not between two, whatever sessions
the servers have with each other. -/
theorem routed_iff_same_server (hw : w.Accurate)
    (hinviter : w.getPlayer i inviter.qwPyayerId = some inviter)
    (hinvitee : w.getPlayer j invitee.qwPyayerId = some invitee)
    (hteam : inviter.qwTeamId ≠ 0) (hfree : invitee.qwTeamId = 0) :
    w.Routed i j inviter invitee ↔ i = j := by
  constructor
  · intro hrouted
    by_contra h
    exact not_invites_of_ne hw hinviter hinvitee hteam h hrouted.invites
  · intro h
    constructor
    · exact invites_of_eq hw hinviter hinvitee hteam hfree h
    · exact refuses_of_eq hw hinviter hinvitee h

/-! ### Players on servers that all know each other -/

/-- The world in which the players are where `place` puts them. -/
def ofPlace (place : PlayerId → Option (ServerId × Player)) : LoginWorld where
  login i p := (place p).bind fun q => if q.1 = i then some q.2 else none
  online p := (place p).map Prod.fst
  loginSession i j := i != j

theorem accurate_ofPlace {place : PlayerId → Option (ServerId × Player)}
    (h : ∀ p q, place p = some q → q.2.pSession.isSome) : (ofPlace place).Accurate := by
  constructor
  · intro i p
    cases hplace : place p with
    | none => simp [ofPlace, getPlayer, PlayerManager.getPlayer, hplace]
    | some q => simp [ofPlace, getPlayer, PlayerManager.getPlayer, hplace]
  · intro i p player hplayer
    obtain ⟨q, hq, hq'⟩ := Option.bind_eq_some_iff.mp hplayer
    by_cases hi : q.1 = i
    · rw [if_pos hi] at hq'
      obtain rfl := Option.some.inj hq'
      exact h p q hq
    · rw [if_neg hi] at hq'
      cases hq'

def leader : Player := ⟨some 0, 1, .teamCompleted, 5, 20001⟩

def guest : Player := ⟨some 1, 2, .idle, 0, 0⟩

/-- The player 1 with a team on the first login server and the player 2 without one on `j`. -/
def twoPlayers (j : ServerId) : LoginWorld :=
  ofPlace fun p => if p = 1 then some (10001, leader) else if p = 2 then some (j, guest) else none

theorem accurate_twoPlayers (j : ServerId) : (twoPlayers j).Accurate := by
  apply accurate_ofPlace
  intro p q hq
  split_ifs at hq
  · obtain rfl := Option.some.inj hq
    rfl
  · obtain rfl := Option.some.inj hq
    rfl

theorem routed_iff_same_server_two :
    (twoPlayers 10001).Accurate ∧ ((twoPlayers 10001).Routed 10001 10001 leader guest ↔
      (10001 : ServerId) = 10001) :=
  ⟨accurate_twoPlayers 10001, routed_iff_same_server (accurate_twoPlayers 10001) rfl rfl
    (by decide) rfl⟩

/-- Two players on two login servers that have sessions with each other. -/
theorem not_routed_of_two_servers :
    ¬ ∀ (w : LoginWorld) (i j : ServerId) (inviter invitee : Player), w.Accurate →
      (∀ i' j', i' ≠ j' → w.loginSession i' j' = true) →
      w.getPlayer i inviter.qwPyayerId = some inviter →
      w.getPlayer j invitee.qwPyayerId = some invitee →
      inviter.qwTeamId ≠ 0 → invitee.qwTeamId = 0 → w.Routed i j inviter invitee := by
  intro hall
  have hrouted := hall (twoPlayers 10002) 10001 10002 leader guest (accurate_twoPlayers 10002)
    (fun i' j' h => by simpa [twoPlayers, ofPlace] using h) rfl rfl (by decide) rfl
  exact not_refuses_of_ne (accurate_twoPlayers 10002) (by rfl) (by rfl) (by decide)
    hrouted.refuses

end LoginWorld

end WebGame
