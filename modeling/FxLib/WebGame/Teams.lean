import Mathlib.Data.List.Nodup
import FxLib.Lib.Transition
import FxLib.WebGame.Membership
import FxLib.WebGame.Team

/-!
# Login servers and team servers

Players make, enter and leave teams over several login and team servers, go offline, and start
games. Between two servers messages arrive in the order in which they were sent, and in no order
otherwise.
-/

namespace WebGame

/-- Which servers have a session with each other. -/
structure Links where
  team : ServerId → ServerId → Bool
  login : ServerId → ServerId → Bool

/-- `given` are the team ids that redis has given so far. -/
structure Teams where
  login : ServerId → PlayerManager
  team : ServerId → TeamServer
  online : PlayerId → Option ServerId
  given : List TeamId
  flight : List Envelope

/-- Both go over one connection, the one after the other. -/
def Envelope.sameChannel (e e' : Envelope) : Bool :=
  e.src = e'.src && e.dst = e'.dst && match e.msg, e'.msg with
    | .request _, .request _ => true
    | .answer _, .answer _ => true
    | .inviteTeam .., .inviteTeam .. => true
    | .inviteTeam .., .ackInviteTeam .. => true
    | .ackInviteTeam .., .inviteTeam .. => true
    | .ackInviteTeam .., .ackInviteTeam .. => true
    | _, _ => false

namespace Teams

inductive Label where
  | login (serverId : ServerId) (pSession : Nat) (qwPlayerId : PlayerId)
  /-- The session of a player closes. -/
  | close (serverId : ServerId) (qwPlayerId : PlayerId)
  /-- The request goes to the team server that is next in turn. What redis answers to the `incr`
  need not be an integer. -/
  | makeTeam (serverId : ServerId) (qwPlayerId : PlayerId) (teamServerId : ServerId)
      (incr : Option TeamId)
  | inviteTeam (serverId : ServerId) (qwPlayerId qwInviteeId : PlayerId)
  | enterTeam (serverId : ServerId) (qwPlayerId : PlayerId) (teamServerId : ServerId)
      (qwTeamId : TeamId)
  | leaveTeam (serverId : ServerId) (qwPlayerId : PlayerId)
  | gameStart (serverId : ServerId) (qwPlayerId : PlayerId)
  /-- The message at a place of the list arrives; the team server may have a game manager. -/
  | deliver (index : Nat) (gameManager : Bool)
  /-- A game manager answers. -/
  | gameManager (teamServerId : ServerId) (qwTeamId : TeamId) (success : Bool)

def start : Teams := ⟨fun _ _ => none, fun _ => ⟨fun _ => none, []⟩, fun _ => none, [], []⟩

def send (s : Teams) (mail : List Envelope) : Teams := { s with flight := s.flight ++ mail }

def onClose (links : Links) (s : Teams) (i : ServerId) (qwPlayerId : PlayerId)
    (player : Player) : Teams :=
  let kick := (player.kickRequest (links.team i)).map fun r => ⟨i, r.1, .request r.2⟩
  { s.send kick.toList with
    login := Function.update s.login i ((s.login i).onSessionClose qwPlayerId)
    online := player.setOffLine i s.online }

def onMakeTeam (links : Links) (s : Teams) (i : ServerId) (qwPlayerId : PlayerId) (j : ServerId)
    (incr : Option TeamId) (player : Player) : Teams :=
  -- `m_qwTeamId` of the query stays 0 where the answer is no integer
  match player.onPlayerRequestLoginMakeTeam (incr.getD 0) (links.team i j) with
  | none => s
  | some (player, request) =>
    { s.send [⟨i, j, .request request⟩] with
      login := Function.update s.login i (Function.update (s.login i) qwPlayerId (some player))
      given := s.given ++ incr.toList }

/-- Where the invitee is, redis is asked with the id of the player that invites. -/
def onInviteTeam (links : Links) (s : Teams) (i : ServerId) (qwInviteeId : PlayerId)
    (player : Player) : Teams :=
  let j := (s.online player.qwPyayerId).getD 0
  if player.onPlayerRequestLoginInviteTeam qwInviteeId
      ((s.login i).getPlayer qwInviteeId).isSome && links.login i j then
    s.send [⟨i, j, .inviteTeam player.qwPyayerId qwInviteeId⟩]
  else s

def onEnterTeam (links : Links) (s : Teams) (i j : ServerId) (qwTeamId : TeamId)
    (player : Player) : Teams :=
  if links.team i j = true then s.send [⟨i, j, .request (.enterTeam player.qwPyayerId qwTeamId)⟩]
  else s

def onLeaveTeam (links : Links) (s : Teams) (i : ServerId) (player : Player) : Teams :=
  if links.team i player.dwTeamServerId = true then
    s.send [⟨i, player.dwTeamServerId,
      .request (.playerLeave player.qwPyayerId player.qwTeamId)⟩]
  else s

def onGameStart (links : Links) (s : Teams) (i : ServerId) (player : Player) : Teams :=
  if links.team i player.dwTeamServerId = true then
    s.send [⟨i, player.dwTeamServerId,
      .request (.gameStart player.qwPyayerId player.qwTeamId)⟩]
  else s

/-- The answers of the team server `j` on their way. -/
def answers (j : ServerId) (out : List (ServerId × TeamAckLogin)) : List Envelope :=
  out.map fun a => ⟨j, a.1, .answer a.2⟩

def onMessage (links : Links) (gameManager : Bool) (s : Teams) (e : Envelope) : Teams :=
  match e.msg with
  | .request r =>
    let result := (s.team e.dst).onRequest (links.team · e.dst) e.src gameManager r
    { s.send (answers e.dst result.2) with
      team := Function.update s.team e.dst result.1 }
  | .answer a => { s with
      login := Function.update s.login e.dst ((s.login e.dst).onAnswer e.src a) }
  | .inviteTeam qwInviteId qwInviteeId =>
    match (s.login e.dst).getPlayer qwInviteeId with
    | none => s.send [⟨e.dst, e.src, .ackInviteTeam qwInviteId qwInviteeId⟩]
    | some player =>
      if player.qwTeamId ≠ 0 then
        s.send [⟨e.dst, e.src, .ackInviteTeam qwInviteId qwInviteeId⟩]
      else s
  | .ackInviteTeam .. => s

def step (links : Links) (s : Teams) : Label → Option Teams
  | .login i pSession p => some { s with
      login := Function.update s.login i ((s.login i).onPlayerLogin pSession p).2
      online := Function.update s.online p (some i) }
  | .close i p => ((s.login i).getPlayer p).map (s.onClose links i p)
  | .makeTeam i p j incr => ((s.login i).getPlayer p).map (s.onMakeTeam links i p j incr)
  | .inviteTeam i p q => ((s.login i).getPlayer p).map (s.onInviteTeam links i q)
  | .enterTeam i p j t => ((s.login i).getPlayer p).map (s.onEnterTeam links i j t)
  | .leaveTeam i p => ((s.login i).getPlayer p).map (s.onLeaveTeam links i)
  | .gameStart i p => ((s.login i).getPlayer p).map (s.onGameStart links i)
  | .deliver n gameManager =>
    match s.flight[n]? with
    | none => none
    | some e =>
      if (s.flight.take n).any e.sameChannel then none
      else some (onMessage links gameManager { s with flight := s.flight.eraseIdx n } e)
  | .gameManager j t success =>
    if t ∈ (s.team j).starting then
      let result := (s.team j).onGameManagerAckTeamGameStart (links.team · j) t success
      some { s.send (answers j result.2) with team := Function.update s.team j result.1 }
    else none

/-- What there is about a player. -/
def view (s : Teams) (p : PlayerId) : View :=
  ⟨fun i => (s.login i).getPlayer p, fun j t => (s.team j).Member t p,
    s.flight.filter (·.msg.about = some p)⟩

/-- The condition on a step. -/
def Orderly (links : Links) (s : Teams) : Label → Prop
  | .login i _ p => (s.login i).getPlayer p = none →
      (∀ j, (s.login j).getPlayer p = none) ∧ (∀ e ∈ s.flight, e.msg.adds p = false) ∧
        ∀ j t, (s.team j).Member t p → (s.view p).Erasing p j t
  | .makeTeam i p j incr => ∀ player, (s.login i).getPlayer p = some player →
      player.qwTeamId = 0 → player.eState = .idle → links.team i j = true →
        (∀ e ∈ s.flight, e.msg.about ≠ some p) ∧ ∃ t, incr = some t ∧ t ≠ 0 ∧ t ∉ s.given
  | .enterTeam i p j _ => ∀ player, (s.login i).getPlayer p = some player →
      links.team i j = true → player.qwTeamId = 0 ∧ ∀ e ∈ s.flight, e.msg.about ≠ some p
  | .leaveTeam i p => ∀ player, (s.login i).getPlayer p = some player →
      links.team i player.dwTeamServerId = true → player.qwTeamId ≠ 0
  | .deliver n _ => ∀ e, s.flight[n]? = some e → ∀ r p t, e.msg = .answer (.enterTeam r p t) →
      ((s.login e.dst).getPlayer p).isSome → r = .none
  | .gameManager j t success => success = true → ∀ p i, (s.team j).Member t p →
      ((s.login i).getPlayer p).isSome → (s.view p).Erasing p j t
  | _ => True

/-- The ids of the teams that are about to be made. -/
def making (s : Teams) : List TeamId := s.flight.filterMap (·.msg.makeId)

/-- A team that is about to be made is not there yet. -/
structure Fresh (s : Teams) : Prop where
  made : ∀ j t, ((s.team j).getTeam t).isSome → t ≠ 0 ∧ t ∈ s.given
  next : ∀ t ∈ s.making, t ≠ 0 ∧ t ∈ s.given ∧ ∀ j, (s.team j).getTeam t = none
  nodup : s.making.Nodup

structure Kept (s : Teams) : Prop where
  view : ∀ p, (s.view p).Kept p
  fresh : s.Fresh

variable {links : Links} {s s' : Teams} {p q : PlayerId}

theorem kept_view {player : ServerId → Option Player} {member : ServerId → TeamId → Prop}
    {mail : List Envelope} (h : View.Kept p ⟨player, member, mail⟩)
    (hplayer : ∀ i, (s.login i).getPlayer p = player i)
    (hmember : ∀ j t, (s.team j).Member t p ↔ member j t)
    (hmail : s.flight.filter (·.msg.about = some p) = mail) : (s.view p).Kept p := by
  have hplayer' : (fun i => (s.login i).getPlayer p) = player := funext hplayer
  have hmember' : (fun j t => (s.team j).Member t p) = member :=
    funext fun j => funext fun t => propext (hmember j t)
  rw [Teams.view, hplayer', hmember', hmail]
  exact h

/-- A step that is not about the player. -/
theorem kept_other (h : (s.view p).Kept p)
    (hplayer : ∀ i, (s'.login i).getPlayer p = (s.login i).getPlayer p)
    (hmember : ∀ j t, (s'.team j).Member t p ↔ (s.team j).Member t p)
    (hmail : s'.flight.filter (·.msg.about = some p) = s.flight.filter (·.msg.about = some p)) :
    (s'.view p).Kept p :=
  kept_view h hplayer hmember hmail

theorem getPlayer_update (login : ServerId → PlayerManager) (i : ServerId) (m : PlayerManager)
    (k : ServerId) : (Function.update login i m k).getPlayer p =
      Function.update (fun k => (login k).getPlayer p) i (m.getPlayer p) k := by
  by_cases hk : k = i
  · subst hk
    simp
  · simp [hk]

/-- The players of one server change, but not `p`. -/
theorem getPlayer_update_of_eq {login : ServerId → PlayerManager} {i : ServerId}
    {m : PlayerManager} (hm : m.getPlayer p = (login i).getPlayer p) (k : ServerId) :
    (Function.update login i m k).getPlayer p = (login k).getPlayer p := by
  rw [getPlayer_update, hm, Function.update_eq_self]

theorem member_update_of_iff {team : ServerId → TeamServer} {j : ServerId} {server : TeamServer}
    (hserver : ∀ t, server.Member t p ↔ (team j).Member t p) (k : ServerId) (t : TeamId) :
    (Function.update team j server k).Member t p ↔ (team k).Member t p := by
  by_cases hk : k = j
  · subst hk
    rw [Function.update_self]
    exact hserver t
  · rw [Function.update_of_ne hk]

theorem filter_append_of_none (flight : List Envelope) {mail : List Envelope}
    (hmail : ∀ e ∈ mail, e.msg.about ≠ some p) :
    (flight ++ mail).filter (·.msg.about = some p) = flight.filter (·.msg.about = some p) := by
  have hnil : mail.filter (·.msg.about = some p) = [] :=
    List.filter_eq_nil_iff.mpr (by simpa using hmail)
  rw [List.filter_append, hnil, List.append_nil]

theorem filter_append_one {flight : List Envelope} {e : Envelope} (he : e.msg.about = some p) :
    (flight ++ [e]).filter (·.msg.about = some p) =
      flight.filter (·.msg.about = some p) ++ [e] := by
  simp [List.filter_append, he]

theorem Kept.mail_nil (hsilent : ∀ e ∈ s.flight, e.msg.about ≠ some p) :
    (s.view p).mail = [] := by
  rw [Teams.view, List.filter_eq_nil_iff]
  simpa using hsilent

/-- Who is found knows its id. -/
theorem Kept.named (h : Kept s) {i : ServerId} {player : Player}
    (hpl : (s.login i).getPlayer p = some player) : player.qwPyayerId = p :=
  (((h.view p).fits i player hpl).named)

theorem kept_start : Kept start := by
  refine ⟨fun p => ⟨fun i j pl pl' hpl => ?_, fun j t hm => ?_, fun e he => ?_,
    fun i pl hpl => ?_⟩, fun j t ht => ?_, fun t ht => ?_, ?_⟩
  · simp [Teams.view, start, PlayerManager.getPlayer] at hpl
  · simp [Teams.view, start, TeamServer.Member, TeamServer.getTeam] at hm
  · simp [Teams.view, start] at he
  · simp [Teams.view, start, PlayerManager.getPlayer] at hpl
  · simp [start, TeamServer.getTeam] at ht
  · simp [making, start] at ht
  · simp [making, start]

/-- The teams stay, and no more are about to be made. -/
theorem Fresh.of_sublist (h : Fresh s)
    (hteam : ∀ j t, ((s'.team j).getTeam t).isSome → ((s.team j).getTeam t).isSome)
    (hmaking : s'.making.Sublist s.making) (hgiven : s'.given = s.given) : Fresh s' := by
  refine ⟨fun j t ht => hgiven ▸ h.made j t (hteam j t ht), fun t ht => ?_,
    h.nodup.sublist hmaking⟩
  obtain ⟨hpos, hmem, hnone⟩ := h.next t (hmaking.subset ht)
  refine ⟨hpos, hgiven ▸ hmem, fun j => ?_⟩
  by_contra hsome
  have hbefore := hteam j t (Option.isSome_iff_ne_none.mpr hsome)
  simp [hnone j] at hbefore

/-- Mail that makes no team is sent. -/
theorem Fresh.of_append (h : Fresh s) {mail : List Envelope}
    (hflight : s'.flight = s.flight ++ mail) (hmail : ∀ e ∈ mail, e.msg.makeId = none)
    (hteam : ∀ j t, ((s'.team j).getTeam t).isSome → ((s.team j).getTeam t).isSome)
    (hgiven : s'.given = s.given) : Fresh s' := by
  have hsame : s'.making = s.making := by
    rw [making, hflight, List.filterMap_append, List.filterMap_eq_nil_iff.mpr hmail,
      List.append_nil]
    rfl
  exact h.of_sublist hteam (hsame ▸ List.Sublist.refl _) hgiven

theorem Kept.login (h : Kept s) {i : ServerId} {pSession : Nat}
    (hord : Orderly links s (.login i pSession p))
    (hstep : step links s (.login i pSession p) = some s') : Kept s' := by
  obtain rfl := Option.some.inj hstep
  refine ⟨fun q => ?_, h.fresh.of_sublist (fun _ _ ht => ht) (List.Sublist.refl _) rfl⟩
  by_cases hq : q = p
  · subst hq
    have hself := fun k => (getPlayer_update s.login i
      ((s.login i).onPlayerLogin pSession q).2 k).trans
        (by rw [PlayerManager.onPlayerLogin_self])
    cases hpl : (s.login i).getPlayer q with
    | none =>
      obtain ⟨hoff, hadds, hleft⟩ := hord hpl
      rw [hpl] at hself
      exact kept_view ((h.view q).login rfl ⟨rfl, rfl, rfl⟩ (fun j _ => hoff j)
        (fun e he => hadds e (List.mem_filter.mp he).1) hleft) hself (fun _ _ => Iff.rfl) rfl
    | some pl =>
      rw [hpl] at hself
      have hname : (pl.onPlayerRequestLogin pSession q).qwPyayerId = q := rfl
      exact kept_view ((h.view q).relogin hpl hname rfl rfl rfl) hself (fun _ _ => Iff.rfl) rfl
  · exact kept_other (h.view q) (getPlayer_update_of_eq
      (PlayerManager.onPlayerLogin_of_ne _ _ _ hq)) (fun _ _ => Iff.rfl) rfl

theorem Kept.close (h : Kept s) {i : ServerId}
    (hstep : step links s (.close i p) = some s') : Kept s' := by
  obtain ⟨pl, hpl, rfl⟩ := Option.map_eq_some_iff.mp hstep
  have hname := h.named hpl
  have hmail : ∀ e ∈ ((pl.kickRequest (links.team i)).map fun r =>
      (⟨i, r.1, .request r.2⟩ : Envelope)).toList, pl.qwTeamId ≠ 0 ∧
        e.msg = .request (.kickPlayer p pl.qwTeamId) := by
    intro e he
    rw [Player.kickRequest] at he
    split_ifs at he with hkick
    · have heq : e = ⟨i, pl.dwTeamServerId, .request (.kickPlayer pl.qwPyayerId pl.qwTeamId)⟩ := by
        simpa using he
      rw [heq, hname]
      exact ⟨hkick.1, rfl⟩
    · cases he
  refine ⟨fun q => ?_, h.fresh.of_append rfl (fun e he => ?_) (fun _ _ ht => ht) rfl⟩
  · by_cases hq : q = p
    · subst hq
      refine kept_view ((h.view q).close hpl (fun hzero => List.filter_eq_nil_iff.mpr
        fun e he => absurd hzero (hmail e he).1) fun e he => ?_) (fun k => ?_)
          (fun _ _ => Iff.rfl) (List.filter_append _ _)
      · rw [(hmail e (List.mem_filter.mp he).1).2]
        rfl
      · exact (getPlayer_update s.login i _ k).trans (by
          rw [PlayerManager.onSessionClose_self]; rfl)
    · refine kept_other (h.view q) (getPlayer_update_of_eq
        (PlayerManager.onSessionClose_of_ne _ _ hq)) (fun _ _ => Iff.rfl)
          (filter_append_of_none _ fun e he => ?_)
      rw [(hmail e he).2]
      exact fun hc => hq (Option.some.inj hc).symm
  · rw [(hmail e he).2]
    rfl

theorem onMakeTeam_cases (links : Links) (s : Teams) (p : PlayerId) (i j : ServerId)
    (incr : Option TeamId) (player : Player) :
    s.onMakeTeam links i p j incr player = s ∨
      player.qwTeamId = 0 ∧ player.eState = .idle ∧ links.team i j = true ∧
        s.onMakeTeam links i p j incr player =
          { s.send [⟨i, j, .request (.makeTeam player.qwPyayerId (incr.getD 0))⟩] with
            login := Function.update s.login i
              (Function.update (s.login i) p (some (player.setState .makeTeam)))
            given := s.given ++ incr.toList } := by
  rw [onMakeTeam, Player.onPlayerRequestLoginMakeTeam]
  by_cases hteam : player.qwTeamId ≠ 0
  · rw [if_pos hteam]
    exact .inl rfl
  by_cases hidle : player.eState ≠ .idle
  · rw [if_neg hteam, if_pos hidle]
    exact .inl rfl
  by_cases hlink : links.team i j = false
  · rw [if_neg hteam, if_neg hidle, if_pos hlink]
    exact .inl rfl
  · rw [if_neg hteam, if_neg hidle, if_neg hlink]
    exact .inr ⟨not_not.mp hteam, not_not.mp hidle, by simpa using hlink, rfl⟩

/-- An id that redis has not given before is no team's. -/
theorem Fresh.make (h : Fresh s) {i j : ServerId} {login : ServerId → PlayerManager} {t : TeamId}
    (hzero : t ≠ 0) (hnew : t ∉ s.given) :
    Fresh { s.send [⟨i, j, .request (.makeTeam p t)⟩] with
      login := login, given := s.given ++ [t] } := by
  have hmaking : making { s.send [⟨i, j, .request (.makeTeam p t)⟩] with
      login := login, given := s.given ++ [t] } = s.making ++ [t] := by
    simp [making, send, Message.makeId]
  have hnone : ∀ k, (s.team k).getTeam t = none := by
    intro k
    by_contra hsome
    exact hnew (h.made k t (Option.isSome_iff_ne_none.mpr hsome)).2
  refine ⟨fun k u hu => ?_, fun u hu => ?_, ?_⟩
  · obtain ⟨hpos, hmem⟩ := h.made k u hu
    exact ⟨hpos, List.mem_append_left _ hmem⟩
  · rw [hmaking, List.mem_append, List.mem_singleton] at hu
    rcases hu with hu | rfl
    · obtain ⟨hpos, hmem, hteam⟩ := h.next u hu
      exact ⟨hpos, List.mem_append_left _ hmem, hteam⟩
    · exact ⟨hzero, List.mem_append_right _ (List.mem_singleton_self _), hnone⟩
  · rw [hmaking, List.nodup_append]
    refine ⟨h.nodup, by simp, fun u hu v hv huv => ?_⟩
    have hmem := (h.next u hu).2.1
    rw [huv, List.mem_singleton.mp hv] at hmem
    exact hnew hmem

/-- One message about `p` is sent, by a step that changes nobody else. -/
theorem kept_others (h : Kept s) {e : Envelope} (he : e.msg.about = some p) (hq : q ≠ p)
    {m : PlayerManager} {i : ServerId} (hm : m.getPlayer q = (s.login i).getPlayer q)
    (hlogin : s'.login = Function.update s.login i m) (hteam : s'.team = s.team)
    (hflight : s'.flight = s.flight ++ [e]) : (s'.view q).Kept q := by
  refine kept_other (h.view q) (fun k => ?_) (fun j t => by rw [hteam]) ?_
  · rw [hlogin]
    exact getPlayer_update_of_eq hm k
  · rw [hflight]
    refine filter_append_of_none _ fun e' he' hc => ?_
    rw [List.mem_singleton.mp he', he] at hc
    exact hq (Option.some.inj hc).symm

theorem Kept.makeTeam (h : Kept s) {i j : ServerId} {incr : Option TeamId}
    (hord : Orderly links s (.makeTeam i p j incr))
    (hstep : step links s (.makeTeam i p j incr) = some s') : Kept s' := by
  obtain ⟨pl, hpl, rfl⟩ := Option.map_eq_some_iff.mp hstep
  rcases onMakeTeam_cases links s p i j incr pl with hsame | ⟨hzero, hidle, hlink, hmake⟩
  · rw [hsame]
    exact h
  · obtain ⟨hsilent, t, rfl, hpos, hnew⟩ := hord pl hpl hzero hidle hlink
    rw [hmake, h.named hpl]
    refine ⟨fun q => ?_, h.fresh.make hpos hnew⟩
    have hnil := Kept.mail_nil hsilent
    by_cases hq : q = p
    · subst hq
      have hname : (pl.setState .makeTeam).qwPyayerId = pl.qwPyayerId := rfl
      have hask := (h.view q).ask hpl hnil hzero
        (e := ⟨i, j, .request (.makeTeam q t)⟩) rfl
        (fun k j' u hj => by simp [View.Joined] at hj) hname rfl rfl
        (.inr ⟨rfl, by simp [Message.makes]⟩)
      refine kept_view hask (fun k => (getPlayer_update s.login i _ k).trans ?_)
        (fun _ _ => Iff.rfl) ?_
      · simp [PlayerManager.getPlayer, Teams.view]
      · exact (filter_append_one rfl).trans (congrArg (· ++ _) hnil)
    · exact kept_others h (p := p) rfl hq (by simp [PlayerManager.getPlayer, hq]) rfl rfl rfl

theorem makeId_of_about {m : Message} (h : m.about = none) : m.makeId = none := by
  cases m with
  | request r =>
    cases r with
    | makeTeam => cases h
    | kickPlayer | gameStart | enterTeam | playerLeave => rfl
  | answer | inviteTeam | ackInviteTeam => rfl

/-- Mail that is about nobody is sent. -/
theorem Kept.send (h : Kept s) {mail : List Envelope} (hmail : ∀ e ∈ mail, e.msg.about = none) :
    Kept (s.send mail) :=
  ⟨fun q => kept_other (h.view q) (fun _ => rfl) (fun _ _ => Iff.rfl)
    (filter_append_of_none _ fun e he => by simp [hmail e he]),
      h.fresh.of_append rfl (fun e he => makeId_of_about (hmail e he)) (fun _ _ ht => ht) rfl⟩

theorem Kept.inviteTeam (h : Kept s) {i : ServerId}
    (hstep : step links s (.inviteTeam i p q) = some s') : Kept s' := by
  obtain ⟨pl, -, rfl⟩ := Option.map_eq_some_iff.mp hstep
  rw [onInviteTeam]
  split_ifs
  · exact h.send fun e he => by rw [List.mem_singleton.mp he]; rfl
  · exact h

theorem Kept.gameStart (h : Kept s) {i : ServerId}
    (hstep : step links s (.gameStart i p) = some s') : Kept s' := by
  obtain ⟨pl, -, rfl⟩ := Option.map_eq_some_iff.mp hstep
  rw [onGameStart]
  split_ifs
  · exact h.send fun e he => by rw [List.mem_singleton.mp he]; rfl
  · exact h

theorem Kept.enterTeam (h : Kept s) {i j : ServerId} {t : TeamId}
    (hord : Orderly links s (.enterTeam i p j t))
    (hstep : step links s (.enterTeam i p j t) = some s') : Kept s' := by
  obtain ⟨pl, hpl, rfl⟩ := Option.map_eq_some_iff.mp hstep
  rw [onEnterTeam]
  split_ifs with hlink
  · obtain ⟨hzero, hsilent⟩ := hord pl hpl hlink
    have hnil := Kept.mail_nil hsilent
    have hidle : pl.eState = .idle := by
      rcases (((h.view p).fits i pl hpl).idle hzero).2 with hidle | ⟨-, e, he, -⟩
      · exact hidle
      · rw [hnil] at he
        cases he
    rw [h.named hpl]
    refine ⟨fun q => ?_, h.fresh.of_append rfl (fun e he => ?_) (fun _ _ ht => ht) rfl⟩
    · by_cases hq : q = p
      · subst hq
        have hnew := (h.view q).ask hpl hnil hzero (e := ⟨i, j, .request (.enterTeam q t)⟩) rfl
          (fun k j' t' hj => by simp [View.Joined] at hj) rfl rfl rfl (.inl hidle)
        refine kept_view hnew (fun k => ?_) (fun _ _ => Iff.rfl) ?_
        · rw [← hpl]
          exact (congrFun (Function.update_eq_self i (s.view q).player) k).symm
        · exact (filter_append_one rfl).trans (congrArg (· ++ _) hnil)
      · exact kept_others h (p := p) (i := i) rfl hq rfl (Function.update_eq_self i s.login).symm
          rfl rfl
    · rw [List.mem_singleton.mp he]
      rfl
  · exact h

theorem Kept.leaveTeam (h : Kept s) {i : ServerId} (hord : Orderly links s (.leaveTeam i p))
    (hstep : step links s (.leaveTeam i p) = some s') : Kept s' := by
  obtain ⟨pl, hpl, rfl⟩ := Option.map_eq_some_iff.mp hstep
  rw [onLeaveTeam]
  split_ifs with hlink
  · rw [h.named hpl]
    refine ⟨fun q => ?_, h.fresh.of_append rfl (fun e he => ?_) (fun _ _ ht => ht) rfl⟩
    · by_cases hq : q = p
      · subst hq
        exact kept_view ((h.view q).leave hpl (hord pl hpl hlink)) (fun _ => rfl)
          (fun _ _ => Iff.rfl) (filter_append_one rfl)
      · exact kept_others h (p := p) (i := i) rfl hq rfl (Function.update_eq_self i s.login).symm
          rfl rfl
    · rw [List.mem_singleton.mp he]
      rfl
  · exact h

section Deliver

variable {pre post : List Envelope} {e : Envelope}

theorem filter_split_of_ne (hq : e.msg.about ≠ some q) :
    (pre ++ post).filter (·.msg.about = some q) =
      (pre ++ e :: post).filter (·.msg.about = some q) := by
  simp [List.filter_append, hq]

/-- The mail of the player that the message is about, before and after. -/
theorem mail_split (hflight : s.flight = pre ++ e :: post) (hp : e.msg.about = some p) :
    (s.view p).mail = pre.filter (·.msg.about = some p) ++
      e :: post.filter (·.msg.about = some p) := by
  simp [Teams.view, hflight, List.filter_append, hp]

/-- A message that adds the player to a team is all of its mail. -/
theorem Kept.mail_alone (h : Kept s) (hflight : s.flight = pre ++ e :: post)
    (hp : e.msg.about = some p) (hadd : e.msg.adds p = true) :
    (s.view p).mail = [e] ∧ (pre ++ post).filter (·.msg.about = some p) = [] := by
  have hsplit := mail_split hflight hp
  have hone := (h.view p).alone e (by simp [hsplit]) hadd
  refine ⟨hone, ?_⟩
  rw [hone] at hsplit
  have hlen := congrArg List.length hsplit
  simp only [List.length_cons, List.length_nil, List.length_append] at hlen
  rw [List.filter_append, List.append_eq_nil_iff, ← List.length_eq_zero_iff,
    ← List.length_eq_zero_iff]
  omega

theorem filter_answers {j i : ServerId} {out : List (ServerId × TeamAckLogin)}
    {ack : TeamAckLogin} (hout : out.filter TeamServer.changes = [(i, ack)])
    (hp : ack.about = some p) :
    (answers j out).filter (·.msg.about = some p) = [⟨j, i, .answer ack⟩] := by
  have hchanges : out.filter (fun a => a.2.about = some p) = [(i, ack)] := by
    have hsub : out.filter (fun a => a.2.about = some p) =
        (out.filter TeamServer.changes).filter fun a => a.2.about = some p := by
      rw [List.filter_filter]
      refine List.filter_congr fun a _ => ?_
      by_cases ha : a.2.about = some p
      · simp [TeamServer.changes, ha]
      · simp [ha]
    rw [hsub, hout]
    simp [hp]
  rw [answers, List.filter_map]
  have hsame : ((fun e : Envelope => decide (e.msg.about = some p)) ∘
      fun a : ServerId × TeamAckLogin => (⟨j, a.1, .answer a.2⟩ : Envelope)) =
        fun a => decide (a.2.about = some p) := rfl
  rw [hsame, hchanges]
  rfl

theorem filter_answers_of_ne {j : ServerId} {out : List (ServerId × TeamAckLogin)}
    (hout : ∀ a ∈ out, a.2.about ≠ some q) : ∀ e ∈ answers j out, e.msg.about ≠ some q := by
  intro e he
  obtain ⟨a, ha, rfl⟩ := List.mem_map.mp he
  exact hout a ha

theorem filterMap_answers {j : ServerId} {out : List (ServerId × TeamAckLogin)} :
    (answers j out).filterMap (·.msg.makeId) = [] := by
  rw [List.filterMap_eq_nil_iff]
  intro e he
  obtain ⟨a, -, rfl⟩ := List.mem_map.mp he
  rfl

/-- Of a flight only a part is left. -/
theorem making_sublist (hflight : s.flight = pre ++ e :: post)
    (hflight' : s'.flight = pre ++ post) : s'.making.Sublist s.making := by
  rw [making, making, hflight', hflight]
  exact List.Sublist.filterMap _ ((List.Sublist.refl _).append (List.sublist_cons_self _ _))

/-- A message about nobody is read. -/
theorem Kept.discard (h : Kept s) (hflight : s.flight = pre ++ e :: post)
    (he : e.msg.about = none) : Kept { s with flight := pre ++ post } := by
  refine ⟨fun q => kept_other (h.view q) (fun _ => rfl) (fun _ _ => Iff.rfl) ?_,
    h.fresh.of_sublist (fun _ _ ht => ht) (making_sublist hflight rfl) rfl⟩
  rw [hflight]
  exact filter_split_of_ne (by simp [he])

theorem Fresh.onRequest (h : Fresh s) {r : LoginRequestTeam} (hmsg : e.msg = .request r)
    (hflight : s.flight = pre ++ e :: post) (gameManager : Bool) :
    Fresh (onMessage links gameManager { s with flight := pre ++ post } e) := by
  rw [onMessage, hmsg]
  set result := (s.team e.dst).onRequest (links.team · e.dst) e.src gameManager r with hresult
  have hteam : ∀ j t, ((Function.update s.team e.dst result.1 j).getTeam t).isSome →
      ((s.team j).getTeam t).isSome ∨ ∃ p, r = .makeTeam p t := by
    intro j t ht
    by_cases hj : j = e.dst
    · subst hj
      rw [Function.update_self] at ht
      exact TeamServer.isSome_onRequest gameManager r ht
    · rw [Function.update_of_ne hj] at ht
      exact .inl ht
  have hmade : ∀ p t, r = .makeTeam p t → t ∈ s.making := by
    rintro p t rfl
    rw [making, hflight, List.mem_filterMap]
    exact ⟨e, by simp, by rw [hmsg]; rfl⟩
  have hmaking : (pre ++ post ++ answers e.dst result.2).filterMap (·.msg.makeId) =
      (pre ++ post).filterMap (·.msg.makeId) := by
    rw [List.filterMap_append, filterMap_answers, List.append_nil]
  have hsub : (making { s with flight := pre ++ post }).Sublist s.making :=
    making_sublist hflight rfl
  rw [making] at hsub
  rw [← hmaking] at hsub
  refine ⟨fun j t ht => ?_, fun t ht => ?_, h.nodup.sublist hsub⟩
  · rcases hteam j t ht with hbefore | ⟨p, hp⟩
    · exact h.made j t hbefore
    · obtain ⟨hpos, hle, -⟩ := h.next t (hmade p t hp)
      exact ⟨hpos, hle⟩
  · obtain ⟨hpos, hle, hnone⟩ := h.next t (hsub.subset ht)
    refine ⟨hpos, hle, fun j => ?_⟩
    by_contra hsome
    rcases hteam j t (Option.isSome_iff_ne_none.mpr hsome) with hbefore | ⟨p, rfl⟩
    · simp [hnone j] at hbefore
    · have hnodup := h.nodup
      rw [making, hflight, List.filterMap_append, List.filterMap_cons, hmsg] at hnodup
      have hnot := (List.nodup_cons.mp (List.nodup_middle.mp hnodup)).1
      rw [← List.filterMap_append, ← hmaking] at hnot
      exact hnot ht

theorem member_update_add {team : ServerId → TeamServer} {j : ServerId} {server : TeamServer}
    {t : TeamId} (hserver : ∀ u, server.Member u p ↔ (team j).Member u p ∨ u = t) (k : ServerId)
    (u : TeamId) : (Function.update team j server k).Member u p ↔
      (team k).Member u p ∨ True ∧ k = j ∧ u = t := by
  by_cases hk : k = j
  · subst hk
    simp [hserver]
  · simp [hk]

theorem member_update_erase {team : ServerId → TeamServer} {j : ServerId} {server : TeamServer}
    {t : TeamId} (hserver : ∀ u, server.Member u p ↔ (team j).Member u p ∧ u ≠ t) (k : ServerId)
    (u : TeamId) : (Function.update team j server k).Member u p ↔
      (team k).Member u p ∧ ¬ (k = j ∧ u = t) := by
  by_cases hk : k = j
  · subst hk
    simp [hserver]
  · simp [hk]

/-- A player is let into a team. -/
theorem Kept.letIn (h : Kept s) {i j : ServerId} {t : TeamId} {r : LoginRequestTeam}
    {ack : TeamAckLogin}
    (hkind : r = .makeTeam p t ∧ ack = .makeTeam .none p t ∨
      r = .enterTeam p t ∧ ack = .enterTeam .none p t)
    (hflight : s.flight = pre ++ ⟨i, j, .request r⟩ :: post) (hpos : t ≠ 0)
    {server : TeamServer} {out : List (ServerId × TeamAckLogin)}
    (hout : out.filter TeamServer.changes = [(i, ack)])
    (hserver : ∀ u, server.Member u p ↔ (s.team j).Member u p ∨ u = t)
    (hteam : s'.team = Function.update s.team j server) (hlogin : s'.login = s.login)
    (hflight' : s'.flight = pre ++ post ++ answers j out) : (s'.view p).Kept p := by
  have hack : ack.about = some p := by
    rcases hkind with ⟨-, rfl⟩ | ⟨-, rfl⟩
    · rfl
    · rfl
  obtain ⟨habout, hadd⟩ :
      (Message.request r).about = some p ∧ (Message.request r).adds p = true := by
    rcases hkind with ⟨rfl, -⟩ | ⟨rfl, -⟩
    · simp [Message.about, LoginRequestTeam.about, Message.adds]
    · simp [Message.about, LoginRequestTeam.about, Message.adds]
  obtain ⟨hmail, hrest⟩ := h.mail_alone hflight habout hadd
  have hclient : (⟨j, i, .answer ack⟩ : Envelope).client = i := rfl
  have hlet := (h.view p).letIn hmail hadd ?_ (member_update_add hserver) (fun _ => hpos)
    hclient ?_ ?_
  · refine kept_view hlet (fun k => by rw [hlogin]; rfl) (fun k u => by rw [hteam]) ?_
    rw [hflight', List.filter_append, hrest, filter_answers hout hack]
    rfl
  · intro k j' t' hj
    simp [View.Joined, hmail] at hj
  · rcases hkind with ⟨rfl, rfl⟩ | ⟨rfl, rfl⟩
    · simp [Message.makes]
    · simp [Message.makes]
  · intro k j' t'
    rcases hkind with ⟨rfl, rfl⟩ | ⟨rfl, rfl⟩
    · simp [View.Joined, Envelope.client]
      tauto
    · simp [View.Joined, Envelope.client]
      tauto

/-- A player is not let into a team. -/
theorem Kept.refuse (h : Kept s) {i j : ServerId} {t : TeamId} {x : EErrorCode} (hx : x ≠ .none)
    (hflight : s.flight = pre ++ ⟨i, j, .request (.enterTeam p t)⟩ :: post)
    (hteam : s'.team = s.team) (hlogin : s'.login = s.login)
    (hflight' : s'.flight = pre ++ post ++ answers j [(i, .enterTeam x p t)]) :
    (s'.view p).Kept p := by
  obtain ⟨hmail, hrest⟩ := h.mail_alone hflight rfl (by simp [Message.adds])
  have hmember : ∀ k u, (s.view p).member k u ↔
      (s.view p).member k u ∨ False ∧ k = j ∧ u = t := by simp
  have hclient : (⟨j, i, .answer (.enterTeam x p t)⟩ : Envelope).client = i := rfl
  have hlet := (h.view p).letIn hmail (by simp [Message.adds]) ?_ hmember (fun hf => hf.elim)
    hclient ?_ ?_
  · refine kept_view hlet (fun k => by rw [hlogin]; rfl) (fun k u => by rw [hteam]; rfl) ?_
    rw [hflight', List.filter_append, hrest]
    simp [answers, Message.about, TeamAckLogin.about]
  · intro k j' t' hj
    simp [View.Joined, hmail] at hj
  · simp [Message.makes]
  · intro k j' t'
    simp [View.Joined, hx.symm]

/-- A player is taken out of a team. -/
theorem Kept.erase (h : Kept s) {i j : ServerId} {t : TeamId} {r : LoginRequestTeam}
    {ack : EErrorCode → TeamAckLogin} {x : EErrorCode}
    (hkind : r = .kickPlayer p t ∧ ack = (.kickPlayer · p) ∨
      r = .playerLeave p t ∧ ack = (.playerLeave · p))
    (hflight : s.flight = pre ++ ⟨i, j, .request r⟩ :: post)
    {server : TeamServer} {out : List (ServerId × TeamAckLogin)}
    (hout : out.filter TeamServer.changes = [(i, ack x)])
    (hserver : ∀ u, server.Member u p ↔ (s.team j).Member u p ∧ u ≠ t)
    (hteam : s'.team = Function.update s.team j server) (hlogin : s'.login = s.login)
    (hflight' : s'.flight = pre ++ post ++ answers j out) : (s'.view p).Kept p := by
  have hack : (ack x).about = some p := by
    rcases hkind with ⟨-, rfl⟩ | ⟨-, rfl⟩
    · rfl
    · rfl
  have habout : (Message.request r).about = some p := by
    rcases hkind with ⟨rfl, -⟩ | ⟨rfl, -⟩
    · rfl
    · rfl
  have hmsgs : (⟨i, j, .request r⟩ : Envelope) = ⟨i, j, .request (.kickPlayer p t)⟩ ∧
        (∃ y, (⟨j, i, .answer (ack x)⟩ : Envelope) = ⟨j, i, .answer (.kickPlayer y p)⟩) ∨
      (⟨i, j, .request r⟩ : Envelope) = ⟨i, j, .request (.playerLeave p t)⟩ ∧
        ∃ y, (⟨j, i, .answer (ack x)⟩ : Envelope) = ⟨j, i, .answer (.playerLeave y p)⟩ := by
    rcases hkind with ⟨rfl, rfl⟩ | ⟨rfl, rfl⟩
    · exact .inl ⟨rfl, x, rfl⟩
    · exact .inr ⟨rfl, x, rfl⟩
  have herase := (h.view p).erase (mail_split hflight habout) hmsgs (member_update_erase hserver)
  refine kept_view herase (fun k => by rw [hlogin]; rfl) (fun k u => by rw [hteam]) ?_
  rw [hflight', List.filter_append, filter_answers hout hack, List.filter_append]

/-- A message of a login server arrives at a team server. -/
theorem Kept.onRequest (h : Kept s) {i j : ServerId} {r : LoginRequestTeam}
    (hflight : s.flight = pre ++ ⟨i, j, .request r⟩ :: post) (gameManager : Bool) :
    Kept (onMessage links gameManager { s with flight := pre ++ post } ⟨i, j, .request r⟩) := by
  refine ⟨fun q => ?_, h.fresh.onRequest rfl hflight gameManager⟩
  have hnew : ∀ p t, r = .makeTeam p t → t ≠ 0 ∧ (s.team j).getTeam t = none := by
    rintro p t rfl
    have hnext := h.fresh.next t (by simp [making, hflight, Message.makeId])
    exact ⟨hnext.1, hnext.2.2 j⟩
  by_cases hq : r.about = some q
  · cases r with
    | makeTeam p t =>
      obtain rfl : p = q := Option.some.inj hq
      obtain ⟨hpos, hnone⟩ := hnew p t rfl
      exact h.letIn (.inl ⟨rfl, rfl⟩) hflight hpos TeamServer.onLoginRequestTeamMakeTeam_answers
        (fun u => (TeamServer.member_onLoginRequestTeamMakeTeam hnone).trans (by simp)) rfl rfl rfl
    | enterTeam p t =>
      obtain rfl : p = q := Option.some.inj hq
      rcases (s.team j).onLoginRequestTeamEnterTeam_cases (links.team · j) i p t with
        ⟨x, hx, hsame⟩ | ⟨hout, hteam, hmember⟩
      · refine h.refuse hx hflight ?_ rfl ?_
        · exact (congrArg (fun r => Function.update s.team j r.1) hsame).trans
            (Function.update_eq_self j s.team)
        · exact congrArg (fun r => pre ++ post ++ answers j r.2) hsame
      · exact h.letIn (.inr ⟨rfl, rfl⟩) hflight (h.fresh.made j t hteam).1 hout
          (fun u => (hmember u p).trans (by simp)) rfl rfl rfl
    | kickPlayer p t =>
      obtain rfl : p = q := Option.some.inj hq
      obtain ⟨x, hx⟩ := (s.team j).onErase_answers (links.team · j) i t (.kickPlayer · p)
        fun _ => rfl
      exact h.erase (.inl ⟨rfl, rfl⟩) hflight hx
        (fun u => (TeamServer.member_onErase _).trans (by simp)) rfl rfl rfl
    | playerLeave p t =>
      obtain rfl : p = q := Option.some.inj hq
      obtain ⟨x, hx⟩ := (s.team j).onErase_answers (links.team · j) i t (.playerLeave · p)
        fun _ => rfl
      exact h.erase (.inr ⟨rfl, rfl⟩) hflight hx
        (fun u => (TeamServer.member_onErase _).trans (by simp)) rfl rfl rfl
    | gameStart p t => cases hq
  · obtain ⟨hmember, hout⟩ := (s.team j).onRequest_other (links.team · j) i gameManager hq
      fun p t hr => (hnew p t hr).2
    refine kept_other (h.view q) (fun _ => rfl) (member_update_of_iff hmember) ?_
    have hne : (Message.request r).about ≠ some q := hq
    rw [hflight, ← filter_split_of_ne hne]
    exact filter_append_of_none _ (filter_answers_of_ne hout)

/-- The answer to a request to be in a team arrives. -/
theorem Kept.settle (h : Kept s) {i j : ServerId} {a : TeamAckLogin} {f : Player → Player}
    (hflight : s.flight = pre ++ ⟨j, i, .answer a⟩ :: post) (habout : a.about = some p)
    (hadd : (Message.answer a).adds p = true) (hname : ∀ pl, (f pl).qwPyayerId = pl.qwPyayerId)
    (hteam : ∀ pl, (s.login i).getPlayer p = some pl →
      (∀ k j' t, (s.view p).Joined p k j' t ↔ k = i ∧ j' = (f pl).dwTeamServerId ∧
          t = (f pl).qwTeamId) ∧ (f pl).eState = .teamCompleted ∨
        (∀ k j' t, ¬ (s.view p).Joined p k j' t) ∧ (f pl).qwTeamId = 0 ∧
          (f pl).dwTeamServerId = 0 ∧ (f pl).eState = .idle)
    (hlogin : s'.login = Function.update s.login i ((s.login i).modify p f))
    (hteams : s'.team = s.team) (hflight' : s'.flight = pre ++ post) : (s'.view p).Kept p := by
  obtain ⟨hmail, hrest⟩ := h.mail_alone hflight habout hadd
  have hplayer : ∀ k, (s'.login k).getPlayer p =
      Function.update (s.view p).player i (((s.login i).getPlayer p).map f) k := by
    intro k
    rw [hlogin, getPlayer_update, PlayerManager.getPlayer_modify]
    rfl
  cases hpl : (s.login i).getPlayer p with
  | none =>
    refine kept_view ((h.view p).settle_off hmail hadd hpl) (fun k => ?_)
      (fun k u => by rw [hteams]; rfl) (by rw [hflight', hrest])
    rw [hplayer, hpl, Option.map_none, ← hpl]
    exact congrFun (Function.update_eq_self i (s.view p).player) k
  | some pl =>
    refine kept_view ((h.view p).settle hmail hadd hpl (hname pl) (hteam pl hpl)) (fun k => ?_)
      (fun k u => by rw [hteams]; rfl) (by rw [hflight', hrest])
    rw [hplayer, hpl]
    rfl

/-- A message of a team server arrives at a login server. -/
theorem Kept.onAnswer (h : Kept s) {i j : ServerId} {a : TeamAckLogin}
    (hflight : s.flight = pre ++ ⟨j, i, .answer a⟩ :: post)
    (henter : ∀ r p t, a = .enterTeam r p t → ((s.login i).getPlayer p).isSome → r = .none)
    (gameManager : Bool) :
    Kept (onMessage links gameManager { s with flight := pre ++ post } ⟨j, i, .answer a⟩) := by
  refine ⟨fun q => ?_,
    h.fresh.of_sublist (fun _ _ ht => ht) (making_sublist hflight rfl) rfl⟩
  by_cases hq : a.about = some q
  · cases a with
    | makeTeam r p t =>
      obtain rfl : p = q := Option.some.inj hq
      have hmail := (h.mail_alone hflight rfl (by simp [Message.adds])).1
      refine h.settle hflight rfl (by simp [Message.adds]) (fun pl => ?_) (fun pl hpl => ?_) rfl
        rfl rfl
      · split_ifs <;> rfl
      · split_ifs with hr
        · subst hr
          refine .inl ⟨fun k j' t' => ?_, rfl⟩
          simp [View.Joined, hmail, Player.setTeamInfo, Player.setState]
          tauto
        · refine .inr ⟨fun k j' t' => ?_, rfl, rfl, rfl⟩
          simp [View.Joined, hmail, Ne.symm hr]
    | enterTeam r p t =>
      obtain rfl : p = q := Option.some.inj hq
      have hmail := (h.mail_alone hflight rfl (by simp [Message.adds])).1
      refine h.settle (f := fun pl => (pl.setState .teamCompleted).setTeamInfo t j) hflight rfl
        (by simp [Message.adds]) (fun pl => rfl) (fun pl hpl => ?_) rfl rfl rfl
      obtain rfl := henter r p t rfl (by rw [hpl]; rfl)
      refine .inl ⟨fun k j' t' => ?_, rfl⟩
      simp [View.Joined, hmail, Player.setTeamInfo, Player.setState]
      tauto
    | playerLeave r p =>
      obtain rfl : p = q := Option.some.inj hq
      have hsplit := mail_split hflight (p := p) rfl
      have hplayer := fun k => (getPlayer_update s.login i ((s.login i).onTeamAckLoginPlayerLeave p)
        k).trans (by rw [PlayerManager.onTeamAckLoginPlayerLeave, PlayerManager.getPlayer_modify])
      cases hpl : (s.login i).getPlayer p with
      | none =>
        rw [hpl, Option.map_none, ← hpl] at hplayer
        refine kept_view ((h.view p).drop hsplit (.inr ⟨⟨r, rfl⟩, hpl⟩)) (fun k => ?_)
          (fun _ _ => Iff.rfl) (List.filter_append _ _)
        exact (hplayer k).trans (congrFun (Function.update_eq_self i (s.view p).player) k)
      | some pl =>
        rw [hpl] at hplayer
        have hname : ((pl.setState .idle).setTeamInfo 0 0).qwPyayerId = pl.qwPyayerId := rfl
        exact kept_view ((h.view p).settle_leave hsplit hpl hname rfl rfl rfl) hplayer
          (fun _ _ => Iff.rfl) (List.filter_append _ _)
    | kickPlayer r p =>
      obtain rfl : p = q := Option.some.inj hq
      have hsplit := mail_split hflight (p := p) rfl
      have hdrop := (h.view p).drop hsplit (.inl ⟨r, rfl⟩)
      have hsame : (s.login i).onAnswer j (.kickPlayer r p) = s.login i ∨
          ∃ pl, (s.login i).getPlayer p = some pl ∧
            ((s.login i).onAnswer j (.kickPlayer r p)).getPlayer p =
              some (pl.setTeamInfo 0 0) := by
        rw [PlayerManager.onAnswer, PlayerManager.onTeamAckLoginKickPlayer]
        split_ifs with hr
        · exact .inl rfl
        · cases hpl : (s.login i).getPlayer p with
          | none => exact .inl (by rw [PlayerManager.modify, hpl])
          | some pl => exact .inr ⟨pl, rfl, by rw [PlayerManager.getPlayer_modify, hpl]; rfl⟩
      rcases hsame with hsame | ⟨pl, hpl, hnew⟩
      · refine kept_view hdrop (fun k => ?_) (fun _ _ => Iff.rfl) (List.filter_append _ _)
        exact getPlayer_update_of_eq (by rw [hsame]) k
      · have hfits := (h.view p).fits i pl hpl
        have hzero : pl.qwTeamId = 0 := by
          by_contra hne
          have hmem : (⟨j, i, .answer (.kickPlayer r p)⟩ : Envelope) ∈ (s.view p).mail := by
            rw [hsplit]
            simp
          exact (hfits.kicked hne _ hmem).2 r rfl
        have hname : (pl.setTeamInfo 0 0).qwPyayerId = p := hfits.named
        refine kept_view (hdrop.relogin hpl hname rfl hzero.symm (hfits.idle hzero).1.symm)
          (fun k => (getPlayer_update s.login i _ k).trans ?_) (fun _ _ => Iff.rfl)
            (List.filter_append _ _)
        rw [hnew]
        rfl
    | gameStart r p t => cases hq
    | teamInfo p t => cases hq
  · refine kept_other (h.view q) (getPlayer_update_of_eq
      (PlayerManager.getPlayer_onAnswer_of_ne _ hq)) (fun _ _ => Iff.rfl) ?_
    have hne : (Message.answer a).about ≠ some q := hq
    rw [hflight]
    exact filter_split_of_ne hne

end Deliver

theorem Kept.deliver (h : Kept s) {n : Nat} {gameManager : Bool}
    (hord : Orderly links s (.deliver n gameManager))
    (hstep : step links s (.deliver n gameManager) = some s') : Kept s' := by
  rw [step] at hstep
  cases he : s.flight[n]? with
  | none =>
    rw [he] at hstep
    cases hstep
  | some e =>
    rw [he] at hstep
    simp only at hstep
    split_ifs at hstep
    obtain rfl := Option.some.inj hstep
    obtain ⟨hlt, hget⟩ := List.getElem?_eq_some_iff.mp he
    have hflight : s.flight = s.flight.take n ++ e :: s.flight.drop (n + 1) := by
      rw [← hget, List.getElem_cons_drop, List.take_append_drop]
    rw [List.eraseIdx_eq_take_drop_succ]
    obtain ⟨i, j, msg⟩ := e
    cases msg with
    | request r => exact h.onRequest hflight gameManager
    | answer a =>
      refine h.onAnswer hflight (fun r p t ha hsome => ?_) gameManager
      exact hord _ he r p t (by rw [ha]) hsome
    | inviteTeam p q =>
      have hrest := h.discard hflight rfl
      simp only [onMessage]
      cases (s.login j).getPlayer q with
      | none => exact hrest.send fun e he => by rw [List.mem_singleton.mp he]; rfl
      | some pl =>
        simp only
        split_ifs
        · exact hrest.send fun e he => by rw [List.mem_singleton.mp he]; rfl
        · exact hrest
    | ackInviteTeam p q => exact h.discard hflight rfl

theorem Kept.gameManager (h : Kept s) {j : ServerId} {t : TeamId} {success : Bool}
    (hord : Orderly links s (.gameManager j t success))
    (hstep : step links s (.gameManager j t success) = some s') : Kept s' := by
  rw [step] at hstep
  split_ifs at hstep
  obtain rfl := Option.some.inj hstep
  have hout : ∀ q, ∀ a ∈ ((s.team j).onGameManagerAckTeamGameStart (links.team · j) t success).2,
      a.2.about ≠ some q := by
    intro q a ha hc
    have hmem := List.mem_filter.mpr
      ⟨ha, show TeamServer.changes a = true by simp [TeamServer.changes, hc]⟩
    rw [TeamServer.onGameManagerAckTeamGameStart_answers] at hmem
    cases hmem
  refine ⟨fun q => ?_, h.fresh.of_append rfl (fun e he => ?_) (fun k u hu => ?_) rfl⟩
  · have hmember := fun u => (s.team j).member_onGameManagerAckTeamGameStart (links.team · j) t u
      q success
    have hmail := filter_append_of_none s.flight (filter_answers_of_ne (j := j) (hout q))
    cases success with
    | false =>
      exact kept_other (h.view q) (fun _ => rfl)
        (member_update_of_iff fun u => (hmember u).trans (by simp)) hmail
    | true =>
      have hserver : ∀ u,
          ((s.team j).onGameManagerAckTeamGameStart (links.team · j) t true).1.Member u q ↔
            (s.team j).Member u q ∧ u ≠ t := fun u => (hmember u).trans (by simp)
      refine kept_view ((h.view q).release (member_update_erase hserver) fun i pl hpl hm => ?_)
        (fun _ => rfl) (fun _ _ => Iff.rfl) hmail
      have hsome : ((s.login i).getPlayer q).isSome := Option.isSome_iff_exists.mpr ⟨pl, hpl⟩
      exact hord rfl q i hm hsome
  · obtain ⟨a, -, rfl⟩ := List.mem_map.mp he
    rfl
  · by_cases hk : k = j
    · subst hk
      simp only [Function.update_self] at hu
      exact TeamServer.isSome_onGameManagerAckTeamGameStart success hu
    · simp only [Function.update_of_ne hk] at hu
      exact hu

theorem Kept.step (h : Kept s) {l : Label} (hord : Orderly links s l)
    (hstep : step links s l = some s') : Kept s' := by
  cases l with
  | login => exact h.login hord hstep
  | close => exact h.close hstep
  | makeTeam => exact h.makeTeam hord hstep
  | inviteTeam => exact h.inviteTeam hstep
  | enterTeam => exact h.enterTeam hord hstep
  | leaveTeam => exact h.leaveTeam hord hstep
  | gameStart => exact h.gameStart hstep
  | deliver => exact h.deliver hord hstep
  | gameManager => exact h.gameManager hord hstep

/-- In every order of the messages between login and team servers: as long as each player asks for
one thing at a time and what it asks for happens, and redis gives a new id for each team, its login
server knows its team whenever no message is on the way. -/
theorem agrees_of_orderly (links : Links) (labels : List Label)
    (hrun : Transition.run (step links) start labels = some s)
    (hord : Transition.Always (step links) (Orderly links) start labels) (hquiet : s.flight = [])
    (p : PlayerId) : (s.view p).Agrees :=
  ((Transition.invariant_of_always (fun _ _ _ h ho hstep => Kept.step h ho hstep)
    kept_start hord hrun).view p).agrees (by rw [Teams.view, hquiet]; rfl)

theorem agrees_of_orderly_made :
    ∃ s, Transition.run (step ⟨fun _ _ => true, fun _ _ => true⟩) start
        [.login 1 0 7, .makeTeam 1 7 2 (some 1), .deliver 0 true, .deliver 0 true,
          .deliver 0 true] = some s ∧
      ((s.login 1).getPlayer 7).map Player.qwTeamId = some 1 ∧ (s.view 7).Agrees := by
  have hanswer : ∀ {s : Teams} {n : Nat} {e : Envelope}, s.flight[n]? = some e →
      (∀ r p t, e.msg ≠ .answer (.enterTeam r p t)) → ∀ e', s.flight[n]? = some e' →
        ∀ r p t, e'.msg = .answer (.enterTeam r p t) →
          ((s.login e'.dst).getPlayer p).isSome → r = .none := by
    intro s n e he hne e' he' r p t hmsg
    rw [he] at he'
    rw [← Option.some.inj he'] at hmsg
    exact absurd hmsg (hne r p t)
  refine ⟨_, rfl, by decide +kernel, agrees_of_orderly ⟨fun _ _ => true, fun _ _ => true⟩
    [.login 1 0 7, .makeTeam 1 7 2 (some 1), .deliver 0 true, .deliver 0 true, .deliver 0 true] rfl
    ⟨?_, ?_, ?_, ?_, ?_, trivial⟩ rfl 7⟩
  · refine fun _ => ⟨fun _ => rfl, (fun e he => nomatch he), fun j t hm => ?_⟩
    obtain ⟨team, hteam, -⟩ := hm
    cases hteam
  · exact fun _ _ _ _ _ => ⟨(fun e he => nomatch he), 1, rfl, by decide, by simp [start]⟩
  · exact hanswer rfl (fun r p t h => nomatch h)
  · exact hanswer rfl (fun r p t h => nomatch h)
  · exact hanswer rfl (fun r p t h => nomatch h)

/-- The result of an enter that fails is not looked at. -/
theorem not_agrees_of_failed_enter :
    ∃ s, Transition.run (step ⟨fun _ _ => true, fun _ _ => true⟩) start
        [.login 1 0 7, .enterTeam 1 7 2 5, .deliver 0 true, .deliver 0 true] = some s ∧
      s.flight = [] ∧ ¬ (s.view 7).Agrees := by
  refine ⟨_, rfl, rfl, fun h => ?_⟩
  have hmem := (h.member 1 ⟨some 0, 7, .teamCompleted, 5, 2⟩ (by decide +kernel) 2 5).mpr
    (by decide)
  obtain ⟨team, hteam, -⟩ := hmem
  cases hteam

end Teams

end WebGame
