import FxLib.Lib.Transition
import FxLib.Net.Connection
import FxLib.WebGame.Player

/-!
# Logins of players

`CPlayerSession` over several login servers: who logs in, who is kicked, and what the close of a
session, which comes later, takes out of the map.
-/

namespace WebGame

/-- `loggedIn` says whether the connection of the session has logged in. -/
structure PlayerSession where
  connStat : EConnStat
  qwPlayerId : PlayerId
  loggedIn : Bool
  deriving DecidableEq

/-- `lastLogin` says which session, not released yet, has logged in last for an id. -/
structure LoginServer where
  players : PlayerManager
  session : Nat → PlayerSession
  lastLogin : PlayerId → Option Nat

namespace LoginServer

/-- The constructor leaves `m_qwPlayerId` as the memory has it, `Init` sets it. -/
def start (qwPlayerId : Nat → PlayerId) : LoginServer :=
  ⟨fun _ => none, fun p => ⟨.none, qwPlayerId p, false⟩, fun _ => none⟩

def setSession (s : LoginServer) (pSession : Nat) (session : PlayerSession) : LoginServer :=
  { s with session := Function.update s.session pSession session }

/-- A session out of the pool, after `Init`. -/
def onConnect (s : LoginServer) (pSession : Nat) : LoginServer :=
  s.setSession pSession ⟨.ok, 0, false⟩

/-- `FxConnection::Close`. -/
def close (s : LoginServer) (pSession : Nat) : LoginServer :=
  if (s.session pSession).connStat = .ok then
    s.setSession pSession { s.session pSession with connStat := .closing }
  else s

def kick (s : LoginServer) : Option Nat → LoginServer
  | none => s
  | some pSession => s.close pSession

/-- `CPlayerSession::OnPlayerRequestLogin`. The kick for the login server that redis has named is
made and never sent. -/
def onPlayerRequestLogin (s : LoginServer) (pSession : Nat) (qwPlayerId : PlayerId) :
    LoginServer :=
  let (old, players) := s.players.onPlayerLogin pSession qwPlayerId
  let s := s.kick old
  { s.setSession pSession
      { s.session pSession with qwPlayerId := qwPlayerId, loggedIn := true } with
    players := players
    lastLogin := Function.update s.lastLogin qwPlayerId (some pSession) }

/-- `CPlayerSession::OnClose`, whose `Close` without a player finds the connection closed, and
`Release`. -/
def onClose (s : LoginServer) (pSession : Nat) : LoginServer :=
  { s.setSession pSession { s.session pSession with connStat := .none } with
    players := s.players.onSessionClose (s.session pSession).qwPlayerId
    lastLogin := fun id => if s.lastLogin id = some pSession then none else s.lastLogin id }

/-- The session is open and logged in under the id. -/
def LoggedIn (s : LoginServer) (pSession : Nat) (qwPlayerId : PlayerId) : Prop :=
  (s.session pSession).connStat = .ok ∧ (s.session pSession).loggedIn = true ∧
    (s.session pSession).qwPlayerId = qwPlayerId

/-- `pSession` is the session of the player that is found under the id. -/
def Bound (s : LoginServer) (qwPlayerId : PlayerId) (pSession : Nat) : Prop :=
  (s.players.getPlayer qwPlayerId).bind Player.pSession = some pSession

/-- Who is found has logged in last, and who is logged in is found. -/
structure Kept (s : LoginServer) : Prop where
  session : ∀ id player, s.players.getPlayer id = some player → player.pSession.isSome
  last : ∀ id p, s.Bound id p → s.lastLogin id = some p
  named : ∀ id p, s.lastLogin id = some p →
    ((s.session p).connStat = .ok ∨ (s.session p).connStat = .closing) ∧
      (s.session p).loggedIn = true ∧ (s.session p).qwPlayerId = id
  found : ∀ p id, s.LoggedIn p id → s.Bound id p

variable {s : LoginServer} {pSession : Nat} {qwPlayerId : PlayerId}

theorem kept_start (qwPlayerId : Nat → PlayerId) : Kept (start qwPlayerId) := by
  refine ⟨fun id player h => ?_, fun id p h => ?_, fun id p h => ?_, fun p id h => ?_⟩
  · simp [start, PlayerManager.getPlayer] at h
  · simp [start, Bound, PlayerManager.getPlayer] at h
  · simp [start] at h
  · simp [start, LoggedIn] at h

@[simp] theorem session_setSession_self (session : PlayerSession) :
    (s.setSession pSession session).session pSession = session := by
  simp [setSession]

theorem session_setSession_of_ne {p : Nat} (h : p ≠ pSession) (session : PlayerSession) :
    (s.setSession pSession session).session p = s.session p := by
  simp [setSession, h]

/-- What a `Close` may do to the session `p`. -/
theorem close_cases (s : LoginServer) (pSession p : Nat) :
    (s.close pSession).session p = s.session p ∧ (p = pSession → (s.session p).connStat ≠ .ok) ∨
      p = pSession ∧ (s.session p).connStat = .ok ∧
        (s.close pSession).session p = { s.session p with connStat := .closing } := by
  rw [close]
  split_ifs with hok
  · by_cases hp : p = pSession
    · subst hp
      exact .inr ⟨rfl, hok, by simp⟩
    · exact .inl ⟨session_setSession_of_ne hp _, fun h => absurd h hp⟩
  · exact .inl ⟨rfl, fun h => h ▸ hok⟩

theorem LoggedIn.of_close {p : Nat} {id : PlayerId} (h : (s.close pSession).LoggedIn p id) :
    s.LoggedIn p id ∧ p ≠ pSession := by
  rcases close_cases s pSession p with ⟨hsame, hne⟩ | ⟨rfl, -, hclosing⟩
  · rw [LoggedIn, hsame] at h
    exact ⟨h, fun hp => hne hp h.1⟩
  · rw [LoggedIn, hclosing] at h
    cases h.1

@[simp] theorem players_close : (s.close pSession).players = s.players := by
  rw [close]
  split_ifs
  · rfl
  · rfl

@[simp] theorem lastLogin_close : (s.close pSession).lastLogin = s.lastLogin := by
  rw [close]
  split_ifs
  · rfl
  · rfl

theorem Kept.close (h : Kept s) (pSession : Nat) : Kept (s.close pSession) := by
  refine ⟨fun id player hp => ?_, fun id p hp => ?_, fun id p hp => ?_, fun p id hp => ?_⟩
  · rw [players_close] at hp
    exact h.session id player hp
  · rw [Bound, players_close] at hp
    rw [lastLogin_close]
    exact h.last id p hp
  · rw [lastLogin_close] at hp
    obtain ⟨hstat, hlog, hid⟩ := h.named id p hp
    rcases close_cases s pSession p with ⟨hsame, -⟩ | ⟨rfl, -, hclosing⟩
    · rw [hsame]
      exact ⟨hstat, hlog, hid⟩
    · rw [hclosing]
      exact ⟨.inr rfl, hlog, hid⟩
  · rw [Bound, players_close]
    exact h.found p id hp.of_close.1

theorem Kept.onConnect (h : Kept s) (hfree : (s.session pSession).connStat = .none) :
    Kept (s.onConnect pSession) := by
  refine ⟨h.session, h.last, fun id p hp => ?_, fun p id hp => ?_⟩
  · obtain ⟨hstat, hlog, hid⟩ := h.named id p hp
    have hne : p ≠ pSession := by
      rintro rfl
      simp [hfree] at hstat
    rw [LoginServer.onConnect, session_setSession_of_ne hne]
    exact ⟨hstat, hlog, hid⟩
  · have hne : p ≠ pSession := by
      rintro rfl
      simp [LoggedIn, LoginServer.onConnect] at hp
    rw [LoggedIn, LoginServer.onConnect, session_setSession_of_ne hne] at hp
    exact h.found p id hp

theorem Bound.kicked {p : Nat} (hbound : s.Bound qwPlayerId p) :
    (s.players.onPlayerLogin pSession qwPlayerId).1 = some p := by
  rw [PlayerManager.onPlayerLogin_kicks]
  exact hbound

theorem Kept.kick (h : Kept s) (old : Option Nat) : Kept (s.kick old) := by
  cases old with
  | none => exact h
  | some p => exact h.close p

@[simp] theorem lastLogin_kick (old : Option Nat) : (s.kick old).lastLogin = s.lastLogin := by
  cases old with
  | none => rfl
  | some p => exact lastLogin_close

@[simp] theorem players_kick (old : Option Nat) : (s.kick old).players = s.players := by
  cases old with
  | none => rfl
  | some p => exact players_close

theorem LoggedIn.of_kick {old : Option Nat} {p : Nat} {id : PlayerId}
    (h : (s.kick old).LoggedIn p id) : s.LoggedIn p id ∧ old ≠ some p := by
  cases old with
  | none => exact ⟨h, by simp⟩
  | some q => exact ⟨h.of_close.1, fun hq => h.of_close.2 (Option.some.inj hq).symm⟩

theorem connStat_kick (hok : (s.session pSession).connStat = .ok) (old : Option Nat) :
    ((s.kick old).session pSession).connStat = .ok ∨
      ((s.kick old).session pSession).connStat = .closing := by
  cases old with
  | none => exact .inl hok
  | some q =>
    rcases close_cases s q pSession with ⟨hsame, -⟩ | ⟨-, -, hclosing⟩
    · exact .inl (by rw [kick, hsame, hok])
    · exact .inr (by rw [kick, hclosing])

/-- After a login of `pSession` another session is logged in only if it was before and has not been
kicked. -/
theorem LoggedIn.of_login {p : Nat} {id : PlayerId}
    (h : (s.onPlayerRequestLogin pSession qwPlayerId).LoggedIn p id) :
    p = pSession ∧ id = qwPlayerId ∨ p ≠ pSession ∧ s.LoggedIn p id ∧
      (s.players.onPlayerLogin pSession qwPlayerId).1 ≠ some p := by
  by_cases hp : p = pSession
  · subst hp
    have hid : (s.onPlayerRequestLogin p qwPlayerId).session p =
        { (s.kick (s.players.onPlayerLogin p qwPlayerId).1).session p with
          qwPlayerId := qwPlayerId, loggedIn := true } := by
      simp [onPlayerRequestLogin, setSession]
    rw [LoggedIn, hid] at h
    exact .inl ⟨rfl, h.2.2.symm⟩
  · have hsame : (s.onPlayerRequestLogin pSession qwPlayerId).session p =
        (s.kick (s.players.onPlayerLogin pSession qwPlayerId).1).session p := by
      simp [onPlayerRequestLogin, setSession, hp]
    rw [LoggedIn, hsame] at h
    have hbefore := LoggedIn.of_kick (s := s) h
    exact .inr ⟨hp, hbefore⟩

/-- A session that is bound to no player of another id logs in. -/
theorem Kept.onPlayerRequestLogin (h : Kept s) (hok : (s.session pSession).connStat = .ok)
    (hother : ∀ id, s.Bound id pSession → id = qwPlayerId) :
    Kept (s.onPlayerRequestLogin pSession qwPlayerId) := by
  have hkick := h.kick (s.players.onPlayerLogin pSession qwPlayerId).1
  have hplayers : (s.onPlayerRequestLogin pSession qwPlayerId).players =
      (s.players.onPlayerLogin pSession qwPlayerId).2 := rfl
  have hself : (s.onPlayerRequestLogin pSession qwPlayerId).lastLogin qwPlayerId =
      some pSession := by
    simp [LoginServer.onPlayerRequestLogin]
  have hrest : ∀ id, id ≠ qwPlayerId →
      (s.onPlayerRequestLogin pSession qwPlayerId).lastLogin id = s.lastLogin id := by
    intro id hid
    simp [LoginServer.onPlayerRequestLogin, hid, setSession]
  have hfresh : ∀ id, id ≠ qwPlayerId → s.lastLogin id ≠ some pSession := by
    intro id hid hlast
    obtain ⟨-, hlog, hname⟩ := h.named id pSession hlast
    exact hid (hother id (h.found pSession id ⟨hok, hlog, hname⟩))
  have hbound : (s.onPlayerRequestLogin pSession qwPlayerId).Bound qwPlayerId pSession := by
    rw [Bound, hplayers, PlayerManager.onPlayerLogin_self]
    rfl
  refine ⟨fun id player hp => ?_, fun id p hp => ?_, fun id p hp => ?_, fun p id hp => ?_⟩
  · by_cases hid : id = qwPlayerId
    · subst hid
      rw [hplayers, PlayerManager.onPlayerLogin_self] at hp
      obtain rfl := Option.some.inj hp
      rfl
    · rw [hplayers, PlayerManager.onPlayerLogin_of_ne _ _ _ hid] at hp
      exact h.session id player hp
  · by_cases hid : id = qwPlayerId
    · subst hid
      obtain rfl : pSession = p := Option.some.inj (hbound.symm.trans hp)
      exact hself
    · rw [Bound, hplayers, PlayerManager.onPlayerLogin_of_ne _ _ _ hid] at hp
      rw [hrest id hid]
      exact h.last id p hp
  · by_cases hid : id = qwPlayerId
    · subst hid
      obtain rfl : pSession = p := Option.some.inj (hself.symm.trans hp)
      refine ⟨?_, by simp [LoginServer.onPlayerRequestLogin, setSession],
        by simp [LoginServer.onPlayerRequestLogin, setSession]⟩
      simpa [LoginServer.onPlayerRequestLogin, setSession] using connStat_kick hok _
    · have hlast : s.lastLogin id = some p := (hrest id hid).symm.trans hp
      have hne : p ≠ pSession := by
        rintro rfl
        exact hfresh id hid hlast
      have hnamed := hkick.named id p (by rw [lastLogin_kick]; exact hlast)
      simpa [LoginServer.onPlayerRequestLogin, setSession, hne] using hnamed
  · rcases hp.of_login with ⟨rfl, rfl⟩ | ⟨-, hbefore, hnot⟩
    · exact hbound
    · have hp' := h.found p id hbefore
      have hid : id ≠ qwPlayerId := by
        rintro rfl
        exact hnot hp'.kicked
      rw [Bound, hplayers, PlayerManager.onPlayerLogin_of_ne _ _ _ hid]
      exact hp'

theorem LoggedIn.of_onClose {p : Nat} {id : PlayerId} (h : (s.onClose pSession).LoggedIn p id) :
    p ≠ pSession ∧ s.LoggedIn p id := by
  have hne : p ≠ pSession := by
    rintro rfl
    simp [LoggedIn, onClose, setSession] at h
  refine ⟨hne, ?_⟩
  simpa [LoggedIn, onClose, setSession, hne] using h

/-- A session closes, and takes with it no player that another open session is bound to. -/
theorem Kept.onClose (h : Kept s)
    (hown : ∀ p, s.Bound (s.session pSession).qwPlayerId p → p = pSession ∨
      (s.session p).connStat ≠ .ok) : Kept (s.onClose pSession) := by
  have hlast : ∀ id p, (s.onClose pSession).lastLogin id = some p ↔
      s.lastLogin id = some p ∧ p ≠ pSession := by
    intro id p
    simp only [LoginServer.onClose]
    split_ifs with heq
    · simp [heq, eq_comm]
    · exact ⟨fun hp => ⟨hp, fun hc => heq (hc ▸ hp)⟩, fun hp => hp.1⟩
  have hplayers : (s.onClose pSession).players =
      s.players.onSessionClose (s.session pSession).qwPlayerId := rfl
  have hgone : ∀ id p, (s.onClose pSession).Bound id p →
      id ≠ (s.session pSession).qwPlayerId ∧ s.Bound id p := by
    intro id p hp
    by_cases hid : id = (s.session pSession).qwPlayerId
    · rw [Bound, hplayers, hid, PlayerManager.onSessionClose_self] at hp
      cases hp
    · rw [Bound, hplayers, PlayerManager.onSessionClose_of_ne _ _ hid] at hp
      exact ⟨hid, hp⟩
  refine ⟨fun id player hp => ?_, fun id p hp => ?_, fun id p hp => ?_, fun p id hp => ?_⟩
  · by_cases hid : id = (s.session pSession).qwPlayerId
    · rw [hplayers, hid, PlayerManager.onSessionClose_self] at hp
      cases hp
    · rw [hplayers, PlayerManager.onSessionClose_of_ne _ _ hid] at hp
      exact h.session id player hp
  · obtain ⟨hid, hbound⟩ := hgone id p hp
    refine (hlast id p).mpr ⟨h.last id p hbound, ?_⟩
    rintro rfl
    exact hid (h.named id p (h.last id p hbound)).2.2.symm
  · obtain ⟨hbefore, hne⟩ := (hlast id p).mp hp
    simpa [LoginServer.onClose, setSession, hne] using h.named id p hbefore
  · obtain ⟨hne, hbefore⟩ := hp.of_onClose
    have hbound := h.found p id hbefore
    have hid : id ≠ (s.session pSession).qwPlayerId := by
      rintro rfl
      rcases hown p hbound with heq | hstat
      · exact hne heq
      · exact hstat hbefore.1
    rw [Bound, hplayers, PlayerManager.onSessionClose_of_ne _ _ hid]
    exact hbound

end LoginServer

/-- The login servers, by their ids, and the players online as redis has them. -/
structure LoginServers where
  server : ServerId → LoginServer
  online : PlayerId → Option ServerId

namespace LoginServers

inductive Label where
  | connect (serverId : ServerId) (pSession : Nat)
  | login (serverId : ServerId) (pSession : Nat) (qwPlayerId : PlayerId)
  /-- The connection is closed by either side. -/
  | closing (serverId : ServerId) (pSession : Nat)
  | close (serverId : ServerId) (pSession : Nat)

def start (qwPlayerId : ServerId → Nat → PlayerId) : LoginServers :=
  ⟨fun i => .start (qwPlayerId i), fun _ => none⟩

def setServer (s : LoginServers) (serverId : ServerId) (server : LoginServer) : LoginServers :=
  { s with server := Function.update s.server serverId server }

def step (s : LoginServers) : Label → Option LoginServers
  | .connect serverId pSession =>
    if ((s.server serverId).session pSession).connStat = .none then
      some (s.setServer serverId ((s.server serverId).onConnect pSession))
    else none
  | .login serverId pSession qwPlayerId =>
    if ((s.server serverId).session pSession).connStat = .ok then
      some { s.setServer serverId
          ((s.server serverId).onPlayerRequestLogin pSession qwPlayerId) with
        online := Function.update s.online qwPlayerId (some serverId) }
    else none
  | .closing serverId pSession =>
    some (s.setServer serverId ((s.server serverId).close pSession))
  | .close serverId pSession =>
    if ((s.server serverId).session pSession).connStat = .none then none
    else
      let server := s.server serverId
      some { s.setServer serverId (server.onClose pSession) with
        online := match server.players.getPlayer (server.session pSession).qwPlayerId with
          | some player => player.setOffLine serverId s.online
          | none => s.online }

/-- Every close that was asked for has been seen by its session. -/
def Quiet (s : LoginServers) : Prop :=
  ∀ i p, ((s.server i).session p).connStat ≠ .closing

/-- One open session for an id, and the map of each server knows it. -/
structure SingleLogin (s : LoginServers) : Prop where
  once : ∀ id i j p q, (s.server i).LoggedIn p id → (s.server j).LoggedIn q id → i = j ∧ p = q
  last : ∀ i id, ((s.server i).players.getPlayer id).bind Player.pSession =
    (s.server i).lastLogin id
  bound : ∀ i id player, (s.server i).players.getPlayer id = some player →
    ∃ p, player.pSession = some p ∧ ((s.server i).session p).connStat = .ok ∧
      ((s.server i).session p).qwPlayerId = id

/-- The condition on a step. Who logs in has no open session on another login server and does not
come from a session that is bound to another player; and a session that closes does not carry the
id of a player that another open session is bound to. -/
def Lone (s : LoginServers) : Label → Prop
  | .login i pSession qwPlayerId =>
    (∀ j q, j ≠ i → ¬ (s.server j).LoggedIn q qwPlayerId) ∧
      ∀ id, (s.server i).Bound id pSession → id = qwPlayerId
  | .close i pSession =>
    ∀ p, (s.server i).Bound ((s.server i).session pSession).qwPlayerId p →
      p = pSession ∨ ((s.server i).session p).connStat ≠ .ok
  | _ => True

structure Kept (s : LoginServers) : Prop where
  server : ∀ i, (s.server i).Kept
  apart : ∀ id i j p q, (s.server i).LoggedIn p id → (s.server j).LoggedIn q id → i = j

variable {s s' : LoginServers}

theorem quiet_start (qwPlayerId : ServerId → Nat → PlayerId) : Quiet (start qwPlayerId) :=
  fun _ _ h => nomatch h

theorem Quiet.setSession (h : Quiet s) (i : ServerId) (p : Nat) {server : LoginServer}
    {session : PlayerSession} (hsession : session.connStat ≠ .closing)
    (hserver : server.session = Function.update (s.server i).session p session)
    (hstep : s'.server = Function.update s.server i server) : Quiet s' := by
  intro j q
  rw [hstep]
  by_cases hj : j = i
  · subst hj
    rw [Function.update_self, hserver]
    by_cases hq : q = p
    · subst hq
      rwa [Function.update_self]
    · rw [Function.update_of_ne hq]
      exact h j q
  · rw [Function.update_of_ne hj]
    exact h j q

theorem kept_start (qwPlayerId : ServerId → Nat → PlayerId) : Kept (start qwPlayerId) := by
  refine ⟨fun i => LoginServer.kept_start (qwPlayerId i), fun id i j p q hp => ?_⟩
  cases hp.1

theorem Kept.singleLogin (h : Kept s) (hquiet : Quiet s) : SingleLogin s := by
  have hopen : ∀ i id p, (s.server i).lastLogin id = some p → (s.server i).LoggedIn p id := by
    intro i id p hp
    obtain ⟨hstat, hlog, hid⟩ := (h.server i).named id p hp
    exact ⟨hstat.resolve_right (hquiet i p), hlog, hid⟩
  have hlast : ∀ i id p, (s.server i).Bound id p ↔ (s.server i).lastLogin id = some p :=
    fun i id p => ⟨(h.server i).last id p, fun hp => (h.server i).found p id (hopen i id p hp)⟩
  refine ⟨fun id i j p q hp hq => ?_, fun i id => ?_, fun i id player hplayer => ?_⟩
  · obtain rfl := h.apart id i j p q hp hq
    have hbound := (h.server i).found p id hp
    exact ⟨rfl, Option.some.inj (hbound.symm.trans ((h.server i).found q id hq))⟩
  · exact Option.ext fun p => hlast i id p
  · obtain ⟨p, hp⟩ := Option.isSome_iff_exists.mp ((h.server i).session id player hplayer)
    have hbound : (s.server i).Bound id p := by
      rw [LoginServer.Bound, hplayer]
      exact hp
    have hlog := hopen i id p ((hlast i id p).mp hbound)
    exact ⟨p, hp, hlog.1, hlog.2.2⟩

/-- A step of one server that keeps it, and after which only those are logged in there who may
be. -/
theorem Kept.setServer (h : Kept s) (i : ServerId) {server : LoginServer} (hserver : server.Kept)
    (hlog : ∀ p id, server.LoggedIn p id → (s.server i).LoggedIn p id ∨
      ∀ j q, j ≠ i → ¬ (s.server j).LoggedIn q id) : Kept (s.setServer i server) := by
  have hself : (s.setServer i server).server i = server := by simp [LoginServers.setServer]
  have hrest : ∀ j, j ≠ i → (s.setServer i server).server j = s.server j := by
    intro j hj
    simp [LoginServers.setServer, hj]
  have hother : ∀ id p j q, j ≠ i → server.LoggedIn p id → ¬ (s.server j).LoggedIn q id := by
    intro id p j q hj hp hq
    rcases hlog p id hp with hbefore | hnone
    · exact hj (h.apart id j i q p hq hbefore)
    · exact hnone j q hj hq
  refine ⟨fun j => ?_, fun id j k p q hp hq => ?_⟩
  · by_cases hj : j = i
    · rw [hj, hself]
      exact hserver
    · rw [hrest j hj]
      exact h.server j
  · by_cases hj : j = i <;> by_cases hk : k = i
    · exact hj.trans hk.symm
    · rw [hj, hself] at hp
      rw [hrest k hk] at hq
      exact absurd hq (hother id p k q hk hp)
    · rw [hk, hself] at hq
      rw [hrest j hj] at hp
      exact absurd hp (hother id q j p hj hq)
    · rw [hrest j hj] at hp
      rw [hrest k hk] at hq
      exact h.apart id j k p q hp hq

theorem Kept.of_server (h : Kept s) (hserver : s'.server = s.server) : Kept s' := by
  obtain ⟨hkept, hapart⟩ := h
  rw [← hserver] at hkept hapart
  exact ⟨hkept, hapart⟩

theorem Kept.step (h : Kept s) {l : Label} (hlone : Lone s l) (hstep : s.step l = some s') :
    Kept s' := by
  cases l with
  | connect i p =>
    rw [LoginServers.step] at hstep
    split_ifs at hstep with hfree
    obtain rfl := Option.some.inj hstep
    refine h.setServer i ((h.server i).onConnect hfree) fun q id hq => .inl ?_
    by_cases hqp : q = p
    · subst hqp
      simp [LoginServer.LoggedIn, LoginServer.onConnect] at hq
    · rwa [LoginServer.LoggedIn, LoginServer.onConnect,
        LoginServer.session_setSession_of_ne hqp] at hq
  | login i p id =>
    rw [LoginServers.step] at hstep
    split_ifs at hstep with hok
    obtain rfl := Option.some.inj hstep
    refine Kept.of_server (h.setServer i ((h.server i).onPlayerRequestLogin hok hlone.2)
      fun q id' hq => ?_) rfl
    rcases hq.of_login with ⟨-, rfl⟩ | ⟨-, hbefore, -⟩
    · exact .inr hlone.1
    · exact .inl hbefore
  | closing i p =>
    obtain rfl := Option.some.inj hstep
    exact h.setServer i ((h.server i).close p) fun q id hq => .inl hq.of_close.1
  | close i p =>
    rw [LoginServers.step] at hstep
    split_ifs at hstep
    obtain rfl := Option.some.inj hstep
    exact Kept.of_server (h.setServer i ((h.server i).onClose hlone)
      fun q id hq => .inl hq.of_onClose.2) rfl

/-- Any order of logins and closes on any number of login servers: as long as nobody logs in where
the missing kick or the stale id of a session would matter, each player has one session once the
closes have been seen. -/
theorem singleLogin_of_lone (qwPlayerId : ServerId → Nat → PlayerId) (labels : List Label)
    (hrun : Transition.run step (start qwPlayerId) labels = some s)
    (hlone : Transition.Always step Lone (start qwPlayerId) labels) (hquiet : Quiet s) :
    SingleLogin s :=
  (Transition.invariant_of_always (fun _ _ _ h hl hstep => Kept.step h hl hstep)
    (kept_start qwPlayerId) hlone hrun).singleLogin hquiet

theorem singleLogin_of_lone_two :
    ∃ s, Transition.run step (start fun _ _ => 0)
        [.connect 1 0, .login 1 0 7, .connect 2 0, .login 2 0 8] = some s ∧ SingleLogin s := by
  refine ⟨_, rfl, singleLogin_of_lone _
    [.connect 1 0, .login 1 0 7, .connect 2 0, .login 2 0 8] rfl ?_ ?_⟩
  · refine ⟨trivial, ⟨fun j q hj hlog => ?_, fun id hid => ?_⟩, trivial,
      ⟨fun j q hj hlog => ?_, fun id hid => ?_⟩, trivial⟩
    · simp [setServer, hj, start, LoginServer.start, LoginServer.LoggedIn] at hlog
    · cases hid
    · by_cases h1 : j = 1
      · subst h1
        by_cases hq : q = 0
        · subst hq
          have hid := hlog.2.2
          revert hid
          decide +kernel
        · simp [setServer, LoginServer.onPlayerRequestLogin, LoginServer.LoggedIn,
            LoginServer.onConnect, LoginServer.setSession, hj, hq, PlayerManager.onPlayerLogin,
            start, LoginServer.start, PlayerManager.getPlayer, LoginServer.kick] at hlog
      · simp [setServer, hj, h1, start, LoginServer.start, LoginServer.LoggedIn] at hlog
    · cases hid
  · refine Quiet.setSession (s := _) ?_ 2 0 (by decide) rfl rfl
    refine Quiet.setSession (s := _) ?_ 2 0 (by decide) rfl rfl
    refine Quiet.setSession (s := _) ?_ 1 0 (by decide) rfl rfl
    exact Quiet.setSession (quiet_start _) 1 0 (by decide) rfl rfl

/-- The kick for the first server is never sent. -/
theorem not_singleLogin_of_two_servers :
    ∃ s, Transition.run step (start fun _ _ => 0)
        [.connect 1 0, .login 1 0 7, .connect 2 0, .login 2 0 7] = some s ∧
      Quiet s ∧ ¬ SingleLogin s := by
  refine ⟨_, rfl, ?_, fun h => ?_⟩
  · refine Quiet.setSession (s := _) ?_ 2 0 (by decide) rfl rfl
    refine Quiet.setSession (s := _) ?_ 2 0 (by decide) rfl rfl
    refine Quiet.setSession (s := _) ?_ 1 0 (by decide) rfl rfl
    exact Quiet.setSession (quiet_start _) 1 0 (by decide) rfl rfl
  · have hsame := h.once 7 1 2 0 0 ⟨by decide +kernel, by decide +kernel, by decide +kernel⟩
      ⟨by decide +kernel, by decide +kernel, by decide +kernel⟩
    exact absurd hsame.1 (by decide)

end LoginServers

end WebGame
