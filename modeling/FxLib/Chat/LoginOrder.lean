import FxLib.Chat.LoginHandOff

/-!
# The answers of the hand-off

In which order the answers come, that nobody waits for ever, and what an answer is worth to the
player who gets it.
-/

namespace ChatServer

open ChatServerManager (GameSessions)

namespace HandOff

variable {chatServerNum : Nat} {infoOf : Nat → ChatInfo} {s s' : HandOff} {server session : Nat}
  {p : ChatProcess} {x : ManagerSession}

/-! ### The order of the answers -/

/-- The login that a message is about. -/
def requestOfChat : ToChat → Option (Asker × PlayerId)
  | .notifyChatInfo _ => none
  | .notifyChatLogin asker szPlayerId => some (asker, szPlayerId)

def requestOfManager : ToManager → Option (Asker × PlayerId)
  | .notifyInfo _ => none
  | .notifyLoginSign asker szPlayerId _ => some (asker, szPlayerId)

/-- What a server has still to be told. -/
def requests (s : HandOff) (server : Nat) : List (Asker × PlayerId) :=
  (s.servers server).inbox.filterMap requestOfChat

def answersOf (x : ManagerSession) (server : Nat) : List (Asker × PlayerId) :=
  if x.server = some server then x.inbox.filterMap requestOfManager else []

/-- The signs of a server that the manager has still to see. -/
def answers (s : HandOff) (server : Nat) : List (Asker × PlayerId) :=
  match (s.servers server).session with
  | none => []
  | some session => answersOf (s.sessions session) server

/-- What has been answered with signs of a server. -/
def acked (s : HandOff) (server : Nat) : List (Asker × PlayerId) :=
  (s.acks.filter fun a => a.server = some server).map fun a => (a.asker, a.szPlayerId)

/-- Answers come in the order of the requests, and none twice. -/
def InOrder (s : HandOff) : Prop :=
  ∀ server, (s.acked server ++ (s.answers server ++ s.requests server)).Sublist (s.asked server)

@[simp] theorem sessions_setSession (s : HandOff) (session : Nat) (x : ManagerSession) :
    (s.setSession session x).sessions session = x :=
  Function.update_self ..

theorem sessions_setSession_of_ne (s : HandOff) {i : Nat} (x : ManagerSession) (h : i ≠ session) :
    (s.setSession session x).sessions i = s.sessions i :=
  Function.update_of_ne h ..

theorem servers_setServer_of_ne (s : HandOff) {k : Nat} (p : ChatProcess) (h : k ≠ server) :
    (s.setServer server p).servers k = s.servers k :=
  Function.update_of_ne h ..

theorem answers_of_session (h : (s.servers server).session = some session) :
    s.answers server = answersOf (s.sessions session) server := by
  simp only [answers, h]

theorem answers_of_linked (h : s.Kept chatServerNum infoOf)
    (hserver : (s.sessions session).server = some server) :
    s.answers server = (s.sessions session).inbox.filterMap requestOfManager := by
  rw [answers_of_session ((h.sessions session).linked server hserver).1, answersOf, if_pos hserver]

theorem answers_setServer_of_ne (s : HandOff) {k : Nat} (p : ChatProcess) (hk : server ≠ k) :
    (s.setServer k p).answers server = s.answers server := by
  simp only [answers, servers_setServer_of_ne s p hk]
  rfl

theorem answers_setServer (s : HandOff) {k : Nat} (hp : p.session = (s.servers k).session)
    (server : Nat) : (s.setServer k p).answers server = s.answers server := by
  by_cases hk : server = k
  · subst hk
    simp only [answers, servers_setServer, hp]
    rfl
  · exact answers_setServer_of_ne s p hk

theorem requests_setServer (s : HandOff) {k : Nat} {p : ChatProcess} (hk : server ≠ k) :
    (s.setServer k p).requests server = s.requests server := by
  rw [requests, servers_setServer_of_ne s p hk, requests]

/-- A session that has and had another server at its other end. -/
theorem answers_setSession (s : HandOff) {i : Nat} (hold : (s.sessions i).server ≠ some server)
    (hnew : x.server ≠ some server) :
    (s.setSession i x).answers server = s.answers server := by
  cases hsession : (s.servers server).session with
  | none => simp only [answers, HandOff.setSession, hsession]
  | some session =>
    rw [answers_of_session hsession,
      answers_of_session (show ((s.setSession i x).servers server).session = _ from hsession)]
    by_cases hi : session = i
    · subst hi
      rw [sessions_setSession, answersOf, if_neg hnew, answersOf, if_neg hold]
    · rw [sessions_setSession_of_ne s x hi]

theorem InOrder.of_sublist (h : s.InOrder) (hasked : s'.asked = s.asked)
    (hsub : ∀ server, (s'.acked server ++ (s'.answers server ++ s'.requests server)).Sublist
      (s.acked server ++ (s.answers server ++ s.requests server))) : s'.InOrder :=
  fun server => hasked ▸ (hsub server).trans (h server)

/-- A server that has nothing more to say and less to hear. -/
theorem InOrder.setServer (h : s.InOrder) (hp : p.session = (s.servers server).session)
    (hinbox : (p.inbox.filterMap requestOfChat).Sublist (s.requests server)) :
    (s.setServer server p).InOrder := by
  refine h.of_sublist rfl fun k => ?_
  rw [answers_setServer s hp]
  refine (List.Sublist.refl _).append ((List.Sublist.refl _).append ?_)
  by_cases hk : k = server
  · subst hk
    simpa only [requests, servers_setServer] using hinbox
  · rw [requests_setServer s hk]

theorem InOrder.connect (h : s.InOrder) (hnull : (s.servers server).session = none)
    (hfree : (s.sessions session).server = none) :
    ((s.setServer server { s.servers server with session := some session }).setSession session
      { s.sessions session with
        server := some server, inbox := [.notifyInfo (infoOf server)] }).InOrder := by
  refine h.of_sublist rfl fun k => (List.Sublist.refl _).append (.append ?_ ?_)
  · by_cases hk : k = server
    · subst hk
      have hempty : s.answers k = [] := by simp only [answers, hnull]
      have hsession : (((s.setServer k { s.servers k with session := some session }).setSession
          session ⟨some k, (s.sessions session).info,
            [.notifyInfo (infoOf k)]⟩).servers k).session = some session := by
        simp [HandOff.setSession]
      rw [hempty, answers_of_session hsession, sessions_setSession, answersOf, if_pos rfl]
      exact List.Sublist.refl []
    · have hold : ((s.setServer server { s.servers server with
          session := some session }).sessions session).server ≠ some k := by
        simp [HandOff.setServer, hfree]
      rw [answers_setSession _ hold fun hc => hk (Option.some.inj hc).symm,
        answers_setServer_of_ne s _ hk]
  · by_cases hk : k = server
    · subst hk
      simp [requests, HandOff.setSession]
    · exact (requests_setServer s hk).symm ▸ List.Sublist.refl _

theorem answers_tell (s : HandOff) (server : Nat) (m : ToChat) (k : Nat) :
    (s.tell server m).answers k = s.answers k := by
  rw [tell]
  refine answers_setServer s ?_ k
  rfl

theorem requests_tell (s : HandOff) (server : Nat) (m : ToChat) :
    (s.tell server m).requests server = s.requests server ++ [m].filterMap requestOfChat := by
  rw [requests, tell, servers_setServer, List.filterMap_append]
  rfl

/-- A login goes to the end of what a server is asked. -/
theorem InOrder.chatLogin (h : s.InOrder) (asker : Asker) (szPlayerId : PlayerId) :
    (s.chatLogin asker szPlayerId).InOrder := by
  rw [HandOff.chatLogin]
  cases s.mapSessionIpPort (hashToIndex szPlayerId).toNat with
  | none => exact h
  | some session =>
    simp only
    cases (s.sessions session).server with
    | none => exact h
    | some server =>
      intro k
      change (s.acked k ++ ((s.tell server (.notifyChatLogin asker szPlayerId)).answers k ++
        (s.tell server (.notifyChatLogin asker szPlayerId)).requests k)).Sublist
          (Function.update s.asked server (s.asked server ++ [(asker, szPlayerId)]) k)
      rw [answers_tell]
      by_cases hk : k = server
      · subst hk
        rw [requests_tell, Function.update_self, ← List.append_assoc, ← List.append_assoc]
        have hlast := (h k).append (List.Sublist.refl [(asker, szPlayerId)])
        simpa [requestOfChat] using hlast
      · rw [Function.update_of_ne hk, tell, requests_setServer s hk]
        exact h k

/-- A session of the manager with less to hear. -/
theorem InOrder.setSession (h : s.InOrder)
    (hlinked : ∀ k, (s.sessions session).server = some k → (s.servers k).session = some session)
    (hserver : x.server = (s.sessions session).server ∨ x.server = none)
    (hinbox : (x.inbox.filterMap requestOfManager).Sublist
      ((s.sessions session).inbox.filterMap requestOfManager)) :
    (s.setSession session x).InOrder := by
  refine h.of_sublist rfl fun k => (List.Sublist.refl _).append (.append ?_ (List.Sublist.refl _))
  by_cases hk : (s.sessions session).server = some k
  · rw [answers_of_session (hlinked k hk), answersOf, if_pos hk,
      answers_of_session (show ((s.setSession session x).servers k).session = _ from hlinked k hk),
      sessions_setSession, answersOf]
    split_ifs
    · exact hinbox
    · exact List.nil_sublist _
  · have hnew : x.server ≠ some k := by
      rcases hserver with hserver | hserver
      · rwa [hserver]
      · simp [hserver]
    rw [answers_setSession s hk hnew]

/-- A message that is about no login. -/
theorem InOrder.tell (h : s.InOrder) {m : ToChat} (hm : requestOfChat m = none) :
    (s.tell server m).InOrder := by
  refine h.of_sublist rfl fun k => (List.Sublist.refl _).append (.append ?_ ?_)
  · exact answers_tell s server m k ▸ List.Sublist.refl _
  · by_cases hk : k = server
    · subst hk
      rw [requests_tell, List.filterMap_cons_none hm, List.filterMap_nil, List.append_nil]
    · rw [HandOff.tell, requests_setServer s hk]

theorem InOrder.onChatServerInfo (h : s.InOrder)
    (hlinked : ∀ k, (s.sessions session).server = some k → (s.servers k).session = some session)
    (info : ChatInfo) : (s.onChatServerInfo chatServerNum session info).InOrder := by
  have hset : (s.setSession session { s.sessions session with info := info }).InOrder :=
    h.setSession hlinked (.inl rfl) (List.Sublist.refl _)
  have htable : ({ s.setSession session { s.sessions session with info := info } with
      mapSessionIpPort := setTable chatServerNum session session s.mapSessionIpPort } :
      HandOff).InOrder := hset
  rw [HandOff.onChatServerInfo]
  simp only
  split
  · exact htable
  · exact htable.tell rfl

theorem acked_append (s : HandOff) (a : LoginAck) (k : Nat) :
    ({ s with acks := s.acks ++ [a] } : HandOff).acked k =
      s.acked k ++ if a.server = some k then [(a.asker, a.szPlayerId)] else [] := by
  simp only [acked, List.filter_append, List.map_append, List.filter_cons, List.filter_nil,
    decide_eq_true_eq]
  split_ifs <;> rfl

/-- A sign goes from the inbox of its session to the answers. -/
theorem InOrder.onChatLoginSign (h : s.InOrder) (hkept : s.Kept chatServerNum infoOf)
    {asker : Asker} {szPlayerId : PlayerId} {szSign : List UInt8} {signs : List ToManager}
    (hinbox : (s.sessions session).inbox = .notifyLoginSign asker szPlayerId szSign :: signs) :
    ((s.setSession session { s.sessions session with inbox := signs }).onChatLoginSign session
      asker szPlayerId szSign).InOrder := by
  have hlinked : ∀ k, (s.sessions session).server = some k → (s.servers k).session = some session :=
    fun k hk => ((hkept.sessions session).linked k hk).1
  rw [HandOff.onChatLoginSign]
  have hset : (s.setSession session { s.sessions session with inbox := signs }).InOrder :=
    h.setSession hlinked (.inl rfl) (hinbox ▸ (List.sublist_cons_self _ _).filterMap _)
  split_ifs
  · intro k
    rw [acked_append, sessions_setSession]
    by_cases hk : (s.sessions session).server = some k
    · have hold := h k
      have hanswers : (s.setSession session { s.sessions session with inbox := signs }).answers k =
          signs.filterMap requestOfManager := by
        rw [answers_of_session (show ((s.setSession session _).servers k).session = _ from
          hlinked k hk), sessions_setSession, answersOf, if_pos hk]
      have hfirst : s.answers k = (asker, szPlayerId) ::
          (s.setSession session { s.sessions session with inbox := signs }).answers k := by
        rw [hanswers, answers_of_session (hlinked k hk), answersOf, if_pos hk, hinbox]
        rfl
      have hmoved : (s.acked k ++ [(asker, szPlayerId)] ++
          ((s.setSession session { s.sessions session with inbox := signs }).answers k ++
            s.requests k)).Sublist (s.asked k) := by
        rw [hfirst] at hold
        simpa using hold
      rw [if_pos hk]
      exact hmoved
    · rw [if_neg hk, List.append_nil]
      exact hset k
  · exact hset

theorem InOrder.managerRecv (h : s.InOrder) (hkept : s.Kept chatServerNum infoOf)
    (hstep : s.managerRecv chatServerNum session = some s') : s'.InOrder := by
  rw [HandOff.managerRecv] at hstep
  cases hinbox : (s.sessions session).inbox with
  | nil => simp [hinbox] at hstep
  | cons m inbox =>
    simp only [hinbox] at hstep
    cases m with
    | notifyInfo info =>
      obtain rfl := Option.some.inj hstep
      have hlinked : ∀ k, (s.sessions session).server = some k →
          (s.servers k).session = some session :=
        fun k hk => ((hkept.sessions session).linked k hk).1
      have hset : (s.setSession session { s.sessions session with inbox := inbox }).InOrder :=
        h.setSession hlinked (.inl rfl) (hinbox ▸ (List.sublist_cons_self _ _).filterMap _)
      refine hset.onChatServerInfo (fun k hk => hlinked k ?_) info
      rwa [sessions_setSession] at hk
    | notifyLoginSign asker szPlayerId szSign =>
      exact Option.some.inj hstep ▸ h.onChatLoginSign hkept hinbox

theorem answers_sendManager (s : HandOff) (server : Nat) (m : ToManager) (k : Nat) :
    ((s.sendManager server m).answers k).Sublist
      (s.answers k ++ if k = server then [m].filterMap requestOfManager else []) := by
  rw [HandOff.sendManager]
  cases hsession : (s.servers server).session with
  | none => exact List.sublist_append_left _ _
  | some session =>
    simp only
    split_ifs with hserver hk hk
    · subst hk
      rw [answers_of_session hsession, answersOf, if_pos hserver,
        answers_of_session (show ((s.setSession session _).servers k).session = _ from hsession),
        sessions_setSession, answersOf, if_pos hserver, List.filterMap_append]
    · have hne : (s.sessions session).server ≠ some k := by
        rw [hserver]
        exact fun hc => hk (Option.some.inj hc).symm
      have hsame : (s.setSession session { s.sessions session with
          inbox := (s.sessions session).inbox ++ [m] }).answers k = s.answers k :=
        answers_setSession s hne hne
      exact hsame ▸ List.sublist_append_left _ _
    · exact List.sublist_append_left _ _
    · exact List.sublist_append_left _ _

theorem sendManager_same (s : HandOff) (server : Nat) (m : ToManager) :
    (s.sendManager server m).servers = s.servers ∧ (s.sendManager server m).acks = s.acks ∧
      (s.sendManager server m).asked = s.asked := by
  rw [HandOff.sendManager]
  split
  · exact ⟨rfl, rfl, rfl⟩
  · split_ifs <;> exact ⟨rfl, rfl, rfl⟩

/-- A login goes from the inbox of its server to the signs. -/
theorem InOrder.onLoginSign (h : s.InOrder) {asker : Asker} {szPlayerId : PlayerId}
    {inbox : List ToChat}
    (hinbox : (s.servers server).inbox = .notifyChatLogin asker szPlayerId :: inbox) :
    ((s.setServer server { s.servers server with inbox := inbox }).onLoginSign server asker
      szPlayerId).InOrder := by
  simp only [HandOff.onLoginSign, servers_setServer, setServer_setServer]
  generalize hp : ({ s.servers server with inbox := inbox, logins := _ } : ChatProcess) = p
  have hsession : p.session = (s.servers server).session := by rw [← hp]
  have hrest : p.inbox = inbox := by rw [← hp]
  intro k
  obtain ⟨hservers, hacks, hasked⟩ := sendManager_same (s.setServer server p) server
    (.notifyLoginSign asker szPlayerId (ChatPlayerManager.signOf szPlayerId))
  have hanswers := answers_sendManager (s.setServer server p) server
    (.notifyLoginSign asker szPlayerId (ChatPlayerManager.signOf szPlayerId)) k
  rw [answers_setServer s hsession] at hanswers
  rw [acked, requests, hservers, hacks, hasked]
  refine List.Sublist.trans
    ((List.Sublist.refl _).append (hanswers.append (List.Sublist.refl _))) ?_
  by_cases hk : k = server
  · subst hk
    have hold := h k
    have hfirst : s.requests k = (asker, szPlayerId) :: inbox.filterMap requestOfChat := by
      rw [requests, hinbox]
      rfl
    rw [hfirst] at hold
    have hmoved : (s.acked k ++ (s.answers k ++ [(asker, szPlayerId)] ++
        inbox.filterMap requestOfChat)).Sublist (s.asked k) := by
      simpa using hold
    rw [servers_setServer, hrest, if_pos rfl]
    exact hmoved
  · rw [servers_setServer_of_ne s p hk, if_neg hk, List.append_nil]
    exact h k

theorem InOrder.chatRecv (h : s.InOrder) (hstep : s.chatRecv chatServerNum server = some s') :
    s'.InOrder := by
  rw [HandOff.chatRecv] at hstep
  cases hinbox : (s.servers server).inbox with
  | nil => simp [hinbox] at hstep
  | cons m inbox =>
    simp only [hinbox] at hstep
    split_ifs at hstep
    cases m with
    | notifyChatInfo dwHashIndex =>
      obtain rfl := Option.some.inj hstep
      simp only [HandOff.onNotifyChatInfo, servers_setServer, setServer_setServer]
      refine h.setServer rfl ?_
      rw [requests, hinbox]
      exact (List.sublist_cons_self _ _).filterMap _
    | notifyChatLogin asker szPlayerId =>
      obtain rfl := Option.some.inj hstep
      exact h.onLoginSign hinbox

theorem createSession_free {i : Nat} (h : s.createSession chatServerNum = some i) :
    (s.sessions i).server = none := by
  simpa using List.find?_some h

theorem InOrder.step (h : s.InOrder) (hkept : s.Kept chatServerNum infoOf) {l : Label}
    (hstep : s.step chatServerNum infoOf l = some s') : s'.InOrder := by
  cases l with
  | connect server =>
    simp only [HandOff.step] at hstep
    split_ifs at hstep with hnull
    split at hstep
    · cases hstep
    · rename_i session hsession
      exact Option.some.inj hstep ▸ h.connect hnull.2 (createSession_free hsession)
  | managerRecv session => exact h.managerRecv hkept hstep
  | chatRecv server => exact h.chatRecv hstep
  | game l =>
    obtain ⟨game, -, rfl⟩ := Option.map_eq_some_iff.mp hstep
    exact h
  | playerLogin session szPlayerId =>
    simp only [HandOff.step] at hstep
    split_ifs at hstep
    exact Option.some.inj hstep ▸ h.chatLogin _ szPlayerId
  | gmLogin szPlayerId =>
    simp only [HandOff.step] at hstep
    split_ifs at hstep
    exact Option.some.inj hstep ▸ h.chatLogin .gm szPlayerId
  | player server l =>
    simp only [HandOff.step] at hstep
    split_ifs at hstep
    obtain ⟨logins, -, rfl⟩ := Option.map_eq_some_iff.mp hstep
    exact h.setServer rfl (List.Sublist.refl _)
  | closeSession session =>
    obtain rfl := Option.some.inj hstep
    exact h.setSession (fun k hk => ((hkept.sessions session).linked k hk).1) (.inr rfl)
      (List.nil_sublist _)
  | stop server =>
    obtain rfl := Option.some.inj hstep
    exact h.setServer rfl (List.nil_sublist _)

/-! ### Nobody waits for ever -/

/-- The two ends of a connection do their work. -/
def Serves (server session : Nat) : Label → Prop
  | .managerRecv i => i = session
  | .chatRecv k => k = server
  | _ => False

/-- Either side still has a message of the other. -/
def Quiet (server session : Nat) (s : HandOff) : Prop :=
  (s.servers server).inbox = [] ∧ (s.sessions session).inbox = []

/-- How far the messages of a connection have still to go; an address and a login cause another
message each. -/
def effort (server session : Nat) (s : HandOff) : Nat :=
  ((s.servers server).inbox.map fun m => 1 + ((requestOfChat m).elim 0 fun _ => 1)).sum +
    ((s.sessions session).inbox.map fun m => 1 + ((requestOfManager m).elim 1 fun _ => 0)).sum

/-- The connection stands, and who has asked waits or has got the answer. -/
structure Waits (server session : Nat) (game : GameSessions) (asked : List (Asker × PlayerId))
    (s : HandOff) : Prop where
  run : (s.servers server).bRun = true
  linked : (s.sessions session).server = some server
  accepted : (s.servers server).session = some session
  same : s.game = game
  waits : ∀ r ∈ asked, r ∈ s.requests server ∨
    r ∈ (s.sessions session).inbox.filterMap requestOfManager ∨ r ∈ s.acked server

variable {game : GameSessions} {asked : List (Asker × PlayerId)}

theorem Waits.onNotifyChatInfo (h : s.Waits server session game asked) {dwHashIndex : Nat}
    {inbox : List ToChat} (hinbox : (s.servers server).inbox = .notifyChatInfo dwHashIndex :: inbox)
    {logins : Logins} :
    (s.setServer server { s.servers server with inbox := inbox, logins := logins }).Waits server
        session game asked ∧
      effort server session
        (s.setServer server { s.servers server with inbox := inbox, logins := logins }) <
        effort server session s := by
  constructor
  · refine ⟨by simpa using h.run, h.linked, by simpa using h.accepted, h.same, fun r hr => ?_⟩
    have hsame : (s.setServer server { s.servers server with inbox := inbox, logins := logins }
        ).requests server = s.requests server := by
      rw [requests, servers_setServer, requests, hinbox]
      rfl
    rw [hsame]
    exact h.waits r hr
  · simp only [effort, servers_setServer, hinbox]
    simp only [HandOff.setServer, List.map_cons, List.sum_cons]
    omega

theorem Waits.onLoginSign (h : s.Waits server session game asked) {asker : Asker}
    {szPlayerId : PlayerId} {inbox : List ToChat}
    (hinbox : (s.servers server).inbox = .notifyChatLogin asker szPlayerId :: inbox)
    {logins : Logins} {szSign : List UInt8} :
    ((s.setServer server { s.servers server with inbox := inbox, logins := logins }).sendManager
        server (.notifyLoginSign asker szPlayerId szSign)).Waits server session game asked ∧
      effort server session
        ((s.setServer server { s.servers server with inbox := inbox, logins := logins }).sendManager
          server (.notifyLoginSign asker szPlayerId szSign)) < effort server session s := by
  generalize hp : ({ s.servers server with inbox := inbox, logins := logins } : ChatProcess) = p
  have hsend : (s.setServer server p).sendManager server
      (.notifyLoginSign asker szPlayerId szSign) =
      (s.setServer server p).setSession session { s.sessions session with
        inbox := (s.sessions session).inbox ++ [.notifyLoginSign asker szPlayerId szSign] } := by
    have hsession : ((s.setServer server p).servers server).session = some session := by
      rw [servers_setServer, ← hp]
      exact h.accepted
    have hlinked : ((s.setServer server p).sessions session).server = some server := h.linked
    rw [HandOff.sendManager, hsession]
    simp only [if_pos hlinked]
    rfl
  rw [hsend]
  constructor
  · refine ⟨by rw [← hp]; simpa [HandOff.setSession] using h.run, ?_, ?_, h.same, fun r hr => ?_⟩
    · rw [sessions_setSession]
      exact h.linked
    · rw [← hp]
      simpa [HandOff.setSession] using h.accepted
    · rw [sessions_setSession, List.filterMap_append]
      have hrequests : ((s.setServer server p).setSession session { s.sessions session with
          inbox := (s.sessions session).inbox ++ [.notifyLoginSign asker szPlayerId szSign] }
          ).requests server = inbox.filterMap requestOfChat := by
        rw [requests, ← hp]
        simp [HandOff.setSession]
      rw [hrequests]
      rcases h.waits r hr with hchat | hmanager | hacked
      · rw [requests, hinbox] at hchat
        rcases List.mem_cons.mp (show r ∈ (asker, szPlayerId) :: inbox.filterMap requestOfChat from
          hchat) with rfl | hchat
        · exact .inr (.inl (List.mem_append_right _ List.mem_cons_self))
        · exact .inl hchat
      · exact .inr (.inl (List.mem_append_left _ hmanager))
      · exact .inr (.inr hacked)
  · simp only [effort, sessions_setSession, hinbox]
    rw [← hp]
    simp only [HandOff.setSession, servers_setServer, List.map_cons, List.sum_cons, List.map_append,
      List.map_nil, List.sum_append, List.sum_nil, requestOfChat, requestOfManager, Option.elim]
    omega

theorem Waits.chatRecv (h : s.Waits server session game asked)
    (hne : (s.servers server).inbox ≠ []) :
    ∃ s', s.chatRecv chatServerNum server = some s' ∧ s'.Waits server session game asked ∧
      effort server session s' < effort server session s := by
  cases hinbox : (s.servers server).inbox with
  | nil => exact absurd hinbox hne
  | cons m inbox =>
    simp only [HandOff.chatRecv, hinbox, if_pos h.run]
    cases m with
    | notifyChatInfo dwHashIndex =>
      refine ⟨_, rfl, ?_⟩
      simp only [HandOff.onNotifyChatInfo, servers_setServer, setServer_setServer]
      exact h.onNotifyChatInfo hinbox
    | notifyChatLogin asker szPlayerId =>
      refine ⟨_, rfl, ?_⟩
      simp only [HandOff.onLoginSign, servers_setServer, setServer_setServer]
      exact h.onLoginSign hinbox

theorem Waits.onChatServerInfo (h : s.Waits server session game asked) {info : ChatInfo}
    {inbox : List ToManager} (hinbox : (s.sessions session).inbox = .notifyInfo info :: inbox) :
    ((s.setSession session { s.sessions session with inbox := inbox }).onChatServerInfo
        chatServerNum session info).Waits server session game asked ∧
      effort server session ((s.setSession session { s.sessions session with
        inbox := inbox }).onChatServerInfo chatServerNum session info) <
        effort server session s := by
  simp only [HandOff.onChatServerInfo, sessions_setSession, h.linked]
  constructor
  · refine ⟨?_, ?_, ?_, h.same, fun r hr => ?_⟩
    · simpa [HandOff.tell, HandOff.setServer, HandOff.setSession] using h.run
    · simp [HandOff.tell, HandOff.setServer, HandOff.setSession]
    · simpa [HandOff.tell, HandOff.setServer, HandOff.setSession] using h.accepted
    · rw [requests_tell]
      rcases h.waits r hr with hchat | hmanager | hacked
      · exact .inl (List.mem_append_left _ hchat)
      · rw [hinbox] at hmanager
        refine .inr (.inl ?_)
        simpa [HandOff.tell, HandOff.setServer, HandOff.setSession, requestOfManager] using hmanager
      · exact .inr (.inr hacked)
  · simp only [effort, hinbox]
    simp only [HandOff.tell, HandOff.setServer, HandOff.setSession, Function.update_self,
      List.map_cons, List.sum_cons, List.map_append, List.map_nil, List.sum_append, List.sum_nil,
      requestOfChat, requestOfManager, Option.elim]
    omega

theorem Waits.onChatLoginSign (h : s.Waits server session game asked)
    (hask : ∀ r ∈ asked, Answerable game r.1) {asker : Asker} {szPlayerId : PlayerId}
    {szSign : List UInt8} {inbox : List ToManager}
    (hinbox : (s.sessions session).inbox = .notifyLoginSign asker szPlayerId szSign :: inbox) :
    ((s.setSession session { s.sessions session with inbox := inbox }).onChatLoginSign session asker
        szPlayerId szSign).Waits server session game asked ∧
      effort server session ((s.setSession session { s.sessions session with
        inbox := inbox }).onChatLoginSign session asker szPlayerId szSign) <
        effort server session s := by
  have hset : ∀ acks : List LoginAck,
      (∀ r ∈ asked, r = (asker, szPlayerId) ∨ r ∈ s.acked server →
        r ∈ ({ s with acks := acks } : HandOff).acked server) →
      ({ s.setSession session { s.sessions session with inbox := inbox } with acks := acks } :
        HandOff).Waits server session game asked := by
    intro acks hacks
    refine ⟨h.run, by simpa [HandOff.setSession] using h.linked, h.accepted, h.same, ?_⟩
    intro r hr
    rcases h.waits r hr with hchat | hmanager | hacked
    · exact .inl hchat
    · rw [hinbox] at hmanager
      rcases List.mem_cons.mp (show r ∈ (asker, szPlayerId) :: inbox.filterMap requestOfManager from
        hmanager) with hfirst | hmanager
      · exact .inr (.inr (hacks r hr (.inl hfirst)))
      · refine .inr (.inl ?_)
        simpa [HandOff.setSession] using hmanager
    · exact .inr (.inr (hacks r hr (.inr hacked)))
  rw [HandOff.onChatLoginSign]
  split_ifs with hknown
  · constructor
    · refine hset _ fun r _ hr => ?_
      rw [show (s.setSession session _).acks = s.acks from rfl, acked_append, sessions_setSession,
        if_pos h.linked]
      rcases hr with rfl | hr
      · exact List.mem_append_right _ List.mem_cons_self
      · exact List.mem_append_left _ hr
    · simp only [effort, sessions_setSession, hinbox]
      simp only [HandOff.setSession, List.map_cons, List.sum_cons, requestOfManager, Option.elim]
      omega
  · constructor
    · refine hset s.acks fun r hr hfirst => ?_
      rcases hfirst with rfl | hacked
      · exact absurd (h.same ▸ hask _ hr) hknown
      · exact hacked
    · simp only [effort, sessions_setSession, hinbox]
      simp only [HandOff.setSession, List.map_cons, List.sum_cons, requestOfManager, Option.elim]
      omega

theorem Waits.managerRecv (h : s.Waits server session game asked)
    (hask : ∀ r ∈ asked, Answerable game r.1) (hne : (s.sessions session).inbox ≠ []) :
    ∃ s', s.managerRecv chatServerNum session = some s' ∧ s'.Waits server session game asked ∧
      effort server session s' < effort server session s := by
  cases hinbox : (s.sessions session).inbox with
  | nil => exact absurd hinbox hne
  | cons m inbox =>
    simp only [HandOff.managerRecv, hinbox]
    cases m with
    | notifyInfo info => exact ⟨_, rfl, h.onChatServerInfo hinbox⟩
    | notifyLoginSign asker szPlayerId szSign => exact ⟨_, rfl, h.onChatLoginSign hask hinbox⟩

theorem Waits.settles (h : s.Waits server session game asked)
    (hask : ∀ r ∈ asked, Answerable game r.1) :
    ∃ ls s', (∀ l ∈ ls, Serves server session l) ∧
      Transition.run (step chatServerNum infoOf) s ls = some s' ∧
        s'.Waits server session game asked ∧ Quiet server session s' := by
  refine Transition.settles (effort server session) (fun s hs => ?_) h
  by_cases hchat : (s.servers server).inbox = []
  · by_cases hmanager : (s.sessions session).inbox = []
    · exact .inl ⟨hchat, hmanager⟩
    · obtain ⟨s', hstep, hs', hless⟩ := hs.managerRecv hask hmanager
      exact .inr ⟨.managerRecv session, s', rfl, hstep, hs', hless⟩
  · obtain ⟨s', hstep, hs', hless⟩ := hs.chatRecv hchat
    exact .inr ⟨.chatRecv server, s', rfl, hstep, hs', hless⟩

/-! ### The hand-off -/

/-- A login request with the id and the sign comes whole in its arrays, and on whatever session
nobody has logged in yet the server finds the player behind it. -/
structure TakesLogin (logins : Logins) (szPlayerId : PlayerId) (szSign : List UInt8) : Prop where
  id : 0 ∉ szPlayerId ∧ szPlayerId.length < idLenth
  sign : 0 ∉ szSign ∧ szSign.length < 128
  found : ∀ pSession, (logins.session pSession).szId = [] →
    (logins.onRecv pSession szPlayerId szSign).manager.getChatPlayer szPlayerId =
      some ⟨pSession, szPlayerId⟩

/-- The player logs in at the server that the answer names, with the sign in it: at once, or as soon
as the server has got the hash index that is on its way to it. -/
def Handed (chatServerNum : Nat) (infoOf : Nat → ChatInfo) (s : HandOff) (a : LoginAck) : Prop :=
  ∃ server session, a.server = some server ∧ a.info = infoOf server ∧
    (hashToIndex a.szPlayerId).toNat ∈ hashIndices chatServerNum session ∧
    ((s.servers server).bRun = true →
      TakesLogin (s.servers server).logins a.szPlayerId a.szSign ∨
        .notifyChatInfo session ∈ (s.servers server).inbox)

theorem signOf_fits {szPlayerId : PlayerId} (h : Short szPlayerId) :
    0 ∉ ChatPlayerManager.signOf szPlayerId ∧
      (ChatPlayerManager.signOf szPlayerId).length < 128 := by
  have hnul : 0 ∉ "_sign".toUTF8.toList := by decide +kernel
  have hlen : "_sign".toUTF8.toList.length = 5 := by decide +kernel
  have hid := h.2.2
  rw [ChatPlayerManager.signOf, List.mem_append, List.length_append, hlen]
  rw [idLenth] at hid
  exact ⟨fun hc => hc.elim h.2.1 hnul, by omega⟩

/-- Where nobody has the empty id, a fresh session logs in with a sign that the server takes. -/
theorem takesLogin_signed {szPlayerId : PlayerId} (hshort : Short szPlayerId)
    (hsigned : p.Signed szPlayerId) (hnobody : ChatProcess.Nobody p.logins)
    (hindex : (hashToIndex szPlayerId).toNat ∈ p.logins.setHashIndex) :
    TakesLogin p.logins szPlayerId (ChatPlayerManager.signOf szPlayerId) := by
  refine ⟨hshort.2, signOf_fits hshort, fun pSession hfresh => ?_⟩
  rw [ChatProcess.Signed] at hsigned
  have habsent : p.logins.manager.getChatPlayer (p.logins.session pSession).szId = none := by
    rw [hfresh]
    exact hnobody.absent
  rw [Logins.onRecv, habsent]
  simp [Logins.onLogin, ChatPlayerManager.onPlayerLogin, hindex, hsigned,
    ChatPlayerManager.getChatPlayer]

theorem AckKept.handed {a : LoginAck} (hkept : s.Kept chatServerNum infoOf)
    (h : AckKept chatServerNum infoOf s.servers a) : s.Handed chatServerNum infoOf a := by
  obtain ⟨server, session, hserver, hinfo, ⟨hsign, hsigned, hrouted, hshort⟩, howns⟩ := h
  refine ⟨server, session, hserver, hinfo, hrouted, fun hrun => (howns hrun).imp_left ?_⟩
  intro hindices
  rw [hsign]
  exact takesLogin_signed hshort hsigned (hkept.servers server).nobody (hindices hrouted)

theorem kept_of_run {info : ChatInfo} {ls : List Label} (hshort : ∀ l ∈ ls, AsksShort l)
    (hrun : Transition.run (step chatServerNum infoOf) (start info) ls = some s) :
    s.Kept chatServerNum infoOf ∧ s.InOrder := by
  have hstep : ∀ (s : HandOff) (l : Label) (s' : HandOff),
      s.Kept chatServerNum infoOf ∧ s.InOrder → AsksShort l →
        s.step chatServerNum infoOf l = some s' → s'.Kept chatServerNum infoOf ∧ s'.InOrder :=
    fun s l s' ⟨hkept, horder⟩ hl hs => ⟨hkept.step hl hs, horder.step hkept hs⟩
  exact Transition.invariant_of_always hstep ⟨kept_start info, fun _ => List.Sublist.refl []⟩
    (Transition.always_of_forall hshort _) hrun

/-- In whatever order messages come for players with short ids, servers start and end and
connections break: every answer names the server that takes a login with the sign in it and has the
player's hash index, or is about to get it; the answers that a server has a part in come in the
order of the requests and none twice; and while a server runs and is connected, everybody who has
asked gets the answer once the messages between the two have come through. -/
theorem logins_handed_off {info : ChatInfo} {ls : List Label} (hshort : ∀ l ∈ ls, AsksShort l)
    (hrun : Transition.run (step chatServerNum infoOf) (start info) ls = some s) :
    (∀ a ∈ s.acks, s.Handed chatServerNum infoOf a) ∧
      (∀ server, (s.acked server).Sublist (s.asked server)) ∧
      ∀ server session, (s.servers server).bRun = true →
        (s.sessions session).server = some server →
        ∃ ls' s', (∀ l ∈ ls', Serves server session l) ∧
          Transition.run (step chatServerNum infoOf) s ls' = some s' ∧ Quiet server session s' ∧
          ∀ r ∈ s.answers server ++ s.requests server, Answerable s.game r.1 →
            r ∈ s'.acked server := by
  obtain ⟨hkept, horder⟩ := kept_of_run hshort hrun
  refine ⟨fun a ha => (hkept.acks a ha).handed hkept,
    fun server => (List.sublist_append_left _ _).trans (horder server), ?_⟩
  intro server session hup hlinked
  have hpending : ∀ r ∈ (s.answers server ++ s.requests server).filter
      fun r => Answerable s.game r.1, r ∈ s.requests server ∨
        r ∈ (s.sessions session).inbox.filterMap requestOfManager ∨ r ∈ s.acked server := by
    intro r hr
    rcases List.mem_append.mp (List.mem_of_mem_filter hr) with hanswer | hrequest
    · rw [answers_of_linked hkept hlinked] at hanswer
      exact .inr (.inl hanswer)
    · exact .inl hrequest
  have hwaits : s.Waits server session s.game ((s.answers server ++ s.requests server).filter
      fun r => Answerable s.game r.1) :=
    ⟨hup, hlinked, ((hkept.sessions session).linked server hlinked).1, rfl, hpending⟩
  obtain ⟨ls', s', hserves, hrun', hwaits', hquiet⟩ := hwaits.settles fun r hr => by
    simpa using (List.mem_filter.mp hr).2
  refine ⟨ls', s', hserves, hrun', hquiet, fun r hr hanswerable => ?_⟩
  rcases hwaits'.waits r (List.mem_filter.mpr ⟨hr, by simpa using hanswerable⟩) with
    hchat | hmanager | hacked
  · simp [requests, hquiet.1] at hchat
  · simp [hquiet.2] at hmanager
  · exact hacked

/-- A server is accepted, a game server logs in and asks for a player before the chat server knows
its hash indices. -/
def oneLogin : List Label :=
  [.connect 4, .managerRecv 0, .game .connect, .game (.login 0 [71]), .playerLogin 0 [65],
    .chatRecv 4, .chatRecv 4, .managerRecv 0]

theorem logins_handed_off_one : ∃ s,
    Transition.run (step 1 fun server => ⟨[], server, 0, 0⟩) (start ⟨[], 0, 0, 0⟩) oneLogin =
      some s ∧ ∀ a ∈ s.acks, s.Handed 1 (fun server => ⟨[], server, 0, 0⟩) a := by
  have hsome : (Transition.run (step 1 fun server => ⟨[], server, 0, 0⟩) (start ⟨[], 0, 0, 0⟩)
      oneLogin).isSome := by decide +kernel
  obtain ⟨s, hrun⟩ := Option.isSome_iff_exists.mp hsome
  exact ⟨s, hrun, (logins_handed_off (by decide +kernel) hrun).1⟩

end HandOff

end ChatServer
