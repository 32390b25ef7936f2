import FxLib.Chat.ChatPlayerManager
import FxLib.Chat.GameSessions
import FxLib.Chat.Registration

/-!
# The hand-off of a login

A game server or the GM asks the manager for the login of a player. The manager asks the chat
server that has the hash index of the player, which makes a sign; with the sign and the address of
that server the answer goes back, and the player logs in there. A connection between the manager and
a server takes every message and keeps their order. Either side may lose the other at any time, and
a session of the manager is then used for another server.
-/

namespace ChatServer

open ChatServerManager (GameSessions ServerName)

/-- What a chat server tells of itself. -/
structure ChatInfo where
  szChatIp : List UInt8
  dwChatPort : Nat
  dwWebSocketChatPort : Nat
  dwChatServerPort : Nat

/-- Who asks for a login. The message of a game server carries its id. -/
inductive Asker where
  | game (szServerId : ServerName)
  | gm
  deriving DecidableEq

/-- From the manager to a chat server. -/
inductive ToChat where
  | notifyChatInfo (dwHashIndex : Nat)
  | notifyChatLogin (asker : Asker) (szPlayerId : PlayerId)
  deriving DecidableEq

/-- From a chat server to the manager. -/
inductive ToManager where
  | notifyInfo (info : ChatInfo)
  | notifyLoginSign (asker : Asker) (szPlayerId : PlayerId) (szSign : List UInt8)

/-- A session of the manager, with the server at its other end. What a server has told stays when
it goes. -/
structure ManagerSession where
  server : Option Nat
  info : ChatInfo
  inbox : List ToManager

/-- A process of `ChatServer`, with the session of the manager that it has got. -/
structure ChatProcess where
  bRun : Bool
  session : Option Nat
  inbox : List ToChat
  logins : Logins

/-- What the manager answers, and the server that has made the sign. -/
structure LoginAck where
  asker : Asker
  info : ChatInfo
  szPlayerId : PlayerId
  szSign : List UInt8
  server : Option Nat

/-- `asked` has what has been sent to each server. -/
structure HandOff where
  sessions : Nat → ManagerSession
  mapSessionIpPort : Nat → Option Nat
  game : GameSessions
  servers : Nat → ChatProcess
  asked : Nat → List (Asker × PlayerId)
  acks : List LoginAck

namespace HandOff

/-- `info` is what stands in a session before a server has told anything. -/
def start (info : ChatInfo) : HandOff where
  sessions := fun _ => ⟨none, info, []⟩
  mapSessionIpPort := fun _ => none
  game := .init
  servers := fun _ => ⟨true, none, [], .start []⟩
  asked := fun _ => []
  acks := []

def setSession (s : HandOff) (session : Nat) (x : ManagerSession) : HandOff :=
  { s with sessions := Function.update s.sessions session x }

def setServer (s : HandOff) (server : Nat) (p : ChatProcess) : HandOff :=
  { s with servers := Function.update s.servers server p }

/-- A message comes to the inbox of a server. -/
def tell (s : HandOff) (server : Nat) (m : ToChat) : HandOff :=
  s.setServer server { s.servers server with inbox := (s.servers server).inbox ++ [m] }

/-! ### The manager -/

def createSession (s : HandOff) (chatServerNum : Nat) : Option Nat :=
  (List.range chatServerNum).find? fun i => (s.sessions i).server = none

/-- `OnChatServerInfo` of a session and of `ChatServerSessionManager`. -/
def onChatServerInfo (chatServerNum : Nat) (s : HandOff) (session : Nat) (info : ChatInfo) :
    HandOff :=
  let s := { s.setSession session { s.sessions session with info := info } with
    mapSessionIpPort := setTable chatServerNum session session s.mapSessionIpPort }
  match (s.sessions session).server with
  | none => s
  | some server => s.tell server (.notifyChatInfo session)

/-- `ChatLogin` and `ChatLoginByGM`, with the session that the table gives. -/
def chatLogin (s : HandOff) (asker : Asker) (szPlayerId : PlayerId) : HandOff :=
  match s.mapSessionIpPort (hashToIndex szPlayerId).toNat with
  | none => s
  | some session =>
    match (s.sessions session).server with
    | none => s
    | some server => { s.tell server (.notifyChatLogin asker szPlayerId) with
        asked := Function.update s.asked server (s.asked server ++ [(asker, szPlayerId)]) }

/-- There is a session to which the answer goes. -/
def Answerable (game : GameSessions) : Asker → Prop
  | .game szServerId => (game.mapGameSessions szServerId).isSome
  | .gm => True

instance (game : GameSessions) : (asker : Asker) → Decidable (Answerable game asker)
  | .game szServerId =>
    inferInstanceAs (Decidable ((game.mapGameSessions szServerId).isSome = true))
  | .gm => inferInstanceAs (Decidable True)

/-- `OnChatLoginSign` and `OnChatLoginSignGM`. -/
def onChatLoginSign (s : HandOff) (session : Nat) (asker : Asker) (szPlayerId : PlayerId)
    (szSign : List UInt8) : HandOff :=
  if Answerable s.game asker then
    { s with acks := s.acks ++
      [⟨asker, (s.sessions session).info, szPlayerId, szSign, (s.sessions session).server⟩] }
  else s

/-- `OnRecv` of a session. -/
def managerRecv (chatServerNum : Nat) (s : HandOff) (session : Nat) : Option HandOff :=
  match (s.sessions session).inbox with
  | [] => none
  | m :: inbox =>
    let s := s.setSession session { s.sessions session with inbox := inbox }
    match m with
    | .notifyInfo info => some (s.onChatServerInfo chatServerNum session info)
    | .notifyLoginSign asker szPlayerId szSign =>
      some (s.onChatLoginSign session asker szPlayerId szSign)

/-! ### A chat server -/

/-- A server sends to its session, while that has the connection. -/
def sendManager (s : HandOff) (server : Nat) (m : ToManager) : HandOff :=
  match (s.servers server).session with
  | none => s
  | some session =>
    if (s.sessions session).server = some server then
      s.setSession session { s.sessions session with inbox := (s.sessions session).inbox ++ [m] }
    else s

/-- `SetHashIndex`. -/
def onNotifyChatInfo (chatServerNum : Nat) (s : HandOff) (server dwHashIndex : Nat) : HandOff :=
  let p := s.servers server
  s.setServer server { p with logins := { p.logins with
    setHashIndex := p.logins.setHashIndex ∪ hashIndices chatServerNum dwHashIndex } }

/-- `OnLoginSign` and `OnLoginSignByGM`. -/
def onLoginSign (s : HandOff) (server : Nat) (asker : Asker) (szPlayerId : PlayerId) : HandOff :=
  let p := s.servers server
  (s.setServer server { p with logins := { p.logins with
    manager := p.logins.manager.createLoginSign szPlayerId } }).sendManager server
      (.notifyLoginSign asker szPlayerId (ChatPlayerManager.signOf szPlayerId))

/-- `OnRecv` of `ChatManagerSession`. -/
def chatRecv (chatServerNum : Nat) (s : HandOff) (server : Nat) : Option HandOff :=
  match (s.servers server).inbox with
  | [] => none
  | m :: inbox =>
    if (s.servers server).bRun then
      let s := s.setServer server { s.servers server with inbox := inbox }
      match m with
      | .notifyChatInfo dwHashIndex => some (s.onNotifyChatInfo chatServerNum server dwHashIndex)
      | .notifyChatLogin asker szPlayerId => some (s.onLoginSign server asker szPlayerId)
    else none

/-! ### Steps -/

inductive Label where
  /-- The manager accepts a server, whose `OnConnect` tells its address. -/
  | connect (server : Nat)
  | managerRecv (session : Nat)
  | chatRecv (server : Nat)
  | game (l : GameSessions.Label)
  /-- A game session asks for a player. -/
  | playerLogin (session : Nat) (szPlayerId : PlayerId)
  | gmLogin (szPlayerId : PlayerId)
  /-- Players come and go at a server. -/
  | player (server : Nat) (l : Logins.Label)
  /-- A session of the manager has closed. -/
  | closeSession (session : Nat)
  | stop (server : Nat)

/-- What the players do at a server; signs are made for the manager only. -/
def playerStep (logins : Logins) : Logins.Label → Option Logins
  | .loginSign _ => none
  | l => logins.step l

/-- `infoOf` has the addresses of the servers. -/
def step (chatServerNum : Nat) (infoOf : Nat → ChatInfo) (s : HandOff) : Label → Option HandOff
  | .connect server =>
    if (s.servers server).bRun ∧ (s.servers server).session = none then
      match s.createSession chatServerNum with
      | none => none
      | some session => some
          ((s.setServer server { s.servers server with session := some session }).setSession session
            { s.sessions session with
              server := some server, inbox := [.notifyInfo (infoOf server)] })
    else none
  | .managerRecv session => s.managerRecv chatServerNum session
  | .chatRecv server => s.chatRecv chatServerNum server
  | .game l => (s.game.step l).map fun game => { s with game := game }
  | .playerLogin session szPlayerId =>
    if session ∈ s.game.connected then
      some (s.chatLogin (.game (s.game.szServerId session)) szPlayerId)
    else none
  | .gmLogin szPlayerId =>
    if szPlayerId.length ≤ idLenth then some (s.chatLogin .gm szPlayerId) else none
  | .player server l =>
    if (s.servers server).bRun then
      (playerStep (s.servers server).logins l).map fun logins =>
        s.setServer server { s.servers server with logins := logins }
    else none
  | .closeSession session =>
    some (s.setSession session { s.sessions session with server := none, inbox := [] })
  | .stop server =>
    some (s.setServer server { s.servers server with bRun := false, inbox := [] })

/-- The id of a player comes whole in the array of a login request, and is not that of a session on
which nobody has logged in. -/
def Short (szPlayerId : PlayerId) : Prop :=
  szPlayerId ≠ [] ∧ 0 ∉ szPlayerId ∧ szPlayerId.length < idLenth

/-- Who is asked for has such an id. -/
def AsksShort : Label → Prop
  | .playerLogin _ szPlayerId | .gmLogin szPlayerId => Short szPlayerId
  | _ => True

instance : DecidablePred Short := fun _ => inferInstanceAs (Decidable (_ ∧ _))

instance : DecidablePred AsksShort
  | .playerLogin _ szPlayerId | .gmLogin szPlayerId =>
    inferInstanceAs (Decidable (Short szPlayerId))
  | .connect _ | .managerRecv _ | .chatRecv _ | .game _ | .player .. | .closeSession _ | .stop _ =>
    inferInstanceAs (Decidable True)

/-! ### What a server keeps -/

end HandOff

namespace ChatProcess

open HandOff (Short)

/-- The server takes the sign of the player. -/
def Signed (p : ChatProcess) (szPlayerId : PlayerId) : Prop :=
  p.logins.manager.mapLoginSign szPlayerId = some (ChatPlayerManager.signOf szPlayerId)

/-- The server has the hash indices of a session of the manager, or is about to get them. -/
def Owns (chatServerNum : Nat) (p : ChatProcess) (session : Nat) : Prop :=
  p.bRun = true → hashIndices chatServerNum session ⊆ p.logins.setHashIndex ∨
    .notifyChatInfo session ∈ p.inbox

/-- What is not taken back. -/
structure Later (chatServerNum : Nat) (p p' : ChatProcess) : Prop where
  session : ∀ i, p.session = some i → p'.session = some i
  signed : ∀ szPlayerId, p.Signed szPlayerId → p'.Signed szPlayerId
  owns : ∀ session, p.Owns chatServerNum session → p'.Owns chatServerNum session

/-- Nobody has the empty id, under which a session is found that has not logged in. -/
structure Nobody (logins : Logins) : Prop where
  unsigned : logins.manager.mapLoginSign [] = none
  absent : logins.manager.mapPlayers [] = none

/-- Nobody asks a server that the manager has not accepted, and a server is asked for players of
its own. -/
structure Kept (chatServerNum : Nat) (p : ChatProcess) : Prop where
  fresh : p.session = none → p.inbox = []
  routed : ∀ i asker szPlayerId, p.session = some i → .notifyChatLogin asker szPlayerId ∈ p.inbox →
    (hashToIndex szPlayerId).toNat ∈ hashIndices chatServerNum i ∧ Short szPlayerId
  nobody : Nobody p.logins

variable {chatServerNum : Nat} {p p' : ChatProcess}

theorem Later.refl (p : ChatProcess) : p.Later chatServerNum p :=
  ⟨fun _ h => h, fun _ h => h, fun _ h => h⟩

/-- A step that neither signs nor gets hash indices. -/
theorem Later.of_logins (hsession : ∀ i, p.session = some i → p'.session = some i)
    (hrun : p'.bRun = true → p.bRun = true ∧ p.inbox ⊆ p'.inbox)
    (hindex : p'.logins.setHashIndex = p.logins.setHashIndex)
    (hsign : p'.logins.manager.mapLoginSign = p.logins.manager.mapLoginSign) :
    p.Later chatServerNum p' := by
  refine ⟨hsession, fun szPlayerId h => ?_, fun session h hrun' => ?_⟩
  · rw [Signed, hsign]
    exact h
  · obtain ⟨hold, hinbox⟩ := hrun hrun'
    rw [hindex]
    exact (h hold).imp_right fun hm => hinbox hm

theorem Later.tell (p : ChatProcess) (m : ToChat) :
    p.Later chatServerNum { p with inbox := p.inbox ++ [m] } :=
  .of_logins (fun _ h => h) (fun h => ⟨h, List.subset_append_left _ _⟩) rfl rfl

theorem Later.stop (p : ChatProcess) :
    p.Later chatServerNum { p with bRun := false, inbox := [] } :=
  .of_logins (fun _ h => h) (fun h => by cases h) rfl rfl

theorem Later.sign {inbox : List ToChat} {asker : Asker} {szPlayerId : PlayerId}
    (hinbox : p.inbox = .notifyChatLogin asker szPlayerId :: inbox) :
    p.Later chatServerNum { p with inbox := inbox, logins := { p.logins with
      manager := p.logins.manager.createLoginSign szPlayerId } } := by
  refine ⟨fun _ h => h, fun id h => ?_, fun session h hrun => ?_⟩
  · simp only [Signed, ChatPlayerManager.createLoginSign]
    by_cases hid : id = szPlayerId
    · rw [hid, Function.update_self]
    · rw [Function.update_of_ne hid]
      exact h
  · refine (h hrun).imp_right fun hm => ?_
    rw [hinbox] at hm
    simpa using hm

theorem Later.index {inbox : List ToChat} {dwHashIndex : Nat}
    (hinbox : p.inbox = .notifyChatInfo dwHashIndex :: inbox) :
    p.Later chatServerNum { p with inbox := inbox, logins := { p.logins with
      setHashIndex := p.logins.setHashIndex ∪ hashIndices chatServerNum dwHashIndex } } := by
  refine ⟨fun _ h => h, fun _ h => h, fun session h hrun => ?_⟩
  rcases h hrun with hindex | hm
  · exact .inl fun j hj => List.mem_union_left (hindex hj) _
  · rw [hinbox] at hm
    rcases List.mem_cons.mp hm with heq | hm
    · obtain rfl := ToChat.notifyChatInfo.inj heq
      exact .inl fun j hj => List.mem_union_right _ hj
    · exact .inr hm

/-! ### What players leave alone -/

def SameSigns (logins logins' : Logins) : Prop :=
  logins'.setHashIndex = logins.setHashIndex ∧
    logins'.manager.mapLoginSign = logins.manager.mapLoginSign

theorem sameSigns_closeSession (logins : Logins) (pSession : Nat) :
    SameSigns logins (logins.closeSession pSession) := by
  rw [Logins.closeSession]
  split_ifs <;> exact ⟨rfl, rfl⟩

theorem sameSigns_onLogin (logins : Logins) (pSession : Nat) (szId : PlayerId)
    (szSign : List UInt8) : SameSigns logins (logins.onLogin pSession szId szSign) := by
  rw [Logins.onLogin]
  split_ifs
  · rw [ChatPlayerManager.onPlayerLogin]
    cases logins.manager.mapLoginSign szId with
    | none => exact ⟨rfl, rfl⟩
    | some sign =>
      simp only
      split_ifs <;> exact ⟨rfl, rfl⟩
  · exact ⟨rfl, rfl⟩

theorem sameSigns_playerStep {logins logins' : Logins} {l : Logins.Label}
    (hstep : HandOff.playerStep logins l = some logins') : SameSigns logins logins' := by
  cases l with
  | loginSign szPlayerId => cases hstep
  | connect pSession =>
    simp only [HandOff.playerStep, Logins.step] at hstep
    split_ifs at hstep
    exact Option.some.inj hstep ▸ ⟨rfl, rfl⟩
  | login pSession szId szSign =>
    simp only [HandOff.playerStep, Logins.step] at hstep
    split_ifs at hstep
    obtain rfl := Option.some.inj hstep
    rw [Logins.onRecv]
    cases logins.manager.getChatPlayer (logins.session pSession).szId with
    | none => exact sameSigns_onLogin logins pSession szId szSign
    | some player => exact sameSigns_closeSession logins player.pSession
  | closing pSession =>
    obtain rfl := Option.some.inj hstep
    exact sameSigns_closeSession logins pSession
  | close pSession =>
    simp only [HandOff.playerStep, Logins.step] at hstep
    split_ifs at hstep
    exact Option.some.inj hstep ▸ ⟨rfl, rfl⟩

theorem Later.player {logins : Logins} {l : Logins.Label}
    (hstep : HandOff.playerStep p.logins l = some logins) :
    p.Later chatServerNum { p with logins := logins } := by
  obtain ⟨hindex, hsign⟩ := sameSigns_playerStep hstep
  exact .of_logins (fun _ h => h) (fun h => ⟨h, List.Subset.refl _⟩) hindex hsign

theorem Nobody.createLoginSign {logins : Logins} (h : Nobody logins) {szPlayerId : PlayerId}
    (hshort : Short szPlayerId) :
    Nobody { logins with manager := logins.manager.createLoginSign szPlayerId } := by
  refine ⟨?_, h.absent⟩
  simp only [ChatPlayerManager.createLoginSign, Function.update_of_ne hshort.1.symm]
  exact h.unsigned

/-- Without a sign nobody logs in with the empty id. -/
theorem Nobody.onLogin {logins : Logins} (h : Nobody logins) (pSession : Nat) (szId : PlayerId)
    (szSign : List UInt8) : Nobody (logins.onLogin pSession szId szSign) := by
  rw [Logins.onLogin]
  split_ifs
  · rw [ChatPlayerManager.onPlayerLogin]
    cases hsign : logins.manager.mapLoginSign szId with
    | none => exact h
    | some sign =>
      have hne : szId ≠ [] := by
        rintro rfl
        rw [h.unsigned] at hsign
        cases hsign
      simp only
      split_ifs
      · exact h
      · refine ⟨h.unsigned, ?_⟩
        simp only [Function.update_of_ne hne.symm]
        exact h.absent
  · exact h

theorem Nobody.closeSession {logins : Logins} (h : Nobody logins) (pSession : Nat) :
    Nobody (logins.closeSession pSession) := by
  rw [Logins.closeSession]
  split_ifs
  · exact ⟨h.unsigned, h.absent⟩
  · exact h

theorem Nobody.onClose {logins : Logins} (h : Nobody logins) (pSession : Nat) :
    Nobody (logins.onClose pSession) := by
  refine ⟨h.unsigned, ?_⟩
  simp only [Logins.onClose, ChatPlayerManager.onSessionClose]
  by_cases hid : ([] : PlayerId) = (logins.session pSession).szId
  · rw [hid, Function.update_self]
  · rw [Function.update_of_ne hid]
    exact h.absent

theorem Nobody.playerStep {logins logins' : Logins} (h : Nobody logins) {l : Logins.Label}
    (hstep : HandOff.playerStep logins l = some logins') : Nobody logins' := by
  cases l with
  | loginSign szPlayerId => cases hstep
  | connect pSession =>
    simp only [HandOff.playerStep, Logins.step] at hstep
    split_ifs at hstep
    obtain rfl := Option.some.inj hstep
    exact ⟨h.unsigned, h.absent⟩
  | login pSession szId szSign =>
    simp only [HandOff.playerStep, Logins.step] at hstep
    split_ifs at hstep
    obtain rfl := Option.some.inj hstep
    rw [Logins.onRecv]
    cases logins.manager.getChatPlayer (logins.session pSession).szId with
    | none => exact h.onLogin pSession szId szSign
    | some player => exact h.closeSession player.pSession
  | closing pSession =>
    obtain rfl := Option.some.inj hstep
    exact h.closeSession pSession
  | close pSession =>
    simp only [HandOff.playerStep, Logins.step] at hstep
    split_ifs at hstep
    obtain rfl := Option.some.inj hstep
    exact h.onClose pSession

/-! ### The inbox of a server -/

/-- Fewer messages and the same session. -/
theorem Kept.of_subset (h : p.Kept chatServerNum) (hsession : p'.session = p.session)
    (hinbox : p'.inbox ⊆ p.inbox) (hnobody : Nobody p'.logins) : p'.Kept chatServerNum := by
  refine ⟨fun hnone => ?_, fun i asker szPlayerId hi hm => ?_, hnobody⟩
  · rw [hsession] at hnone
    exact List.subset_nil.mp (h.fresh hnone ▸ hinbox)
  · rw [hsession] at hi
    exact h.routed i asker szPlayerId hi (hinbox hm)

end ChatProcess

namespace HandOff

open ChatProcess (Later)

/-! ### What the manager hears -/

/-- A sign for a player of the session that the server takes. -/
def IsSign (chatServerNum : Nat) (p : ChatProcess) (session : Nat) : ToManager → Prop
  | .notifyInfo _ => False
  | .notifyLoginSign _ szPlayerId szSign =>
    szSign = ChatPlayerManager.signOf szPlayerId ∧ p.Signed szPlayerId ∧
      (hashToIndex szPlayerId).toNat ∈ hashIndices chatServerNum session ∧ Short szPlayerId

/-- What is on its way from a server: its address in front of all signs, or signs only, and then
the address is known and the hash indices have been sent. -/
inductive Hears (chatServerNum : Nat) (info : ChatInfo) (p : ChatProcess) (session : Nat)
    (x : ManagerSession) : Prop
  | told (signs : List ToManager) : x.inbox = .notifyInfo info :: signs →
      (∀ m ∈ signs, IsSign chatServerNum p session m) → Hears chatServerNum info p session x
  | known : (∀ m ∈ x.inbox, IsSign chatServerNum p session m) → x.info = info →
      p.Owns chatServerNum session → Hears chatServerNum info p session x

structure SessionKept (chatServerNum : Nat) (infoOf : Nat → ChatInfo) (servers : Nat → ChatProcess)
    (session : Nat) (x : ManagerSession) : Prop where
  closed : x.server = none → x.inbox = []
  linked : ∀ server, x.server = some server → (servers server).session = some session ∧
    Hears chatServerNum (infoOf server) (servers server) session x

/-- The answer names the server that has made the sign and that has the player's hash index, or is
about to get it. -/
def AckKept (chatServerNum : Nat) (infoOf : Nat → ChatInfo) (servers : Nat → ChatProcess)
    (a : LoginAck) : Prop :=
  ∃ server session, a.server = some server ∧ a.info = infoOf server ∧
    IsSign chatServerNum (servers server) session
      (.notifyLoginSign a.asker a.szPlayerId a.szSign) ∧
    (servers server).Owns chatServerNum session

structure Kept (chatServerNum : Nat) (infoOf : Nat → ChatInfo) (s : HandOff) : Prop where
  servers : ∀ server, (s.servers server).Kept chatServerNum
  sessions : ∀ session,
    SessionKept chatServerNum infoOf s.servers session (s.sessions session)
  table : ∀ j session, s.mapSessionIpPort j = some session → j ∈ hashIndices chatServerNum session
  acks : ∀ a ∈ s.acks, AckKept chatServerNum infoOf s.servers a

variable {chatServerNum : Nat} {infoOf : Nat → ChatInfo} {s s' : HandOff} {server session : Nat}
  {p p' : ChatProcess} {x : ManagerSession} {servers servers' : Nat → ChatProcess}

theorem IsSign.later {m : ToManager} (h : IsSign chatServerNum p session m)
    (hlater : p.Later chatServerNum p') : IsSign chatServerNum p' session m := by
  cases m with
  | notifyInfo info => exact h
  | notifyLoginSign asker szPlayerId szSign =>
    exact ⟨h.1, hlater.signed szPlayerId h.2.1, h.2.2⟩

theorem Hears.later {info : ChatInfo} (h : Hears chatServerNum info p session x)
    (hlater : p.Later chatServerNum p') : Hears chatServerNum info p' session x := by
  cases h with
  | told signs hinbox hsigns => exact .told signs hinbox fun m hm => (hsigns m hm).later hlater
  | known hsigns hinfo howns =>
    exact .known (fun m hm => (hsigns m hm).later hlater) hinfo (hlater.owns session howns)

theorem SessionKept.later (h : SessionKept chatServerNum infoOf servers session x)
    (hlater : ∀ k, (servers k).Later chatServerNum (servers' k)) :
    SessionKept chatServerNum infoOf servers' session x := by
  refine ⟨h.closed, fun k hk => ?_⟩
  obtain ⟨hsession, hhears⟩ := h.linked k hk
  exact ⟨(hlater k).session session hsession, hhears.later (hlater k)⟩

theorem AckKept.later {a : LoginAck} (h : AckKept chatServerNum infoOf servers a)
    (hlater : ∀ k, (servers k).Later chatServerNum (servers' k)) :
    AckKept chatServerNum infoOf servers' a := by
  obtain ⟨k, i, hserver, hinfo, hsign, howns⟩ := h
  exact ⟨k, i, hserver, hinfo, hsign.later (hlater k), (hlater k).owns i howns⟩

theorem Kept.setServer (h : s.Kept chatServerNum infoOf)
    (hlater : (s.servers server).Later chatServerNum p) (hkept : p.Kept chatServerNum) :
    (s.setServer server p).Kept chatServerNum infoOf := by
  have hall : ∀ k, (s.servers k).Later chatServerNum ((s.setServer server p).servers k) := by
    intro k
    by_cases hk : k = server
    · subst hk
      simpa [HandOff.setServer] using hlater
    · simpa [HandOff.setServer, hk] using Later.refl (s.servers k)
  refine ⟨fun k => ?_, fun i => (h.sessions i).later hall, h.table,
    fun a ha => (h.acks a ha).later hall⟩
  by_cases hk : k = server
  · subst hk
    simpa [HandOff.setServer] using hkept
  · simpa [HandOff.setServer, hk] using h.servers k

theorem Kept.setSession (h : s.Kept chatServerNum infoOf)
    (hx : SessionKept chatServerNum infoOf s.servers session x) :
    (s.setSession session x).Kept chatServerNum infoOf := by
  refine ⟨h.servers, fun i => ?_, h.table, h.acks⟩
  by_cases hi : i = session
  · subst hi
    simpa [HandOff.setSession] using hx
  · simpa [HandOff.setSession, hi] using h.sessions i

theorem Kept.tell (h : s.Kept chatServerNum infoOf) {m : ToChat}
    (haccepted : (s.servers server).session ≠ none)
    (hrouted : ∀ i asker szPlayerId, (s.servers server).session = some i →
      m = .notifyChatLogin asker szPlayerId →
        (hashToIndex szPlayerId).toNat ∈ hashIndices chatServerNum i ∧ Short szPlayerId) :
    (s.tell server m).Kept chatServerNum infoOf := by
  refine h.setServer (.tell _ m)
    ⟨fun hnone => absurd hnone haccepted, ?_, (h.servers server).nobody⟩
  intro i asker szPlayerId hi hm
  rcases List.mem_append.mp hm with hm | hm
  · exact (h.servers server).routed i asker szPlayerId hi hm
  · exact hrouted i asker szPlayerId hi (List.mem_singleton.mp hm).symm

/-! ### One step -/

theorem kept_start (info : ChatInfo) : (start info).Kept chatServerNum infoOf := by
  constructor
  · exact fun _ => ⟨fun _ => rfl, fun _ _ _ hi => (nomatch hi), ⟨rfl, rfl⟩⟩
  · exact fun _ => ⟨fun _ => rfl, fun _ hk => nomatch hk⟩
  · exact fun _ _ hj => nomatch hj
  · exact fun a ha => nomatch ha

theorem Kept.connect (h : s.Kept chatServerNum infoOf) (hnull : (s.servers server).session = none) :
    ((s.setServer server { s.servers server with session := some session }).setSession session
      { s.sessions session with
        server := some server, inbox := [.notifyInfo (infoOf server)] }).Kept
      chatServerNum infoOf := by
  have hinbox := (h.servers server).fresh hnull
  refine (h.setServer ?_ ?_).setSession ⟨fun hc => (nomatch hc), fun k hk => ?_⟩
  · exact .of_logins (fun i hi => by rw [hnull] at hi; cases hi)
      (fun hrun => ⟨hrun, List.Subset.refl _⟩) rfl rfl
  · refine ⟨fun hc => (nomatch hc), fun i asker szPlayerId _ hm => ?_,
      (h.servers server).nobody⟩
    simp [hinbox] at hm
  · obtain rfl := Option.some.inj hk
    refine ⟨by simp [HandOff.setServer], .told [] rfl fun m hm => nomatch hm⟩

theorem Kept.chatLogin (h : s.Kept chatServerNum infoOf) (asker : Asker) {szPlayerId : PlayerId}
    (hshort : Short szPlayerId) : (s.chatLogin asker szPlayerId).Kept chatServerNum infoOf := by
  rw [HandOff.chatLogin]
  cases htable : s.mapSessionIpPort (hashToIndex szPlayerId).toNat with
  | none => exact h
  | some session =>
    simp only
    cases hserver : (s.sessions session).server with
    | none => exact h
    | some server =>
      have hsession := ((h.sessions session).linked server hserver).1
      have htell : (s.tell server (.notifyChatLogin asker szPlayerId)).Kept chatServerNum infoOf :=
        h.tell (by simp [hsession]) fun i asker' id hi hm => by
          obtain ⟨-, rfl⟩ := ToChat.notifyChatLogin.inj hm
          obtain rfl := Option.some.inj (hsession.symm.trans hi)
          exact ⟨h.table _ session htable, hshort⟩
      exact ⟨htell.servers, htell.sessions, htell.table, htell.acks⟩

/-- The address comes: it is kept, the table is set and the hash index sent. -/
theorem Kept.onChatServerInfo (h : s.Kept chatServerNum infoOf) {info : ChatInfo}
    {signs : List ToManager} (hinbox : (s.sessions session).inbox = .notifyInfo info :: signs) :
    ((s.setSession session { s.sessions session with inbox := signs }).onChatServerInfo
      chatServerNum session info).Kept chatServerNum infoOf := by
  cases hserver : (s.sessions session).server with
  | none => simp [(h.sessions session).closed hserver] at hinbox
  | some server =>
    obtain ⟨hsession, hhears⟩ := (h.sessions session).linked server hserver
    obtain ⟨rfl, hsigns⟩ : info = infoOf server ∧
        ∀ m ∈ signs, IsSign chatServerNum (s.servers server) session m := by
      cases hhears with
      | told signs' hinbox' hsigns =>
        rw [hinbox] at hinbox'
        obtain ⟨hinfo, rfl⟩ := List.cons.inj hinbox'
        exact ⟨ToManager.notifyInfo.inj hinfo, hsigns⟩
      | known hsigns =>
        exact (hsigns (.notifyInfo info) (hinbox ▸ List.mem_cons_self)).elim
    have htell : (s.tell server (.notifyChatInfo session)).Kept chatServerNum infoOf :=
      h.tell (by simp [hsession]) fun i asker id _ hm => nomatch hm
    have hx : SessionKept chatServerNum infoOf (s.tell server (.notifyChatInfo session)).servers
        session ⟨some server, infoOf server, signs⟩ := by
      refine ⟨fun hc => (nomatch hc), fun k hk => ?_⟩
      obtain rfl := Option.some.inj hk
      have hlater : (s.servers server).Later chatServerNum { s.servers server with
          inbox := (s.servers server).inbox ++ [.notifyChatInfo session] } := .tell _ _
      simp only [HandOff.tell, HandOff.setServer, Function.update_self]
      exact ⟨hsession, .known (fun m hm => (hsigns m hm).later hlater) rfl
        fun _ => .inr (List.mem_append_right _ (List.mem_singleton.mpr rfl))⟩
    have hset := htell.setSession hx
    simp only [HandOff.onChatServerInfo, HandOff.setSession, Function.update_self, hserver,
      Function.update_idem]
    refine ⟨hset.servers, hset.sessions, fun j i hj => ?_, hset.acks⟩
    simp only [HandOff.tell, HandOff.setServer, setTable] at hj
    split_ifs at hj with hmem
    · obtain rfl := Option.some.inj hj
      exact hmem
    · exact h.table j i hj

/-- A sign comes, behind the address of its server. -/
theorem Kept.onChatLoginSign (h : s.Kept chatServerNum infoOf) {asker : Asker}
    {szPlayerId : PlayerId} {szSign : List UInt8} {signs : List ToManager}
    (hinbox : (s.sessions session).inbox = .notifyLoginSign asker szPlayerId szSign :: signs) :
    ((s.setSession session { s.sessions session with inbox := signs }).onChatLoginSign session
      asker szPlayerId szSign).Kept chatServerNum infoOf := by
  cases hserver : (s.sessions session).server with
  | none => simp [(h.sessions session).closed hserver] at hinbox
  | some server =>
    obtain ⟨hsession, hhears⟩ := (h.sessions session).linked server hserver
    cases hhears with
    | told signs' hinbox' => simp [hinbox] at hinbox'
    | known hsigns hinfo howns =>
      rw [hinbox] at hsigns
      obtain ⟨hsign, hsigns⟩ := List.forall_mem_cons.mp hsigns
      have hset : (s.setSession session { s.sessions session with inbox := signs }).Kept
          chatServerNum infoOf :=
        h.setSession ⟨fun hc => by simp [hserver] at hc, fun k hk => by
          obtain rfl := Option.some.inj (hserver.symm.trans hk)
          exact ⟨hsession, .known hsigns hinfo howns⟩⟩
      rw [HandOff.onChatLoginSign]
      split_ifs
      · refine ⟨hset.servers, hset.sessions, hset.table, fun a ha => ?_⟩
        rcases List.mem_append.mp ha with ha | ha
        · exact hset.acks a ha
        · obtain rfl := List.mem_singleton.mp ha
          exact ⟨server, session, by simpa [HandOff.setSession] using hserver,
            by simpa [HandOff.setSession] using hinfo, hsign, howns⟩
      · exact hset

theorem Kept.managerRecv (h : s.Kept chatServerNum infoOf)
    (hstep : s.managerRecv chatServerNum session = some s') : s'.Kept chatServerNum infoOf := by
  rw [HandOff.managerRecv] at hstep
  cases hinbox : (s.sessions session).inbox with
  | nil => simp [hinbox] at hstep
  | cons m signs =>
    simp only [hinbox] at hstep
    cases m with
    | notifyInfo info => exact Option.some.inj hstep ▸ h.onChatServerInfo hinbox
    | notifyLoginSign asker szPlayerId szSign =>
      exact Option.some.inj hstep ▸ h.onChatLoginSign hinbox

theorem Hears.append {info : ChatInfo} (h : Hears chatServerNum info p session x) {m : ToManager}
    (hm : IsSign chatServerNum p session m) :
    Hears chatServerNum info p session { x with inbox := x.inbox ++ [m] } := by
  cases h with
  | told signs hinbox hsigns =>
    exact .told (signs ++ [m]) (by simp [hinbox])
      (List.forall_mem_append.mpr ⟨hsigns, List.forall_mem_singleton.mpr hm⟩)
  | known hsigns hinfo howns =>
    exact .known (List.forall_mem_append.mpr ⟨hsigns, List.forall_mem_singleton.mpr hm⟩) hinfo howns

theorem Kept.sendManager (h : s.Kept chatServerNum infoOf) {m : ToManager}
    (hm : ∀ session, (s.servers server).session = some session →
      IsSign chatServerNum (s.servers server) session m) :
    (s.sendManager server m).Kept chatServerNum infoOf := by
  rw [HandOff.sendManager]
  cases hsession : (s.servers server).session with
  | none => exact h
  | some session =>
    simp only
    split_ifs with hserver
    · refine h.setSession ⟨fun hc => by simp [hserver] at hc, fun k hk => ?_⟩
      obtain rfl := Option.some.inj (hserver.symm.trans hk)
      exact ⟨hsession, ((h.sessions session).linked server hserver).2.append (hm session hsession)⟩
    · exact h

@[simp] theorem servers_setServer (s : HandOff) (server : Nat) (p : ChatProcess) :
    (s.setServer server p).servers server = p :=
  Function.update_self ..

@[simp] theorem setServer_setServer (s : HandOff) (server : Nat) (p p' : ChatProcess) :
    (s.setServer server p).setServer server p' = s.setServer server p' := by
  simp [HandOff.setServer]

/-- A server is asked for a player of its own: it keeps the sign and then sends it. -/
theorem Kept.onLoginSign (h : s.Kept chatServerNum infoOf) {asker : Asker} {szPlayerId : PlayerId}
    {inbox : List ToChat}
    (hinbox : (s.servers server).inbox = .notifyChatLogin asker szPlayerId :: inbox) :
    ((s.setServer server { s.servers server with inbox := inbox }).onLoginSign server asker
      szPlayerId).Kept chatServerNum infoOf := by
  have hkept : ({ s.servers server with inbox := inbox, logins := { (s.servers server).logins with
      manager := (s.servers server).logins.manager.createLoginSign szPlayerId } } :
      ChatProcess).Kept chatServerNum := by
    refine (h.servers server).of_subset rfl (hinbox ▸ List.subset_cons_self _ _) ?_
    cases hsession : (s.servers server).session with
    | none => simp [(h.servers server).fresh hsession] at hinbox
    | some session =>
      exact (h.servers server).nobody.createLoginSign ((h.servers server).routed session asker
        szPlayerId hsession (hinbox ▸ List.mem_cons_self)).2
  have hset := h.setServer (.sign hinbox) hkept
  simp only [HandOff.onLoginSign, servers_setServer, setServer_setServer]
  refine hset.sendManager fun session hsession => ?_
  simp only [servers_setServer] at hsession ⊢
  exact ⟨rfl, by simp [ChatProcess.Signed, ChatPlayerManager.createLoginSign],
    (h.servers server).routed session asker szPlayerId hsession (hinbox ▸ List.mem_cons_self)⟩

theorem Kept.chatRecv (h : s.Kept chatServerNum infoOf)
    (hstep : s.chatRecv chatServerNum server = some s') : s'.Kept chatServerNum infoOf := by
  rw [HandOff.chatRecv] at hstep
  cases hinbox : (s.servers server).inbox with
  | nil => simp [hinbox] at hstep
  | cons m inbox =>
    simp only [hinbox] at hstep
    split_ifs at hstep
    cases m with
    | notifyChatInfo dwHashIndex =>
      obtain rfl := Option.some.inj hstep
      simp only [HandOff.onNotifyChatInfo, servers_setServer, setServer_setServer]
      have hnobody := (h.servers server).nobody
      exact h.setServer (.index hinbox) ((h.servers server).of_subset rfl
        (hinbox ▸ List.subset_cons_self _ _) ⟨hnobody.unsigned, hnobody.absent⟩)
    | notifyChatLogin asker szPlayerId => exact Option.some.inj hstep ▸ h.onLoginSign hinbox

theorem Kept.step (h : s.Kept chatServerNum infoOf) {l : Label} (hshort : AsksShort l)
    (hstep : s.step chatServerNum infoOf l = some s') : s'.Kept chatServerNum infoOf := by
  cases l with
  | connect server =>
    simp only [HandOff.step] at hstep
    split_ifs at hstep with hnull
    split at hstep
    · cases hstep
    · exact Option.some.inj hstep ▸ h.connect hnull.2
  | managerRecv session => exact h.managerRecv hstep
  | chatRecv server => exact h.chatRecv hstep
  | game l =>
    obtain ⟨game, -, rfl⟩ := Option.map_eq_some_iff.mp hstep
    exact ⟨h.servers, h.sessions, h.table, h.acks⟩
  | playerLogin session szPlayerId =>
    simp only [HandOff.step] at hstep
    split_ifs at hstep
    exact Option.some.inj hstep ▸ h.chatLogin _ hshort
  | gmLogin szPlayerId =>
    simp only [HandOff.step] at hstep
    split_ifs at hstep
    exact Option.some.inj hstep ▸ h.chatLogin .gm hshort
  | player server l =>
    simp only [HandOff.step] at hstep
    split_ifs at hstep
    obtain ⟨logins, hplayer, rfl⟩ := Option.map_eq_some_iff.mp hstep
    exact h.setServer (.player hplayer) ((h.servers server).of_subset rfl (List.Subset.refl _)
      ((h.servers server).nobody.playerStep hplayer))
  | closeSession session =>
    obtain rfl := Option.some.inj hstep
    exact h.setSession ⟨fun _ => rfl, fun k hk => nomatch hk⟩
  | stop server =>
    obtain rfl := Option.some.inj hstep
    exact h.setServer (.stop _)
      ((h.servers server).of_subset rfl (List.nil_subset _) (h.servers server).nobody)

end HandOff

end ChatServer
