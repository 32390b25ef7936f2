import FxLib.Chat.HashIndex
import FxLib.Lib.Transition
import Mathlib.Logic.Function.Basic

/-!
# Chat servers and their manager

A chat server connects to the manager, whose session for it gives it its hash indices, and is told
which other servers there are. It connects to these, and both ends send each other their index. The
manager and each server keep a table from hash indices to sessions.
-/

namespace ChatServer

/-- The connection of a session between two chat servers. -/
inductive PeerConnection where
  | null
  /-- `TcpConnect` is under way. -/
  | connecting
  /-- A connection, the server and its session at the other end, and whether `OnConnect` has run. -/
  | connected (dwID farEnd farSession : Nat) (onConnect : Bool)
  deriving DecidableEq

/-- How far a server has come with the manager, and which of the manager's sessions it has. -/
inductive Registration where
  | null
  /-- `OnConnect` has sent the ports of the server. -/
  | connected (session : Nat)
  /-- The manager's answer is on its way, with so many other servers. -/
  | answered (session remoteInfo : Nat)
  | registered (session : Nat)
  deriving DecidableEq

def Registration.session : Registration → Option Nat
  | .null => none
  | .connected session | .answered session _ | .registered session => some session

/-- `SetHashIndex` and `OnChatServerInfo` on a table. -/
def setTable (chatServerNum dwIndex session : Nat) (mapSessionIpPort : Nat → Option Nat) :
    Nat → Option Nat :=
  fun i => if i ∈ hashIndices chatServerNum dwIndex then some session else mapSessionIpPort i

/-- A process of `ChatServer`. -/
structure Process where
  bRun : Bool
  registration : Registration
  dwHashIndex : Nat
  setHashIndex : List Nat
  sessions : Nat → PeerConnection
  mapSessionIpPort : Nat → Option Nat

namespace Process

/-- The process as it starts. -/
def start : Process where
  bRun := true
  registration := .null
  dwHashIndex := 0xFFFFFFFF
  setHashIndex := []
  sessions := fun _ => .null
  mapSessionIpPort := fun _ => none

def checkHashIndex (p : Process) (dwIndex : Nat) : Bool := dwIndex ∈ p.setHashIndex

def getChatServerSession (p : Process) (dwIndex : Nat) : Option Nat := p.mapSessionIpPort dwIndex

/-- `ChatServer::SetHashIndex`. -/
def onHashIndex (p : Process) (chatServerNum dwIndex : Nat) : Process :=
  { p with
    dwHashIndex := dwIndex
    setHashIndex := p.setHashIndex ∪ hashIndices chatServerNum dwIndex }

/-- Which session `CreateSession` gives. -/
def createSession (p : Process) (chatServerNum : Nat) : Option Nat :=
  (List.range (chatServerNum - 1)).find? fun i => p.sessions i = .null

def setSession (p : Process) (session : Nat) (connection : PeerConnection) : Process :=
  { p with sessions := Function.update p.sessions session connection }

/-- The loop of `OnNotifyChatInfo`: a session and `TcpConnect` for each other server. -/
def connectRemotes (chatServerNum : Nat) : Nat → Process → Process
  | 0, p => p
  | n + 1, p =>
    match p.createSession chatServerNum with
    | none => p
    | some session => connectRemotes chatServerNum n (p.setSession session .connecting)

/-- `ChatManagerSession::OnNotifyChatInfo`. -/
def onNotifyChatInfo (p : Process) (chatServerNum dwHashIndex remoteInfo : Nat) : Process :=
  { connectRemotes chatServerNum remoteInfo (p.onHashIndex chatServerNum dwHashIndex) with
    registration := .registered dwHashIndex }

end Process

/-- `ChatServerSessionManager` of the manager. -/
structure Manager where
  /-- The server at the other end of each session. -/
  sessions : Nat → Option Nat
  /-- The sessions whose ports are known. -/
  hasPorts : Nat → Bool
  mapSessionIpPort : Nat → Option Nat

namespace Manager

def createSession (m : Manager) (chatServerNum : Nat) : Option Nat :=
  (List.range chatServerNum).find? fun i => m.sessions i = none

def getChatServerSession (m : Manager) (dwHashIndex : Nat) : Option Nat :=
  m.mapSessionIpPort dwHashIndex

/-- How many other servers go into the answer to a session. -/
def remoteInfo (m : Manager) (chatServerNum session : Nat) : Nat :=
  ((List.range chatServerNum).filter fun i => i ≠ session ∧ m.hasPorts i).length

/-- `OnChatServerInfo`, with whether the server has both its ports. -/
def onChatServerInfo (m : Manager) (chatServerNum session : Nat) (ports : Bool) : Manager :=
  { m with
    hasPorts := Function.update m.hasPorts session ports
    mapSessionIpPort := setTable chatServerNum session session m.mapSessionIpPort }

end Manager

/-- `CHAT_NOTIFY_CHAT_HASH_INDEX` on its way to the session of a server. -/
structure HashIndexMsg where
  dwID : Nat
  server : Nat
  session : Nat
  dwHashIndex : Nat

/-- The manager and the servers. A server that has done nothing yet is one that will be started. -/
structure Routing where
  manager : Manager
  servers : Nat → Process
  connNum : Nat
  flight : List HashIndexMsg

namespace Routing

def start : Routing where
  manager := ⟨fun _ => none, fun _ => false, fun _ => none⟩
  servers := fun _ => .start
  connNum := 0
  flight := []

inductive Label where
  /-- The manager accepts a server. -/
  | connectManager (server : Nat)
  /-- The manager answers the ports of a server. -/
  | chatServerInfo (session : Nat) (ports : Bool)
  /-- The answer comes to the server. -/
  | notifyChatInfo (server : Nat)
  /-- A session of the manager has closed. -/
  | closeManager (session : Nat)
  /-- A server ends; so it does where its connection to the manager closes. -/
  | stop (server : Nat)
  /-- `TcpConnect` for a session of one server leads to another. -/
  | connect (server session remote : Nat)
  /-- A session with a new connection comes to `OnConnect`. -/
  | onConnect (server session : Nat)
  /-- The message at this place of `flight` comes to its session. -/
  | hashIndex (place : Nat)
  /-- A session of a server has closed. -/
  | close (server session : Nat)
  deriving DecidableEq

def setServer (s : Routing) (server : Nat) (p : Process) : Routing :=
  { s with servers := Function.update s.servers server p }

/-- A session of a server gets a connection. -/
def attach (s : Routing) (dwID server session farEnd farSession : Nat) : Routing :=
  s.setServer server
    ((s.servers server).setSession session (.connected dwID farEnd farSession false))

/-- Two servers get connected. -/
def connect (s : Routing) (server session remote remoteSession : Nat) : Routing :=
  { (s.attach s.connNum server session remote remoteSession).attach s.connNum remote remoteSession
      server session with
    connNum := s.connNum + 1 }

/-- `ChatServerSession::OnConnect` sends the server's hash index. -/
def onConnect (s : Routing) (server session dwID farEnd farSession : Nat) : Routing :=
  let p := s.servers server
  { s.setServer server (p.setSession session (.connected dwID farEnd farSession true)) with
    flight := s.flight ++ [⟨dwID, farEnd, farSession, p.dwHashIndex⟩] }

/-- `OnChatToChatHashIndex`, if the connection is still there. -/
def onChatToChatHashIndex (s : Routing) (chatServerNum : Nat) (m : HashIndexMsg) : Routing :=
  let p := s.servers m.server
  match p.sessions m.session with
  | .connected dwID _ _ _ =>
    if p.bRun ∧ dwID = m.dwID then
      s.setServer m.server { p with
        mapSessionIpPort := setTable chatServerNum m.dwHashIndex m.session p.mapSessionIpPort }
    else s
  | .null | .connecting => s

def step (chatServerNum : Nat) (s : Routing) : Label → Option Routing
  | .connectManager server =>
    let p := s.servers server
    if p.bRun ∧ p.registration = .null then
      match s.manager.createSession chatServerNum with
      | none => none
      | some session => some { s.setServer server { p with registration := .connected session } with
          manager := { s.manager with
            sessions := Function.update s.manager.sessions session (some server) } }
    else none
  | .chatServerInfo session ports =>
    match s.manager.sessions session with
    | none => none
    | some server =>
      let p := s.servers server
      if p.registration = .connected session then
        some { s.setServer server { p with
            registration := .answered session (s.manager.remoteInfo chatServerNum session) } with
          manager := s.manager.onChatServerInfo chatServerNum session ports }
      else none
  | .notifyChatInfo server =>
    let p := s.servers server
    if p.bRun then
      match p.registration with
      | .answered session remoteInfo =>
        some (s.setServer server (p.onNotifyChatInfo chatServerNum session remoteInfo))
      | .null | .connected _ | .registered _ => none
    else none
  | .closeManager session =>
    some { s with manager := { s.manager with
      sessions := Function.update s.manager.sessions session none } }
  | .stop server => some (s.setServer server { s.servers server with bRun := false })
  | .connect server session remote =>
    if (s.servers server).bRun ∧ (s.servers remote).bRun ∧
        (s.servers server).sessions session = .connecting then
      match (s.servers remote).createSession chatServerNum with
      | none => none
      | some remoteSession => some (s.connect server session remote remoteSession)
    else none
  | .onConnect server session =>
    match (s.servers server).sessions session with
    | .connected dwID farEnd farSession false =>
      if (s.servers server).bRun then some (s.onConnect server session dwID farEnd farSession)
      else none
    | .connected _ _ _ true | .null | .connecting => none
  | .hashIndex place =>
    match s.flight[place]? with
    | none => none
    | some m =>
      some { s.onChatToChatHashIndex chatServerNum m with flight := s.flight.eraseIdx place }
  | .close server session =>
    some (s.setServer server ((s.servers server).setSession session .null))

/-- The server runs, and the manager and it have a connection over which it has its index. -/
def Live (s : Routing) (server : Nat) : Prop :=
  (s.servers server).bRun = true ∧ ∃ session,
    (s.servers server).registration = .registered session ∧
      s.manager.sessions session = some server

/-- What the manager sends to the server now finds it with the index: it has it, or the answer that
gives it comes before. -/
def Accepts (chatServerNum : Nat) (s : Routing) (server dwHashIndex : Nat) : Prop :=
  (s.servers server).checkHashIndex dwHashIndex = true ∨ ∃ session remoteInfo,
    (s.servers server).registration = .answered session remoteInfo ∧
      dwHashIndex ∈ hashIndices chatServerNum session

/-- No two servers have an index together, and who looks for the session of an index finds none, or
none that is connected, or one with a server of the index at its other end. -/
structure Partition (chatServerNum : Nat) (s : Routing) : Prop where
  disjoint : ∀ server server', s.Live server → s.Live server' → server ≠ server' →
    ∀ dwHashIndex, (s.servers server).checkHashIndex dwHashIndex = true →
      ¬ (s.servers server').checkHashIndex dwHashIndex = true
  manager : ∀ dwHashIndex session server,
    s.manager.getChatServerSession dwHashIndex = some session →
      s.manager.sessions session = some server → s.Accepts chatServerNum server dwHashIndex
  peers : ∀ server dwHashIndex session dwID farEnd farSession onConnect,
    (s.servers server).getChatServerSession dwHashIndex = some session →
      (s.servers server).sessions session = .connected dwID farEnd farSession onConnect →
        (s.servers farEnd).checkHashIndex dwHashIndex = true

/-- The server has every index under which the table names the session. -/
def Owns (p : Process) (mapSessionIpPort : Nat → Option Nat) (session : Nat) : Prop :=
  ∀ dwHashIndex < dwHashGen, mapSessionIpPort dwHashIndex = some session →
    p.checkHashIndex dwHashIndex = true

/-- The condition on a step: where a session gets a new connection, the server at the other end has
every index under which the session is still in the table. -/
def Fresh (chatServerNum : Nat) (s : Routing) : Label → Prop
  | .connectManager server =>
    ∀ session ∈ s.manager.createSession chatServerNum,
      Owns (s.servers server) s.manager.mapSessionIpPort session
  | .connect server session remote =>
    Owns (s.servers remote) (s.servers server).mapSessionIpPort session ∧
      ∀ remoteSession ∈ (s.servers remote).createSession chatServerNum,
        Owns (s.servers server) (s.servers remote).mapSessionIpPort remoteSession
  | .chatServerInfo _ _ | .notifyChatInfo _ | .closeManager _ | .stop _ | .onConnect _ _
  | .hashIndex _ | .close _ _ => True

instance (p : Process) (mapSessionIpPort : Nat → Option Nat) (session : Nat) :
    Decidable (Owns p mapSessionIpPort session) :=
  inferInstanceAs (Decidable (∀ dwHashIndex < dwHashGen, _ → _))

instance (chatServerNum : Nat) (s : Routing) : (l : Label) → Decidable (Fresh chatServerNum s l)
  | .connectManager _ =>
    inferInstanceAs (Decidable (∀ session ∈ s.manager.createSession chatServerNum, _))
  | .connect _ _ remote =>
    inferInstanceAs (Decidable (_ ∧
      ∀ session ∈ (s.servers remote).createSession chatServerNum, _))
  | .chatServerInfo _ _ | .notifyChatInfo _ | .closeManager _ | .stop _ | .onConnect _ _
  | .hashIndex _ | .close _ _ => inferInstanceAs (Decidable True)

end Routing

end ChatServer
