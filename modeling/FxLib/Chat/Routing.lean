import FxLib.Chat.Registration

/-!
# Routing by hash index

A server has the indices of its session with the manager and no others. What a server's table says
of a session is true of the server at the other end as long as the session keeps its connection;
when the session gets another one, the table still says it.
-/

namespace ChatServer

namespace Process

variable {p : Process} {n : Nat}

theorem sessions_setSession (p : Process) (session : Nat) (connection : PeerConnection)
    (session' : Nat) : (p.setSession session connection).sessions session' =
      if session' = session then connection else p.sessions session' :=
  Function.update_apply p.sessions session connection session'

theorem connectRemotes_eq (chatServerNum remoteInfo : Nat) (p : Process) :
    ∃ sessions, connectRemotes chatServerNum remoteInfo p = { p with sessions := sessions } ∧
      ∀ session dwID farEnd farSession onConnect,
        sessions session = .connected dwID farEnd farSession onConnect →
          p.sessions session = .connected dwID farEnd farSession onConnect := by
  induction remoteInfo generalizing p with
  | zero => exact ⟨p.sessions, rfl, fun _ _ _ _ _ h => h⟩
  | succ remoteInfo ih =>
    rw [connectRemotes]
    cases hsession : p.createSession chatServerNum with
    | none => exact ⟨p.sessions, rfl, fun _ _ _ _ _ h => h⟩
    | some session =>
      obtain ⟨sessions, heq, hold⟩ := ih (p.setSession session .connecting)
      refine ⟨sessions, heq, fun session' dwID farEnd farSession onConnect h => ?_⟩
      have hupdate := hold session' dwID farEnd farSession onConnect h
      rw [sessions_setSession] at hupdate
      split at hupdate
      · cases hupdate
      · exact hupdate

/-- What a server has, by how far it has come with the manager. -/
def Held (chatServerNum : Nat) (p : Process) : Prop :=
  match p.registration with
  | .null | .connected _ | .answered _ _ => p.dwHashIndex = 0xFFFFFFFF ∧ p.setHashIndex = []
  | .registered session =>
    p.dwHashIndex = session ∧ p.setHashIndex = [] ∪ hashIndices chatServerNum session

theorem Held.checkHashIndex (h : Held n p) {dwHashIndex : Nat}
    (hin : dwHashIndex ∈ hashIndices n p.dwHashIndex) : p.checkHashIndex dwHashIndex = true := by
  rw [Held] at h
  cases hreg : p.registration with
  | registered session =>
    rw [hreg] at h
    rw [h.1] at hin
    simp [Process.checkHashIndex, h.2, hin]
  | null | connected | answered =>
    rw [hreg] at h
    rw [h.1, mem_hashIndices] at hin
    have hle := Nat.mod_le dwHashIndex n
    omega

end Process

namespace Routing

variable {n : Nat} {s s' : Routing}

theorem servers_setServer (s : Routing) (server : Nat) (p : Process) (server' : Nat) :
    (s.setServer server p).servers server' = if server' = server then p else s.servers server' :=
  Function.update_apply s.servers server p server'

/-- What is true of the tables of the servers, and of the messages that will get into them. -/
structure Linked (n : Nat) (s : Routing) : Prop where
  peers : ∀ server dwHashIndex session dwID farEnd farSession onConnect,
    (s.servers server).mapSessionIpPort dwHashIndex = some session →
      (s.servers server).sessions session = .connected dwID farEnd farSession onConnect →
        (s.servers farEnd).checkHashIndex dwHashIndex = true
  bounded : ∀ server dwHashIndex session,
    (s.servers server).mapSessionIpPort dwHashIndex = some session → dwHashIndex < dwHashGen
  used : ∀ server session dwID farEnd farSession onConnect,
    (s.servers server).sessions session = .connected dwID farEnd farSession onConnect →
      dwID < s.connNum
  paired : ∀ server session dwID farEnd farSession onConnect,
    (s.servers server).sessions session = .connected dwID farEnd farSession onConnect →
      ∀ server' session' onConnect',
        (s.servers farEnd).sessions farSession = .connected dwID server' session' onConnect' →
          server' = server
  flight : ∀ m ∈ s.flight, m.dwID < s.connNum ∧ ∀ farEnd farSession onConnect,
    (s.servers m.server).sessions m.session = .connected m.dwID farEnd farSession onConnect →
      ∀ dwHashIndex ∈ hashIndices n m.dwHashIndex,
        (s.servers farEnd).checkHashIndex dwHashIndex = true

theorem linked_start : Linked n start where
  peers _ _ _ _ _ _ _ h := by cases h
  bounded _ _ _ h := by cases h
  used _ _ _ _ _ _ h := by cases h
  paired _ _ _ _ _ _ h := by cases h
  flight _ h := absurd h List.not_mem_nil

/-- A server may get indices and lose connections. -/
theorem Linked.setServer (h : Linked n s) {server : Nat} {p : Process}
    (hcheck : ∀ dwHashIndex, (s.servers server).checkHashIndex dwHashIndex = true →
      p.checkHashIndex dwHashIndex = true)
    (hsessions : ∀ session dwID farEnd farSession onConnect,
      p.sessions session = .connected dwID farEnd farSession onConnect → ∃ onConnect',
        (s.servers server).sessions session = .connected dwID farEnd farSession onConnect')
    (hmap : p.mapSessionIpPort = (s.servers server).mapSessionIpPort) :
    Linked n (s.setServer server p) := by
  have hcheck' : ∀ x dwHashIndex, (s.servers x).checkHashIndex dwHashIndex = true →
      ((s.setServer server p).servers x).checkHashIndex dwHashIndex = true := by
    intro x dwHashIndex hx
    rw [servers_setServer]
    split
    · subst x
      exact hcheck dwHashIndex hx
    · exact hx
  have hsessions' : ∀ x session dwID farEnd farSession onConnect,
      ((s.setServer server p).servers x).sessions session =
        .connected dwID farEnd farSession onConnect → ∃ onConnect',
          (s.servers x).sessions session = .connected dwID farEnd farSession onConnect' := by
    intro x session dwID farEnd farSession onConnect hx
    rw [servers_setServer] at hx
    split at hx
    · subst x
      exact hsessions session dwID farEnd farSession onConnect hx
    · exact ⟨onConnect, hx⟩
  have hmap' : ∀ x, ((s.setServer server p).servers x).mapSessionIpPort =
      (s.servers x).mapSessionIpPort := by
    intro x
    rw [servers_setServer]
    split
    · subst x
      exact hmap
    · rfl
  refine ⟨fun x dwHashIndex session dwID farEnd farSession onConnect htable hsession => ?_,
    fun x dwHashIndex session htable => h.bounded x dwHashIndex session (hmap' x ▸ htable),
    fun x session dwID farEnd farSession onConnect hsession => ?_,
    fun x session dwID farEnd farSession onConnect hsession y session' onConnect' hfar => ?_,
    fun m hm => ⟨(h.flight m hm).1,
      fun farEnd farSession onConnect hsession dwHashIndex hin => ?_⟩⟩
  · obtain ⟨onConnect', hold⟩ := hsessions' _ _ _ _ _ _ hsession
    exact hcheck' _ _ (h.peers x dwHashIndex session dwID farEnd farSession onConnect'
      (hmap' x ▸ htable) hold)
  · obtain ⟨onConnect', hold⟩ := hsessions' _ _ _ _ _ _ hsession
    exact h.used x session dwID farEnd farSession onConnect' hold
  · obtain ⟨b, hold⟩ := hsessions' _ _ _ _ _ _ hsession
    obtain ⟨b', hfar'⟩ := hsessions' _ _ _ _ _ _ hfar
    exact h.paired x session dwID farEnd farSession b hold y session' b' hfar'
  · obtain ⟨onConnect', hold⟩ := hsessions' _ _ _ _ _ _ hsession
    exact hcheck' _ _ ((h.flight m hm).2 farEnd farSession onConnect' hold dwHashIndex hin)

theorem Linked.setManager (h : Linked n s) (m : Manager) : Linked n { s with manager := m } :=
  ⟨h.peers, h.bounded, h.used, h.paired, h.flight⟩

/-- A server that differs in how far it has come with the manager, or whether it runs. -/
theorem Linked.setRegistration (h : Linked n s) (server : Nat) (bRun : Bool)
    (registration : Registration) :
    Linked n (s.setServer server { s.servers server with
      bRun := bRun, registration := registration }) :=
  h.setServer (fun _ hcheck => hcheck) (fun _ _ _ _ onConnect hsession => ⟨onConnect, hsession⟩) rfl

theorem Linked.close (h : Linked n s) (server session : Nat) :
    Linked n (s.setServer server ((s.servers server).setSession session .null)) := by
  refine h.setServer (fun _ hcheck => hcheck)
    (fun session' dwID farEnd farSession onConnect hsession => ⟨onConnect, ?_⟩) rfl
  rw [Process.sessions_setSession] at hsession
  split at hsession
  · cases hsession
  · exact hsession

theorem Linked.onNotifyChatInfo (h : Linked n s) (server dwHashIndex remoteInfo : Nat) :
    Linked n (s.setServer server
      ((s.servers server).onNotifyChatInfo n dwHashIndex remoteInfo)) := by
  obtain ⟨sessions, heq, hold⟩ :=
    Process.connectRemotes_eq n remoteInfo ((s.servers server).onHashIndex n dwHashIndex)
  rw [Process.onNotifyChatInfo, heq]
  refine h.setServer (fun dwHashIndex' hcheck => ?_)
    (fun session dwID farEnd farSession onConnect hsession =>
      ⟨onConnect, hold session dwID farEnd farSession onConnect hsession⟩) rfl
  simp only [Process.checkHashIndex, decide_eq_true_eq] at hcheck ⊢
  simp [Process.onHashIndex, hcheck]

/-- A message whose sender has the indices it will stand for. -/
theorem Linked.send (h : Linked n s) {m : HashIndexMsg} (hused : m.dwID < s.connNum)
    (hm : ∀ farEnd farSession onConnect,
      (s.servers m.server).sessions m.session = .connected m.dwID farEnd farSession onConnect →
        ∀ dwHashIndex ∈ hashIndices n m.dwHashIndex,
          (s.servers farEnd).checkHashIndex dwHashIndex = true) :
    Linked n { s with flight := s.flight ++ [m] } := by
  refine ⟨h.peers, h.bounded, h.used, h.paired, fun m' hm' => ?_⟩
  rcases List.mem_append.mp hm' with hm' | hm'
  · exact h.flight m' hm'
  · obtain rfl := List.mem_singleton.mp hm'
    exact ⟨hused, hm⟩

theorem Linked.onConnect (h : Linked n s) {server session dwID farEnd farSession : Nat}
    (hheld : (s.servers server).Held n)
    (hsession : (s.servers server).sessions session = .connected dwID farEnd farSession false) :
    Linked n (s.onConnect server session dwID farEnd farSession) := by
  have hlinked : Linked n (s.setServer server
      ((s.servers server).setSession session (.connected dwID farEnd farSession true))) := by
    refine h.setServer (fun _ hcheck => hcheck)
      (fun session' dwID' farEnd' farSession' onConnect hsession' => ?_) rfl
    rw [Process.sessions_setSession] at hsession'
    split at hsession'
    · obtain ⟨rfl, rfl, rfl, rfl⟩ := PeerConnection.connected.inj hsession'
      subst session'
      exact ⟨false, hsession⟩
    · exact ⟨onConnect, hsession'⟩
  have hnew : ((s.setServer server ((s.servers server).setSession session
      (.connected dwID farEnd farSession true))).servers server).sessions session =
        .connected dwID farEnd farSession true := by
    simp [servers_setServer, Process.sessions_setSession]
  refine hlinked.send (h.used _ _ _ _ _ _ hsession) fun back backSession onConnect hback i hi => ?_
  obtain rfl := hlinked.paired _ _ _ _ _ _ hnew _ _ _ hback
  rw [servers_setServer, if_pos rfl]
  exact hheld.checkHashIndex hi

theorem sessions_connect (s : Routing) (server session remote remoteSession x session' : Nat) :
    ((s.connect server session remote remoteSession).servers x).sessions session' =
      if x = remote ∧ session' = remoteSession then .connected s.connNum server session false
      else if x = server ∧ session' = session then
        .connected s.connNum remote remoteSession false
      else (s.servers x).sessions session' := by
  simp only [connect, attach, servers_setServer]
  by_cases hremote : x = remote
  · subst hremote
    by_cases hserver : x = server
    · subst hserver
      simp [Process.sessions_setSession]
    · simp [Process.sessions_setSession, hserver]
  · by_cases hserver : x = server
    · subst hserver
      simp [Process.sessions_setSession, hremote]
    · simp [hremote, hserver]

theorem servers_connect (s : Routing) (server session remote remoteSession x : Nat) :
    ∃ sessions, (s.connect server session remote remoteSession).servers x =
      { s.servers x with sessions := sessions } := by
  simp only [connect, attach, servers_setServer, Process.setSession]
  split_ifs with hremote hserver hserver
  · subst hremote hserver
    exact ⟨_, rfl⟩
  · subst hremote
    exact ⟨_, rfl⟩
  · subst hserver
    exact ⟨_, rfl⟩
  · exact ⟨_, rfl⟩

theorem checkHashIndex_connect (s : Routing) (server session remote remoteSession x : Nat) :
    ((s.connect server session remote remoteSession).servers x).checkHashIndex =
      (s.servers x).checkHashIndex := by
  obtain ⟨sessions, heq⟩ := servers_connect s server session remote remoteSession x
  rw [heq]
  rfl

theorem mapSessionIpPort_connect (s : Routing)
    (server session remote remoteSession x : Nat) :
    ((s.connect server session remote remoteSession).servers x).mapSessionIpPort =
      (s.servers x).mapSessionIpPort := by
  obtain ⟨sessions, heq⟩ := servers_connect s server session remote remoteSession x
  rw [heq]

/-- A connected session is one end of the new connection, or was connected before. -/
theorem connected_connect {server session remote remoteSession x session' : Nat}
    {dwID farEnd farSession : Nat} {onConnect : Bool}
    (h : ((s.connect server session remote remoteSession).servers x).sessions session' =
      .connected dwID farEnd farSession onConnect) :
    (x = remote ∧ session' = remoteSession ∧ dwID = s.connNum ∧ farEnd = server ∧
      farSession = session) ∨
    (x = server ∧ session' = session ∧ dwID = s.connNum ∧ farEnd = remote ∧
      farSession = remoteSession) ∨
    (s.servers x).sessions session' = .connected dwID farEnd farSession onConnect := by
  rw [sessions_connect] at h
  split_ifs at h with hremote hserver
  · obtain ⟨rfl, rfl, rfl, -⟩ := PeerConnection.connected.inj h
    exact Or.inl ⟨hremote.1, hremote.2, rfl, rfl, rfl⟩
  · obtain ⟨rfl, rfl, rfl, -⟩ := PeerConnection.connected.inj h
    exact Or.inr (Or.inl ⟨hserver.1, hserver.2, rfl, rfl, rfl⟩)
  · exact Or.inr (Or.inr h)

theorem Linked.connect (h : Linked n s) {server session remote remoteSession : Nat}
    (hserver : Owns (s.servers remote) (s.servers server).mapSessionIpPort session)
    (hremote : Owns (s.servers server) (s.servers remote).mapSessionIpPort remoteSession) :
    Linked n (s.connect server session remote remoteSession) where
  peers x dwHashIndex session' dwID farEnd farSession onConnect htable hsession := by
    rw [mapSessionIpPort_connect] at htable
    rw [checkHashIndex_connect]
    have hlt := h.bounded x dwHashIndex session' htable
    obtain ⟨rfl, rfl, -, rfl, -⟩ | ⟨rfl, rfl, -, rfl, -⟩ | hold := connected_connect hsession
    · exact hremote dwHashIndex hlt htable
    · exact hserver dwHashIndex hlt htable
    · exact h.peers _ _ _ _ _ _ _ htable hold
  bounded x dwHashIndex session' htable := by
    rw [mapSessionIpPort_connect] at htable
    exact h.bounded x dwHashIndex session' htable
  used x session' dwID farEnd farSession onConnect hsession := by
    obtain ⟨-, -, rfl, -⟩ | ⟨-, -, rfl, -⟩ | hold := connected_connect hsession
    · exact Nat.lt_succ_self _
    · exact Nat.lt_succ_self _
    · exact Nat.lt_succ_of_lt (h.used _ _ _ _ _ _ hold)
  paired x session' dwID farEnd farSession onConnect hsession y session'' onConnect' hfar := by
    obtain ⟨rfl, rfl, hid, rfl, rfl⟩ | ⟨rfl, rfl, hid, rfl, rfl⟩ | hold :=
      connected_connect hsession <;>
    obtain ⟨hy, -, hid', rfl, -⟩ | ⟨hy, -, hid', rfl, -⟩ | hfar := connected_connect hfar
    · exact hy
    · rfl
    · exact absurd (h.used _ _ _ _ _ _ hfar) (by omega)
    · rfl
    · exact hy
    · exact absurd (h.used _ _ _ _ _ _ hfar) (by omega)
    · exact absurd (h.used _ _ _ _ _ _ hold) (by omega)
    · exact absurd (h.used _ _ _ _ _ _ hold) (by omega)
    · exact h.paired _ _ _ _ _ _ hold _ _ _ hfar
  flight m hm := by
    obtain ⟨hlt, hin⟩ := h.flight m hm
    refine ⟨Nat.lt_succ_of_lt hlt, fun farEnd farSession onConnect hsession dwHashIndex hi => ?_⟩
    rw [checkHashIndex_connect]
    obtain ⟨-, -, hid, -⟩ | ⟨-, -, hid, -⟩ | hold := connected_connect hsession
    · omega
    · omega
    · exact hin farEnd farSession onConnect hold dwHashIndex hi

/-- A session gets into the table of its server. -/
theorem Linked.setTable (h : Linked n s) {server dwHashIndex session : Nat}
    (hin : ∀ dwID farEnd farSession onConnect,
      (s.servers server).sessions session = .connected dwID farEnd farSession onConnect →
        ∀ i ∈ hashIndices n dwHashIndex, (s.servers farEnd).checkHashIndex i = true) :
    Linked n (s.setServer server { s.servers server with
      mapSessionIpPort :=
        setTable n dwHashIndex session (s.servers server).mapSessionIpPort }) := by
  have hcheck : ∀ x, ((s.setServer server { s.servers server with
      mapSessionIpPort := ChatServer.setTable n dwHashIndex session
        (s.servers server).mapSessionIpPort }).servers x).checkHashIndex =
      (s.servers x).checkHashIndex := by
    intro x
    rw [servers_setServer]
    split
    · subst x
      rfl
    · rfl
  have hsessions : ∀ x, ((s.setServer server { s.servers server with
      mapSessionIpPort := ChatServer.setTable n dwHashIndex session
        (s.servers server).mapSessionIpPort }).servers x).sessions = (s.servers x).sessions := by
    intro x
    rw [servers_setServer]
    split
    · subst x
      rfl
    · rfl
  have hmap : ∀ x i k, ((s.setServer server { s.servers server with
      mapSessionIpPort := ChatServer.setTable n dwHashIndex session
        (s.servers server).mapSessionIpPort }).servers x).mapSessionIpPort i = some k →
      (x = server ∧ k = session ∧ i ∈ hashIndices n dwHashIndex) ∨
        (s.servers x).mapSessionIpPort i = some k := by
    intro x i k htable
    rw [servers_setServer] at htable
    split at htable
    · subst x
      simp only [ChatServer.setTable] at htable
      split at htable
      · exact Or.inl ⟨rfl, (Option.some.inj htable).symm, ‹_›⟩
      · exact Or.inr htable
    · exact Or.inr htable
  refine ⟨fun x i k dwID farEnd farSession onConnect htable hsession => ?_,
    fun x i k htable => ?_, fun x k dwID farEnd farSession onConnect hsession => ?_,
    fun x k dwID farEnd farSession onConnect hsession y k' onConnect' hfar => ?_,
    fun m hm => ⟨(h.flight m hm).1, fun farEnd farSession onConnect hsession i hi => ?_⟩⟩
  · rw [hsessions] at hsession
    rw [hcheck]
    obtain ⟨rfl, rfl, hi⟩ | hold := hmap x i k htable
    · exact hin _ _ _ _ hsession i hi
    · exact h.peers _ _ _ _ _ _ _ hold hsession
  · obtain ⟨-, -, hi⟩ | hold := hmap x i k htable
    · exact (mem_hashIndices.mp hi).1
    · exact h.bounded x i k hold
  · rw [hsessions] at hsession
    exact h.used _ _ _ _ _ _ hsession
  · rw [hsessions] at hsession hfar
    exact h.paired _ _ _ _ _ _ hsession _ _ _ hfar
  · rw [hsessions] at hsession
    rw [hcheck]
    exact (h.flight m hm).2 farEnd farSession onConnect hsession i hi

theorem Linked.onChatToChatHashIndex (h : Linked n s) {m : HashIndexMsg} (hm : m ∈ s.flight) :
    Linked n (s.onChatToChatHashIndex n m) := by
  rw [Routing.onChatToChatHashIndex]
  cases hsession : (s.servers m.server).sessions m.session with
  | null | connecting => exact h
  | connected dwID farEnd farSession onConnect =>
    dsimp only
    split_ifs with hthere
    · obtain ⟨-, rfl⟩ := hthere
      refine h.setTable fun dwID farEnd' farSession' onConnect' hsession' i hi => ?_
      obtain ⟨rfl, rfl, rfl, rfl⟩ := PeerConnection.connected.inj (hsession.symm.trans hsession')
      exact (h.flight m hm).2 farEnd farSession onConnect hsession i hi
    · exact h

theorem flight_onChatToChatHashIndex (s : Routing) (m : HashIndexMsg) :
    (s.onChatToChatHashIndex n m).flight = s.flight := by
  rw [Routing.onChatToChatHashIndex]
  split
  · split <;> rfl
  · rfl
  · rfl

theorem Linked.receive (h : Linked n s) {flight : List HashIndexMsg} (hsub : flight ⊆ s.flight) :
    Linked n { s with flight := flight } :=
  ⟨h.peers, h.bounded, h.used, h.paired, fun m hm => h.flight m (hsub hm)⟩

/-! ### The manager -/

/-- What is true of the manager's table, and of what the servers have from the manager. -/
structure Managed (n : Nat) (s : Routing) : Prop where
  sessions : ∀ session server, s.manager.sessions session = some server →
    (s.servers server).registration.session = some session
  held : ∀ server, (s.servers server).Held n
  accepts : ∀ dwHashIndex session server, s.manager.mapSessionIpPort dwHashIndex = some session →
    s.manager.sessions session = some server → s.Accepts n server dwHashIndex
  bounded : ∀ dwHashIndex session, s.manager.mapSessionIpPort dwHashIndex = some session →
    dwHashIndex < dwHashGen

theorem managed_start : Managed n start where
  sessions _ _ h := by cases h
  held _ := ⟨rfl, rfl⟩
  accepts _ _ _ h := by cases h
  bounded _ _ h := by cases h

/-- What a server has from the manager. -/
def fromManager (p : Process) : Registration × Nat × List Nat :=
  (p.registration, p.dwHashIndex, p.setHashIndex)

theorem Accepts.congr {server dwHashIndex : Nat}
    (heq : fromManager (s'.servers server) = fromManager (s.servers server))
    (h : s.Accepts n server dwHashIndex) : s'.Accepts n server dwHashIndex := by
  simp only [fromManager, Prod.mk.injEq] at heq
  rw [Accepts, Process.checkHashIndex] at h ⊢
  rwa [heq.1, heq.2.2]

theorem held_congr {p p' : Process} (heq : fromManager p' = fromManager p) (h : p.Held n) :
    p'.Held n := by
  simp only [fromManager, Prod.mk.injEq] at heq
  rw [Process.Held] at h ⊢
  rwa [heq.1, heq.2.1, heq.2.2]

/-- What happens between the servers does not touch it, and the manager may lose connections. -/
theorem Managed.congr (h : Managed n s)
    (heq : ∀ server, fromManager (s'.servers server) = fromManager (s.servers server))
    (hsessions : ∀ session server, s'.manager.sessions session = some server →
      s.manager.sessions session = some server)
    (hmap : s'.manager.mapSessionIpPort = s.manager.mapSessionIpPort) : Managed n s' where
  sessions session server hsession := by
    have hreg : (s'.servers server).registration = (s.servers server).registration :=
      congrArg Prod.fst (heq server)
    rw [hreg]
    exact h.sessions session server (hsessions session server hsession)
  held server := held_congr (heq server) (h.held server)
  accepts dwHashIndex session server htable hsession := by
    rw [hmap] at htable
    exact (h.accepts dwHashIndex session server htable
      (hsessions session server hsession)).congr (heq server)
  bounded dwHashIndex session htable := h.bounded dwHashIndex session (hmap ▸ htable)

theorem fromManager_setServer {server : Nat} {p : Process}
    (heq : fromManager p = fromManager (s.servers server)) (server' : Nat) :
    fromManager ((s.setServer server p).servers server') = fromManager (s.servers server') := by
  rw [servers_setServer]
  split
  · subst server'
    exact heq
  · rfl

theorem Managed.setServer (h : Managed n s) {server : Nat} {p : Process}
    (heq : fromManager p = fromManager (s.servers server)) : Managed n (s.setServer server p) :=
  h.congr (fromManager_setServer heq) (fun _ _ hsession => hsession) rfl

theorem Managed.connect (h : Managed n s) (server session remote remoteSession : Nat) :
    Managed n (s.connect server session remote remoteSession) := by
  refine h.congr (fun x => ?_) (fun _ _ hsession => hsession) rfl
  obtain ⟨sessions, heq⟩ := servers_connect s server session remote remoteSession x
  rw [heq]
  rfl

theorem Managed.onChatToChatHashIndex (h : Managed n s) (m : HashIndexMsg) :
    Managed n (s.onChatToChatHashIndex n m) := by
  rw [Routing.onChatToChatHashIndex]
  split
  · split
    · exact h.setServer rfl
    · exact h
  · exact h
  · exact h

/-- A new server gets a session that the table names for no other indices. -/
theorem Managed.connectManager (h : Managed n s) {server session : Nat}
    (hnull : (s.servers server).registration = .null)
    (howns : Owns (s.servers server) s.manager.mapSessionIpPort session) :
    Managed n { s.setServer server { s.servers server with registration := .connected session } with
      manager := { s.manager with
        sessions := Function.update s.manager.sessions session (some server) } } := by
  have hother : ∀ x session', s.manager.sessions session' = some x → x ≠ server := by
    rintro x session' hsession rfl
    have hreg := h.sessions session' x hsession
    rw [hnull] at hreg
    cases hreg
  have hsessions : ∀ session' x,
      Function.update s.manager.sessions session (some server) session' = some x →
        (session' = session ∧ x = server) ∨ s.manager.sessions session' = some x := by
    intro session' x hsession
    rw [Function.update_apply] at hsession
    split at hsession
    · exact Or.inl ⟨‹_›, (Option.some.inj hsession).symm⟩
    · exact Or.inr hsession
  refine ⟨fun session' x hsession => ?_, fun x => ?_,
    fun dwHashIndex session' x htable hsession => ?_, h.bounded⟩
  · simp only [servers_setServer]
    obtain ⟨rfl, rfl⟩ | hold := hsessions session' x hsession
    · rw [if_pos rfl]
      rfl
    · rw [if_neg (hother x session' hold)]
      exact h.sessions session' x hold
  · simp only [servers_setServer]
    split
    · have hheld := h.held server
      rw [Process.Held, hnull] at hheld
      exact hheld
    · exact h.held x
  · simp only [Accepts, servers_setServer]
    obtain ⟨rfl, rfl⟩ | hold := hsessions session' x hsession
    · rw [if_pos rfl]
      exact Or.inl (howns dwHashIndex (h.bounded dwHashIndex session' htable) htable)
    · rw [if_neg (hother x session' hold)]
      exact h.accepts dwHashIndex session' x htable hold

/-- The manager's table names a session under the indices that the answer gives its server. -/
theorem Managed.onChatServerInfo (h : Managed n s) {server session : Nat} (ports : Bool)
    (remoteInfo : Nat) (hsession : s.manager.sessions session = some server)
    (hconnected : (s.servers server).registration = .connected session) :
    Managed n { s.setServer server { s.servers server with
        registration := .answered session remoteInfo } with
      manager := s.manager.onChatServerInfo n session ports } := by
  have hone : ∀ session', s.manager.sessions session' = some server → session' = session := by
    intro session' hsession'
    have hreg := h.sessions session' server hsession'
    rw [hconnected] at hreg
    exact (Option.some.inj hreg).symm
  have hmap : ∀ i session',
      setTable n session session s.manager.mapSessionIpPort i = some session' →
        (session' = session ∧ i ∈ hashIndices n session) ∨
          s.manager.mapSessionIpPort i = some session' := by
    intro i session' htable
    rw [setTable] at htable
    split at htable
    · exact Or.inl ⟨(Option.some.inj htable).symm, ‹_›⟩
    · exact Or.inr htable
  refine ⟨fun session' x hsession' => ?_, fun x => ?_, fun i session' x htable hsession' => ?_,
    fun i session' htable => ?_⟩
  · simp only [servers_setServer]
    split
    · subst x
      rw [hone session' hsession']
      rfl
    · exact h.sessions session' x hsession'
  · simp only [servers_setServer]
    split
    · have hheld := h.held server
      rw [Process.Held, hconnected] at hheld
      exact hheld
    · exact h.held x
  · simp only [Accepts, servers_setServer]
    obtain ⟨rfl, hi⟩ | hold := hmap i session' htable
    · obtain rfl : server = x := Option.some.inj (hsession.symm.trans hsession')
      rw [if_pos rfl]
      exact Or.inr ⟨session', remoteInfo, rfl, hi⟩
    · have haccepts := h.accepts i session' x hold hsession'
      split
      · subst x
        obtain hcheck | ⟨session'', remoteInfo', hreg, -⟩ := haccepts
        · exact Or.inl hcheck
        · rw [hconnected] at hreg
          cases hreg
      · exact haccepts
  · obtain ⟨-, hi⟩ | hold := hmap i session' htable
    · exact (mem_hashIndices.mp hi).1
    · exact h.bounded i session' hold

/-- The answer gives its server the indices under which the manager's table names the session. -/
theorem Managed.onNotifyChatInfo (h : Managed n s) {server session remoteInfo : Nat}
    (hanswered : (s.servers server).registration = .answered session remoteInfo) :
    Managed n (s.setServer server
      ((s.servers server).onNotifyChatInfo n session remoteInfo)) := by
  obtain ⟨sessions, heq, -⟩ :=
    Process.connectRemotes_eq n remoteInfo ((s.servers server).onHashIndex n session)
  have hempty := h.held server
  rw [Process.Held, hanswered] at hempty
  rw [Process.onNotifyChatInfo, heq]
  refine ⟨fun session' x hsession => ?_, fun x => ?_,
    fun i session' x htable hsession => ?_, h.bounded⟩
  · have hreg := h.sessions session' x hsession
    rw [servers_setServer]
    split
    · subst x
      rw [hanswered] at hreg
      exact hreg
    · exact hreg
  · rw [servers_setServer]
    split
    · exact ⟨rfl, congrArg (· ∪ hashIndices n session) hempty.2⟩
    · exact h.held x
  · have haccepts := h.accepts i session' x htable hsession
    rw [Accepts, servers_setServer]
    split
    · subst x
      left
      simp only [Process.checkHashIndex, Process.onHashIndex, List.mem_union_iff,
        decide_eq_true_eq]
      obtain hcheck | ⟨session'', remoteInfo', hreg, hi⟩ := haccepts
      · rw [Process.checkHashIndex, decide_eq_true_eq] at hcheck
        exact Or.inl hcheck
      · rw [hanswered] at hreg
        obtain ⟨rfl, -⟩ := Registration.answered.inj hreg
        exact Or.inr hi
    · exact haccepts

/-! ### Runs -/

structure Kept (n : Nat) (s : Routing) : Prop where
  linked : Linked n s
  managed : Managed n s

theorem Kept.partition (h : Kept n s) : Partition n s where
  disjoint server server' hlive hlive' hne dwHashIndex hcheck hcheck' := by
    obtain ⟨-, session, hreg, hsession⟩ := hlive
    obtain ⟨-, session', hreg', hsession'⟩ := hlive'
    have hheld := h.managed.held server
    have hheld' := h.managed.held server'
    rw [Process.Held, hreg] at hheld
    rw [Process.Held, hreg'] at hheld'
    simp only [Process.checkHashIndex, hheld.2, hheld'.2, List.nil_union, decide_eq_true_eq,
      mem_hashIndices] at hcheck hcheck'
    obtain rfl : session = session' := hcheck.2.symm.trans hcheck'.2
    exact hne (Option.some.inj (hsession.symm.trans hsession'))
  manager := h.managed.accepts
  peers := h.linked.peers

theorem Kept.step (h : Kept n s) {l : Label} (hgood : Fresh n s l)
    (hstep : step n s l = some s') : Kept n s' := by
  rw [Routing.step.eq_def] at hstep
  cases l with
  | connectManager server =>
    dsimp only at hstep
    split_ifs at hstep with hcan
    cases hsession : s.manager.createSession n with
    | none => simp [hsession] at hstep
    | some session =>
      simp only [hsession, Option.some.injEq] at hstep
      subst hstep
      exact ⟨(h.linked.setRegistration server _ _).setManager _,
        h.managed.connectManager hcan.2 (hgood session hsession)⟩
  | chatServerInfo session ports =>
    dsimp only at hstep
    cases hsession : s.manager.sessions session with
    | none => simp [hsession] at hstep
    | some server =>
      simp only [hsession] at hstep
      split_ifs at hstep with hreg
      obtain rfl := Option.some.inj hstep
      exact ⟨(h.linked.setRegistration server _ _).setManager _,
        h.managed.onChatServerInfo ports _ hsession hreg⟩
  | notifyChatInfo server =>
    dsimp only at hstep
    split_ifs at hstep
    split at hstep
    · obtain rfl := Option.some.inj hstep
      exact ⟨h.linked.onNotifyChatInfo server _ _, h.managed.onNotifyChatInfo ‹_›⟩
    all_goals cases hstep
  | closeManager session =>
    obtain rfl := Option.some.inj hstep
    refine ⟨h.linked.setManager _, h.managed.congr (fun _ => rfl)
      (fun session' x hsession => ?_) rfl⟩
    dsimp only at hsession
    rw [Function.update_apply] at hsession
    split at hsession
    · cases hsession
    · exact hsession
  | stop server =>
    obtain rfl := Option.some.inj hstep
    exact ⟨h.linked.setRegistration server _ _, h.managed.setServer rfl⟩
  | connect server session remote =>
    dsimp only at hstep
    split_ifs at hstep
    cases hsession : (s.servers remote).createSession n with
    | none => simp [hsession] at hstep
    | some remoteSession =>
      simp only [hsession, Option.some.injEq] at hstep
      subst hstep
      exact ⟨h.linked.connect hgood.1 (hgood.2 remoteSession hsession), h.managed.connect _ _ _ _⟩
  | onConnect server session =>
    dsimp only at hstep
    split at hstep
    · split_ifs at hstep
      obtain rfl := Option.some.inj hstep
      exact ⟨h.linked.onConnect (h.managed.held server) ‹_›,
        h.managed.congr (fromManager_setServer rfl) (fun _ _ hsession => hsession) rfl⟩
    all_goals cases hstep
  | hashIndex place =>
    dsimp only at hstep
    cases hm : s.flight[place]? with
    | none => simp [hm] at hstep
    | some m =>
      simp only [hm, Option.some.injEq] at hstep
      subst hstep
      have hsub : s.flight.eraseIdx place ⊆ (s.onChatToChatHashIndex n m).flight := by
        rw [flight_onChatToChatHashIndex]
        exact List.eraseIdx_subset
      exact ⟨(h.linked.onChatToChatHashIndex (List.mem_of_getElem? hm)).receive hsub,
        (h.managed.onChatToChatHashIndex m).congr (fun _ => rfl) (fun _ _ hsession => hsession) rfl⟩
  | close server session =>
    obtain rfl := Option.some.inj hstep
    exact ⟨h.linked.close server session, h.managed.setServer rfl⟩

/-- A step that is not fresh shows in the tables after it. -/
theorem fresh_of_partition {l : Label} (hstep : step n s l = some s') (h : Partition n s') :
    Fresh n s l := by
  rw [Routing.step.eq_def] at hstep
  cases l with
  | connectManager server =>
    intro session hsession dwHashIndex _ htable
    dsimp only at hstep
    split_ifs at hstep
    simp only [Option.mem_def.mp hsession, Option.some.injEq] at hstep
    subst hstep
    have haccepts := h.manager dwHashIndex session server htable (Function.update_self _ _ _)
    simp only [Accepts, servers_setServer, if_true, reduceCtorEq, false_and, exists_false,
      or_false] at haccepts
    exact haccepts
  | connect server session remote =>
    dsimp only at hstep
    split_ifs at hstep
    cases hsession : (s.servers remote).createSession n with
    | none => simp [hsession] at hstep
    | some remoteSession =>
      simp only [hsession, Option.some.injEq] at hstep
      subst hstep
      have hpeers : ∀ x session' farEnd farSession dwHashIndex,
          (s.servers x).mapSessionIpPort dwHashIndex = some session' →
          ((s.connect server session remote remoteSession).servers x).sessions session' =
            .connected s.connNum farEnd farSession false →
          (s.servers farEnd).checkHashIndex dwHashIndex = true := by
        intro x session' farEnd farSession dwHashIndex htable hconnected
        have hcheck := h.peers x dwHashIndex session' s.connNum farEnd farSession false
          ((congrFun (mapSessionIpPort_connect s server session remote remoteSession x) _).trans
            htable) hconnected
        rwa [checkHashIndex_connect] at hcheck
      refine ⟨fun dwHashIndex _ htable => ?_, fun remoteSession' hremote dwHashIndex _ htable => ?_⟩
      · by_cases hself : server = remote ∧ session = remoteSession
        · obtain ⟨rfl, rfl⟩ := hself
          exact hpeers server session server session dwHashIndex htable (by simp [sessions_connect])
        · exact hpeers server session remote remoteSession dwHashIndex htable
            (by rw [sessions_connect, if_neg hself, if_pos ⟨rfl, rfl⟩])
      · obtain rfl : remoteSession = remoteSession' :=
          Option.some.inj (hsession.symm.trans hremote)
        exact hpeers remote remoteSession server session dwHashIndex htable
          (by rw [sessions_connect, if_pos ⟨rfl, rfl⟩])
  | chatServerInfo | notifyChatInfo | closeManager | stop | onConnect | hashIndex | close =>
    trivial

/-- In a run the indices are a partition all the time and the calls agree on the index of an
identifier if and only if every step is fresh and the bytes behind the identifier add up to zero. -/
theorem partition_iff_fresh (chatServerNum : Nat) (szId : CharArray idLenth) (behind : List UInt8)
    (labels : List Label) {s : Routing}
    (hrun : Transition.run (step chatServerNum) start labels = some s) :
    ((∀ labels' s', labels' <+: labels →
        Transition.run (step chatServerNum) start labels' = some s' → Partition chatServerNum s') ∧
      SameIndex szId behind) ↔
    Transition.Always (step chatServerNum) (Fresh chatServerNum) start labels ∧
      AddsNothing szId behind := by
  refine and_congr (Transition.forall_reached_iff_always (fun _ h => Kept.partition h)
    (fun _ _ _ h hgood hstep => Kept.step h hgood hstep)
    (fun _ _ _ _ hstep h => fresh_of_partition hstep h) ⟨linked_start, managed_start⟩ hrun)
    (sameIndex_iff szId behind)

/-- Two servers register, connect and tell each other their index. -/
def twoServers : List Label :=
  [.connectManager 0, .chatServerInfo 0 true, .notifyChatInfo 0, .connectManager 1,
    .chatServerInfo 1 true, .notifyChatInfo 1, .connect 1 0 0, .onConnect 0 0, .onConnect 1 0,
    .hashIndex 0, .hashIndex 0]

/-- The identifier `A`, with its sign in the array behind it. -/
theorem partition_iff_fresh_two :
    (∀ labels' s', labels' <+: twoServers ++ [.stop 1, .close 0 0, .closeManager 1] →
      Transition.run (step 2) start labels' = some s' → Partition 2 s') ∧
      SameIndex ((CharArray.zero idLenth).copyIn [65]) [65, 95, 115, 105, 103, 110, 0] := by
  have hsome : (Transition.run (step 2) start
      (twoServers ++ [.stop 1, .close 0 0, .closeManager 1])).isSome = true := by
    decide +kernel
  obtain ⟨s, hrun⟩ := Option.isSome_iff_exists.mp hsome
  exact (partition_iff_fresh 2 _ _ _ hrun).mpr
    ⟨by decide +kernel, addsNothing_copyIn (by decide) (by decide) _⟩

/-- Of three servers the last to register is the first to connect to server 0. The other two end,
and a server that takes the place of one of them gets the session of the other. -/
def replacement : List Label :=
  [.connectManager 0, .chatServerInfo 0 true, .notifyChatInfo 0,
    .connectManager 1, .chatServerInfo 1 true, .notifyChatInfo 1,
    .connectManager 2, .chatServerInfo 2 true, .notifyChatInfo 2,
    .connect 2 0 0, .onConnect 0 0, .onConnect 2 0, .hashIndex 0, .hashIndex 0,
    .connect 1 0 0, .onConnect 0 1, .onConnect 1 0, .hashIndex 0, .hashIndex 0,
    .stop 1, .stop 2, .close 0 0, .close 0 1, .closeManager 1, .closeManager 2,
    .connectManager 3, .chatServerInfo 1 true, .notifyChatInfo 3,
    .connect 3 0 0, .onConnect 0 0, .onConnect 3 0, .hashIndex 0, .hashIndex 0]

/-- All messages have come, and the table of server 0 names a session for index 2 whose server has
index 1. -/
theorem not_partition_of_replacement : ∃ s,
    Transition.run (step 3) start replacement = some s ∧ s.flight = [] ∧
    (s.servers 0).getChatServerSession 2 = some 0 ∧
    (s.servers 0).sessions 0 = .connected 2 3 0 true ∧
    (s.servers 3).checkHashIndex 2 = false ∧ ¬ Partition 3 s := by
  have hview : (Transition.run (step 3) start replacement).map (fun s =>
      (s.flight.length, (s.servers 0).mapSessionIpPort 2, (s.servers 0).sessions 0,
        (s.servers 3).checkHashIndex 2)) =
      some (0, some 0, .connected 2 3 0 true, false) := by
    decide +kernel
  obtain ⟨s, hrun, hs⟩ := Option.map_eq_some_iff.mp hview
  simp only [Prod.mk.injEq] at hs
  obtain ⟨hflight, htable, hsession, hcheck⟩ := hs
  refine ⟨s, hrun, List.length_eq_zero_iff.mp hflight, htable, hsession, hcheck, fun h => ?_⟩
  have hpeers := h.peers 0 2 0 2 3 0 true htable hsession
  rw [hcheck] at hpeers
  cases hpeers

end Routing

end ChatServer
