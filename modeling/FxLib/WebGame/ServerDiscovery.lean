import FxLib.Lib.Transition
import FxLib.WebGame.Player
import Mathlib.Data.List.Nodup

/-!
# Service discovery in the center server

Login, team and game manager servers register at the center server with a `ServerInfo`, and it tells
them of each other. Connections are numbered in the order in which they come, so a session object
that is used again is another session. Every message that has been sent is kept, with the session
whose `ServerInfo` it is.
-/

namespace WebGame

namespace Center

inductive EServerType where
  | login
  | team
  | gameManager
  deriving DecidableEq

/-- The type is in the id. -/
def eServerType (dwServerId : ServerId) : Option EServerType :=
  match (dwServerId / 10000).toNat with
  | 1 => some .login
  | 2 => some .team
  | 3 => some .gameManager
  | _ => none

structure ServerInfo where
  dwServerId : ServerId
  szListenIp : String
  dwTeamPort : UInt32
  dwGameServerManagerPort : UInt32
  dwLoginPort : UInt32
  deriving DecidableEq

/-- A session, with the number of its registration. -/
structure CServerSession where
  connection : Nat
  szRemoteIp : String
  dwServerId : ServerId
  dwTeamPort : UInt32
  dwGameServerManagerPort : UInt32
  dwLoginPort : UInt32
  registration : Nat
  deriving DecidableEq

namespace CServerSession

/-- `Init`, which the manager calls when it hands a session out. -/
def init (connection : Nat) (szRemoteIp : String) : CServerSession :=
  ⟨connection, szRemoteIp, 0, 0, 0, 0, 0⟩

def register (self : CServerSession) (msg : ServerInfo) (registration : Nat) : CServerSession :=
  { self with
    dwServerId := msg.dwServerId
    dwLoginPort := msg.dwLoginPort
    dwTeamPort := msg.dwTeamPort
    dwGameServerManagerPort := msg.dwGameServerManagerPort
    registration := registration }

def serverInfo (it : CServerSession) : ServerInfo :=
  ⟨it.dwServerId, it.szRemoteIp, it.dwTeamPort, it.dwGameServerManagerPort, it.dwLoginPort⟩

end CServerSession

structure Sent where
  receiver : Nat
  subject : Nat
  info : ServerInfo
  deriving DecidableEq

/-- What the loop of the branch `eType` sends for one session of the set. -/
def CServerSession.announce (self : CServerSession) (eType : EServerType) (it : CServerSession) :
    List Sent :=
  if it.dwServerId = 0 then []
  else if it.dwServerId = self.dwServerId then []
  else
    match eType with
    | .login => [⟨it.connection, self.connection, self.serverInfo⟩]
    | .team =>
      match eServerType it.dwServerId with
      | some .login => [⟨self.connection, it.connection, it.serverInfo⟩]
      | some .gameManager => [⟨it.connection, self.connection, self.serverInfo⟩]
      | _ => []
    | .gameManager =>
      if eServerType it.dwServerId ≠ some .login ∧ eServerType it.dwServerId ≠ some .team then []
      else [⟨self.connection, it.connection, it.serverInfo⟩]

/-- The sessions are in the order of the set, which is that of their addresses. -/
structure CenterServer where
  setSessions : List CServerSession
  connections : Nat
  registrations : Nat
  sent : List Sent

namespace CenterServer

def init : CenterServer := ⟨[], 0, 0, []⟩

/-- The pool hands out any object, so `place` is where it comes in the set. -/
def createSession (s : CenterServer) (place : Nat) (szRemoteIp : String) : CenterServer :=
  { s with
    setSessions := s.setSessions.take place ++
      CServerSession.init s.connections szRemoteIp :: s.setSessions.drop place
    connections := s.connections + 1 }

/-- `CServerSession::OnServerInfo`; `none` is `Assert(0)`. -/
def onServerInfo (s : CenterServer) (self : CServerSession) (msg : ServerInfo) :
    Option CenterServer :=
  let self' := self.register msg s.registrations
  let setSessions := s.setSessions.map fun it =>
    if it.connection = self.connection then self' else it
  match eServerType self'.dwServerId with
  | none => none
  | some eType =>
    some { s with
      setSessions := setSessions
      registrations := s.registrations + 1
      sent := s.sent ++ setSessions.flatMap (self'.announce eType) }

def release (s : CenterServer) (connection : Nat) : CenterServer :=
  { s with setSessions := s.setSessions.filter (·.connection ≠ connection) }

inductive Label where
  | connect (place : Nat) (szRemoteIp : String)
  | serverInfo (connection : Nat) (msg : ServerInfo)
  | close (connection : Nat)

/-- A connection registers once, with an id that is not 0 and that no live connection has. -/
def step (s : CenterServer) : Label → Option CenterServer
  | .connect place szRemoteIp => some (s.createSession place szRemoteIp)
  | .serverInfo connection msg =>
    match s.setSessions.find? (·.connection = connection) with
    | none => none
    | some self =>
      if self.dwServerId = 0 ∧ msg.dwServerId ≠ 0 ∧
          ∀ it ∈ s.setSessions, it.dwServerId ≠ msg.dwServerId then
        s.onServerInfo self msg
      else none
  | .close connection => some (s.release connection)

/-! ### Who is told of whom -/

/-- The messages of `sent` to `b` of `a`. -/
def between (sent : List Sent) (a b : CServerSession) : List ServerInfo :=
  (sent.filter fun m => m.receiver = b.connection ∧ m.subject = a.connection).map Sent.info

/-- What has been sent to `b` of `a`. -/
def told (s : CenterServer) (a b : CServerSession) : List ServerInfo := between s.sent a b

/-- Two registered sessions. -/
structure Discovered (s : CenterServer) (a b : CServerSession) : Prop where
  login : eServerType a.dwServerId = some .login → eServerType b.dwServerId ≠ some .login →
    s.told a b = [a.serverInfo] ∧ s.told b a = []
  logins : eServerType a.dwServerId = some .login → eServerType b.dwServerId = some .login →
    a.registration < b.registration → s.told b a = [b.serverInfo] ∧ s.told a b = []
  team : eServerType a.dwServerId = some .team → eServerType b.dwServerId = some .gameManager →
    s.told a b = [a.serverInfo] ∧ s.told b a = []
  others : eServerType a.dwServerId ≠ some .login → eServerType b.dwServerId ≠ some .login →
    ¬(eServerType a.dwServerId = some .team ∧ eServerType b.dwServerId = some .gameManager) →
    ¬(eServerType b.dwServerId = some .team ∧ eServerType a.dwServerId = some .gameManager) →
    s.told a b = [] ∧ s.told b a = []

/-- What `b` is to be told of `a`. -/
def expected (a b : CServerSession) : List ServerInfo :=
  match eServerType a.dwServerId, eServerType b.dwServerId with
  | some .login, some .login => if b.registration < a.registration then [a.serverInfo] else []
  | some .login, _ => [a.serverInfo]
  | some .team, some .gameManager => [a.serverInfo]
  | _, _ => []

structure Kept (s : CenterServer) : Prop where
  nodup : (s.setSessions.map CServerSession.connection).Nodup
  connected : ∀ a ∈ s.setSessions, a.connection < s.connections
  sent : ∀ m ∈ s.sent, m.receiver < s.connections ∧ m.subject < s.connections
  silent : ∀ a ∈ s.setSessions, a.dwServerId = 0 →
    ∀ m ∈ s.sent, m.receiver ≠ a.connection ∧ m.subject ≠ a.connection
  registered : ∀ a ∈ s.setSessions, a.dwServerId ≠ 0 → a.registration < s.registrations
  told : ∀ a ∈ s.setSessions, ∀ b ∈ s.setSessions, a.connection ≠ b.connection →
    a.dwServerId ≠ 0 → b.dwServerId ≠ 0 → s.told a b = expected a b

variable {s s' : CenterServer} {a b it self : CServerSession} {eType : EServerType}

theorem kept_init : Kept init := by
  constructor
  · exact List.nodup_nil
  · simp [init]
  · simp [init]
  · simp [init]
  · simp [init]
  · simp [init]

theorem mem_createSession {place : Nat} {szRemoteIp : String} :
    a ∈ (s.createSession place szRemoteIp).setSessions ↔
      a = CServerSession.init s.connections szRemoteIp ∨ a ∈ s.setSessions := by
  rw [createSession, List.perm_middle.mem_iff, List.take_append_drop, List.mem_cons]

theorem Kept.createSession (h : Kept s) (place : Nat) (szRemoteIp : String) :
    Kept (s.createSession place szRemoteIp) := by
  have hnew : ∀ m ∈ s.sent, m.receiver ≠ s.connections ∧ m.subject ≠ s.connections := by
    intro m hm
    exact ⟨Nat.ne_of_lt (h.sent m hm).1, Nat.ne_of_lt (h.sent m hm).2⟩
  constructor
  · rw [CenterServer.createSession, (List.perm_middle.map _).nodup_iff, List.take_append_drop,
      List.map_cons, List.nodup_cons]
    refine ⟨fun hmem => ?_, h.nodup⟩
    obtain ⟨a, ha, heq⟩ := List.mem_map.mp hmem
    exact absurd heq (Nat.ne_of_lt (h.connected a ha))
  · intro a ha
    rcases mem_createSession.mp ha with rfl | ha
    · exact Nat.lt_succ_self _
    · exact Nat.lt_succ_of_lt (h.connected a ha)
  · intro m hm
    exact ⟨Nat.lt_succ_of_lt (h.sent m hm).1, Nat.lt_succ_of_lt (h.sent m hm).2⟩
  · intro a ha hzero
    rcases mem_createSession.mp ha with rfl | ha
    · exact hnew
    · exact h.silent a ha hzero
  · intro a ha hzero
    rcases mem_createSession.mp ha with rfl | ha
    · exact absurd rfl hzero
    · exact h.registered a ha hzero
  · intro a ha b hb hne ha0 hb0
    rcases mem_createSession.mp ha with rfl | ha
    · exact absurd rfl ha0
    · rcases mem_createSession.mp hb with rfl | hb
      · exact absurd rfl hb0
      · exact h.told a ha b hb hne ha0 hb0

theorem Kept.release (h : Kept s) (connection : Nat) : Kept (s.release connection) := by
  have hmem : ∀ a ∈ (s.release connection).setSessions, a ∈ s.setSessions :=
    fun a ha => (List.mem_filter.mp ha).1
  constructor
  · exact h.nodup.sublist (List.filter_sublist.map _)
  · intro a ha
    exact h.connected a (hmem a ha)
  · exact h.sent
  · intro a ha
    exact h.silent a (hmem a ha)
  · intro a ha
    exact h.registered a (hmem a ha)
  · intro a ha b hb
    exact h.told a (hmem a ha) b (hmem b hb)

/-! ### A registration -/

/-- Every message of a loop is between the session that registers and the one of the set. -/
theorem announce_cases {m : Sent} (hm : m ∈ self.announce eType it) :
    (m.receiver = it.connection ∧ m.subject = self.connection) ∨
      (m.receiver = self.connection ∧ m.subject = it.connection) := by
  unfold CServerSession.announce at hm
  by_cases hzero : it.dwServerId = 0
  · rw [if_pos hzero] at hm
    cases hm
  by_cases hid : it.dwServerId = self.dwServerId
  · rw [if_neg hzero, if_pos hid] at hm
    cases hm
  rw [if_neg hzero, if_neg hid] at hm
  cases eType with
  | login =>
    obtain rfl := List.mem_singleton.mp hm
    exact .inl ⟨rfl, rfl⟩
  | team =>
    simp only at hm
    split at hm
    · obtain rfl := List.mem_singleton.mp hm
      exact .inr ⟨rfl, rfl⟩
    · obtain rfl := List.mem_singleton.mp hm
      exact .inl ⟨rfl, rfl⟩
    · cases hm
  | gameManager =>
    simp only at hm
    split_ifs at hm
    · cases hm
    · obtain rfl := List.mem_singleton.mp hm
      exact .inr ⟨rfl, rfl⟩

theorem announce_registered {m : Sent} (hm : m ∈ self.announce eType it) : it.dwServerId ≠ 0 := by
  intro hzero
  unfold CServerSession.announce at hm
  rw [if_pos hzero] at hm
  cases hm

theorem between_append (l l' : List Sent) (a b : CServerSession) :
    between (l ++ l') a b = between l a b ++ between l' a b := by
  rw [between, List.filter_append, List.map_append]
  rfl

theorem between_eq_nil {sent : List Sent}
    (h : ∀ m ∈ sent, ¬(m.receiver = b.connection ∧ m.subject = a.connection)) :
    between sent a b = [] := by
  rw [between, List.map_eq_nil_iff, List.filter_eq_nil_iff]
  intro m hm
  simpa using h m hm

/-- One iteration sends what the two sessions are to be told of each other. -/
theorem between_announce (htype : eServerType self.dwServerId = some eType)
    (hzero : it.dwServerId ≠ 0) (hid : it.dwServerId ≠ self.dwServerId)
    (hne : it.connection ≠ self.connection) (horder : it.registration < self.registration) :
    between (self.announce eType it) self it = expected self it ∧
      between (self.announce eType it) it self = expected it self := by
  have hlater := Nat.lt_asymm horder
  unfold CServerSession.announce
  rw [if_neg hzero, if_neg hid]
  cases eType with
  | login =>
    cases hit : eServerType it.dwServerId with
    | none => simp [between, expected, htype, hit, hne, hne.symm]
    | some eIt => cases eIt <;> simp [between, expected, htype, hit, hne, hne.symm, horder, hlater]
  | team =>
    cases hit : eServerType it.dwServerId with
    | none => simp [between, expected, htype, hit]
    | some eIt => cases eIt <;> simp [between, expected, htype, hit, hne, hne.symm]
  | gameManager =>
    cases hit : eServerType it.dwServerId with
    | none => simp [between, expected, htype, hit]
    | some eIt => cases eIt <;> simp [between, expected, htype, hit, hne, hne.symm]

/-- Where only one element of a list gives anything, a `flatMap` is what it gives. -/
theorem flatMap_of_unique {α β : Type} {l : List α} {f : α → List β} {x : α} (hnodup : l.Nodup)
    (hx : x ∈ l) (h : ∀ y ∈ l, y ≠ x → f y = []) : l.flatMap f = f x := by
  induction l with
  | nil => cases hx
  | cons y l ih =>
    obtain ⟨hnot, hrest⟩ := List.nodup_cons.mp hnodup
    rw [List.flatMap_cons]
    rcases List.mem_cons.mp hx with rfl | hx
    · have hnil : l.flatMap f = [] := List.flatMap_eq_nil_iff.mpr fun z hz =>
        h z (List.mem_cons_of_mem _ hz) (by
          rintro rfl
          exact hnot hz)
      rw [hnil, List.append_nil]
    · have hy : f y = [] := h y List.mem_cons_self (by
        rintro rfl
        exact hnot hx)
      rw [hy, List.nil_append, ih hrest hx fun z hz => h z (List.mem_cons_of_mem _ hz)]

theorem between_flatMap (l : List CServerSession) (f : CServerSession → List Sent) :
    between (l.flatMap f) a b = l.flatMap fun it => between (f it) a b := by
  rw [between, List.filter_flatMap, List.map_flatMap]
  rfl

theorem connection_ne {l : List CServerSession} (hnodup : (l.map CServerSession.connection).Nodup)
    (ha : a ∈ l) (hb : b ∈ l) (hne : a ≠ b) : a.connection ≠ b.connection :=
  fun heq => hne (List.inj_on_of_nodup_map hnodup ha hb heq)

/-- The loop tells the session that registers and any other one what they are to be told. -/
theorem between_announcements (self : CServerSession) {l : List CServerSession}
    (hnodup : (l.map CServerSession.connection).Nodup) (hit : it ∈ l)
    (htype : eServerType self.dwServerId = some eType) (hzero : it.dwServerId ≠ 0)
    (hid : it.dwServerId ≠ self.dwServerId) (hne : it.connection ≠ self.connection)
    (horder : it.registration < self.registration) :
    between (l.flatMap (self.announce eType)) self it = expected self it ∧
      between (l.flatMap (self.announce eType)) it self = expected it self := by
  obtain ⟨hto, hof⟩ := between_announce htype hzero hid hne horder
  constructor
  · rw [between_flatMap, flatMap_of_unique (List.Nodup.of_map _ hnodup) hit, hto]
    intro y hy hne'
    have hy' := connection_ne hnodup hy hit hne'
    refine between_eq_nil fun m hm hboth => ?_
    rcases announce_cases hm with ⟨hr, -⟩ | ⟨hr, -⟩
    · exact hy' (hr.symm.trans hboth.1)
    · exact hne (hboth.1.symm.trans hr)
  · rw [between_flatMap, flatMap_of_unique (List.Nodup.of_map _ hnodup) hit, hof]
    intro y hy hne'
    have hy' := connection_ne hnodup hy hit hne'
    refine between_eq_nil fun m hm hboth => ?_
    rcases announce_cases hm with ⟨-, hr⟩ | ⟨-, hr⟩
    · exact hne (hboth.2.symm.trans hr)
    · exact hy' (hr.symm.trans hboth.2)

theorem between_announcements_other (self : CServerSession) {l : List CServerSession}
    (ha : a.connection ≠ self.connection) (hb : b.connection ≠ self.connection) :
    between (l.flatMap (self.announce eType)) a b = [] := by
  refine between_eq_nil fun m hm hboth => ?_
  obtain ⟨it, -, hm⟩ := List.mem_flatMap.mp hm
  rcases announce_cases hm with ⟨-, hr⟩ | ⟨hr, -⟩
  · exact ha (hboth.2.symm.trans hr)
  · exact hb (hboth.1.symm.trans hr)

/-- What a registration does: the record of the session is replaced and the loop has run. -/
theorem onServerInfo_eq {msg : ServerInfo} (h : s.onServerInfo self msg = some s') :
    ∃ eType, eServerType msg.dwServerId = some eType ∧
      s' = { s with
        setSessions := s.setSessions.map fun it =>
          if it.connection = self.connection then self.register msg s.registrations else it
        registrations := s.registrations + 1
        sent := s.sent ++ (s.setSessions.map fun it =>
          if it.connection = self.connection then self.register msg s.registrations
          else it).flatMap ((self.register msg s.registrations).announce eType) } := by
  rw [CenterServer.onServerInfo] at h
  cases htype : eServerType msg.dwServerId with
  | none => simp [CServerSession.register, htype] at h
  | some eType =>
    simp only [CServerSession.register, htype, Option.some.injEq] at h
    exact ⟨eType, rfl, h.symm⟩

theorem mem_registered (hself : self ∈ s.setSessions) {self' : CServerSession} :
    a ∈ (s.setSessions.map fun it => if it.connection = self.connection then self' else it) ↔
      a = self' ∨ (a ∈ s.setSessions ∧ a.connection ≠ self.connection) := by
  rw [List.mem_map]
  constructor
  · rintro ⟨it, hit, rfl⟩
    split_ifs with heq
    · exact .inl rfl
    · exact .inr ⟨hit, heq⟩
  · rintro (rfl | ⟨ha, hne⟩)
    · exact ⟨self, hself, if_pos rfl⟩
    · exact ⟨a, ha, if_neg hne⟩

theorem Kept.onServerInfo (h : Kept s) (hself : self ∈ s.setSessions) {msg : ServerInfo}
    (hzero : self.dwServerId = 0) (hdistinct : ∀ it ∈ s.setSessions, it.dwServerId ≠ msg.dwServerId)
    (hstep : s.onServerInfo self msg = some s') : Kept s' := by
  obtain ⟨eType, htype, rfl⟩ := onServerInfo_eq hstep
  have hconnections : (s.setSessions.map fun it => if it.connection = self.connection then
      self.register msg s.registrations else it).map CServerSession.connection =
        s.setSessions.map CServerSession.connection := by
    rw [List.map_map]
    refine List.map_congr_left fun it _ => ?_
    rw [Function.comp_apply]
    split_ifs with heq
    · exact heq.symm
    · rfl
  have hsilent := h.silent self hself hzero
  -- nothing has been sent to or of the session before
  have hold : ∀ b, between s.sent (self.register msg s.registrations) b = [] ∧
      between s.sent b (self.register msg s.registrations) = [] := by
    intro b
    constructor
    · exact between_eq_nil fun m hm hboth => (hsilent m hm).2 hboth.2
    · exact between_eq_nil fun m hm hboth => (hsilent m hm).1 hboth.1
  have hnodup := h.nodup
  rw [← hconnections] at hnodup
  have hnew : ∀ it ∈ s.setSessions, it.connection ≠ self.connection → it.dwServerId ≠ 0 → _ :=
    fun it hit hne hregistered => between_announcements (self.register msg s.registrations) hnodup
      ((mem_registered hself).mpr (.inr ⟨hit, hne⟩)) htype hregistered (hdistinct it hit) hne
      (h.registered it hit hregistered)
  constructor
  · exact hnodup
  · intro a ha
    rcases (mem_registered hself).mp ha with rfl | ⟨ha, -⟩
    · exact h.connected self hself
    · exact h.connected a ha
  · intro m hm
    rcases List.mem_append.mp hm with hm | hm
    · exact h.sent m hm
    · obtain ⟨it, hit, hm⟩ := List.mem_flatMap.mp hm
      have hconnected : it.connection < s.connections := by
        rcases (mem_registered hself).mp hit with rfl | ⟨hit, -⟩
        · exact h.connected self hself
        · exact h.connected it hit
      rcases announce_cases hm with ⟨hr, hs⟩ | ⟨hr, hs⟩
      · rw [hr, hs]
        exact ⟨hconnected, h.connected self hself⟩
      · rw [hr, hs]
        exact ⟨h.connected self hself, hconnected⟩
  · intro a ha ha0 m hm
    rcases (mem_registered hself).mp ha with rfl | ⟨ha, hane⟩
    · have hmine : msg.dwServerId = 0 := ha0
      rw [hmine] at htype
      cases htype
    · rcases List.mem_append.mp hm with hm | hm
      · exact h.silent a ha ha0 m hm
      · obtain ⟨it, hit, hm⟩ := List.mem_flatMap.mp hm
        have hother : it.connection ≠ a.connection := by
          intro heq
          have hita : it = a := by
            by_contra hne
            exact connection_ne hnodup hit ((mem_registered hself).mpr (.inr ⟨ha, hane⟩)) hne heq
          exact announce_registered hm (hita ▸ ha0)
        rcases announce_cases hm with ⟨hr, hs⟩ | ⟨hr, hs⟩
        · rw [hr, hs]
          exact ⟨hother, hane.symm⟩
        · rw [hr, hs]
          exact ⟨hane.symm, hother⟩
  · intro a ha hregistered
    rcases (mem_registered hself).mp ha with rfl | ⟨ha, -⟩
    · exact Nat.lt_succ_self _
    · exact Nat.lt_succ_of_lt (h.registered a ha hregistered)
  · intro a ha b hb hne ha0 hb0
    rw [CenterServer.told, between_append]
    rcases (mem_registered hself).mp ha with rfl | ⟨ha, hane⟩
    · rcases (mem_registered hself).mp hb with rfl | ⟨hb, hbne⟩
      · exact absurd rfl hne
      · rw [(hold b).1, List.nil_append]
        exact (hnew b hb hbne hb0).1
    · rcases (mem_registered hself).mp hb with rfl | ⟨hb, hbne⟩
      · rw [(hold a).2, List.nil_append]
        exact (hnew a ha hane ha0).2
      · rw [between_announcements_other (self.register msg s.registrations) hane hbne,
          List.append_nil]
        exact h.told a ha b hb hne ha0 hb0

theorem Kept.step (h : Kept s) {l : Label} (hstep : s.step l = some s') : Kept s' := by
  cases l with
  | connect place szRemoteIp =>
    obtain rfl := Option.some.inj hstep
    exact h.createSession place szRemoteIp
  | serverInfo connection msg =>
    rw [CenterServer.step] at hstep
    cases hfound : s.setSessions.find? (·.connection = connection) with
    | none => simp [hfound] at hstep
    | some self =>
      simp only [hfound] at hstep
      split_ifs at hstep with hguard
      exact h.onServerInfo (List.mem_of_find?_eq_some hfound) hguard.1 hguard.2.2 hstep
  | close connection =>
    obtain rfl := Option.some.inj hstep
    exact h.release connection

theorem Kept.discovered (h : Kept s) (ha : a ∈ s.setSessions) (hb : b ∈ s.setSessions)
    (hne : a.connection ≠ b.connection) (ha0 : a.dwServerId ≠ 0) (hb0 : b.dwServerId ≠ 0) :
    s.Discovered a b := by
  have hab := h.told a ha b hb hne ha0 hb0
  have hba := h.told b hb a ha hne.symm hb0 ha0
  constructor
  · intro hlogin hother
    rw [hab, hba]
    cases htype : eServerType b.dwServerId with
    | none => simp [expected, hlogin, htype]
    | some eType => cases eType <;> simp_all [expected]
  · intro hlogin hlogin' horder
    rw [hab, hba]
    simp [expected, hlogin, hlogin', horder, Nat.lt_asymm horder]
  · intro hteam hmanager
    rw [hab, hba]
    simp [expected, hteam, hmanager]
  · intro hlogin hlogin' hteam hteam'
    rw [hab, hba]
    cases htype : eServerType a.dwServerId with
    | none => cases htype' : eServerType b.dwServerId <;> simp_all [expected]
    | some eType =>
      cases htype' : eServerType b.dwServerId with
      | none => cases eType <;> simp_all [expected]
      | some eType' => cases eType <;> cases eType' <;> simp_all [expected]

/-- In every run, two registered sessions have been told of each other what they are to be told. -/
theorem discovery {l : List Label} (hrun : Transition.run step init l = some s)
    (ha : a ∈ s.setSessions) (hb : b ∈ s.setSessions) (hne : a.connection ≠ b.connection)
    (ha0 : a.dwServerId ≠ 0) (hb0 : b.dwServerId ≠ 0) : s.Discovered a b :=
  (Transition.invariant (fun _ _ _ h hstep => h.step hstep) kept_init hrun).discovered ha hb hne
    ha0 hb0

def loginServer : CServerSession := ⟨0, "10.0.0.1", 10001, 0, 0, 4101, 0⟩

def teamServer : CServerSession := ⟨1, "10.0.0.2", 20001, 4102, 0, 0, 1⟩

theorem discovery_two :
    Discovered ⟨[teamServer, loginServer], 2, 2, [⟨1, 0, loginServer.serverInfo⟩]⟩
      loginServer teamServer :=
  discovery (l := [.connect 0 "10.0.0.1", .connect 0 "10.0.0.2",
    .serverInfo 0 ⟨10001, "", 0, 0, 4101⟩, .serverInfo 1 ⟨20001, "", 4102, 0, 0⟩])
    rfl (by decide) (by decide) (by decide) (by decide) (by decide)

end CenterServer

end Center

end WebGame
