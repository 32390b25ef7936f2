import Mathlib.Logic.Function.Basic
import FxLib.Chat.HashIndex
import FxLib.Lib.Transition

/-!
# Players and sessions of a chat server

`ChatPlayerManager` with the parts of `ChatSession` and of `FxConnection` that decide who is found
under a player id. Sessions are numbered by the objects of the pool; an identifier is what stands
before its NUL.
-/

namespace ChatServer

abbrev PlayerId := List UInt8

/-- `m_nConnStat` of the connection of a session; in the pool a session has none. -/
inductive ConnStat where
  | none
  | ok
  | closing
  deriving DecidableEq

structure ChatPlayer where
  pSession : Nat
  szPlayerId : PlayerId
  deriving DecidableEq

structure ChatSession where
  szId : PlayerId
  connStat : ConnStat
  deriving DecidableEq

structure ChatPlayerManager where
  mapPlayers : PlayerId → Option ChatPlayer
  mapLoginSign : PlayerId → Option (List UInt8)

namespace ChatPlayerManager

def getChatPlayer (m : ChatPlayerManager) (szPlayerId : PlayerId) : Option ChatPlayer :=
  m.mapPlayers szPlayerId

def onPlayerLogin (m : ChatPlayerManager) (szPlayerId : PlayerId) (szSign : List UInt8)
    (pSession : Nat) : Option ChatPlayer × ChatPlayerManager :=
  match m.mapLoginSign szPlayerId with
  | none => (none, m)
  | some sign =>
    if szSign ≠ sign then (none, m)
    else
      let player : ChatPlayer := ⟨pSession, szPlayerId⟩
      (some player, { m with
        mapPlayers := Function.update m.mapPlayers szPlayerId (some player) })

def onSessionClose (m : ChatPlayerManager) (szPlayerId : PlayerId) : ChatPlayerManager :=
  { m with mapPlayers := Function.update m.mapPlayers szPlayerId none }

def signOf (szPlayerId : PlayerId) : List UInt8 := szPlayerId ++ "_sign".toUTF8.toList

def createLoginSign (m : ChatPlayerManager) (szPlayerId : PlayerId) : ChatPlayerManager :=
  { m with
    mapLoginSign := Function.update m.mapLoginSign szPlayerId (some (signOf szPlayerId)) }

end ChatPlayerManager

/-- `lastLogin` says which open session has logged in last for an id. -/
structure Logins where
  setHashIndex : List Nat
  manager : ChatPlayerManager
  session : Nat → ChatSession
  lastLogin : PlayerId → Option Nat

namespace Logins

open ChatPlayerManager

inductive Label where
  | loginSign (szPlayerId : PlayerId)
  | connect (pSession : Nat)
  /-- A login request comes in. -/
  | login (pSession : Nat) (szId : PlayerId) (szSign : List UInt8)
  /-- `Close` is called for another reason, or a message other than a login. -/
  | closing (pSession : Nat)
  | close (pSession : Nat)

def start (setHashIndex : List Nat) : Logins :=
  ⟨setHashIndex, ⟨fun _ => none, fun _ => none⟩, fun _ => ⟨[], .none⟩, fun _ => none⟩

def setSession (s : Logins) (pSession : Nat) (session : ChatSession) : Logins :=
  { s with session := Function.update s.session pSession session }

/-- `FxConnection::Close`. -/
def closeSession (s : Logins) (pSession : Nat) : Logins :=
  if (s.session pSession).connStat = .ok then
    s.setSession pSession { s.session pSession with connStat := .closing }
  else s

/-- `ChatSession::OnLogin`. -/
def onLogin (s : Logins) (pSession : Nat) (szId : PlayerId) (szSign : List UInt8) : Logins :=
  if (hashToIndex szId).toNat ∈ s.setHashIndex then
    match s.manager.onPlayerLogin szId szSign pSession with
    | (none, manager) => { s with manager := manager }
    | (some _, manager) =>
      { s.setSession pSession { s.session pSession with szId := szId } with
        manager := manager, lastLogin := Function.update s.lastLogin szId (some pSession) }
  else s

/-- `ChatSession::OnRecv` of a login request: where there is a player it goes to
`ChatPlayer::OnMsg`, which knows no such request. -/
def onRecv (s : Logins) (pSession : Nat) (szId : PlayerId) (szSign : List UInt8) : Logins :=
  match s.manager.getChatPlayer (s.session pSession).szId with
  | none => s.onLogin pSession szId szSign
  | some player => s.closeSession player.pSession

/-- `ChatSession::OnClose` and `Release`. -/
def onClose (s : Logins) (pSession : Nat) : Logins :=
  { s.setSession pSession ⟨[], .none⟩ with
    manager := s.manager.onSessionClose (s.session pSession).szId
    lastLogin := fun szId => if s.lastLogin szId = some pSession then none else s.lastLogin szId }

def step (s : Logins) : Label → Option Logins
  | .loginSign szPlayerId => some { s with manager := s.manager.createLoginSign szPlayerId }
  | .connect pSession =>
    if (s.session pSession).connStat = .none then
      some (s.setSession pSession { s.session pSession with connStat := .ok })
    else none
  | .login pSession szId szSign =>
    if (s.session pSession).connStat = .ok then some (s.onRecv pSession szId szSign) else none
  | .closing pSession => some (s.closeSession pSession)
  | .close pSession =>
    if (s.session pSession).connStat = .none then none else some (s.onClose pSession)

/-- The session that has logged in last is found under its id. -/
def FindsLast (s : Logins) : Prop :=
  ∀ szId pSession, s.lastLogin szId = some pSession →
    s.manager.getChatPlayer szId = some ⟨pSession, szId⟩

/-- The condition on a step: when a session closes, the player that is found under its id, if any,
is its own. -/
def ClosesOwn (s : Logins) : Label → Prop
  | .close pSession =>
    ∀ player ∈ s.manager.getChatPlayer (s.session pSession).szId, player.pSession = pSession
  | _ => True

/-- Who is found is who has logged in last, and knows the id. -/
structure Kept (s : Logins) : Prop where
  found : ∀ szId player, s.manager.getChatPlayer szId = some player ↔
    ∃ pSession, s.lastLogin szId = some pSession ∧ player = ⟨pSession, szId⟩
  named : ∀ szId pSession, s.lastLogin szId = some pSession → (s.session pSession).szId = szId

variable {s s' : Logins} {pSession : Nat}

theorem kept_start (setHashIndex : List Nat) : Kept (start setHashIndex) :=
  ⟨fun szId player => by simp [start, ChatPlayerManager.getChatPlayer], by simp [start]⟩

theorem Kept.findsLast (h : Kept s) : FindsLast s :=
  fun szId pSession hlast => (h.found szId _).mpr ⟨pSession, hlast, rfl⟩

theorem Kept.of_eq (h : Kept s) (hplayers : s'.manager.mapPlayers = s.manager.mapPlayers)
    (hlast : s'.lastLogin = s.lastLogin)
    (hnames : ∀ p, (s'.session p).szId = (s.session p).szId) : Kept s' := by
  refine ⟨fun szId player => ?_, fun szId p hp => ?_⟩
  · rw [ChatPlayerManager.getChatPlayer, hplayers, hlast]
    exact h.found szId player
  · rw [hnames]
    rw [hlast] at hp
    exact h.named szId p hp

theorem szId_setSession (s : Logins) (pSession : Nat) (session : ChatSession)
    (h : session.szId = (s.session pSession).szId) (p : Nat) :
    ((s.setSession pSession session).session p).szId = (s.session p).szId := by
  by_cases hp : p = pSession
  · subst hp
    simp [setSession, h]
  · simp [setSession, hp]

theorem Kept.closeSession (h : Kept s) (pSession : Nat) : Kept (s.closeSession pSession) := by
  rw [Logins.closeSession]
  split_ifs
  · exact h.of_eq rfl rfl (szId_setSession s pSession _ rfl)
  · exact h

/-- A session whose id finds nobody logs in. -/
theorem Kept.onLogin (h : Kept s)
    (hnobody : s.manager.getChatPlayer (s.session pSession).szId = none) (szId : PlayerId)
    (szSign : List UInt8) : Kept (s.onLogin pSession szId szSign) := by
  have hnew : ∀ id, s.lastLogin id ≠ some pSession := by
    intro id hlast
    have hfound := h.findsLast id pSession hlast
    rw [← h.named id pSession hlast, hnobody] at hfound
    cases hfound
  rw [Logins.onLogin]
  split_ifs
  · rw [ChatPlayerManager.onPlayerLogin]
    cases s.manager.mapLoginSign szId with
    | none => exact h
    | some sign =>
      simp only
      split_ifs
      · exact h
      · refine ⟨fun szId' player => ?_, fun szId' p hp => ?_⟩
        · simp only [ChatPlayerManager.getChatPlayer]
          by_cases hid : szId' = szId
          · subst hid
            simp [eq_comm]
          · simp only [Function.update_of_ne hid]
            exact h.found szId' player
        · by_cases hid : szId' = szId
          · subst hid
            obtain rfl : pSession = p := by simpa using hp
            simp [setSession]
          · simp only [Function.update_of_ne hid] at hp
            have hne : p ≠ pSession := by
              rintro rfl
              exact hnew szId' hp
            simpa [setSession, hne] using h.named szId' p hp
  · exact h

theorem Kept.onRecv (h : Kept s) (pSession : Nat) (szId : PlayerId) (szSign : List UInt8) :
    Kept (s.onRecv pSession szId szSign) := by
  rw [Logins.onRecv]
  cases hplayer : s.manager.getChatPlayer (s.session pSession).szId with
  | none => exact h.onLogin hplayer szId szSign
  | some player => exact h.closeSession player.pSession

/-- A session closes, and takes with it no player but its own. -/
theorem Kept.onClose (h : Kept s) (hown : ClosesOwn s (.close pSession)) :
    Kept (s.onClose pSession) := by
  refine ⟨fun szId player => ?_, fun szId p hp => ?_⟩
  · simp only [Logins.onClose, ChatPlayerManager.getChatPlayer, ChatPlayerManager.onSessionClose]
    by_cases hid : szId = (s.session pSession).szId
    · subst hid
      simp only [Function.update_self]
      constructor
      · intro hc
        cases hc
      · rintro ⟨p, hlast, -⟩
        split_ifs at hlast with hp
        obtain rfl : p = pSession := hown _ (h.findsLast _ p hlast)
        exact absurd hlast hp
    · have hne : s.lastLogin szId ≠ some pSession := fun hlast =>
        hid (h.named szId pSession hlast).symm
      simp only [Function.update_of_ne hid, if_neg hne]
      exact h.found szId player
  · simp only [Logins.onClose] at hp ⊢
    split_ifs at hp with hlast
    have hne : p ≠ pSession := by
      rintro rfl
      exact hlast hp
    simpa [setSession, hne] using h.named szId p hp

theorem Kept.step (h : Kept s) {l : Label} (hgood : ClosesOwn s l) (hstep : s.step l = some s') :
    Kept s' := by
  cases l with
  | loginSign szPlayerId =>
    obtain rfl := Option.some.inj hstep
    exact h.of_eq rfl rfl fun _ => rfl
  | connect pSession =>
    rw [Logins.step] at hstep
    split_ifs at hstep
    obtain rfl := Option.some.inj hstep
    exact h.of_eq rfl rfl (szId_setSession s pSession _ rfl)
  | login pSession szId szSign =>
    rw [Logins.step] at hstep
    split_ifs at hstep
    obtain rfl := Option.some.inj hstep
    exact h.onRecv pSession szId szSign
  | closing pSession =>
    obtain rfl := Option.some.inj hstep
    exact h.closeSession pSession
  | close pSession =>
    rw [Logins.step] at hstep
    split_ifs at hstep
    obtain rfl := Option.some.inj hstep
    exact h.onClose hgood

/-- A close that takes another session's player away leaves that session unfound. -/
theorem Kept.closesOwn (h : Kept s) {l : Label} {s' : Logins} (hstep : s.step l = some s')
    (hfinds : FindsLast s') : ClosesOwn s l := by
  cases l with
  | close pSession =>
    intro player hplayer
    by_contra hne
    rw [Logins.step] at hstep
    split_ifs at hstep
    obtain rfl := Option.some.inj hstep
    obtain ⟨p, hlast, rfl⟩ := (h.found _ _).mp hplayer
    have hkept : (s.onClose pSession).lastLogin (s.session pSession).szId = some p := by
      have hp : s.lastLogin (s.session pSession).szId ≠ some pSession := by
        rw [hlast]
        exact fun hc => hne (Option.some.inj hc)
      simpa [Logins.onClose, hp] using hlast
    have hfound := hfinds _ p hkept
    simp [Logins.onClose, ChatPlayerManager.getChatPlayer, ChatPlayerManager.onSessionClose]
      at hfound
  | loginSign | connect | login | closing => trivial

/-- In any order of logins and closes the session that has logged in last stays found exactly as
long as no session takes another one's player away. -/
theorem findsLast_iff (setHashIndex : List Nat) (labels : List Label) :
    Transition.Always step (fun s l => ∀ s', s.step l = some s' → FindsLast s')
        (start setHashIndex) labels ↔
      Transition.Always step (fun s l => (s.step l).isSome → ClosesOwn s l)
        (start setHashIndex) labels := by
  refine Transition.always_iff Kept (fun s l h => ?_) (fun s l s' h hgood hstep => ?_)
    (kept_start setHashIndex)
  · constructor
    · intro hfinds hsome
      obtain ⟨s', hstep⟩ := Option.isSome_iff_exists.mp hsome
      exact h.closesOwn hstep (hfinds s' hstep)
    · intro hown s' hstep
      exact (h.step (hown (by simp [hstep])) hstep).findsLast
  · exact h.step (h.closesOwn hstep (hgood s' hstep)) hstep

/-! ### The session of a player -/

/-- Whoever is found under an id has this id, and a session that has logged in with it and is not
back in the pool. -/
def Named (s : Logins) : Prop :=
  ∀ szId player, s.manager.getChatPlayer szId = some player → player.szPlayerId = szId ∧
    (s.session player.pSession).szId = szId ∧ (s.session player.pSession).connStat ≠ .none

theorem named_start (setHashIndex : List Nat) : Named (start setHashIndex) :=
  fun _ _ h => nomatch h

theorem Named.setSession (h : Named s) {session : ChatSession}
    (hid : session.szId = (s.session pSession).szId)
    (hstat : (s.session pSession).connStat ≠ .none → session.connStat ≠ .none) :
    Named (s.setSession pSession session) := by
  intro szId player hplayer
  obtain ⟨hkey, hname, hopen⟩ := h szId player hplayer
  refine ⟨hkey, ?_⟩
  by_cases hp : player.pSession = pSession
  · rw [hp] at hname hopen
    simp only [Logins.setSession, hp, Function.update_self]
    exact ⟨hid.trans hname, hstat hopen⟩
  · simpa only [Logins.setSession, Function.update_of_ne hp] using ⟨hname, hopen⟩

theorem Named.closeSession (h : Named s) (pSession : Nat) : Named (s.closeSession pSession) := by
  rw [Logins.closeSession]
  split_ifs
  · exact h.setSession rfl fun _ hc => nomatch hc
  · exact h

/-- A session that logs in is found under no id before. -/
theorem Named.onLogin (h : Named s)
    (hnobody : s.manager.getChatPlayer (s.session pSession).szId = none)
    (hopen : (s.session pSession).connStat ≠ .none) (szId : PlayerId) (szSign : List UInt8) :
    Named (s.onLogin pSession szId szSign) := by
  rw [Logins.onLogin]
  split_ifs
  · rw [ChatPlayerManager.onPlayerLogin]
    cases s.manager.mapLoginSign szId with
    | none => exact h
    | some sign =>
      simp only
      split_ifs
      · exact h
      · intro szId' player hplayer
        simp only [ChatPlayerManager.getChatPlayer] at hplayer
        by_cases hid : szId' = szId
        · subst hid
          rw [Function.update_self] at hplayer
          obtain rfl := Option.some.inj hplayer
          simpa [Logins.setSession] using hopen
        · rw [Function.update_of_ne hid] at hplayer
          obtain ⟨hkey, hname, hstat⟩ := h szId' player hplayer
          have hne : player.pSession ≠ pSession := by
            intro hp
            rw [hp] at hname
            rw [hname] at hnobody
            rw [ChatPlayerManager.getChatPlayer, hplayer] at hnobody
            cases hnobody
          simpa [Logins.setSession, hne] using ⟨hkey, hname, hstat⟩
  · exact h

theorem Named.onClose (h : Named s) (pSession : Nat) : Named (s.onClose pSession) := by
  intro szId player hplayer
  simp only [Logins.onClose, ChatPlayerManager.getChatPlayer,
    ChatPlayerManager.onSessionClose] at hplayer
  by_cases hid : szId = (s.session pSession).szId
  · subst hid
    rw [Function.update_self] at hplayer
    cases hplayer
  · rw [Function.update_of_ne hid] at hplayer
    obtain ⟨hkey, hname, hstat⟩ := h szId player hplayer
    have hne : player.pSession ≠ pSession := by
      intro hp
      rw [hp] at hname
      exact hid hname.symm
    simpa [Logins.onClose, Logins.setSession, hne] using ⟨hkey, hname, hstat⟩

theorem Named.step (h : Named s) {l : Label} (hstep : s.step l = some s') : Named s' := by
  cases l with
  | loginSign szPlayerId =>
    obtain rfl := Option.some.inj hstep
    exact h
  | connect pSession =>
    rw [Logins.step] at hstep
    split_ifs at hstep
    obtain rfl := Option.some.inj hstep
    exact h.setSession rfl fun _ hc => nomatch hc
  | login pSession szId szSign =>
    rw [Logins.step] at hstep
    split_ifs at hstep with hopen
    obtain rfl := Option.some.inj hstep
    rw [Logins.onRecv]
    cases hplayer : s.manager.getChatPlayer (s.session pSession).szId with
    | none => exact h.onLogin hplayer (by simp [hopen]) szId szSign
    | some player => exact h.closeSession player.pSession
  | closing pSession =>
    obtain rfl := Option.some.inj hstep
    exact h.closeSession pSession
  | close pSession =>
    rw [Logins.step] at hstep
    split_ifs at hstep
    obtain rfl := Option.some.inj hstep
    exact h.onClose pSession

/-- A player logs in again before the old session is closed. -/
theorem not_findsLast_of_relogin :
    ∃ s, Transition.run step (start (hashIndices 1 0)) [.loginSign [65], .connect 0, .connect 1,
        .login 0 [65] (signOf [65]), .login 1 [65] (signOf [65]), .close 0] = some s ∧
      ¬ FindsLast s := by
  have hlast : (Transition.run step (start (hashIndices 1 0)) [.loginSign [65], .connect 0,
      .connect 1, .login 0 [65] (signOf [65]), .login 1 [65] (signOf [65]), .close 0]).map
      (fun s => (s.lastLogin [65], s.manager.getChatPlayer [65])) = some (some 1, none) := by
    decide +kernel
  obtain ⟨s, hrun, hs⟩ := Option.map_eq_some_iff.mp hlast
  obtain ⟨hlogin, hplayer⟩ := Prod.mk.inj hs
  refine ⟨s, hrun, fun hfinds => ?_⟩
  have hfound := hfinds [65] 1 hlogin
  rw [hplayer] at hfound
  cases hfound

end Logins

end ChatServer
