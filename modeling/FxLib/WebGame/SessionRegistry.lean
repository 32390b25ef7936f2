import Mathlib.Logic.Function.Basic
import FxLib.Lib.Transition
import FxLib.WebGame.Player

/-!
# The registries of server sessions

`BinaryLoginSessionManager` and `BinaryGameManagerSessionManager` of the team server,
`BinaryTeamSessionManager` and `BinaryLoginSessionManager` of the login server and
`BinaryTeamSessionManager` of the game manager are the same code: a map from server ids to sessions,
which come from a pool. `OnClose` of these sessions does nothing. `registered` remembers, newest
first, what the sessions that are connected have registered.
-/

namespace WebGame

structure SessionManager where
  mapSessions : ServerId → Option Nat
  /-- `m_dwServerId` of each object of the pool. -/
  dwServerId : Nat → ServerId
  live : Nat → Bool
  registered : List (ServerId × Nat)

namespace SessionManager

inductive Label where
  | connect (pSession : Nat)
  | serverInfo (pSession : Nat) (dwServerId : ServerId)
  | release (pSession : Nat)
  deriving DecidableEq

/-- What the memory of the pool holds does not matter. -/
def new (dwServerId : Nat → ServerId) : SessionManager :=
  ⟨fun _ => none, dwServerId, fun _ => false, []⟩

/-- `CreateSession`, and `Init` with the new connection. -/
def connect (s : SessionManager) (pSession : Nat) : SessionManager :=
  { s with
    live := Function.update s.live pSession true
    dwServerId := Function.update s.dwServerId pSession 0 }

/-- `OnServerInfo`. -/
def onServerInfo (s : SessionManager) (pSession : Nat) (dwServerId : ServerId) : SessionManager :=
  { s with
    dwServerId := Function.update s.dwServerId pSession dwServerId
    mapSessions := Function.update s.mapSessions dwServerId (some pSession)
    registered := (dwServerId, pSession) :: s.registered }

/-- `Release` of a session and of its manager. -/
def release (s : SessionManager) (pSession : Nat) : SessionManager :=
  { s with
    mapSessions := Function.update s.mapSessions (s.dwServerId pSession) none
    live := Function.update s.live pSession false
    registered := s.registered.filter (·.2 ≠ pSession) }

/-- The pool hands out a session that is not in use; messages come while it is connected. -/
def step (s : SessionManager) : Label → Option SessionManager
  | .connect pSession => if s.live pSession then none else some (s.connect pSession)
  | .serverInfo pSession dwServerId =>
    if s.live pSession then some (s.onServerInfo pSession dwServerId) else none
  | .release pSession => if s.live pSession then some (s.release pSession) else none

/-- The session, of those that are connected, that has registered the id last. -/
def last (s : SessionManager) (dwServerId : ServerId) : Option Nat :=
  (s.registered.find? (·.1 = dwServerId)).map (·.2)

structure Right (s : SessionManager) : Prop where
  latest : ∀ id, s.mapSessions id = s.last id
  live : ∀ id p, s.mapSessions id = some p → s.live p = true

/-- A session that goes is the only one that has registered what its `m_dwServerId` says, and no
other id leads to it. -/
def Own (s : SessionManager) : Label → Prop
  | .connect _ => True
  | .serverInfo .. => True
  | .release pSession =>
    (∀ r ∈ s.registered, r.1 = s.dwServerId pSession → r.2 = pSession) ∧
      ∀ r ∈ s.registered, s.mapSessions r.1 = some pSession → r.1 = s.dwServerId pSession

instance (s : SessionManager) : (l : Label) → Decidable (s.Own l)
  | .connect _ => inferInstanceAs (Decidable True)
  | .serverInfo .. => inferInstanceAs (Decidable True)
  | .release _ => inferInstanceAs (Decidable (_ ∧ _))

structure Kept (s : SessionManager) : Prop where
  latest : ∀ id, s.mapSessions id = s.last id
  connected : ∀ r ∈ s.registered, s.live r.2 = true

variable {s s' : SessionManager} {p q : Nat} {id : ServerId}

theorem last_mem (h : s.last id = some p) : (id, p) ∈ s.registered := by
  obtain ⟨r, hfind, rfl⟩ := Option.map_eq_some_iff.mp h
  have hid : r.1 = id := by simpa using List.find?_some hfind
  rw [← hid]
  exact List.mem_of_find?_eq_some hfind

theorem Kept.right (h : Kept s) : Right s := by
  constructor
  · exact h.latest
  · intro id p hp
    rw [h.latest] at hp
    exact h.connected _ (last_mem hp)

theorem kept_new (dwServerId : Nat → ServerId) : Kept (new dwServerId) := by
  constructor
  · intro id
    rfl
  · intro r hr
    cases hr

theorem mapSessions_release (s : SessionManager) (p : Nat) (id : ServerId) :
    (s.release p).mapSessions id =
      if id = s.dwServerId p then none else s.mapSessions id :=
  Function.update_apply ..

theorem mapSessions_onServerInfo (s : SessionManager) (p : Nat) (i id : ServerId) :
    (s.onServerInfo p i).mapSessions id = if id = i then some p else s.mapSessions id :=
  Function.update_apply ..

theorem last_onServerInfo (s : SessionManager) (p : Nat) (i id : ServerId) :
    (s.onServerInfo p i).last id = if id = i then some p else s.last id := by
  by_cases hid : id = i
  · simp [last, onServerInfo, hid]
  · simp [last, onServerInfo, hid, Ne.symm hid]

/-- A session that goes leaves what others have registered last. -/
theorem last_release_of_ne (h : s.last id = some q) (hq : q ≠ p) :
    (s.release p).last id = some q := by
  obtain ⟨r, hfind, rfl⟩ := Option.map_eq_some_iff.mp h
  obtain ⟨hid, before, after, hsplit, hbefore⟩ := List.find?_eq_some_iff_append.mp hfind
  have hrest : (s.registered.filter (·.2 ≠ p)).find? (·.1 = id) = some r := by
    rw [hsplit, List.filter_append, List.filter_cons_of_pos (by simpa using hq),
      List.find?_append]
    have hnone : (before.filter (·.2 ≠ p)).find? (·.1 = id) = none := by
      rw [List.find?_eq_none]
      intro x hx
      simpa using hbefore x (List.mem_of_mem_filter hx)
    rw [hnone, Option.none_or]
    exact List.find?_cons_of_pos hid
  rw [last, release, hrest]
  rfl

theorem last_release_eq_none (h : ∀ r ∈ s.registered, r.1 = id → r.2 = p) :
    (s.release p).last id = none := by
  rw [last, Option.map_eq_none_iff, List.find?_eq_none]
  intro r hr
  obtain ⟨hmem, hne⟩ := List.mem_filter.mp hr
  have hp : r.2 ≠ p := by simpa using hne
  simpa using fun hid => hp (h r hmem hid)

/-- `Own` says that nobody loses what he has when a session goes. -/
theorem Kept.release_iff (h : Kept s) :
    (∀ id, (s.release p).mapSessions id = (s.release p).last id) ↔ s.Own (.release p) := by
  constructor
  · intro hright
    constructor
    · intro r hr hid
      by_contra hne
      have hnone := hright r.1
      rw [mapSessions_release, if_pos hid, eq_comm, last, Option.map_eq_none_iff,
        List.find?_eq_none] at hnone
      exact hnone r (List.mem_filter.mpr ⟨hr, decide_eq_true hne⟩) (decide_eq_true rfl)
    · intro r hr hp
      by_contra hid
      have hsame := hright r.1
      rw [mapSessions_release, if_neg hid, hp] at hsame
      obtain ⟨-, hne⟩ := List.mem_filter.mp (last_mem hsame.symm)
      simp at hne
  · rintro ⟨honly, hother⟩ id
    rw [mapSessions_release]
    by_cases hid : id = s.dwServerId p
    · rw [if_pos hid, hid, last_release_eq_none honly]
    rw [if_neg hid, h.latest]
    cases hlast : s.last id with
    | none =>
      symm
      apply last_release_eq_none
      intro r hr hr1
      rw [last, Option.map_eq_none_iff, List.find?_eq_none] at hlast
      exact absurd (decide_eq_true hr1) (hlast r hr)
    | some q =>
      have hq : q ≠ p := by
        rintro rfl
        exact hid (hother _ (last_mem hlast) ((h.latest id).trans hlast))
      exact (last_release_of_ne hlast hq).symm

theorem Kept.step {l : Label} (h : Kept s) (hown : s.Own l) (hstep : s.step l = some s') :
    Kept s' := by
  cases l with
  | connect p =>
    simp only [SessionManager.step] at hstep
    split_ifs at hstep
    cases hstep
    constructor
    · exact h.latest
    · intro r hr
      by_cases hp : r.2 = p
      · simp [connect, hp]
      · simp [connect, hp, h.connected r hr]
  | serverInfo p i =>
    simp only [SessionManager.step] at hstep
    split_ifs at hstep with hlive
    cases hstep
    constructor
    · intro id
      rw [mapSessions_onServerInfo, last_onServerInfo, h.latest]
    · intro r hr
      rcases List.mem_cons.mp hr with rfl | hr
      · exact hlive
      · exact h.connected r hr
  | release p =>
    simp only [SessionManager.step] at hstep
    split_ifs at hstep
    cases hstep
    constructor
    · exact h.release_iff.mpr hown
    · intro r hr
      obtain ⟨hmem, hne⟩ := List.mem_filter.mp hr
      have hp : r.2 ≠ p := by simpa using hne
      simp [release, hp, h.connected r hmem]

theorem Kept.own {l : Label} (h : Kept s) (hstep : s.step l = some s') (hright : Right s') :
    s.Own l := by
  cases l with
  | connect p => trivial
  | serverInfo p i => trivial
  | release p =>
    simp only [SessionManager.step] at hstep
    split_ifs at hstep
    cases hstep
    exact h.release_iff.mp hright.latest

/-- The id of a session that stays connected leads to it before and after. -/
theorem Right.release_of_ne (h : Right s) (h' : Right (s.release p))
    (hid : s.mapSessions id = some q) (hq : q ≠ p) : (s.release p).mapSessions id = some q := by
  rw [h.latest] at hid
  rw [h'.latest, last_release_of_ne hid hq]

/-- Every server id leads to the session that has registered it last, all along, if and only if each
session takes nothing but its own id with it. -/
theorem right_iff_own {dwServerId : Nat → ServerId} {labels : List Label} {s : SessionManager}
    (hrun : Transition.run step (new dwServerId) labels = some s) :
    (∀ before s', before <+: labels → Transition.run step (new dwServerId) before = some s' →
        s'.Right) ↔ Transition.Always step Own (new dwServerId) labels :=
  Transition.forall_reached_iff_always (fun _ h => h.right)
    (fun _ _ _ h hown hstep => h.step hown hstep) (fun _ _ _ h hstep hright => h.own hstep hright)
    (kept_new dwServerId) hrun

/-- Two servers come, and one reconnects after its session has gone. -/
def orderly : List Label :=
  [.connect 0, .serverInfo 0 20001, .connect 1, .serverInfo 1 20002, .release 0, .connect 0,
    .serverInfo 0 20001]

theorem right_iff_own_orderly :
    Transition.Always step Own (new fun _ => 0) orderly ∧
      ∀ before s', before <+: orderly →
        Transition.run step (new fun _ => 0) before = some s' → s'.Right :=
  have hown : Transition.Always step Own (new fun _ => 0) orderly := by decide +kernel
  ⟨hown, (right_iff_own rfl).mpr hown⟩

/-- A server registers again before its first connection is seen to close. -/
theorem not_right_of_reconnect :
    ¬ ∀ (dwServerId : Nat → ServerId) (labels : List Label) (s : SessionManager),
      Transition.run step (new dwServerId) labels = some s → s.Right := by
  intro h
  have hright := h (fun _ => 0)
    [.connect 0, .serverInfo 0 20001, .connect 1, .serverInfo 1 20001, .release 0] _ rfl
  have hgone : ¬ (none : Option Nat) = some 1 := by simp
  exact hgone (hright.latest 20001)

end SessionManager

end WebGame
