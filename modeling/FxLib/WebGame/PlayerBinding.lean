import Mathlib.Logic.Function.Basic
import FxLib.Lib.Transition
import FxLib.WebGame.Player

/-!
# Players and sessions of a game server

`CPlayerSession` and `WebSocketPlayerSessionManager` of `WebGame/PlayerSession.cpp` with the players
of the scene. A player knows its session and a session its player; entering and closing set the two
independently. The sessions are an array, in which a session is used again when its connection has
gone. `entered` remembers, for each player, which session has entered last, as long as it is open.
-/

namespace WebGame

structure GameScene where
  /-- The ids of `m_qwRoles`. -/
  qwRoles : List PlayerId
  /-- `m_pPlayerSession` of each player of `m_mapPlayers`. -/
  mapPlayers : PlayerId → Option (Option Nat)
  /-- Whether `GetConnection` of a session is not NULL. -/
  connection : Nat → Bool
  /-- `m_qwPlayerId` of a session. -/
  qwPlayerId : Nat → PlayerId
  entered : PlayerId → Option Nat
  /-- The program has gone through a null pointer. -/
  crashed : Bool

namespace GameScene

/-- `MAXCLIENTNUM`: the array has twice as many sessions, `CreateSession` stops here. -/
def sessionCount : Nat := 8

inductive Label where
  | connect
  | enter (session : Nat) (qwPlayerId : PlayerId) (gaming : Bool)
  | close (session : Nat)
  deriving DecidableEq

/-- `CGameSceneCommon::Init`: the ids that are not 0 are players, without a session. -/
def init (qwRoles : List PlayerId) : GameScene where
  qwRoles := qwRoles
  mapPlayers := fun p => if p ≠ 0 ∧ p ∈ qwRoles then some none else none
  connection := fun _ => false
  qwPlayerId := fun _ => 0
  entered := fun _ => none
  crashed := false

def getPlayer (s : GameScene) (qwPlayerId : PlayerId) : Option (Option Nat) :=
  s.mapPlayers qwPlayerId

def setPlayerSession (s : GameScene) (qwPlayerId : PlayerId) (session : Option Nat) : GameScene :=
  { s with mapPlayers := Function.update s.mapPlayers qwPlayerId (some session) }

/-- `CreateSession`: the first session without a connection. -/
def createSession (s : GameScene) : GameScene :=
  match (List.range sessionCount).find? (!s.connection ·) with
  | none => s
  | some session => { s with connection := Function.update s.connection session true }

/-- The sessions that `NotifyPlayer` sends to: `Send` is called once for each role that has one. -/
def notifyPlayer (s : GameScene) : List Nat := s.qwRoles.filterMap fun p => (s.getPlayer p).join

def notifyPlayerExcept (s : GameScene) (qwPlayerId : PlayerId) : List Nat :=
  (s.qwRoles.filter (· ≠ qwPlayerId)).filterMap fun p => (s.getPlayer p).join

/-- The loop over the roles that sends the boards looks each player up. -/
def sendsBoards (s : GameScene) : Bool :=
  s.qwRoles.all fun qwPlayerId => qwPlayerId = 0 ∨ (s.getPlayer qwPlayerId).isSome

/-- `OnPlayerRequestGameEnter`. -/
def onPlayerRequestGameEnter (s : GameScene) (session : Nat) (qwPlayerId : PlayerId)
    (gaming : Bool) : GameScene :=
  match s.getPlayer qwPlayerId with
  | none => s
  | some _ =>
    let s := { s.setPlayerSession qwPlayerId (some session) with
      qwPlayerId := Function.update s.qwPlayerId session qwPlayerId
      entered := Function.update s.entered qwPlayerId (some session) }
    if gaming ∧ ¬ s.sendsBoards then { s with crashed := true } else s

/-- `OnClose`, and `Release`. What `GetPlayer` answers is not looked at. -/
def onClose (s : GameScene) (session : Nat) : GameScene :=
  match s.getPlayer (s.qwPlayerId session) with
  | none => { s with crashed := true }
  | some _ => { s.setPlayerSession (s.qwPlayerId session) none with
      qwPlayerId := Function.update s.qwPlayerId session 0
      connection := Function.update s.connection session false
      entered := fun p => if s.entered p = some session then none else s.entered p }

def step (s : GameScene) (l : Label) : Option GameScene :=
  if s.crashed then none
  else
    match l with
    | .connect => some s.createSession
    | .enter session qwPlayerId gaming =>
      if s.connection session then some (s.onPlayerRequestGameEnter session qwPlayerId gaming)
      else none
    | .close session => if s.connection session then some (s.onClose session) else none

/-- The player's session is NULL or the open one that has entered last with its id. -/
def Bound (s : GameScene) : Prop :=
  ∀ p session, s.getPlayer p = some (some session) →
    s.entered p = some session ∧ s.connection session = true

/-- What a step may do: a session that closes only leaves the players that it has entered last for.
-/
structure Allowed (s : GameScene) (l : Label) (s' : GameScene) : Prop where
  alive : s'.crashed = false
  bound : s'.Bound
  others : ∀ session, l = .close session → ∀ p, s.entered p ≠ some session →
    s'.getPlayer p = s.getPlayer p

def Sound (s : GameScene) (l : Label) : Prop := ∀ s', s.step l = some s' → Allowed s l s'

/-- The session that closes belongs to a player, who has no other session, and to nobody else. -/
def Own (s : GameScene) : Label → Prop
  | .connect => True
  | .enter .. => True
  | .close session => s.connection session = true →
    (∃ bound ∈ s.getPlayer (s.qwPlayerId session), bound = none ∨ bound = some session) ∧
      ∀ q ∈ s.qwRoles, s.getPlayer q = some (some session) → q = s.qwPlayerId session

instance (s : GameScene) : (l : Label) → Decidable (s.Own l)
  | .connect => inferInstanceAs (Decidable True)
  | .enter .. => inferInstanceAs (Decidable True)
  | .close _ => inferInstanceAs (Decidable (_ → _ ∧ _))

structure Kept (s : GameScene) : Prop where
  alive : s.crashed = false
  players : ∀ p, (s.getPlayer p).isSome ↔ p ≠ 0 ∧ p ∈ s.qwRoles
  bound : s.Bound
  opened : ∀ p session, s.entered p = some session → s.connection session = true

variable {s s' : GameScene} {session : Nat} {p q : PlayerId}

theorem kept_init (qwRoles : List PlayerId) : Kept (init qwRoles) := by
  have hplayer : ∀ p, (init qwRoles).getPlayer p =
      if p ≠ 0 ∧ p ∈ qwRoles then some none else none := fun p => rfl
  constructor
  · rfl
  · intro p
    rw [hplayer]
    split_ifs with hp
    · exact iff_of_true rfl hp
    · exact iff_of_false (by simp) hp
  · intro p session hp
    rw [hplayer] at hp
    split_ifs at hp
    cases hp
  · intro p session hp
    cases hp

theorem getPlayer_setPlayerSession (s : GameScene) (p q : PlayerId) (session : Option Nat) :
    (s.setPlayerSession p session).getPlayer q = if q = p then some session else s.getPlayer q :=
  Function.update_apply ..

theorem Kept.sendsBoards (h : Kept s) : s.sendsBoards = true := by
  rw [GameScene.sendsBoards, List.all_eq_true]
  intro p hp
  rw [decide_eq_true_eq, h.players p]
  by_cases hzero : p = 0
  · exact .inl hzero
  · exact .inr ⟨hzero, hp⟩

theorem Kept.createSession (h : Kept s) : Kept s.createSession := by
  rw [GameScene.createSession]
  cases (List.range sessionCount).find? (!s.connection ·) with
  | none => exact h
  | some session =>
    have hmore : ∀ c, s.connection c = true →
        Function.update s.connection session true c = true := by
      intro c hc
      rw [Function.update_apply]
      split_ifs
      · rfl
      · exact hc
    constructor
    · exact h.alive
    · exact h.players
    · intro p c hp
      exact ⟨(h.bound p c hp).1, hmore c (h.bound p c hp).2⟩
    · intro p c hp
      exact hmore c (h.opened p c hp)

theorem Kept.enter (h : Kept s) (hopen : s.connection session = true) (gaming : Bool) :
    Kept (s.onPlayerRequestGameEnter session p gaming) := by
  rw [onPlayerRequestGameEnter]
  cases hplayer : s.getPlayer p with
  | none => exact h
  | some old =>
    have hget : ∀ q, GameScene.getPlayer { s.setPlayerSession p (some session) with
        qwPlayerId := Function.update s.qwPlayerId session p
        entered := Function.update s.entered p (some session) } q =
          if q = p then some (some session) else s.getPlayer q :=
      fun q => getPlayer_setPlayerSession ..
    have hkept : Kept { s.setPlayerSession p (some session) with
        qwPlayerId := Function.update s.qwPlayerId session p
        entered := Function.update s.entered p (some session) } := by
      constructor
      · exact h.alive
      · intro q
        rw [hget]
        by_cases hq : q = p
        · rw [if_pos hq, hq]
          exact iff_of_true rfl ((h.players p).mp (by rw [hplayer]; rfl))
        · rw [if_neg hq]
          exact h.players q
      · intro q c hq
        rw [hget] at hq
        simp only [Function.update_apply]
        by_cases hqp : q = p
        · rw [if_pos hqp] at hq ⊢
          cases hq
          exact ⟨rfl, hopen⟩
        · rw [if_neg hqp] at hq ⊢
          exact h.bound q c hq
      · intro q c hq
        simp only [Function.update_apply] at hq
        by_cases hqp : q = p
        · rw [if_pos hqp] at hq
          cases hq
          exact hopen
        · rw [if_neg hqp] at hq
          exact h.opened q c hq
    simp only [hkept.sendsBoards, not_true_eq_false, and_false, if_false]
    exact hkept

theorem getPlayer_onClose {bound : Option Nat}
    (hplayer : s.getPlayer (s.qwPlayerId session) = some bound) (q : PlayerId) :
    (s.onClose session).getPlayer q =
      if q = s.qwPlayerId session then some none else s.getPlayer q := by
  rw [onClose, hplayer]
  exact getPlayer_setPlayerSession ..

theorem Kept.onClose (h : Kept s) (hopen : s.connection session = true)
    (hown : s.Own (.close session)) :
    Kept (s.onClose session) ∧ Allowed s (.close session) (s.onClose session) := by
  obtain ⟨⟨bound, hplayer, hbound⟩, hother⟩ := hown hopen
  have hget := getPlayer_onClose hplayer
  have hclose : s.onClose session = { s.setPlayerSession (s.qwPlayerId session) none with
      qwPlayerId := Function.update s.qwPlayerId session 0
      connection := Function.update s.connection session false
      entered := fun p => if s.entered p = some session then none else s.entered p } := by
    rw [GameScene.onClose, hplayer]
  have hstill : ∀ c, c ≠ session → s.connection c = true →
      (s.onClose session).connection c = true := by
    intro c hc hconnected
    rw [hclose]
    exact (Function.update_of_ne hc _ _).trans hconnected
  have hentered : ∀ q, (s.onClose session).entered q =
      if s.entered q = some session then none else s.entered q := by
    intro q
    rw [hclose]
  have halive : (s.onClose session).crashed = false := by
    rw [hclose]
    exact h.alive
  have hright : (s.onClose session).Bound := by
    intro q c hq
    rw [hget] at hq
    by_cases hqp : q = s.qwPlayerId session
    · rw [if_pos hqp] at hq
      cases hq
    · -- nobody else is bound to the session that closes
      rw [if_neg hqp] at hq
      have hc : c ≠ session := by
        rintro rfl
        have hrole := (h.players q).mp (by rw [hq]; rfl)
        exact hqp (hother q hrole.2 hq)
      obtain ⟨hlast, hconnected⟩ := h.bound q c hq
      rw [hentered, hlast, if_neg (by simpa using hc)]
      exact ⟨rfl, hstill c hc hconnected⟩
  constructor
  · constructor
    · exact halive
    · intro q
      have hroles : (s.onClose session).qwRoles = s.qwRoles := by
        rw [hclose]
        rfl
      rw [hget, hroles, ← h.players q]
      by_cases hqp : q = s.qwPlayerId session
      · rw [if_pos hqp, hqp, hplayer]
        exact iff_of_true rfl rfl
      · rw [if_neg hqp]
    · exact hright
    · intro q c hq
      rw [hentered] at hq
      split_ifs at hq with hlast
      apply hstill c ?_ (h.opened q c hq)
      rintro rfl
      exact hlast hq
  · constructor
    · exact halive
    · exact hright
    · rintro _ ⟨⟩ q hq
      rw [hget]
      by_cases hqp : q = s.qwPlayerId session
      · rw [if_pos hqp, hqp, hplayer]
        rcases hbound with rfl | rfl
        · rfl
        · rw [hqp] at hq
          exact absurd (h.bound _ _ hplayer).1 hq
      · rw [if_neg hqp]

/-- A step is allowed exactly when the session that closes is its player's. -/
theorem Kept.sound_iff (h : Kept s) (l : Label) : s.Sound l ↔ s.Own l := by
  have halive := h.alive
  cases l with
  | connect =>
    refine iff_of_true (fun s' hstep => ?_) trivial
    simp only [step, halive, Bool.false_eq_true, if_false] at hstep
    cases hstep
    refine ⟨h.createSession.alive, h.createSession.bound, ?_⟩
    intro session hl
    cases hl
  | enter session p gaming =>
    refine iff_of_true (fun s' hstep => ?_) trivial
    simp only [step, halive, Bool.false_eq_true, if_false] at hstep
    split_ifs at hstep with hopen
    cases hstep
    have hkept := h.enter hopen gaming (p := p)
    refine ⟨hkept.alive, hkept.bound, ?_⟩
    intro c hl
    cases hl
  | close session =>
    constructor
    · intro hsound hopen
      have hallowed := hsound (s.onClose session) (by simp [step, halive, hopen])
      cases hplayer : s.getPlayer (s.qwPlayerId session) with
      | none =>
        have hcrash := hallowed.alive
        rw [GameScene.onClose, hplayer] at hcrash
        cases hcrash
      | some bound =>
        have hget := getPlayer_onClose hplayer
        constructor
        · refine ⟨bound, rfl, ?_⟩
          cases bound with
          | none => exact .inl rfl
          | some c =>
            by_contra hne
            obtain ⟨-, hc⟩ := not_or.mp hne
            -- the player is bound to another session, and loses it
            have hsame := hallowed.others session rfl (s.qwPlayerId session) (by
              rw [(h.bound _ _ hplayer).1]
              exact hc)
            rw [hget, if_pos rfl, hplayer] at hsame
            cases hsame
        · intro q hq hqc
          by_contra hqp
          have hlast := hallowed.bound q session (by rw [hget, if_neg hqp, hqc])
          rw [GameScene.onClose, hplayer] at hlast
          simp [(h.bound q session hqc).1] at hlast
    · intro hown s' hstep
      simp only [step, halive, Bool.false_eq_true, if_false] at hstep
      split_ifs at hstep with hopen
      cases hstep
      exact (h.onClose hopen hown).2

theorem Kept.step {l : Label} (h : Kept s) (hown : s.Own l) (hstep : s.step l = some s') :
    Kept s' := by
  have halive := h.alive
  cases l with
  | connect =>
    simp only [GameScene.step, halive, Bool.false_eq_true, if_false] at hstep
    cases hstep
    exact h.createSession
  | enter session p gaming =>
    simp only [GameScene.step, halive, Bool.false_eq_true, if_false] at hstep
    split_ifs at hstep with hopen
    cases hstep
    exact h.enter hopen gaming
  | close session =>
    simp only [GameScene.step, halive, Bool.false_eq_true, if_false] at hstep
    split_ifs at hstep with hopen
    cases hstep
    exact (h.onClose hopen hown).1

theorem always_sound_iff (qwRoles : List PlayerId) (labels : List Label) :
    Transition.Always step Sound (init qwRoles) labels ↔
      Transition.Always step Own (init qwRoles) labels := by
  refine Transition.always_iff Kept (fun _ l h => h.sound_iff l) ?_ (kept_init qwRoles)
  intro s l s' h hsound hstep
  exact h.step ((h.sound_iff l).mp hsound) hstep

/-- The bindings stay right if and only if every session that closes is the one session of its
player. -/
theorem sound_iff_own (qwRoles : List PlayerId) (labels : List Label) :
    (init qwRoles).Bound ∧ (Transition.Always step Sound (init qwRoles) labels ↔
      Transition.Always step Own (init qwRoles) labels) :=
  ⟨(kept_init qwRoles).bound, always_sound_iff qwRoles labels⟩

/-- A client connects and goes again. -/
theorem not_sound_of_close_before_enter :
    ¬ ∀ (qwRoles : List PlayerId) (labels : List Label),
      Transition.Always step Sound (init qwRoles) labels := by
  intro h
  have hclose := (always_sound_iff [7] [.connect, .close 0]).mp (h _ _)
  exact absurd hclose (by decide +kernel)

end GameScene

end WebGame
