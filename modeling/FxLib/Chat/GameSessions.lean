import FxLib.Meta.DynamicPoolEx
import Mathlib.Logic.Function.Basic

/-!
# The game sessions of the chat server manager

`GameSession` and `GameSessionManager` of `ChatServerManager/GameSession.cpp`. A session is an
object of the pool; it goes back when its connection closes, and is then looked up by the server id
that it has logged in with. `connected` lists the sessions of the connections that are open.
-/

namespace ChatServerManager

/-- A `std::string`. -/
abbrev ServerName := List UInt8

structure GameSessions where
  pool : TDynamicPoolEx
  mapGameSessions : ServerName → Option Nat
  /-- `m_szServerId` of each object of the pool. -/
  szServerId : Nat → ServerName
  connected : List Nat

namespace GameSessions

inductive Label where
  | connect
  | login (session : Nat) (szId : ServerName)
  | close (session : Nat)
  deriving DecidableEq

/-- `GameSessionManager::Init`. -/
def init : GameSessions :=
  ⟨(TDynamicPoolEx.new.init 64 64 0).2, fun _ => none, fun _ => [], []⟩

/-- `CreateSession`; a connection for which there is no session is refused. -/
def createSession (s : GameSessions) : Option GameSessions :=
  match s.pool.fetchObj with
  | none => none
  | some (none, pool) => some { s with pool := pool }
  | some (some session, pool) =>
    some { s with pool := pool, connected := session :: s.connected }

/-- `OnLogin`. -/
def onLogin (s : GameSessions) (session : Nat) (szId : ServerName) : GameSessions :=
  if (s.szServerId session).length ≠ 0 then s
  else { s with
    szServerId := Function.update s.szServerId session szId
    mapGameSessions := Function.update s.mapGameSessions szId (some session) }

/-- `GameSessionManager::Release`. -/
def releaseServer (s : GameSessions) (szServerId : ServerName) : Option GameSessions :=
  match s.mapGameSessions szServerId with
  | none => some s
  | some session =>
    match s.pool.releaseObj (some session) with
    | none => none
    | some pool => some { s with
        pool := pool
        mapGameSessions := Function.update s.mapGameSessions szServerId none }

/-- `GameSession::Release` at the end of a connection. -/
def release (s : GameSessions) (session : Nat) : Option GameSessions :=
  releaseServer { s with
    szServerId := Function.update s.szServerId session []
    connected := s.connected.erase session } (s.szServerId session)

def step (s : GameSessions) : Label → Option GameSessions
  | .connect => s.createSession
  | .login session szId => if session ∈ s.connected then some (s.onLogin session szId) else none
  | .close session => if session ∈ s.connected then s.release session else none

/-- The objects that are handed out are those of the open connections, as many as there are. -/
structure Accounted (s : GameSessions) : Prop where
  out : ∀ o, o ∈ s.connected ↔ o < s.pool.allocated ∧ o ∉ s.pool.listFree
  count : s.pool.allocated - s.pool.listFree.length = s.connected.length

/-- After the step everything is accounted for; a close has given back the session that closes,
once, and nothing else. -/
def Returns (s : GameSessions) (l : Label) : Prop :=
  ∀ s', s.step l = some s' → s'.Accounted ∧
    ∀ session, l = .close session → s'.pool.listFree = s.pool.listFree ++ [session]

/-- The server id of a session that closes leads to it. -/
def Registered (s : GameSessions) : Label → Prop
  | .connect => True
  | .login .. => True
  | .close session => session ∈ s.connected → s.mapGameSessions (s.szServerId session) =
    some session

instance (s : GameSessions) : (l : Label) → Decidable (s.Registered l)
  | .connect => inferInstanceAs (Decidable True)
  | .login .. => inferInstanceAs (Decidable True)
  | .close _ => inferInstanceAs (Decidable (_ → _))

structure Kept (s : GameSessions) : Prop where
  sound : s.pool.Sound s.connected
  maxCount : s.pool.maxCount = 0
  growCount : s.pool.growCount = 64
  locks : s.pool.locks = true

variable {s s' : GameSessions} {session : Nat}

theorem kept_init : Kept init := by
  have hkept : TDynamicPoolEx.Kept (TDynamicPoolEx.start 64 64 0) :=
    TDynamicPoolEx.kept_start (by decide) (by decide)
  exact ⟨hkept.sound, rfl, rfl, rfl⟩

/-- The pool knows as many objects as are free and handed out together. -/
theorem Kept.accounted (h : Kept s) : Accounted s := by
  have hdisjoint := List.disjoint_of_nodup_append h.sound.nodup
  constructor
  · intro o
    rw [← h.sound.covers o, List.mem_append]
    constructor
    · intro ho
      exact ⟨.inr ho, fun hfree => hdisjoint hfree ho⟩
    · rintro ⟨hfree | hout, hnot⟩
      · exact absurd hfree hnot
      · exact hout
  · have hperm : (s.pool.listFree ++ s.connected).Perm (List.range s.pool.allocated) := by
      apply (List.perm_ext_iff_of_nodup h.sound.nodup List.nodup_range).mpr
      intro o
      rw [h.sound.covers, List.mem_range]
    have hlength := hperm.length_eq
    rw [List.length_append, List.length_range] at hlength
    omega

theorem Kept.createSession (h : Kept s) (hstep : s.createSession = some s') : Kept s' := by
  obtain ⟨o, pool, hfetch, -, hsound, hsame⟩ :=
    h.sound.fetchObj_object h.maxCount (by rw [h.growCount]; decide) h.locks
  simp only [GameSessions.createSession, hfetch] at hstep
  cases hstep
  exact ⟨hsound, hsame.maxCount.trans h.maxCount, hsame.growCount.trans h.growCount,
    hsame.locks.trans h.locks⟩

theorem Kept.onLogin (h : Kept s) (szId : ServerName) : Kept (s.onLogin session szId) := by
  rw [GameSessions.onLogin]
  split_ifs
  · exact h
  · exact ⟨h.sound, h.maxCount, h.growCount, h.locks⟩

/-- What goes back to the pool: what the server id of the session leads to, if anything. -/
theorem Kept.release_pool (h : Kept s) (hstep : s.release session = some s') :
    s'.connected = s.connected.erase session ∧
      s'.pool = match s.mapGameSessions (s.szServerId session) with
        | none => s.pool
        | some o => s.pool.putBack o := by
  simp only [release, releaseServer] at hstep
  cases hmap : s.mapGameSessions (s.szServerId session) with
  | none =>
    simp only [hmap] at hstep
    cases hstep
    exact ⟨rfl, rfl⟩
  | some o =>
    simp only [hmap, TDynamicPoolEx.releaseObj, h.locks, Bool.true_eq_false, if_false] at hstep
    cases hstep
    exact ⟨rfl, rfl⟩

theorem Kept.release (h : Kept s) (hin : session ∈ s.connected)
    (hmap : s.mapGameSessions (s.szServerId session) = some session)
    (hstep : s.release session = some s') :
    Kept s' ∧ s'.pool.listFree = s.pool.listFree ++ [session] := by
  obtain ⟨hconnected, hpool⟩ := h.release_pool hstep
  rw [hmap] at hpool
  simp only at hpool
  have hold := (h.sound.covers session).mp (List.mem_append_right _ hin)
  have hcounts := (s.pool.putBack_counts session).1
  constructor
  · constructor
    · rw [hpool, hconnected]
      exact h.sound.putBack hold
    · rw [hpool, hcounts.maxCount, h.maxCount]
    · rw [hpool, hcounts.growCount, h.growCount]
    · rw [hpool, hcounts.locks, h.locks]
  · rw [hpool, TDynamicPoolEx.putBack, h.sound.out_ref session hin, if_neg (by decide)]

/-- Only the object that the release names can go back. -/
theorem listFree_putBack (p : TDynamicPoolEx) (o : Nat) :
    (p.putBack o).listFree = p.listFree ∨ (p.putBack o).listFree = p.listFree ++ [o] := by
  rw [TDynamicPoolEx.putBack]
  split_ifs
  · exact .inl rfl
  · exact .inr rfl

theorem Kept.returns_iff (h : Kept s) (l : Label) : s.Returns l ↔ s.Registered l := by
  cases l with
  | connect =>
    refine iff_of_true (fun s' hstep => ⟨(h.createSession hstep).accounted, ?_⟩) trivial
    intro session hl
    cases hl
  | login session szId =>
    refine iff_of_true (fun s' hstep => ⟨?_, ?_⟩) trivial
    · simp only [step] at hstep
      split_ifs at hstep
      cases hstep
      exact (h.onLogin szId).accounted
    · intro session hl
      cases hl
  | close session =>
    constructor
    · intro hreturns hin
      obtain ⟨s', hstep⟩ : ∃ s', s.release session = some s' := by
        simp only [GameSessions.release, releaseServer]
        cases s.mapGameSessions (s.szServerId session) with
        | none => exact ⟨_, rfl⟩
        | some o => simp [TDynamicPoolEx.releaseObj, h.locks]
      have hfree := (hreturns s' (by rw [step, if_pos hin, hstep])).2 session rfl
      obtain ⟨-, hpool⟩ := h.release_pool hstep
      cases hmap : s.mapGameSessions (s.szServerId session) with
      | none =>
        rw [hmap] at hpool
        rw [hpool] at hfree
        simp at hfree
      | some o =>
        rw [hmap] at hpool
        simp only at hpool
        rw [hpool] at hfree
        rcases listFree_putBack s.pool o with hsame | hback
        · rw [hsame] at hfree
          simp at hfree
        · rw [hback] at hfree
          simpa using hfree
    · intro hregistered s' hstep
      by_cases hin : session ∈ s.connected
      · rw [step, if_pos hin] at hstep
        obtain ⟨hkept, hfree⟩ := h.release hin (hregistered hin) hstep
        refine ⟨hkept.accounted, ?_⟩
        rintro _ ⟨⟩
        exact hfree
      · rw [step, if_neg hin] at hstep
        cases hstep

theorem Kept.step {l : Label} (h : Kept s) (hreg : s.Registered l) (hstep : s.step l = some s') :
    Kept s' := by
  cases l with
  | connect => exact h.createSession hstep
  | login session szId =>
    simp only [GameSessions.step] at hstep
    split_ifs at hstep
    cases hstep
    exact h.onLogin szId
  | close session =>
    simp only [GameSessions.step] at hstep
    split_ifs at hstep with hin
    exact (h.release hin (hreg hin) hstep).1

theorem always_returns_iff (labels : List Label) :
    Transition.Always step Returns init labels ↔ Transition.Always step Registered init labels := by
  refine Transition.always_iff Kept (fun _ l h => h.returns_iff l) ?_ kept_init
  intro s l s' h hreturns hstep
  exact h.step ((h.returns_iff l).mp hreturns) hstep

/-- The pool is right from the start and after every step if and only if every session that closes
has logged in, and nobody has logged in with its id since. -/
theorem returns_iff_registered (labels : List Label) :
    init.Accounted ∧ (Transition.Always step Returns init labels ↔
      Transition.Always step Registered init labels) :=
  ⟨kept_init.accounted, always_returns_iff labels⟩

/-- Two game servers have the same id, and the first connection closes. -/
theorem not_returns_of_same_id :
    ¬ ∀ labels : List Label, Transition.Always step Returns init labels := by
  intro h
  have hclose := (always_returns_iff
    [.connect, .connect, .login 0 [97], .login 1 [97], .close 0]).mp (h _)
  exact absurd hclose (by decide +kernel)

end GameSessions

end ChatServerManager
