import Mathlib.Data.List.Basic
import Mathlib.Tactic.SplitIfs

/-!
# The thread of a database client

`FxMySqlClient` of `Database/dbclient.cpp`. Each section under a lock is one step of `ThrdFunc`, and
so is each call of a query's own code.
-/

/-- What happens to a query. -/
inductive Stage where
  | accepted
  | queried
  | answered
  | released
  deriving DecidableEq

def Stage.before : Stage → Option Stage
  | .accepted => none
  | .queried => some .accepted
  | .answered => some .queried
  | .released => some .answered

/-- A query object: `GetDBId`, and which of the objects handed to `AddQuery` it is. -/
structure DBQuery where
  dwDBId : Nat
  serial : Nat
  deriving DecidableEq

/-! ### The thread of a client -/

namespace FxMySqlClient

/-- Which loop has called `__DoQuery`. -/
inductive Caller where
  /-- `ThrdFunc` while the connection is good. -/
  | work
  /-- `__ClearQuery` while the client waits to reconnect. -/
  | clear
  /-- The last `__ClearQuery`. -/
  | drain
  deriving DecidableEq

inductive Pc where
  /-- `while (!m_bTerminate)`. -/
  | test
  | body
  | doQuery (caller : Caller)
  /-- Before `poQuery->OnQuery(this)`. -/
  | onQuery (caller : Caller) (poQuery : DBQuery)
  /-- Before `AddResult(poQuery)`. -/
  | addResult (caller : Caller) (poQuery : DBQuery)
  | close
  | done
  deriving DecidableEq

end FxMySqlClient

structure FxMySqlClient where
  querys : List DBQuery
  lastReconnectTime : Int
  terminate : Bool
  dbOK : Bool
  pc : FxMySqlClient.Pc

namespace FxMySqlClient

/-- What a section of the thread shows to the others. -/
inductive Effect where
  | silent
  | onQuery (poQuery : DBQuery)
  | addResult (poQuery : DBQuery)
  deriving DecidableEq

/-- `ConnectDB` and `Start`. -/
def started : FxMySqlClient := ⟨[], 0, false, true, .test⟩

def addQuery (c : FxMySqlClient) (poQuery : DBQuery) : FxMySqlClient :=
  { c with querys := c.querys ++ [poQuery] }

/-- Where a loop goes on when `__DoQuery` has answered true. -/
def Caller.again : Caller → Pc
  | .work => .test
  | .clear => .doQuery .clear
  | .drain => .doQuery .drain

/-- Where a loop goes on when `__DoQuery` has answered false. -/
def Caller.empty : Caller → Pc
  | .work => .test
  | .clear => .test
  | .drain => .close

/-- The next section of `ThrdFunc`; `nNow` is the time, `good` the answer of `ReConnect`, or
whether `OnQuery` has kept the connection. -/
def thrdFunc (c : FxMySqlClient) (nNow : Int) (good : Bool) : Option (FxMySqlClient × Effect) :=
  match c.pc with
  | .test => some ({ c with pc := if c.terminate then .doQuery .drain else .body }, .silent)
  | .body =>
    if c.dbOK then some ({ c with pc := .doQuery .work }, .silent)
    else if nNow - c.lastReconnectTime > 10 then
      some ({ c with dbOK := good, lastReconnectTime := nNow, pc := .test }, .silent)
    else some ({ c with pc := .doQuery .clear }, .silent)
  | .doQuery caller =>
    match c.querys with
    | [] => some ({ c with pc := caller.empty }, .silent)
    | poQuery :: querys =>
      some ({ c with querys := querys, pc := .onQuery caller poQuery }, .silent)
  | .onQuery caller poQuery =>
    some ({ c with dbOK := c.dbOK && good, pc := .addResult caller poQuery }, .onQuery poQuery)
  | .addResult caller poQuery => some ({ c with pc := caller.again }, .addResult poQuery)
  | .close => some ({ c with dbOK := false, pc := .done }, .silent)
  | .done => none

end FxMySqlClient

/-! ### A section of a client's thread -/

namespace FxMySqlClient

/-- What waits for `OnQuery`, the oldest first. -/
def pending (c : FxMySqlClient) : List DBQuery :=
  match c.pc with
  | .onQuery _ poQuery => poQuery :: c.querys
  | _ => c.querys

/-- What has seen `OnQuery` and not yet reached the results. -/
def leaving (c : FxMySqlClient) : List DBQuery :=
  match c.pc with
  | .addResult _ poQuery => [poQuery]
  | _ => []

/-- The thread runs its last `__ClearQuery`, or is behind it. -/
def Pc.Drains : Pc → Prop
  | .doQuery .drain | .onQuery .drain _ | .addResult .drain _ | .close | .done => True
  | _ => False

structure Sound (c : FxMySqlClient) : Prop where
  drains : c.pc.Drains → c.terminate = true
  drained : c.pc = .close ∨ c.pc = .done → c.querys = []

/-- What an effect takes from the queries that wait and adds to those that leave. -/
def Effect.Moves (c c' : FxMySqlClient) : Effect → Prop
  | .silent => c'.pending = c.pending ∧ c'.leaving = c.leaving
  | .onQuery poQuery => c.pending = poQuery :: c'.pending ∧ c.leaving = [] ∧ c'.leaving = [poQuery]
  | .addResult poQuery => c'.pending = c.pending ∧ c.leaving = [poQuery] ∧ c'.leaving = []

variable {c c' : FxMySqlClient} {nNow : Int} {good : Bool} {effect : Effect}

theorem Caller.again_drains {caller : Caller} (h : caller.again.Drains) : caller = .drain := by
  cases caller with
  | work => exact h.elim
  | clear => exact h.elim
  | drain => rfl

theorem Caller.empty_drains {caller : Caller} (h : caller.empty.Drains) : caller = .drain := by
  cases caller with
  | work => exact h.elim
  | clear => exact h.elim
  | drain => rfl

/-- What one section of the thread does. -/
structure Turn (c c' : FxMySqlClient) (effect : Effect) : Prop where
  terminate : c'.terminate = c.terminate
  moves : effect.Moves c c'
  drains : c'.pc.Drains → c.pc.Drains ∨ c.terminate = true
  drained : c'.pc = .close ∨ c'.pc = .done → c'.querys = c.querys ∧ (c.querys = [] ∨ c.pc = .close)

theorem turn (h : c.thrdFunc nNow good = some (c', effect)) : Turn c c' effect := by
  rw [thrdFunc] at h
  cases hpc : c.pc with
  | test =>
    simp only [hpc] at h
    obtain ⟨rfl, rfl⟩ := Prod.mk.inj (Option.some.inj h)
    cases hterm : c.terminate with
    | false =>
      exact ⟨hterm.symm, by simp [Effect.Moves, pending, leaving, hpc], fun hd => hd.elim, by simp⟩
    | true =>
      exact ⟨hterm.symm, by simp [Effect.Moves, pending, leaving, hpc], fun _ => Or.inr hterm,
        by simp⟩
  | body =>
    simp only [hpc] at h
    split_ifs at h
    all_goals
      obtain ⟨rfl, rfl⟩ := Prod.mk.inj (Option.some.inj h)
      exact ⟨rfl, by simp [Effect.Moves, pending, leaving, hpc], fun hd => hd.elim, by simp⟩
  | doQuery caller =>
    simp only [hpc] at h
    cases hq : c.querys with
    | nil =>
      simp only [hq] at h
      obtain ⟨rfl, rfl⟩ := Prod.mk.inj (Option.some.inj h)
      refine ⟨rfl, ?_, fun hd => Or.inl ?_, fun _ => ⟨hq.symm, Or.inl hq⟩⟩
      · cases caller <;> simp [Effect.Moves, pending, leaving, hpc, hq, Caller.empty]
      · obtain rfl := Caller.empty_drains hd
        rw [hpc]
        trivial
    | cons poQuery querys =>
      simp only [hq] at h
      obtain ⟨rfl, rfl⟩ := Prod.mk.inj (Option.some.inj h)
      refine ⟨rfl, by simp [Effect.Moves, pending, leaving, hpc, hq], fun hd => Or.inl ?_, by simp⟩
      rw [hpc]
      cases caller <;> exact hd
  | onQuery caller poQuery =>
    simp only [hpc] at h
    obtain ⟨rfl, rfl⟩ := Prod.mk.inj (Option.some.inj h)
    refine ⟨rfl, by simp [Effect.Moves, pending, leaving, hpc], fun hd => Or.inl ?_, by simp⟩
    rw [hpc]
    cases caller <;> exact hd
  | addResult caller poQuery =>
    simp only [hpc] at h
    obtain ⟨rfl, rfl⟩ := Prod.mk.inj (Option.some.inj h)
    refine ⟨rfl, ?_, fun hd => Or.inl ?_, ?_⟩
    · cases caller <;> simp [Effect.Moves, pending, leaving, hpc, Caller.again]
    · obtain rfl := Caller.again_drains hd
      rw [hpc]
      trivial
    · cases caller <;> simp [Caller.again]
  | close =>
    simp only [hpc] at h
    obtain ⟨rfl, rfl⟩ := Prod.mk.inj (Option.some.inj h)
    exact ⟨rfl, by simp [Effect.Moves, pending, leaving, hpc],
      fun _ => Or.inl (by rw [hpc]; trivial), fun _ => ⟨rfl, Or.inr hpc⟩⟩
  | done =>
    simp only [hpc] at h
    cases h

theorem Turn.sound (h : Turn c c' effect) (hs : c.Sound) : c'.Sound := by
  refine ⟨fun hdrains => ?_, fun hend => ?_⟩
  · rw [h.terminate]
    exact (h.drains hdrains).elim hs.drains id
  · obtain ⟨heq, hq⟩ := h.drained hend
    rw [heq]
    exact hq.elim id fun hpc => hs.drained (Or.inl hpc)

theorem sound_started : started.Sound := ⟨fun h => h.elim, by simp [started]⟩

theorem Sound.stop (h : c.Sound) : Sound { c with terminate := true } :=
  ⟨fun _ => rfl, h.drained⟩

/-- A client that has not been told to stop takes a query. -/
theorem Sound.addQuery (h : c.Sound) (hterm : c.terminate = false) (poQuery : DBQuery) :
    (c.addQuery poQuery).Sound := by
  refine ⟨h.drains, fun hend => ?_⟩
  have hdrains : c.pc.Drains := by
    rcases hend with hpc | hpc
    · exact (show c.pc = .close from hpc) ▸ trivial
    · exact (show c.pc = .done from hpc) ▸ trivial
  rw [h.drains hdrains] at hterm
  cases hterm

theorem pending_addQuery (poQuery : DBQuery) :
    (c.addQuery poQuery).pending = c.pending ++ [poQuery] := by
  simp only [pending, FxMySqlClient.addQuery]
  split <;> simp

theorem Sound.pending_done (h : c.Sound) (hpc : c.pc = .done) :
    c.pending = [] ∧ c.leaving = [] := by
  simp [pending, leaving, hpc, h.drained (Or.inr hpc)]

/-! ### The thread ends -/

/-- How far a thread that has been told to stop is from its end. -/
def Pc.work : Pc → Nat
  | .done => 0
  | .close => 1
  | .doQuery .drain => 2
  | .test => 3
  | .doQuery .work | .doQuery .clear => 4
  | .body | .addResult .. => 5
  | .onQuery .. => 6

def work (c : FxMySqlClient) : Nat := 5 * c.querys.length + c.pc.work

theorem work_lt (hterm : c.terminate = true) (h : c.thrdFunc nNow good = some (c', effect)) :
    c'.work < c.work := by
  rw [thrdFunc] at h
  cases hpc : c.pc with
  | test =>
    simp only [hpc, hterm, if_true] at h
    obtain ⟨rfl, -⟩ := Prod.mk.inj (Option.some.inj h)
    simp [work, hpc, Pc.work]
  | body =>
    simp only [hpc] at h
    split_ifs at h <;> obtain ⟨rfl, -⟩ := Prod.mk.inj (Option.some.inj h) <;>
      simp [work, hpc, Pc.work]
  | doQuery caller =>
    simp only [hpc] at h
    cases hq : c.querys with
    | nil =>
      simp only [hq] at h
      obtain ⟨rfl, -⟩ := Prod.mk.inj (Option.some.inj h)
      cases caller <;> simp [work, hpc, hq, Caller.empty, Pc.work]
    | cons poQuery querys =>
      simp only [hq] at h
      obtain ⟨rfl, -⟩ := Prod.mk.inj (Option.some.inj h)
      cases caller <;> simp only [work, hpc, hq, Pc.work, List.length_cons] <;> omega
  | onQuery caller poQuery =>
    simp only [hpc] at h
    obtain ⟨rfl, -⟩ := Prod.mk.inj (Option.some.inj h)
    simp [work, hpc, Pc.work]
  | addResult caller poQuery =>
    simp only [hpc] at h
    obtain ⟨rfl, -⟩ := Prod.mk.inj (Option.some.inj h)
    cases caller <;> simp [work, hpc, Caller.again, Pc.work]
  | close =>
    simp only [hpc] at h
    obtain ⟨rfl, -⟩ := Prod.mk.inj (Option.some.inj h)
    simp [work, hpc, Pc.work]
  | done =>
    simp only [hpc] at h
    cases h

/-- A thread never waits for another one. -/
theorem thrdFunc_runs (nNow : Int) (good : Bool) (hpc : c.pc ≠ .done) :
    ∃ c' effect, c.thrdFunc nNow good = some (c', effect) := by
  rw [thrdFunc]
  split
  case h_7 hdone => exact absurd hdone hpc
  case h_2 => split_ifs <;> exact ⟨_, _, rfl⟩
  case h_3 => split <;> exact ⟨_, _, rfl⟩
  all_goals exact ⟨_, _, rfl⟩

end FxMySqlClient
