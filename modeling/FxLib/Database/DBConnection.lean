import Mathlib.Tactic.SplitIfs

/-!
# Statements on a connection

`FxMySQLConnection::Query` without a reader: it answers the number of affected rows, or a negative
code, and tries once more when the connection is lost.
-/

/-- How many rows are affected, `none` where the server refuses, and the tables afterwards. -/
abbrev Statement (σ : Type) := σ → Option Nat × σ

namespace FxMySQLConnection

def errUnknown : Int := -4
def errConn : Int := -2
def success : Int := 0

/-- What one `mysql_query` meets. -/
inductive Attempt where
  | answered
  /-- An error that has nothing to do with the connection. -/
  | refused
  /-- The server is gone, before or after it has executed the statement. -/
  | lost (executed : Bool)
  deriving DecidableEq

structure Answers where
  checkConnect : Bool
  first : Attempt
  reConnect : Bool
  second : Attempt

variable {σ : Type}

def answer (result : Option Nat × σ) : Int × σ :=
  (result.1.elim errUnknown fun nAffected => nAffected, result.2)

def query (a : Answers) (statement : Statement σ) (tables : σ) : Int × σ :=
  if a.checkConnect then
    match a.first with
    | .answered => answer (statement tables)
    | .refused => (errUnknown, tables)
    | .lost executed =>
      let tables := if executed then (statement tables).2 else tables
      if a.reConnect then
        match a.second with
        | .answered => answer (statement tables)
        | .refused => (errUnknown, tables)
        | .lost executed => (errUnknown, if executed then (statement tables).2 else tables)
      else (errConn, tables)
  else (errConn, tables)

namespace Answers

/-- The statement is executed once, and its answer comes back. -/
def RunsOnce (a : Answers) : Prop :=
  a.checkConnect = true ∧
    (a.first = .answered ∨ a.first = .lost false ∧ a.reConnect = true ∧ a.second = .answered)

/-- The first answer is lost, and the second comes back. -/
def RunsTwice (a : Answers) : Prop :=
  a.checkConnect = true ∧ a.first = .lost true ∧ a.reConnect = true ∧ a.second = .answered

def NeverRuns (a : Answers) : Prop :=
  a.checkConnect = false ∨ a.first = .refused ∨ a.first = .lost false ∧
    (a.reConnect = false ∨ a.second = .refused ∨ a.second = .lost false)

instance (a : Answers) : Decidable a.RunsOnce := inferInstanceAs (Decidable (_ ∧ _))
instance (a : Answers) : Decidable a.RunsTwice := inferInstanceAs (Decidable (_ ∧ _))
instance (a : Answers) : Decidable a.NeverRuns := inferInstanceAs (Decidable (_ ∨ _))

theorem NeverRuns.not_runsOnce {a : Answers} (h : a.NeverRuns) : ¬ a.RunsOnce := by
  rintro ⟨hcheck, honce⟩
  obtain hno | hfirst | ⟨hfirst, hlost⟩ := h
  · simp [hno] at hcheck
  · simp [hfirst] at honce
  · obtain ⟨-, hre, hsecond⟩ := honce.resolve_left (by simp [hfirst])
    simp [hre, hsecond] at hlost

end Answers

variable {a : Answers} {statement : Statement σ} {tables : σ}

theorem query_of_runsOnce (h : a.RunsOnce) (statement : Statement σ) (tables : σ) :
    query a statement tables = answer (statement tables) := by
  obtain ⟨hcheck, hfirst | ⟨hfirst, hre, hsecond⟩⟩ := h
  · simp [query, hcheck, hfirst]
  · simp [query, hcheck, hfirst, hre, hsecond]

theorem query_of_runsTwice (h : a.RunsTwice) (statement : Statement σ) (tables : σ) :
    query a statement tables = answer (statement (statement tables).2) := by
  obtain ⟨hcheck, hfirst, hre, hsecond⟩ := h
  simp [query, hcheck, hfirst, hre, hsecond]

theorem query_of_neverRuns (h : a.NeverRuns) (statement : Statement σ) (tables : σ) :
    (query a statement tables).1 < 0 ∧ (query a statement tables).2 = tables := by
  rw [query]
  by_cases hcheck : a.checkConnect = true
  · rw [if_pos hcheck]
    obtain hno | hfirst | ⟨hfirst, hlost⟩ := h
    · rw [hno] at hcheck
      cases hcheck
    · simp [hfirst, errUnknown]
    · simp only [hfirst, Bool.false_eq_true, if_false]
      by_cases hre : a.reConnect = true
      · rw [if_pos hre]
        obtain hno | hsecond | hsecond := hlost
        · rw [hno] at hre
          cases hre
        · simp [hsecond, errUnknown]
        · simp [hsecond, errUnknown]
      · simp [hre, errConn]
  · simp [hcheck, errConn]

/-- A statement that would change nothing changes nothing. -/
theorem query_of_unchanged (a : Answers) (h : (statement tables).2 = tables) :
    (query a statement tables).2 = tables := by
  have hanswer : (answer (statement tables)).2 = tables := h
  rw [query]
  cases a.first with
  | answered => split_ifs <;> simp [hanswer]
  | refused => split_ifs <;> rfl
  | lost executed =>
    simp only [h, ite_self]
    cases a.second with
    | answered => split_ifs <;> simp [hanswer]
    | refused => split_ifs <;> rfl
    | lost executed => split_ifs <;> rfl

end FxMySQLConnection
