import Mathlib.Logic.Relation
import Mathlib.Tactic.Linarith

/-!
# While loops

A loop with a fuel argument, its loop heads, and the rule that proves it total:
an invariant and a measure that every iteration lowers. An iteration may need
`good`, a fact about the loop head that the invariant does not give.
-/

namespace While

variable {σ : Type*} (cond : σ → Prop) [DecidablePred cond] (body : σ → σ)

/-- The state in which the loop ends, `none` when the fuel does not suffice. -/
def run : Nat → σ → Option σ
  | 0, _ => none
  | fuel + 1, s => if cond s then run fuel (body s) else some s

/-- The states in which the loop tests its condition. -/
inductive Heads : σ → σ → Prop
  | start (s : σ) : Heads s s
  | next {s q : σ} : cond s → Heads (body s) q → Heads s q

variable {cond body} {s s' : σ}

theorem run_done {fuel : Nat} (h : ¬ cond s) : run cond body (fuel + 1) s = some s := if_neg h

theorem run_next {fuel : Nat} (h : cond s) :
    run cond body (fuel + 1) s = run cond body fuel (body s) := if_pos h

/-- More fuel changes nothing. -/
theorem run_mono {fuel fuel' : Nat} (hle : fuel ≤ fuel') (h : run cond body fuel s = some s') :
    run cond body fuel' s = some s' := by
  induction fuel generalizing s fuel' with
  | zero => cases h
  | succ fuel ih =>
    obtain ⟨k, rfl⟩ : ∃ k, fuel' = k + 1 := ⟨fuel' - 1, by omega⟩
    by_cases hc : cond s
    · rw [run_next hc] at h ⊢
      exact ih (by omega) h
    · rw [run_done hc] at h ⊢
      exact h

/-- What every iteration keeps holds where the loop ends. -/
theorem run_invariant (inv : σ → Prop) (hbody : ∀ s, inv s → cond s → inv (body s)) (hinv : inv s)
    {fuel : Nat} (h : run cond body fuel s = some s') : inv s' ∧ ¬ cond s' := by
  induction fuel generalizing s with
  | zero => cases h
  | succ fuel ih =>
    by_cases hc : cond s
    · rw [run_next hc] at h
      exact ih (hbody s hinv hc) h
    · rw [run_done hc] at h
      obtain rfl := Option.some.inj h
      exact ⟨hinv, hc⟩

omit [DecidablePred cond] in
theorem Heads.invariant (good inv : σ → Prop)
    (hbody : ∀ s, inv s → cond s → good s → inv (body s)) (hinv : inv s)
    (hgood : ∀ q, Heads cond body s q → cond q → good q) (h : Heads cond body s s') : inv s' := by
  induction h with
  | start s => exact hinv
  | next hc _ ih =>
    exact ih (hbody _ hinv hc (hgood _ (.start _) hc)) fun q hq => hgood q (.next hc hq)

/-- The total-correctness rule. -/
theorem total (good inv : σ → Prop) (μ : σ → Nat)
    (hbody : ∀ s, inv s → cond s → good s → inv (body s) ∧ μ (body s) < μ s) (hinv : inv s)
    (hgood : ∀ q, Heads cond body s q → cond q → good q) {fuel : Nat} (hfuel : μ s < fuel) :
    ∃ s', run cond body fuel s = some s' ∧ inv s' ∧ ¬ cond s' := by
  induction fuel generalizing s with
  | zero => omega
  | succ fuel ih =>
    by_cases hc : cond s
    · obtain ⟨hnext, hless⟩ := hbody s hinv hc (hgood s (.start s) hc)
      rw [run_next hc]
      exact ih hnext (fun q hq => hgood q (.next hc hq)) (by omega)
    · exact ⟨s, run_done hc, hinv, hc⟩

end While
