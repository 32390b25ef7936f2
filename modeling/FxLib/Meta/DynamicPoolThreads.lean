import Mathlib.Data.Fintype.Basic
import FxLib.Meta.DynamicPoolEx

/-!
# The object pool under several threads

Each section under a lock is one step, and so is the test of `_AllocT` that stands before its
lock. `FetchObj` gives the lock up to grow the pool and takes it again to remove the front,
without a second look at the free list.
-/

namespace TDynamicPoolEx

/-- Where a thread stands in `FetchObj`. -/
inductive FetchPc where
  | idle
  /-- The free list was empty; the lock is given up. -/
  | testing
  /-- Behind the tests of `_AllocT`. -/
  | growing
  /-- The block has to go to the list of all blocks. -/
  | recording (block : Nat × Nat)
  /-- `_AllocT` has answered true; the lock has to be taken again. -/
  | relocking
  deriving DecidableEq

/-- Between the growth and the front. -/
def FetchPc.Waits : FetchPc → Prop
  | .recording _ | .relocking => True
  | .idle | .testing | .growing => False

instance : (pc : FetchPc) → Decidable pc.Waits
  | .recording _ => inferInstanceAs (Decidable True)
  | .relocking => inferInstanceAs (Decidable True)
  | .idle => inferInstanceAs (Decidable False)
  | .testing => inferInstanceAs (Decidable False)
  | .growing => inferInstanceAs (Decidable False)

structure Threads (ι : Type) where
  pool : TDynamicPoolEx
  out : List Nat
  pc : ι → FetchPc

inductive ThreadOp where
  | fetch
  | release (pObj : Option Nat)
  /-- The next section of the `FetchObj` the thread is in. -/
  | next

variable {ι : Type} [DecidableEq ι]

namespace Threads

def goto (s : Threads ι) (t : ι) (pc : FetchPc) : Threads ι :=
  { s with pc := Function.update s.pc t pc }

/-- From `front()` to the return of `FetchObj`. -/
def takeFront (s : Threads ι) (t : ι) : Option (Threads ι) :=
  match s.pool.takeFront with
  | none => none
  | some (none, pool) => some ({ s with pool := pool }.goto t .idle)
  | some (some o, pool) => some ({ s with pool := pool, out := o :: s.out }.goto t .idle)

def next (s : Threads ι) (t : ι) : Option (Threads ι) :=
  match s.pc t with
  | .idle => none
  | .testing => some (s.goto t (if s.pool.mayGrow s.pool.growCount then .growing else .idle))
  | .growing =>
    match s.pool.grow s.pool.growCount with
    | (none, pool) => some ({ s with pool := pool }.goto t .relocking)
    | (some block, pool) => some ({ s with pool := pool }.goto t (.recording block))
  | .recording block => some ({ s with pool := s.pool.recordBlock block }.goto t .relocking)
  | .relocking => s.takeFront t

/-- One section of thread `t`; `none` when it has none, or when `front()` is applied to an empty
free list. -/
def step (s : Threads ι) : ι × ThreadOp → Option (Threads ι)
  | (t, .next) => s.next t
  | (t, .fetch) =>
    if s.pool.locks = false ∨ s.pc t ≠ .idle then none
    else if s.pool.listFree = [] then some (s.goto t .testing)
    else s.takeFront t
  | (t, .release none) => if s.pc t ≠ .idle then none else some s
  | (t, .release (some o)) =>
    if s.pool.locks = false ∨ s.pc t ≠ .idle then none
    else some { s with pool := s.pool.putBack o, out := s.out.erase o }

/-- `Init` on a new pool. -/
def start (dwInitCount dwGrowCount dwMaxCount : Nat) : Threads ι :=
  ⟨(new.init dwInitCount dwGrowCount dwMaxCount).2, [], fun _ => .idle⟩

/-- The step removes the front of the free list. -/
def Takes (s : Threads ι) : ι × ThreadOp → Prop
  | (t, .fetch) => s.pc t = .idle
  | (t, .next) => s.pc t = .relocking
  | (_, .release _) => False

/-- The step is the growth under the lock. -/
def Grows (s : Threads ι) : ι × ThreadOp → Prop
  | (t, .next) => s.pc t = .growing
  | (_, .fetch) | (_, .release _) => False

/-- The condition on a step: the last free object is not taken while another thread stands
between its growth and the front, and no growth runs after the maximum has been reached. -/
def LeavesSome (s : Threads ι) (op : ι × ThreadOp) : Prop :=
  (s.Takes op → s.pool.listFree.length = 1 → ∀ t, t ≠ op.1 → ¬ (s.pc t).Waits) ∧
    (s.Grows op → s.pool.listFree = [] → s.pool.mayGrow s.pool.growCount = true)

/-- A release names NULL or an object of the pool. -/
def OfPool (s : Threads ι) : ι × ThreadOp → Prop
  | (_, .release (some o)) => o < s.pool.allocated
  | _ => True

/-- What every step keeps. -/
structure Kept (s : Threads ι) : Prop where
  sound : s.pool.Sound s.out
  fits : s.pool.Fits s.pool.growCount
  waits : ∀ t, (s.pc t).Waits → s.pool.listFree ≠ []

variable {s s' : Threads ι} {t : ι}

/-- A thread that stops waiting, or starts when there is something to wait for. -/
theorem Kept.goto (h : Kept s) {pc : FetchPc} (hpc : pc.Waits → s.pool.listFree ≠ []) :
    Kept (s.goto t pc) := by
  refine ⟨h.sound, h.fits, fun a ha => ?_⟩
  by_cases hat : a = t
  · subst hat
    simp only [Threads.goto, Function.update_self] at ha
    exact hpc ha
  · simp only [Threads.goto, Function.update_of_ne hat] at ha
    exact h.waits a ha

theorem Kept.takeFront (h : Kept s) (hne : s.pool.listFree ≠ [])
    (htake : s.pool.listFree.length = 1 → ∀ a, a ≠ t → ¬ (s.pc a).Waits) :
    ∃ o s', s.takeFront t = some s' ∧ o ∉ s.out ∧ s'.out = o :: s.out ∧ Kept s' := by
  obtain ⟨o, p', heq, hout, hsound, hfree, hsame⟩ := h.sound.takeFront hne
  refine ⟨o, _, by rw [Threads.takeFront, heq], hout, rfl, hsound, hsame.fits h.fits,
    fun a ha => ?_⟩
  by_cases hat : a = t
  · subst hat
    simp only [Threads.goto, Function.update_self] at ha
    exact absurd ha (by simp [FetchPc.Waits])
  · simp only [Threads.goto, Function.update_of_ne hat] at ha ⊢
    rw [hfree]
    intro hc
    have hlen := congrArg List.length hc
    rw [List.length_tail, List.length_nil] at hlen
    have hpos := List.length_pos_iff.mpr hne
    exact htake (by omega) a hat ha

theorem Kept.next (h : Kept s) (hgood : LeavesSome s (t, .next)) (hstep : s.next t = some s') :
    Kept s' := by
  rw [Threads.next] at hstep
  cases hpc : s.pc t with
  | idle => simp only [hpc] at hstep; cases hstep
  | testing =>
    simp only [hpc] at hstep
    obtain rfl := Option.some.inj hstep
    refine h.goto fun hc => ?_
    split at hc <;> exact absurd hc (by simp [FetchPc.Waits])
  | growing =>
    simp only [hpc] at hstep
    have hsound := h.sound.grow h.fits
    have hsame := s.pool.grow_counts s.pool.growCount
    have hfull : (s.pool.grow s.pool.growCount).2.listFree ≠ [] := by
      by_cases hempty : s.pool.listFree = []
      · exact h.sound.grow_nonempty h.fits (hgood.2 hpc hempty)
      · rwa [grow, if_pos hempty]
    generalize s.pool.grow s.pool.growCount = answer at hstep hsound hsame hfull
    obtain ⟨block, pool⟩ := answer
    have hpool : Kept { s with pool := pool } := ⟨hsound, hsame.fits h.fits, fun _ _ => hfull⟩
    cases block with
    | none =>
      obtain rfl := Option.some.inj hstep
      exact hpool.goto fun _ => hfull
    | some block =>
      obtain rfl := Option.some.inj hstep
      exact hpool.goto fun _ => hfull
  | recording block =>
    simp only [hpc] at hstep
    obtain rfl := Option.some.inj hstep
    have hfull := h.waits t (by rw [hpc]; trivial)
    have hpool : Kept { s with pool := s.pool.recordBlock block } :=
      ⟨h.sound.recordBlock block, ⟨h.fits.count⟩, h.waits⟩
    exact hpool.goto fun _ => hfull
  | relocking =>
    simp only [hpc] at hstep
    obtain ⟨o, s'', htake, _, _, hkept⟩ :=
      h.takeFront (h.waits t (by rw [hpc]; trivial)) (hgood.1 hpc)
    rw [htake] at hstep
    obtain rfl := Option.some.inj hstep
    exact hkept

theorem Kept.step (h : Kept s) {op : ι × ThreadOp} (hgood : OfPool s op ∧ LeavesSome s op)
    (hstep : s.step op = some s') : Kept s' := by
  obtain ⟨t, op⟩ := op
  cases op with
  | next => exact h.next hgood.2 hstep
  | fetch =>
    simp only [Threads.step] at hstep
    by_cases hpc : s.pool.locks = false ∨ s.pc t ≠ .idle
    · rw [if_pos hpc] at hstep
      cases hstep
    · rw [if_neg hpc] at hstep
      rw [not_or, not_not] at hpc
      by_cases hempty : s.pool.listFree = []
      · rw [if_pos hempty] at hstep
        obtain rfl := Option.some.inj hstep
        exact h.goto fun hc => absurd hc (by simp [FetchPc.Waits])
      · rw [if_neg hempty] at hstep
        obtain ⟨o, s'', htake, _, _, hkept⟩ :=
          h.takeFront hempty (hgood.2.1 hpc.2)
        rw [htake] at hstep
        obtain rfl := Option.some.inj hstep
        exact hkept
  | release pObj =>
    cases pObj with
    | none =>
      simp only [Threads.step] at hstep
      split at hstep
      · cases hstep
      · obtain rfl := Option.some.inj hstep
        exact h
    | some o =>
      simp only [Threads.step] at hstep
      split at hstep
      · cases hstep
      · obtain rfl := Option.some.inj hstep
        refine ⟨h.sound.putBack hgood.1, (s.pool.putBack_counts o).1.fits h.fits, fun a ha => ?_⟩
        have hfull := h.waits a ha
        simp only [TDynamicPoolEx.putBack]
        split
        · exact hfull
        · simp

omit [DecidableEq ι] in
theorem kept_start {dwInitCount dwGrowCount dwMaxCount : Nat}
    (hinit : dwInitCount + dwMaxCount < 4294967296)
    (hgrow : dwGrowCount + dwMaxCount < 4294967296) :
    Kept (start dwInitCount dwGrowCount dwMaxCount : Threads ι) := by
  have h := TDynamicPoolEx.kept_start hinit hgrow
  exact ⟨h.sound, h.fits, fun t ht => absurd ht (by simp [start, FetchPc.Waits])⟩

/-- No `FetchObj` applies `front()` to an empty free list, and what it returns is owned by no one
else. -/
structure Safe (s : Threads ι) : Prop where
  front : ∀ t, s.pc t = .relocking → s.pool.listFree ≠ []
  owned : ∀ o pool, s.pool.takeFront = some (some o, pool) → o ∉ s.out

omit [DecidableEq ι] in
theorem Kept.safe (h : Kept s) : Safe s := by
  refine ⟨fun t ht => h.waits t (by rw [ht]; trivial), fun o pool htake => ?_⟩
  by_cases hempty : s.pool.listFree = []
  · rw [TDynamicPoolEx.takeFront, hempty] at htake
    cases htake
  · obtain ⟨o', p', heq, hout, _⟩ := h.sound.takeFront hempty
    rw [heq] at htake
    obtain ⟨ho, _⟩ := Prod.mk.inj (Option.some.inj htake)
    obtain rfl := Option.some.inj ho
    exact hout

/-- Any number of threads, any interleaving of their sections. -/
theorem threads_safe {dwInitCount dwGrowCount dwMaxCount : Nat} {ops : List (ι × ThreadOp)}
    {s : Threads ι} (hinit : dwInitCount + dwMaxCount < 4294967296)
    (hgrow : dwGrowCount + dwMaxCount < 4294967296)
    (hops : Transition.Always step (fun s op => OfPool s op ∧ LeavesSome s op)
      (start dwInitCount dwGrowCount dwMaxCount) ops)
    (hrun : Transition.run step (start dwInitCount dwGrowCount dwMaxCount) ops = some s) :
    Safe s :=
  (Transition.invariant_of_always (fun _ _ _ h hop hstep => Kept.step h hop hstep)
    (kept_start hinit hgrow) hops hrun).safe

instance (s : Threads ι) : (op : ι × ThreadOp) → Decidable (s.Takes op)
  | (_, .fetch) => inferInstanceAs (Decidable (_ = _))
  | (_, .next) => inferInstanceAs (Decidable (_ = _))
  | (_, .release _) => inferInstanceAs (Decidable False)

instance (s : Threads ι) : (op : ι × ThreadOp) → Decidable (s.Grows op)
  | (_, .next) => inferInstanceAs (Decidable (_ = _))
  | (_, .fetch) => inferInstanceAs (Decidable False)
  | (_, .release _) => inferInstanceAs (Decidable False)

instance (s : Threads ι) : (op : ι × ThreadOp) → Decidable (s.OfPool op)
  | (_, .release (some _)) => inferInstanceAs (Decidable (_ < _))
  | (_, .release none) => inferInstanceAs (Decidable True)
  | (_, .fetch) => inferInstanceAs (Decidable True)
  | (_, .next) => inferInstanceAs (Decidable True)

instance [Fintype ι] (s : Threads ι) (op : ι × ThreadOp) : Decidable (s.LeavesSome op) :=
  inferInstanceAs (Decidable (_ ∧ _))

/-- Two threads grow the pool at the same time, one for the other. -/
theorem threads_safe_shared :
    ∃ s : Threads Bool, Transition.run step (start 0 2 0) [(false, .fetch), (true, .fetch),
        (false, .next), (true, .next), (false, .next), (true, .next), (true, .next),
        (true, .release (some 0)), (false, .next), (false, .next)] = some s ∧ Safe s := by
  obtain ⟨s, hrun⟩ : ∃ s : Threads Bool, Transition.run step (start 0 2 0) [(false, .fetch),
      (true, .fetch), (false, .next), (true, .next), (false, .next), (true, .next), (true, .next),
      (true, .release (some 0)), (false, .next), (false, .next)] = some s :=
    Option.isSome_iff_exists.mp (by decide +kernel)
  exact ⟨s, hrun, threads_safe (by decide) (by decide) (by decide +kernel) hrun⟩

/-- One thread grows the pool by one object and another takes it before the first is back. -/
theorem front_of_drained :
    ∃ s : Threads Bool, Transition.run step (start 0 1 0) [(false, .fetch), (false, .next),
        (false, .next), (false, .next), (true, .fetch)] = some s ∧
      Transition.Always step OfPool (start 0 1 0) [((false : Bool), .fetch), (false, .next),
        (false, .next), (false, .next), (true, .fetch)] ∧ ¬ Safe s := by
  have hlast : (Transition.run step (start 0 1 0) [((false : Bool), .fetch), (false, .next),
      (false, .next), (false, .next), (true, .fetch)]).map
      (fun s => (s.pc false, s.pool.listFree)) = some (.relocking, []) := by
    decide +kernel
  obtain ⟨s, hrun, hs⟩ := Option.map_eq_some_iff.mp hlast
  obtain ⟨hpc, hfree⟩ := Prod.mk.inj hs
  exact ⟨s, hrun, by decide +kernel, fun h => h.front false hpc hfree⟩

end Threads

end TDynamicPoolEx
