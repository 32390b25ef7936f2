import Mathlib.Data.List.Basic

/-!
# Runs of a labelled machine

A step function `step s l` gives the state after the label `l`, or `none` when
`l` cannot happen in `s`. What a scheduler, a network or a kernel may choose is
part of the label, so a run is a list of labels and every interleaving is a list.
-/

namespace Transition

variable {σ ι : Type*} {step : σ → ι → Option σ}

def run (step : σ → ι → Option σ) : σ → List ι → Option σ
  | s, [] => some s
  | s, l :: ls => (step s l).bind (run step · ls)

/-- Every step of the run meets `good` in the state it starts from. -/
def Always (step : σ → ι → Option σ) (good : σ → ι → Prop) : σ → List ι → Prop
  | _, [] => True
  | s, l :: ls => good s l ∧ match step s l with
    | none => True
    | some s' => Always step good s' ls

instance decidableAlways {good : σ → ι → Prop} [∀ s l, Decidable (good s l)] :
    (s : σ) → (ls : List ι) → Decidable (Always step good s ls)
  | _, [] => inferInstanceAs (Decidable True)
  | s, l :: ls =>
    have : Decidable (match step s l with
        | none => True
        | some s' => Always step good s' ls) :=
      match step s l with
      | none => inferInstanceAs (Decidable True)
      | some s' => decidableAlways s' ls
    inferInstanceAs (Decidable (good s l ∧ _))

theorem Always.next {good : σ → ι → Prop} {s s' : σ} {l : ι} {ls : List ι}
    (h : Always step good s (l :: ls)) (hstep : step s l = some s') : Always step good s' ls := by
  have htail := h.2
  rwa [hstep] at htail

/-- A condition on the labels alone. -/
theorem always_of_forall {good : ι → Prop} {ls : List ι} (h : ∀ l ∈ ls, good l) (s : σ) :
    Always step (fun _ => good) s ls := by
  induction ls generalizing s with
  | nil => trivial
  | cons l ls ih =>
    refine ⟨h l List.mem_cons_self, ?_⟩
    cases step s l with
    | none => trivial
    | some s' => exact ih (fun l' hl' => h l' (List.mem_cons_of_mem l hl')) s'

theorem run_cons {s s'' : σ} {l : ι} {ls : List ι} (h : run step s (l :: ls) = some s'') :
    ∃ s', step s l = some s' ∧ run step s' ls = some s'' := by
  simpa [run, Option.bind_eq_some_iff] using h

theorem run_of_step {s m t : σ} {l : ι} {ls : List ι} (h : step s l = some m)
    (h' : run step m ls = some t) : run step s (l :: ls) = some t := by
  rw [run, h, Option.bind_some, h']

theorem run_append (s : σ) (ls ls' : List ι) :
    run step s (ls ++ ls') = (run step s ls).bind (run step · ls') := by
  induction ls generalizing s with
  | nil => rfl
  | cons l ls ih =>
    simp only [List.cons_append, run]
    cases step s l with
    | none => rfl
    | some s' => exact ih s'

theorem run_trans {s m t : σ} {ls ls' : List ι} (h : run step s ls = some m)
    (h' : run step m ls' = some t) : run step s (ls ++ ls') = some t := by
  rw [run_append, h, Option.bind_some, h']

/-- An invariant that every good step keeps holds after every good run. -/
theorem invariant_of_always {good : σ → ι → Prop} {inv : σ → Prop}
    (hstep : ∀ s l s', inv s → good s l → step s l = some s' → inv s') {s s' : σ} {ls : List ι}
    (h : inv s) (hgood : Always step good s ls) (hrun : run step s ls = some s') : inv s' := by
  induction ls generalizing s with
  | nil =>
    obtain rfl : s = s' := by simpa [run] using hrun
    exact h
  | cons l ls ih =>
    obtain ⟨m, hm, hrest⟩ := run_cons hrun
    exact ih (hstep s l m h hgood.1 hm) (hgood.next hm) hrest

/-- What an invariant gives for a good step holds of every step of a good run. -/
theorem Always.imp {good good' : σ → ι → Prop} (inv : σ → Prop)
    (himp : ∀ s l, inv s → good s l → good' s l)
    (hstep : ∀ s l s', inv s → good s l → step s l = some s' → inv s') {s : σ} {ls : List ι}
    (h : inv s) (halways : Always step good s ls) : Always step good' s ls := by
  induction ls generalizing s with
  | nil => trivial
  | cons l ls ih =>
    refine ⟨himp s l h halways.1, ?_⟩
    cases hs : step s l with
    | none => trivial
    | some s' => exact ih (hstep s l s' h halways.1 hs) (halways.next hs)

theorem Always.and {good good' : σ → ι → Prop} {s : σ} {ls : List ι} (h : Always step good s ls)
    (h' : Always step good' s ls) : Always step (fun s l => good s l ∧ good' s l) s ls := by
  induction ls generalizing s with
  | nil => trivial
  | cons l ls ih =>
    refine ⟨⟨h.1, h'.1⟩, ?_⟩
    cases hs : step s l with
    | none => trivial
    | some s' => exact ih (h.next hs) (h'.next hs)

/-- Two conditions on a step that agree wherever the invariant holds agree on runs. -/
theorem always_iff {good good' : σ → ι → Prop} (inv : σ → Prop)
    (hiff : ∀ s l, inv s → (good s l ↔ good' s l))
    (hstep : ∀ s l s', inv s → good s l → step s l = some s' → inv s') {s : σ} {ls : List ι}
    (h : inv s) : Always step good s ls ↔ Always step good' s ls := by
  induction ls generalizing s with
  | nil => exact Iff.rfl
  | cons l ls ih =>
    simp only [Always, ← hiff s l h]
    refine and_congr_right fun hgood => ?_
    cases hs : step s l with
    | none => exact Iff.rfl
    | some s' => exact ih (hstep s l s' h hgood hs)

/-- They may need something of the label as well. -/
theorem always_iff_of_labels {good good' : σ → ι → Prop} {choice : ι → Prop} (inv : σ → Prop)
    (hiff : ∀ s l, inv s → choice l → (good s l ↔ good' s l))
    (hstep : ∀ s l s', inv s → choice l → step s l = some s' → inv s') {ls : List ι}
    (hchoice : ∀ l ∈ ls, choice l) {s : σ} (h : inv s) :
    Always step good s ls ↔ Always step good' s ls := by
  induction ls generalizing s with
  | nil => exact Iff.rfl
  | cons l ls ih =>
    obtain ⟨hl, hls⟩ := List.forall_mem_cons.mp hchoice
    simp only [Always, ← hiff s l h hl]
    refine and_congr_right fun _ => ?_
    cases hs : step s l with
    | none => exact Iff.rfl
    | some s' => exact ih hls (hstep s l s' h hl hs)

theorem invariant {inv : σ → Prop} (hstep : ∀ s l s', inv s → step s l = some s' → inv s')
    {s s' : σ} {ls : List ι} (h : inv s) (hrun : run step s ls = some s') : inv s' := by
  induction ls generalizing s with
  | nil =>
    obtain rfl : s = s' := by simpa [run] using hrun
    exact h
  | cons l ls ih =>
    obtain ⟨m, hm, hrest⟩ := run_cons hrun
    exact ih (hstep s l m h hm) hrest

/-- In a run that comes to its end it is enough that they agree on the steps that can happen. -/
theorem always_iff_of_run {good good' : σ → ι → Prop} (inv : σ → Prop)
    (hiff : ∀ s l s', inv s → step s l = some s' → (good s l ↔ good' s l))
    (hstep : ∀ s l s', inv s → good s l → step s l = some s' → inv s') {s t : σ} {ls : List ι}
    (h : inv s) (hrun : run step s ls = some t) :
    Always step good s ls ↔ Always step good' s ls := by
  induction ls generalizing s with
  | nil => exact Iff.rfl
  | cons l ls ih =>
    obtain ⟨m, hm, hrest⟩ := run_cons hrun
    simp only [Always, ← hiff s l m h hm, hm]
    exact and_congr_right fun hgood => ih (hstep s l m h hgood hm) hrest

/-- Where the state after a step shows whether the step was good, every state of a run has what the
invariant gives if and only if every step is good. -/
theorem forall_reached_iff_always {good : σ → ι → Prop} {inv p : σ → Prop}
    (hinv : ∀ s, inv s → p s)
    (hstep : ∀ s l s', inv s → good s l → step s l = some s' → inv s')
    (hgood : ∀ s l s', inv s → step s l = some s' → p s' → good s l)
    {s t : σ} {ls : List ι} (h : inv s) (hrun : run step s ls = some t) :
    (∀ ls' s', ls' <+: ls → run step s ls' = some s' → p s') ↔ Always step good s ls := by
  induction ls generalizing s with
  | nil =>
    refine iff_of_true (fun ls' s' hls' hs' => ?_) trivial
    obtain rfl := List.prefix_nil.mp hls'
    obtain rfl : s = s' := by simpa [run] using hs'
    exact hinv s h
  | cons l ls ih =>
    obtain ⟨m, hm, hrest⟩ := run_cons hrun
    constructor
    · intro hall
      have hl : good s l := hgood s l m h hm
        (hall [l] m (by simp) (by simp [run, hm]))
      refine ⟨hl, ?_⟩
      rw [hm]
      refine (ih (hstep s l m h hl hm) hrest).mp fun ls' s' hls' hs' => ?_
      exact hall (l :: ls') s' (List.cons_prefix_cons.mpr ⟨rfl, hls'⟩)
        (by simpa [run, hm] using hs')
    · intro halways ls' s' hls' hs'
      cases ls' with
      | nil =>
        obtain rfl : s = s' := by simpa [run] using hs'
        exact hinv s h
      | cons l' ls' =>
        obtain ⟨rfl, htail⟩ := List.cons_prefix_cons.mp hls'
        obtain ⟨m', hm', hs'⟩ := run_cons hs'
        obtain rfl : m = m' := Option.some.inj (hm.symm.trans hm')
        exact (ih (hstep s l' m h halways.1 hm) hrest).mpr (halways.next hm) ls' s' htail hs'

/-! ### Runs that come to rest -/

/-- Where every state that is not settled has a step that brings it nearer, every state has a run
that settles it. -/
theorem settles {good : ι → Prop} {inv settled : σ → Prop} (μ : σ → Nat)
    (hprogress : ∀ s, inv s → settled s ∨
      ∃ l s', good l ∧ step s l = some s' ∧ inv s' ∧ μ s' < μ s) {s : σ} (h : inv s) :
    ∃ ls s', (∀ l ∈ ls, good l) ∧ run step s ls = some s' ∧ inv s' ∧ settled s' := by
  induction hμ : μ s using Nat.strongRecOn generalizing s with
  | ind m ih =>
    rcases hprogress s h with hsettled | ⟨l, s', hl, hstep, hinv, hless⟩
    · exact ⟨[], s, by simp, rfl, h, hsettled⟩
    · obtain ⟨ls, t, hls, hrun, ht, hsettled⟩ := ih (μ s') (hμ ▸ hless) hinv rfl
      exact ⟨l :: ls, t, List.forall_mem_cons.mpr ⟨hl, hls⟩, run_of_step hstep hrun, ht, hsettled⟩

/-! ### What a run puts out -/

def outputs {ο : Type*} (step : σ → ι → Option σ) (out : σ → ι → List ο) : σ → List ι → List ο
  | _, [] => []
  | s, l :: ls => match step s l with
    | none => []
    | some s' => out s l ++ outputs step out s' ls

/-- What depends on the label alone is put out by every run in the same way. -/
theorem outputs_of_label {ο : Type*} (f : ι → List ο) {s t : σ} {ls : List ι}
    (h : run step s ls = some t) : outputs step (fun _ => f) s ls = ls.flatMap f := by
  induction ls generalizing s with
  | nil => rfl
  | cons l ls ih =>
    obtain ⟨m, hm, hrest⟩ := run_cons h
    rw [outputs, List.flatMap_cons, ← ih hrest]
    simp only [hm]

/-- An invariant of the state and what has been put out so far. -/
theorem invariant_outputs {ο : Type*} {out : σ → ι → List ο} {good : σ → ι → Prop}
    {inv : σ → List ο → Prop}
    (hstep : ∀ s l s' os, inv s os → good s l → step s l = some s' → inv s' (os ++ out s l))
    {s s' : σ} {ls : List ι} {os : List ο} (h : inv s os) (hgood : Always step good s ls)
    (hrun : run step s ls = some s') : inv s' (os ++ outputs step out s ls) := by
  induction ls generalizing s os with
  | nil =>
    obtain rfl : s = s' := by simpa [run] using hrun
    rwa [outputs, List.append_nil]
  | cons l ls ih =>
    obtain ⟨m, hm, hrest⟩ := run_cons hrun
    have hnext := ih (hstep s l m os h hgood.1 hm) (hgood.next hm) hrest
    rwa [outputs, hm, ← List.append_assoc]

end Transition
