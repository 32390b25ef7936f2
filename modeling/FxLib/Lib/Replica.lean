import FxLib.Lib.Transition

/-!
# A copy that is kept up by messages

A primary executes commands and sends messages, and a copy applies the messages in the order in
which they were sent. The copy may lag behind: what it will be is what the messages in flight make
of it.
-/

namespace Replica

variable {σ ρ κ μ : Type*} (apply : σ → κ → σ × List μ) (replay : ρ → μ → ρ) (view : σ → ρ)

/-- The commands one after the other, with everything that is sent. -/
def applyAll : σ → List κ → σ × List μ
  | s, [] => (s, [])
  | s, c :: cs =>
    ((applyAll (apply s c).1 cs).1, (apply s c).2 ++ (applyAll (apply s c).1 cs).2)

/-- With the messages in flight the copy is what the primary is. -/
def Current (s : σ) (r : ρ) (flight : List μ) : Prop := flight.foldl replay r = view s

/-- The messages of a command do to the copy what it does to the primary. -/
def Mirrors (s : σ) (c : κ) : Prop := Current replay view (apply s c).1 (view s) (apply s c).2

variable {apply replay view} {s s' : σ} {r : ρ} {c : κ} {cs : List κ} {flight out : List μ}

theorem applyAll_concat (s : σ) (cs : List κ) (c : κ) :
    applyAll apply s (cs ++ [c]) =
      ((apply (applyAll apply s cs).1 c).1,
        (applyAll apply s cs).2 ++ (apply (applyAll apply s cs).1 c).2) := by
  induction cs generalizing s with
  | nil => simp [applyAll]
  | cons d cs ih => simp [applyAll, ih]

/-- A copy that will be current is current after more messages if one that is current already is. -/
theorem Current.append_iff (h : Current replay view s r flight) :
    Current replay view s' r (flight ++ out) ↔ Current replay view s' (view s) out := by
  rw [Current, List.foldl_append, h]
  exact Iff.rfl

theorem Current.apply_iff (h : Current replay view s r flight) :
    Current replay view (apply s c).1 r (flight ++ (apply s c).2) ↔ Mirrors apply replay view s c :=
  h.append_iff

/-! ### The link between the two -/

structure Link (σ ρ μ : Type*) where
  primary : σ
  copy : ρ
  flight : List μ

inductive Label (κ : Type*) where
  | command (c : κ)
  | deliver

variable (apply replay view) in
/-- The messages arrive in order. -/
def step (l : Link σ ρ μ) : Label κ → Option (Link σ ρ μ)
  | .command c =>
    some ⟨(apply l.primary c).1, l.copy, l.flight ++ (apply l.primary c).2⟩
  | .deliver =>
    match l.flight with
    | [] => none
    | m :: flight => some ⟨l.primary, replay l.copy m, flight⟩

variable (replay view) in
def Link.Current (l : Link σ ρ μ) : Prop := Replica.Current replay view l.primary l.copy l.flight

variable (apply replay view) in
def Good (l : Link σ ρ μ) : Label κ → Prop
  | .command c => Mirrors apply replay view l.primary c
  | .deliver => True

variable {l l' : Link σ ρ μ} {ls : List (Label κ)}

theorem step_current_iff {label : Label κ} (h : l.Current replay view)
    (hstep : step apply replay l label = some l') :
    l'.Current replay view ↔ Good apply replay view l label := by
  cases label with
  | command c =>
    obtain rfl := Option.some.inj hstep
    exact Current.apply_iff h
  | deliver =>
    refine iff_of_true ?_ trivial
    rw [step] at hstep
    cases hflight : l.flight with
    | nil => simp [hflight] at hstep
    | cons m flight =>
      simp only [hflight, Option.some.injEq] at hstep
      obtain rfl := hstep
      rw [Link.Current, hflight] at h
      exact h

/-- The copy is current all along a run if and only if every command is mirrored. -/
theorem current_iff_mirrors (h : l.Current replay view)
    (hrun : Transition.run (step apply replay) l ls = some l') :
    (∀ ls' m, ls' <+: ls → Transition.run (step apply replay) l ls' = some m →
      m.Current replay view) ↔
        Transition.Always (step apply replay) (Good apply replay view) l ls := by
  have hkept : ∀ (m : Link σ ρ μ) (label : Label κ) (m' : Link σ ρ μ), m.Current replay view →
      Good apply replay view m label → step apply replay m label = some m' →
        m'.Current replay view :=
    fun _ _ _ hc hgood hstep => (step_current_iff hc hstep).mpr hgood
  exact Transition.forall_reached_iff_always (fun _ hc => hc) hkept
    (fun _ _ _ hc hstep hc' => (step_current_iff hc hstep).mp hc') h hrun

variable (apply replay) in
/-- Commands alone leave the copy where it is. -/
theorem run_command (l : Link σ ρ μ) (cs : List κ) :
    Transition.run (step apply replay) l (cs.map Label.command) =
      some ⟨(applyAll apply l.primary cs).1, l.copy,
        l.flight ++ (applyAll apply l.primary cs).2⟩ := by
  induction cs generalizing l with
  | nil => simp [Transition.run, applyAll]
  | cons c cs ih =>
    simp only [List.map_cons, Transition.run, step, Option.bind_some, applyAll]
    rw [ih, List.append_assoc]

/-- The copy when everything in flight has come. -/
theorem run_deliver (l : Link σ ρ μ) :
    Transition.run (step apply replay) l (List.replicate l.flight.length Label.deliver) =
      some ⟨l.primary, l.flight.foldl replay l.copy, []⟩ := by
  obtain ⟨primary, copy, flight⟩ := l
  induction flight generalizing copy with
  | nil => rfl
  | cons m flight ih =>
    simp only [List.length_cons, List.replicate_succ, Transition.run, step, Option.bind_some]
    exact ih (replay copy m)

variable (apply) in
/-- The copy will be current if and only if it is the primary's once everything has come. -/
theorem current_iff_delivered :
    l.Current replay view ↔ ∀ k m,
      Transition.run (step apply replay) l (List.replicate k Label.deliver) = some m →
        m.flight = [] → m.copy = view m.primary := by
  constructor
  · intro h k m hrun hflight
    have hkept : ∀ (m : Link σ ρ μ) (label : Label κ) (m' : Link σ ρ μ), m.Current replay view →
        label = .deliver → step apply replay m label = some m' → m'.Current replay view := by
      rintro m label m' hm rfl hstep
      exact (step_current_iff hm hstep).mpr trivial
    have hm := Transition.invariant_of_always hkept h
      (Transition.always_of_forall (fun label hlabel => List.eq_of_mem_replicate hlabel) l) hrun
    rw [Link.Current, hflight] at hm
    exact hm
  · intro hall
    exact hall l.flight.length _ (run_deliver l) rfl

end Replica
