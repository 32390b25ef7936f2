import FxLib.Lib.Transition

/-!
# A sender and a receiver on one stream

Two machines that share a reliable stream and nothing else. What the sender has put on the stream
only grows; a step of the receiver may read bytes that have been put on it. Any interleaving of the
two is a run.
-/

namespace Channel

variable {σ τ ι κ β : Type*} [DecidableEq β]

section

variable (sender : σ → ι → Option σ) (sent : σ → List β)
  (receiver : τ → κ → Option τ) (taken : τ → List β) (reads : κ → List β)

/-- A step of either side. -/
def step : σ × τ → ι ⊕ κ → Option (σ × τ)
  | (s, t), .inl l => (sender s l).map (·, t)
  | (s, t), .inr l =>
    if taken t ++ reads l <+: sent s then (receiver t l).map (s, ·) else none

end

def senderSteps (ls : List (ι ⊕ κ)) : List ι := ls.filterMap Sum.getLeft?

def receiverSteps (ls : List (ι ⊕ κ)) : List κ := ls.filterMap Sum.getRight?

variable {sender : σ → ι → Option σ} {sent : σ → List β} {receiver : τ → κ → Option τ}
  {taken : τ → List β} {reads : κ → List β}

/-- The sender does not see the receiver. -/
theorem run_sender {s s' : σ} {t t' : τ} {ls : List (ι ⊕ κ)}
    (h : Transition.run (step sender sent receiver taken reads) (s, t) ls = some (s', t')) :
    Transition.run sender s (senderSteps ls) = some s' := by
  induction ls generalizing s t with
  | nil =>
    obtain ⟨rfl, -⟩ : s = s' ∧ t = t' := by simpa [Transition.run] using h
    rfl
  | cons l ls ih =>
    obtain ⟨⟨m, n⟩, hstep, hrest⟩ := Transition.run_cons h
    cases l with
    | inl l =>
      obtain ⟨m', hm, heq⟩ := Option.map_eq_some_iff.mp hstep
      obtain ⟨rfl, rfl⟩ := Prod.mk.inj heq
      exact Transition.run_of_step hm (ih hrest)
    | inr l =>
      simp only [step] at hstep
      split_ifs at hstep
      obtain ⟨n', -, heq⟩ := Option.map_eq_some_iff.mp hstep
      obtain ⟨rfl, rfl⟩ := Prod.mk.inj heq
      exact ih hrest

/-- The receiver reads what has been sent in the end. -/
theorem run_receiver (hgrows : ∀ s l s', sender s l = some s' → sent s <+: sent s') {s s' : σ}
    {t t' : τ} {ls : List (ι ⊕ κ)}
    (h : Transition.run (step sender sent receiver taken reads) (s, t) ls = some (s', t')) :
    sent s <+: sent s' ∧ Transition.run receiver t (receiverSteps ls) = some t' ∧
      Transition.Always receiver (fun t l => taken t ++ reads l <+: sent s') t
        (receiverSteps ls) := by
  induction ls generalizing s t with
  | nil =>
    obtain ⟨rfl, rfl⟩ : s = s' ∧ t = t' := by simpa [Transition.run] using h
    exact ⟨List.prefix_rfl, rfl, trivial⟩
  | cons l ls ih =>
    obtain ⟨⟨m, n⟩, hstep, hrest⟩ := Transition.run_cons h
    obtain ⟨hlater, hrun, halways⟩ := ih hrest
    cases l with
    | inl l =>
      obtain ⟨m', hm, heq⟩ := Option.map_eq_some_iff.mp hstep
      obtain ⟨rfl, rfl⟩ := Prod.mk.inj heq
      exact ⟨(hgrows s l m' hm).trans hlater, hrun, halways⟩
    | inr l =>
      simp only [step] at hstep
      split_ifs at hstep with hread
      obtain ⟨n', hn, heq⟩ := Option.map_eq_some_iff.mp hstep
      obtain ⟨rfl, rfl⟩ := Prod.mk.inj heq
      refine ⟨hlater, Transition.run_of_step hn hrun, hread.trans hlater, ?_⟩
      simp only [hn]
      exact halways

end Channel
