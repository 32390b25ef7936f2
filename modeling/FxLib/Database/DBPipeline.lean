import Mathlib.Algebra.GroupWithZero.Nat
import FxLib.Database.DBModule

/-!
# The query pipeline

Every query that `AddQuery` accepts goes once through `OnQuery`, `OnResult` and `Release`: no stage
twice, none too early, and none that can not be reached.
-/

namespace FxDBModule

open FxMySqlClient Lifecycle

variable {s s' : FxDBModule} {dwDBId : Nat} {c : FxMySqlClient}

/-! ### The calls end -/

/-- The steps that bring the calls to their end: no query comes in. -/
def Label.Finishes : Label → Prop
  | .thread .. | .uninit | .main => True
  | _ => False

def Leads (s s' : FxDBModule) : Prop :=
  ∃ labels, (∀ l ∈ labels, Label.Finishes l) ∧ Transition.run step s labels = some s'

theorem Leads.refl (s : FxDBModule) : Leads s s := ⟨[], by simp, rfl⟩

theorem Leads.trans {s'' : FxDBModule} (h : Leads s s') (h' : Leads s' s'') : Leads s s'' := by
  obtain ⟨ls, hls, hrun⟩ := h
  obtain ⟨ls', hls', hrun'⟩ := h'
  refine ⟨ls ++ ls', fun l hl => (List.mem_append.mp hl).elim (hls l) (hls' l), ?_⟩
  rw [Transition.run_append, hrun]
  exact hrun'

theorem Leads.single {l : Label} (hl : l.Finishes) (h : s.step l = some s') : Leads s s' :=
  ⟨[l], by simpa using hl, by simp [Transition.run, h]⟩

theorem Leads.kept (h : Leads s s') (hkept : Kept s) : Kept s' := by
  obtain ⟨ls, -, hrun⟩ := h
  exact Transition.invariant (fun _ _ _ h hstep => Kept.step h hstep) hkept hrun

theorem accepted_step {l : Label} (hl : l.Finishes) (h : s.step l = some s') :
    reached .accepted s'.log = reached .accepted s.log := by
  cases l with
  | thread dwDBId nNow good =>
    rw [FxDBModule.step] at h
    split at h
    · cases h
    · obtain ⟨⟨c', effect⟩, -, rfl⟩ := Option.map_eq_some_iff.mp h
      cases effect <;> simp [apply, setClient, reached_concat]
  | uninit =>
    rw [FxDBModule.step] at h
    split_ifs at h
    obtain rfl := Option.some.inj h
    rfl
  | main =>
    rw [FxDBModule.step, FxDBModule.main] at h
    split at h
    · cases h
    · obtain rfl := Option.some.inj h
      rfl
    · obtain rfl := Option.some.inj h
      rw [takeResult]
      split <;> rfl
    · obtain rfl := Option.some.inj h
      simp [reached_concat]
    · obtain rfl := Option.some.inj h
      simp [reached_concat]
    · split at h
      · obtain rfl := Option.some.inj h
        rfl
      · split_ifs at h
        obtain rfl := Option.some.inj h
        rfl
    · obtain rfl := Option.some.inj h
      rfl
    · split at h
      · obtain rfl := Option.some.inj h
        rfl
      · split_ifs at h
        · obtain rfl := Option.some.inj h
          rfl
        · obtain rfl := Option.some.inj h
          rfl
    · obtain rfl := Option.some.inj h
      rw [takeResult]
      split <;> rfl
  | «open» | addQuery | run | close => exact hl.elim

theorem Leads.accepted (h : Leads s s') :
    reached .accepted s'.log = reached .accepted s.log := by
  obtain ⟨ls, hls, hrun⟩ := h
  induction ls generalizing s with
  | nil =>
    obtain rfl : s = s' := by simpa [Transition.run] using hrun
    rfl
  | cons l ls ih =>
    obtain ⟨m, hm, hrest⟩ := Transition.run_cons hrun
    rw [ih (fun l' hl' => hls l' (List.mem_cons_of_mem l hl')) hrest,
      accepted_step (hls l List.mem_cons_self) hm]

/-- The thread of a client that has been told to stop comes to its end. -/
theorem await (n : Nat) (hc : s.mapDBClient dwDBId = some c) (hterm : c.terminate = true)
    (hwork : c.work ≤ n) : ∃ s' c', Leads s s' ∧ s'.stack = s.stack ∧
      s'.mapDBClient dwDBId = some c' ∧ c'.terminate = true ∧ c'.pc = .done := by
  induction n generalizing s c with
  | zero =>
    refine ⟨s, c, Leads.refl s, rfl, hc, hterm, ?_⟩
    by_contra hpc
    obtain ⟨c', effect, h⟩ := thrdFunc_runs 0 true hpc
    have hlt := work_lt hterm h
    omega
  | succ n ih =>
    by_cases hpc : c.pc = .done
    · exact ⟨s, c, Leads.refl s, rfl, hc, hterm, hpc⟩
    · obtain ⟨c₁, effect, h⟩ := thrdFunc_runs 0 true hpc
      have hlt := work_lt hterm h
      have hstep : s.step (.thread dwDBId 0 true) = some (s.apply dwDBId c₁ effect) := by
        simp [FxDBModule.step, hc, h]
      have hc₁ : (s.apply dwDBId c₁ effect).mapDBClient dwDBId = some c₁ := by
        cases effect <;> simp [FxDBModule.apply, FxDBModule.setClient]
      obtain ⟨s', c', hleads, hstack, hc', hterm', hdone⟩ :=
        ih hc₁ ((turn h).terminate.trans hterm) (by omega)
      refine ⟨s', c', (Leads.single (l := .thread dwDBId 0 true) trivial hstep).trans hleads, ?_,
        hc', hterm', hdone⟩
      rw [hstack]
      cases effect <;> rfl

/-- The loop of `Uninit` comes to its end. -/
theorem uninit_clears (ids rest : List _) (h : Kept s) (hstack : s.stack = .uninit ids :: rest) :
    ∃ s', Leads s s' ∧ s'.stack = .clearResult :: rest := by
  induction ids generalizing s with
  | nil =>
    refine ⟨{ s with mapDBClient := fun _ => none, dbIds := [], stack := .clearResult :: rest },
      Leads.single (l := .main) trivial ?_, rfl⟩
    simp only [FxDBModule.step, FxDBModule.main, hstack]
  | cons dwDBId ids ih =>
    cases hc : s.mapDBClient dwDBId with
    | none =>
      have hleads : Leads s { s with stack := .uninit ids :: rest } := by
        refine Leads.single (l := .main) trivial ?_
        simp only [FxDBModule.step, FxDBModule.main, hstack, hc]
      obtain ⟨s', hleads', hs'⟩ := ih (hleads.kept h) rfl
      exact ⟨s', hleads.trans hleads', hs'⟩
    | some c =>
      obtain ⟨s₁, c₁, hleads₁, hs₁, hc₁, hterm₁⟩ : ∃ s₁ c₁, Leads s s₁ ∧
          s₁.stack = .uninit (dwDBId :: ids) :: rest ∧ s₁.mapDBClient dwDBId = some c₁ ∧
          c₁.terminate = true := by
        cases hterm : c.terminate with
        | true => exact ⟨s, c, Leads.refl s, hstack, hc, hterm⟩
        | false =>
          refine ⟨s.setClient dwDBId (some { c with terminate := true }),
            { c with terminate := true }, Leads.single (l := .main) trivial ?_, hstack,
              by simp [FxDBModule.setClient], rfl⟩
          simp only [FxDBModule.step, FxDBModule.main, hstack, hc, hterm, if_true]
      obtain ⟨s₂, c₂, hleads₂, hs₂, hc₂, hterm₂, hdone⟩ := await c₁.work hc₁ hterm₁ le_rfl
      rw [hs₁] at hs₂
      have hleads₃ : Leads s₂ { s₂ with stack := .uninit ids :: rest } := by
        refine Leads.single (l := .main) trivial ?_
        simp only [FxDBModule.step, FxDBModule.main, hs₂, hc₂, hterm₂, hdone, Bool.true_eq_false,
          if_false, if_true]
      have hleads := (hleads₁.trans hleads₂).trans hleads₃
      obtain ⟨s', hleads', hs'⟩ := ih (hleads.kept h) rfl
      exact ⟨s', hleads.trans hleads', hs'⟩

/-- How far the calls are from their end when no client has to stop. -/
def Frame.work : Frame → Nat
  | .callBack _ false => 2
  | _ => 1

/-- The calls that stop no client come to their end. -/
theorem unwind (n : Nat) (h : Kept s) (hquiet : Quiet s.stack)
    (hn : 3 * s.resultList.length + (s.stack.map Frame.work).sum ≤ n) :
    ∃ s', Leads s s' ∧ s'.stack = [] ∧ s'.mapDBClient = s.mapDBClient ∧
      (.clearResult ∈ s.stack → s'.resultList = []) := by
  induction n generalizing s with
  | zero =>
    cases hstack : s.stack with
    | nil => exact ⟨s, Leads.refl s, hstack, rfl, by simp⟩
    | cons f rest =>
      rw [hstack, List.map_cons, List.sum_cons] at hn
      have hpos : 0 < f.work := by
        cases f with
        | callBack poQuery called => cases called <;> simp [Frame.work]
        | run | close | uninit | clearResult => simp [Frame.work]
      omega
  | succ n ih =>
    have hgo : ∀ s₁, s.step .main = some s₁ → Quiet s₁.stack → s₁.mapDBClient = s.mapDBClient →
        3 * s₁.resultList.length + (s₁.stack.map Frame.work).sum ≤ n →
        (.clearResult ∈ s.stack → .clearResult ∈ s₁.stack) →
        ∃ s', Leads s s' ∧ s'.stack = [] ∧ s'.mapDBClient = s.mapDBClient ∧
          (.clearResult ∈ s.stack → s'.resultList = []) := by
      intro s₁ hstep hq hmap hwork hclear
      have hkept := h.step hstep
      obtain ⟨s', hleads, hs', hm, hres⟩ := ih hkept hq hwork
      exact ⟨s', (Leads.single (l := .main) trivial hstep).trans hleads, hs', hm.trans hmap,
        fun hin => hres (hclear hin)⟩
    cases hstack : s.stack with
    | nil => exact ⟨s, Leads.refl s, hstack, rfl, by simp⟩
    | cons f rest =>
      have hstacked := h.control.stacked
      rw [hstack] at hstacked hgo hn hquiet
      obtain ⟨hwaits, hlast, hrest⟩ := hstacked
      rw [List.map_cons, List.sum_cons] at hn
      cases f with
      | close dwDBId => exact absurd rfl (hquiet (.close dwDBId) rfl dwDBId)
      | uninit ids => exact absurd trivial (hquiet (.uninit ids) rfl 0)
      | callBack poQuery called =>
        cases called with
        | false =>
          refine hgo { s with
            stack := .callBack poQuery true :: rest
            log := s.log ++ [(.answered, poQuery)] } ?_ (quiet_callBack _ _ _) rfl ?_ (by simp)
          · simp only [FxDBModule.step, FxDBModule.main, hstack]
          · simp only [Frame.work, List.map_cons, List.sum_cons] at hn ⊢
            omega
        | true =>
          refine hgo { s with stack := rest, log := s.log ++ [(.released, poQuery)] } ?_
            (quiet_of_waits hwaits) rfl ?_ (by simp)
          · simp only [FxDBModule.step, FxDBModule.main, hstack]
          · simp only [Frame.work] at hn ⊢
            omega
      | run dwCount =>
        cases dwCount with
        | zero =>
          refine hgo { s with stack := rest } ?_ (quiet_of_waits hwaits) rfl ?_ (by simp)
          · simp only [FxDBModule.step, FxDBModule.main, hstack]
          · simp only [Frame.work] at hn ⊢
            omega
        | succ dwCount =>
          cases hres : s.resultList with
          | nil =>
            refine hgo { s with stack := rest } ?_ (quiet_of_waits hwaits) rfl ?_ (by simp)
            · simp only [FxDBModule.step, FxDBModule.main, hstack, takeResult, hres]
            · simp only [Frame.work] at hn ⊢
              omega
          | cons poQuery resultList =>
            refine hgo { s with
              resultList := resultList
              stack := .callBack poQuery false :: .run dwCount :: rest } ?_ (quiet_callBack _ _ _)
              rfl ?_ (by simp)
            · simp only [FxDBModule.step, FxDBModule.main, hstack, takeResult, hres]
            · simp only [Frame.work, hres, List.length_cons, List.map_cons, List.sum_cons] at hn ⊢
              omega
      | clearResult =>
        obtain rfl := hlast trivial
        cases hres : s.resultList with
        | nil =>
          refine ⟨{ s with stack := [] }, Leads.single (l := .main) trivial ?_, rfl, rfl,
            fun _ => hres⟩
          simp only [FxDBModule.step, FxDBModule.main, hstack, takeResult, hres]
        | cons poQuery resultList =>
          refine hgo { s with
            resultList := resultList
            stack := [.callBack poQuery false, .clearResult] } ?_ (quiet_callBack _ _ _) rfl ?_
            (by simp)
          · simp only [FxDBModule.step, FxDBModule.main, hstack, takeResult, hres]
          · simp only [Frame.work, hres, List.length_cons, List.map_cons, List.sum_cons] at hn ⊢
            omega

/-- `Uninit` returns, with every query released. -/
theorem uninit_returns {ids rest : List _} (h : Kept s) (hstack : s.stack = .uninit ids :: rest) :
    ∃ s', Leads s s' ∧ s'.stack = [] ∧
      ∀ poQuery ∈ reached .accepted s'.log, poQuery ∈ reached .released s'.log := by
  obtain ⟨s₁, hleads₁, hs₁⟩ := uninit_clears ids rest h hstack
  have h₁ := hleads₁.kept h
  have hquiet : Quiet s₁.stack := by
    rw [hs₁]
    simp [Quiet, Frame.Stops]
  obtain ⟨s₂, hleads₂, hs₂, hmap, hres⟩ := unwind _ h₁ hquiet le_rfl
  have hin : .clearResult ∈ s₁.stack := hs₁ ▸ List.mem_cons_self
  have hleads := hleads₁.trans hleads₂
  refine ⟨s₂, hleads, hs₂, (hleads.kept h).books.released (fun i => ?_) (hres hin) hs₂⟩
  rw [hmap]
  exact h₁.control.cleared hin i

/-- The main thread gets out of the calls it is in. -/
theorem returns (h : Kept s) : ∃ s', Leads s s' ∧ s'.stack = [] := by
  cases hstack : s.stack with
  | nil => exact ⟨s, Leads.refl s, hstack⟩
  | cons f rest =>
    have hstacked := h.control.stacked
    rw [hstack] at hstacked
    have hrest : ∀ g ∈ rest, g.Waits := hstacked.1
    cases f with
    | uninit ids =>
      obtain ⟨s', hleads, hs', -⟩ := uninit_returns h hstack
      exact ⟨s', hleads, hs'⟩
    | close dwDBId =>
      obtain ⟨c, hc, hterm⟩ := h.control.closing dwDBId rest hstack
      obtain ⟨s₁, c₁, hleads₁, hs₁, hc₁, -, hdone⟩ := await c.work hc hterm le_rfl
      rw [hstack] at hs₁
      have hleads₂ : Leads s₁
          { s₁.setClient dwDBId none with dbIds := s₁.dbIds.erase dwDBId, stack := rest } := by
        refine Leads.single (l := .main) trivial ?_
        simp only [FxDBModule.step, FxDBModule.main, hs₁, hc₁, hdone, if_true]
      have hleads := hleads₁.trans hleads₂
      obtain ⟨s', hleads', hs', -⟩ :=
        unwind _ (hleads.kept h) (quiet_of_waits hrest) le_rfl
      exact ⟨s', hleads.trans hleads', hs'⟩
    | callBack poQuery called =>
      obtain ⟨s', hleads, hs', -⟩ := unwind _ h (hstack ▸ quiet_callBack _ _ _) le_rfl
      exact ⟨s', hleads, hs'⟩
    | run | clearResult =>
      obtain ⟨s', hleads, hs', -⟩ := unwind _ h
        (hstack ▸ quiet_of_waits (List.forall_mem_cons.mpr ⟨trivial, hrest⟩)) le_rfl
      exact ⟨s', hleads, hs'⟩

/-! ### The whole pipeline -/

/-- What the pipeline promises in a state. -/
structure Serves (s : FxDBModule) : Prop where
  /-- No query reaches a stage twice, or before the one in front of it. -/
  once : Lawful Stage.before s.log
  /-- `OnQuery` and `OnResult` come in the order of `AddQuery`. -/
  inOrder : ∀ dwDBId stage, stage = .queried ∨ stage = .answered →
    ofDB dwDBId (reached stage s.log) <+: ofDB dwDBId (reached .accepted s.log)
  /-- The section in which `Uninit` returns leaves nothing. -/
  cleared : ∀ s', s.stack = [.clearResult] → s.step .main = some s' → s'.stack = [] →
    ∀ poQuery ∈ reached .accepted s'.log, poQuery ∈ reached .released s'.log
  /-- Every query comes to its `Release` without any further query. -/
  finishes : ∃ s', Leads s s' ∧ s'.stack = [] ∧
    ∀ poQuery ∈ reached .accepted s.log, poQuery ∈ reached .released s'.log

theorem Kept.cleared (h : Kept s) (hstack : s.stack = [.clearResult])
    (hstep : s.step .main = some s') (hs' : s'.stack = []) :
    ∀ poQuery ∈ reached .accepted s'.log, poQuery ∈ reached .released s'.log := by
  have hkept := h.step hstep
  rw [FxDBModule.step, FxDBModule.main, hstack] at hstep
  have heq : s.takeResult [] [.clearResult] = s' := Option.some.inj hstep
  rw [FxDBModule.takeResult] at heq
  cases hres : s.resultList with
  | nil =>
    simp only [hres] at heq
    subst heq
    exact hkept.books.released (h.control.cleared (by simp [hstack])) rfl rfl
  | cons poQuery resultList =>
    simp only [hres] at heq
    subst heq
    cases hs'

theorem Kept.finishes (h : Kept s) : ∃ s', Leads s s' ∧ s'.stack = [] ∧
    ∀ poQuery ∈ reached .accepted s.log, poQuery ∈ reached .released s'.log := by
  obtain ⟨s₁, hleads₁, hs₁⟩ := returns h
  have hleads₂ : Leads s₁ { s₁ with stack := [.uninit s₁.dbIds] } :=
    Leads.single (l := .uninit) trivial (by rw [FxDBModule.step, if_pos hs₁])
  have hleads := hleads₁.trans hleads₂
  obtain ⟨s', hleads', hs', hreleased⟩ := uninit_returns (hleads.kept h) rfl
  refine ⟨s', hleads.trans hleads', hs', fun poQuery hin => hreleased poQuery ?_⟩
  rwa [(hleads.trans hleads').accepted]

theorem Kept.inOrder (h : Kept s) (dwDBId : Nat) (stage : Stage)
    (hstage : stage = .queried ∨ stage = .answered) :
    ofDB dwDBId (reached stage s.log) <+: ofDB dwDBId (reached .accepted s.log) := by
  rw [h.books.accepted]
  rcases hstage with rfl | rfl
  · exact List.prefix_append _ _
  · rw [h.books.queried, ofDB_append, ofDB_append, List.append_assoc, List.append_assoc,
      List.append_assoc]
    exact List.prefix_append _ _

/-- Any order of the sections of any number of threads. -/
theorem pipeline_serves {labels : List Label} (hrun : Transition.run step start labels = some s) :
    Serves s :=
  have h := kept_run hrun
  ⟨h.books.lawful, h.inOrder, fun _ hstack hstep hs' => h.cleared hstack hstep hs', h.finishes⟩

/-- Two clients, a lost connection, and a query that comes from `OnResult`. -/
theorem pipeline_serves_two :
    ∃ s, Transition.run step start [.open 7 true, .open 3 true, .addQuery (some 7),
        .addQuery (some 3), .thread 7 0 true, .thread 7 0 true, .thread 7 0 true,
        .thread 7 0 false, .thread 7 0 true, .run 1, .main, .main, .addQuery (some 7),
        .thread 7 5 true, .thread 7 5 true, .thread 7 5 true, .main, .main, .uninit, .main] =
          some s ∧ Serves s := by
  obtain ⟨s, hrun⟩ : ∃ s, Transition.run step start [.open 7 true, .open 3 true,
      .addQuery (some 7), .addQuery (some 3), .thread 7 0 true, .thread 7 0 true, .thread 7 0 true,
      .thread 7 0 false, .thread 7 0 true, .run 1, .main, .main, .addQuery (some 7),
      .thread 7 5 true, .thread 7 5 true, .thread 7 5 true, .main, .main, .uninit, .main] =
        some s :=
    Option.isSome_iff_exists.mp (by decide +kernel)
  exact ⟨s, hrun, pipeline_serves hrun⟩

end FxDBModule
