import Mathlib.Data.List.Induction
import Mathlib.Data.List.Nodup

/-!
# Items that go through stages

A log says which item has reached which stage, the oldest entry first. It is lawful when no item
reaches a stage twice, or a stage before the one in front of it.
-/

namespace Lifecycle

variable {S α : Type*} [DecidableEq S]

/-- The items that have reached the stage, in the order in which they did. -/
def reached (st : S) (log : List (S × α)) : List α :=
  (log.filter (·.1 = st)).map (·.2)

variable {st st' : S} {x : α} {log log' : List (S × α)}

@[simp] theorem reached_nil : reached st ([] : List (S × α)) = [] := rfl

theorem reached_concat (st st' : S) (x : α) (log : List (S × α)) :
    reached st (log ++ [(st', x)]) =
      if st' = st then reached st log ++ [x] else reached st log := by
  split_ifs with h <;> simp [reached, h]

/-- What an entry asks of the log before it. -/
structure MayFollow (before : S → Option S) (log : List (S × α)) (st : S) (x : α) : Prop where
  once : x ∉ reached st log
  order : ∀ st', before st = some st' → x ∈ reached st' log

def Lawful (before : S → Option S) (log : List (S × α)) : Prop :=
  ∀ pre st x, pre ++ [(st, x)] <+: log → MayFollow before pre st x

variable {before : S → Option S}

theorem lawful_nil : Lawful before ([] : List (S × α)) := by
  intro pre st x h
  simpa using List.prefix_nil.mp h

theorem Lawful.concat (h : Lawful before log) (hx : MayFollow before log st x) :
    Lawful before (log ++ [(st, x)]) := by
  intro pre st' y hpre
  rcases List.prefix_concat_iff.mp hpre with heq | hpre
  · obtain ⟨rfl, hlast⟩ := List.append_inj' heq rfl
    obtain ⟨rfl, rfl⟩ := Prod.mk.inj (List.singleton_inj.mp hlast)
    exact hx
  · exact h pre st' y hpre

theorem Lawful.of_prefix (h : Lawful before log') (hpre : log <+: log') : Lawful before log :=
  fun pre st x hlog => h pre st x (hlog.trans hpre)

theorem Lawful.nodup (h : Lawful before log) (st : S) : (reached st log).Nodup := by
  induction log using List.reverseRecOn with
  | nil => exact List.nodup_nil
  | append_singleton log e ih =>
    have hlog := ih (h.of_prefix (List.prefix_append _ _))
    have hlast := (h log e.1 e.2 List.prefix_rfl).once
    rw [show [e] = [(e.1, e.2)] from rfl, reached_concat]
    split_ifs with hst
    · refine List.nodup_append.mpr ⟨hlog, List.nodup_singleton _, ?_⟩
      rintro a ha b hb rfl
      exact hlast (hst ▸ List.mem_singleton.mp hb ▸ ha)
    · exact hlog

end Lifecycle
