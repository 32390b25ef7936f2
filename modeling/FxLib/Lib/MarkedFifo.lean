import Mathlib.Data.List.Basic
import Mathlib.Tactic.Linarith

/-!
# A bounded FIFO with a read-ahead mark

The queue is the marked cells followed by the unmarked ones. A push appends
unmarked cells, the mark moves over unmarked cells, a pop removes cells from the
front. The history records what was accepted and what was removed, so that
conservation is a statement about one state.
-/

universe u

structure MarkedFifo (α : Type u) where
  capacity : Nat
  marked : List α
  unmarked : List α
  pushed : List α
  popped : List α

namespace MarkedFifo

variable {α : Type u}

def queue (f : MarkedFifo α) : List α := f.marked ++ f.unmarked

def empty (capacity : Nat) : MarkedFifo α := ⟨capacity, [], [], [], []⟩

/-- Append `xs`, all or nothing. -/
def push (f : MarkedFifo α) (xs : List α) : Bool × MarkedFifo α :=
  if xs = [] ∨ f.capacity < f.queue.length + xs.length then (false, f)
  else (true, { f with unmarked := f.unmarked ++ xs, pushed := f.pushed ++ xs })

/-- Move the mark over `n` unmarked cells. -/
def mark (f : MarkedFifo α) (n : Nat) : Bool × MarkedFifo α :=
  if n = 0 ∨ f.unmarked.length < n then (false, f)
  else (true, { f with
    marked := f.marked ++ f.unmarked.take n, unmarked := f.unmarked.drop n })

/-- Remove the first `n` cells, all or nothing. -/
def pop (f : MarkedFifo α) (n : Nat) : Bool × List α × MarkedFifo α :=
  if n = 0 ∨ f.queue.length < n then (false, [], f)
  else (true, f.queue.take n, { f with
    marked := f.marked.drop n, unmarked := f.unmarked.drop (n - f.marked.length),
    popped := f.popped ++ f.queue.take n })

@[simp] theorem queue_empty (capacity : Nat) : (empty capacity : MarkedFifo α).queue = [] := rfl

theorem queue_length (f : MarkedFifo α) :
    f.queue.length = f.marked.length + f.unmarked.length := by
  simp [queue]

theorem push_of_fits {f : MarkedFifo α} {xs : List α} (hne : xs ≠ [])
    (hfit : f.queue.length + xs.length ≤ f.capacity) :
    f.push xs = (true, { f with unmarked := f.unmarked ++ xs, pushed := f.pushed ++ xs }) :=
  if_neg (by simp [hne, hfit])

theorem mark_of_le {f : MarkedFifo α} {n : Nat} (hn : n ≠ 0) (h : n ≤ f.unmarked.length) :
    f.mark n = (true, { f with
      marked := f.marked ++ f.unmarked.take n, unmarked := f.unmarked.drop n }) :=
  if_neg (by omega)

theorem pop_of_le {f : MarkedFifo α} {n : Nat} (hn : n ≠ 0) (h : n ≤ f.queue.length) :
    f.pop n = (true, f.queue.take n, { f with
      marked := f.marked.drop n, unmarked := f.unmarked.drop (n - f.marked.length),
      popped := f.popped ++ f.queue.take n }) :=
  if_neg (by omega)

@[simp] theorem push_queue (f : MarkedFifo α) (xs : List α) :
    (f.push xs).2.queue = if (f.push xs).1 then f.queue ++ xs else f.queue := by
  unfold push
  split <;> simp [queue]

@[simp] theorem mark_queue (f : MarkedFifo α) (n : Nat) : (f.mark n).2.queue = f.queue := by
  unfold mark
  split <;> simp [queue]

theorem pop_queue (f : MarkedFifo α) (n : Nat) :
    (f.pop n).2.2.queue = if (f.pop n).1 then f.queue.drop n else f.queue := by
  unfold pop
  split <;> simp [queue, List.drop_append]

/-- What was accepted is what was removed followed by what is queued. -/
def Conserved (f : MarkedFifo α) : Prop := f.pushed = f.popped ++ f.queue

theorem conserved_empty (capacity : Nat) : (empty capacity : MarkedFifo α).Conserved := rfl

theorem Conserved.push {f : MarkedFifo α} (h : f.Conserved) (xs : List α) :
    (f.push xs).2.Conserved := by
  unfold MarkedFifo.push
  split
  · exact h
  · simp only [Conserved, queue] at h ⊢
    simp [h]

theorem Conserved.mark {f : MarkedFifo α} (h : f.Conserved) (n : Nat) :
    (f.mark n).2.Conserved := by
  unfold MarkedFifo.mark
  split
  · exact h
  · simp only [Conserved, queue] at h ⊢
    simp [h]

theorem Conserved.pop {f : MarkedFifo α} (h : f.Conserved) (n : Nat) :
    (f.pop n).2.2.Conserved := by
  have hq := f.pop_queue n
  unfold MarkedFifo.pop at hq ⊢
  split at hq
  · rw [if_pos (by assumption)]
    exact h
  · rw [if_neg (by assumption)]
    simp only [if_true] at hq
    unfold Conserved
    rw [hq, List.append_assoc, List.take_append_drop]
    exact h

end MarkedFifo
