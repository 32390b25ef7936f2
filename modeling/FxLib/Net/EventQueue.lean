import FxLib.Lib.MachineInt
import FxLib.Lib.Memory
import FxLib.Lib.Transition

/-!
# The event queue

`TEventQueue` of `Net/eventqueue.h` between one producer, who holds the lock, and one
consumer, who holds none. Each access to a shared cursor is a step of its own. `slot` is the
cell whose address the last `PopFront` returned, with what it held then.
-/

open MachineInt

structure TEventQueue (T : Type) where
  poArrayT : Int → T
  nSize : Int
  nInCursor : Int
  nOutCursor : Int

namespace TEventQueue

variable {T : Type}

/-- `Init` whose allocation succeeds. -/
def init (nMax : Int) (poArrayT : Int → T) : TEventQueue T := ⟨poArrayT, nMax, 0, 0⟩

/-- `nSize` as `PushBack` and `PopFront` compute it. -/
def count (q : TEventQueue T) : Int :=
  let nSize := sub32 (add32 q.nInCursor q.nSize) q.nOutCursor
  if nSize ≥ q.nSize then sub32 nSize q.nSize else nSize

def isFull (q : TEventQueue T) : Bool := sub32 q.nSize 1 ≤ q.count

/-! ### Steps -/

/-- The producer behind the test of `PushBack`, behind the copy, and behind the `++`. -/
inductive Producer (T : Type) where
  | idle
  | copying (ot : T)
  | advancing (ot : T)
  | wrapping

/-- The consumer behind the test of `PopFront` and behind the `++`. -/
inductive Consumer where
  | idle
  | taking
  | wrapping
  deriving DecidableEq

structure Machine (T : Type) where
  queue : TEventQueue T
  producer : Producer T
  consumer : Consumer
  slot : Option (Int × T)
  accepted : List T
  popped : List T

/-- The two calls, and the next step of a call. -/
inductive Op (T : Type) where
  | pushBack (ot : T)
  | producer
  | popFront
  | consumer

def step (s : Machine T) : Op T → Option (Machine T)
  | .pushBack ot =>
    match s.producer with
    | .idle => some (if s.queue.isFull then s else { s with producer := .copying ot })
    | _ => none
  | .producer =>
    match s.producer with
    | .idle => none
    | .copying ot =>
      some { s with
        queue := { s.queue with
          poArrayT := Function.update s.queue.poArrayT s.queue.nInCursor ot }
        producer := .advancing ot }
    | .advancing ot =>
      some { s with
        queue := { s.queue with nInCursor := add32 s.queue.nInCursor 1 }
        producer := .wrapping, accepted := s.accepted ++ [ot] }
    | .wrapping =>
      some { s with
        queue := { s.queue with
          nInCursor := if s.queue.nInCursor ≥ s.queue.nSize then 0 else s.queue.nInCursor }
        producer := .idle }
  | .popFront =>
    match s.consumer with
    | .idle => some (if 0 = s.queue.count then s else { s with consumer := .taking })
    | _ => none
  | .consumer =>
    match s.consumer with
    | .idle => none
    | .taking =>
      let ot := s.queue.poArrayT s.queue.nOutCursor
      some { s with
        queue := { s.queue with nOutCursor := add32 s.queue.nOutCursor 1 }
        consumer := .wrapping, slot := some (s.queue.nOutCursor, ot), popped := s.popped ++ [ot] }
    | .wrapping =>
      some { s with
        queue := { s.queue with
          nOutCursor := if s.queue.nOutCursor ≥ s.queue.nSize then 0 else s.queue.nOutCursor }
        consumer := .idle }

def start (q : TEventQueue T) : Machine T := ⟨q, .idle, .idle, none, [], []⟩

/-- The condition on a step: `PopFront` does not read the in cursor between its `++` to
`m_nSize` and its return to 0 while the out cursor stands at 0, and `PushBack` does not test a
full queue of more than 2^30 cells whose in cursor stands at the last one. -/
def Untorn (s : Machine T) : Op T → Prop
  | .popFront => ¬ (s.queue.nInCursor = s.queue.nSize ∧ s.queue.nOutCursor = 0)
  | .pushBack _ => ¬ (1073741824 < s.queue.nSize ∧ s.queue.nInCursor + 1 = s.queue.nSize ∧
      s.queue.nOutCursor = 0)
  | .producer | .consumer => True

instance (s : Machine T) : (op : Op T) → Decidable (Untorn s op)
  | .popFront => inferInstanceAs (Decidable (¬ _))
  | .pushBack _ => inferInstanceAs (Decidable (¬ _))
  | .producer => inferInstanceAs (Decidable True)
  | .consumer => inferInstanceAs (Decidable True)

/-! ### The cursors -/

/-- A cursor that has been advanced past the last cell and not yet set back. -/
def home (nSize nCursor : Int) : Int := if nCursor = nSize then 0 else nCursor

/-- The number of cells from the out cursor to the in cursor. -/
def used (q : TEventQueue T) : Int :=
  if home q.nSize q.nOutCursor ≤ home q.nSize q.nInCursor then
    home q.nSize q.nInCursor - home q.nSize q.nOutCursor
  else home q.nSize q.nInCursor + q.nSize - home q.nSize q.nOutCursor

structure Cursors (q : TEventQueue T) : Prop where
  size_pos : 0 < q.nSize
  size_fits : q.nSize < 2147483648
  in_nonneg : 0 ≤ q.nInCursor
  in_le : q.nInCursor ≤ q.nSize
  out_nonneg : 0 ≤ q.nOutCursor
  out_le : q.nOutCursor ≤ q.nSize

variable {q : TEventQueue T} {events : List T} {s s' : Machine T}

namespace Cursors

theorem home_out (h : Cursors q) :
    0 ≤ home q.nSize q.nOutCursor ∧ home q.nSize q.nOutCursor < q.nSize := by
  obtain ⟨hpos, -, -, -, hout, hout'⟩ := h
  unfold home
  split_ifs <;> omega

theorem home_in (h : Cursors q) :
    0 ≤ home q.nSize q.nInCursor ∧ home q.nSize q.nInCursor < q.nSize := by
  obtain ⟨hpos, -, hin, hin', -, -⟩ := h
  unfold home
  split_ifs <;> omega

theorem used_bounds (h : Cursors q) : 0 ≤ q.used ∧ q.used < q.nSize := by
  have hin := h.home_in
  have hout := h.home_out
  unfold used
  split_ifs <;> omega

/-- The in cursor stands behind the cells in use. -/
theorem home_in_eq (h : Cursors q) {n : Nat} (hn : q.used = n) :
    home q.nSize q.nInCursor = Memory.ringPos q.nSize (home q.nSize q.nOutCursor) n := by
  have hin := h.home_in
  have hout := h.home_out
  simp only [used] at hn
  simp only [Memory.ringPos]
  split_ifs at hn ⊢ <;> omega

/-- The value of `nSize` in terms of the cursors, the 32-bit sum included. -/
theorem count_eq (h : Cursors q) :
    q.count =
      if 2147483648 ≤ q.nInCursor + q.nSize - q.nOutCursor then
        q.nInCursor + q.nSize - q.nOutCursor - 4294967296
      else if q.nOutCursor ≤ q.nInCursor then q.nInCursor - q.nOutCursor
      else q.nInCursor + q.nSize - q.nOutCursor := by
  obtain ⟨hpos, hfits, hin, hin', hout, hout'⟩ := h
  simp only [count, sub32, add32, wrap32, Int.bmod_def]
  split_ifs <;> omega

/-- `PushBack` refuses behind `m_nSize - 1` events, unless its sum overflows. -/
theorem isFull_iff (h : Cursors q) (hin : q.nInCursor < q.nSize) :
    q.isFull = true ↔ q.used + 1 = q.nSize ∧
      ¬ (1073741824 < q.nSize ∧ q.nInCursor + 1 = q.nSize ∧ q.nOutCursor = 0) := by
  have hcount := h.count_eq
  obtain ⟨hpos, hfits, hin₀, -, hout, hout'⟩ := h
  have hsize : sub32 q.nSize 1 = q.nSize - 1 := sub32_of_fits ⟨by omega, by omega⟩
  rw [isFull, decide_eq_true_iff, hsize, hcount]
  simp only [used, home]
  split_ifs <;> omega

theorem count_eq_zero (h : Cursors q) (hout : q.nOutCursor < q.nSize)
    (huntorn : ¬ (q.nInCursor = q.nSize ∧ q.nOutCursor = 0)) : 0 = q.count ↔ q.used = 0 := by
  rw [h.count_eq]
  obtain ⟨hpos, hfits, hin₀, hin', hout₀, -⟩ := h
  simp only [used, home]
  split_ifs <;> omega

theorem used_advance (h : Cursors q) (hin : q.nInCursor < q.nSize) :
    used { q with nInCursor := q.nInCursor + 1 } =
      if q.used + 1 = q.nSize then 0 else q.used + 1 := by
  obtain ⟨hpos, hfits, hin₀, -, hout₀, hout'⟩ := h
  simp only [used, home]
  split_ifs <;> omega

theorem used_take (h : Cursors q) (hout : q.nOutCursor < q.nSize) :
    used { q with nOutCursor := q.nOutCursor + 1 } =
      if q.used = 0 then q.nSize - 1 else q.used - 1 := by
  obtain ⟨hpos, hfits, hin₀, hin', hout₀, -⟩ := h
  simp only [used, home]
  split_ifs <;> omega

end Cursors

theorem home_wrap {nSize nCursor : Int} (hle : nCursor ≤ nSize) (hpos : 0 < nSize) :
    home nSize (if nCursor ≥ nSize then 0 else nCursor) = home nSize nCursor := by
  unfold home
  split_ifs <;> omega

/-- The cursors of a queue whose two users stand where they stand. -/
structure Standing (s : Machine T) : Prop extends Cursors s.queue where
  in_lt : s.producer ≠ .wrapping → s.queue.nInCursor < s.queue.nSize
  out_lt : s.consumer ≠ .wrapping → s.queue.nOutCursor < s.queue.nSize

theorem Standing.step (h : Standing s) {op : Op T} (hstep : step s op = some s') :
    Standing s' := by
  obtain ⟨⟨hpos, hfits, hin₀, hin', hout₀, hout'⟩, hin, hout⟩ := h
  cases op with
  | pushBack ot =>
    simp only [TEventQueue.step] at hstep
    split at hstep
    case h_2 => cases hstep
    case h_1 hidle =>
      rw [hidle] at hin
      cases hstep
      split_ifs
      · exact ⟨⟨hpos, hfits, hin₀, hin', hout₀, hout'⟩, fun _ => hin (by simp), hout⟩
      · exact ⟨⟨hpos, hfits, hin₀, hin', hout₀, hout'⟩, fun _ => hin (by simp), hout⟩
  | popFront =>
    simp only [TEventQueue.step] at hstep
    split at hstep
    case h_2 => cases hstep
    case h_1 hidle =>
      rw [hidle] at hout
      cases hstep
      split_ifs
      · exact ⟨⟨hpos, hfits, hin₀, hin', hout₀, hout'⟩, hin, fun _ => hout (by simp)⟩
      · exact ⟨⟨hpos, hfits, hin₀, hin', hout₀, hout'⟩, hin, fun _ => hout (by simp)⟩
  | producer =>
    cases hp : s.producer with
    | idle => simp [TEventQueue.step, hp] at hstep
    | copying ot =>
      simp only [TEventQueue.step, hp, Option.some.injEq] at hstep
      subst hstep
      exact ⟨⟨hpos, hfits, hin₀, hin', hout₀, hout'⟩, fun _ => hin (by simp [hp]), hout⟩
    | advancing ot =>
      have hin := hin (by simp [hp])
      simp only [TEventQueue.step, hp, Option.some.injEq] at hstep
      rw [add32_of_fits ⟨by omega, by omega⟩] at hstep
      subst hstep
      exact ⟨⟨hpos, hfits, Int.add_nonneg hin₀ one_pos.le, hin, hout₀, hout'⟩, by simp, hout⟩
    | wrapping =>
      simp only [TEventQueue.step, hp, Option.some.injEq] at hstep
      subst hstep
      refine ⟨⟨hpos, hfits, ?_, ?_, hout₀, hout'⟩, fun _ => ?_, hout⟩ <;>
        simp only <;> split_ifs <;> omega
  | consumer =>
    cases hc : s.consumer with
    | idle => simp [TEventQueue.step, hc] at hstep
    | taking =>
      have hout := hout (by simp [hc])
      simp only [TEventQueue.step, hc, Option.some.injEq] at hstep
      rw [add32_of_fits ⟨by omega, by omega⟩] at hstep
      subst hstep
      exact ⟨⟨hpos, hfits, hin₀, hin', Int.add_nonneg hout₀ one_pos.le, hout⟩, hin, by simp⟩
    | wrapping =>
      simp only [TEventQueue.step, hc, Option.some.injEq] at hstep
      subst hstep
      refine ⟨⟨hpos, hfits, hin₀, hin', ?_, ?_⟩, hin, fun _ => ?_⟩ <;>
        simp only <;> split_ifs <;> omega

theorem step_nSize {op : Op T} (hstep : step s op = some s') :
    s'.queue.nSize = s.queue.nSize := by
  cases op with
  | pushBack ot =>
    simp only [step] at hstep
    split at hstep <;> cases hstep
    split_ifs <;> rfl
  | popFront =>
    simp only [step] at hstep
    split at hstep <;> cases hstep
    split_ifs <;> rfl
  | producer =>
    simp only [step] at hstep
    split at hstep <;> cases hstep <;> rfl
  | consumer =>
    simp only [step] at hstep
    split at hstep <;> cases hstep <;> rfl

theorem standing_start {nMax : Int} (hpos : 0 < nMax) (hfits : Fits32 nMax)
    (poArrayT : Int → T) : Standing (start (init nMax poArrayT)) :=
  ⟨⟨hpos, hfits.2, le_rfl, hpos.le, le_rfl, hpos.le⟩, fun _ => hpos, fun _ => hpos⟩

/-! ### The contents -/

/-- The cells from the out cursor on hold `events`. -/
structure Queued (q : TEventQueue T) (events : List T) : Prop where
  length : q.used = events.length
  cells : Memory.readRing q.poArrayT q.nSize (home q.nSize q.nOutCursor) events.length = events

/-- What the producer knows. -/
def Producer.Knows (q : TEventQueue T) (n : Nat) : Producer T → Prop
  | .copying _ => (n : Int) + 1 < q.nSize
  | .advancing ot => (n : Int) + 1 < q.nSize ∧ q.poArrayT q.nInCursor = ot
  | .idle | .wrapping => True

def Consumer.Knows (n : Nat) : Consumer → Prop
  | .taking => 0 < n
  | .idle | .wrapping => True

theorem Producer.Knows.fewer {n : Nat} {p : Producer T} (h : p.Knows q (n + 1)) {nOut : Int} :
    p.Knows { q with nOutCursor := nOut } n := by
  cases p with
  | idle => trivial
  | copying ot =>
    simp only [Producer.Knows] at h ⊢
    omega
  | advancing ot =>
    simp only [Producer.Knows] at h ⊢
    exact ⟨by omega, h.2⟩
  | wrapping => trivial

theorem Consumer.Knows.more {n m : Nat} {c : Consumer} (h : c.Knows n) : c.Knows (n + m) := by
  cases c with
  | idle => trivial
  | taking => exact Nat.add_pos_left h m
  | wrapping => trivial

/-- The popped cell lies just before the out cursor. -/
structure Behind (q : TEventQueue T) (a : Int) : Prop where
  nonneg : 0 ≤ a
  lt : a < q.nSize
  next : home q.nSize (a + 1) = home q.nSize q.nOutCursor

structure Kept (s : Machine T) (events : List T) : Prop where
  standing : Standing s
  queued : Queued s.queue events
  order : s.accepted = s.popped ++ events
  producer : s.producer.Knows s.queue events.length
  consumer : s.consumer.Knows events.length
  slot : ∀ a v, s.slot = some (a, v) → s.queue.poArrayT a = v ∧ Behind s.queue a

/-- The cell at the in cursor holds no event. -/
theorem Queued.in_unused (h : Queued q events) (hc : Cursors q) (hin : q.nInCursor < q.nSize)
    {i : Nat} (hi : i < events.length) :
    Memory.ringPos q.nSize (home q.nSize q.nOutCursor) i ≠ q.nInCursor := by
  have hcur := hc.home_in_eq h.length
  have hhome := hc.home_out
  have hlen := hc.used_bounds.2
  rw [h.length] at hlen
  rw [home, if_neg (by omega)] at hcur
  simp only [Memory.ringPos] at hcur ⊢
  split_ifs at hcur ⊢ <;> omega

/-- The popped cell is not the one at the in cursor while there is room. -/
theorem Behind.ne_in {a : Int} (h : Behind q a) (hc : Cursors q) (hq : Queued q events)
    (hin : q.nInCursor < q.nSize) (hroom : (events.length : Int) + 1 < q.nSize) :
    a ≠ q.nInCursor := by
  obtain ⟨hnonneg, hlt, hnext⟩ := h
  have hcur := hc.home_in_eq hq.length
  have hhome := hc.home_out
  rw [home, if_neg (by omega)] at hcur
  rw [← hnext] at hcur hhome
  simp only [home, Memory.ringPos] at hcur hhome
  split_ifs at hcur hhome <;> omega

/-- The in cursor moves over a cell that holds `ot`. -/
theorem Queued.advance (h : Queued q events) (hc : Cursors q) {ot : T}
    (hin : q.nInCursor < q.nSize) (hroom : (events.length : Int) + 1 < q.nSize)
    (hcell : q.poArrayT q.nInCursor = ot) :
    Queued { q with nInCursor := q.nInCursor + 1 } (events ++ [ot]) := by
  have hhome := hc.home_out
  have hcur := hc.home_in_eq h.length
  rw [home, if_neg (by omega)] at hcur
  constructor
  · rw [hc.used_advance hin, h.length, if_neg (by omega)]
    simp
  · rw [List.length_append, List.length_singleton,
      Memory.readRing_add _ _ _ hhome.1 hhome.2 (by omega)]
    simp only [h.cells, Memory.readRing, ← hcur, hcell]

/-- The out cursor moves over the first event. -/
theorem Queued.take {ot : T} (h : Queued q (ot :: events)) (hc : Cursors q)
    (hout : q.nOutCursor < q.nSize) :
    q.poArrayT q.nOutCursor = ot ∧ Queued { q with nOutCursor := q.nOutCursor + 1 } events := by
  have hlen := h.length
  have hcells := h.cells
  have hhome : home q.nSize q.nOutCursor = q.nOutCursor := if_neg (by omega)
  rw [List.length_cons] at hlen hcells
  rw [hhome, Memory.readRing] at hcells
  obtain ⟨hhead, htail⟩ := List.cons_eq_cons.mp hcells
  refine ⟨hhead, ?_, htail⟩
  rw [hc.used_take hout, if_neg (by omega)]
  omega

/-! ### The steps keep the contents -/

/-- `PushBack` refuses behind `m_nSize - 1` events, and a refusal leaves everything as it is. -/
theorem Kept.pushBack_eq (h : Kept s events) {ot : T} (hidle : s.producer = .idle)
    (huntorn : Untorn s (.pushBack ot)) :
    step s (.pushBack ot) =
      some (if (events.length : Int) + 1 = s.queue.nSize then s
        else { s with producer := .copying ot }) := by
  have hin := h.standing.in_lt (by simp [hidle])
  have hfull := h.standing.isFull_iff hin
  rw [h.queued.length] at hfull
  simp only [step, hidle, hfull, show ¬ _ from huntorn, not_false_eq_true, and_true]

/-- `PopFront` answers NULL when nothing is queued, and only then. -/
theorem Kept.popFront_eq (h : Kept s events) (hidle : s.consumer = .idle)
    (huntorn : Untorn s .popFront) :
    step s .popFront = some (if events.length = 0 then s else { s with consumer := .taking }) := by
  have hout := h.standing.out_lt (by simp [hidle])
  have hempty := h.standing.count_eq_zero hout huntorn
  rw [h.queued.length, Int.natCast_eq_zero] at hempty
  simp only [step, hidle, hempty]

theorem Kept.pushBack (h : Kept s events) {ot : T} (huntorn : Untorn s (.pushBack ot))
    (hstep : step s (.pushBack ot) = some s') : Kept s' events := by
  have hstanding := h.standing.step hstep
  by_cases hidle : s.producer = .idle
  · rw [h.pushBack_eq hidle huntorn, Option.some.injEq] at hstep
    subst hstep
    split_ifs at hstanding ⊢ with hfull
    · exact h
    · have hlen := h.standing.used_bounds.2
      rw [h.queued.length] at hlen
      exact ⟨hstanding, h.queued, h.order, by simp only [Producer.Knows]; omega, h.consumer,
        h.slot⟩
  · simp [step] at hstep

theorem Kept.popFront (h : Kept s events) (huntorn : Untorn s .popFront)
    (hstep : step s .popFront = some s') : Kept s' events := by
  have hstanding := h.standing.step hstep
  by_cases hidle : s.consumer = .idle
  · rw [h.popFront_eq hidle huntorn, Option.some.injEq] at hstep
    subst hstep
    split_ifs at hstanding ⊢ with hempty
    · exact h
    · exact ⟨hstanding, h.queued, h.order, h.producer, Nat.pos_of_ne_zero hempty, h.slot⟩
  · simp [step] at hstep

/-- The copy goes to a cell that holds neither an event nor the popped one. -/
theorem Kept.copy (h : Kept s events) {ot : T} (hp : s.producer = .copying ot)
    (hstep : step s .producer = some s') : Kept s' events := by
  have hstanding := h.standing.step hstep
  have hin := h.standing.in_lt (by simp [hp])
  have hroom := h.producer
  rw [hp] at hroom
  simp only [step, hp, Option.some.injEq] at hstep
  subst hstep
  have hhome := h.standing.home_out
  have hlen := h.standing.used_bounds.2
  rw [h.queued.length] at hlen
  refine ⟨hstanding, ⟨h.queued.length, ?_⟩, h.order, ⟨hroom, ?_⟩, h.consumer, ?_⟩
  · refine Eq.trans (Memory.readRing_congr hhome.1 hhome.2 hlen.le fun i hi => ?_) h.queued.cells
    exact Function.update_of_ne (h.queued.in_unused h.standing.toCursors hin hi) _ _
  · exact Function.update_self _ _ _
  · intro a v hslot
    obtain ⟨hv, hbehind⟩ := h.slot a v hslot
    refine ⟨?_, ⟨hbehind.nonneg, hbehind.lt, hbehind.next⟩⟩
    rw [← hv]
    exact Function.update_of_ne (hbehind.ne_in h.standing.toCursors h.queued hin hroom) _ _

/-- The `++` of the in cursor is what lets the event be seen. -/
theorem Kept.advance (h : Kept s events) {ot : T} (hp : s.producer = .advancing ot)
    (hstep : step s .producer = some s') : Kept s' (events ++ [ot]) := by
  have hstanding := h.standing.step hstep
  have hin := h.standing.in_lt (by simp [hp])
  have hproducer := h.producer
  rw [hp] at hproducer
  obtain ⟨hroom, hcell⟩ := hproducer
  have hnonneg := h.standing.in_nonneg
  have hfits := h.standing.size_fits
  simp only [step, hp, Option.some.injEq] at hstep
  rw [add32_of_fits ⟨by omega, by omega⟩] at hstep
  subst hstep
  refine ⟨hstanding, h.queued.advance h.standing.toCursors hin hroom hcell, ?_, trivial, ?_, ?_⟩
  · simp only [h.order, List.append_assoc]
  · rw [List.length_append]
    exact h.consumer.more
  · intro a v hslot
    obtain ⟨hv, hbehind⟩ := h.slot a v hslot
    exact ⟨hv, ⟨hbehind.nonneg, hbehind.lt, hbehind.next⟩⟩

theorem Kept.wrapIn (h : Kept s events) (hp : s.producer = .wrapping)
    (hstep : step s .producer = some s') : Kept s' events := by
  have hstanding := h.standing.step hstep
  simp only [step, hp, Option.some.injEq] at hstep
  subst hstep
  have hhome := home_wrap h.standing.in_le h.standing.size_pos
  refine ⟨hstanding, ⟨?_, h.queued.cells⟩, h.order, trivial, h.consumer, ?_⟩
  · simp only [used, hhome]
    exact h.queued.length
  · intro a v hslot
    obtain ⟨hv, hbehind⟩ := h.slot a v hslot
    exact ⟨hv, ⟨hbehind.nonneg, hbehind.lt, hbehind.next⟩⟩

/-- The `++` of the out cursor gives the front event to the caller. -/
theorem Kept.take (h : Kept s events) (hc : s.consumer = .taking)
    (hstep : step s .consumer = some s') : ∃ events', Kept s' events' := by
  have hstanding := h.standing.step hstep
  have hout := h.standing.out_lt (by simp [hc])
  have hsome := h.consumer
  rw [hc] at hsome
  obtain ⟨ot, rest, rfl⟩ := List.exists_cons_of_length_pos hsome
  obtain ⟨hhead, hqueued⟩ := h.queued.take h.standing.toCursors hout
  have hnonneg := h.standing.out_nonneg
  have hfits := h.standing.size_fits
  simp only [step, hc, Option.some.injEq] at hstep
  rw [add32_of_fits ⟨by omega, by omega⟩] at hstep
  subst hstep
  refine ⟨rest, hstanding, hqueued, ?_, ?_, trivial, ?_⟩
  · simp only [h.order, hhead, List.append_assoc, List.singleton_append]
  · exact h.producer.fewer
  · rintro a v ⟨⟩
    exact ⟨rfl, ⟨hnonneg, hout, rfl⟩⟩

theorem Kept.wrapOut (h : Kept s events) (hc : s.consumer = .wrapping)
    (hstep : step s .consumer = some s') : Kept s' events := by
  have hstanding := h.standing.step hstep
  simp only [step, hc, Option.some.injEq] at hstep
  subst hstep
  have hhome := home_wrap h.standing.out_le h.standing.size_pos
  refine ⟨hstanding, ⟨?_, ?_⟩, h.order, h.producer, trivial, ?_⟩
  · simp only [used, hhome]
    exact h.queued.length
  · simp only [hhome]
    exact h.queued.cells
  · intro a v hslot
    obtain ⟨hv, hbehind⟩ := h.slot a v hslot
    exact ⟨hv, ⟨hbehind.nonneg, hbehind.lt, hbehind.next.trans hhome.symm⟩⟩

theorem Kept.step (h : Kept s events) {op : Op T} (huntorn : Untorn s op)
    (hstep : step s op = some s') : ∃ events', Kept s' events' := by
  cases op with
  | pushBack ot => exact ⟨events, h.pushBack huntorn hstep⟩
  | popFront => exact ⟨events, h.popFront huntorn hstep⟩
  | producer =>
    cases hp : s.producer with
    | idle => simp [TEventQueue.step, hp] at hstep
    | copying ot => exact ⟨events, h.copy hp hstep⟩
    | advancing ot => exact ⟨events ++ [ot], h.advance hp hstep⟩
    | wrapping => exact ⟨events, h.wrapIn hp hstep⟩
  | consumer =>
    cases hc : s.consumer with
    | idle => simp [TEventQueue.step, hc] at hstep
    | taking => exact h.take hc hstep
    | wrapping => exact ⟨events, h.wrapOut hc hstep⟩

theorem kept_start {nMax : Int} (hpos : 0 < nMax) (hfits : Fits32 nMax) (poArrayT : Int → T) :
    Kept (start (init nMax poArrayT)) [] :=
  { standing := standing_start hpos hfits poArrayT
    queued := ⟨by simp [start, init, used], rfl⟩
    order := rfl
    producer := trivial
    consumer := trivial
    slot := by simp [start] }

/-- A run that keeps to the condition: the accepted events that have not been popped are in the
cells from the out cursor on. -/
theorem run_kept {nMax : Int} (hpos : 0 < nMax) (hfits : Fits32 nMax) {poArrayT : Int → T}
    {ops : List (Op T)} (huntorn : Transition.Always step Untorn (start (init nMax poArrayT)) ops)
    (hrun : Transition.run step (start (init nMax poArrayT)) ops = some s) :
    s.queue.nSize = nMax ∧ ∃ events, Kept s events := by
  have hstep : ∀ (m : Machine T) op m', (m.queue.nSize = nMax ∧ ∃ events, Kept m events) →
      Untorn m op → step m op = some m' → m'.queue.nSize = nMax ∧ ∃ events, Kept m' events := by
    rintro m op m' ⟨hsize, events, hk⟩ hgood hm
    exact ⟨(step_nSize hm).trans hsize, hk.step hgood hm⟩
  exact Transition.invariant_of_always hstep ⟨rfl, [], kept_start hpos hfits poArrayT⟩ huntorn hrun

/-- The queue is a bounded FIFO whose popped cell stays as it is, in every run that keeps to the
condition. A capacity is at least 1, as `SetNetOpt` demands. -/
theorem bounded_fifo {nMax : Int} (hpos : 0 < nMax) (hfits : Fits32 nMax) {poArrayT : Int → T}
    {ops : List (Op T)} (huntorn : Transition.Always step Untorn (start (init nMax poArrayT)) ops)
    (hrun : Transition.run step (start (init nMax poArrayT)) ops = some s) :
    ∃ pending, s.accepted = s.popped ++ pending ∧ (pending.length : Int) ≤ nMax - 1 ∧
      (∀ a v, s.slot = some (a, v) → s.queue.poArrayT a = v) ∧
      (∀ ot, s.producer = .idle → Untorn s (.pushBack ot) →
        step s (.pushBack ot) = some (if (pending.length : Int) = nMax - 1 then s
          else { s with producer := .copying ot })) ∧
      (s.consumer = .idle → Untorn s .popFront →
        step s .popFront = some (if pending.length = 0 then s
          else { s with consumer := .taking })) := by
  obtain ⟨hsize, events, hk⟩ := run_kept hpos hfits huntorn hrun
  have hlen := hk.standing.used_bounds.2
  rw [hsize, hk.queued.length] at hlen
  refine ⟨events, hk.order, by omega, fun a v hslot => (hk.slot a v hslot).1, ?_,
    fun hidle hu => hk.popFront_eq hidle hu⟩
  intro ot hidle hu
  rw [hk.pushBack_eq hidle hu, hsize]
  simp only [eq_sub_iff_add_eq]

/-- One call with all its steps. -/
def pushAll (ot : T) : List (Op T) := [.pushBack ot, .producer, .producer, .producer]

def popAll : List (Op T) := [.popFront, .consumer, .consumer]

/-- Three cells, wrapped around, a refusal among the calls. -/
theorem bounded_fifo_wrapped :
    ∃ s : Machine Nat, ∃ pending, s.accepted = s.popped ++ pending ∧
      (pending.length : Int) ≤ 3 - 1 ∧ s.popped = [1, 2] ∧ s.slot = some (1, 2) ∧
      s.queue.poArrayT 1 = 2 := by
  have hrun : ∃ s, Transition.run step (start (init 3 fun _ => 0))
      (pushAll 1 ++ pushAll 2 ++ [.pushBack 9] ++ popAll ++ pushAll 3 ++ popAll ++ pushAll 4) =
        some s ∧ s.popped = [1, 2] ∧ s.slot = some (1, 2) := ⟨_, rfl, rfl, rfl⟩
  obtain ⟨s, hs, hpopped, hslot⟩ := hrun
  obtain ⟨pending, horder, hlen, hcell, -⟩ :=
    bounded_fifo (by decide) (by decide) (by decide) hs
  exact ⟨s, pending, horder, hlen, hpopped, hslot, hcell 1 2 hslot⟩

/-- Two pops while the producer stands behind its `++`: the queue is drained, `m_nInCursor` is
`m_nSize`, and `PopFront` gives the first event out once more. -/
theorem popped_twice :
    ∃ s : Machine Nat, Transition.run step (start (init 3 fun _ => 0))
      (pushAll 1 ++ pushAll 2 ++ popAll ++ popAll ++ [.pushBack 3, .producer, .producer] ++
        popAll ++ popAll) = some s ∧
      s.accepted = [1, 2, 3] ∧ s.popped = [1, 2, 3, 1] :=
  ⟨_, rfl, rfl, rfl⟩

end TEventQueue
