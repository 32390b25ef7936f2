import FxLib.Net.LoopBuffSpec

/-!
# FxLoopBuff is a bounded FIFO with a read-ahead mark

A run is any sequence of operations on an initialised ring, including further
`Init` calls. The abstract buffer performs the same operations on lists, and the
two are compared reply by reply. A ring whose parser marks bytes is only popped
up to the mark; a ring nobody marks may be popped freely.

The range checks of the source add before they compare. Where such a sum leaves
the 32-bit range the check is passed by mistake, so the comparison holds exactly
as long as no sum of the run overflows.
-/

open MachineInt

inductive RingOp where
  | init (nLen : Int) (realloc : Option Mem)
  | pushBuff (pInBuff : List UInt8) (nLen : Int)
  /-- `written` is copied to the region of `GetInCursorPtr` first. -/
  | costBuff (written : List UInt8) (nLen : Int)
  | costUsedBuff (nLen : Int)
  | popBuff (nLen : Int)
  | discardBuff (nLen : Int)
  | clear

structure RingReply where
  ok : Bool
  bytes : List UInt8
  deriving DecidableEq

namespace RingOp

/-- The ring's own operation. -/
def run (op : RingOp) (s : FxLoopBuff) : RingReply × FxLoopBuff :=
  match op with
  | .init nLen realloc => (⟨(s.init nLen realloc).1, []⟩, (s.init nLen realloc).2)
  | .pushBuff pInBuff nLen => (⟨(s.pushBuff pInBuff nLen).1, []⟩, (s.pushBuff pInBuff nLen).2)
  | .costBuff written nLen =>
    let s := s.copyIn s.getInCursorPtr.ptr written
    (⟨(s.costBuff nLen).1, []⟩, (s.costBuff nLen).2)
  | .costUsedBuff nLen => (⟨(s.costUsedBuff nLen).1, []⟩, (s.costUsedBuff nLen).2)
  | .popBuff nLen => (⟨(s.popBuff nLen).1, (s.popBuff nLen).2.1⟩, (s.popBuff nLen).2.2)
  | .discardBuff nLen => (⟨(s.discardBuff nLen).1, []⟩, (s.discardBuff nLen).2)
  | .clear => (⟨true, []⟩, s.clear)

/-- The same operation on the abstract buffer. -/
def spec (op : RingOp) (f : MarkedFifo UInt8) : RingReply × MarkedFifo UInt8 :=
  match op with
  | .init nLen realloc =>
    if nLen ≠ f.capacity ∧ realloc = none then (⟨false, []⟩, f)
    else (⟨true, []⟩, MarkedFifo.empty nLen.toNat)
  | .pushBuff pInBuff nLen =>
    (⟨(f.push (pInBuff.take nLen.toNat)).1, []⟩, (f.push (pInBuff.take nLen.toNat)).2)
  | .costBuff written nLen =>
    (⟨(f.push (written.take nLen.toNat)).1, []⟩, (f.push (written.take nLen.toNat)).2)
  | .costUsedBuff nLen => (⟨(f.mark nLen.toNat).1, []⟩, (f.mark nLen.toNat).2)
  | .popBuff nLen => (⟨(f.pop nLen.toNat).1, (f.pop nLen.toNat).2.1⟩, (f.pop nLen.toNat).2.2)
  | .discardBuff nLen => (⟨(f.pop nLen.toNat).1, []⟩, (f.pop nLen.toNat).2.2)
  | .clear => (⟨true, []⟩, f)

/-- What the callers promise. Capacities are positive, the source holds the bytes
that are copied, and a pop of a marked ring stays behind the mark or asks for more
than there is. -/
def Admissible (usesMark : Bool) (s : FxLoopBuff) (f : MarkedFifo UInt8) : RingOp → Prop
  | .init nLen _ => 0 < nLen ∧ Fits32 nLen
  | .pushBuff pInBuff nLen => Fits32 nLen ∧ nLen ≤ pInBuff.length
  | .costBuff written nLen =>
    Fits32 nLen ∧ nLen ≤ written.length ∧ (written.length : Int) ≤ s.getInCursorPtr.len
  | .costUsedBuff nLen => Fits32 nLen ∧ usesMark = true
  | .popBuff nLen | .discardBuff nLen =>
    Fits32 nLen ∧ (usesMark = true → nLen ≤ f.marked.length ∨ (f.queue.length : Int) < nLen)
  | .clear => s.isEmpty = true

/-- The sums the operation computes are `int` values. -/
def NoOverflow (s : FxLoopBuff) : RingOp → Prop
  | .init _ _ | .clear => True
  | .pushBuff _ nLen | .costBuff _ nLen =>
    0 < nLen → nLen ≤ s.freeLen → Fits32 (nLen + s.inCursor)
  | .costUsedBuff nLen =>
    0 < nLen → (Fits32 (s.freeLen + nLen) ∧ s.totalLen < s.freeLen + nLen) ∨
      Fits32 (nLen + s.useCursor)
  | .popBuff nLen | .discardBuff nLen =>
    0 < nLen → Fits32 (nLen + s.freeLen) ∧
      (nLen + s.freeLen ≤ s.totalLen → Fits32 (nLen + s.outCursor))

instance (s : FxLoopBuff) : (op : RingOp) → Decidable (NoOverflow s op)
  | .init _ _ | .clear => inferInstanceAs (Decidable True)
  | .pushBuff _ nLen | .costBuff _ nLen =>
    inferInstanceAs (Decidable (0 < nLen → nLen ≤ s.freeLen → Fits32 (nLen + s.inCursor)))
  | .costUsedBuff nLen =>
    inferInstanceAs (Decidable (0 < nLen →
      (Fits32 (s.freeLen + nLen) ∧ s.totalLen < s.freeLen + nLen) ∨ Fits32 (nLen + s.useCursor)))
  | .popBuff nLen | .discardBuff nLen =>
    inferInstanceAs (Decidable (0 < nLen → Fits32 (nLen + s.freeLen) ∧
      (nLen + s.freeLen ≤ s.totalLen → Fits32 (nLen + s.outCursor))))

def runAll : FxLoopBuff → List RingOp → List RingReply × FxLoopBuff
  | s, [] => ([], s)
  | s, op :: ops => ((op.run s).1 :: (runAll (op.run s).2 ops).1, (runAll (op.run s).2 ops).2)

def specAll : MarkedFifo UInt8 → List RingOp → List RingReply × MarkedFifo UInt8
  | f, [] => ([], f)
  | f, op :: ops => ((op.spec f).1 :: (specAll (op.spec f).2 ops).1, (specAll (op.spec f).2 ops).2)

def AdmissibleAll (usesMark : Bool) : FxLoopBuff → MarkedFifo UInt8 → List RingOp → Prop
  | _, _, [] => True
  | s, f, op :: ops =>
    op.Admissible usesMark s f ∧ AdmissibleAll usesMark (op.run s).2 (op.spec f).2 ops

def NoOverflowAll : FxLoopBuff → List RingOp → Prop
  | _, [] => True
  | s, op :: ops => op.NoOverflow s ∧ NoOverflowAll (op.run s).2 ops

end RingOp

/-- The simulation relation. -/
structure Refines (usesMark : Bool) (s : FxLoopBuff) (f : MarkedFifo UInt8) : Prop where
  rep : s.Rep f.queue
  capacity : (f.capacity : Int) = s.totalLen
  marks : usesMark = true → s.Marks f.unmarked.length

namespace Refines

variable {usesMark : Bool} {s : FxLoopBuff} {f : MarkedFifo UInt8}

theorem grow {xs : List UInt8} {m : Mem} {n : Nat} (h : Refines usesMark s f) (hne : xs ≠ [])
    (hlen : xs.length = n) (hfree : (n : Int) ≤ s.freeLen)
    (hrep : (({ s with buff := some m } : FxLoopBuff).advanceIn n).Rep (f.queue ++ xs)) :
    (f.push xs).1 = true ∧
      Refines usesMark (({ s with buff := some m } : FxLoopBuff).advanceIn n) (f.push xs).2 := by
  subst hlen
  have hfr := h.rep.free
  have hcap := h.capacity
  rw [MarkedFifo.push_of_fits (f := f) hne (by omega)]
  refine ⟨rfl, ?_, by simpa using hcap, ?_⟩
  · simpa [MarkedFifo.queue] using hrep
  · intro hu
    simpa using (h.marks hu).advanceIn h.rep m hfree

/-- A push that the ring refuses is refused by the abstract buffer. -/
theorem push_refused {xs : List UInt8} {nLen : Int} (h : Refines usesMark s f)
    (hlen : nLen ≤ xs.length) (hn : ¬ (0 < nLen ∧ nLen ≤ s.freeLen)) :
    f.push (xs.take nLen.toNat) = (false, f) := by
  have hfr := h.rep.free
  have hcap := h.capacity
  refine if_pos ?_
  by_cases hpos : 0 < nLen
  · right
    simp only [List.length_take]
    omega
  · left
    simp [show nLen.toNat = 0 by omega]

theorem take_ne_nil {xs : List UInt8} {nLen : Int} (hpos : 0 < nLen) (hlen : nLen ≤ xs.length) :
    xs.take nLen.toNat ≠ [] ∧ (xs.take nLen.toNat).length = nLen.toNat := by
  have hl : (xs.take nLen.toNat).length = nLen.toNat := by simp; omega
  refine ⟨fun he => ?_, hl⟩
  rw [he] at hl
  simp at hl
  omega

theorem step_pushBuff {xs : List UInt8} {nLen : Int} (h : Refines usesMark s f)
    (hlen : nLen ≤ xs.length) (hfit : RingOp.NoOverflow s (.pushBuff xs nLen)) :
    (RingOp.run (.pushBuff xs nLen) s).1 = (RingOp.spec (.pushBuff xs nLen) f).1 ∧
      Refines usesMark (RingOp.run (.pushBuff xs nLen) s).2
        (RingOp.spec (.pushBuff xs nLen) f).2 := by
  simp only [RingOp.run, RingOp.spec]
  by_cases hok : 0 < nLen ∧ nLen ≤ s.freeLen
  · obtain ⟨m, heq, hrep⟩ := h.rep.pushBuff hok.1 hlen hok.2 (hfit hok.1 hok.2)
    obtain ⟨hne, htake⟩ := take_ne_nil hok.1 hlen
    have hgrow := h.grow hne htake (by omega) hrep
    rw [heq, hgrow.1]
    exact ⟨rfl, hgrow.2⟩
  · rw [FxLoopBuff.pushBuff_refused xs (by omega), h.push_refused hlen hok]
    exact ⟨rfl, h⟩

theorem step_costBuff {written : List UInt8} {nLen : Int} (h : Refines usesMark s f)
    (hadm : RingOp.Admissible usesMark s f (.costBuff written nLen))
    (hfit : RingOp.NoOverflow s (.costBuff written nLen)) :
    (RingOp.run (.costBuff written nLen) s).1 = (RingOp.spec (.costBuff written nLen) f).1 ∧
      Refines usesMark (RingOp.run (.costBuff written nLen) s).2
        (RingOp.spec (.costBuff written nLen) f).2 := by
  obtain ⟨_, hlen, hregion⟩ := hadm
  simp only [RingOp.run, RingOp.spec]
  by_cases hok : 0 < nLen
  · have hfree : nLen ≤ s.freeLen := by
      by_cases hf : s.freeLen = 0
      · rw [FxLoopBuff.getInCursorPtr_full hf] at hregion
        simp only at hregion
        omega
      · obtain ⟨len, hreg, _, hlenfree, _⟩ := FxLoopBuff.getInCursorPtr_eq h.rep hf
        rw [hreg] at hregion
        simp only at hregion
        omega
    obtain ⟨m, heq, hrep⟩ := h.rep.costBuff hok hlen hregion (hfit hok hfree)
    obtain ⟨hne, htake⟩ := take_ne_nil hok hlen
    have hgrow := h.grow hne htake (by omega) hrep
    rw [heq, hgrow.1]
    exact ⟨rfl, hgrow.2⟩
  · obtain ⟨m, hcopy, hrep, _⟩ := h.rep.copyIn hregion
    rw [hcopy, FxLoopBuff.costBuff_refused (Or.inl (by omega)),
      h.push_refused hlen (fun hc => hok hc.1)]
    refine ⟨rfl, hrep, h.capacity, fun hu => ?_⟩
    have hm := h.marks hu
    exact ⟨hm.1, hm.2, hm.3, hm.4, hm.5⟩

theorem step_costUsedBuff {nLen : Int} (h : Refines usesMark s f) (hu : usesMark = true)
    (hfit : RingOp.NoOverflow s (.costUsedBuff nLen)) :
    (RingOp.run (.costUsedBuff nLen) s).1 = (RingOp.spec (.costUsedBuff nLen) f).1 ∧
      Refines usesMark (RingOp.run (.costUsedBuff nLen) s).2
        (RingOp.spec (.costUsedBuff nLen) f).2 := by
  have hm := h.marks hu
  have hb := hm.bound
  simp only [RingOp.run, RingOp.spec]
  by_cases hpos : 0 < nLen
  · have hsum := hfit hpos
    by_cases hle : nLen ≤ f.unmarked.length
    · have huse : Fits32 (nLen + s.useCursor) := by
        rcases hsum with ⟨_, hlt⟩ | huse
        · omega
        · exact huse
      rw [FxLoopBuff.costUsedBuff_eq h.rep hm hpos hle huse,
        MarkedFifo.mark_of_le (by omega) (by omega)]
      refine ⟨rfl, ?_, ?_, fun _ => ?_⟩
      · simpa [MarkedFifo.queue] using h.rep.advanceUse nLen.toNat
      · simpa using h.capacity
      · simpa using hm.advanceUse h.rep.in_lt (n := nLen.toNat) (by omega)
    · have hspec : f.mark nLen.toNat = (false, f) := if_pos (by omega)
      have hrun : s.costUsedBuff nLen = (false, s) := by
        rcases hsum with ⟨hfree, hlt⟩ | huse
        · have hadd := add32_of_fits hfree
          simp only [FxLoopBuff.costUsedBuff, hadd]
          rw [if_neg (by omega), if_pos (by omega)]
        · have htot := h.rep.total_fits
          have htot0 := h.rep.total_pos
          exact FxLoopBuff.costUsedBuff_refused hm (by omega) huse h.rep.in_nonneg
            ⟨by omega, htot⟩
      rw [hspec, hrun]
      exact ⟨rfl, h⟩
  · have hspec : f.mark nLen.toNat = (false, f) := if_pos (by omega)
    have hrun : s.costUsedBuff nLen = (false, s) := if_pos (by omega)
    rw [hspec, hrun]
    exact ⟨rfl, h⟩

theorem popped {n : Nat} (h : Refines usesMark s f) (hn : n ≠ 0) (hle : n ≤ f.queue.length)
    (hmark : usesMark = true → n ≤ f.marked.length) :
    Refines usesMark (s.advanceOut n) (f.pop n).2.2 := by
  have hfr := h.rep.free
  have hq := MarkedFifo.queue_length f
  have hpq := f.pop_queue n
  rw [MarkedFifo.pop_of_le hn hle] at hpq ⊢
  refine ⟨?_, by simpa using h.capacity, fun hu => ?_⟩
  · rw [hpq]
    exact h.rep.advanceOut hle
  · have hmk := hmark hu
    have hm := (h.marks hu).advanceOut (n := n) (by omega)
    simpa [Nat.sub_eq_zero_of_le hmk] using hm

theorem pop_refused {nLen : Int} (h : nLen ≤ 0 ∨ (f.queue.length : Int) < nLen) :
    f.pop nLen.toNat = (false, [], f) := if_pos (by omega)

/-- A pop takes what is there, or nothing if that is less. -/
theorem pop_cases {nLen : Int} (h : Refines usesMark s f)
    (hadm : RingOp.Admissible usesMark s f (.popBuff nLen))
    (hfit : RingOp.NoOverflow s (.popBuff nLen)) :
    (∃ f', 0 < nLen ∧ nLen ≤ f.queue.length ∧ Fits32 (nLen + s.outCursor) ∧
        f.pop nLen.toNat = (true, f.queue.take nLen.toNat, f') ∧
        Refines usesMark (s.advanceOut nLen.toNat) f') ∨
      (nLen ≤ 0 ∨ (f.queue.length : Int) < nLen) ∧ (0 < nLen → Fits32 (nLen + s.freeLen)) ∧
        f.pop nLen.toNat = (false, [], f) := by
  have hfr := h.rep.free
  by_cases hpos : 0 < nLen
  · obtain ⟨hfree, hout⟩ := hfit hpos
    by_cases hle : nLen ≤ f.queue.length
    · have hmark : usesMark = true → nLen.toNat ≤ f.marked.length := by
        intro hu
        have := hadm.2 hu
        omega
      have hpop := h.popped (n := nLen.toNat) (by omega) (by omega) hmark
      rw [MarkedFifo.pop_of_le (by omega) (by omega)] at hpop ⊢
      exact .inl ⟨_, hpos, hle, hout (by omega), rfl, hpop⟩
    · exact .inr ⟨.inr (by omega), fun _ => hfree, pop_refused (.inr (by omega))⟩
  · exact .inr ⟨.inl (by omega), fun hc => absurd hc hpos, pop_refused (.inl (by omega))⟩

theorem step_popBuff {nLen : Int} (h : Refines usesMark s f)
    (hadm : RingOp.Admissible usesMark s f (.popBuff nLen))
    (hfit : RingOp.NoOverflow s (.popBuff nLen)) :
    (RingOp.run (.popBuff nLen) s).1 = (RingOp.spec (.popBuff nLen) f).1 ∧
      Refines usesMark (RingOp.run (.popBuff nLen) s).2 (RingOp.spec (.popBuff nLen) f).2 := by
  simp only [RingOp.run, RingOp.spec]
  rcases h.pop_cases hadm hfit with ⟨f', hpos, hle, hout, hpop, hrefines⟩ | ⟨hn, hfree, hpop⟩
  · rw [FxLoopBuff.popBuff_eq h.rep hpos hle hout, hpop]
    exact ⟨rfl, hrefines⟩
  · have hrun : s.popBuff nLen = (false, [], s) := by
      by_cases hpos : 0 < nLen
      · exact FxLoopBuff.popBuff_refused h.rep hn (hfree hpos)
      · exact if_pos (by omega)
    rw [hrun, hpop]
    exact ⟨rfl, h⟩

theorem step_discardBuff {nLen : Int} (h : Refines usesMark s f)
    (hadm : RingOp.Admissible usesMark s f (.discardBuff nLen))
    (hfit : RingOp.NoOverflow s (.discardBuff nLen)) :
    (RingOp.run (.discardBuff nLen) s).1 = (RingOp.spec (.discardBuff nLen) f).1 ∧
      Refines usesMark (RingOp.run (.discardBuff nLen) s).2
        (RingOp.spec (.discardBuff nLen) f).2 := by
  simp only [RingOp.run, RingOp.spec]
  rcases h.pop_cases hadm hfit with ⟨f', hpos, hle, hout, hpop, hrefines⟩ | ⟨hn, hfree, hpop⟩
  · rw [FxLoopBuff.discardBuff_eq h.rep hpos hle hout, hpop]
    exact ⟨rfl, hrefines⟩
  · have hrun : s.discardBuff nLen = (false, s) := by
      by_cases hpos : 0 < nLen
      · exact FxLoopBuff.discardBuff_refused h.rep hn (hfree hpos)
      · exact if_pos (by omega)
    rw [hrun, hpop]
    exact ⟨rfl, h⟩

theorem step_init {nLen : Int} {realloc : Option Mem} (h : Refines usesMark s f)
    (hpos : 0 < nLen) (hfit : Fits32 nLen) :
    (RingOp.run (.init nLen realloc) s).1 = (RingOp.spec (.init nLen realloc) f).1 ∧
      Refines usesMark (RingOp.run (.init nLen realloc) s).2
        (RingOp.spec (.init nLen realloc) f).2 := by
  have hcap := h.capacity
  have hok : (s.init nLen realloc).1 = ! decide (nLen ≠ f.capacity ∧ realloc = none) := by
    rw [hcap, FxLoopBuff.init, h.rep.alloc]
    by_cases hn : nLen = s.totalLen
    · simp [hn]
    · cases realloc <;> simp [hn]
  simp only [RingOp.run, RingOp.spec]
  by_cases hfail : nLen ≠ f.capacity ∧ realloc = none
  · have hfalse : (s.init nLen realloc).1 = false := by
      rw [hok, decide_eq_true hfail]
      rfl
    rw [if_pos hfail, hfalse, FxLoopBuff.init_refused s hfalse]
    exact ⟨rfl, h⟩
  · have htrue : (s.init nLen realloc).1 = true := by
      rw [hok, decide_eq_false hfail]
      rfl
    obtain ⟨hrep, hmarks, htotal⟩ := s.init_rep hpos hfit htrue
    rw [if_neg hfail, htrue]
    refine ⟨rfl, hrep, ?_, fun _ => hmarks⟩
    rw [htotal]
    exact Int.toNat_of_nonneg hpos.le

theorem step_clear (h : Refines usesMark s f) (he : s.isEmpty = true) :
    Refines usesMark s.clear f := by
  have hq : f.queue = [] := h.rep.isEmpty_iff.mp (by simpa [FxLoopBuff.isEmpty] using he)
  have hu : f.unmarked = [] := (List.append_eq_nil_iff.mp hq).2
  have hlen := h.rep.free
  refine ⟨hq ▸ h.rep.clear he, h.capacity, fun _ => ?_⟩
  rw [hu]
  exact FxLoopBuff.Marks.clear (by omega) h.rep.total_pos

/-- One operation: the replies agree and the simulation goes on. -/
theorem step {op : RingOp} (h : Refines usesMark s f) (hadm : op.Admissible usesMark s f)
    (hfit : op.NoOverflow s) :
    (op.run s).1 = (op.spec f).1 ∧ Refines usesMark (op.run s).2 (op.spec f).2 := by
  cases op with
  | init nLen realloc => exact h.step_init hadm.1 hadm.2
  | pushBuff xs nLen => exact h.step_pushBuff hadm.2 hfit
  | costBuff written nLen => exact h.step_costBuff hadm hfit
  | costUsedBuff nLen => exact h.step_costUsedBuff hadm.2 hfit
  | popBuff nLen => exact h.step_popBuff hadm hfit
  | discardBuff nLen => exact h.step_discardBuff hadm hfit
  | clear => exact ⟨rfl, h.step_clear hadm⟩

/-- A run of operations: the same replies, and the simulation at its end. -/
theorem runAll {ops : List RingOp} (h : Refines usesMark s f)
    (hadm : RingOp.AdmissibleAll usesMark s f ops) (hfit : RingOp.NoOverflowAll s ops) :
    (RingOp.runAll s ops).1 = (RingOp.specAll f ops).1 ∧
      Refines usesMark (RingOp.runAll s ops).2 (RingOp.specAll f ops).2 := by
  induction ops generalizing s f with
  | nil => exact ⟨rfl, h⟩
  | cons op ops ih =>
    obtain ⟨hreply, hnext⟩ := h.step hadm.1 hfit.1
    obtain ⟨hreplies, hend⟩ := ih hnext hadm.2 hfit.2
    exact ⟨by rw [RingOp.runAll, RingOp.specAll, hreply, hreplies], hend⟩

end Refines

namespace RingOp

theorem spec_conserved {f : MarkedFifo UInt8} (h : f.Conserved) (op : RingOp) :
    (op.spec f).2.Conserved := by
  cases op with
  | init nLen realloc =>
    simp only [spec]
    split
    · exact h
    · exact MarkedFifo.conserved_empty _
  | pushBuff xs nLen => exact h.push _
  | costBuff written nLen => exact h.push _
  | costUsedBuff nLen => exact h.mark _
  | popBuff nLen => exact h.pop _
  | discardBuff nLen => exact h.pop _
  | clear => exact h

theorem specAll_conserved {f : MarkedFifo UInt8} (h : f.Conserved) (ops : List RingOp) :
    (specAll f ops).2.Conserved := by
  induction ops generalizing f with
  | nil => exact h
  | cons op ops ih => exact ih (spec_conserved h op)

end RingOp

/-! ### What a caller sees -/

/-- The region is part of the block; `NULL` comes with length zero. -/
def Region.Inside (r : Region) (nTotalLen : Int) : Prop :=
  0 ≤ r.len ∧ match r.ptr with
    | none => r.len = 0
    | some p => 0 ≤ p ∧ p + r.len ≤ nTotalLen

/-- The bytes of the region are a prefix of `xs`, and some of `xs` when there are any. -/
def FxLoopBuff.Shows (s : FxLoopBuff) (r : Region) (xs : List UInt8) : Prop :=
  s.copyOut r.ptr r.len = xs.take r.len.toNat ∧ r.len ≤ xs.length ∧ (xs ≠ [] → 0 < r.len)

/-- A call that answers `false` has changed nothing. -/
structure FxLoopBuff.RefusalsKeep (s : FxLoopBuff) : Prop where
  pushBuff : ∀ xs nLen, (s.pushBuff xs nLen).1 = false → (s.pushBuff xs nLen).2 = s
  popBuff : ∀ nLen, (s.popBuff nLen).1 = false → (s.popBuff nLen).2.2 = s
  discardBuff : ∀ nLen, (s.discardBuff nLen).1 = false → (s.discardBuff nLen).2 = s
  costBuff : ∀ nLen, (s.costBuff nLen).1 = false → (s.costBuff nLen).2 = s
  costUsedBuff : ∀ nLen, (s.costUsedBuff nLen).1 = false → (s.costUsedBuff nLen).2 = s

structure FifoView (usesMark : Bool) (s : FxLoopBuff) (f : MarkedFifo UInt8) : Prop where
  conserved : f.pushed = f.popped ++ f.queue
  totalLen : s.getTotalLen = f.capacity
  freeLen : s.getFreeLen + f.queue.length = f.capacity
  useLen : usesMark = true → s.getUseLen = f.unmarked.length
  queued : Memory.readRing s.mem s.getTotalLen s.outCursor f.queue.length = f.queue
  inInside : s.getInCursorPtr.Inside s.getTotalLen
  inFree : ∀ p, s.getInCursorPtr.ptr = some p → ∀ i, i < f.queue.length →
    Memory.ringPos s.getTotalLen s.outCursor i < p ∨
      p + s.getInCursorPtr.len ≤ Memory.ringPos s.getTotalLen s.outCursor i
  outInside : s.getOutCursorPtr.Inside s.getTotalLen
  outQueued : s.Shows s.getOutCursorPtr f.queue
  usedInside : usesMark = true → s.getUsedCursorPtr.Inside s.getTotalLen
  usedUnmarked : usesMark = true → s.Shows s.getUsedCursorPtr f.unmarked
  refusals : s.RefusalsKeep

theorem FxLoopBuff.refusalsKeep (s : FxLoopBuff) : s.RefusalsKeep := by
  refine ⟨fun xs nLen h => ?_, fun nLen h => ?_, fun nLen h => ?_, fun nLen h => ?_,
    fun nLen h => ?_⟩
  · simp only [FxLoopBuff.pushBuff] at h ⊢
    split_ifs at h ⊢ <;> rfl
  · simp only [FxLoopBuff.popBuff] at h ⊢
    split_ifs at h ⊢ <;> rfl
  · simp only [FxLoopBuff.discardBuff] at h ⊢
    split_ifs at h ⊢ <;> rfl
  · simp only [FxLoopBuff.costBuff] at h ⊢
    split_ifs at h ⊢ <;> rfl
  · simp only [FxLoopBuff.costUsedBuff] at h ⊢
    split_ifs at h ⊢ <;> rfl

namespace Refines

variable {usesMark : Bool} {s : FxLoopBuff} {f : MarkedFifo UInt8}

theorem inRegion (h : Refines usesMark s f) :
    s.getInCursorPtr.Inside s.getTotalLen ∧
      ∀ p, s.getInCursorPtr.ptr = some p → ∀ i, i < f.queue.length →
        Memory.ringPos s.getTotalLen s.outCursor i < p ∨
          p + s.getInCursorPtr.len ≤ Memory.ringPos s.getTotalLen s.outCursor i := by
  by_cases hf : s.freeLen = 0
  · rw [FxLoopBuff.getInCursorPtr_full hf]
    exact ⟨⟨le_rfl, rfl⟩, by simp⟩
  · obtain ⟨n, hreg, hpos, hfree, hend⟩ := FxLoopBuff.getInCursorPtr_eq h.rep hf
    rw [hreg]
    refine ⟨⟨by simp, h.rep.in_nonneg, hend⟩, fun p hp i hi => ?_⟩
    obtain rfl : s.inCursor = p := by simpa using hp
    simp only [FxLoopBuff.getTotalLen]
    generalize ha : Memory.ringPos s.totalLen s.outCursor i = a
    by_contra hc
    refine FxLoopBuff.ringPos_not_free h.rep hi (j := (a - s.inCursor).toNat) (by omega) ?_
    have hin : s.inCursor + ((a - s.inCursor).toNat : Int) = a := by omega
    rw [ha, Memory.ringPos, hin, if_pos (by omega)]

theorem outRegion (h : Refines usesMark s f) :
    s.getOutCursorPtr.Inside s.getTotalLen ∧ s.Shows s.getOutCursorPtr f.queue := by
  by_cases hq : f.queue = []
  · have hrep := h.rep
    rw [hq] at hrep
    rw [FxLoopBuff.getOutCursorPtr_empty hrep, hq]
    exact ⟨⟨le_rfl, rfl⟩, rfl, le_rfl, by simp⟩
  · obtain ⟨n, hreg, hpos, hle, hend, hread⟩ := FxLoopBuff.getOutCursorPtr_eq h.rep hq
    rw [hreg]
    exact ⟨⟨by simp, h.rep.out_nonneg, hend⟩, hread, by simpa using hle,
      fun _ => by simpa using hpos⟩

theorem usedRegion (h : Refines usesMark s f) (hu : usesMark = true) :
    s.getUsedCursorPtr.Inside s.getTotalLen ∧ s.Shows s.getUsedCursorPtr f.unmarked := by
  have hm := h.marks hu
  by_cases hun : f.unmarked = []
  · rw [hun] at hm ⊢
    have hlen := FxLoopBuff.getUsedCursorPtr_len_zero h.rep hm
    have huse := hm.use_lt
    have huse0 := hm.use_nonneg
    refine ⟨⟨hlen.ge, ?_⟩, ?_, hlen.le, by simp⟩
    · cases hp : s.getUsedCursorPtr.ptr with
      | none => exact hlen
      | some p =>
        have hptr : p = s.useCursor := by
          simp only [FxLoopBuff.getUsedCursorPtr] at hp
          split_ifs at hp <;> simp_all
        rw [hlen, hptr]
        refine ⟨huse0, ?_⟩
        rw [Int.add_zero]
        exact huse.le
    · rw [hlen]
      cases s.getUsedCursorPtr.ptr <;> rfl
  · obtain ⟨n, hreg, hpos, hle, hend, hread, _⟩ :=
      FxLoopBuff.getUsedCursorPtr_eq h.rep hm hun
    rw [hreg]
    exact ⟨⟨by simp, hm.use_nonneg, hend⟩, hread, by simpa using hle, fun _ => by simpa using hpos⟩

theorem view (h : Refines usesMark s f) (hc : f.Conserved) : FifoView usesMark s f where
  conserved := hc
  totalLen := h.capacity.symm
  freeLen := h.rep.free.trans h.capacity.symm
  useLen := fun hu => FxLoopBuff.getUseLen_eq h.rep (h.marks hu)
  queued := h.rep.content
  inInside := h.inRegion.1
  inFree := h.inRegion.2
  outInside := h.outRegion.1
  outQueued := h.outRegion.2
  usedInside := fun hu => (h.usedRegion hu).1
  usedUnmarked := fun hu => (h.usedRegion hu).2
  refusals := s.refusalsKeep

end Refines

/-- Run from an empty ring of capacity `cap`, the operations answer as the FIFO does
and leave what the FIFO holds. -/
def RefinesFifo (usesMark : Bool) (s : FxLoopBuff) (cap : Nat) (ops : List RingOp) : Prop :=
  RingOp.AdmissibleAll usesMark s (MarkedFifo.empty cap) ops →
    (RingOp.runAll s ops).1 = (RingOp.specAll (MarkedFifo.empty cap) ops).1 ∧
      FifoView usesMark (RingOp.runAll s ops).2 (RingOp.specAll (MarkedFifo.empty cap) ops).2

/-- As long as no `int` sum of the run overflows, the ring is the FIFO. -/
theorem loopBuff_refines_fifo (usesMark : Bool) {s₀ s : FxLoopBuff} {cap : Nat}
    {realloc : Option Mem} {ops : List RingOp} (hpos : 0 < cap) (hcap : cap < 2147483648)
    (hinit : s₀.init cap realloc = (true, s)) (hfit : RingOp.NoOverflowAll s ops) :
    RefinesFifo usesMark s cap ops := by
  intro hadm
  have hok : (s₀.init cap realloc).1 = true := by rw [hinit]
  obtain ⟨hrep, hmarks, htotal⟩ := s₀.init_rep (by omega) ⟨by omega, by omega⟩ hok
  rw [hinit] at hrep hmarks htotal
  have href : Refines usesMark s (MarkedFifo.empty cap) := ⟨hrep, htotal.symm, fun _ => hmarks⟩
  obtain ⟨hreplies, hend⟩ := href.runAll hadm hfit
  exact ⟨hreplies, hend.view (RingOp.specAll_conserved (MarkedFifo.conserved_empty cap) ops)⟩

/-- An empty ring of eight cells. -/
def ringOfEight : FxLoopBuff := ⟨8, 8, 0, 0, 0, some fun _ => 0, false, false⟩

/-- Mark two of three bytes, pop them, and write past the end of the block. -/
def ringOfEightOps : List RingOp :=
  [.pushBuff [1, 2, 3] 3, .costUsedBuff 2, .popBuff 2, .pushBuff [4, 5, 6, 7, 8, 9] 6]

theorem ringOfEight_refines_fifo : RefinesFifo true ringOfEight 8 ringOfEightOps := by
  have hinit : FxLoopBuff.new.init ((8 : Nat) : Int) (some fun _ => 0) = (true, ringOfEight) := rfl
  refine loopBuff_refines_fifo true (by decide) (by decide) hinit ⟨?_, ?_, ?_, ?_, trivial⟩ <;>
    decide

/-- `DiscardBuff` adds before it compares: a length near `INT_MAX` passes its range check,
and the free length is negative afterwards. -/
theorem discardBuff_overflow_breaks_fifo :
    ¬ RefinesFifo false ringOfEight 8 [.pushBuff [1, 2, 3] 3, .discardBuff 2147483647] ∧
      (RingOp.runAll ringOfEight [.pushBuff [1, 2, 3] 3, .discardBuff 2147483647]).2.getFreeLen
        = -2147483644 := by
  constructor
  · intro h
    have hadm : RingOp.AdmissibleAll false ringOfEight (MarkedFifo.empty 8)
        [.pushBuff [1, 2, 3] 3, .discardBuff 2147483647] :=
      ⟨⟨by decide, by decide⟩, ⟨by decide, by simp⟩, trivial⟩
    have hreplies := (h hadm).1
    revert hreplies
    decide
  · decide
