import FxLib.Lib.MarkedFifo
import FxLib.Net.LoopBuff

/-!
# What the ring operations do

`Rep s q` says that the ring `s` holds the queue `q`, `Marks s n` that its last
`n` queued bytes are not yet marked. Every operation is first shown to be one of
three cursor moves (`advanceIn`, `advanceOut`, `advanceUse`); the moves then keep
`Rep` and `Marks`. The wrap flags need no history: a cursor can only pass the end
when its flag says it has not done so already.
-/

open MachineInt

namespace FxLoopBuff

structure Rep (s : FxLoopBuff) (q : List UInt8) : Prop where
  total_pos : 0 < s.totalLen
  total_fits : s.totalLen < 2147483648
  alloc : s.buff = some s.mem
  in_nonneg : 0 ≤ s.inCursor
  in_lt : s.inCursor < s.totalLen
  out_nonneg : 0 ≤ s.outCursor
  out_lt : s.outCursor < s.totalLen
  free_nonneg : 0 ≤ s.freeLen
  free : s.freeLen + q.length = s.totalLen
  straight : s.loop = false → s.inCursor = s.outCursor + q.length
  looped : s.loop = true → s.inCursor + s.totalLen = s.outCursor + q.length
  content : Memory.readRing s.mem s.totalLen s.outCursor q.length = q

structure Marks (s : FxLoopBuff) (n : Nat) : Prop where
  use_nonneg : 0 ≤ s.useCursor
  use_lt : s.useCursor < s.totalLen
  straight : s.useLoop = false → s.inCursor = s.useCursor + n
  looped : s.useLoop = true → s.inCursor + s.totalLen = s.useCursor + n
  bound : (n : Int) + s.freeLen ≤ s.totalLen

/-! ### The three cursor moves -/

def advanceIn (s : FxLoopBuff) (n : Nat) : FxLoopBuff :=
  if s.inCursor + n < s.totalLen then
    { s with inCursor := s.inCursor + n, freeLen := s.freeLen - n }
  else
    { s with inCursor := s.inCursor + n - s.totalLen, loop := true, useLoop := true
             freeLen := s.freeLen - n }

def advanceOut (s : FxLoopBuff) (n : Nat) : FxLoopBuff :=
  if s.outCursor + n < s.totalLen then
    { s with outCursor := s.outCursor + n, freeLen := s.freeLen + n }
  else
    { s with outCursor := s.outCursor + n - s.totalLen, loop := false
             freeLen := s.freeLen + n }

def advanceUse (s : FxLoopBuff) (n : Nat) : FxLoopBuff :=
  if s.useLoop = true ∧ s.totalLen ≤ s.useCursor + n then
    { s with useCursor := s.useCursor + n - s.totalLen, useLoop := false }
  else
    { s with useCursor := s.useCursor + n }

@[simp] theorem advanceIn_mem (s : FxLoopBuff) (n : Nat) : (s.advanceIn n).mem = s.mem := by
  simp only [advanceIn]
  split <;> rfl

@[simp] theorem advanceIn_useCursor (s : FxLoopBuff) (n : Nat) :
    (s.advanceIn n).useCursor = s.useCursor := by
  simp only [advanceIn]
  split <;> rfl

@[simp] theorem advanceIn_totalLen (s : FxLoopBuff) (n : Nat) :
    (s.advanceIn n).totalLen = s.totalLen := by
  simp only [advanceIn]
  split <;> rfl

@[simp] theorem advanceIn_outCursor (s : FxLoopBuff) (n : Nat) :
    (s.advanceIn n).outCursor = s.outCursor := by
  simp only [advanceIn]
  split <;> rfl

@[simp] theorem advanceOut_mem (s : FxLoopBuff) (n : Nat) : (s.advanceOut n).mem = s.mem := by
  simp only [advanceOut]
  split <;> rfl

@[simp] theorem advanceOut_totalLen (s : FxLoopBuff) (n : Nat) :
    (s.advanceOut n).totalLen = s.totalLen := by
  simp only [advanceOut]
  split <;> rfl

@[simp] theorem advanceUse_mem (s : FxLoopBuff) (n : Nat) : (s.advanceUse n).mem = s.mem := by
  simp only [advanceUse]
  split <;> rfl

@[simp] theorem advanceUse_totalLen (s : FxLoopBuff) (n : Nat) :
    (s.advanceUse n).totalLen = s.totalLen := by
  simp only [advanceUse]
  split <;> rfl

variable {s : FxLoopBuff} {q : List UInt8}

theorem Rep.length_le (h : s.Rep q) : (q.length : Int) ≤ s.totalLen := by
  have := h.free
  have := h.free_nonneg
  omega

theorem Rep.inCursor_eq (h : s.Rep q) :
    s.inCursor = Memory.ringPos s.totalLen s.outCursor q.length := by
  have hin := h.in_lt
  have hin0 := h.in_nonneg
  simp only [Memory.ringPos]
  cases hl : s.loop with
  | false =>
    have := h.straight hl
    split <;> omega
  | true =>
    have := h.looped hl
    split <;> omega

theorem Rep.isEmpty_iff (h : s.Rep q) : s.totalLen = s.freeLen ↔ q = [] := by
  have hfree := h.free
  constructor
  · intro he
    exact List.length_eq_zero_iff.mp (by omega)
  · rintro rfl
    simp at hfree
    omega

/-! ### The operations are the moves -/

theorem pushBuff_eq (h : s.Rep q) {xs : List UInt8} {nLen : Int} (hpos : 0 < nLen)
    (hxs : nLen ≤ xs.length) (hfree : nLen ≤ s.freeLen) (hfit : Fits32 (nLen + s.inCursor)) :
    s.pushBuff xs nLen = (true,
      ({ s with buff := some (Memory.writeRing s.mem s.totalLen s.inCursor
        (xs.take nLen.toNat)) }).advanceIn nLen.toNat) := by
  obtain ⟨n, rfl⟩ := Int.eq_ofNat_of_zero_le hpos.le
  have hadd := add32_of_fits hfit
  have hadd' : add32 s.inCursor n = s.inCursor + n := by
    rw [add32_of_fits (by rwa [Int.add_comm])]
  have htot := h.total_pos
  have hfits := h.total_fits
  have hin := h.in_lt
  have hin0 := h.in_nonneg
  have hlen := h.length_le
  have hfr := h.free
  have hsub : sub32 s.totalLen s.inCursor = s.totalLen - s.inCursor :=
    sub32_of_fits ⟨by omega, by omega⟩
  have hsubf : sub32 s.freeLen n = s.freeLen - n := sub32_of_fits ⟨by omega, by omega⟩
  have hptr : s.inCursorPtr = (some s.inCursor, s) := by
    simp only [inCursorPtr]
    rw [if_neg (by omega), if_neg (by omega)]
  have hbuff := h.alloc
  simp only [pushBuff, if_neg (show ¬ (0 ≥ (n : Int)) by omega),
    if_neg (show ¬ ((n : Int) > s.freeLen) by omega), hptr, hadd, hadd', hsub, Int.toNat_natCast,
    copyIn, advanceIn]
  have htake : (xs.take n).length = n := by simp; omega
  by_cases hend : (n : Int) + s.inCursor = s.totalLen
  · rw [if_pos hend, if_neg (by omega)]
    simp [hsubf, hbuff, Memory.writeRing_eq_write s.mem
      (show s.inCursor + ((xs.take n).length : Int) ≤ s.totalLen by omega)]
    omega
  · by_cases hlt : (n : Int) + s.inCursor < s.totalLen
    · rw [if_neg hend, if_pos hlt, if_pos (by omega)]
      simp [hsubf, hbuff, Memory.writeRing_eq_write s.mem
        (show s.inCursor + ((xs.take n).length : Int) ≤ s.totalLen by omega)]
    · have hsub1 : sub32 n (s.totalLen - s.inCursor) = n - (s.totalLen - s.inCursor) :=
        sub32_of_fits ⟨by omega, by omega⟩
      rw [if_neg hend, if_neg hlt, if_neg (by omega)]
      simp [hsubf, hsub1, hbuff, Memory.writeRing]
      refine ⟨by omega, ?_⟩
      rw [List.take_take, List.drop_take, min_eq_left (by omega)]
      congr 2
      omega

theorem costBuff_eq (h : s.Rep q) {nLen : Int} (hpos : 0 < nLen) (hfree : nLen ≤ s.freeLen)
    (hfit : Fits32 (nLen + s.inCursor)) :
    s.costBuff nLen = (true, s.advanceIn nLen.toNat) := by
  obtain ⟨n, rfl⟩ := Int.eq_ofNat_of_zero_le hpos.le
  have hadd := add32_of_fits hfit
  have hadd' : add32 s.inCursor n = s.inCursor + n := by
    rw [add32_of_fits (by rwa [Int.add_comm])]
  have hfits := h.total_fits
  have hin := h.in_lt
  have hlen := h.length_le
  have hfr := h.free
  have hsubf : sub32 s.freeLen n = s.freeLen - n := sub32_of_fits ⟨by omega, by omega⟩
  simp only [costBuff, if_neg (show ¬ (0 ≥ (n : Int)) by omega),
    if_neg (show ¬ ((n : Int) > s.freeLen) by omega), hadd, hadd', Int.toNat_natCast, advanceIn]
  by_cases hlt : (n : Int) + s.inCursor < s.totalLen
  · rw [if_pos hlt, if_pos (by omega)]
    simp [hsubf]
  · have hsub : sub32 (n + s.inCursor) s.totalLen = s.inCursor + n - s.totalLen := by
      rw [sub32_of_fits ⟨by omega, by omega⟩]
      omega
    rw [if_neg hlt, if_neg (by omega)]
    simp [hsubf, hsub]

theorem discardBuff_eq (h : s.Rep q) {nLen : Int} (hpos : 0 < nLen) (hle : nLen ≤ q.length)
    (hfit : Fits32 (nLen + s.outCursor)) :
    s.discardBuff nLen = (true, s.advanceOut nLen.toNat) := by
  obtain ⟨n, rfl⟩ := Int.eq_ofNat_of_zero_le hpos.le
  have hfr := h.free
  have hfits := h.total_fits
  have hfr0 := h.free_nonneg
  have hout := h.out_lt
  have hout0 := h.out_nonneg
  have haddf : add32 n s.freeLen = n + s.freeLen := add32_of_fits ⟨by omega, by omega⟩
  have haddf' : add32 s.freeLen n = s.freeLen + n := add32_of_fits ⟨by omega, by omega⟩
  have hadd := add32_of_fits hfit
  have hadd' : add32 s.outCursor n = s.outCursor + n := by
    rw [add32_of_fits (by rwa [Int.add_comm])]
  simp only [discardBuff, if_neg (show ¬ (0 ≥ (n : Int)) by omega), haddf,
    if_neg (show ¬ ((n : Int) + s.freeLen > s.totalLen) by omega), hadd, hadd',
    Int.toNat_natCast, advanceOut]
  by_cases hlt : (n : Int) + s.outCursor < s.totalLen
  · rw [if_pos hlt, if_pos (by omega)]
    simp [haddf']
  · have hsub : sub32 (n + s.outCursor) s.totalLen = s.outCursor + n - s.totalLen := by
      rw [sub32_of_fits ⟨by omega, by omega⟩]
      omega
    rw [if_neg hlt, if_neg (by omega)]
    simp [haddf', hsub]

theorem popBuff_eq (h : s.Rep q) {nLen : Int} (hpos : 0 < nLen) (hle : nLen ≤ q.length)
    (hfit : Fits32 (nLen + s.outCursor)) :
    s.popBuff nLen = (true, q.take nLen.toNat, s.advanceOut nLen.toNat) := by
  obtain ⟨n, rfl⟩ := Int.eq_ofNat_of_zero_le hpos.le
  have hfr := h.free
  have hfits := h.total_fits
  have hfr0 := h.free_nonneg
  have hout := h.out_lt
  have hout0 := h.out_nonneg
  have haddf : add32 n s.freeLen = n + s.freeLen := add32_of_fits ⟨by omega, by omega⟩
  have haddf' : add32 s.freeLen n = s.freeLen + n := add32_of_fits ⟨by omega, by omega⟩
  have hadd := add32_of_fits hfit
  have hadd' : add32 s.outCursor n = s.outCursor + n := by
    rw [add32_of_fits (by rwa [Int.add_comm])]
  have hptr : s.outCursorPtr = (some s.outCursor, s) := by
    simp only [outCursorPtr]
    rw [if_neg (by omega), if_neg (by omega)]
  have htake : q.take n = Memory.readRing s.mem s.totalLen s.outCursor n := by
    rw [← Memory.readRing_take s.mem (show n ≤ q.length by omega) hout0 hout (by omega),
      h.content]
  have hsub : sub32 s.totalLen s.outCursor = s.totalLen - s.outCursor :=
    sub32_of_fits ⟨by omega, by omega⟩
  simp only [popBuff, if_neg (show ¬ (0 ≥ (n : Int)) by omega), haddf,
    if_neg (show ¬ ((n : Int) + s.freeLen > s.totalLen) by omega), hadd, hadd', hptr, hsub,
    Int.toNat_natCast, advanceOut, copyOut, htake]
  by_cases hend : (n : Int) + s.outCursor = s.totalLen
  · rw [if_pos hend, if_neg (by omega),
      Memory.readRing_eq_read s.mem (show s.outCursor + (n : Int) ≤ s.totalLen by omega)]
    simp [haddf']
    omega
  · by_cases hlt : (n : Int) + s.outCursor < s.totalLen
    · rw [if_neg hend, if_pos hlt, if_pos (by omega),
        Memory.readRing_eq_read s.mem (show s.outCursor + (n : Int) ≤ s.totalLen by omega)]
      simp [haddf']
    · have hsub1 : sub32 n (s.totalLen - s.outCursor) = s.outCursor + n - s.totalLen := by
        rw [sub32_of_fits ⟨by omega, by omega⟩]
        omega
      rw [if_neg hend, if_neg hlt, if_neg (by omega),
        Memory.readRing_wrap s.mem hout (show s.totalLen ≤ s.outCursor + (n : Int) by omega),
        Memory.readRing_eq_read s.mem (show 0 + ((s.outCursor + (n : Int) - s.totalLen).toNat : Int)
          ≤ s.totalLen by omega)]
      simp [haddf', hsub1]

theorem costUsedBuff_eq (h : s.Rep q) {u : Nat} (hm : s.Marks u) {nLen : Int} (hpos : 0 < nLen)
    (hle : nLen ≤ u) (hfit : Fits32 (nLen + s.useCursor)) :
    s.costUsedBuff nLen = (true, s.advanceUse nLen.toNat) := by
  obtain ⟨n, rfl⟩ := Int.eq_ofNat_of_zero_le hpos.le
  have hfr := h.free
  have hfits := h.total_fits
  have hfr0 := h.free_nonneg
  have hb := hm.bound
  have huse := hm.use_lt
  have huse0 := hm.use_nonneg
  have haddf : add32 s.freeLen n = s.freeLen + n := add32_of_fits ⟨by omega, by omega⟩
  have hadd := add32_of_fits hfit
  have hadd' : add32 s.useCursor n = s.useCursor + n := by
    rw [add32_of_fits (by rwa [Int.add_comm])]
  simp only [costUsedBuff, if_neg (show ¬ (0 ≥ (n : Int)) by omega), haddf,
    if_neg (show ¬ (s.freeLen + (n : Int) > s.totalLen) by omega), hadd, hadd',
    Int.toNat_natCast, advanceUse]
  cases hl : s.useLoop with
  | false =>
    have hst := hm.straight hl
    rw [if_neg (by simp), if_neg (by omega), if_neg (by simp)]
  | true =>
    have hlp := hm.looped hl
    by_cases hlt : (n : Int) + s.useCursor < s.totalLen
    · rw [if_pos rfl, if_pos hlt, if_neg (by omega)]
    · have hsub : sub32 (s.useCursor + n) s.totalLen = s.useCursor + n - s.totalLen :=
        sub32_of_fits ⟨by omega, by omega⟩
      rw [if_pos rfl, if_neg hlt, hsub, if_neg (by omega), if_pos ⟨rfl, by omega⟩]

/-! ### What is refused -/

theorem pushBuff_refused (xs : List UInt8) {nLen : Int} (h : nLen ≤ 0 ∨ s.freeLen < nLen) :
    s.pushBuff xs nLen = (false, s) := by
  simp only [pushBuff]
  split_ifs <;> first | rfl | omega

theorem costBuff_refused {nLen : Int} (h : nLen ≤ 0 ∨ s.freeLen < nLen) :
    s.costBuff nLen = (false, s) := by
  simp only [costBuff]
  split_ifs <;> first | rfl | omega

theorem popBuff_refused (h : s.Rep q) {nLen : Int} (hn : nLen ≤ 0 ∨ q.length < nLen)
    (hfit : Fits32 (nLen + s.freeLen)) : s.popBuff nLen = (false, [], s) := by
  have hfr := h.free
  have hadd := add32_of_fits hfit
  simp only [popBuff, hadd]
  split_ifs <;> first | rfl | omega

theorem discardBuff_refused (h : s.Rep q) {nLen : Int} (hn : nLen ≤ 0 ∨ q.length < nLen)
    (hfit : Fits32 (nLen + s.freeLen)) : s.discardBuff nLen = (false, s) := by
  have hfr := h.free
  have hadd := add32_of_fits hfit
  simp only [discardBuff, hadd]
  split_ifs <;> first | rfl | omega

theorem costUsedBuff_refused {u : Nat} (hm : s.Marks u) {nLen : Int}
    (hn : nLen ≤ 0 ∨ u < nLen) (hfit : Fits32 (nLen + s.useCursor)) (hin0 : 0 ≤ s.inCursor)
    (htot : Fits32 s.totalLen) :
    s.costUsedBuff nLen = (false, s) := by
  have hadd := add32_of_fits hfit
  have hadd' : add32 s.useCursor nLen = s.useCursor + nLen := by
    rw [add32_of_fits (by rwa [Int.add_comm])]
  have huse := hm.use_lt
  have huse0 := hm.use_nonneg
  have h1 := htot.2
  have h2 := hfit.2
  simp only [costUsedBuff, hadd, hadd']
  cases hl : s.useLoop with
  | false =>
    have hst := hm.straight hl
    split_ifs <;> first | rfl | omega | contradiction
  | true =>
    have hlp := hm.looped hl
    by_cases hpos : nLen ≤ 0
    · rw [if_pos hpos]
    · have hsub : sub32 (s.useCursor + nLen) s.totalLen = s.useCursor + nLen - s.totalLen :=
        sub32_of_fits ⟨by omega, by omega⟩
      rw [hsub]
      split_ifs <;> first | rfl | omega

/-! ### Initialisation -/

theorem init_refused (s : FxLoopBuff) {nLen : Int} {realloc : Option Mem}
    (h : (s.init nLen realloc).1 = false) : (s.init nLen realloc).2 = s := by
  cases hb : (if nLen ≠ s.totalLen then realloc else s.buff) with
  | none => simp [init, hb]
  | some block => simp [init, hb] at h

/-- A successful `Init` leaves an empty ring, whatever the ring held before. -/
theorem init_rep (s : FxLoopBuff) {nLen : Int} {realloc : Option Mem} (hpos : 0 < nLen)
    (hfit : Fits32 nLen) (h : (s.init nLen realloc).1 = true) :
    (s.init nLen realloc).2.Rep [] ∧ (s.init nLen realloc).2.Marks 0 ∧
      (s.init nLen realloc).2.totalLen = nLen := by
  cases hb : (if nLen ≠ s.totalLen then realloc else s.buff) with
  | none => simp [init, hb] at h
  | some block =>
    have heq : s.init nLen realloc = (true, ⟨nLen, nLen, 0, 0, 0, some block, false, false⟩) := by
      simp [init, hb]
    rw [heq]
    refine ⟨⟨hpos, hfit.2, rfl, le_rfl, hpos, le_rfl, hpos, hpos.le, by simp, ?_, by simp, rfl⟩,
      ⟨le_rfl, hpos, ?_, by simp, by simp⟩, rfl⟩
    · intro _
      rfl
    · intro _
      rfl

/-! ### The moves keep the queue -/

/-- The bytes of `xs` are in place after the queue, the queue's own are untouched. -/
theorem Rep.append (h : s.Rep q) {m : Mem} {xs : List UInt8}
    (hfree : (xs.length : Int) ≤ s.freeLen)
    (hold : ∀ i, i < q.length →
      m (Memory.ringPos s.totalLen s.outCursor i) =
        s.mem (Memory.ringPos s.totalLen s.outCursor i))
    (hnew : Memory.readRing m s.totalLen s.inCursor xs.length = xs) :
    (({ s with buff := some m } : FxLoopBuff).advanceIn xs.length).Rep (q ++ xs) := by
  have hin := h.in_lt
  have hin0 := h.in_nonneg
  have hout := h.out_lt
  have hout0 := h.out_nonneg
  have hlen := h.length_le
  have hfr := h.free
  have hst := h.straight
  have hlp := h.looped
  have hcontent : Memory.readRing m s.totalLen s.outCursor (q ++ xs).length = q ++ xs := by
    rw [List.length_append, Memory.readRing_add m _ _ hout0 hout (by omega), ← h.inCursor_eq,
      hnew, Memory.readRing_congr hout0 hout hlen hold, h.content]
  simp only [advanceIn]
  by_cases hlt : s.inCursor + (xs.length : Int) < s.totalLen
  · rw [if_pos hlt]
    refine ⟨h.total_pos, h.total_fits, rfl, by simp; omega, hlt, hout0, hout, by simp; omega,
      by simp; omega, ?_, ?_, hcontent⟩
    · intro hl
      have := hst hl
      simp
      omega
    · intro hl
      have := hlp hl
      simp
      omega
  · rw [if_neg hlt]
    have hloop : s.loop = false := by
      by_contra hl
      have := hlp (by simpa using hl)
      omega
    have := hst hloop
    refine ⟨h.total_pos, h.total_fits, rfl, by simp; omega, by simp; omega, hout0, hout,
      by simp; omega, by simp; omega, by simp, ?_, hcontent⟩
    intro _
    simp
    omega

theorem Rep.advanceOut (h : s.Rep q) {n : Nat} (hn : n ≤ q.length) :
    (s.advanceOut n).Rep (q.drop n) := by
  have hin := h.in_lt
  have hin0 := h.in_nonneg
  have hout := h.out_lt
  have hout0 := h.out_nonneg
  have hlen := h.length_le
  have hfr := h.free
  have hfr0 := h.free_nonneg
  have hst := h.straight
  have hlp := h.looped
  have hcontent : Memory.readRing s.mem s.totalLen
      (Memory.ringPos s.totalLen s.outCursor n) (q.drop n).length = q.drop n := by
    rw [List.length_drop, ← Memory.readRing_drop s.mem hn hout0 hout (by omega), h.content]
  simp only [FxLoopBuff.advanceOut]
  by_cases hlt : s.outCursor + (n : Int) < s.totalLen
  · rw [Memory.ringPos, if_pos hlt] at hcontent
    rw [if_pos hlt]
    refine ⟨h.total_pos, h.total_fits, h.alloc, hin0, hin, by simp; omega, hlt, by simp; omega,
      by simp; omega, ?_, ?_, hcontent⟩
    · intro hl
      have := hst hl
      simp
      omega
    · intro hl
      have := hlp hl
      simp
      omega
  · rw [Memory.ringPos, if_neg hlt] at hcontent
    rw [if_neg hlt]
    have hloop : s.loop = true := by
      by_contra hl
      have := hst (by simpa using hl)
      omega
    have := hlp hloop
    refine ⟨h.total_pos, h.total_fits, h.alloc, hin0, hin, by simp; omega, by simp; omega,
      by simp; omega, by simp; omega, ?_, by simp, hcontent⟩
    intro _
    simp
    omega

theorem Rep.advanceUse (h : s.Rep q) (n : Nat) : (s.advanceUse n).Rep q := by
  simp only [FxLoopBuff.advanceUse]
  split
  · exact ⟨h.1, h.2, h.3, h.4, h.5, h.6, h.7, h.8, h.9, h.10, h.11, h.12⟩
  · exact ⟨h.1, h.2, h.3, h.4, h.5, h.6, h.7, h.8, h.9, h.10, h.11, h.12⟩

theorem Rep.clear (h : s.Rep q) (he : s.isEmpty = true) : s.clear.Rep [] := by
  have hq : q = [] := h.isEmpty_iff.mp (by simpa [isEmpty] using he)
  subst hq
  have htot := h.total_pos
  have hfr := h.free
  refine ⟨htot, h.total_fits, h.alloc, le_rfl, htot, le_rfl, htot, h.free_nonneg, hfr, ?_, ?_, rfl⟩
  · intro _
    rfl
  · intro hl
    exact absurd hl (by simp [FxLoopBuff.clear])

/-! ### The moves keep the mark -/

theorem Marks.advanceIn {u : Nat} (hm : s.Marks u) (h : s.Rep q) (m : Mem) {n : Nat}
    (hfree : (n : Int) ≤ s.freeLen) :
    (({ s with buff := some m } : FxLoopBuff).advanceIn n).Marks (u + n) := by
  have hb := hm.bound
  have huse := hm.use_lt
  have huse0 := hm.use_nonneg
  have hst := hm.straight
  have hlp := hm.looped
  have hin := h.in_lt
  simp only [FxLoopBuff.advanceIn]
  by_cases hlt : s.inCursor + (n : Int) < s.totalLen
  · rw [if_pos hlt]
    refine ⟨huse0, huse, ?_, ?_, by simp; omega⟩
    · intro hl
      have := hst hl
      simp
      omega
    · intro hl
      have := hlp hl
      simp
      omega
  · rw [if_neg hlt]
    have hloop : s.useLoop = false := by
      by_contra hl
      have := hlp (by simpa using hl)
      omega
    have := hst hloop
    refine ⟨huse0, huse, by simp, ?_, by simp; omega⟩
    intro _
    simp
    omega

theorem Marks.advanceOut {u : Nat} (hm : s.Marks u) {n : Nat}
    (hn : (u : Int) + n + s.freeLen ≤ s.totalLen) : (s.advanceOut n).Marks u := by
  have hst := hm.straight
  have hlp := hm.looped
  simp only [FxLoopBuff.advanceOut]
  split
  · exact ⟨hm.use_nonneg, hm.use_lt, hst, hlp, by simp; omega⟩
  · exact ⟨hm.use_nonneg, hm.use_lt, hst, hlp, by simp; omega⟩

theorem Marks.advanceUse {u : Nat} (hm : s.Marks u) (hin : s.inCursor < s.totalLen) {n : Nat}
    (hn : n ≤ u) :
    (s.advanceUse n).Marks (u - n) := by
  have hb := hm.bound
  have huse := hm.use_lt
  have huse0 := hm.use_nonneg
  have hst := hm.straight
  have hlp := hm.looped
  simp only [FxLoopBuff.advanceUse]
  by_cases hwrap : s.useLoop = true ∧ s.totalLen ≤ s.useCursor + (n : Int)
  · rw [if_pos hwrap]
    have := hlp hwrap.1
    refine ⟨by simp; omega, by simp; omega, ?_, by simp, by simp; omega⟩
    intro _
    simp
    omega
  · rw [if_neg hwrap]
    refine ⟨by simp; omega, ?_, ?_, ?_, by simp; omega⟩
    · cases hl : s.useLoop with
      | false =>
        have := hst hl
        simp
        omega
      | true =>
        have : ¬ s.totalLen ≤ s.useCursor + (n : Int) := fun hc => hwrap ⟨hl, hc⟩
        simp
        omega
    · intro hl
      have := hst hl
      simp
      omega
    · intro hl
      have := hlp hl
      simp
      omega

theorem Marks.clear (hfr : s.freeLen ≤ s.totalLen) (htot : 0 < s.totalLen) :
    s.clear.Marks 0 := by
  refine ⟨le_rfl, htot, ?_, ?_, by simpa [FxLoopBuff.clear] using hfr⟩
  · intro _
    rfl
  · intro hl
    exact absurd hl (by simp [FxLoopBuff.clear])

/-! ### The accessors -/

theorem getUseLen_eq (h : s.Rep q) {u : Nat} (hm : s.Marks u) : s.getUseLen = u := by
  have hb := hm.bound
  have hfits := h.total_fits
  have hfr := h.free_nonneg
  simp only [getUseLen]
  by_cases he : s.freeLen = s.totalLen
  · rw [if_pos he]
    omega
  · rw [if_neg he]
    cases hl : s.useLoop with
    | false =>
      have := hm.straight hl
      have hsub : sub32 s.inCursor s.useCursor = s.inCursor - s.useCursor :=
        sub32_of_fits ⟨by omega, by omega⟩
      simp only [Bool.false_eq_true, if_false, hsub]
      omega
    | true =>
      have := hm.looped hl
      have hsub : sub32 (add32 s.totalLen s.inCursor) s.useCursor =
          s.totalLen + s.inCursor - s.useCursor := by
        rw [sub32, add32]
        exact wrap32_add_sub ⟨by omega, by omega⟩
      simp only [if_true, hsub]
      omega

/-- The region offered for writing: all of it free, and inside the block. -/
theorem getInCursorPtr_eq (h : s.Rep q) (hf : s.freeLen ≠ 0) :
    ∃ n : Nat, s.getInCursorPtr = ⟨some s.inCursor, n⟩ ∧ 0 < n ∧ (n : Int) ≤ s.freeLen ∧
      s.inCursor + n ≤ s.totalLen := by
  have hfr := h.free
  have hfr0 := h.free_nonneg
  have hin := h.in_lt
  have hin0 := h.in_nonneg
  have hout := h.out_lt
  have hout0 := h.out_nonneg
  have hfits := h.total_fits
  simp only [getInCursorPtr, if_neg (show ¬ (0 = s.freeLen) by omega)]
  cases hl : s.loop with
  | false =>
    have := h.straight hl
    refine ⟨(s.totalLen - s.inCursor).toNat, ?_, by omega, by omega, by omega⟩
    simp only [Bool.false_eq_true, if_false, sub32_of_fits (show Fits32 (s.totalLen - s.inCursor)
      from ⟨by omega, by omega⟩), Region.mk.injEq, true_and]
    omega
  | true =>
    have := h.looped hl
    refine ⟨(s.outCursor - s.inCursor).toNat, ?_, by omega, by omega, by omega⟩
    simp only [if_true, sub32_of_fits (show Fits32 (s.outCursor - s.inCursor)
      from ⟨by omega, by omega⟩), Region.mk.injEq, true_and]
    omega

theorem getInCursorPtr_full (hf : s.freeLen = 0) : s.getInCursorPtr = ⟨none, 0⟩ := by
  simp [getInCursorPtr, hf]

theorem getInCursorPtr_nonneg (h : s.Rep q) : 0 ≤ s.getInCursorPtr.len := by
  by_cases hf : s.freeLen = 0
  · rw [getInCursorPtr_full hf]
  · obtain ⟨n, hreg, -⟩ := getInCursorPtr_eq h hf
    rw [hreg]
    exact Int.natCast_nonneg n

/-- Where not all free cells are offered, the region goes to the end of the block. -/
theorem getInCursorPtr_cut (h : s.Rep q) (hlt : s.getInCursorPtr.len < s.freeLen) :
    s.inCursor + s.getInCursorPtr.len = s.totalLen := by
  have hfr := h.free
  have hin := h.in_lt
  have hin0 := h.in_nonneg
  have hout := h.out_lt
  have hout0 := h.out_nonneg
  have hfits := h.total_fits
  have hf : ¬ 0 = s.freeLen := by
    intro hzero
    rw [getInCursorPtr_full hzero.symm] at hlt
    exact absurd hlt (by simp only; omega)
  cases hl : s.loop with
  | false =>
    simp only [getInCursorPtr, if_neg hf, hl, Bool.false_eq_true, if_false,
      sub32_of_fits (show Fits32 (s.totalLen - s.inCursor) from ⟨by omega, by omega⟩)]
    omega
  | true =>
    have := h.looped hl
    simp only [getInCursorPtr, if_neg hf, hl, if_true,
      sub32_of_fits (show Fits32 (s.outCursor - s.inCursor) from ⟨by omega, by omega⟩)] at hlt ⊢
    omega

/-- From the head of the block on all free cells are offered. -/
theorem getInCursorPtr_head (h : s.Rep q) (hin : s.inCursor = 0) :
    s.freeLen ≤ s.getInCursorPtr.len := by
  have hfree := h.free
  have hnonneg := getInCursorPtr_nonneg h
  by_contra hlt
  have hcut := getInCursorPtr_cut h (by omega)
  omega

/-- The cells from the out cursor up to the end of the block hold the head of the queue. -/
theorem Rep.read_out (h : s.Rep q) {n : Nat} (hn : n ≤ q.length)
    (hend : s.outCursor + (n : Int) ≤ s.totalLen) :
    Memory.read s.mem s.outCursor n = q.take n := by
  have hout := h.out_lt
  have htot := h.total_pos
  rw [← Memory.readRing_eq_read s.mem hend,
    ← Memory.readRing_take s.mem hn h.out_nonneg hout (by omega), h.content]

/-- The region offered for sending is a prefix of the queue. -/
theorem getOutCursorPtr_eq (h : s.Rep q) (hq : q ≠ []) :
    ∃ n : Nat, s.getOutCursorPtr = ⟨some s.outCursor, n⟩ ∧ 0 < n ∧ n ≤ q.length ∧
      s.outCursor + n ≤ s.totalLen ∧ Memory.read s.mem s.outCursor n = q.take n := by
  have hne : s.totalLen ≠ s.freeLen := fun he => hq (h.isEmpty_iff.mp he)
  have hlen : 0 < q.length := List.length_pos_iff.mpr hq
  have hfr0 := h.free_nonneg
  have hin := h.in_lt
  have hin0 := h.in_nonneg
  have hout := h.out_lt
  have hout0 := h.out_nonneg
  have hfits := h.total_fits
  simp only [getOutCursorPtr, if_neg hne]
  cases hl : s.loop with
  | false =>
    have := h.straight hl
    refine ⟨q.length, ?_, hlen, le_rfl, by omega, h.read_out le_rfl (by omega)⟩
    simp only [Bool.false_eq_true, if_false, sub32_of_fits (show Fits32 (s.inCursor - s.outCursor)
      from ⟨by omega, by omega⟩), Region.mk.injEq, true_and]
    omega
  | true =>
    have := h.looped hl
    refine ⟨(s.totalLen - s.outCursor).toNat, ?_, by omega, by omega, by omega,
      h.read_out (by omega) (by omega)⟩
    simp only [if_true, sub32_of_fits (show Fits32 (s.totalLen - s.outCursor)
      from ⟨by omega, by omega⟩), Region.mk.injEq, true_and]
    omega

theorem getOutCursorPtr_empty (h : s.Rep []) : s.getOutCursorPtr = ⟨none, 0⟩ := by
  simp [getOutCursorPtr, h.isEmpty_iff.mpr rfl]

/-- The unmarked bytes, read from the use cursor. -/
theorem readRing_useCursor {m u : List UInt8} (h : s.Rep (m ++ u)) (hm : s.Marks u.length) :
    Memory.readRing s.mem s.totalLen s.useCursor u.length = u := by
  have hout := h.out_lt
  have hout0 := h.out_nonneg
  have hlen := h.length_le
  have hin := h.inCursor_eq
  have huse := hm.use_lt
  have huse0 := hm.use_nonneg
  simp only [List.length_append] at hlen hin
  push_cast at hlen
  have hpos : s.useCursor = Memory.ringPos s.totalLen s.outCursor m.length := by
    have hin' := h.in_lt
    have hin0 := h.in_nonneg
    simp only [Memory.ringPos] at hin ⊢
    push_cast at hin
    cases hl : s.useLoop with
    | false =>
      have := hm.straight hl
      split at hin <;> split <;> omega
    | true =>
      have := hm.looped hl
      split at hin <;> split <;> omega
  have hdrop := Memory.readRing_drop s.mem (show m.length ≤ (m ++ u).length by simp) hout0 hout
    (show s.outCursor + (m.length : Int) < s.totalLen + s.totalLen by omega)
  rw [h.content, List.drop_left, ← hpos, List.length_append, Nat.add_sub_cancel_left] at hdrop
  exact hdrop.symm

/-- The region offered for parsing is a prefix of the unmarked bytes; it ends at the
end of the block or holds all of them. -/
theorem getUsedCursorPtr_eq {m u : List UInt8} (h : s.Rep (m ++ u)) (hm : s.Marks u.length)
    (hu : u ≠ []) :
    ∃ n : Nat, s.getUsedCursorPtr = ⟨some s.useCursor, n⟩ ∧ 0 < n ∧ n ≤ u.length ∧
      s.useCursor + n ≤ s.totalLen ∧ Memory.read s.mem s.useCursor n = u.take n ∧
      (n < u.length → s.useCursor + n = s.totalLen) := by
  have hlen : 0 < u.length := List.length_pos_iff.mpr hu
  have hne : s.totalLen ≠ s.freeLen := by
    intro he
    have := h.isEmpty_iff.mp he
    simp_all
  have huse := hm.use_lt
  have huse0 := hm.use_nonneg
  have hin := h.in_lt
  have hin0 := h.in_nonneg
  have hfits := h.total_fits
  have hb := hm.bound
  have hfr0 := h.free_nonneg
  have hread : ∀ n : Nat, n ≤ u.length → s.useCursor + (n : Int) ≤ s.totalLen →
      Memory.read s.mem s.useCursor n = u.take n := by
    intro n hn hend
    rw [← Memory.readRing_eq_read s.mem hend,
      ← Memory.readRing_take s.mem hn huse0 huse (by omega), readRing_useCursor h hm]
  simp only [getUsedCursorPtr, if_neg hne]
  cases hl : s.useLoop with
  | false =>
    have := hm.straight hl
    refine ⟨u.length, ?_, hlen, le_rfl, by omega, hread _ le_rfl (by omega), by omega⟩
    simp only [Bool.false_eq_true, if_false, sub32_of_fits (show Fits32 (s.inCursor - s.useCursor)
      from ⟨by omega, by omega⟩), Region.mk.injEq, true_and]
    omega
  | true =>
    have := hm.looped hl
    refine ⟨(s.totalLen - s.useCursor).toNat, ?_, by omega, by omega, by omega,
      hread _ (by omega) (by omega), by omega⟩
    simp only [if_true, sub32_of_fits (show Fits32 (s.totalLen - s.useCursor)
      from ⟨by omega, by omega⟩), Region.mk.injEq, true_and]
    omega

/-- With nothing unmarked the region is empty, wherever its pointer stands. -/
theorem getUsedCursorPtr_len_zero (h : s.Rep q) (hm : s.Marks 0) :
    s.getUsedCursorPtr.len = 0 := by
  have hin := h.in_lt
  have huse := hm.use_lt
  have hin0 := h.in_nonneg
  have hfits := h.total_fits
  simp only [getUsedCursorPtr]
  split
  · rfl
  · cases hl : s.useLoop with
    | false =>
      have := hm.straight hl
      simp only [Bool.false_eq_true, if_false]
      rw [sub32_of_fits ⟨by omega, by omega⟩]
      omega
    | true =>
      have := hm.looped hl
      omega

/-! ### Filling the ring -/

/-- A free cell of the offered region is not a queued cell. -/
theorem ringPos_not_free (h : s.Rep q) {i j : Nat} (hi : i < q.length)
    (hj : (j : Int) < s.freeLen) :
    Memory.ringPos s.totalLen s.outCursor i ≠ Memory.ringPos s.totalLen s.inCursor j := by
  have hin := h.inCursor_eq
  have hin' := h.in_lt
  have hfr := h.free
  have hout := h.out_lt
  have hout0 := h.out_nonneg
  simp only [Memory.ringPos] at hin ⊢
  split at hin <;> split <;> split <;> omega

theorem Rep.pushBuff (h : s.Rep q) {xs : List UInt8} {nLen : Int} (hpos : 0 < nLen)
    (hxs : nLen ≤ xs.length) (hfree : nLen ≤ s.freeLen) (hfit : Fits32 (nLen + s.inCursor)) :
    ∃ m : Mem,
      s.pushBuff xs nLen = (true, ({ s with buff := some m } : FxLoopBuff).advanceIn nLen.toNat) ∧
      (({ s with buff := some m } : FxLoopBuff).advanceIn nLen.toNat).Rep
        (q ++ xs.take nLen.toNat) := by
  have hlen : (xs.take nLen.toNat).length = nLen.toNat := by simp; omega
  have htot := h.length_le
  have hfr := h.free
  refine ⟨_, pushBuff_eq h hpos hxs hfree hfit, ?_⟩
  have happ := h.append (show ((xs.take nLen.toNat).length : Int) ≤ s.freeLen by omega)
    (m := Memory.writeRing s.mem s.totalLen s.inCursor (xs.take nLen.toNat)) ?_ ?_
  · rwa [hlen] at happ
  · intro i hi
    exact Memory.writeRing_outside s.mem h.in_nonneg h.in_lt
      fun j hj => ringPos_not_free h hi (by omega)
  · exact Memory.readRing_writeRing s.mem h.in_nonneg h.in_lt (by omega)

/-- Writing to free cells up to the end of the block leaves the queued cells alone. -/
theorem write_free_old (h : s.Rep q) {written : List UInt8}
    (hfree : (written.length : Int) ≤ s.freeLen)
    (hend : s.inCursor + (written.length : Int) ≤ s.totalLen) {i : Nat} (hi : i < q.length) :
    Memory.write s.mem s.inCursor written (Memory.ringPos s.totalLen s.outCursor i) =
      s.mem (Memory.ringPos s.totalLen s.outCursor i) := by
  refine Memory.write_outside s.mem s.inCursor written ?_
  generalize hpos : Memory.ringPos s.totalLen s.outCursor i = p
  by_contra hc
  refine ringPos_not_free h hi (j := (p - s.inCursor).toNat) (by omega) ?_
  have hin : s.inCursor + ((p - s.inCursor).toNat : Int) = p := by omega
  rw [hpos, Memory.ringPos, hin, if_pos (by omega)]

theorem Rep.write (h : s.Rep q) {written : List UInt8}
    (hfree : (written.length : Int) ≤ s.freeLen)
    (hend : s.inCursor + (written.length : Int) ≤ s.totalLen) :
    ({ s with buff := some (Memory.write s.mem s.inCursor written) } : FxLoopBuff).Rep q := by
  refine ⟨h.total_pos, h.total_fits, rfl, h.in_nonneg, h.in_lt, h.out_nonneg, h.out_lt,
    h.free_nonneg, h.free, h.straight, h.looped, ?_⟩
  exact (Memory.readRing_congr h.out_nonneg h.out_lt h.length_le
    fun i hi => write_free_old h hfree hend hi).trans h.content

/-- `CostBuff` makes the bytes behind the in cursor part of the queue. -/
theorem Rep.cost (h : s.Rep q) {xs : List UInt8} (hpos : 0 < xs.length)
    (hfree : (xs.length : Int) ≤ s.freeLen) (hend : s.inCursor + (xs.length : Int) ≤ s.totalLen)
    (hread : Memory.read s.mem s.inCursor xs.length = xs) :
    s.costBuff xs.length = (true, s.advanceIn xs.length) ∧
      (s.advanceIn xs.length).Rep (q ++ xs) := by
  have hfits := h.total_fits
  have hin0 := h.in_nonneg
  have hself : { s with buff := some s.mem } = s := by rw [← h.alloc]
  constructor
  · exact costBuff_eq h (by omega) hfree ⟨by omega, by omega⟩
  · have happ := h.append (m := s.mem) hfree (fun _ _ => rfl)
      (by rw [Memory.readRing_eq_read s.mem hend, hread])
    rwa [hself] at happ

theorem Marks.cost {u : Nat} (hm : s.Marks u) (h : s.Rep q) {n : Nat}
    (hfree : (n : Int) ≤ s.freeLen) : (s.advanceIn n).Marks (u + n) := by
  have hself : { s with buff := some s.mem } = s := by rw [← h.alloc]
  have hadv := hm.advanceIn h s.mem hfree
  rwa [hself] at hadv

theorem Rep.copyIn (h : s.Rep q) {written : List UInt8}
    (hregion : (written.length : Int) ≤ s.getInCursorPtr.len) :
    ∃ m : Mem, s.copyIn s.getInCursorPtr.ptr written = { s with buff := some m } ∧
      ({ s with buff := some m } : FxLoopBuff).Rep q ∧
      (s.freeLen ≠ 0 → m = Memory.write s.mem s.inCursor written) := by
  by_cases hf : s.freeLen = 0
  · refine ⟨s.mem, ?_, ?_, fun hc => absurd hf hc⟩
    · rw [getInCursorPtr_full hf, FxLoopBuff.copyIn, ← h.alloc]
    · rw [← h.alloc]
      exact h
  · obtain ⟨len, hreg, _, hlenfree, hlenend⟩ := getInCursorPtr_eq h hf
    rw [hreg] at hregion ⊢
    simp only at hregion
    refine ⟨Memory.write s.mem s.inCursor written, ?_, h.write (by omega) (by omega), fun _ => rfl⟩
    rw [FxLoopBuff.copyIn, h.alloc, Option.map_some]

/-- Nothing is written. -/
theorem copyIn_nil (s : FxLoopBuff) (p : Option Int) : s.copyIn p [] = s := by
  cases p with
  | none => rfl
  | some p =>
    have hwrite : (fun m : Mem => Memory.write m p []) = id := by
      funext m a
      exact Memory.write_outside m p [] (by simp; omega)
    rw [copyIn, hwrite, Option.map_id_fun, id]

/-- `CostBuff` up to the end of the block leaves the in cursor at its head. -/
theorem costBuff_wraps (h : s.Rep q) {n : Nat} (hpos : 0 < n) (hfree : (n : Int) ≤ s.freeLen)
    (hend : s.inCursor + (n : Int) = s.totalLen) : (s.costBuff n).2.inCursor = 0 := by
  have hfits := h.total_fits
  have htotal := h.total_pos
  rw [costBuff_eq h (by omega) hfree ⟨by omega, by omega⟩, advanceIn, if_neg (by omega)]
  simp only
  omega

@[simp] theorem copyIn_inCursor (s : FxLoopBuff) (p : Option Int) (xs : List UInt8) :
    (s.copyIn p xs).inCursor = s.inCursor := by
  cases p <;> rfl

/-- `CostBuff` does not look at the bytes. -/
theorem costBuff_copyIn (s : FxLoopBuff) (p : Option Int) (xs : List UInt8) (nLen : Int) :
    ((s.copyIn p xs).costBuff nLen).2 = (s.costBuff nLen).2.copyIn p xs := by
  cases p with
  | none => rfl
  | some p =>
    by_cases hpos : 0 ≥ nLen
    · simp [copyIn, costBuff, hpos]
    · by_cases hfull : nLen > s.freeLen
      · simp [copyIn, costBuff, hpos, hfull]
      · by_cases hlow : add32 nLen s.inCursor < s.totalLen
        · simp [copyIn, costBuff, hpos, hfull, hlow]
        · simp [copyIn, costBuff, hpos, hfull, hlow]

theorem Rep.costBuff (h : s.Rep q) {written : List UInt8} {nLen : Int} (hpos : 0 < nLen)
    (hlen : nLen ≤ written.length) (hregion : (written.length : Int) ≤ s.getInCursorPtr.len)
    (hfit : Fits32 (nLen + s.inCursor)) :
    ∃ m : Mem,
      (s.copyIn s.getInCursorPtr.ptr written).costBuff nLen =
        (true, ({ s with buff := some m } : FxLoopBuff).advanceIn nLen.toNat) ∧
      (({ s with buff := some m } : FxLoopBuff).advanceIn nLen.toNat).Rep
        (q ++ written.take nLen.toNat) := by
  have hf : s.freeLen ≠ 0 := by
    intro hf
    rw [getInCursorPtr_full hf] at hregion
    simp only at hregion
    omega
  obtain ⟨m, hcopy, hrep, hm⟩ := h.copyIn hregion
  obtain ⟨len, hreg, _, hlenfree, hlenend⟩ := getInCursorPtr_eq h hf
  rw [hreg] at hregion
  simp only at hregion
  have htake : (written.take nLen.toNat).length = nLen.toNat := by simp; omega
  have hread : Memory.read m s.inCursor nLen.toNat = written.take nLen.toNat := by
    rw [hm hf, ← Memory.read_take _ _ (show nLen.toNat ≤ written.length by omega),
      Memory.read_write_same]
  refine ⟨m, ?_, ?_⟩
  · rw [hcopy]
    exact costBuff_eq hrep hpos (by simp only; omega) hfit
  · generalize written.take nLen.toNat = xs at htake hread ⊢
    have hread' : Memory.read m s.inCursor xs.length = xs := by rw [htake, hread]
    have hcost := hrep.cost (by omega) (by simp only; omega) (by simp only; omega) hread'
    rw [htake] at hcost
    exact hcost.2

end FxLoopBuff
