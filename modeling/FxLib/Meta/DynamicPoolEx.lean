import Mathlib.Data.List.Nodup
import Mathlib.Data.List.Range
import Mathlib.Logic.Function.Basic
import FxLib.Lib.MachineInt
import FxLib.Lib.Transition

/-!
# The object pool

`TDynamicPoolEx` of `meta_header/dynamicpoolex.h`. Objects are numbered in the order in which
`new` makes them. `out` is the list of the objects that are handed out: what `FetchObj` has
returned and no release has named since.
-/

open MachineInt

structure TDynamicPoolEx where
  growCount : Nat
  maxCount : Nat
  nowAllCount : Nat
  /-- The two locks exist. -/
  locks : Bool
  byRef : Nat → UInt8
  listFree : List Nat
  /-- The blocks, by their first object and their length. -/
  listAll : List (Nat × Nat)
  /-- How many objects `new` has made. -/
  allocated : Nat

namespace TDynamicPoolEx

def new : TDynamicPoolEx := ⟨0, 0, 0, false, fun _ => 0, [], [], 0⟩

/-! ### The sections under a lock -/

/-- The tests of `_AllocT` before it takes the lock. -/
def mayGrow (p : TDynamicPoolEx) (dwCount : Nat) : Bool :=
  dwCount ≠ 0 ∧ ¬ (p.maxCount ≠ 0 ∧ p.nowAllCount ≥ p.maxCount)

def newCount (p : TDynamicPoolEx) (dwCount : Nat) : Nat :=
  if p.maxCount ≠ 0 then
    if (dwCount + p.nowAllCount) % 4294967296 ≥ p.maxCount then
      toUInt32 (p.maxCount - p.nowAllCount)
    else dwCount
  else dwCount

/-- `_AllocT` under the free lock; the new block, unless the free list was not empty. -/
def grow (p : TDynamicPoolEx) (dwCount : Nat) : Option (Nat × Nat) × TDynamicPoolEx :=
  if p.listFree ≠ [] then (none, p)
  else
    let dwNewCount := p.newCount dwCount
    let block := List.range' p.allocated dwNewCount
    (some (p.allocated, dwNewCount), { p with
      nowAllCount := (p.nowAllCount + dwNewCount) % 4294967296
      byRef := fun o => if o ∈ block then 0 else p.byRef o
      listFree := p.listFree ++ block
      allocated := p.allocated + dwNewCount })

/-- `_AllocT` under the allocation lock. -/
def recordBlock (p : TDynamicPoolEx) (block : Nat × Nat) : TDynamicPoolEx :=
  { p with listAll := p.listAll ++ [block] }

/-- `FetchObj` from `front()` to `pop_front()`; `none` when the free list is empty. -/
def takeFront (p : TDynamicPoolEx) : Option (Option Nat × TDynamicPoolEx) :=
  match p.listFree with
  | [] => none
  | o :: listFree =>
    if 0 ≠ p.byRef o then some (none, p)
    else some (some o, { p with
      byRef := Function.update p.byRef o (p.byRef o + 1), listFree := listFree })

/-- `ReleaseObj` under the free lock. -/
def putBack (p : TDynamicPoolEx) (o : Nat) : TDynamicPoolEx :=
  if 0 ≠ (p.byRef o).toNat - (1 : Int) then p
  else { p with
    byRef := Function.update p.byRef o (p.byRef o - 1), listFree := p.listFree ++ [o] }

/-! ### One thread -/

def allocT (p : TDynamicPoolEx) (dwCount : Nat) : Bool × TDynamicPoolEx :=
  if p.mayGrow dwCount = false then (false, p)
  else
    match p.grow dwCount with
    | (none, p) => (true, p)
    | (some block, p) => (true, p.recordBlock block)

def init (p : TDynamicPoolEx) (dwInitCount dwGrowCount dwMaxCount : Nat) :
    Bool × TDynamicPoolEx :=
  if dwMaxCount ≠ 0 ∧ dwMaxCount < dwInitCount then (false, p)
  else
    { p with maxCount := dwMaxCount, growCount := dwGrowCount, locks := true }.allocT dwInitCount

/-- `none` where the program goes through a null pointer. -/
def fetchObj (p : TDynamicPoolEx) : Option (Option Nat × TDynamicPoolEx) :=
  if p.locks = false then none
  else if p.listFree = [] then
    let answer := p.allocT p.growCount
    if answer.1 then answer.2.takeFront else some (none, answer.2)
  else p.takeFront

def releaseObj (p : TDynamicPoolEx) (pObj : Option Nat) : Option TDynamicPoolEx :=
  match pObj with
  | none => some p
  | some o => if p.locks = false then none else some (p.putBack o)

/-! ### The invariant -/

/-- The counts whose sums the pool computes do not overflow. -/
structure Fits (p : TDynamicPoolEx) (dwCount : Nat) : Prop where
  count : p.maxCount ≠ 0 → dwCount + p.maxCount < 4294967296

structure Sound (p : TDynamicPoolEx) (out : List Nat) : Prop where
  nodup : (p.listFree ++ out).Nodup
  covers : ∀ o, o ∈ p.listFree ++ out ↔ o < p.allocated
  free_ref : ∀ o ∈ p.listFree, p.byRef o = 0
  out_ref : ∀ o ∈ out, p.byRef o = 1
  count : p.nowAllCount = p.allocated % 4294967296
  bounded : p.maxCount ≠ 0 → p.allocated ≤ p.maxCount

variable {p : TDynamicPoolEx} {out : List Nat} {dwCount : Nat}

/-- The constants of `Init` are the same. -/
structure SameCounts (p p' : TDynamicPoolEx) : Prop where
  growCount : p'.growCount = p.growCount
  maxCount : p'.maxCount = p.maxCount
  locks : p'.locks = p.locks

theorem SameCounts.trans {p p' p'' : TDynamicPoolEx} (h : SameCounts p p')
    (h' : SameCounts p' p'') : SameCounts p p'' := ⟨h'.1.trans h.1, h'.2.trans h.2, h'.3.trans h.3⟩

theorem SameCounts.fits {p p' : TDynamicPoolEx} (h : SameCounts p p') (hfits : p.Fits p.growCount) :
    p'.Fits p'.growCount := by
  refine ⟨?_⟩
  rw [h.growCount, h.maxCount]
  exact hfits.count

theorem sound_new : new.Sound [] :=
  ⟨List.nodup_nil, by simp [new], by simp [new], by simp, rfl, fun _ => le_rfl⟩

/-- The front of the free list belongs to nobody. -/
theorem Sound.takeFront (h : p.Sound out) (hne : p.listFree ≠ []) :
    ∃ o p', p.takeFront = some (some o, p') ∧ o ∉ out ∧ p'.Sound (o :: out) ∧
      p'.listFree = p.listFree.tail ∧ SameCounts p p' := by
  obtain ⟨o, rest, hfree⟩ := List.exists_cons_of_ne_nil hne
  have hnodup := h.nodup
  rw [hfree, List.cons_append, List.nodup_cons] at hnodup
  have hzero := h.free_ref o (by rw [hfree]; exact List.mem_cons_self)
  refine ⟨o, { p with byRef := Function.update p.byRef o 1, listFree := rest }, ?_,
    fun hout => hnodup.1 (List.mem_append_right _ hout), ⟨?_, ?_, ?_, ?_, h.count, h.bounded⟩,
    by rw [hfree, List.tail_cons], ⟨rfl, rfl, rfl⟩⟩
  · rw [TDynamicPoolEx.takeFront, hfree]
    simp only [hzero]
    rw [if_neg (by simp), UInt8.zero_add]
  · refine List.nodup_middle.mpr (List.nodup_cons.mpr hnodup)
  · intro a
    rw [← h.covers a, hfree]
    simp only [List.mem_append, List.mem_cons]
    tauto
  · intro a ha
    have hne : a ≠ o := fun hc => hnodup.1 (List.mem_append_left _ (hc ▸ ha))
    simp only [Function.update_of_ne hne]
    exact h.free_ref a (by rw [hfree]; exact List.mem_cons_of_mem _ ha)
  · intro a ha
    rcases List.mem_cons.mp ha with rfl | ha
    · simp only [Function.update_self]
    · have hne : a ≠ o := fun hc => hnodup.1 (List.mem_append_right _ (hc ▸ ha))
      simp only [Function.update_of_ne hne]
      exact h.out_ref a ha

/-- A release of a free object changes nothing. -/
theorem Sound.putBack_free (h : p.Sound out) {o : Nat} (ho : o ∈ p.listFree) : p.putBack o = p := by
  rw [putBack, h.free_ref o ho, if_pos (by decide)]

theorem Sound.putBack (h : p.Sound out) {o : Nat} (ho : o < p.allocated) :
    (p.putBack o).Sound (out.erase o) := by
  rcases List.mem_append.mp ((h.covers o).mpr ho) with hfree | hout
  · have hnot : o ∉ out := fun hc => List.disjoint_of_nodup_append h.nodup hfree hc
    rw [h.putBack_free hfree, List.erase_of_not_mem hnot]
    exact h
  · have hone := h.out_ref o hout
    have hperm := List.perm_cons_erase hout
    have hnodup : (p.listFree ++ o :: out.erase o).Nodup :=
      (List.Perm.append_left p.listFree hperm).nodup_iff.mp h.nodup
    rw [TDynamicPoolEx.putBack, hone, if_neg (by decide)]
    rw [List.nodup_middle, List.nodup_cons] at hnodup
    refine ⟨?_, ?_, ?_, ?_, h.count, h.bounded⟩
    · simp only [List.append_assoc, List.singleton_append]
      exact List.nodup_middle.mpr (List.nodup_cons.mpr hnodup)
    · intro a
      rw [← h.covers a]
      simp only [List.append_assoc, List.singleton_append]
      exact (List.Perm.append_left p.listFree hperm).mem_iff.symm
    · intro a ha
      rcases List.mem_append.mp ha with ha | ha
      · have hne : a ≠ o := fun hc => hnodup.1 (List.mem_append_left _ (hc ▸ ha))
        simp only [Function.update_of_ne hne]
        exact h.free_ref a ha
      · obtain rfl := List.mem_singleton.mp ha
        simp only [Function.update_self, UInt8.sub_self]
    · intro a ha
      have hne : a ≠ o := fun hc => hnodup.1 (List.mem_append_right _ (hc ▸ ha))
      simp only [Function.update_of_ne hne]
      exact h.out_ref a (List.mem_of_mem_erase ha)

/-- How many objects a growing pool gets, at most up to its maximum. -/
theorem Sound.newCount (h : p.Sound out) (hfits : p.Fits dwCount) :
    p.newCount dwCount =
      if p.maxCount = 0 then dwCount else min dwCount (p.maxCount - p.allocated) := by
  rw [TDynamicPoolEx.newCount]
  by_cases hmax : p.maxCount = 0
  · rw [if_neg (by simpa using hmax), if_pos hmax]
  · have hbounded := h.bounded hmax
    have hsum := hfits.count hmax
    have hcount : p.nowAllCount = p.allocated := by
      rw [h.count, Nat.mod_eq_of_lt (by omega)]
    rw [if_pos hmax, if_neg hmax, hcount, Nat.mod_eq_of_lt (by omega)]
    have hrest : toUInt32 ((p.maxCount : Int) - (p.allocated : Nat)) =
        p.maxCount - p.allocated := by
      simp [toUInt32]
      omega
    rw [hrest]
    split <;> omega

theorem Sound.grow (h : p.Sound out) (hfits : p.Fits dwCount) : (p.grow dwCount).2.Sound out := by
  rw [TDynamicPoolEx.grow]
  by_cases hne : p.listFree = []
  · rw [if_neg (not_not.mpr hne)]
    have hcovers := h.covers
    have hnodup := h.nodup
    have hnew := h.newCount hfits
    rw [hne, List.nil_append] at hcovers hnodup
    generalize p.newCount dwCount = n at hnew
    have hold : ∀ o ∈ out, o ∉ List.range' p.allocated n := by
      intro o ho hc
      have := (hcovers o).mp ho
      have := (List.mem_range'_1.mp hc).1
      omega
    simp only [hne, List.nil_append]
    refine ⟨?_, ?_, ?_, ?_, ?_, ?_⟩
    · exact List.nodup_append_comm.mp (List.Nodup.append hnodup List.nodup_range' fun a ha hb =>
        hold a ha hb)
    · intro o
      simp only [List.mem_append, List.mem_range'_1, hcovers o]
      omega
    · intro o ho
      simp only [if_pos ho]
    · intro o ho
      simp only [if_neg (hold o ho)]
      exact h.out_ref o ho
    · simp only [h.count]
      omega
    · intro hmax
      have := h.bounded hmax
      rw [if_neg hmax] at hnew
      simp only
      omega
  · rw [if_pos hne]
    exact h

theorem grow_counts (p : TDynamicPoolEx) (dwCount : Nat) :
    SameCounts p (p.grow dwCount).2 := by
  rw [TDynamicPoolEx.grow]
  split <;> exact ⟨rfl, rfl, rfl⟩

/-- While the maximum is not reached there is a free object afterwards. -/
theorem Sound.grow_nonempty (h : p.Sound out) (hfits : p.Fits dwCount)
    (hgrow : p.mayGrow dwCount = true) : (p.grow dwCount).2.listFree ≠ [] := by
  rw [TDynamicPoolEx.grow]
  by_cases hne : p.listFree = []
  · rw [if_neg (not_not.mpr hne)]
    have hnew := h.newCount hfits
    simp only [mayGrow, decide_eq_true_eq] at hgrow
    have hpos : 0 < p.newCount dwCount := by
      rw [hnew]
      by_cases hmax : p.maxCount = 0
      · rw [if_pos hmax]
        omega
      · have hbounded := h.bounded hmax
        have hsum := hfits.count hmax
        have hcount : p.nowAllCount = p.allocated := by
          rw [h.count, Nat.mod_eq_of_lt (by omega)]
        have hlt : ¬ p.nowAllCount ≥ p.maxCount := fun hc => hgrow.2 ⟨hmax, hc⟩
        rw [if_neg hmax]
        omega
    simp only [hne, List.nil_append]
    intro hc
    have := congrArg List.length hc
    rw [List.length_range', List.length_nil] at this
    omega
  · rw [if_pos hne]
    exact hne

/-! ### Runs of one thread -/

theorem putBack_counts (p : TDynamicPoolEx) (o : Nat) :
    SameCounts p (p.putBack o) ∧ (p.putBack o).allocated = p.allocated := by
  rw [putBack]
  split <;> exact ⟨⟨rfl, rfl, rfl⟩, rfl⟩

theorem Sound.recordBlock (h : p.Sound out) (block : Nat × Nat) : (p.recordBlock block).Sound out :=
  ⟨h.nodup, h.covers, h.free_ref, h.out_ref, h.count, h.bounded⟩

theorem allocT_counts (p : TDynamicPoolEx) (dwCount : Nat) : SameCounts p (p.allocT dwCount).2 := by
  have hsame := p.grow_counts dwCount
  rw [TDynamicPoolEx.allocT]
  split_ifs
  · exact ⟨rfl, rfl, rfl⟩
  · generalize p.grow dwCount = answer at hsame
    obtain ⟨block, p'⟩ := answer
    cases block with
    | none => exact hsame
    | some block => exact ⟨hsame.1, hsame.2, hsame.3⟩

/-- `_AllocT` answers true only when the free list is not empty. -/
theorem Sound.allocT (h : p.Sound out) (hfits : p.Fits dwCount) :
    (p.allocT dwCount).2.Sound out ∧ SameCounts p (p.allocT dwCount).2 ∧
      ((p.allocT dwCount).1 = true → (p.allocT dwCount).2.listFree ≠ []) := by
  rw [TDynamicPoolEx.allocT]
  by_cases hgrow : p.mayGrow dwCount = false
  · rw [if_pos hgrow]
    exact ⟨h, ⟨rfl, rfl, rfl⟩, fun hc => absurd hc (by simp)⟩
  · rw [if_neg hgrow]
    have hsound := h.grow hfits
    have hfull := h.grow_nonempty hfits (by simpa using hgrow)
    have hsame := p.grow_counts dwCount
    generalize p.grow dwCount = answer at hsound hfull hsame
    obtain ⟨block, p'⟩ := answer
    cases block with
    | none => exact ⟨hsound, hsame, fun _ => hfull⟩
    | some block => exact ⟨hsound.recordBlock block, ⟨hsame.1, hsame.2, hsame.3⟩, fun _ => hfull⟩

/-- What `FetchObj` answers: an object that belongs to nobody, or NULL. -/
inductive Fetched (p : TDynamicPoolEx) (out : List Nat) :
    Option (Option Nat × TDynamicPoolEx) → Prop
  | object (o : Nat) (p' : TDynamicPoolEx) (hout : o ∉ out) (sound : p'.Sound (o :: out))
      (same : SameCounts p p') : Fetched p out (some (some o, p'))
  | null (p' : TDynamicPoolEx) (sound : p'.Sound out) (same : SameCounts p p') :
      Fetched p out (some (none, p'))

theorem Sound.fetched (h : p.Sound out) (hne : p.listFree ≠ []) : Fetched p out p.takeFront := by
  obtain ⟨o, p', htake, hout, hsound, _, hsame⟩ := h.takeFront hne
  rw [htake]
  exact .object o p' hout hsound hsame

theorem Sound.fetchObj (h : p.Sound out) (hfits : p.Fits p.growCount) (hlocks : p.locks = true) :
    Fetched p out p.fetchObj := by
  rw [TDynamicPoolEx.fetchObj, if_neg (by simp [hlocks])]
  by_cases hempty : p.listFree = []
  · rw [if_pos hempty]
    obtain ⟨hsound, hsame, hfull⟩ := h.allocT hfits
    simp only
    by_cases hok : (p.allocT p.growCount).1 = true
    · rw [if_pos hok]
      obtain ⟨o, p', htake, hout, hsound', _, hsame'⟩ := hsound.takeFront (hfull hok)
      rw [htake]
      exact .object o p' hout hsound' (hsame.trans hsame')
    · rw [if_neg hok]
      exact .null _ hsound hsame
  · rw [if_neg hempty]
    exact h.fetched hempty

/-- A pool without a maximum that grows answers an object. -/
theorem Sound.fetchObj_object (h : p.Sound out) (hmax : p.maxCount = 0) (hgrow : p.growCount ≠ 0)
    (hlocks : p.locks = true) :
    ∃ o p', p.fetchObj = some (some o, p') ∧ o ∉ out ∧ p'.Sound (o :: out) ∧ SameCounts p p' := by
  have hfits : p.Fits p.growCount := ⟨fun hc => absurd hmax hc⟩
  have hgrows : p.mayGrow p.growCount = true := by
    simp [mayGrow, hmax, hgrow]
  have hok : (p.allocT p.growCount).1 = true := by
    rw [TDynamicPoolEx.allocT, if_neg (by simp [hgrows])]
    split <;> rfl
  rw [TDynamicPoolEx.fetchObj, if_neg (by simp [hlocks])]
  by_cases hempty : p.listFree = []
  · rw [if_pos hempty]
    obtain ⟨hsound, hsame, hfull⟩ := h.allocT hfits
    obtain ⟨o, p', htake, hout, hsound', _, hsame'⟩ := hsound.takeFront (hfull hok)
    exact ⟨o, p', by simp only [hok, if_true, htake], hout, hsound', hsame.trans hsame'⟩
  · rw [if_neg hempty]
    obtain ⟨o, p', htake, hout, hsound, _, hsame⟩ := h.takeFront hempty
    exact ⟨o, p', htake, hout, hsound, hsame⟩

/-- A pool with the objects that are handed out. -/
structure InUse where
  pool : TDynamicPoolEx
  out : List Nat

inductive PoolOp where
  | fetch
  | release (pObj : Option Nat)

/-- A release names NULL or an object of the pool. -/
def OfPool (s : InUse) : PoolOp → Prop
  | .fetch | .release none => True
  | .release (some o) => o < s.pool.allocated

def step (s : InUse) : PoolOp → Option InUse
  | .fetch =>
    match s.pool.fetchObj with
    | none => none
    | some (none, pool) => some ⟨pool, s.out⟩
    | some (some o, pool) => some ⟨pool, o :: s.out⟩
  | .release none => (s.pool.releaseObj none).map fun pool => ⟨pool, s.out⟩
  | .release (some o) => (s.pool.releaseObj (some o)).map fun pool => ⟨pool, s.out.erase o⟩

/-- `Init` on a new pool. -/
def start (dwInitCount dwGrowCount dwMaxCount : Nat) : InUse :=
  ⟨(new.init dwInitCount dwGrowCount dwMaxCount).2, []⟩

/-- What holds between two calls. -/
structure Kept (s : InUse) : Prop where
  sound : s.pool.Sound s.out
  fits : s.pool.Fits s.pool.growCount

theorem kept_start {dwInitCount dwGrowCount dwMaxCount : Nat}
    (hinit : dwInitCount + dwMaxCount < 4294967296)
    (hgrow : dwGrowCount + dwMaxCount < 4294967296) :
    Kept (start dwInitCount dwGrowCount dwMaxCount) := by
  rw [start, init]
  split
  · exact ⟨sound_new, ⟨fun hmax => absurd rfl hmax⟩⟩
  · have hsound : ({ new with maxCount := dwMaxCount, growCount := dwGrowCount, locks := true } :
        TDynamicPoolEx).Sound [] :=
      ⟨sound_new.nodup, sound_new.covers, sound_new.free_ref, sound_new.out_ref, rfl,
        fun _ => Nat.zero_le _⟩
    have hfits : ({ new with maxCount := dwMaxCount, growCount := dwGrowCount, locks := true } :
        TDynamicPoolEx).Fits dwInitCount := ⟨fun _ => hinit⟩
    obtain ⟨halloc, hsame, _⟩ := hsound.allocT hfits
    exact ⟨halloc, hsame.fits ⟨fun _ => hgrow⟩⟩

theorem Kept.step {s s' : InUse} {op : PoolOp} (h : Kept s) (hop : OfPool s op)
    (hstep : step s op = some s') : Kept s' := by
  cases op with
  | fetch =>
    by_cases hlocks : s.pool.locks = true
    · have hfetch := h.sound.fetchObj h.fits hlocks
      simp only [TDynamicPoolEx.step] at hstep
      generalize s.pool.fetchObj = answer at hfetch hstep
      cases hfetch with
      | object o p' hout sound same =>
        obtain rfl := Option.some.inj hstep
        exact ⟨sound, same.fits h.fits⟩
      | null p' sound same =>
        obtain rfl := Option.some.inj hstep
        exact ⟨sound, same.fits h.fits⟩
    · simp only [TDynamicPoolEx.step, fetchObj] at hstep
      rw [if_pos (by simpa using hlocks)] at hstep
      cases hstep
  | release pObj =>
    cases pObj with
    | none =>
      obtain rfl := Option.some.inj hstep
      exact h
    | some o =>
      simp only [TDynamicPoolEx.step, releaseObj] at hstep
      split at hstep
      · cases hstep
      · obtain rfl := Option.some.inj hstep
        exact ⟨h.sound.putBack hop, (s.pool.putBack_counts o).1.fits h.fits⟩

/-- The safety of the pool. -/
structure Safe (s : InUse) : Prop where
  free_nodup : s.pool.listFree.Nodup
  free_not_out : ∀ o ∈ s.pool.listFree, o ∉ s.out
  covered : ∀ o, o < s.pool.allocated → o ∈ s.pool.listFree ∨ o ∈ s.out
  free_ref : ∀ o ∈ s.pool.listFree, s.pool.byRef o = 0
  bounded : s.pool.maxCount ≠ 0 → s.pool.allocated ≤ s.pool.maxCount
  fetched : ∀ o pool, s.pool.fetchObj = some (some o, pool) → o ∉ s.out
  released : ∀ o ∈ s.pool.listFree, ∀ pool, s.pool.releaseObj (some o) = some pool → pool = s.pool

theorem Kept.safe {s : InUse} (h : Kept s) : Safe s := by
  have hsound := h.sound
  refine ⟨(List.nodup_append.mp hsound.nodup).1, ?_, ?_, hsound.free_ref, hsound.bounded, ?_, ?_⟩
  · exact fun o hfree hout => List.disjoint_of_nodup_append hsound.nodup hfree hout
  · exact fun o ho => List.mem_append.mp ((hsound.covers o).mpr ho)
  · intro o pool hfetch
    by_cases hlocks : s.pool.locks = true
    · have hfetched := hsound.fetchObj h.fits hlocks
      rw [hfetch] at hfetched
      cases hfetched with
      | object o p' hout sound same => exact hout
    · rw [fetchObj, if_pos (by simpa using hlocks)] at hfetch
      cases hfetch
  · intro o ho pool hrelease
    simp only [releaseObj] at hrelease
    split at hrelease
    · cases hrelease
    · rw [← Option.some.inj hrelease, hsound.putBack_free ho]

/-- After any `Init`, in every state that fetches and releases reach. -/
theorem pool_safe {dwInitCount dwGrowCount dwMaxCount : Nat} {ops : List PoolOp} {s : InUse}
    (hinit : dwInitCount + dwMaxCount < 4294967296)
    (hgrow : dwGrowCount + dwMaxCount < 4294967296)
    (hops : Transition.Always step OfPool (start dwInitCount dwGrowCount dwMaxCount) ops)
    (hrun : Transition.run step (start dwInitCount dwGrowCount dwMaxCount) ops = some s) :
    Safe s :=
  (Transition.invariant_of_always (fun _ _ _ h hop hstep => Kept.step h hop hstep)
    (kept_start hinit hgrow) hops hrun).safe

instance (s : InUse) : (op : PoolOp) → Decidable (OfPool s op)
  | .fetch => inferInstanceAs (Decidable True)
  | .release none => inferInstanceAs (Decidable True)
  | .release (some _) => inferInstanceAs (Decidable (_ < _))

/-- The pool grows once up to its maximum; an object is released twice and fetched again. -/
theorem pool_safe_grown :
    ∃ s, Transition.run step (start 1 4 3)
        [.fetch, .fetch, .release (some 0), .release (some 0), .fetch, .fetch, .fetch] = some s ∧
      Safe s := by
  obtain ⟨s, hrun⟩ : ∃ s, Transition.run step (start 1 4 3)
      [.fetch, .fetch, .release (some 0), .release (some 0), .fetch, .fetch, .fetch] = some s :=
    Option.isSome_iff_exists.mp (by decide +kernel)
  exact ⟨s, hrun, pool_safe (by decide) (by decide) (by decide +kernel) hrun⟩

end TDynamicPoolEx
