import FxLib.Lib.While
import FxLib.Net.RecvScan

/-!
# The invariant of the frame loops

`Scan X p m done rest part n`: of the unmarked bytes the loop has consumed `done` and
not yet marked it, the next `n` bytes of `rest` are the part of the region still to be
parsed. Each branch of a loop body has one lemma that says how it moves over `rest`.
-/

open MachineInt

namespace Parse

open RecvSock

variable {η : Type}

/-- Either no frame is in progress, or `part` marked and `used` consumed bytes belong to it. -/
structure Frame (s : RecvSock η) (used part : Nat) : Prop where
  idle : s.needData = 0 → used = 0 ∧ part = 0
  progress : s.needData ≠ 0 → 0 < s.needData ∧ s.needData < 2147483648 ∧
    part + used + s.needData = s.packetLen

structure Scan (X : RecvSock η → Prop) (p : Parse η) (m done rest : List UInt8) (part n : Nat) :
    Prop where
  holds : Holds X p.sock m (done ++ rest) part
  used : p.nUsedLen = done.length
  len : p.nLen = n
  fits : n ≤ rest.length
  parser_nonneg : 0 ≤ p.nParserLen
  region : p.nParserLen + n ≤ p.nRegion
  region_le : p.nRegion ≤ p.sock.recvBuf.totalLen
  cursor : 0 < n → p.pUseBuf + p.nParserLen = p.sock.recvBuf.useCursor + done.length
  inside : 0 < n → p.sock.recvBuf.useCursor + done.length + n ≤ p.sock.recvBuf.totalLen
  whole : 0 < n → n < rest.length →
    p.sock.recvBuf.useCursor + done.length + n = p.sock.recvBuf.totalLen
  frame : p.exit ≠ .returned → Frame p.sock done.length part

variable {procRecv : ProcRecv η} {X : RecvSock η → Prop} {p : Parse η}
  {m done rest : List UInt8} {part n : Nat}

theorem Scan.bounded (h : Scan X p m done rest part n) :
    (done.length : Int) + rest.length ≤ p.sock.recvBuf.totalLen ∧
      p.sock.recvBuf.totalLen ≤ 1073741824 := by
  have hlen := h.holds.rep.length_le
  simp only [List.length_append, Nat.cast_add] at hlen
  exact ⟨by omega, h.holds.small⟩

/-- What the parse pointer sees is what comes next. -/
theorem Scan.read (h : Scan X p m done rest part n) (hpos : 0 < n) {k : Nat} (hk : k ≤ n) :
    Memory.read p.parseBuf 0 k = rest.take k := by
  have hin := h.inside hpos
  have hfits := h.fits
  rw [Parse.parseBuf, Memory.read_at, Int.add_zero, h.cursor hpos,
    h.holds.read_use (by simp; omega) (by push_cast; omega), List.drop_left]

/-! ### Finishing a frame -/

/-- What an iteration that announces a frame leaves alone, and what it does not. -/
structure Announced (p q : Parse η) (len : Int) : Prop where
  needData : q.sock.needData = 0
  taken : q.sock.taken = p.sock.taken
  header : q.sock.header = p.sock.header
  announced : recvLens q.sock.announced = recvLens p.sock.announced ++ [toUInt32 len]
  exit : q.exit = p.exit

/-- `X` still holds once the frame is announced. -/
def MayAnnounce (X : RecvSock η → Prop) (s : RecvSock η) (rest : List UInt8) (len : Int) : Prop :=
  ∀ t m', Holds X t m' rest len.toNat → SameFrame s t → X (t.pushNetEvent .recv len)

theorem Holds.announce {s : RecvSock η} {w : List UInt8} {len : Int} (h : Holds X s m w len.toNat)
    (hside : MainSide procRecv X) (hlen : 0 ≤ len) (hlt : len < 4294967296)
    (hX : X (s.pushNetEvent .recv len)) :
    Holds X { s.pushNetEvent .recv len with needData := 0, packetLen := 0 } m w 0 := by
  refine ⟨h.rep, h.marks, h.small, h.taken, ?_, hside.io _ _ rfl hX⟩
  have hpend := h.pending
  have huint := toUInt32_of_nonneg hlen hlt
  simp only [(lens_pushRecv s len).1, List.sum_append, List.sum_cons, List.sum_nil]
  omega

/-- The next `k` bytes complete the frame in progress. -/
theorem Scan.completeFrame (h : Scan X p m done rest part n) (hside : MainSide procRecv X)
    {k : Nat} (hpos : 0 < k) (hk : k ≤ n)
    (hlen : part + done.length + k = p.sock.packetLen) (hlt : p.sock.packetLen < 4294967296)
    (hX : MayAnnounce X p.sock (rest.drop k) p.sock.packetLen) :
    ∃ m' q, { p with nParserLen := add32 p.nParserLen k }.completeFrame procRecv k = q ∧
      Scan X q m' [] (rest.drop k) 0 (n - k) ∧ Announced p q p.sock.packetLen := by
  obtain ⟨hbound, hsmall⟩ := h.bounded
  have hfits := h.fits
  have hregion := h.region
  have hregionle := h.region_le
  have hparser := h.parser_nonneg
  have hin := h.inside (by omega)
  have hcursor := h.cursor (by omega)
  have hused : add32 p.nUsedLen k = ((done.length + k : Nat) : Int) := by
    rw [h.used, add32_of_fits ⟨by omega, by omega⟩]
    push_cast
    rfl
  have hn : sub32 p.nLen k = ((n - k : Nat) : Int) := by
    rw [h.len, sub32_of_fits ⟨by omega, by omega⟩]
    omega
  have hparse : add32 p.nParserLen k = p.nParserLen + k := add32_of_fits ⟨by omega, by omega⟩
  obtain ⟨m', s', hcost, hholds, hframe, htotal, hlow, hwrap⟩ :=
    h.holds.costUsedBuff hside (n := done.length + k) (by omega) (by simp; omega)
  rw [List.drop_append, Nat.add_sub_cancel_left, List.drop_of_length_le (by omega),
    List.nil_append] at hholds
  have htoNat : part + (done.length + k) = p.sock.packetLen.toNat := by omega
  rw [htoNat] at hholds
  have hann := hX s' _ hholds hframe
  rw [← hframe.packetLen] at hholds hann hlt hlen
  have hdone := Holds.announce hholds hside (by omega) hlt hann
  have hcostUsed : s'.recvBuf.totalLen = p.sock.recvBuf.totalLen := htotal
  refine ⟨m' ++ (done ++ rest).take (done.length + k), _, rfl, ?_, ?_⟩
  · simp only [Parse.completeFrame, costUsed, announce, hused, hn, hparse, hcost]
    refine ⟨hdone, rfl, rfl, by simp; omega, by simp only; omega, by simp only; omega, ?_, ?_, ?_,
      ?_, ?_⟩
    · simp only [pushNetEvent]
      omega
    · intro hrest
      have := hlow (by push_cast; omega)
      simp only [pushNetEvent, List.length_nil]
      push_cast at this ⊢
      omega
    · intro hrest
      have := hlow (by push_cast; omega)
      simp only [pushNetEvent, List.length_nil]
      push_cast at this ⊢
      omega
    · intro hrest hcut
      have := hlow (by push_cast; omega)
      have hwhole := h.whole (by omega) (by simp at hcut; omega)
      simp only [pushNetEvent, List.length_nil]
      push_cast at this ⊢
      omega
    · intro _
      exact ⟨fun _ => ⟨rfl, rfl⟩, fun hc => absurd rfl hc⟩
  · simp only [Parse.completeFrame, costUsed, announce, hused, hn, hparse, hcost]
    refine ⟨rfl, hframe.taken, hframe.header, ?_, rfl⟩
    rw [← hframe.announced, ← hframe.packetLen]
    exact (lens_pushRecv s' _).2

/-- The rest of the region belongs to a frame of which `need` bytes are still missing. -/
theorem Scan.keepPartial (h : Scan X p m done rest part n) (hside : MainSide procRecv X)
    {need : Int} (hpos : 0 < need) (hlt : need < 2147483648)
    (hlen : part + done.length + n + need = p.sock.packetLen) :
    Scan X (p.keepPartial need) m (done ++ rest.take n) (rest.drop n) part 0 := by
  obtain ⟨hbound, hsmall⟩ := h.bounded
  have hfits := h.fits
  have hregion := h.region
  have hold := h.holds
  have htake : (rest.take n).length = n := by simp; omega
  have hused : add32 p.nUsedLen p.nLen = ((done ++ rest.take n).length : Int) := by
    rw [h.used, h.len, add32_of_fits ⟨by omega, by omega⟩, List.length_append, htake]
    push_cast
    rfl
  refine ⟨⟨?_, ?_, hold.small, ?_, hold.pending, hside.io _ _ rfl hold.side⟩, hused, rfl,
    Nat.zero_le _, h.parser_nonneg, by simp only [Parse.keepPartial]; omega, h.region_le, ?_, ?_,
    ?_, ?_⟩
  · rw [List.append_assoc, List.take_append_drop]
    exact hold.rep
  · rw [List.append_assoc, List.take_append_drop]
    exact hold.marks
  · have htaken := hold.taken
    simp only [List.append_assoc, List.take_append_drop] at htaken ⊢
    exact htaken
  · intro hpos
    exact absurd hpos (lt_irrefl 0)
  · intro hpos
    exact absurd hpos (lt_irrefl 0)
  · intro hpos
    exact absurd hpos (lt_irrefl 0)
  · intro _
    refine ⟨fun hzero => absurd hzero hpos.ne', fun _ => ⟨hpos, hlt, ?_⟩⟩
    rw [List.length_append, htake]
    simp only [Parse.keepPartial]
    push_cast
    omega

/-- What a frame that lacks `need` bytes makes of the region: it is completed and announced,
or it takes all of it. -/
inductive Moved (procRecv : ProcRecv η) (X : RecvSock η → Prop) (p q : Parse η)
    (m done rest : List UInt8) (part n : Nat) (need : Int) : Prop
  | completed (m' : List UInt8) (hle : need ≤ n)
      (scan : Scan X q m' [] (rest.drop need.toNat) 0 (n - need.toNat))
      (announced : Announced p q p.sock.packetLen)
  | kept (hlt : n < need) (eq : q = p.keepPartial (need - n))
      (scan : Scan X q m (done ++ rest.take n) (rest.drop n) part 0)

theorem Scan.needStep (h : Scan X p m done rest part n) (hside : MainSide procRecv X)
    (hexit : p.exit = .looping) (hneed : p.sock.needData ≠ 0)
    (hX : p.sock.needData ≤ n →
      MayAnnounce X p.sock (rest.drop p.sock.needData.toNat) p.sock.packetLen) :
    Moved procRecv X p (p.needStep procRecv) m done rest part n p.sock.needData := by
  obtain ⟨hbound, hsmall⟩ := h.bounded
  obtain ⟨hpos, hlt, hlen⟩ := (h.frame (by rw [hexit]; exact fun hc => nomatch hc)).progress hneed
  have hpend := h.holds.pending
  have hrep := h.holds.rep.length_le
  have hfits := h.fits
  simp only [List.length_append] at hrep
  have hlenp := h.len
  have hcast : p.sock.needData = (p.sock.needData.toNat : Int) := by omega
  by_cases hle : p.sock.needData ≤ n
  · obtain ⟨m', q, hq, hscan, hann⟩ := h.completeFrame hside (k := p.sock.needData.toNat)
      (by omega) (by omega) (by omega) (by omega) (hX hle)
    rw [← hcast] at hq
    have hstep : p.needStep procRecv = q := by
      rw [Parse.needStep, if_pos (by omega), hq]
    rw [hstep]
    exact .completed m' hle hscan hann
  · have hsub : sub32 p.sock.needData p.nLen = p.sock.needData - n := by
      rw [h.len, sub32_of_fits ⟨by omega, by omega⟩]
    have hstep : p.needStep procRecv = p.keepPartial (p.sock.needData - n) := by
      rw [Parse.needStep, hsub, if_neg (by omega)]
    refine .kept (by omega) hstep ?_
    rw [hstep]
    exact h.keepPartial hside (by omega) (by omega) (by omega)

/-- A whole header says how long the frame is; nothing of it has been consumed. -/
theorem Scan.wholeStep (h : Scan X p m [] rest 0 n) (hside : MainSide procRecv X)
    (hpos : 0 < p.sock.packetLen) (hlt : p.sock.packetLen < 2147483648)
    (hX : p.sock.packetLen ≤ n →
      MayAnnounce X p.sock (rest.drop p.sock.packetLen.toNat) p.sock.packetLen) :
    Moved procRecv X p (p.wholeStep procRecv) m [] rest 0 n p.sock.packetLen := by
  obtain ⟨hbound, hsmall⟩ := h.bounded
  have hfits := h.fits
  have hlenp := h.len
  have hcast : p.sock.packetLen = (p.sock.packetLen.toNat : Int) := by omega
  have hused : add32 p.nUsedLen p.sock.packetLen = p.sock.packetLen := by
    rw [h.used, List.length_nil, Nat.cast_zero, add32_of_fits ⟨by omega, by omega⟩, zero_add]
  by_cases hle : p.sock.packetLen ≤ n
  · obtain ⟨m', q, hq, hscan, hann⟩ := h.completeFrame hside (k := p.sock.packetLen.toNat)
      (by omega) (by omega) (by simp; omega) (by omega) (hX hle)
    rw [← hcast] at hq
    have hstep : p.wholeStep procRecv = q := by
      rw [Parse.wholeStep, if_pos (by omega), hused, hq]
    rw [hstep]
    exact .completed m' hle hscan hann
  · have hsub : sub32 p.sock.packetLen p.nLen = p.sock.packetLen - n := by
      rw [h.len, sub32_of_fits ⟨by omega, by omega⟩]
    have hstep : p.wholeStep procRecv = p.keepPartial (p.sock.packetLen - n) := by
      rw [Parse.wholeStep, hsub, if_neg (by omega)]
    refine .kept (by omega) hstep ?_
    rw [hstep]
    exact h.keepPartial hside (by omega) (by omega) (by simp)

/-! ### A header at the end of the ring -/

theorem Scan.sameIo (h : Scan X p m done rest part n) {s' : RecvSock η} {m' : List UInt8}
    (hholds : Holds X s' m' (done ++ rest) part) (hio : SameIo p.sock s') :
    Scan X { p with sock := s' } m' done rest part n := by
  refine ⟨hholds, h.used, h.len, h.fits, h.parser_nonneg, h.region, ?_, ?_, ?_, ?_, ?_⟩
  · simp only [hio.totalLen]
    exact h.region_le
  · simp only [hio.useCursor]
    exact h.cursor
  · simp only [hio.useCursor, hio.totalLen]
    exact h.inside
  · simp only [hio.useCursor, hio.totalLen]
    exact h.whole
  · intro hexit
    have hframe := h.frame hexit
    refine ⟨?_, ?_⟩
    · simp only [hio.needData]
      exact hframe.idle
    · simp only [hio.needData, hio.packetLen]
      exact hframe.progress

/-- The header object and the length it computed are free to change while no frame is in
progress. -/
theorem Scan.setHeader (h : Scan X p m [] rest part n) (hside : MainSide procRecv X)
    (hneed : p.sock.needData = 0) (header : η) (packetLen : Int) :
    Scan X { p with sock := { p.sock with header := header, packetLen := packetLen } }
      m [] rest part n := by
  refine ⟨h.holds.io hside rfl rfl, h.used, h.len, h.fits, h.parser_nonneg, h.region, h.region_le,
    h.cursor, h.inside, h.whole, fun hexit => ?_⟩
  exact ⟨(h.frame hexit).idle, fun hc => absurd hneed hc⟩

/-- `CostUsedBuff(0)` is only the main thread's turn. -/
theorem Scan.costNothing (h : Scan X p m [] rest part n) (hside : MainSide procRecv X) :
    ∃ m' s', p.costUsed procRecv = { p with sock := s' } ∧
      Scan X { p with sock := s' } m' [] rest part n ∧ SameIo p.sock s' := by
  have hused := h.used
  rw [List.length_nil, Nat.cast_zero] at hused
  obtain ⟨m', s', hcost, hholds, hio⟩ :=
    h.holds.costUsedBuff_refused hside (n := 0) (Or.inl le_rfl) (by omega) (by omega)
  refine ⟨m', s', ?_, h.sameIo hholds hio, hio⟩
  simp only [costUsed, hused, hcost]

/-- The first `n` bytes of the header stood at the end of the ring and are marked; the rest
of the unmarked bytes is the new region, at the head of the ring. -/
structure Split (X : RecvSock η → Prop) (r : Parse η) (m rest : List UInt8) (n : Nat) : Prop where
  holds : Holds X r.sock m rest n
  used : r.nUsedLen = 0
  len : r.nLen = n
  region : r.nRegion = rest.length
  ptr : 0 < rest.length → r.pUseBuf = 0
  useCursor : r.sock.recvBuf.useCursor = 0
  needData : r.sock.needData = 0
  exit : r.exit = .looping

/-- Marking the end of the ring and asking for the next region. -/
theorem Scan.nextRegion (h : Scan X p m [] rest 0 n) (hside : MainSide procRecv X)
    (hexit : p.exit = .looping) (hneed : p.sock.needData = 0) (hpos : 0 < n)
    (hcut : n < rest.length) :
    ∃ m' s₁ r, p.sock.costUsedBuff procRecv p.nLen = (true, s₁) ∧
      ({ p with sock := s₁ } : Parse η).nextRegion procRecv = r ∧
      Split X r m' (rest.drop n) n ∧ SameFrame p.sock r.sock := by
  have hused := h.used
  have hwhole := h.whole hpos hcut
  rw [List.length_nil, Nat.cast_zero] at hused hwhole
  obtain ⟨m₁, s₁, hcost, h₁, hframe₁, htotal, _, hwrap⟩ :=
    h.holds.costUsedBuff hside (n := n) hpos h.fits
  obtain ⟨m₂, s₂, ptr, k, hptr, h₂, hio₂, hk, hkpos, _, hkcut⟩ := h₁.usedCursorPtr hside
  have huse := hwrap (by omega)
  have hbound := h.bounded.1
  simp only [List.nil_append, List.length_drop, List.length_nil] at h₂ hk hkpos hkcut hbound
  -- the new region starts at the head of the ring, so nothing can cut it
  have hall : k = rest.length - n := by
    by_contra hc
    have := hkcut (by omega)
    omega
  refine ⟨m₂, s₁, _, by rw [h.len, hcost], rfl, ?_, ?_⟩
  · simp only [Parse.nextRegion, hptr]
    refine ⟨by simpa using h₂, hused, h.len, by simp [hall], ?_, ?_, ?_, hexit⟩
    · intro hrest
      rw [(hkpos (by simpa using hrest)).2, huse, Option.getD_some]
    · rw [hio₂.useCursor, huse]
    · rw [hio₂.needData, hframe₁.needData, hneed]
  · simp only [Parse.nextRegion, hptr]
    exact hframe₁.trans hio₂.frame

theorem Split.read {r : Parse η} (h : Split X r m rest n) {k : Nat} (hk : k ≤ rest.length) :
    Memory.read (r.sock.recvBuf.mem.at r.pUseBuf) 0 k = rest.take k := by
  rcases Nat.eq_zero_or_pos rest.length with hzero | hpos
  · obtain rfl : k = 0 := by omega
    rfl
  · have hlen := h.holds.rep.length_le
    simp only [List.length_append] at hlen
    have hread := h.holds.read_use (i := 0) (n := k) (by omega) (by rw [h.useCursor]; omega)
    rw [h.useCursor, List.drop_zero] at hread
    rw [Memory.read_at, h.ptr hpos]
    exact hread

/-- The frame whose header has just been put together. -/
theorem Split.enterFrame (H : IFxDataHeader η) {r : Parse η} (h : Split X r m rest n)
    (hside : MainSide procRecv X) {hl : Nat} (hhl : H.getHeaderLength r.sock.header = hl)
    (hn : n < hl) (hrest : hl ≤ n + rest.length) (hge : (hl : Int) ≤ r.sock.packetLen)
    (hlt : r.sock.packetLen < 2147483648)
    (hX : r.sock.packetLen = hl → MayAnnounce X r.sock (rest.drop (hl - n)) r.sock.packetLen) :
    (r.sock.packetLen = hl ∧ ∃ m', Scan X (r.enterFrame procRecv H) m' []
        (rest.drop (hl - n)) 0 (n + rest.length - hl) ∧
        Announced r (r.enterFrame procRecv H) r.sock.packetLen) ∨
      ((hl : Int) < r.sock.packetLen ∧ Scan X (r.enterFrame procRecv H) m
        (rest.take (hl - n)) (rest.drop (hl - n)) n (n + rest.length - hl) ∧
        (r.enterFrame procRecv H).sock = { r.sock with needData := r.sock.packetLen - hl } ∧
        (r.enterFrame procRecv H).exit = r.exit) := by
  have hlen := h.holds.rep.length_le
  have hsmall := h.holds.small
  have hin := h.holds.rep.in_lt
  have hrlen := h.len
  have hregion := h.region
  have hcursor := h.useCursor
  simp only [List.length_append] at hlen
  have hused : sub32 (hl : Int) r.nLen = ((hl - n : Nat) : Int) := by
    rw [hrlen, sub32_of_fits ⟨by omega, by omega⟩]
    omega
  have hneed : sub32 r.sock.packetLen hl = r.sock.packetLen - hl :=
    sub32_of_fits ⟨by omega, by omega⟩
  have hnew : sub32 r.nRegion ((hl - n : Nat) : Int) = ((n + rest.length - hl : Nat) : Int) := by
    rw [hregion, sub32_of_fits ⟨by omega, by omega⟩]
    omega
  have hptr : 0 < rest.length - (hl - n) → r.pUseBuf = 0 := fun _ => h.ptr (by omega)
  simp only [Parse.enterFrame, hhl, toInt32_of_lt (show hl < 2147483648 by omega), hused, hneed,
    hnew]
  by_cases hzero : 0 = r.sock.packetLen - hl
  · have hself : { r.sock with needData := r.sock.packetLen - hl } = r.sock := by
      rw [← hzero, ← h.needData]
    obtain ⟨m', s', hcost, hholds, hframe, htotal, hlow, hwrap⟩ :=
      h.holds.costUsedBuff hside (n := hl - n) (by omega) (by omega)
    have htoNat : n + (hl - n) = r.sock.packetLen.toNat := by omega
    rw [htoNat] at hholds
    have hann := hX (by omega) s' _ hholds hframe
    have hdone := Holds.announce hholds hside (by omega) (by omega) hann
    have hpacket : s'.packetLen = r.sock.packetLen := hframe.packetLen
    have hneed' : s'.needData = 0 := by rw [hframe.needData, h.needData]
    refine Or.inl ⟨by omega, m' ++ rest.take (hl - n), ?_, ?_⟩
    · simp only [if_pos hzero, hself, costUsed, hcost, announce, hpacket]
      refine ⟨hdone.io hside rfl rfl, rfl, rfl, by simp; omega, by simp only; omega,
        by simp only; omega, ?_, ?_, ?_, ?_, ?_⟩
      · simp only [pushNetEvent]
        omega
      · intro hpos
        have := hlow (by omega)
        have := hptr (by omega)
        simp only [pushNetEvent, List.length_nil]
        omega
      · intro hpos
        have := hlow (by omega)
        simp only [pushNetEvent, List.length_nil]
        omega
      · intro _ hcut
        simp only [List.length_drop] at hcut
        omega
      · intro _
        exact ⟨fun _ => ⟨rfl, rfl⟩, fun hc => absurd hneed' hc⟩
    · simp only [if_pos hzero, hself, costUsed, hcost, announce, hpacket]
      refine ⟨hneed', hframe.taken, hframe.header, ?_, rfl⟩
      rw [← hframe.announced]
      exact (lens_pushRecv s' _).2
  · simp only [if_neg hzero]
    have htake : (rest.take (hl - n)).length = hl - n := by simp; omega
    refine Or.inr ⟨by omega, ⟨?_, by rw [htake], rfl, by simp; omega, by simp only; omega,
      by simp only; omega, ?_, ?_, ?_, ?_, ?_⟩, trivial, trivial⟩
    · rw [List.take_append_drop]
      exact h.holds.io hside rfl rfl
    · simp only
      omega
    · intro hpos
      have := hptr (by omega)
      simp only [htake]
      omega
    · intro hpos
      simp only [htake]
      omega
    · intro _ hcut
      simp only [List.length_drop] at hcut
      omega
    · intro _
      refine ⟨fun hc => absurd hc.symm hzero, fun _ =>
        ⟨by simp only; omega, by simp only; omega, ?_⟩⟩
      simp only [htake]
      omega

/-! ### The loop body of TCP and UDP -/

/-- What the record of the socket was before is what it is now. -/
structure SameRecord (s s' : RecvSock η) : Prop where
  taken : s'.taken = s.taken
  announced : recvLens s'.announced = recvLens s.announced

/-- A header that the region does not hold: either it has not arrived yet, or its second
part stands at the head of the ring. -/
inductive Joined (H : IFxDataHeader η) (procRecv : ProcRecv η) (X : RecvSock η → Prop)
    (fail : Parse η → Int → Parse η) (p q : Parse η) (rest : List UInt8) (n hl : Nat) : Prop
  | waits (m' : List UInt8) (hlt : rest.length < hl) (scan : Scan X q m' [] rest 0 0)
      (exit : q.exit = .broke) (frame : SameFrame p.sock q.sock)
  | joined (m' : List UInt8) (r : Parse η) (pBuf₁ pBuf₂ : Mem) (header : η)
      (hle : hl ≤ rest.length) (split : Split X r m' (rest.drop n) n)
      (first : Memory.read pBuf₁ 0 n = rest.take n)
      (second : Memory.read pBuf₂ 0 (hl - n) = (rest.drop n).take (hl - n))
      (built : header = (H.buildRecvPkgHeader
        (H.buildRecvPkgHeader p.sock.header pBuf₁ n 0).2 pBuf₂ (hl - n) n).2)
      (parsed : (r.sock.packetLen, r.sock.header) =
        H.parsePacket header (H.getPkgHeader header) hl)
      (record : SameRecord p.sock r.sock)
      (eq : q = if 0 ≥ r.sock.packetLen then fail r netRecvbuffError else r.enterFrame procRecv H)

theorem Scan.splitStep (H : IFxDataHeader η) (fail : Parse η → Int → Parse η)
    (h : Scan X p m [] rest 0 n) (hside : MainSide procRecv X) {hl : Nat}
    (hhl : ∀ header, H.getHeaderLength header = hl) (hexit : p.exit = .looping)
    (hneed : p.sock.needData = 0) (hpos : 0 < n) (hn : n < hl) (hlt : hl < 2147483648) :
    Joined H procRecv X fail p (p.splitStep procRecv H fail) rest n hl := by
  obtain ⟨m₁, s₁, hcost, h₁, hio₁⟩ := h.costNothing hside
  obtain ⟨m₂, s₂, huse, hholds₂, hio₂⟩ := h₁.holds.useLen hside
  have h₂ := h₁.sameIo hholds₂ hio₂
  have hio := hio₁.trans hio₂
  have hself : { s₁ with needData := 0 } = s₁ := by rw [← hneed, ← hio₁.needData]
  have hlen := h.len
  simp only [Parse.splitStep, hcost, hself, hhl, toInt32_of_lt hlt, huse, List.nil_append]
  rw [if_pos (by omega)]
  by_cases hle : (hl : Int) ≤ rest.length
  · rw [if_pos hle]
    have hn₂ : toUInt32 p.nLen = n := by rw [hlen]; simp [toUInt32]; omega
    have hneed₂ : s₂.needData = 0 := by rw [hio.needData, hneed]
    have hread : Memory.read (Parse.parseBuf { p with sock := s₂ }) 0 n = rest.take n :=
      h₂.read hpos le_rfl
    generalize hbuf : Parse.parseBuf { p with sock := s₂ } = pBuf₁ at hread
    have h₃ := h₂.setHeader hside hneed₂ (H.buildRecvPkgHeader s₂.header pBuf₁ n 0).2 s₂.packetLen
    obtain ⟨m₃, s₃, r, hcost₃, hr, hsplit, hframe⟩ :=
      h₃.nextRegion hside hexit hneed₂ hpos (by omega)
    have hrlen := hsplit.len
    have hregion := hsplit.region
    have hwin : sub32 (hl : Int) r.nLen = hl - n := by
      rw [hrlen, sub32_of_fits ⟨by omega, by omega⟩]
    have hhead : toUInt32 ((hl : Int) - r.nLen) = hl - n := by rw [hrlen]; simp [toUInt32]; omega
    have hrn : toUInt32 r.nLen = n := by rw [← hn₂, hrlen, hlen]
    have hregion' : r.nRegion = ((rest.length - n : Nat) : Int) := by
      rw [hregion, List.length_drop]
    have hheader : r.sock.header = (H.buildRecvPkgHeader p.sock.header pBuf₁ n 0).2 := by
      rw [hframe.header, hio.header]
    have hsecond := hsplit.read (k := hl - n) (by simp; omega)
    simp only [buildHeader, hbuf, hn₂, hcost₃, hr, hwin, hhead, hrn]
    rw [if_neg (by simp), if_neg (by omega)]
    rw [hheader]
    generalize hbuilt : (H.buildRecvPkgHeader (H.buildRecvPkgHeader p.sock.header pBuf₁ n 0).2
      (r.sock.recvBuf.mem.at r.pUseBuf) (hl - n) n).2 = header
    have hsplit' : Split X { r with sock := { r.sock with
        header := (H.parsePacket header (H.getPkgHeader header) hl).2
        packetLen := (H.parsePacket header (H.getPkgHeader header) hl).1 } } m₃ (rest.drop n) n :=
      ⟨hsplit.holds.io hside rfl rfl, hsplit.used, hrlen, hregion, hsplit.ptr, hsplit.useCursor,
        hsplit.needData, hsplit.exit⟩
    refine .joined m₃ _ pBuf₁ _ header (by omega) hsplit' hread hsecond hbuilt.symm rfl ?_ ?_
    · exact ⟨hframe.taken.trans hio.taken,
        hframe.announced.trans hio.announced⟩
    · simp only [parsePacket]
      rfl
  · rw [if_neg hle]
    refine .waits m₂ (by omega) ⟨hholds₂, h.used, rfl, Nat.zero_le _, h.parser_nonneg, ?_,
      h₂.region_le, ?_, ?_, ?_, ?_⟩ rfl hio.frame
    · have := h.region
      simp only
      omega
    · intro hc
      exact absurd hc (lt_irrefl 0)
    · intro hc
      exact absurd hc (lt_irrefl 0)
    · intro hc
      exact absurd hc (lt_irrefl 0)
    · intro _
      exact ⟨fun _ => ⟨rfl, rfl⟩, fun hc => absurd (by simp only [hio.needData, hneed]) hc⟩

/-! ### The eight byte header -/

section BinaryHeader

open BinaryDataHeader

variable {p : Parse BinaryDataHeader} {procRecv : ProcRecv BinaryDataHeader}
  {X : RecvSock BinaryDataHeader → Prop}

/-- `p'` is `p` with the header of the next frame parsed. -/
structure Parsed (p p' : Parse BinaryDataHeader) (rest : List UInt8) : Prop where
  packetLen : p'.sock.packetLen = pkgLength (rest.take 8)
  needData : p'.sock.needData = 0
  exit : p'.exit = .looping
  record : SameRecord p.sock p'.sock
  inBuffer : p.sock.header.InBuffer → p'.sock.header.InBuffer

/-- What an iteration does between two frames: the header has not arrived, is parsed where it
stands, or is put together from the two ends of the ring. -/
inductive Headed (procRecv : ProcRecv BinaryDataHeader) (X : RecvSock BinaryDataHeader → Prop)
    (fail : Parse BinaryDataHeader → Int → Parse BinaryDataHeader)
    (p q : Parse BinaryDataHeader) (m rest : List UInt8) (n : Nat) : Prop
  | waits (m' : List UInt8) (hlt : rest.length < 8) (scan : Scan X q m' [] rest 0 0)
      (exit : q.exit = .broke) (needData : q.sock.needData = 0) (record : SameRecord p.sock q.sock)
      (inBuffer : p.sock.header.InBuffer → q.sock.header.InBuffer)
  | whole (p' : Parse BinaryDataHeader) (hle : 8 ≤ n) (scan : Scan X p' m [] rest 0 n)
      (parsed : Parsed p p' rest)
      (eq : q = if -1 = p'.sock.packetLen then fail p' netRecvError
        else if 0 = p'.sock.packetLen then p'.splitStep procRecv vtable fail
        else p'.wholeStep procRecv)
  | joined (m' : List UInt8) (r : Parse BinaryDataHeader) (hlt : n < 8) (hle : 8 ≤ rest.length)
      (split : Split X r m' (rest.drop n) n) (parsed : Parsed p r rest)
      (eq : q = if 0 ≥ r.sock.packetLen then fail r netRecvbuffError
        else r.enterFrame procRecv vtable)

theorem Scan.frameStep_idle (fail : Parse BinaryDataHeader → Int → Parse BinaryDataHeader)
    (h : Scan X p m [] rest 0 n) (hside : MainSide procRecv X) (hexit : p.exit = .looping)
    (hneed : p.sock.needData = 0) (hpos : 0 < n) :
    Headed procRecv X fail p (p.frameStep procRecv vtable fail) m rest n := by
  obtain ⟨hbound, hsmall⟩ := h.bounded
  have hfits := h.fits
  have hlen := h.len
  have hn : toUInt32 p.nLen = n := by rw [hlen]; simp [toUInt32]; omega
  have height : toInt32 8 = 8 := toInt32_of_lt (by omega)
  have hread : ∀ k ≤ n, Memory.read p.parseBuf 0 k = rest.take k := fun k hk => h.read hpos hk
  have hgl : vtable.getHeaderLength p.sock.header = 8 := rfl
  have hmin : (if toInt32 (vtable.getHeaderLength p.sock.header) > p.nLen then toUInt32 p.nLen
      else vtable.getHeaderLength p.sock.header) = min n 8 := by
    rw [hgl, hn, height, hlen]
    split <;> omega
  have hbuild := buildRecvPkgHeader_eq p.sock.header p.parseBuf
    (show min n 8 + 0 ≤ 8 by omega)
  generalize hheader : (vtable.buildRecvPkgHeader p.sock.header p.parseBuf (min n 8) 0).2 = header
    at hbuild
  have hin : p.sock.header.InBuffer → header.InBuffer := fun hin => by
    rw [← hheader]
    exact hin.build _ (by omega)
  have hstep : p.frameStep procRecv vtable fail =
      let p' : Parse BinaryDataHeader := { p with sock := { p.sock with
        header := (vtable.parsePacket header p.parseBuf n).2
        packetLen := (vtable.parsePacket header p.parseBuf n).1 } }
      if -1 = p'.sock.packetLen then fail p' netRecvError
      else if 0 = p'.sock.packetLen then p'.splitStep procRecv vtable fail
      else p'.wholeStep procRecv := by
    have hbuilt : p.buildHeader vtable (if toInt32 (vtable.getHeaderLength p.sock.header) > p.nLen
        then toUInt32 p.nLen else vtable.getHeaderLength p.sock.header) =
        { p with sock := { p.sock with header := header } } := by
      rw [hmin, buildHeader, hheader]
    have hbuf : Parse.parseBuf { p with sock := { p.sock with header := header } } = p.parseBuf :=
      rfl
    rw [Parse.frameStep, if_neg (by rw [hneed]; simp)]
    simp only [hbuilt, hbuf, parsePacket]
    simp only [hn]
  rw [hstep]
  rcases Nat.lt_or_ge n 8 with hlt | hge
  · rw [parsePacket_short header p.parseBuf hlt]
    have hscan := h.setHeader hside hneed header 0
    have hsplit := hscan.splitStep vtable fail hside
      (show ∀ header, vtable.getHeaderLength header = 8 from fun _ => rfl) hexit hneed hpos hlt
      (by omega)
    simp only
    rw [if_neg (by simp), if_pos trivial]
    generalize Parse.splitStep procRecv vtable fail _ = q at hsplit ⊢
    cases hsplit with
    | waits m' hrest scan exit frame =>
      exact .waits m' hrest scan exit (by rw [frame.needData, hneed])
        ⟨frame.taken, frame.announced⟩ (fun hi => by rw [frame.header]; exact hin hi)
    | joined m' r pBuf₁ pBuf₂ header' hle split first second built parsed record eq =>
      rw [buildRecvPkgHeader_eq header pBuf₁ (by omega),
        buildRecvPkgHeader_eq _ pBuf₂ (by omega), first, second] at built
      have hwhole : Memory.read header'.dataRecvBuffer 0 8 = rest.take 8 := by
        have htwo := Memory.read_write_write header.dataRecvBuffer 0 (rest.take n)
          ((rest.drop n).take (8 - n))
        have height : n + (8 - n) = 8 := by omega
        rw [← List.take_add, height] at htwo
        simp only [List.length_take, List.length_drop, zero_add] at htwo
        rw [show min n rest.length + min (8 - n) (rest.length - n) = 8 by omega,
          Nat.min_eq_left hfits] at htwo
        rw [built]
        exact htwo
      rw [show vtable.getPkgHeader header' = header'.dataRecvBuffer from rfl,
        parsePacket_whole le_rfl hwhole hwhole] at parsed
      obtain ⟨hpacket, hhead⟩ := Prod.mk.inj parsed
      refine .joined m' r hlt hle split ⟨hpacket, split.needData, split.exit,
        ⟨record.taken, record.announced⟩, ?_⟩ eq
      intro hi copy hcopy
      rw [hhead, built] at hcopy
      simp only [List.append_assoc, List.mem_append, List.mem_singleton] at hcopy
      rcases hcopy with hold | rfl | rfl
      · exact hin hi copy hold
      · simp only [headerLength]
        omega
      · simp only [headerLength]
        omega
  · have hbuilt : Memory.read header.dataRecvBuffer 0 8 = rest.take 8 := by
      rw [hbuild, Nat.min_eq_right hge, hread 8 hge]
      have := Memory.read_write_same p.sock.header.dataRecvBuffer 0 (rest.take 8)
      rwa [List.length_take, Nat.min_eq_left (by omega)] at this
    rw [parsePacket_whole hge hbuilt (hread 8 hge)]
    exact .whole _ hge (h.setHeader hside hneed _ _)
      ⟨rfl, hneed, hexit, ⟨rfl, rfl⟩, hin⟩ rfl

end BinaryHeader

end Parse
