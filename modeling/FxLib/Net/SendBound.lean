import FxLib.Meta.NetStream
import FxLib.Net.LoopBuffSpec

/-!
# What a call of Send pushes

`FxTCPConnectSockBase::Send` with its static buffer, behind which other memory follows. While it
sleeps the IO thread sends from the ring.
-/

open MachineInt WriteStream

/-- `RECV_BUFF_SIZE`, the size of `pTemData` as well. -/
def recvBuffSize : Nat := 8 * 64 * 1024

/-- `SEND_BUFF_SIZE`. -/
def sendBuffSize : Nat := 64 * 64 * 1024

/-- The bytes behind a pointer, whose number is an `unsigned int`. -/
abbrev Block := { bytes : List UInt8 // bytes.length < 4294967296 }

namespace FxLoopBuff

/-- `PostSend` of the IO thread: the kernel takes `n` bytes of what it is offered. -/
def postSend (n : Nat) (s : FxLoopBuff) : List UInt8 × FxLoopBuff :=
  let nRet := min (n : Int) s.getOutCursorPtr.len
  (s.copyOut s.getOutCursorPtr.ptr nRet, (s.discardBuff nRet).2)

def postSends : List Nat → FxLoopBuff → List UInt8 × FxLoopBuff
  | [], s => ([], s)
  | n :: ns, s => ((s.postSend n).1 ++ (postSends ns (s.postSend n).2).1,
      (postSends ns (s.postSend n).2).2)

/-- The loop around `PushBuff`, with the number of sleeps that are left; `sleeps` says what the
kernel takes in each. -/
def pushLoop (pTemData : List UInt8) (nLen : Int) (bSendLinger : Bool) (sleeps : Nat → List Nat) :
    Nat → FxLoopBuff → Bool × List UInt8 × FxLoopBuff
  | 0, s => ((s.pushBuff pTemData nLen).1, [], (s.pushBuff pTemData nLen).2)
  | left + 1, s =>
    match s.pushBuff pTemData nLen with
    | (true, s) => (true, [], s)
    | (false, s) =>
      if bSendLinger = false then (false, [], s)
      else
        let (taken, s) := s.postSends (sleeps left)
        let (pushed, later, s) := pushLoop pTemData nLen bSendLinger sleeps left s
        (pushed, taken ++ later, s)

/-- The ring at the last call of `PushBuff`, where all fail before. -/
def lastTry (bSendLinger : Bool) (sleeps : Nat → List Nat) : Nat → FxLoopBuff → FxLoopBuff
  | 0, s => s
  | left + 1, s =>
    if bSendLinger = false then s
    else lastTry bSendLinger sleeps left (s.postSends (sleeps left)).2

variable {s s' s'' : FxLoopBuff} {q q' taken later : List UInt8}

/-! ### What the IO thread leaves -/

/-- From the queue `q` the bytes `taken` are gone. -/
structure Drained (q taken q' : List UInt8) (s s' : FxLoopBuff) : Prop where
  rep : s'.Rep q'
  parts : taken ++ q' = q
  total : s'.totalLen = s.totalLen

theorem Drained.refl (h : s.Rep q) : Drained q [] q s s := ⟨h, rfl, rfl⟩

theorem Drained.trans {q'' : List UInt8} (h : Drained q taken q' s s')
    (h' : Drained q' later q'' s' s'') : Drained q (taken ++ later) q'' s s'' := by
  refine ⟨h'.rep, ?_, h'.total.trans h.total⟩
  rw [List.append_assoc, h'.parts, h.parts]

theorem Drained.freeLen_le (h : Drained q taken q' s s') (hrep : s.Rep q) :
    s.freeLen ≤ s'.freeLen := by
  have hlen := congrArg List.length h.parts
  have hfree := hrep.free
  have hfree' := h.rep.free
  have htotal := h.total
  rw [List.length_append] at hlen
  omega

theorem drained_postSend (h : s.Rep q) (n : Nat) :
    ∃ q', Drained q (s.postSend n).1 q' s (s.postSend n).2 := by
  by_cases hq : q = []
  · subst hq
    have hregion := getOutCursorPtr_empty h
    have hret : min (n : Int) 0 = 0 := by omega
    refine ⟨[], ?_⟩
    simp only [postSend, hregion, hret, copyOut]
    exact .refl h
  · obtain ⟨len, hregion, hpos, hle, hend, -⟩ := getOutCursorPtr_eq h hq
    have hmin : min (n : Int) len = (min n len : Nat) := by omega
    simp only [postSend, hregion, hmin, copyOut, Int.toNat_natCast]
    rw [h.read_out (by omega) (by omega)]
    refine ⟨q.drop (min n len), ?_⟩
    by_cases hn : n = 0
    · subst hn
      have hret : ((min 0 len : Nat) : Int) = 0 := by simp
      rw [hret, Nat.zero_min]
      exact .refl h
    · have hfits := h.total_fits
      have hout := h.out_nonneg
      rw [discardBuff_eq h (by omega) (by omega) ⟨by omega, by omega⟩, Int.toNat_natCast]
      exact ⟨h.advanceOut (by omega), List.take_append_drop .., advanceOut_totalLen ..⟩

theorem drained_postSends (h : s.Rep q) (ns : List Nat) :
    ∃ q', Drained q (postSends ns s).1 q' s (postSends ns s).2 := by
  induction ns generalizing s q with
  | nil => exact ⟨q, .refl h⟩
  | cons n ns ih =>
    obtain ⟨q', hfirst⟩ := drained_postSend h n
    obtain ⟨q'', hrest⟩ := ih hfirst.rep
    exact ⟨q'', hfirst.trans hrest⟩

theorem drained_lastTry (h : s.Rep q) (bSendLinger : Bool) (sleeps : Nat → List Nat) (left : Nat) :
    ∃ taken q', Drained q taken q' s (lastTry bSendLinger sleeps left s) := by
  induction left generalizing s q with
  | zero => exact ⟨[], q, .refl h⟩
  | succ left ih =>
    rw [lastTry]
    split_ifs
    · exact ⟨[], q, .refl h⟩
    · obtain ⟨q', hsleep⟩ := drained_postSends h (sleeps left)
      obtain ⟨later, q'', hrest⟩ := ih hsleep.rep
      exact ⟨_, q'', hsleep.trans hrest⟩

/-! ### What the loop pushes -/

/-- One call pushes all the bytes where they fit, and nothing otherwise. -/
theorem pushBuff_cases (h : s.Rep q) (htotal : s.totalLen = sendBuffSize) (xs : List UInt8)
    (hlen : xs.length ≤ sendBuffSize) :
    ((xs = [] ∨ s.freeLen < xs.length) ∧ s.pushBuff xs xs.length = (false, s)) ∨
      (¬ (xs = [] ∨ s.freeLen < xs.length) ∧ ∃ s', s.pushBuff xs xs.length = (true, s') ∧
        s'.Rep (q ++ xs)) := by
  by_cases hroom : xs = [] ∨ s.freeLen < xs.length
  · refine .inl ⟨hroom, pushBuff_refused xs ?_⟩
    rcases hroom with rfl | hfull
    · exact .inl le_rfl
    · exact .inr hfull
  · refine .inr ⟨hroom, ?_⟩
    obtain ⟨hne, hfree⟩ := not_or.mp hroom
    have hpos : 0 < xs.length := List.length_pos_iff.mpr hne
    have hin := h.in_lt
    have hin0 := h.in_nonneg
    rw [sendBuffSize] at htotal hlen
    have hfit : Fits32 ((xs.length : Int) + s.inCursor) := ⟨by omega, by omega⟩
    obtain ⟨m, hpush, hrep⟩ := h.pushBuff (by omega) le_rfl (by omega) hfit
    refine ⟨_, hpush, ?_⟩
    simpa using hrep

/-- All of the bytes go in where the ring has room for them at the last call; whatever happens, the
IO thread has taken from the front. -/
theorem pushLoop_spec (h : s.Rep q) (htotal : s.totalLen = sendBuffSize) (xs : List UInt8)
    (hlen : xs.length ≤ sendBuffSize) (bSendLinger : Bool) (sleeps : Nat → List Nat) (left : Nat) :
    ∃ pushed taken s', pushLoop xs xs.length bSendLinger sleeps left s = (pushed, taken, s') ∧
      (pushed = false ↔ xs = [] ∨ (lastTry bSendLinger sleeps left s).freeLen < xs.length) ∧
      ∃ q', s'.Rep q' ∧ taken ++ q' = q ++ if pushed then xs else [] := by
  induction left generalizing s q with
  | zero =>
    rw [pushLoop, lastTry]
    rcases pushBuff_cases h htotal xs hlen with ⟨hroom, hpush⟩ | ⟨hroom, s', hpush, hrep⟩
    · rw [hpush]
      exact ⟨false, [], s, rfl, iff_of_true rfl hroom, q, h, by simp⟩
    · rw [hpush]
      exact ⟨true, [], s', rfl, iff_of_false (by simp) hroom, _, hrep, by simp⟩
  | succ left ih =>
    rw [pushLoop]
    rcases pushBuff_cases h htotal xs hlen with ⟨hroom, hpush⟩ | ⟨hroom, s', hpush, hrep⟩
    · rw [hpush, lastTry]
      simp only
      split_ifs
      · exact ⟨false, [], s, rfl, iff_of_true rfl hroom, q, h, by simp⟩
      · obtain ⟨q', hsleep⟩ := drained_postSends h (sleeps left)
        obtain ⟨pushed, later, s', hloop, hiff, q'', hrep, hparts⟩ :=
          ih hsleep.rep (hsleep.total.trans htotal)
        refine ⟨pushed, _, s', by rw [hloop], hiff, q'', hrep, ?_⟩
        rw [List.append_assoc, hparts, ← List.append_assoc, hsleep.parts]
    · rw [hpush]
      refine ⟨true, [], s', rfl, iff_of_false (by simp) ?_, _, hrep, by simp⟩
      obtain ⟨taken, q', hlast⟩ := drained_lastTry h bSendLinger sleeps (left + 1)
      have hmore := hlast.freeLen_le h
      intro hc
      refine hroom (hc.imp_right fun hfull => ?_)
      exact lt_of_le_of_lt hmore hfull

end FxLoopBuff

/-- The TCP socket of a connection, at a call of `Send`. -/
structure TcpSender where
  connected : Bool
  bSendLinger : Bool
  sendBuf : FxLoopBuff
  queued : List UInt8
  /-- The static buffer and what follows it. -/
  pTemData : Mem
  rep : sendBuf.Rep queued
  total : sendBuf.totalLen = sendBuffSize

structure SendOutcome where
  ret : Bool
  sendBuf : FxLoopBuff
  pTemData : Mem
  /-- The number of bytes written from the beginning of the static buffer on. -/
  written : Int
  /-- What the IO thread has sent meanwhile. -/
  taken : List UInt8

namespace TcpSender

/-- The send ring behind `IsEmpty` and `Clear`. -/
def cleared (s : TcpSender) : FxLoopBuff :=
  if s.sendBuf.isEmpty then s.sendBuf.clear else s.sendBuf

/-- The unsigned sum `dwLen + dwHeaderLen`. -/
def sum (pDataHeaderBuff pData : Block) : Nat :=
  (pData.1.length + pDataHeaderBuff.1.length) % 4294967296

/-- `oNetStream` behind the two calls of `WriteData`, whose results are not asked for. -/
def netStream (s : TcpSender) (pDataHeaderBuff pData : Block) : WriteStream :=
  let oNetStream : WriteStream :=
    ⟨s.pTemData, 0, sum pDataHeaderBuff pData, Nat.mod_lt _ (by decide)⟩
  let oNetStream := oNetStream.attempt (writeData pDataHeaderBuff.1 pDataHeaderBuff.1.length)
  oNetStream.attempt (writeData pData.1 pData.1.length)

/-- What the static buffer begins with is pushed. -/
def push (s : TcpSender) (pDataHeaderBuff pData : Block) (sleeps : Nat → List Nat) :
    Bool × List UInt8 × FxLoopBuff :=
  FxLoopBuff.pushLoop
    (Memory.read (s.netStream pDataHeaderBuff pData).mem 0 (sum pDataHeaderBuff pData))
    (toInt32 (sum pDataHeaderBuff pData)) s.bSendLinger sleeps 30 s.cleared

/-- `header` is what `BuildSendPkgHeader` gives for this length, `none` where there is no data
header; `bPostSendFree` is what `PostSendFree` returns. -/
def send (s : TcpSender) (header : Option Block) (pData : Block) (sleeps : Nat → List Nat)
    (bPostSendFree : Bool) : SendOutcome :=
  if s.connected = false then ⟨false, s.sendBuf, s.pTemData, 0, []⟩
  else
    match header with
    | none => ⟨false, s.cleared, s.pTemData, 0, []⟩
    | some pDataHeaderBuff =>
      if sum pDataHeaderBuff pData > toUInt32 s.cleared.getTotalLen then
        ⟨false, s.cleared, s.pTemData, 0, []⟩
      else
        ⟨(s.push pDataHeaderBuff pData sleeps).1 && bPostSendFree,
          (s.push pDataHeaderBuff pData sleeps).2.2, (s.netStream pDataHeaderBuff pData).mem,
          (s.netStream pDataHeaderBuff pData).pData, (s.push pDataHeaderBuff pData sleeps).2.1⟩

/-! ### What a call should do -/

/-- No more is written to the static buffer than its size. Either the call returns false and the IO
thread alone has changed the queue, or the header and the payload stand at the end of it. -/
structure Bounded (s : TcpSender) (header : Option Block) (pData : Block)
    (outcome : SendOutcome) : Prop where
  inside : outcome.written ≤ recvBuffSize
  exact : ∃ q, outcome.sendBuf.Rep q ∧
    ((outcome.ret = false ∧ outcome.taken ++ q = s.queued) ∨
      ∃ pDataHeaderBuff ∈ header,
        outcome.taken ++ q = s.queued ++ (pDataHeaderBuff.1 ++ pData.1))

/-- The ring has no room for the `n` bytes that are pushed, even at the last call. -/
def NoRoom (s : TcpSender) (sleeps : Nat → List Nat) (n : Nat) : Prop :=
  n = 0 ∨ (FxLoopBuff.lastTry s.bSendLinger sleeps 30 s.cleared).freeLen < n

/-- Where the message is not refused for its length, header and payload fit the static buffer; or
their length wraps, and then there is no room for what is left of it. -/
def Fits (s : TcpSender) (header : Option Block) (pData : Block) (sleeps : Nat → List Nat) : Prop :=
  s.connected = true → ∀ pDataHeaderBuff ∈ header, sum pDataHeaderBuff pData ≤ sendBuffSize →
    pData.1.length + pDataHeaderBuff.1.length ≤ recvBuffSize ∨
      (4294967296 ≤ pData.1.length + pDataHeaderBuff.1.length ∧
        s.NoRoom sleeps (sum pDataHeaderBuff pData))

variable {s : TcpSender} {header : Option Block} {pDataHeaderBuff pData : Block}

theorem rep_cleared (s : TcpSender) : s.cleared.Rep s.queued := by
  rw [cleared]
  split_ifs with hempty
  · have hfree : s.sendBuf.totalLen = s.sendBuf.freeLen := of_decide_eq_true hempty
    have hqueued : s.queued = [] := s.rep.isEmpty_iff.mp hfree
    rw [hqueued]
    exact s.rep.clear hempty
  · exact s.rep

theorem totalLen_cleared (s : TcpSender) : s.cleared.totalLen = sendBuffSize := by
  rw [cleared]
  split_ifs
  · exact s.total
  · exact s.total

theorem toUInt32_cleared (s : TcpSender) : toUInt32 s.cleared.getTotalLen = sendBuffSize := by
  rw [FxLoopBuff.getTotalLen, s.totalLen_cleared]
  decide

/-! ### The stream over the static buffer -/

theorem sum_of_lt (hlt : pData.1.length + pDataHeaderBuff.1.length < 4294967296) :
    sum pDataHeaderBuff pData = pData.1.length + pDataHeaderBuff.1.length := Nat.mod_eq_of_lt hlt

/-- Without a wrap, the stream has room for both. -/
theorem netStream_of_lt (s : TcpSender)
    (hlt : pData.1.length + pDataHeaderBuff.1.length < 4294967296) :
    (s.netStream pDataHeaderBuff pData).pData = pData.1.length + pDataHeaderBuff.1.length ∧
      Memory.read (s.netStream pDataHeaderBuff pData).mem 0 (sum pDataHeaderBuff pData) =
        pDataHeaderBuff.1 ++ pData.1 := by
  have hsum := sum_of_lt hlt
  have hheader : pDataHeaderBuff.1.length ≤ sum pDataHeaderBuff pData := by omega
  have hall : pDataHeaderBuff.1.length + pData.1.length ≤ sum pDataHeaderBuff pData := by omega
  have hfirst := put_attempt
    (s := ⟨s.pTemData, 0, sum pDataHeaderBuff pData, Nat.mod_lt _ (by decide)⟩)
    (CNetStream.encodes_writeData rfl) hheader
  have hboth : put (pDataHeaderBuff.1 ++ pData.1) _ = some (s.netStream pDataHeaderBuff pData) :=
    put_append_attempt hfirst (CNetStream.encodes_writeData rfl) hall
  have hlen : (pDataHeaderBuff.1 ++ pData.1).length = sum pDataHeaderBuff pData := by
    rw [List.length_append, hsum, Nat.add_comm]
  refine ⟨?_, read_put hboth hlen⟩
  rw [put] at hboth
  split_ifs at hboth
  rw [← Option.some.inj hboth]
  simp only [hlen, hsum, zero_add, Nat.cast_add]

/-- With a wrap, it has room for neither. -/
theorem netStream_of_le (s : TcpSender)
    (hle : 4294967296 ≤ pData.1.length + pDataHeaderBuff.1.length) :
    (s.netStream pDataHeaderBuff pData).pData = 0 := by
  have hheader := pDataHeaderBuff.2
  have hdata := pData.2
  have hsum : sum pDataHeaderBuff pData =
      (pData.1.length + pDataHeaderBuff.1.length) % 4294967296 := rfl
  have hfirst : sum pDataHeaderBuff pData < pDataHeaderBuff.1.length := by omega
  have hsecond : sum pDataHeaderBuff pData < pData.1.length := by omega
  have hnone := attempt_of_lt
    (s := ⟨s.pTemData, 0, sum pDataHeaderBuff pData, Nat.mod_lt _ (by decide)⟩)
    (CNetStream.encodes_writeData rfl) hfirst
  rw [netStream, hnone, attempt_of_lt (CNetStream.encodes_writeData rfl) hsecond]

/-! ### What a call does -/

/-- What is pushed is what stands at the beginning of the static buffer behind the two writes. -/
theorem send_pushes (s : TcpSender) (hconnected : s.connected = true)
    (hle : sum pDataHeaderBuff pData ≤ sendBuffSize) (sleeps : Nat → List Nat)
    (bPostSendFree : Bool) :
    ∃ pushed taken sendBuf q, s.send (some pDataHeaderBuff) pData sleeps bPostSendFree =
        ⟨pushed && bPostSendFree, sendBuf, (s.netStream pDataHeaderBuff pData).mem,
          (s.netStream pDataHeaderBuff pData).pData, taken⟩ ∧
      (pushed = false ↔ s.NoRoom sleeps (sum pDataHeaderBuff pData)) ∧ sendBuf.Rep q ∧
      taken ++ q = s.queued ++
        if pushed then
          Memory.read (s.netStream pDataHeaderBuff pData).mem 0 (sum pDataHeaderBuff pData)
        else [] := by
  have hxs : (Memory.read (s.netStream pDataHeaderBuff pData).mem 0
    (sum pDataHeaderBuff pData)).length = sum pDataHeaderBuff pData := Memory.read_length ..
  have hint : toInt32 (sum pDataHeaderBuff pData) =
      (Memory.read (s.netStream pDataHeaderBuff pData).mem 0
        (sum pDataHeaderBuff pData)).length := by
    rw [hxs]
    exact toInt32_of_lt (by rw [sendBuffSize] at hle; omega)
  obtain ⟨pushed, taken, sendBuf, hloop, hroom, q, hrep, hparts⟩ :=
    FxLoopBuff.pushLoop_spec s.rep_cleared s.totalLen_cleared
      (Memory.read (s.netStream pDataHeaderBuff pData).mem 0 (sum pDataHeaderBuff pData))
      (by rwa [hxs]) s.bSendLinger sleeps 30
  have hpush : s.push pDataHeaderBuff pData sleeps = (pushed, taken, sendBuf) := by
    rw [push, hint, hloop]
  refine ⟨pushed, taken, sendBuf, q, ?_, ?_, hrep, hparts⟩
  · have hguard : ¬ sum pDataHeaderBuff pData > toUInt32 s.cleared.getTotalLen := by
      rw [toUInt32_cleared]
      exact not_lt.mpr hle
    have hconnected' : ¬ s.connected = false := by simp [hconnected]
    rw [send, if_neg hconnected']
    refine (if_neg hguard).trans ?_
    rw [hpush]
  · rw [hroom, NoRoom, hxs, ← List.length_eq_zero_iff, hxs]

/-- A message that is refused before the static buffer is used. -/
theorem bounded_of_refused (s : TcpSender) (header : Option Block) (pData : Block)
    {sendBuf : FxLoopBuff} (hrep : sendBuf.Rep s.queued) :
    s.Bounded header pData ⟨false, sendBuf, s.pTemData, 0, []⟩ :=
  ⟨by simp, s.queued, hrep, .inl ⟨rfl, rfl⟩⟩

/-- A message that fits the static buffer goes into the ring as a whole. -/
theorem bounded_of_le (s : TcpSender) (hconnected : s.connected = true)
    (hle : pData.1.length + pDataHeaderBuff.1.length ≤ recvBuffSize) (sleeps : Nat → List Nat)
    (bPostSendFree : Bool) :
    s.Bounded (some pDataHeaderBuff) pData
      (s.send (some pDataHeaderBuff) pData sleeps bPostSendFree) := by
  have hlt : pData.1.length + pDataHeaderBuff.1.length < 4294967296 :=
    lt_of_le_of_lt hle (by decide)
  have hsum : sum pDataHeaderBuff pData ≤ sendBuffSize :=
    (sum_of_lt hlt).trans_le (hle.trans (by decide))
  obtain ⟨hwritten, hread⟩ := s.netStream_of_lt hlt
  obtain ⟨pushed, taken, sendBuf, q, hsend, -, hrep, hparts⟩ :=
    s.send_pushes hconnected hsum sleeps bPostSendFree
  rw [hread] at hparts
  rw [hsend]
  refine ⟨?_, q, hrep, ?_⟩
  · simp only [hwritten]
    exact_mod_cast hle
  · cases pushed with
    | false => exact .inl ⟨rfl, by simpa using hparts⟩
    | true => exact .inr ⟨pDataHeaderBuff, rfl, hparts⟩

/-- A longer one that the ring could hold is written behind the end of the static buffer. -/
theorem not_bounded_of_lt (s : TcpSender) (hconnected : s.connected = true)
    (hlt : recvBuffSize < pData.1.length + pDataHeaderBuff.1.length)
    (hle : pData.1.length + pDataHeaderBuff.1.length ≤ sendBuffSize) (sleeps : Nat → List Nat)
    (bPostSendFree : Bool) :
    ¬ s.Bounded (some pDataHeaderBuff) pData
      (s.send (some pDataHeaderBuff) pData sleeps bPostSendFree) := by
  have hfits : pData.1.length + pDataHeaderBuff.1.length < 4294967296 :=
    lt_of_le_of_lt hle (by decide)
  obtain ⟨hwritten, -⟩ := s.netStream_of_lt hfits
  obtain ⟨pushed, taken, sendBuf, q, hsend, -⟩ :=
    s.send_pushes hconnected ((sum_of_lt hfits).trans_le hle) sleeps bPostSendFree
  rw [hsend]
  rintro ⟨hinside, -⟩
  simp only [hwritten] at hinside
  omega

/-- Where the length wraps, nothing is written, and what is pushed is not the message. -/
theorem bounded_wraps_iff (s : TcpSender) (hconnected : s.connected = true)
    (hwraps : 4294967296 ≤ pData.1.length + pDataHeaderBuff.1.length)
    (hle : sum pDataHeaderBuff pData ≤ sendBuffSize) (sleeps : Nat → List Nat)
    (bPostSendFree : Bool) :
    s.Bounded (some pDataHeaderBuff) pData
        (s.send (some pDataHeaderBuff) pData sleeps bPostSendFree) ↔
      s.NoRoom sleeps (sum pDataHeaderBuff pData) := by
  have hheader := pDataHeaderBuff.2
  have hdata := pData.2
  have hwritten := s.netStream_of_le hwraps
  have hsum : sum pDataHeaderBuff pData =
      (pData.1.length + pDataHeaderBuff.1.length) % 4294967296 := rfl
  obtain ⟨pushed, taken, sendBuf, q, hsend, hroom, hrep, hparts⟩ :=
    s.send_pushes hconnected hle sleeps bPostSendFree
  rw [hsend, ← hroom]
  cases pushed with
  | false =>
    refine iff_of_true ⟨?_, q, hrep, .inl ⟨rfl, ?_⟩⟩ rfl
    · simp only [hwritten]
      exact_mod_cast Nat.zero_le recvBuffSize
    · simpa using hparts
  | true =>
    refine iff_of_false ?_ (by simp)
    rintro ⟨-, q', (hrep' : sendBuf.Rep q'), hexact⟩
    have hsame : q'.length = q.length := by
      have hfree := hrep.free
      have hfree' := hrep'.free
      omega
    have hpos : sum pDataHeaderBuff pData ≠ 0 := fun hc => by simpa using hroom.mpr (.inl hc)
    have hlen := congrArg List.length hparts
    simp only [if_true, List.length_append, Memory.read_length] at hlen
    rcases hexact with ⟨-, hkept⟩ | ⟨_, ⟨⟩, happended⟩
    · have hlen' := congrArg List.length hkept
      simp only [List.length_append] at hlen'
      omega
    · have hlen' := congrArg List.length happended
      simp only [List.length_append] at hlen'
      omega

/-- A call meets its bounds exactly on what fits. -/
theorem bounded_iff_fits (s : TcpSender) (header : Option Block) (pData : Block)
    (sleeps : Nat → List Nat) (bPostSendFree : Bool) :
    s.Bounded header pData (s.send header pData sleeps bPostSendFree) ↔
      s.Fits header pData sleeps := by
  by_cases hconnected : s.connected = true
  · have hconnected' : ¬ s.connected = false := by simp [hconnected]
    cases header with
    | none =>
      have hsend : s.send none pData sleeps bPostSendFree =
          ⟨false, s.cleared, s.pTemData, 0, []⟩ := if_neg hconnected'
      rw [hsend]
      exact iff_of_true (s.bounded_of_refused none pData s.rep_cleared) fun _ _ h => nomatch h
    | some pDataHeaderBuff =>
      simp only [Fits, hconnected, Option.mem_some, forall_eq', forall_const]
      by_cases hguard : sum pDataHeaderBuff pData ≤ sendBuffSize
      · rw [forall_prop_of_true hguard]
        by_cases hwraps : 4294967296 ≤ pData.1.length + pDataHeaderBuff.1.length
        · have hlong : ¬ pData.1.length + pDataHeaderBuff.1.length ≤ recvBuffSize :=
            not_le.mpr (lt_of_lt_of_le (by decide) hwraps)
          rw [s.bounded_wraps_iff hconnected hwraps hguard, or_iff_right hlong,
            and_iff_right hwraps]
        · rw [or_iff_left (fun h => hwraps h.1)]
          rw [sum_of_lt (not_le.mp hwraps)] at hguard
          by_cases hle : pData.1.length + pDataHeaderBuff.1.length ≤ recvBuffSize
          · exact iff_of_true (s.bounded_of_le hconnected hle sleeps bPostSendFree) hle
          · exact iff_of_false (s.not_bounded_of_lt hconnected (not_le.mp hle) hguard sleeps
              bPostSendFree) hle
      · have hsend : s.send (some pDataHeaderBuff) pData sleeps bPostSendFree =
            ⟨false, s.cleared, s.pTemData, 0, []⟩ := by
          rw [← toUInt32_cleared s, not_le] at hguard
          rw [send, if_neg hconnected']
          exact if_pos hguard
        rw [hsend]
        exact iff_of_true (s.bounded_of_refused _ pData s.rep_cleared) fun h => absurd h hguard
  · have hsend : s.send header pData sleeps bPostSendFree =
        ⟨false, s.sendBuf, s.pTemData, 0, []⟩ := if_pos (Bool.eq_false_iff.mpr hconnected)
    rw [hsend]
    exact iff_of_true (s.bounded_of_refused header pData s.rep) fun h => absurd h hconnected

/-- A socket that has just connected. -/
def fresh : TcpSender where
  connected := true
  bSendLinger := false
  sendBuf := ⟨4194304, 4194304, 0, 0, 0, some fun _ => 0, false, false⟩
  queued := []
  pTemData _ := 0
  rep :=
    have hinit : (FxLoopBuff.new.init 4194304 (some fun _ => 0)).1 = true := rfl
    (FxLoopBuff.init_rep _ (by decide) (by decide) hinit).1
  total := by decide

/-- A payload as long as the static buffer, behind the header of a binary message. -/
theorem not_bounded_of_full :
    ¬ fresh.Bounded (some ⟨[0, 8, 0, 0, 84, 69, 83, 84], by decide⟩)
      ⟨List.replicate 524288 0, by rw [List.length_replicate]; decide⟩
      (fresh.send (some ⟨[0, 8, 0, 0, 84, 69, 83, 84], by decide⟩)
        ⟨List.replicate 524288 0, by rw [List.length_replicate]; decide⟩ (fun _ => []) true) := by
  have hfull : ∀ pDataHeaderBuff pData : Block, pDataHeaderBuff.1.length = 8 →
      pData.1.length = 524288 → ¬ fresh.Bounded (some pDataHeaderBuff) pData
        (fresh.send (some pDataHeaderBuff) pData (fun _ => []) true) := by
    intro pDataHeaderBuff pData hheader hlen
    refine fresh.not_bounded_of_lt rfl ?_ ?_ (fun _ => []) true
    · rw [hlen, hheader]
      decide
    · rw [hlen, hheader]
      decide
  exact hfull _ _ rfl List.length_replicate

end TcpSender
