import FxLib.Net.UDPFraming
import FxLib.Net.UDPOpening

/-!
# The listener on both platforms

`OnAccept` of `FxUDPListenSock` in its Linux and its Windows version, with `OnParserIoEvent` in
front of the latter. `Init` writes no slot of a window, and what a slot of a new object holds is
nothing that the program has put there: the loops run here on windows that know which of their
slots have been written.
-/

open MachineInt

namespace SlidingWindow

/-- A window, and which of its slots have been written since `Init`. -/
structure Slotted where
  window : SlidingWindow
  written : Nat → Bool

namespace Slotted

/-- `m_pSeqBufferId[id]`; `none` when nothing has written it. -/
def readSlot (t : Slotted) (id : Nat) : Option Nat :=
  if t.written id then some (t.window.seqBufferId id) else none

/-- The slots of the next `n` sequence numbers from `i`. -/
def emptySlots : Nat → Nat → Slotted → Slotted
  | 0, _, t => t
  | n + 1, i, t =>
    emptySlots n (succ i)
      ⟨t.window.emptySlot (i % windowSize), Function.update t.written (i % windowSize) true⟩

/-- The packet takes its slot if that is empty. -/
def takeSlot (cSyn btBufferId nLen : Nat) (t : Slotted) : Option Slotted :=
  if t.window.isValidIndex cSyn then
    let id := cSyn % windowSize
    (t.readSlot id).map fun slot =>
      if slot ≥ windowSize then
        { window :=
            { t.window with
              seqBufferId := Function.update t.window.seqBufferId id btBufferId
              seqSize := Function.update t.window.seqSize id nLen }
          written := Function.update t.written id true }
      else t
  else some { t with window := t.window.free btBufferId }

/-- The last packet of an unbroken row from `i`, of `n` at most. -/
def newAck (t : Slotted) : Nat → Nat → Nat → Option Nat
  | 0, _, btNewAck => some btNewAck
  | n + 1, i, btNewAck =>
    (t.readSlot (i % windowSize)).bind fun slot =>
      if slot ≥ windowSize then some btNewAck else newAck t n (succ i) i

/-- The first `n` packets of the window are taken out of it. -/
def shifts : Nat → Slotted → Option Slotted
  | 0, t => some t
  | n + 1, t =>
    (t.readSlot (t.window.btBegin % windowSize)).bind fun _ =>
      shifts n { t with window := FxUDPConnectSock.shift t.window }

/-- The first `n` packets of the window are done with. -/
def releases : Nat → Slotted → Option Slotted
  | 0, t => some t
  | n + 1, t =>
    (t.readSlot (t.window.btBegin % windowSize)).bind fun _ =>
      releases n { t with window := t.window.release }

/-- Every slot has been written. -/
def Full (t : Slotted) : Prop := ∀ id < windowSize, t.written id = true

variable {t : Slotted}

theorem Full.readSlot (h : Full t) (i : Nat) :
    t.readSlot (i % windowSize) = some (t.window.seqBufferId (i % windowSize)) :=
  if_pos (h _ (Nat.mod_lt i (by decide)))

theorem emptySlots_window (n i : Nat) (t : Slotted) :
    (emptySlots n i t).window = SlidingWindow.emptySlots n i t.window := by
  induction n generalizing i t with
  | zero => rfl
  | succ n ih => exact ih (succ i) _

/-- A slot that has been written stays so. -/
theorem emptySlots_keeps {id : Nat} (n i : Nat) (h : t.written id = true) :
    (emptySlots n i t).written id = true := by
  induction n generalizing i t with
  | zero => exact h
  | succ n ih =>
    apply ih
    change Function.update t.written (i % windowSize) true id = true
    rw [Function.update_apply]
    split
    · rfl
    · exact h

theorem emptySlots_writes {n : Nat} (i : Nat) {j : Nat} (hj : j < n) :
    (emptySlots n (i % 256) t).written ((i + j) % windowSize) = true := by
  induction n generalizing i j t with
  | zero => exact absurd hj (Nat.not_lt_zero j)
  | succ n ih =>
    have hsucc : succ (i % 256) = (i + 1) % 256 := by
      rw [succ]
      omega
    rw [emptySlots, hsucc]
    cases j with
    | zero =>
      apply emptySlots_keeps
      have hslot : (i + 0) % windowSize = i % 256 % windowSize := by
        rw [windowSize]
        omega
      rw [hslot]
      exact Function.update_self _ _ _
    | succ j =>
      rw [show i + (j + 1) = i + 1 + j by omega]
      exact ih (i + 1) (by omega)

/-- The first loop of the listener writes all slots of the receive window. -/
theorem full_emptySlots {w : SlidingWindow} (hbegin : w.btBegin = 1)
    (hend : w.btEnd = 1 + windowSize) (written : Nat → Bool) :
    Full (emptySlots w.count w.btBegin ⟨w, written⟩) := by
  intro id hid
  have hcount : w.count = windowSize := by
    rw [SlidingWindow.count, span, hbegin, hend, windowSize]
  have hwrites := emptySlots_writes (t := ⟨w, written⟩) 1 (j := (id + 31) % windowSize)
    (n := windowSize) (Nat.mod_lt _ (by decide))
  rw [windowSize] at hid
  have hmod : (1 + (id + 31) % windowSize) % windowSize = id := by
    rw [windowSize]
    omega
  rw [hmod] at hwrites
  rw [hcount, hbegin]
  exact hwrites

/-- Where all slots have been written and are empty, the loops are those that do not look whether a
slot has been written. -/
theorem Full.takeSlot (h : Full t)
    (hempty : ∀ id < windowSize, t.window.seqBufferId id = windowSize)
    (cSyn btBufferId nLen : Nat) :
    ∃ t', takeSlot cSyn btBufferId nLen t = some t' ∧ Full t' ∧
      t'.window = (FxUDPConnectSock.takeSlot cSyn btBufferId nLen t.window).2 := by
  have hslot := hempty _ (Nat.mod_lt cSyn (by decide))
  rw [Slotted.takeSlot, FxUDPConnectSock.takeSlot]
  by_cases hvalid : t.window.isValidIndex cSyn = true
  · rw [if_pos hvalid, if_pos ⟨hvalid, hslot.ge⟩]
    simp only [h.readSlot, Option.map_some, if_pos hslot.ge]
    refine ⟨_, rfl, fun id hid => ?_, rfl⟩
    simp only [Function.update_apply]
    split
    · rfl
    · exact h id hid
  · rw [if_neg hvalid, if_neg fun hc => hvalid hc.1]
    exact ⟨_, rfl, h, rfl⟩

theorem Full.newAck (h : Full t) (n i btNewAck : Nat) :
    t.newAck n i btNewAck = some (FxUDPConnectSock.newAck t.window n i btNewAck) := by
  induction n generalizing i btNewAck with
  | zero => rfl
  | succ n ih =>
    rw [Slotted.newAck, h.readSlot, Option.bind_some, FxUDPConnectSock.newAck]
    split_ifs
    · rfl
    · exact ih (succ i) i

theorem Full.shifts (h : Full t) (n : Nat) :
    ∃ t', t.shifts n = some t' ∧ t'.window = FxUDPConnectSock.shifts n t.window := by
  induction n generalizing t with
  | zero => exact ⟨t, rfl, rfl⟩
  | succ n ih =>
    rw [Slotted.shifts, h.readSlot, Option.bind_some]
    exact ih (t := { t with window := FxUDPConnectSock.shift t.window }) h

/-- A slot that nothing has written stops the loop. -/
theorem releases_unwritten {n : Nat} (hn : n ≠ 0)
    (hunwritten : t.written (t.window.btBegin % windowSize) = false) : t.releases n = none := by
  cases n with
  | zero => exact absurd rfl hn
  | succ n =>
    rw [Slotted.releases, readSlot, hunwritten]
    rfl

end Slotted

end SlidingWindow

namespace FxUDPConnectSock

open SlidingWindow UDPPacketHeader

/-! ### OnAccept -/

/-- The header is the first packet in the receive window. -/
def acceptRecv (pUDPPacketHeader : UDPPacketHeader) (ackLast : Nat) (w : SlidingWindow) :
    Option SlidingWindow := do
  let t := Slotted.emptySlots w.count w.btBegin ⟨w, fun _ => false⟩
  let (btRecvBufferId, w) := t.window.allocate
  let t ← Slotted.takeSlot pUDPPacketHeader.cSyn btRecvBufferId headSize
    { t with window := w.fill btRecvBufferId pUDPPacketHeader.bytes }
  let btNewAck ← t.newAck t.window.count t.window.btBegin ackLast
  let t ← t.shifts (span t.window.btBegin (succ btNewAck))
  return t.window

/-- What both versions do with the windows of the new socket; `none` when a loop reads a slot that
nothing has written. -/
def acceptSlots (c : FxConnection) (dNow : Rat) (pUDPPacketHeader : UDPPacketHeader)
    (u : FxUDPConnectSock) : Option FxUDPConnectSock := do
  let ackLast := pred u.sendWindow.btBegin
  let recvWindow ← acceptRecv pUDPPacketHeader ackLast u.recvWindow
  let t ← Slotted.releases (span u.sendWindow.btBegin (succ pUDPPacketHeader.cAck))
    ⟨u.sendWindow, fun _ => false⟩
  let u := { u with
    sock := { u.sock with state := .establish }
    recvWindow := recvWindow
    sendWindow := t.window
    ackLast := ackLast }
  return ({ putPacket dNow [] u with sendAck := true } : FxUDPConnectSock).establish c

/-- What the listener makes of a datagram. -/
inductive Listened where
  | refused
  /-- A loop has read a slot that nothing has written. -/
  | unwritten
  /-- The kernel has the buffer `posted` of the receive window. -/
  | opened (u : FxUDPConnectSock) (posted : Option Nat)

/-- `OnAccept` of the Linux version; no datagram is an error of `recvfrom`. -/
def linuxOnAccept (c : FxConnection) (dNow : Rat) (recvMem sendMem : Mem)
    (datagram : Option (List UInt8)) (u : FxUDPConnectSock) : Listened :=
  let oUDPPacketHeader := recvHeader datagram
  if refuses datagram oUDPPacketHeader then .refused
  else
    match acceptSlots c dNow oUDPPacketHeader (init dNow recvMem sendMem u) with
    | none => .unwritten
    | some u => .opened u none

/-- `PostRecv`, which only the Windows version has: the kernel gets the first free buffer. -/
def postRecv (u : FxUDPConnectSock) : Option Nat × FxUDPConnectSock :=
  let recvBuf := if u.sock.recvBuf.isEmpty then u.sock.recvBuf.clear else u.sock.recvBuf
  let (byRecvBufferId, w) := u.recvWindow.allocate
  let u := { u with sock := { u.sock with recvBuf := recvBuf }, recvWindow := w }
  if byRecvBufferId ≥ windowSize then (none, u) else (some byRecvBufferId, u)

/-- `OnParserIoEvent` of the Windows version looks at the header, `OnAccept` does the rest. -/
def windowsOnAccept (c : FxConnection) (dNow : Rat) (recvMem sendMem : Mem)
    (datagram : List UInt8) (u : FxUDPConnectSock) : Listened :=
  let pUDPPacketHeader := UDPPacketHeader.ofBuffer (Memory.write (fun _ => 0) 0 datagram)
  if datagram.length ≠ headSize then .refused
  else if pUDPPacketHeader.cStatus ≠ ESocketState.connect.code then .refused
  else if pUDPPacketHeader.cSyn ≠ 1 then .refused
  else
    match acceptSlots c dNow pUDPPacketHeader (init dNow recvMem sendMem u) with
    | none => .unwritten
    | some u =>
      let (posted, u) := postRecv u
      .opened u posted

inductive Platform where
  | windows
  | linux
  deriving DecidableEq

/-- The listener gets the three bytes of a header. -/
def listen (platform : Platform) (c : FxConnection) (dNow : Rat) (recvMem sendMem : Mem)
    (cStatus cSyn cAck : UInt8) (u : FxUDPConnectSock) : Listened :=
  match platform with
  | .windows => windowsOnAccept c dNow recvMem sendMem [cStatus, cSyn, cAck] u
  | .linux => linuxOnAccept c dNow recvMem sendMem (some [cStatus, cSyn, cAck]) u

/-! ### What the slots show -/

variable {u : FxUDPConnectSock} {w : SlidingWindow} {header : UDPPacketHeader}

/-- The receive window has only slots that have been written. -/
theorem acceptRecv_eq (header : UDPPacketHeader) (ackLast : Nat) (hbegin : w.btBegin = 1)
    (hend : w.btEnd = 1 + windowSize) (hpool : Pool w []) :
    acceptRecv header ackLast w = some (taken (takeSlot header.cSyn (emptied w).freeBufferId
      headSize (firstPacket w header.bytes)).2 ackLast) := by
  have hfull := Slotted.full_emptySlots hbegin hend fun _ => false
  have hemptied : (Slotted.emptySlots w.count w.btBegin ⟨w, fun _ => false⟩).window = emptied w :=
    Slotted.emptySlots_window _ _ _
  obtain ⟨-, hempty⟩ := receives_firstPacket hbegin hend hpool header.bytes
  rw [acceptRecv]
  generalize Slotted.emptySlots w.count w.btBegin ⟨w, fun _ => false⟩ = recv at hfull hemptied ⊢
  obtain ⟨t, htake, hfull', ht⟩ := Slotted.Full.takeSlot
    (t := { recv with window := firstPacket w header.bytes }) hfull hempty header.cSyn
    (emptied w).freeBufferId headSize
  obtain ⟨t', hshifts, ht'⟩ := hfull'.shifts (span t.window.btBegin (succ
    (newAck t.window t.window.count t.window.btBegin ackLast)))
  simp only [hemptied]
  rw [show Slotted.takeSlot header.cSyn (emptied w).allocate.1 headSize
    ⟨(emptied w).allocate.2.fill (emptied w).allocate.1 header.bytes, recv.written⟩ = some t from
      htake]
  rw [Option.bind_eq_bind, Option.bind_some, hfull'.newAck, Option.bind_eq_bind, Option.bind_some,
    hshifts, Option.bind_some]
  change some t'.window = _
  rw [ht', ht]
  rfl

/-- The acknowledgement decides whether only slots that have been written are read. -/
theorem acceptSlots_eq (c : FxConnection) (dNow : Rat) (hnew : New u) (hack : header.cAck < 256) :
    acceptSlots c dNow header u =
      if header.cAck = 0 then some (acceptHeader c dNow header u) else none := by
  rw [acceptSlots]
  simp only [acceptRecv_eq header _ hnew.recvBegin hnew.recvEnd hnew.recvPool, Option.bind_eq_bind,
    Option.bind_some]
  have hbegin := hnew.sends.begins
  by_cases hzero : header.cAck = 0
  · have hnone : span u.sendWindow.btBegin (succ header.cAck) = 0 := by
      rw [hbegin, hzero]
      rfl
    rw [if_pos hzero, hnone]
    simp only [Slotted.releases, Option.bind_some]
    rw [acceptHeader]
    simp only [hnone]
    rfl
  · have hsome : span u.sendWindow.btBegin (succ header.cAck) ≠ 0 := by
      rw [hbegin, SlidingWindow.span, succ]
      omega
    rw [if_neg hzero, Slotted.releases_unwritten hsome rfl]
    rfl

/-! ### What the socket looks like -/

/-- The send window holds the answer to the header alone, the receive window begins behind it, and
every other buffer is free once; the kernel has the buffers `posted`. -/
structure WellFormed (cSyn : Nat) (posted : List Nat) (u : FxUDPConnectSock) : Prop where
  one : u.sendWindow.count = 1
  reply :
    let btId := u.sendWindow.btBegin % windowSize
    Memory.read (u.sendWindow.ppBuffer (u.sendWindow.seqBufferId btId)) 0
      (u.sendWindow.seqSize btId) =
        UDPPacketHeader.bytes ⟨ESocketState.establish.code, u.sendWindow.btBegin, cSyn⟩
  sendPool : Pool u.sendWindow [u.sendWindow.seqBufferId (u.sendWindow.btBegin % windowSize)]
  recvBegin : u.recvWindow.btBegin = succ cSyn
  recvCount : u.recvWindow.count = windowSize
  recvPool : Pool u.recvWindow posted

/-- A packet stands in its buffer behind its header. -/
theorem putPacket_reads (dTime : Rat) (xs : List UInt8) (u : FxUDPConnectSock) :
    let w := (putPacket dTime xs u).sendWindow
    let btId := u.sendWindow.btEnd % windowSize
    Memory.read (w.ppBuffer (w.seqBufferId btId)) 0 (w.seqSize btId) =
      UDPPacketHeader.bytes ⟨u.sock.state.code, u.sendWindow.btEnd, pred u.recvWindow.btBegin⟩ ++
        xs := by
  simp only [putPacket, SlidingWindow.fill, Function.update_self]
  have hlen : xs.length + headSize = (UDPPacketHeader.bytes ⟨u.sock.state.code, u.sendWindow.btEnd,
      pred u.recvWindow.btBegin⟩ ++ xs).length := by
    rw [List.length_append, Nat.add_comm]
    rfl
  rw [hlen]
  exact Memory.read_write_same _ _ _

theorem acceptHeader_wellFormed (c : FxConnection) (dNow : Rat) (header : UDPPacketHeader)
    (hnew : New u) (hsyn : header.cSyn = 1) (hack : header.cAck = 0) :
    WellFormed 1 [] (acceptHeader c dNow header u) := by
  have hshaken := acceptHeader_shaken c dNow hnew hsyn hack
  obtain ⟨t, hput, hwindow, hrecv, hstate⟩ : ∃ t : FxUDPConnectSock,
      (acceptHeader c dNow header u).sendWindow = (putPacket dNow [] t).sendWindow ∧
        t.sendWindow = releases (span u.sendWindow.btBegin (succ header.cAck)) u.sendWindow ∧
        t.recvWindow = (acceptHeader c dNow header u).recvWindow ∧ t.sock.state = .establish :=
    ⟨_, rfl, rfl, rfl, rfl⟩
  have hnone : span u.sendWindow.btBegin (succ header.cAck) = 0 := by
    rw [hnew.sends.begins, hack]
    rfl
  have hend : t.sendWindow.btEnd = 1 := by
    rw [hwindow, hnone]
    exact hnew.sends.ends
  have hbegin : (acceptHeader c dNow header u).sendWindow.btBegin = 1 := hshaken.sends.begins
  refine ⟨hshaken.sends.count, ?_, ?_, hshaken.recvBegin, ?_, hshaken.recvPool⟩
  · have hreads := putPacket_reads dNow [] t
    rw [hend, hrecv, hshaken.recvBegin, hstate, ← hput, List.append_nil] at hreads
    rw [hbegin]
    exact hreads
  · rw [hbegin]
    exact hshaken.sends.pool
  · rw [SlidingWindow.count, SlidingWindow.span, hshaken.recvBegin, hshaken.recvEnd, windowSize]

/-- The kernel gets one of the free buffers. -/
theorem WellFormed.postRecv {cSyn : Nat} (h : WellFormed cSyn [] u) :
    ∃ b, (postRecv u).1 = some b ∧ WellFormed cSyn [b] (postRecv u).2 := by
  have hfree := h.recvPool.free_of_length (by decide)
  have hposted : FxUDPConnectSock.postRecv u = (some u.recvWindow.freeBufferId, { u with
      sock := { u.sock with recvBuf :=
        if u.sock.recvBuf.isEmpty then u.sock.recvBuf.clear else u.sock.recvBuf }
      recvWindow := u.recvWindow.allocate.2 }) := by
    rw [FxUDPConnectSock.postRecv]
    exact if_neg (not_le.mpr hfree)
  rw [hposted]
  exact ⟨_, rfl, h.one, h.reply, h.sendPool, h.recvBegin, h.recvCount, h.recvPool.allocate hfree⟩

/-- Either there is no connection, or its socket is well-formed and no loop has read a slot that
nothing has written. -/
def Listened.Sound (cSyn : Nat) (listened : Listened) : Prop :=
  listened = .refused ∨ ∃ u posted, listened = .opened u posted ∧ WellFormed cSyn posted.toList u

theorem not_sound_unwritten (cSyn : Nat) : ¬ Listened.Sound cSyn .unwritten := by
  rintro (hrefused | ⟨u, posted, hopened, -⟩)
  · cases hrefused
  · cases hopened

/-- The header as either version finds it in its memory. -/
theorem header_received (m : Mem) (cStatus cSyn cAck : UInt8) :
    UDPPacketHeader.ofBuffer (Memory.write m 0 [cStatus, cSyn, cAck]) =
      ⟨cStatus.toNat, cSyn.toNat, cAck.toNat⟩ := by
  simp [UDPPacketHeader.ofBuffer, Memory.write]

theorem windowsOnAccept_sound (c : FxConnection) (dNow : Rat) (recvMem sendMem : Mem)
    (cStatus cSyn cAck : UInt8) (pool : FxUDPConnectSock) :
    Listened.Sound cSyn.toNat (windowsOnAccept c dNow recvMem sendMem [cStatus, cSyn, cAck] pool) ↔
      (cStatus.toNat = ESocketState.connect.code → cSyn = 1 → cAck = 0) := by
  have hnew := new_init dNow recvMem sendMem pool
  simp only [windowsOnAccept, header_received]
  rw [if_neg (not_ne_iff.mpr (show [cStatus, cSyn, cAck].length = headSize from rfl))]
  by_cases hstatus : cStatus.toNat = ESocketState.connect.code
  swap
  · rw [if_pos hstatus]
    exact iff_of_true (Or.inl rfl) fun hc => absurd hc hstatus
  rw [if_neg (not_ne_iff.mpr hstatus)]
  by_cases hsyn : cSyn.toNat = 1
  swap
  · rw [if_pos hsyn]
    exact iff_of_true (Or.inl rfl) fun _ hc => absurd (congrArg UInt8.toNat hc) hsyn
  rw [if_neg (not_ne_iff.mpr hsyn), acceptSlots_eq c dNow hnew (UInt8.toNat_lt cAck)]
  by_cases hack : cAck.toNat = 0
  · obtain ⟨b, hposted, hwell⟩ := (acceptHeader_wellFormed c dNow
      ⟨cStatus.toNat, cSyn.toNat, cAck.toNat⟩ hnew hsyn hack).postRecv
    rw [if_pos hack]
    rw [← hsyn] at hwell
    refine iff_of_true (Or.inr ⟨_, some b, ?_, hwell⟩) fun _ _ => UInt8.toNat_inj.mp hack
    simp only
    rw [← hposted]
  · rw [if_neg hack]
    refine iff_of_false (not_sound_unwritten _) fun hc => hack ?_
    exact congrArg UInt8.toNat (hc hstatus (UInt8.toNat_inj.mp hsyn))

theorem linuxOnAccept_sound (c : FxConnection) (dNow : Rat) (recvMem sendMem : Mem)
    (cStatus cSyn cAck : UInt8) (pool : FxUDPConnectSock) :
    Listened.Sound cSyn.toNat
      (linuxOnAccept c dNow recvMem sendMem (some [cStatus, cSyn, cAck]) pool) := by
  have hnew := new_init dNow recvMem sendMem pool
  have hheader : recvHeader (some [cStatus, cSyn, cAck]) =
      ⟨cStatus.toNat, cSyn.toNat, cAck.toNat⟩ := header_received _ _ _ _
  rw [linuxOnAccept, hheader]
  by_cases hrefuses : refuses (some [cStatus, cSyn, cAck])
      ⟨cStatus.toNat, cSyn.toNat, cAck.toNat⟩
  · rw [if_pos hrefuses]
    exact Or.inl rfl
  rw [if_neg hrefuses, acceptSlots_eq c dNow hnew (UInt8.toNat_lt cAck)]
  have hack : cAck.toNat = 0 := by
    by_contra hack
    exact hrefuses ⟨by simp, Or.inl hack⟩
  have hsyn : cSyn.toNat = 1 := by
    by_contra hsyn
    exact hrefuses ⟨by simp, Or.inr (Or.inl hsyn)⟩
  have hwell := acceptHeader_wellFormed c dNow
    ⟨cStatus.toNat, cSyn.toNat, cAck.toNat⟩ hnew hsyn hack
  rw [if_pos hack]
  refine Or.inr ⟨_, none, rfl, ?_⟩
  rw [hsyn] at hwell ⊢
  exact hwell

/-- The listener leaves a well-formed socket on both platforms, unless the header acknowledges what
was not sent and the Windows version takes it. -/
theorem listen_sound_iff (platform : Platform) (c : FxConnection) (dNow : Rat)
    (recvMem sendMem : Mem) (cStatus cSyn cAck : UInt8) (pool : FxUDPConnectSock) :
    Listened.Sound cSyn.toNat (listen platform c dNow recvMem sendMem cStatus cSyn cAck pool) ↔
      (platform = .windows → cStatus.toNat = ESocketState.connect.code → cSyn = 1 → cAck = 0) := by
  cases platform with
  | windows =>
    rw [imp_iff_right rfl]
    exact windowsOnAccept_sound c dNow recvMem sendMem cStatus cSyn cAck pool
  | linux =>
    refine iff_of_true (linuxOnAccept_sound c dNow recvMem sendMem cStatus cSyn cAck pool) ?_
    intro hc
    cases hc

/-- The Windows version takes a header with the acknowledgement 1, and its loop over the send window
begins with a slot that nothing has written. -/
theorem windows_listens_unsound :
    ¬ Listened.Sound 1 (listen .windows (FxConnection.new true false .udp none) 0 (fun _ => 0)
      (fun _ => 0) (UInt8.ofNat ESocketState.connect.code) 1 1 (accepted 16)) := by
  intro hsound
  have hiff := windowsOnAccept_sound (FxConnection.new true false .udp none) 0 (fun _ => 0)
    (fun _ => 0) (UInt8.ofNat ESocketState.connect.code) 1 1 (accepted 16)
  exact absurd (hiff.mp hsound rfl rfl) (by decide)

end FxUDPConnectSock
