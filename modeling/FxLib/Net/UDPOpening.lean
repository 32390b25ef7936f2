import FxLib.Net.UDPWindows

/-!
# The windows behind the handshake

What `Connect` and `OnAccept` leave in the two windows and in the send ring: the first packet of
each side, and that of the peer already taken out.
-/

open MachineInt

namespace SlidingWindow

variable {w : SlidingWindow}

theorem emptySlots_same (n i : Nat) (w : SlidingWindow) :
    (emptySlots n i w).ppBuffer = w.ppBuffer ∧ (emptySlots n i w).freeBufferId = w.freeBufferId ∧
      (emptySlots n i w).btBegin = w.btBegin ∧ (emptySlots n i w).btEnd = w.btEnd := by
  induction n generalizing i w with
  | zero => exact ⟨rfl, rfl, rfl, rfl⟩
  | succ n ih => exact ih (succ i) (w.emptySlot (i % windowSize))

/-- A slot that is empty stays so. -/
theorem emptySlots_keeps {id : Nat} (n i : Nat) (h : w.seqBufferId id = windowSize) :
    (emptySlots n i w).seqBufferId id = windowSize := by
  induction n generalizing i w with
  | zero => exact h
  | succ n ih =>
    apply ih
    show Function.update w.seqBufferId (i % windowSize) windowSize id = windowSize
    rw [Function.update_apply]
    split
    · rfl
    · exact h

theorem emptySlots_empties {n : Nat} (i : Nat) {j : Nat} (hj : j < n) :
    (emptySlots n (i % 256) w).seqBufferId ((i + j) % windowSize) = windowSize := by
  induction n generalizing i j w with
  | zero => exact absurd hj (Nat.not_lt_zero j)
  | succ n ih =>
    have hsucc : succ (i % 256) = (i + 1) % 256 := by
      rw [succ]
      omega
    rw [emptySlots, hsucc]
    cases j with
    | zero =>
      apply emptySlots_keeps
      have hslot : (i + 0) % windowSize = i % 256 % windowSize := by
        rw [windowSize]
        omega
      rw [hslot]
      exact Function.update_self _ _ _
    | succ j =>
      rw [show i + (j + 1) = i + 1 + j by omega]
      exact ih (i + 1) (by omega)

theorem slots_empty (hempty : ∀ id < windowSize, w.seqBufferId id = windowSize) : w.slots = [] := by
  rw [slots, List.filter_eq_nil_iff]
  intro b hb
  obtain ⟨id, hid, rfl⟩ := List.mem_map.mp hb
  rw [hempty id (List.mem_range.mp hid)]
  simp

/-- A window whose slots have been emptied holds nothing yet. -/
theorem receives_emptySlots (data : Nat → List UInt8) (last : Nat) (hbegin : w.btBegin = 1)
    (hend : w.btEnd = 1 + windowSize) (hpool : Pool w []) :
    Receives (emptySlots w.count w.btBegin w) data 1 last [] ∧
      ∀ id < windowSize, (emptySlots w.count w.btBegin w).seqBufferId id = windowSize := by
  obtain ⟨hbuffer, hfree, hbegin', hend'⟩ := emptySlots_same w.count w.btBegin w
  have hcount : w.count = windowSize := by
    rw [SlidingWindow.count, span, hbegin, hend, windowSize]
  have hempty : ∀ id < windowSize,
      (emptySlots w.count w.btBegin w).seqBufferId id = windowSize := by
    intro id hid
    have hslot := emptySlots_empties (w := w) 1 (j := (id + 31) % windowSize) (n := windowSize)
      (Nat.mod_lt _ (by decide))
    rw [hcount, hbegin]
    rw [windowSize] at hid
    have hmod : (1 + (id + 31) % windowSize) % windowSize = id := by
      rw [windowSize]
      omega
    rw [hmod] at hslot
    exact hslot
  refine ⟨⟨?_, ?_, ?_, fun n _ _ hfull => ?_⟩, hempty⟩
  · rw [hbegin', hbegin]
  · rw [hend', hend, windowSize]
  · rw [slots_empty hempty]
    exact hpool.congr hbuffer hfree
  · rw [hempty (n % windowSize) (Nat.mod_lt n (by decide))] at hfull
    exact absurd hfull (lt_irrefl _)

theorem sends_clearBuffer (w : SlidingWindow) (data : Nat → List UInt8) :
    Sends { w.clearBuffer with btBegin := 1, btEnd := 1 } data 1 1 :=
  ⟨rfl, rfl, le_rfl, (pool_clearBuffer w).congr rfl rfl, fun _ hge hlt => by omega⟩

end SlidingWindow

namespace FxUDPConnectSock

open SlidingWindow UDPPacketHeader

variable {w : SlidingWindow} {data : Nat → List UInt8} {last next b : Nat}

/-- The receive window of a new socket with its slots emptied. -/
def emptied (w : SlidingWindow) : SlidingWindow := emptySlots w.count w.btBegin w

/-- And with a packet of the peer in its first free buffer. -/
def firstPacket (w : SlidingWindow) (bytes : List UInt8) : SlidingWindow :=
  (emptied w).allocate.2.fill (emptied w).freeBufferId bytes

theorem receives_firstPacket (hbegin : w.btBegin = 1) (hend : w.btEnd = 1 + windowSize)
    (hpool : Pool w []) (bytes : List UInt8) :
    Receives (firstPacket w bytes) (fun _ => []) 1 33 [(emptied w).freeBufferId] ∧
      ∀ id < windowSize, (firstPacket w bytes).seqBufferId id = windowSize := by
  obtain ⟨hreceives, hempty⟩ := receives_emptySlots (fun _ => []) 33 hbegin hend hpool
  have hfree := hreceives.free_of_empty (show 0 < windowSize by decide) (hempty 0 (by decide)).ge
  exact ⟨(hreceives.allocate hfree).fill, hempty⟩

/-- The receive window once its unbroken row of packets has been taken out; the row is looked for as
if the last packet before it were `btNewAck`. -/
def taken (w : SlidingWindow) (btNewAck : Nat) : SlidingWindow :=
  shifts (span w.btBegin (succ (newAck w w.count w.btBegin btNewAck))) w

/-- The first packet takes its slot. -/
theorem takeSlot_firstPacket (hbegin : w.btBegin = 1) (hend : w.btEnd = 1 + windowSize)
    (hpool : Pool w []) (bytes : List UInt8) :
    (takeSlot 1 (emptied w).freeBufferId headSize (firstPacket w bytes)).1 = true ∧
      (takeSlot 1 (emptied w).freeBufferId headSize (firstPacket w bytes)).2.seqBufferId =
        Function.update (firstPacket w bytes).seqBufferId 1 (emptied w).freeBufferId := by
  obtain ⟨hfirst, hempty⟩ := receives_firstPacket hbegin hend hpool bytes
  have htakes : (firstPacket w bytes).isValidIndex 1 = true ∧
      (firstPacket w bytes).seqBufferId (1 % windowSize) ≥ windowSize := by
    refine ⟨?_, (hempty _ (by decide)).ge⟩
    rw [isValidIndex, hfirst.count, hfirst.begins]
    rfl
  rw [takeSlot, if_pos htakes]
  exact ⟨rfl, rfl⟩

/-- And is taken out at once. -/
theorem opening_first (hbegin : w.btBegin = 1) (hend : w.btEnd = 1 + windowSize)
    (hpool : Pool w []) (bytes : List UInt8) {t : SlidingWindow}
    (ht : t = (takeSlot 1 (emptied w).freeBufferId headSize (firstPacket w bytes)).2) :
    (taken t 0).btBegin = 2 ∧ (taken t 0).btEnd = 2 + windowSize ∧ Pool (taken t 0) [] ∧
      ∀ id < windowSize, (taken t 0).seqBufferId id = windowSize := by
  obtain ⟨hfirst, hempty⟩ := receives_firstPacket hbegin hend hpool bytes
  obtain ⟨-, hslot⟩ := takeSlot_firstPacket hbegin hend hpool bytes
  have htake : Receives t (fun _ => []) 1 33 [] := by
    rw [ht]
    have hnothing : Memory.read ((firstPacket w bytes).ppBuffer (emptied w).freeBufferId) headSize
        ([] : List UInt8).length = [] := rfl
    refine (receives_takeSlot hfirst (by decide) (by decide) hnothing fun n _ hn _ _ => ?_).1
    exact ⟨by rw [windowSize] at hn; omega, rfl⟩
  have hfull : t.seqBufferId 1 < windowSize := by
    rw [ht, hslot, Function.update_self]
    exact hfirst.pool.lt List.mem_cons_self
  have hother : ∀ id < windowSize, id ≠ 1 → t.seqBufferId id = windowSize := by
    intro id hid hne
    rw [ht, hslot, Function.update_of_ne hne, hempty id hid]
  obtain ⟨k, -, hspan, hrow, hrest⟩ := receives_row htake
  have hone : k = 1 := by
    rcases Nat.lt_trichotomy k 1 with hk | hk | hk
    · obtain rfl : k = 0 := by omega
      exact absurd (hrest (by decide)) (not_le.mpr hfull)
    · exact hk
    · exact absurd (hother 2 (by decide) (by decide)) (hrow 1 hk).ne
  have hpred : pred t.btBegin = 0 := by
    rw [htake.begins]
    rfl
  have hshift : taken t 0 = shift t := by
    rw [taken, ← hpred, hspan, hone]
    rfl
  have hreceives : Receives (taken t 0) (fun _ => []) 2 33 [] := by
    rw [hshift]
    exact htake.shift hfull
  have hall : ∀ id < windowSize, (taken t 0).seqBufferId id = windowSize := by
    intro id hid
    have hslots : (shift t).seqBufferId = Function.update t.seqBufferId 1 windowSize := by
      rw [shift, htake.begins]
      rfl
    rw [hshift, hslots, Function.update_apply]
    split_ifs with hid1
    · rfl
    · exact hother id hid hid1
  have hpool' := hreceives.pool
  rw [slots_empty hall] at hpool'
  exact ⟨hreceives.begins, hreceives.ends, hpool', hall⟩

/-- What `Init` leaves. -/
structure New (u : FxUDPConnectSock) : Prop where
  sends : Sends u.sendWindow (fun _ => []) 1 1
  recvBegin : u.recvWindow.btBegin = 1
  recvEnd : u.recvWindow.btEnd = 1 + windowSize
  recvPool : Pool u.recvWindow []
  rep : u.sendBuf.Rep []
  totalLen : u.sendBuf.totalLen = buffSize
  pushed : u.pushed = []
  taken : u.sock.taken = []

variable {u u' : FxUDPConnectSock}

theorem new_init (dNow : Rat) (recvMem sendMem : Mem) (u : FxUDPConnectSock) :
    New (init dNow recvMem sendMem u) := by
  have hinit : (FxLoopBuff.new.init buffSize (some sendMem)).1 = true := rfl
  obtain ⟨hrep, -, htotal⟩ := FxLoopBuff.init_rep FxLoopBuff.new (by decide)
    ⟨by decide, by decide⟩ hinit
  exact ⟨sends_clearBuffer _ _, rfl, rfl, (pool_clearBuffer _).congr rfl rfl, hrep, htotal, rfl,
    rfl⟩

/-- The header of `Connect` takes its place in the send window, in a buffer that is not written. -/
theorem connectStart_sends (dNow : Rat) (hnew : New u) :
    Sends (connectStart dNow u).2.sendWindow (Function.update (fun _ => []) 1 []) 1 2 := by
  have hfree := hnew.sends.pool.free_of_length (by simp [buffers, windowSize])
  exact hnew.sends.place (by decide) ((hnew.sends.pool.allocate hfree).congr rfl rfl)
    (fun _ _ => rfl) rfl rfl rfl rfl rfl

/-- Where the own header acknowledges nothing and the answer takes its slot, the send window stays,
and what stands in the receive window is taken out. -/
theorem connectEnd_same (c : FxConnection) {header refPacket : UDPPacketHeader}
    (hbegin : u.sendWindow.btBegin = 1) (hack : header.cAck = 0)
    (hslot : (takeSlot refPacket.cSyn b headSize u.recvWindow).1 = true) :
    (connectEnd c header refPacket b u).sendWindow = u.sendWindow ∧
      (connectEnd c header refPacket b u).recvWindow =
        taken (takeSlot refPacket.cSyn b headSize u.recvWindow).2 0 ∧
      SameSending u (connectEnd c header refPacket b u) ∧
      (connectEnd c header refPacket b u).sock.taken = u.sock.taken := by
  have hnone : span u.sendWindow.btBegin (succ header.cAck) = 0 := by
    rw [hbegin, hack]
    rfl
  have hpred : pred u.sendWindow.btBegin = 0 := by
    rw [hbegin]
    rfl
  refine ⟨?_, ?_, ⟨rfl, rfl, rfl⟩, rfl⟩
  · simp only [connectEnd, hnone, releases, establish]
  · simp only [connectEnd, hnone, hslot, releases, if_true, establish, taken, hpred]

/-- What the handshake leaves: the own first packet in the send window, and that of the peer taken
out of the receive window. -/
structure Shaken (u : FxUDPConnectSock) : Prop where
  sends : Sends u.sendWindow (fun _ => []) 1 2
  recvBegin : u.recvWindow.btBegin = 2
  recvEnd : u.recvWindow.btEnd = 2 + windowSize
  recvPool : Pool u.recvWindow []
  empty : ∀ id < windowSize, u.recvWindow.seqBufferId id = windowSize
  rep : u.sendBuf.Rep []
  totalLen : u.sendBuf.totalLen = buffSize
  pushed : u.pushed = []
  taken : u.sock.taken = []

theorem New.shaken (hnew : New u) {v : SlidingWindow} (hsendWindow : u'.sendWindow = v)
    (hrecvWindow : u'.recvWindow = w) (hsame : SameSending u u')
    (htaken : u'.sock.taken = u.sock.taken) (hsends : Sends v (fun _ => []) 1 2)
    (hfirst : w.btBegin = 2 ∧ w.btEnd = 2 + windowSize ∧ Pool w [] ∧
      ∀ id < windowSize, w.seqBufferId id = windowSize) : Shaken u' := by
  subst hsendWindow hrecvWindow
  obtain ⟨hbegin, hend, hpool, hempty⟩ := hfirst
  refine ⟨hsends, hbegin, hend, hpool, hempty, ?_, ?_, hsame.pushed.trans hnew.pushed,
    htaken.trans hnew.taken⟩
  · rw [hsame.sendBuf]
    exact hnew.rep
  · rw [hsame.sendBuf]
    exact hnew.totalLen

/-- `Connect` comes to its end with the answer that it wants. -/
theorem connect_shaken {c : FxConnection} {dNow : Rat} {answer : List UInt8} (hnew : New u)
    (h : connect c dNow answer u = some u') : Shaken u' := by
  have hsends := connectStart_sends dNow hnew
  rw [Function.update_eq_self] at hsends
  have hack : u.synHeader.cAck = 0 := by
    show pred u.recvWindow.btBegin = 0
    rw [hnew.recvBegin]
    rfl
  obtain ⟨hslot, -⟩ := takeSlot_firstPacket hnew.recvBegin hnew.recvEnd hnew.recvPool
    (answer.take headSize)
  have hfirst := opening_first hnew.recvBegin hnew.recvEnd hnew.recvPool
    (answer.take headSize) rfl
  simp only [connect] at h
  split_ifs at h with hrefused hsyn hstatus
  obtain rfl := Option.some.inj h
  rw [← not_ne_iff.mp hsyn] at hslot hfirst
  obtain ⟨hsendWindow, hrecvWindow, hsame, htaken⟩ := connectEnd_same c
    (u := { (connectStart dNow u).2 with
      recvWindow := (connectStart dNow u).2.recvWindow.fill (connectStart dNow u).1
        (answer.take headSize) }) hsends.begins hack hslot
  exact hnew.shaken hsendWindow hrecvWindow ⟨hsame.sendBuf, hsame.pushed, hsame.sent⟩ htaken hsends
    hfirst

/-- The listener's side: the header is taken as the first packet, and the answer stands in the send
window. -/
theorem acceptHeader_shaken (c : FxConnection) (dNow : Rat) {header : UDPPacketHeader}
    (hnew : New u) (hsyn : header.cSyn = 1) (hack : header.cAck = 0) :
    Shaken (acceptHeader c dNow header u) := by
  have hpred : pred u.sendWindow.btBegin = 0 := by
    rw [hnew.sends.begins]
    rfl
  have hnone : span u.sendWindow.btBegin (succ header.cAck) = 0 := by
    rw [hnew.sends.begins, hack]
    decide
  have hput : ∀ t : FxUDPConnectSock,
      t.sendWindow = releases (span u.sendWindow.btBegin (succ header.cAck)) u.sendWindow →
        Sends (putPacket dNow [] t).sendWindow (fun _ => []) 1 2 := by
    intro t ht
    rw [hnone] at ht
    have hsends : Sends t.sendWindow (fun _ => []) 1 1 := by
      rw [ht]
      exact hnew.sends
    have hfree := hsends.pool.free_of_length (by simp [buffers, windowSize])
    have hputs := (putPacket_puts dNow [] hsends hfree (by decide)).sends
    rw [Function.update_eq_self] at hputs
    exact hputs
  have hfirst := opening_first hnew.recvBegin hnew.recvEnd hnew.recvPool header.bytes rfl
  rw [← hsyn, ← hpred] at hfirst
  exact hnew.shaken rfl rfl ⟨rfl, rfl, rfl⟩ rfl (hput _ rfl) hfirst

/-- `OnAccept` with a datagram that is not empty. -/
theorem onAccept_shaken {c : FxConnection} {dNow : Rat} {recvMem sendMem : Mem}
    {datagram : Option (List UInt8)} (hdatagram : datagram ≠ some [])
    (h : onAccept c dNow recvMem sendMem datagram u = some u') : Shaken u' := by
  rw [onAccept] at h
  split_ifs at h with hrefuses
  obtain rfl := Option.some.inj h
  apply acceptHeader_shaken _ _ (new_init _ _ _ _)
  · by_contra hsyn
    exact hrefuses ⟨hdatagram, Or.inr (Or.inl hsyn)⟩
  · by_contra hack
    exact hrefuses ⟨hdatagram, Or.inl hack⟩

end FxUDPConnectSock
