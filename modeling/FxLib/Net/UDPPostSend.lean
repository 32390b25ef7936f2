import FxLib.Net.LoopBuffSpec
import FxLib.Net.UDPSteps
import FxLib.Net.WindowBuffers

/-!
# PostSend and the send window

Data leaves the send ring in packets of the send window, in its order, and what goes to the kernel
is always a packet of the window or an acknowledgement alone.
-/

open MachineInt

namespace SlidingWindow

/-- The bytes of the packets from `first` on, `n` of them. -/
def stream (data : Nat → List UInt8) (first n : Nat) : List UInt8 :=
  ((List.range' first n).map data).flatten

theorem stream_zero (data : Nat → List UInt8) (first : Nat) : stream data first 0 = [] := rfl

theorem stream_succ (data : Nat → List UInt8) (first n : Nat) :
    stream data first (n + 1) = data first ++ stream data (first + 1) n := by
  rw [stream, List.range'_succ, List.map_cons, List.flatten_cons, stream]

theorem stream_add (data : Nat → List UInt8) (first n k : Nat) :
    stream data first (n + k) = stream data first n ++ stream data (first + n) k := by
  induction n generalizing first with
  | zero => rw [Nat.zero_add, stream_zero, List.nil_append, Nat.add_zero]
  | succ n ih =>
    rw [show n + 1 + k = n + k + 1 by omega, stream_succ, ih, stream_succ, List.append_assoc,
      show first + 1 + n = first + (n + 1) by omega]

theorem stream_congr {data data' : Nat → List UInt8} {first n : Nat}
    (h : ∀ i, first ≤ i → i < first + n → data' i = data i) :
    stream data' first n = stream data first n := by
  rw [stream, stream]
  refine congrArg List.flatten (List.map_congr_left fun i hi => ?_)
  obtain ⟨hge, hlt⟩ := List.mem_range'_1.mp hi
  exact h i hge hlt

theorem stream_mono (data : Nat → List UInt8) (first : Nat) {n n' : Nat} (h : n ≤ n') :
    stream data first n <+: stream data first n' := by
  obtain ⟨k, rfl⟩ := Nat.exists_eq_add_of_le h
  rw [stream_add]
  exact List.prefix_append _ _

/-- Packets have been put into a window, with the bytes `xs` in them. -/
structure Puts (w : SlidingWindow) (data data' : Nat → List UInt8) (first last last' : Nat)
    (xs : List UInt8) : Prop where
  sends : Sends w data' first last'
  le : last ≤ last'
  keeps : ∀ n < last, data' n = data n
  bytes : stream data' last (last' - last) = xs

variable {w w' : SlidingWindow} {data data' data'' : Nat → List UInt8}
  {first last last' last'' : Nat} {xs ys : List UInt8}

theorem Sends.puts (h : Sends w data first last) : Puts w data data first last last [] :=
  ⟨h, le_rfl, fun _ _ => rfl, by rw [Nat.sub_self, stream_zero]⟩

theorem Puts.trans (h : Puts w data data' first last last' xs)
    (h' : Puts w' data' data'' first last' last'' ys) :
    Puts w' data data'' first last last'' (xs ++ ys) := by
  have hle := h.le
  have hle' := h'.le
  refine ⟨h'.sends, hle.trans hle', fun n hn => ?_, ?_⟩
  · rw [h'.keeps n (by omega), h.keeps n hn]
  · have hxs := h.bytes
    have hsame : stream data'' last (last' - last) = stream data' last (last' - last) :=
      stream_congr fun i _ hi => h'.keeps i (by omega)
    rw [show last'' - last = last' - last + (last'' - last') by omega, stream_add, hsame, hxs,
      Nat.add_sub_cancel' hle, h'.bytes]

/-- Other fields of the window may change. -/
theorem Puts.sends_congr (h : Puts w data data' first last last' xs)
    (hsends : Sends w' data' first last') : Puts w' data data' first last last' xs :=
  ⟨hsends, h.le, h.keeps, h.bytes⟩

end SlidingWindow

namespace FxUDPConnectSock

open RecvSock SlidingWindow

variable {u u' : FxUDPConnectSock} {data data' : Nat → List UInt8} {first last last' : Nat}
  {xs : List UInt8}

/-! ### Packets of the window -/

/-- Where a packet is put, its bytes stand behind a header. -/
theorem read_behind_header (m : Mem) {header : List UInt8}
    (hlen : header.length = UDPPacketHeader.headSize) (xs : List UInt8) :
    Memory.read (Memory.write m 0 (header ++ xs)) UDPPacketHeader.headSize xs.length = xs := by
  have hwhole := Memory.read_write_same m 0 (header ++ xs)
  rw [List.length_append, hlen, Memory.read_add] at hwhole
  exact (List.append_inj hwhole (by simp [hlen])).2

theorem putPacket_puts (dTime : Rat) (xs : List UInt8) (h : Sends u.sendWindow data first last)
    (hfree : u.sendWindow.freeBufferId < windowSize)
    (hshort : UDPPacketHeader.headSize + xs.length ≤ bufferSize) :
    Puts (putPacket dTime xs u).sendWindow data (Function.update data last xs) first last (last + 1)
      xs := by
  have hpool := h.pool.allocate hfree
  refine ⟨h.place hshort ?_ ?_ rfl ?_ ?_ rfl rfl, Nat.le_succ last, fun n hn => ?_, ?_⟩
  · exact (hpool.fill List.mem_cons_self).congr rfl rfl
  · intro b hb
    exact Function.update_of_ne hb _ _
  · exact congrArg (Function.update u.sendWindow.seqSize (u.sendWindow.btEnd % windowSize))
      (Nat.add_comm xs.length UDPPacketHeader.headSize)
  · have hbuffer : (putPacket dTime xs u).sendWindow.ppBuffer u.sendWindow.freeBufferId =
        Memory.write (u.sendWindow.ppBuffer u.sendWindow.freeBufferId) 0
          ((⟨u.sock.state.code, u.sendWindow.btEnd, pred u.recvWindow.btBegin⟩ :
            UDPPacketHeader).bytes ++ xs) := Function.update_self _ _ _
    rw [hbuffer, read_behind_header _ rfl]
  · exact Function.update_of_ne hn.ne _ _
  · rw [Nat.add_sub_cancel_left, stream_succ, Function.update_self, stream_zero, List.append_nil]

theorem fillWindow_puts {dTime : Rat} {n : Nat} {rest : List UInt8}
    (h : Sends u.sendWindow data first last) (hfill : fillWindow dTime n xs u = (rest, u')) :
    ∃ data' last' ys, Puts u'.sendWindow data data' first last last' ys ∧ xs = ys ++ rest ∧
      SameSending u u' := by
  induction n generalizing u data last xs with
  | zero =>
    obtain ⟨rfl, rfl⟩ := Prod.mk.inj hfill
    exact ⟨data, last, [], h.puts, rfl, rfl, rfl, rfl⟩
  | succ n ih =>
    have hstop : (xs, u) = (rest, u') → ∃ data' last' ys,
        Puts u'.sendWindow data data' first last last' ys ∧ xs = ys ++ rest ∧ SameSending u u' := by
      intro hsame
      obtain ⟨rfl, rfl⟩ := Prod.mk.inj hsame
      exact ⟨data, last, [], h.puts, rfl, rfl, rfl, rfl⟩
    rw [fillWindow] at hfill
    split_ifs at hfill with hroom hcontrol
    · exact hstop hfill
    · have hput := putPacket_puts dTime (xs.take (bufferSize - UDPPacketHeader.headSize)) h
        hroom.1 (by
          rw [List.length_take, bufferSize, UDPPacketHeader.headSize]
          omega)
      obtain ⟨data', last', ys, hrest, hxs, hsame⟩ := ih hput.sends hfill
      refine ⟨data', last', _, hput.trans hrest, ?_, hsame.sendBuf, hsame.pushed, hsame.sent⟩
      rw [List.append_assoc, ← hxs, List.take_append_drop]
    · exact hstop hfill

/-- What is put into the window leaves the ring. -/
theorem putPackets_puts (dTime : Rat) {q : List UInt8} (h : Sends u.sendWindow data first last)
    (hrep : u.sendBuf.Rep q) (hsmall : u.sendBuf.totalLen ≤ 1073741824) :
    ∃ data' last' ys q', Puts (putPackets dTime u).sendWindow data data' first last last' ys ∧
      (putPackets dTime u).sendBuf.Rep q' ∧ q = ys ++ q' ∧
      (putPackets dTime u).sendBuf.totalLen = u.sendBuf.totalLen ∧
      (putPackets dTime u).pushed = u.pushed ∧ (putPackets dTime u).sent = u.sent := by
  obtain ⟨n, hdata, hn⟩ : ∃ n, u.sendBuf.copyOut u.sendBuf.getOutCursorPtr.ptr
      u.sendBuf.getOutCursorPtr.len = q.take n ∧ n ≤ q.length := by
    by_cases hq : q = []
    · subst hq
      rw [FxLoopBuff.getOutCursorPtr_empty hrep]
      exact ⟨0, rfl, le_rfl⟩
    · obtain ⟨n, hptr, -, hn, -, hread⟩ := FxLoopBuff.getOutCursorPtr_eq hrep hq
      rw [hptr]
      exact ⟨n, hread, hn⟩
  simp only [putPackets, hdata]
  generalize hfill : fillWindow dTime (q.take n).length (q.take n) u = filled
  obtain ⟨rest, v⟩ := filled
  obtain ⟨data', last', ys, hputs, hys, hsame⟩ := fillWindow_puts h hfill
  have hlen : (q.take n).length - rest.length = ys.length := by
    rw [hys, List.length_append, Nat.add_sub_cancel]
  have hyslen : ys.length ≤ q.length := by
    have hcut := congrArg List.length hys
    rw [List.length_take, List.length_append] at hcut
    omega
  have hq : q = ys ++ q.drop ys.length := by
    have hcut : ys = q.take ys.length := by
      have hprefix : ys <+: q := (List.prefix_append ys rest).trans (hys ▸ List.take_prefix n q)
      exact List.prefix_iff_eq_take.mp hprefix
    conv_lhs => rw [← List.take_append_drop ys.length q, ← hcut]
  have hring : ∃ v', (if (q.take n).length - rest.length > 0 then
        { v with sendBuf := (v.sendBuf.discardBuff ((q.take n).length - rest.length : Nat)).2 }
      else v) = v' ∧ v'.sendBuf.Rep (q.drop ys.length) ∧
      v'.sendBuf.totalLen = u.sendBuf.totalLen ∧ v'.sendWindow = v.sendWindow ∧
      v'.pushed = u.pushed ∧ v'.sent = u.sent := by
    refine ⟨_, rfl, ?_⟩
    rw [hlen]
    by_cases hpos : ys.length > 0
    · have hout := hrep.out_lt
      have hqlen := hrep.length_le
      have hdiscard := FxLoopBuff.discardBuff_eq hrep (show (0 : Int) < ys.length by omega)
        (by omega)
        ⟨by have := hrep.out_nonneg; omega, by omega⟩
      simp only [if_pos hpos, hsame.sendBuf, hdiscard, Int.toNat_natCast]
      exact ⟨hrep.advanceOut hyslen, by simp, trivial, hsame.pushed, hsame.sent⟩
    · rw [if_neg hpos, hsame.sendBuf, List.eq_nil_of_length_eq_zero (Nat.eq_zero_of_not_pos hpos)]
      exact ⟨hrep, rfl, rfl, hsame.pushed, hsame.sent⟩
  obtain ⟨v', hv', hrep', htotal, hwindow, hpushed, hsent⟩ := hring
  simp only [hv']
  rw [← hwindow] at hputs
  split_ifs with hempty hroom
  · have hput := putPacket_puts dTime [] hputs.sends hroom.2 (by decide)
    have hboth := hputs.trans hput
    rw [List.append_nil] at hboth
    exact ⟨_, _, ys, _, hboth, hrep', hq, htotal, hpushed, hsent⟩
  · exact ⟨_, _, ys, _, hputs, hrep', hq, htotal, hpushed, hsent⟩
  · exact ⟨_, _, ys, _, hputs, hrep', hq, htotal, hpushed, hsent⟩

/-- What the application pushes goes behind what is in the ring, as a whole or not at all. -/
theorem pushFrame_ring (xs : List UInt8) {q : List UInt8} (hrep : u.sendBuf.Rep q)
    (hsmall : u.sendBuf.totalLen ≤ 1073741824) :
    ∃ ys, (pushFrame xs u).sendBuf.Rep (q ++ ys) ∧
      (pushFrame xs u).sendBuf.totalLen = u.sendBuf.totalLen ∧
      (pushFrame xs u).pushed = u.pushed ++ ys ∧ (ys = [] ∨ ys = xs) := by
  obtain ⟨ring, hring, hrep', htotal⟩ : ∃ ring,
      (if u.sendBuf.isEmpty then u.sendBuf.clear else u.sendBuf) = ring ∧ ring.Rep q ∧
        ring.totalLen = u.sendBuf.totalLen := by
    refine ⟨_, rfl, ?_⟩
    by_cases hempty : u.sendBuf.isEmpty = true
    · obtain rfl : q = [] := hrep.isEmpty_iff.mp (by simpa [FxLoopBuff.isEmpty] using hempty)
      rw [if_pos hempty]
      exact ⟨hrep.clear hempty, rfl⟩
    · rw [if_neg hempty]
      exact ⟨hrep, rfl⟩
  rw [pushFrame, hring]
  have hlen := hrep'.free
  have hin := hrep'.in_lt
  have hnonneg := hrep'.in_nonneg
  by_cases hfits : 0 < (xs.length : Int) ∧ (xs.length : Int) ≤ ring.freeLen
  · obtain ⟨mem, hpush, hpushed⟩ := hrep'.pushBuff hfits.1 le_rfl hfits.2 ⟨by omega, by omega⟩
    refine ⟨xs, ?_⟩
    simp only [hpush, if_true]
    exact ⟨by simpa using hpushed, by simpa using htotal, trivial, Or.inr trivial⟩
  · refine ⟨[], ?_⟩
    simp only [FxLoopBuff.pushBuff_refused xs (show (xs.length : Int) ≤ 0 ∨
      ring.freeLen < xs.length by omega), Bool.false_eq_true, if_false, List.append_nil]
    exact ⟨hrep', htotal, trivial, Or.inl trivial⟩

/-! ### What goes to the kernel -/

/-- The packet `n` as it is sent while the window of the receiver begins with `btBegin`. -/
def packetBytes (n btBegin : Nat) (xs : List UInt8) : List UInt8 :=
  (⟨ESocketState.establish.code, n % 256, pred btBegin⟩ : UDPPacketHeader).bytes ++ xs

/-- The packets have gone to the kernel, and the send window still holds what it held. -/
structure Resends (u u' : FxUDPConnectSock) (data : Nat → List UInt8) (first last : Nat) :
    Prop where
  sends : Sends u'.sendWindow data first last
  keeps : SameReceiving u u'
  sendBuf : u'.sendBuf = u.sendBuf
  sent : ∃ packets, u'.sent = u.sent ++ packets ∧ ∀ packet ∈ packets, ∃ n, first ≤ n ∧ n < last ∧
    packet = packetBytes n u.recvWindow.btBegin (data n)

theorem Resends.trans {u'' : FxUDPConnectSock} (h : Resends u u' data first last)
    (h' : Resends u' u'' data first last) : Resends u u'' data first last := by
  refine ⟨h'.sends, h.keeps.trans h'.keeps, h'.sendBuf.trans h.sendBuf, ?_⟩
  obtain ⟨packets, hsent, hall⟩ := h.sent
  obtain ⟨packets', hsent', hall'⟩ := h'.sent
  refine ⟨packets ++ packets', by rw [hsent', hsent, List.append_assoc], fun packet hpacket => ?_⟩
  rcases List.mem_append.mp hpacket with hpacket | hpacket
  · exact hall packet hpacket
  · have hback := hall' packet hpacket
    rw [h.keeps.recvWindow] at hback
    exact hback

theorem resends_none (h : Sends u.sendWindow data first last) : Resends u u data first last :=
  ⟨h, ⟨rfl, rfl, rfl⟩, rfl, [], by rw [List.append_nil], fun _ hc => absurd hc List.not_mem_nil⟩

theorem kernelSend_sent {answer : SendRet} {packet : List UInt8} {sent : Sent}
    (h : kernelSend answer packet u = (sent, u')) :
    u'.sendWindow = u.sendWindow ∧ u'.sendBuf = u.sendBuf ∧
      (u'.sent = u.sent ∨ u'.sent = u.sent ++ [packet]) := by
  obtain rfl : (kernelSend answer packet u).2 = u' := by rw [h]
  cases answer with
  | eagain | error => exact ⟨rfl, rfl, Or.inl rfl⟩
  | count nRet =>
    simp only [kernelSend]
    split_ifs
    · exact ⟨rfl, rfl, Or.inl rfl⟩
    · exact ⟨rfl, rfl, Or.inr rfl⟩

theorem sendPacket_resends (dTime : Rat) (answer : SendRet) {n : Nat}
    (h : Sends u.sendWindow data first last) (hge : first ≤ n) (hlt : n < last)
    (hstate : u.sock.state = .establish) :
    Resends u (sendPacket dTime answer (n % 256) u).2 data first last := by
  have hkeeps := sendRule_receiving.sendPacket dTime answer (n % 256) u
  have hmod : n % 256 % windowSize = n % windowSize := by
    rw [windowSize]
    omega
  have hfill := h.fill_header hge hlt
    ⟨u.sock.state.code, n % 256, pred u.recvWindow.btBegin⟩
  have hpacket := h.packet hge hlt ⟨u.sock.state.code, n % 256, pred u.recvWindow.btBegin⟩
  simp only [sendPacket, hmod] at hkeeps ⊢
  generalize hsend : kernelSend answer _ _ = sent at hkeeps ⊢
  obtain ⟨sent, v⟩ := sent
  obtain ⟨hwindow, hring, hsent⟩ := kernelSend_sent hsend
  have hpackets : ∃ packets, v.sent = u.sent ++ packets ∧ ∀ packet ∈ packets, ∃ n, first ≤ n ∧
      n < last ∧ packet = packetBytes n u.recvWindow.btBegin (data n) := by
    rcases hsent with hsent | hsent
    · exact ⟨[], by rw [hsent, List.append_nil], fun _ hc => absurd hc List.not_mem_nil⟩
    · refine ⟨_, hsent, fun packet hin => ⟨n, hge, hlt, ?_⟩⟩
      rw [List.mem_singleton.mp hin, packetBytes, ← hstate]
      exact hpacket
  have hsends : Sends v.sendWindow data first last := by
    rw [hwindow]
    exact hfill
  cases sent with
  | returns ok => exact ⟨hsends, hkeeps, hring, hpackets⟩
  | goesOn => exact ⟨hsends.congr rfl rfl rfl rfl rfl rfl, hkeeps, hring, hpackets⟩

theorem sendWindowPackets_resends (dTime : Rat) (answers : Nat → SendRet) {n i : Nat}
    (bForceRetry : Bool) (h : Sends u.sendWindow data first last) (hge : first ≤ i)
    (hle : i + n ≤ last) (hstate : u.sock.state = .establish) :
    Resends u (sendWindowPackets dTime answers n (i % 256) bForceRetry u).2 data first last := by
  induction n generalizing i bForceRetry u with
  | zero => exact resends_none h
  | succ n ih =>
    have hsucc : succ (i % 256) = (i + 1) % 256 := by
      rw [succ]
      omega
    have hone := sendPacket_resends dTime (answers (n + 1)) h hge (by omega) hstate
    rw [sendWindowPackets, hsucc]
    split_ifs
    · exact resends_none h
    · split <;> rename_i heq <;> rw [heq] at hone
      · exact hone
      · refine hone.trans (ih false hone.sends (by omega) (by omega) ?_)
        rw [hone.keeps.sock]
        exact hstate
    · exact ih bForceRetry h (by omega) (by omega) hstate

theorem sendAckPacket_sent (dTime : Rat) (answer : SendRet) (hstate : u.sock.state = .establish) :
    (sendAckPacket dTime answer u).2.sendWindow = u.sendWindow ∧
      (sendAckPacket dTime answer u).2.sendBuf = u.sendBuf ∧
      ∃ packets, (sendAckPacket dTime answer u).2.sent = u.sent ++ packets ∧
        ∀ packet ∈ packets, packet = (⟨ESocketState.establish.code, pred u.sendWindow.btBegin,
          pred u.recvWindow.btBegin⟩ : UDPPacketHeader).bytes := by
  rw [sendAckPacket]
  by_cases hack : u.sendAck
  · rw [if_pos hack]
    simp only
    generalize hsend : kernelSend answer _ u = sent
    obtain ⟨sent, v⟩ := sent
    obtain ⟨hwindow, hring, hsent⟩ := kernelSend_sent hsend
    have hpackets : ∃ packets, v.sent = u.sent ++ packets ∧
        ∀ packet ∈ packets, packet = (⟨ESocketState.establish.code, pred u.sendWindow.btBegin,
          pred u.recvWindow.btBegin⟩ : UDPPacketHeader).bytes := by
      rcases hsent with hsent | hsent
      · exact ⟨[], by rw [hsent, List.append_nil], fun _ hc => absurd hc List.not_mem_nil⟩
      · refine ⟨_, hsent, fun packet hin => ?_⟩
        rw [List.mem_singleton.mp hin, hstate]
    cases sent with
    | returns ok => exact ⟨hwindow, hring, hpackets⟩
    | goesOn => exact ⟨hwindow, hring, hpackets⟩
  · rw [if_neg hack]
    exact ⟨rfl, rfl, [], by rw [List.append_nil], fun _ hc => absurd hc List.not_mem_nil⟩

/-! ### PostSend as a whole -/

/-- The packet is one of the window, or brings nothing and stands right before it. -/
def Posted (data : Nat → List UInt8) (first last btBegin : Nat) (packet : List UInt8) : Prop :=
  ∃ n xs, first ≤ n + 1 ∧ n < last ∧ (first ≤ n → xs = data n) ∧
    UDPPacketHeader.headSize + xs.length ≤ bufferSize ∧ packet = packetBytes n btBegin xs

/-- Data has moved from the send ring, which held `q` and holds `q'`, to the window, and packets
have gone to the kernel. -/
structure Posts (u u' : FxUDPConnectSock) (data data' : Nat → List UInt8) (first last last' : Nat)
    (q q' : List UInt8) : Prop where
  puts : ∃ ys, Puts u'.sendWindow data data' first last last' ys ∧ q = ys ++ q'
  rep : u'.sendBuf.Rep q'
  totalLen : u'.sendBuf.totalLen = u.sendBuf.totalLen
  pushed : u'.pushed = u.pushed
  sent : ∃ packets, u'.sent = u.sent ++ packets ∧
    ∀ packet ∈ packets, Posted data' first last' u.recvWindow.btBegin packet

theorem adjustControl_same (u : FxUDPConnectSock) : SameSending u (adjustControl u).2 ∧
    (adjustControl u).2.sendWindow = u.sendWindow := by
  simp only [adjustControl]
  split_ifs <;> exact ⟨⟨rfl, rfl, rfl⟩, rfl⟩

theorem slowStart_same (dTime : Rat) (u : FxUDPConnectSock) : SameSending u (slowStart dTime u) ∧
    (slowStart dTime u).sendWindow = u.sendWindow := by
  rw [slowStart]
  split_ifs <;> exact ⟨⟨rfl, rfl, rfl⟩, rfl⟩

/-- The packets that go to the kernel behind `putPackets`. -/
theorem posted_packets (dTime : Rat) (answers : Nat → SendRet) (bForceRetry : Bool)
    (h : Sends u.sendWindow data first last) (hpos : 1 ≤ first)
    (hstate : u.sock.state = .establish) {sent : Sent} {v : FxUDPConnectSock}
    (hsend : sendWindowPackets dTime answers u.sendWindow.count u.sendWindow.btBegin bForceRetry u =
      (sent, v)) :
    ∀ u', u' = v ∨ u' = (sendAckPacket dTime (answers 0) v).2 →
      Sends u'.sendWindow data first last ∧ u'.sendBuf = u.sendBuf ∧ u'.pushed = u.pushed ∧
        ∃ packets, u'.sent = u.sent ++ packets ∧
          ∀ packet ∈ packets, Posted data first last u.recvWindow.btBegin packet := by
  have hle := h.le
  have hresends := sendWindowPackets_resends dTime answers (n := u.sendWindow.count) (i := first)
    bForceRetry h le_rfl (by rw [h.count]; omega) hstate
  rw [← h.begins, hsend] at hresends
  obtain ⟨packets, hsent, hpackets⟩ := hresends.sent
  have hposted : ∀ packet ∈ packets, Posted data first last u.recvWindow.btBegin packet := by
    intro packet hin
    obtain ⟨n, hge, hlt, heq⟩ := hpackets packet hin
    exact ⟨n, data n, by omega, hlt, fun _ => rfl, (h.stored n hge hlt).short, heq⟩
  rintro u' (rfl | rfl)
  · exact ⟨hresends.sends, hresends.sendBuf, hresends.keeps.pushed, packets, hsent, hposted⟩
  · have hvstate : v.sock.state = .establish := by
      rw [hresends.keeps.sock]
      exact hstate
    obtain ⟨hwindow, hring, acks, hacks, hall⟩ := sendAckPacket_sent dTime (answers 0) hvstate
    refine ⟨?_, hring.trans hresends.sendBuf,
      (sendRule_receiving.sendAckPacket dTime (answers 0) v).pushed.trans hresends.keeps.pushed,
      packets ++ acks, by rw [hacks, hsent, List.append_assoc], fun packet hin => ?_⟩
    · rw [hwindow]
      exact hresends.sends
    · rcases List.mem_append.mp hin with hin | hin
      · exact hposted packet hin
      · refine ⟨first - 1, [], by omega, by omega, fun hc => by omega, by decide, ?_⟩
        have hbegin : pred v.sendWindow.btBegin = (first - 1) % 256 := by
          rw [hresends.sends.begins, pred]
          omega
        rw [hall packet hin, packetBytes, List.append_nil, hbegin, hresends.keeps.recvWindow]

theorem postSend_posts (dTime : Rat) (answers : Nat → SendRet) {q : List UInt8}
    (h : Sends u.sendWindow data first last) (hpos : 1 ≤ first)
    (hstate : u.sock.state = .establish) (hrep : u.sendBuf.Rep q)
    (hsmall : u.sendBuf.totalLen ≤ 1073741824) :
    ∃ data' last' q', Posts u (postSend dTime answers u).2 data data' first last last' q q' := by
  simp only [postSend]
  generalize hlate : (if dTime - u.ackRecvTime > 5 then _ else u) = t
  have ht : SameReceiving u t ∧ SameSending u t ∧ t.sendWindow = u.sendWindow := by
    rw [← hlate]
    split_ifs <;> exact ⟨⟨rfl, rfl, rfl⟩, ⟨rfl, rfl, rfl⟩, rfl⟩
  obtain ⟨hreceiving, hsending, hwindow⟩ := ht
  have hidle : Posts u t data data first last last q q := by
    refine ⟨⟨[], ?_, rfl⟩, ?_, by rw [hsending.sendBuf], hsending.pushed, [], ?_,
      fun _ hc => absurd hc List.not_mem_nil⟩
    · rw [hwindow]
      exact h.puts
    · rw [hsending.sendBuf]
      exact hrep
    · rw [hsending.sent, List.append_nil]
  split_ifs
  · exact ⟨data, last, q, hidle⟩
  · exact ⟨data, last, q, hidle⟩
  · obtain ⟨hadjust, hadjustWindow⟩ := adjustControl_same t
    have hadjustKeeps := adjustControl_keeps t
    generalize adjustControl t = adjusted at hadjust hadjustWindow hadjustKeeps ⊢
    obtain ⟨bForceRetry, a⟩ := adjusted
    obtain ⟨hslow, hslowWindow⟩ := slowStart_same dTime a
    have hkeeps := (hreceiving.trans hadjustKeeps).trans (slowStart_keeps dTime a)
    have hsame := (hsending.trans hadjust).trans hslow
    simp only at hadjustWindow hslowWindow hkeeps hsame ⊢
    generalize slowStart dTime a = b at hslowWindow hkeeps hsame ⊢
    have hb : Sends b.sendWindow data first last := by
      rw [hslowWindow, hadjustWindow, hwindow]
      exact h
    obtain ⟨data', last', ys, q', hputs, hrep', hq, htotal, hpushed, hsent⟩ :=
      putPackets_puts dTime hb (by rw [hsame.sendBuf]; exact hrep)
        (by rw [hsame.sendBuf]; exact hsmall)
    have hput := hkeeps.trans (sendRule_receiving.putPackets dTime b)
    generalize putPackets dTime b = c at hputs hrep' htotal hpushed hsent hput ⊢
    have hcstate : c.sock.state = .establish := by
      rw [hput.sock]
      exact hstate
    have hposts : ∀ u', (Sends u'.sendWindow data' first last' ∧ u'.sendBuf = c.sendBuf ∧
        u'.pushed = c.pushed ∧ ∃ packets, u'.sent = c.sent ++ packets ∧
          ∀ packet ∈ packets, Posted data' first last' c.recvWindow.btBegin packet) →
        Posts u u' data data' first last last' q q' := by
      rintro u' ⟨hsends, hring, hpushed', packets, hsent', hall⟩
      refine ⟨⟨ys, hputs.sends_congr hsends, hq⟩, ?_, ?_, ?_, packets, ?_, ?_⟩
      · rw [hring]
        exact hrep'
      · rw [hring, htotal, hsame.sendBuf]
      · rw [hpushed', hpushed, hsame.pushed]
      · rw [hsent', hsent, hsame.sent]
      · rw [hput.recvWindow] at hall
        exact hall
    split
    · rename_i ok v heq
      have hpackets := posted_packets dTime answers bForceRetry hputs.sends hpos hcstate heq
      exact ⟨data', last', q', hposts v (hpackets v (Or.inl rfl))⟩
    · rename_i v heq
      have hpackets := posted_packets dTime answers bForceRetry hputs.sends hpos hcstate heq
      exact ⟨data', last', q', hposts _ (hpackets _ (Or.inr rfl))⟩

theorem update_posts (dTime : Rat) (answers : Nat → SendRet) {q : List UInt8}
    (h : Sends u.sendWindow data first last) (hpos : 1 ≤ first) (hrep : u.sendBuf.Rep q)
    (hsmall : u.sendBuf.totalLen ≤ 1073741824) :
    ∃ data' last' q', Posts u (update dTime answers u) data data' first last last' q q' := by
  rw [update]
  by_cases hconn : u.sock.isConnected = false
  · rw [if_pos hconn]
    exact ⟨data, last, q, ⟨[], h.puts, rfl⟩, hrep, rfl, rfl, [], by rw [List.append_nil],
      fun _ hc => absurd hc List.not_mem_nil⟩
  · rw [if_neg hconn]
    obtain ⟨data', last', q', hposts⟩ := postSend_posts dTime answers h hpos
      (by simpa [isConnected] using hconn) hrep hsmall
    generalize postSend dTime answers u = sent at hposts ⊢
    obtain ⟨ok, t⟩ := sent
    cases ok with
    | true => exact ⟨data', last', q', hposts⟩
    | false => exact ⟨data', last', q', hposts.puts, hposts.rep, hposts.totalLen, hposts.pushed,
        hposts.sent⟩

end FxUDPConnectSock
