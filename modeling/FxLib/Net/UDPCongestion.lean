import FxLib.Net.UDPPartition
import Mathlib.Algebra.Order.Floor.Semiring
import Mathlib.Data.Rat.Floor

/-!
# The bound of the congestion control

`PostSend` compares the size of the send window with `m_dSendWindowControl`, and takes the
difference of two `unsigned char`s for it. Once the end of the window has wrapped and its begin has
not, that difference is negative.
-/

open MachineInt

namespace FxUDPConnectSock

open SlidingWindow RecvSock

/-! ### What the claim is about -/

/-- `PostSend` gets as far as the window. -/
def Fills (dTime : Rat) (u : FxUDPConnectSock) : Prop :=
  ¬ (dTime - u.ackRecvTime > 5 ∧ sub32 u.ackTimeoutRetry 1 ≤ 0) ∧ u.sendTime ≤ dTime

/-- The sequence number in a packet. -/
def synOf (packet : List UInt8) : Nat := (packet.getD 1 0).toNat

/-- What the bound allows a call of `PostSend` that leads from `u` to `u'`: a window that was not
above it is not filled above it, and no packet of the window behind it goes to the kernel. -/
structure Bounded (u u' : FxUDPConnectSock) : Prop where
  filled : u.sendWindow.count ≤ ⌊u'.sendWindowControl⌋₊ + 1 →
    u'.sendWindow.count ≤ ⌊u'.sendWindowControl⌋₊ + 1
  sent : ∃ packets, u'.sent = u.sent ++ packets ∧ ∀ packet ∈ packets,
    u'.sendWindow.isValidIndex (synOf packet) →
    span u'.sendWindow.btBegin (synOf packet) < ⌈u'.sendWindowControl⌉₊

/-- `m_dSendWindowControl` when the window is filled. -/
def controlAt (dTime : Rat) (u : FxUDPConnectSock) : Rat :=
  (slowStart dTime (adjustControl u).2).sendWindowControl

/-- The bytes that the call finds in the send ring. -/
def ringData (u : FxUDPConnectSock) : List UInt8 :=
  let region := u.sendBuf.getOutCursorPtr
  u.sendBuf.copyOut region.ptr region.len

/-- How many packets there would be in the window if nothing but the data and the free buffers set a
bound. -/
def available (u : FxUDPConnectSock) : Nat :=
  min windowSize (u.sendWindow.count + (u.ringData.length + 508) / 509)

def Takes : SendRet → Prop
  | .count nRet => 0 < nRet
  | .eagain | .error => False

/-- The packet at the place `j` of the window is due: its time has come, or it is new. -/
def Due (dTime : Rat) (u : FxUDPConnectSock) (j : Nat) : Prop :=
  u.sendWindow.count ≤ j ∨
    u.sendWindow.seqRetry ((u.sendWindow.btBegin + j) % 256 % windowSize) ≤ dTime

/-- The kernel takes the packet at the place `j`, and the ones before it that are sent. -/
def Goes (dTime : Rat) (answers : Nat → SendRet) (u : FxUDPConnectSock) (j : Nat) : Prop :=
  Due dTime u j ∧ ∀ i ≤ j, (Due dTime u i ∨ i = 0 ∧ (adjustControl u).1 = true) →
    Takes (answers (u.available - i))

/-- No comparison with the bound goes wrong: as far as the bound reaches the window has not wrapped,
or there is nothing behind it that could be put into the window or sent. -/
structure Straight (dTime : Rat) (answers : Nat → SendRet) (u : FxUDPConnectSock) : Prop where
  filled : u.sendWindow.count ≤ ⌊controlAt dTime u⌋₊ + 1 →
    u.sendWindow.btBegin + ⌊controlAt dTime u⌋₊ < 255 ∨
      u.available ≤ ⌊controlAt dTime u⌋₊ + 1
  sent : u.sendWindow.btBegin + ⌈controlAt dTime u⌉₊ < 256 ∨
    ∀ j, ⌈controlAt dTime u⌉₊ ≤ j → j < u.available → ¬ Goes dTime answers u j

/-! ### The state of every run -/

/-- What every step keeps of the sending side of a socket. -/
structure Flowing (u : FxUDPConnectSock) : Prop where
  control : 0 < u.sendWindowControl
  threshhold : 0 < u.sendWindowThreshhold
  window : ∃ data first last, 1 ≤ first ∧ Sends u.sendWindow data first last
  ring : ∃ q, u.sendBuf.Rep q ∧ u.sendBuf.totalLen = buffSize

/-- The sending side is the same. -/
structure SameFlow (u u' : FxUDPConnectSock) : Prop where
  control : u'.sendWindowControl = u.sendWindowControl
  threshhold : u'.sendWindowThreshhold = u.sendWindowThreshhold
  sendWindow : u'.sendWindow = u.sendWindow
  sendBuf : u'.sendBuf = u.sendBuf

variable {u u' v : FxUDPConnectSock} {data : Nat → List UInt8} {first last : Nat}

theorem Flowing.same (h : Flowing u) (hsame : SameFlow u u') : Flowing u' := by
  refine ⟨?_, ?_, ?_, ?_⟩
  · rw [hsame.control]
    exact h.control
  · rw [hsame.threshhold]
    exact h.threshhold
  · rw [hsame.sendWindow]
    exact h.window
  · rw [hsame.sendBuf]
    exact h.ring

/-! #### OnRecv -/

theorem ackPackets_control (clock : Nat → Rat) {dMax : Rat} (hmax : 0 < dMax) (n : Nat)
    (h : 0 < u.sendWindowControl) :
    0 < (ackPackets clock dMax n u).sendWindowControl ∧
      (ackPackets clock dMax n u).sendWindowThreshhold = u.sendWindowThreshhold := by
  induction n generalizing u with
  | zero => exact ⟨h, rfl⟩
  | succ n ih =>
    have hone : 0 < (ackPacket (clock n) dMax u).sendWindowControl ∧
        (ackPacket (clock n) dMax u).sendWindowThreshhold = u.sendWindowThreshhold := by
      have hinc : 0 < u.sendWindowControl + 1 / u.sendWindowControl := by positivity
      simp only [ackPacket]
      split_ifs <;> refine ⟨?_, rfl⟩ <;> first | assumption | positivity
    rw [ackPackets]
    obtain ⟨hcontrol, hthresh⟩ := ih hone.1
    exact ⟨hcontrol, hthresh.trans hone.2⟩

theorem Flowing.procAck (h : Flowing u) (clock : Nat → Rat) {cAck : Nat} (hc : cAck < 256) :
    Flowing (procAck clock cAck u) := by
  obtain ⟨data, first, last, hpos, hsends⟩ := h.window
  obtain ⟨first', hsends', hle, -⟩ := sends_procAck hsends clock hc
  have hacked := procAck_acked clock cAck u
  have hcontrol : 0 < (FxUDPConnectSock.procAck clock cAck u).sendWindowControl ∧
      (FxUDPConnectSock.procAck clock cAck u).sendWindowThreshhold = u.sendWindowThreshhold := by
    have hmax : (0 : Rat) < if u.sendWindowControl * 2 > windowSize then (windowSize : Rat)
        else u.sendWindowControl * 2 := by
      have hpos := h.control
      split_ifs
      · simp [windowSize]
      · positivity
    by_cases hvalid : u.sendWindow.isValidIndex cAck = true
    · rw [FxUDPConnectSock.procAck, if_pos hvalid]
      exact ackPackets_control (u := { u with
        ackRecvTime := clock (SlidingWindow.span u.sendWindow.btBegin (succ cAck))
        ackTimeoutRetry := 3 }) clock hmax _ h.control
    · rw [FxUDPConnectSock.procAck, if_neg hvalid]
      exact ⟨h.control, rfl⟩
  refine ⟨hcontrol.1, ?_, ⟨data, first', last, hpos.trans hle, hsends'⟩, ?_⟩
  · rw [hcontrol.2]
    exact h.threshhold
  · rw [hacked.sending.sendBuf]
    exact h.ring

theorem Flowing.procPacket (h : Flowing u) {fuel : Nat} {clock : Nat → Rat} {btBufferId nLen : Nat}
    {refPacket : UDPPacketHeader} (hack : refPacket.cAck < 256)
    (hproc : procPacket fuel clock btBufferId nLen refPacket u = some u') : Flowing u' := by
  have hacked := h.procAck clock hack
  simp only [FxUDPConnectSock.procPacket] at hproc
  generalize hslot : takeSlot _ _ _ _ = slot at hproc
  obtain ⟨bPacketReceived, w⟩ := slot
  have hrecorded : Flowing (recordAck
      { (FxUDPConnectSock.procAck clock refPacket.cAck u).countSameAck with recvWindow := w }) :=
    hacked.same ⟨rfl, rfl, rfl, rfl⟩
  simp only at hproc
  by_cases hreceived : bPacketReceived = true
  · rw [if_pos hreceived] at hproc
    obtain ⟨s, w', b, n, rfl⟩ := updateRecvWindow_same hproc
    exact hrecorded.same ⟨rfl, rfl, rfl, rfl⟩
  · rw [if_neg hreceived] at hproc
    obtain rfl := Option.some.inj hproc
    exact hrecorded

theorem Flowing.onRecv (h : Flowing u) {fuel : Nat} {clock : Nat → Rat} {ret : RecvRet}
    (hrecv : onRecv fuel clock ret u = some u') : Flowing u' := by
  -- up to the header only the socket and the receive window change
  have hearly : ∀ (s : Sock) (w : SlidingWindow), Flowing { u with sock := s, recvWindow := w } :=
    fun s w => h.same ⟨rfl, rfl, rfl, rfl⟩
  rw [FxUDPConnectSock.onRecv] at hrecv
  by_cases hconn : u.sock.isConnected = false
  · rw [if_pos hconn] at hrecv
    obtain rfl := Option.some.inj hrecv
    exact h
  rw [if_neg hconn] at hrecv
  simp only at hrecv
  by_cases hfull : u.recvWindow.allocate.1 ≥ windowSize
  · rw [if_pos hfull] at hrecv
    obtain rfl := Option.some.inj hrecv
    exact hearly _ _
  rw [if_neg hfull] at hrecv
  cases ret with
  | error errno =>
    simp only at hrecv
    split_ifs at hrecv
    all_goals
      obtain rfl := Option.some.inj hrecv
      exact hearly _ _
  | data bytes =>
    simp only at hrecv
    split_ifs at hrecv
    · obtain rfl := Option.some.inj hrecv
      exact hearly _ _
    · obtain rfl := Option.some.inj hrecv
      exact hearly _ _
    · obtain rfl := Option.some.inj hrecv
      exact hearly _ _
    · exact (hearly _ _).procPacket (UInt8.toNat_lt _) hrecv

/-! #### PostSend -/

/-- The bound and the begin of the send window are the same. -/
structure SameBound (u u' : FxUDPConnectSock) : Prop where
  control : u'.sendWindowControl = u.sendWindowControl
  threshhold : u'.sendWindowThreshhold = u.sendWindowThreshhold
  btBegin : u'.sendWindow.btBegin = u.sendWindow.btBegin

theorem SameBound.trans {u'' : FxUDPConnectSock} (h : SameBound u u') (h' : SameBound u' u'') :
    SameBound u u'' :=
  ⟨h'.control.trans h.control, h'.threshhold.trans h.threshhold, h'.btBegin.trans h.btBegin⟩

theorem fillWindow_bound (dTime : Rat) (n : Nat) (xs : List UInt8) (u : FxUDPConnectSock) :
    SameBound u (fillWindow dTime n xs u).2 ∧ (fillWindow dTime n xs u).2.sent = u.sent := by
  induction n generalizing xs u with
  | zero => exact ⟨⟨rfl, rfl, rfl⟩, rfl⟩
  | succ n ih =>
    rw [fillWindow]
    split_ifs
    · exact ⟨⟨rfl, rfl, rfl⟩, rfl⟩
    · have hput : SameBound u
          (putPacket dTime (xs.take (bufferSize - UDPPacketHeader.headSize)) u) := ⟨rfl, rfl, rfl⟩
      exact ⟨hput.trans (ih _ _).1, (ih _ _).2⟩
    · exact ⟨⟨rfl, rfl, rfl⟩, rfl⟩

theorem putPackets_bound (dTime : Rat) (u : FxUDPConnectSock) :
    SameBound u (putPackets dTime u) ∧ (putPackets dTime u).sent = u.sent := by
  have hfill := fun xs : List UInt8 => fillWindow_bound dTime xs.length xs u
  simp only [putPackets]
  split_ifs
  all_goals
    exact ⟨⟨(hfill _).1.control, (hfill _).1.threshhold, (hfill _).1.btBegin⟩, (hfill _).2⟩

theorem kernelSend_bound {answer : SendRet} {packet : List UInt8} {r : Sent}
    (h : kernelSend answer packet u = (r, u')) : SameBound u u' ∧
      (Takes answer ∧ r = .goesOn ∧ u'.sent = u.sent ++ [packet] ∨
        ¬ Takes answer ∧ (∃ ok, r = .returns ok) ∧ u'.sent = u.sent) ∧
      u'.sendWindow = u.sendWindow := by
  cases answer with
  | eagain =>
    obtain ⟨rfl, rfl⟩ := Prod.mk.inj h
    exact ⟨⟨rfl, rfl, rfl⟩, Or.inr ⟨id, ⟨true, rfl⟩, rfl⟩, rfl⟩
  | error =>
    obtain ⟨rfl, rfl⟩ := Prod.mk.inj h
    exact ⟨⟨rfl, rfl, rfl⟩, Or.inr ⟨id, ⟨false, rfl⟩, rfl⟩, rfl⟩
  | count nRet =>
    simp only [kernelSend] at h
    split_ifs at h with hnone
    · obtain ⟨rfl, rfl⟩ := Prod.mk.inj h
      exact ⟨⟨rfl, rfl, rfl⟩, Or.inr ⟨not_lt.mpr hnone, ⟨false, rfl⟩, rfl⟩, rfl⟩
    · obtain ⟨rfl, rfl⟩ := Prod.mk.inj h
      exact ⟨⟨rfl, rfl, rfl⟩, Or.inl ⟨not_le.mp hnone, rfl, rfl⟩, rfl⟩

/-- The packet `n` goes to the kernel. -/
theorem sendPacket_sent (dTime : Rat) (answer : SendRet) {n : Nat}
    (h : Sends u.sendWindow data first last) (hge : first ≤ n) (hlt : n < last) {r : Sent}
    (hsend : sendPacket dTime answer (n % 256) u = (r, u')) :
    SameBound u u' ∧ Sends u'.sendWindow data first last ∧
      (Takes answer ∧ r = .goesOn ∧ (∃ packet, u'.sent = u.sent ++ [packet] ∧
          synOf packet = n % 256) ∧
        (∀ id, id ≠ n % windowSize → u'.sendWindow.seqRetry id = u.sendWindow.seqRetry id) ∨
      ¬ Takes answer ∧ (∃ ok, r = .returns ok) ∧ u'.sent = u.sent) := by
  have hmod : n % 256 % windowSize = n % windowSize := by
    rw [windowSize]
    omega
  obtain ⟨header, hheader⟩ : ∃ header : UDPPacketHeader,
      header = ⟨u.sock.state.code, n % 256, pred u.recvWindow.btBegin⟩ := ⟨_, rfl⟩
  have hfill := h.fill_header hge hlt header
  have hpacket : Memory.read ((u.sendWindow.fill (u.sendWindow.seqBufferId (n % windowSize))
      header.bytes).ppBuffer (u.sendWindow.seqBufferId (n % windowSize))) 0
        ((u.sendWindow.fill (u.sendWindow.seqBufferId (n % windowSize)) header.bytes).seqSize
          (n % windowSize)) = header.bytes ++ data n := h.packet hge hlt header
  have hsyn : synOf (header.bytes ++ data n) = n % 256 := by
    rw [hheader]
    simp [synOf, UDPPacketHeader.bytes]
  simp only [sendPacket, hmod, ← hheader] at hsend
  rw [hpacket] at hsend
  generalize hkernel : kernelSend answer _ _ = sent at hsend
  obtain ⟨sent, v⟩ := sent
  obtain ⟨hbound, hcases, hwindow⟩ := kernelSend_bound hkernel
  have hsends : Sends v.sendWindow data first last := by
    rw [hwindow]
    exact hfill
  have hbound' : SameBound u v := ⟨hbound.control, hbound.threshhold, hbound.btBegin⟩
  rcases hcases with ⟨htakes, rfl, hsent⟩ | ⟨hrefuses, ⟨ok, rfl⟩, hsent⟩
  · obtain ⟨rfl, rfl⟩ := Prod.mk.inj hsend
    refine ⟨⟨hbound'.control, hbound'.threshhold, hbound'.btBegin⟩,
      hsends.congr rfl rfl rfl rfl rfl rfl,
      Or.inl ⟨htakes, rfl, ⟨_, hsent, hsyn⟩, fun id hid => ?_⟩⟩
    simp only [Function.update_of_ne hid, hwindow]
    rfl
  · obtain ⟨rfl, rfl⟩ := Prod.mk.inj hsend
    exact ⟨hbound', hsends, Or.inr ⟨hrefuses, ⟨ok, rfl⟩, hsent⟩⟩

/-- The loop stops at the packet `n`. -/
def Stops (u : FxUDPConnectSock) (n : Nat) : Prop :=
  u.sendWindowControl ≤ (((n % 256 : Nat) : Int) - u.sendWindow.btBegin : Rat)

/-- The loop sends the packet `n` when it comes to it. -/
def Ready (dTime : Rat) (bForceRetry : Bool) (i : Nat) (u : FxUDPConnectSock) (n : Nat) : Prop :=
  u.sendWindow.seqRetry (n % windowSize) ≤ dTime ∨ n = i ∧ bForceRetry = true

/-- The loop comes to the packet `n`, and the kernel takes it. -/
structure LoopSends (dTime : Rat) (answers : Nat → SendRet) (bForceRetry : Bool) (i last : Nat)
    (u : FxUDPConnectSock) (n : Nat) : Prop where
  goes : ∀ k, i ≤ k → k ≤ n → ¬ Stops u k
  takes : ∀ k, i ≤ k → k ≤ n → Ready dTime bForceRetry i u k → Takes (answers (last - k))
  ready : Ready dTime bForceRetry i u n

/-- What the loop sends from the packet `i` on. -/
structure Transmits (dTime : Rat) (answers : Nat → SendRet) (bForceRetry : Bool) (i last : Nat)
    (u : FxUDPConnectSock) (packets : List (List UInt8)) : Prop where
  only : ∀ packet ∈ packets, ∃ n, i ≤ n ∧ n < last ∧ synOf packet = n % 256 ∧
    LoopSends dTime answers bForceRetry i last u n
  all : ∀ n, i ≤ n → n < last → LoopSends dTime answers bForceRetry i last u n →
    ∃ packet ∈ packets, synOf packet = n % 256

/-- The packet `i` is behind, and the loop goes on with the others. -/
theorem Transmits.next {dTime : Rat} {answers : Nat → SendRet} {bForceRetry bForceRetry' : Bool}
    {i last : Nat} {packets before : List (List UInt8)}
    (h : Transmits dTime answers bForceRetry' (i + 1) last v packets) (hbound : SameBound u v)
    (hgoes : ¬ Stops u i) (hi : i < last)
    (hretry : ∀ n, i < n → n < last →
      (Ready dTime bForceRetry' (i + 1) v n ↔ Ready dTime bForceRetry i u n))
    (htakes : Ready dTime bForceRetry i u i → Takes (answers (last - i)))
    (hbefore : ∀ packet ∈ before, Ready dTime bForceRetry i u i ∧ synOf packet = i % 256)
    (hsends : Ready dTime bForceRetry i u i → before ≠ []) :
    Transmits dTime answers bForceRetry i last u (before ++ packets) := by
  have hstops : ∀ k, Stops v k ↔ Stops u k := fun k => by
    rw [Stops, Stops, hbound.control, hbound.btBegin]
  have hloops : ∀ n, i < n → n < last → (LoopSends dTime answers bForceRetry' (i + 1) last v n ↔
      LoopSends dTime answers bForceRetry i last u n) := by
    intro n hn hlt
    constructor
    · intro hc
      refine ⟨fun k hk hle => ?_, fun k hk hle hr => ?_, (hretry n hn hlt).mp hc.ready⟩
      · rcases Nat.eq_or_lt_of_le hk with rfl | hk
        · exact hgoes
        · rw [← hstops]
          exact hc.goes k hk hle
      · rcases Nat.eq_or_lt_of_le hk with rfl | hk
        · exact htakes hr
        · exact hc.takes k hk hle ((hretry k hk (by omega)).mpr hr)
    · intro hc
      refine ⟨fun k hk hle => ?_, fun k hk hle hr => ?_, (hretry n hn hlt).mpr hc.ready⟩
      · rw [hstops]
        exact hc.goes k (by omega) hle
      · exact hc.takes k (by omega) hle ((hretry k hk (by omega)).mp hr)
  constructor
  · intro packet hin
    rcases List.mem_append.mp hin with hin | hin
    · obtain ⟨hready, hsyn⟩ := hbefore packet hin
      refine ⟨i, le_rfl, hi, hsyn, fun k hge hle => ?_, fun k hge hle _ => ?_, hready⟩
      · obtain rfl : k = i := le_antisymm hle hge
        exact hgoes
      · obtain rfl : k = i := le_antisymm hle hge
        exact htakes hready
    · obtain ⟨n, hge, hlt, hsyn, hc⟩ := h.only packet hin
      exact ⟨n, by omega, hlt, hsyn, (hloops n hge hlt).mp hc⟩
  · intro n hge hlt hc
    rcases Nat.eq_or_lt_of_le hge with rfl | hge
    · obtain ⟨packet, hin⟩ := List.exists_mem_of_ne_nil _ (hsends hc.ready)
      exact ⟨packet, List.mem_append_left _ hin, (hbefore packet hin).2⟩
    · obtain ⟨packet, hin, hsyn⟩ := h.all n hge hlt ((hloops n hge hlt).mpr hc)
      exact ⟨packet, List.mem_append_right _ hin, hsyn⟩

theorem sendWindowPackets_transmits (dTime : Rat) (answers : Nat → SendRet) (bForceRetry : Bool)
    {n i : Nat} (h : Sends u.sendWindow data first last) (hge : first ≤ i) (hlast : i + n = last) :
    ∃ packets, (sendWindowPackets dTime answers n (i % 256) bForceRetry u).2.sent =
        u.sent ++ packets ∧ Transmits dTime answers bForceRetry i last u packets ∧
      SameBound u (sendWindowPackets dTime answers n (i % 256) bForceRetry u).2 ∧
      Sends (sendWindowPackets dTime answers n (i % 256) bForceRetry u).2.sendWindow data first
        last := by
  have hnone : ∀ u i bForceRetry, (i < last → Stops u i ∨
      Ready dTime bForceRetry i u i ∧ ¬ Takes (answers (last - i))) →
      Transmits dTime answers bForceRetry i last u [] := by
    intro u i bForceRetry hstop
    refine ⟨fun packet hin => absurd hin List.not_mem_nil, fun n hn hlt hc => ?_⟩
    rcases hstop (by omega) with hs | ⟨hready, hs⟩
    · exact absurd hs (hc.goes i le_rfl hn)
    · exact absurd (hc.takes i le_rfl hn hready) hs
  have hsame : ∀ u : FxUDPConnectSock, u.sent = u.sent ++ [] ∧ SameBound u u :=
    fun u => ⟨(List.append_nil _).symm, rfl, rfl, rfl⟩
  induction n generalizing i bForceRetry u with
  | zero =>
    exact ⟨[], (hsame u).1, hnone u i bForceRetry fun hlt => by omega, (hsame u).2, h⟩
  | succ n ih =>
    have hsucc : succ (i % 256) = (i + 1) % 256 := by
      rw [succ]
      omega
    have hmod : i % 256 % windowSize = i % windowSize := by
      rw [windowSize]
      omega
    have hwidth := h.width
    have hanswer : last - i = n + 1 := by omega
    rw [sendWindowPackets, hsucc, hmod]
    by_cases hstop : (((i % 256 : Nat) : Int) - u.sendWindow.btBegin : Rat) ≥ u.sendWindowControl
    · rw [if_pos hstop]
      exact ⟨[], (hsame u).1, hnone u i bForceRetry fun _ => Or.inl hstop, (hsame u).2, h⟩
    rw [if_neg hstop]
    by_cases hready : dTime ≥ u.sendWindow.seqRetry (i % windowSize) ∨ bForceRetry = true
    · have hloop : Ready dTime bForceRetry i u i := hready.imp_right fun hforce => ⟨rfl, hforce⟩
      rw [if_pos hready]
      generalize hsend : sendPacket dTime (answers (n + 1)) (i % 256) u = sent
      obtain ⟨r, v⟩ := sent
      obtain ⟨hbound, hsends, ⟨htakes, rfl, ⟨packet, hsent, hsyn⟩, hretry⟩ | ⟨hrefuses, ⟨ok, rfl⟩,
        hsent⟩⟩ := sendPacket_sent dTime _ h hge (by omega) hsend
      · obtain ⟨packets, hrest, htransmits, hbound', hsends'⟩ :=
          ih (i := i + 1) false hsends (by omega) (by omega)
        refine ⟨[packet] ++ packets, ?_, ?_, hbound.trans hbound', hsends'⟩
        · rw [hrest, hsent, List.append_assoc]
        · refine htransmits.next hbound hstop (by omega) (fun k hk hlt => ?_) (fun _ => ?_)
            (fun p hp => ?_) fun _ => List.cons_ne_nil _ _
          · rw [windowSize] at hwidth
            have hother : k % windowSize ≠ i % windowSize := by
              rw [windowSize]
              omega
            rw [Ready, Ready, hretry _ hother]
            exact or_congr_right (iff_of_false (by simp) fun hc => by omega)
          · rwa [hanswer]
          · rw [List.mem_singleton.mp hp]
            exact ⟨hloop, hsyn⟩
      · refine ⟨[], ?_, hnone u i bForceRetry fun _ => Or.inr ⟨hloop, ?_⟩, hbound, hsends⟩
        · rw [List.append_nil]
          exact hsent
        · rwa [hanswer]
    · rw [if_neg hready]
      obtain ⟨packets, hrest, htransmits, hbound, hsends⟩ :=
        ih (i := i + 1) bForceRetry h (by omega) (by omega)
      refine ⟨[] ++ packets, hrest, ?_, hbound, hsends⟩
      have hnot : ¬ Ready dTime bForceRetry i u i := by
        rintro (hdue | ⟨-, hforce⟩)
        · exact hready (Or.inl hdue)
        · exact hready (Or.inr hforce)
      refine htransmits.next (hsame u).2 hstop (by omega) (fun k hk hlt => ?_)
        (absurd · hnot) (fun p hp => absurd hp List.not_mem_nil) (absurd · hnot)
      refine or_congr_right (iff_of_false ?_ fun hc => by omega)
      exact fun hc => hready (Or.inr hc.2)

/-! #### The difference of the two positions -/

theorem position_sub {b j : Nat} (hb : b < 256) (hj : j < 256) :
    (((b + j) % 256 : Nat) : Int) - b = if b + j < 256 then (j : Int) else j - 256 := by
  split_ifs <;> omega

/-- What `PostSend` computes for the place `j` of the window. -/
theorem position_cases {b j : Nat} (hb : b < 256) (hj : j < 256) {c : Rat} (hc : 0 < c) :
    (c ≤ ((((b + j) % 256 : Nat) : Int) - b : Rat) ↔ b + j < 256 ∧ ⌈c⌉₊ ≤ j) ∧
      (c < ((((b + j) % 256 : Nat) : Int) - b : Rat) ↔ b + j < 256 ∧ ⌊c⌋₊ < j) := by
  have hsub := congrArg (Int.cast (R := Rat)) (position_sub hb hj)
  push_cast at hsub ⊢
  rw [hsub]
  by_cases hwrap : b + j < 256
  · rw [if_pos hwrap]
    rw [← Nat.ceil_le, ← Nat.floor_lt hc.le]
    simp [hwrap]
  · have hneg : (j : Rat) - 256 < 0 := by
      have : (j : Rat) < 256 := by exact_mod_cast hj
      linarith
    rw [if_neg hwrap]
    exact ⟨iff_of_false (by linarith) fun h => hwrap h.1,
      iff_of_false (by linarith) fun h => hwrap h.1⟩

theorem stops_iff (h : Sends u.sendWindow data first last) (hc : 0 < u.sendWindowControl) {j : Nat}
    (hj : j < 256) :
    Stops u (first + j) ↔ u.sendWindow.btBegin + j < 256 ∧ ⌈u.sendWindowControl⌉₊ ≤ j := by
  have hmod : (first + j) % 256 = (first % 256 + j) % 256 := by omega
  rw [Stops, hmod, ← h.begins]
  refine (position_cases ?_ hj hc).1
  rw [h.begins]
  exact Nat.mod_lt _ (by decide)

/-! #### Filling the window -/

/-- What filling does to a window that had the packets up to `last`; `m` packets are there at
most. -/
structure Fill (dTime : Rat) (m first last last' : Nat) (u u' : FxUDPConnectSock) : Prop where
  le : last ≤ last'
  most : last' - first ≤ m
  /-- The bound is behind the wrap: it stops nothing. -/
  wrapped : 256 ≤ u.sendWindow.btBegin + ⌊u.sendWindowControl⌋₊ + 1 → last' - first = m
  bounded : u.sendWindow.btBegin + ⌊u.sendWindowControl⌋₊ + 1 < 256 →
    last - first ≤ ⌊u.sendWindowControl⌋₊ + 1 → last' - first ≤ ⌊u.sendWindowControl⌋₊ + 1
  retry : ∀ n, first ≤ n → n < last' → u'.sendWindow.seqRetry (n % windowSize) =
    if n < last then u.sendWindow.seqRetry (n % windowSize) else dTime

theorem putPacket_retry (dTime : Rat) (xs : List UInt8) (h : Sends u.sendWindow data first last)
    (hroom : last < first + windowSize) {n : Nat} (hge : first ≤ n) (hlt : n < last + 1) :
    (putPacket dTime xs u).sendWindow.seqRetry (n % windowSize) =
      if n < last then u.sendWindow.seqRetry (n % windowSize) else dTime := by
  have hslot : u.sendWindow.btEnd % windowSize = last % windowSize := by
    rw [h.ends, windowSize]
    omega
  have hput : (putPacket dTime xs u).sendWindow.seqRetry =
      Function.update u.sendWindow.seqRetry (u.sendWindow.btEnd % windowSize) dTime := rfl
  rw [hput, hslot]
  by_cases hnew : n < last
  · rw [if_pos hnew, Function.update_of_ne]
    rw [windowSize] at *
    omega
  · obtain rfl : n = last := by omega
    rw [if_neg hnew, Function.update_self]

/-- Nothing more goes into the window. -/
theorem fill_stays (dTime : Rat) {m : Nat} (hm : last - first ≤ m)
    (hwhy : last - first = m ∨ u.sendWindow.btBegin + (last - first) < 256 ∧
      ⌊u.sendWindowControl⌋₊ < last - first) : Fill dTime m first last last u u := by
  refine ⟨le_rfl, hm, fun hwrap => ?_, fun _ hk => hk, fun n _ hlt => (if_pos hlt).symm⟩
  rcases hwhy with hall | ⟨hnone, hlt⟩
  · exact hall
  · omega

theorem fillWindow_fill {dTime : Rat} {n : Nat} {xs rest : List UInt8}
    (h : Sends u.sendWindow data first last) (hc : 0 < u.sendWindowControl) (hn : xs.length ≤ n)
    (hfill : fillWindow dTime n xs u = (rest, u')) :
    ∃ data' last', Sends u'.sendWindow data' first last' ∧
      Fill dTime (min windowSize (last - first + (xs.length + 508) / 509)) first last last' u
        u' := by
  induction n generalizing u data last xs with
  | zero =>
    obtain ⟨rfl, rfl⟩ := Prod.mk.inj hfill
    have hwidth := h.width
    rw [windowSize] at hwidth
    exact ⟨data, last, h, fill_stays dTime (by rw [windowSize]; omega)
      (Or.inl (by rw [windowSize]; omega))⟩
  | succ n ih =>
    have hwidth := h.width
    have hle := h.le
    rw [windowSize] at hwidth
    rw [fillWindow] at hfill
    by_cases hroom : u.sendWindow.freeBufferId < windowSize ∧ xs ≠ []
    · have hbegin : u.sendWindow.btBegin < 256 := by
        rw [h.begins]
        exact Nat.mod_lt _ (by decide)
      have hend : u.sendWindow.btEnd = (u.sendWindow.btBegin + (last - first)) % 256 := by
        rw [h.ends, h.begins]
        omega
      have hgt := (position_cases (j := last - first) hbegin (by omega) hc).2
      rw [← hend] at hgt
      rw [if_pos hroom] at hfill
      by_cases hstop : ((u.sendWindow.btEnd : Int) - u.sendWindow.btBegin : Rat) >
          u.sendWindowControl
      · rw [if_pos hstop] at hfill
        obtain ⟨rfl, rfl⟩ := Prod.mk.inj hfill
        exact ⟨data, last, h, fill_stays dTime (by rw [windowSize]; omega)
          (Or.inr (hgt.mp hstop))⟩
      · rw [if_neg hstop] at hfill
        have hgoes : ¬ (u.sendWindow.btBegin + (last - first) < 256 ∧
            ⌊u.sendWindowControl⌋₊ < last - first) := fun hc => hstop (hgt.mpr hc)
        have hsize : 1 ≤ xs.length := List.length_pos_iff.mpr hroom.2
        have hput := (putPacket_puts dTime (xs.take (bufferSize - UDPPacketHeader.headSize)) h
          hroom.1 (by
            rw [List.length_take, bufferSize, UDPPacketHeader.headSize]
            omega)).sends
        have hwidth' := hput.width
        rw [windowSize] at hwidth'
        have hdrop : (xs.drop (bufferSize - UDPPacketHeader.headSize)).length =
            xs.length - 509 := by
          rw [List.length_drop, bufferSize, UDPPacketHeader.headSize]
        obtain ⟨data', last', hsends, hrest⟩ := ih hput hc (by omega) hfill
        rw [hdrop] at hrest
        -- one packet more in the window, one less to come
        have hmost : min windowSize (last + 1 - first + (xs.length - 509 + 508) / 509) =
            min windowSize (last - first + (xs.length + 508) / 509) := by
          omega
        rw [hmost] at hrest
        refine ⟨data', last', hsends, ?_, hrest.most, hrest.wrapped, fun hstraight hk => ?_,
          fun k hge hlt => ?_⟩
        · have hmore := hrest.le
          omega
        · refine hrest.bounded hstraight ?_
          change last + 1 - first ≤ ⌊u.sendWindowControl⌋₊ + 1
          omega
        · rw [hrest.retry k hge hlt]
          by_cases hnew : k < last + 1
          · rw [if_pos hnew]
            exact putPacket_retry dTime _ h (by rw [windowSize]; omega) hge hnew
          · rw [if_neg hnew, if_neg (by omega)]
    · rw [if_neg hroom] at hfill
      obtain ⟨rfl, rfl⟩ := Prod.mk.inj hfill
      refine ⟨data, last, h, fill_stays dTime (by rw [windowSize]; omega) (Or.inl ?_)⟩
      by_cases hfree : u.sendWindow.freeBufferId < windowSize
      · have hnone : xs = [] := by
          by_contra hne
          exact hroom ⟨hfree, hne⟩
        rw [hnone, windowSize]
        simp only [List.length_nil]
        omega
      · have hfull : ¬ (u.sendWindow.buffers first last).length < windowSize :=
          fun hlt => hfree (h.pool.free_of_length hlt)
        rw [buffers, List.length_map, List.length_range', windowSize] at hfull
        rw [windowSize]
        omega

theorem Fill.congr {dTime : Rat} {m last' : Nat} (h : Fill dTime m first last last' u u')
    {v' : FxUDPConnectSock} (hwindow : v'.sendWindow = u'.sendWindow) :
    Fill dTime m first last last' u v' :=
  ⟨h.le, h.most, h.wrapped, h.bounded, by rw [hwindow]; exact h.retry⟩

/-- Where the window stays empty an empty packet may be put into it. -/
theorem putPackets_fill (dTime : Rat) (h : Sends u.sendWindow data first last)
    (hc : 0 < u.sendWindowControl) :
    ∃ data' last' m, Sends (putPackets dTime u).sendWindow data' first last' ∧
      (m = u.available ∨ m = max u.available 1) ∧
      Fill dTime m first last last' u (putPackets dTime u) := by
  have hm : u.available = min windowSize (last - first + (u.ringData.length + 508) / 509) := by
    rw [available, h.count]
  simp only [putPackets]
  rw [show u.sendBuf.copyOut u.sendBuf.getOutCursorPtr.ptr u.sendBuf.getOutCursorPtr.len =
    u.ringData from rfl]
  have hbound := fillWindow_bound dTime u.ringData.length u.ringData u
  generalize hfill : fillWindow dTime u.ringData.length u.ringData u = filled at hbound
  obtain ⟨rest, v⟩ := filled
  obtain ⟨data', last', hsends, hfilled⟩ := fillWindow_fill h hc le_rfl hfill
  rw [← hm] at hfilled
  obtain ⟨v', hv', hwindow⟩ : ∃ v', (if u.ringData.length - rest.length > 0 then
      { v with sendBuf :=
        (v.sendBuf.discardBuff (u.ringData.length - rest.length : Nat)).2 } else v) = v' ∧
        v'.sendWindow = v.sendWindow := by
    refine ⟨_, rfl, ?_⟩
    split_ifs <;> rfl
  simp only [hv']
  rw [← hwindow] at hsends
  split_ifs with hempty hroom
  · have hput := (putPacket_puts dTime [] hsends hroom.2 (by decide)).sends
    have hle := hsends.le
    have hwidth := hput.width
    have hnone : last' = first := by
      have hcount := hsends.count
      rw [SlidingWindow.count, hempty, SlidingWindow.span, Nat.add_sub_cancel_left] at hcount
      omega
    rw [windowSize] at hwidth
    refine ⟨_, _, max u.available 1, hput, Or.inr rfl, ?_, ?_, fun hwrap => ?_, fun _ _ => ?_,
      fun n hge hlt => ?_⟩
    · have hle' := hfilled.le
      omega
    · omega
    · have hall := hfilled.wrapped hwrap
      omega
    · omega
    · rw [putPacket_retry dTime [] hsends (by rw [windowSize]; omega) hge hlt]
      have hle' := hfilled.le
      rw [if_neg (by omega), if_neg (by omega)]
  · exact ⟨_, _, _, hsends, Or.inl rfl, hfilled.congr hwindow⟩
  · exact ⟨_, _, _, hsends, Or.inl rfl, hfilled.congr hwindow⟩

/-! #### PostSend up to the window -/

theorem postSend_fills (dTime : Rat) (answers : Nat → SendRet) (hfills : Fills dTime u) :
    ∃ v, v.sendWindow = u.sendWindow ∧ v.sendBuf = u.sendBuf ∧ v.sent = u.sent ∧
      v.sendWindowControl = controlAt dTime u ∧
      v.sendWindowThreshhold = (slowStart dTime (adjustControl u).2).sendWindowThreshhold ∧
      ((postSend dTime answers u).2 = (sendWindowPackets dTime answers
          (putPackets dTime v).sendWindow.count (putPackets dTime v).sendWindow.btBegin
          (adjustControl u).1 (putPackets dTime v)).2 ∨
        (postSend dTime answers u).2 = (sendAckPacket dTime (answers 0) (sendWindowPackets dTime
          answers (putPackets dTime v).sendWindow.count (putPackets dTime v).sendWindow.btBegin
          (adjustControl u).1 (putPackets dTime v)).2).2) := by
  obtain ⟨a, b, hlate, hretry⟩ : ∃ a b, (if dTime - u.ackRecvTime > 5 then
      { u with ackRecvTime := dTime, ackTimeoutRetry := sub32 u.ackTimeoutRetry 1 } else u) =
        { u with ackRecvTime := a, ackTimeoutRetry := b } ∧
      (dTime - u.ackRecvTime > 5 → b = sub32 u.ackTimeoutRetry 1) := by
    split_ifs with hlate
    · exact ⟨_, _, rfl, fun _ => rfl⟩
    · exact ⟨u.ackRecvTime, u.ackTimeoutRetry, rfl, fun hc => absurd hc hlate⟩
  have hadjust : adjustControl { u with ackRecvTime := a, ackTimeoutRetry := b } =
      ((adjustControl u).1,
        { (adjustControl u).2 with ackRecvTime := a, ackTimeoutRetry := b }) := by
    simp only [adjustControl]
    split_ifs <;> rfl
  have hslow : slowStart dTime { (adjustControl u).2 with ackRecvTime := a, ackTimeoutRetry := b } =
      { slowStart dTime (adjustControl u).2 with ackRecvTime := a, ackTimeoutRetry := b } := by
    rw [slowStart, slowStart]
    split_ifs <;> rfl
  obtain ⟨hsame, hwindow⟩ := adjustControl_same u
  obtain ⟨hsame', hwindow'⟩ := slowStart_same dTime (adjustControl u).2
  refine ⟨{ slowStart dTime (adjustControl u).2 with ackRecvTime := a, ackTimeoutRetry := b },
    hwindow'.trans hwindow, hsame'.sendBuf.trans hsame.sendBuf, hsame'.sent.trans hsame.sent, rfl,
    rfl, ?_⟩
  simp only [postSend, hlate, hadjust, hslow]
  rw [if_neg (fun hc => hfills.1 ⟨hc.1, by rw [← hretry hc.1]; exact hc.2⟩),
    if_neg (not_lt.mpr hfills.2)]
  generalize sendWindowPackets dTime answers _ _ _ _ = r
  obtain ⟨sent, w⟩ := r
  cases sent with
  | returns ok => exact Or.inl rfl
  | goesOn => exact Or.inr rfl

theorem postSend_idle (dTime : Rat) (answers : Nat → SendRet) (hidle : ¬ Fills dTime u) :
    SameFlow u (postSend dTime answers u).2 ∧ (postSend dTime answers u).2.sent = u.sent := by
  simp only [postSend]
  have hback : (dTime - u.ackRecvTime > 5 ∧ sub32 u.ackTimeoutRetry 1 ≤ 0) ∨
      dTime < u.sendTime := by
    by_contra hc
    exact hidle ⟨fun hlate => hc (Or.inl hlate), not_lt.mp fun hearly => hc (Or.inr hearly)⟩
  by_cases hlate : dTime - u.ackRecvTime > 5
  · simp only [if_pos hlate]
    rcases hback with ⟨-, hback⟩ | hback
    · rw [if_pos ⟨hlate, hback⟩]
      exact ⟨⟨rfl, rfl, rfl, rfl⟩, rfl⟩
    · split_ifs
      all_goals exact ⟨⟨rfl, rfl, rfl, rfl⟩, rfl⟩
  · have hearly : dTime < u.sendTime := hback.resolve_left fun hc => hlate hc.1
    simp only [if_neg hlate]
    rw [if_neg fun hc => hlate hc.1, if_pos hearly]
    exact ⟨⟨rfl, rfl, rfl, rfl⟩, rfl⟩

theorem sendAckPacket_syn (dTime : Rat) (answer : SendRet) (u : FxUDPConnectSock) :
    SameBound u (sendAckPacket dTime answer u).2 ∧
      (sendAckPacket dTime answer u).2.sendWindow = u.sendWindow ∧
      ∃ packets, (sendAckPacket dTime answer u).2.sent = u.sent ++ packets ∧
        ∀ packet ∈ packets, synOf packet = pred u.sendWindow.btBegin := by
  have hnone : ∃ packets : List (List UInt8), u.sent = u.sent ++ packets ∧
      ∀ packet ∈ packets, synOf packet = pred u.sendWindow.btBegin :=
    ⟨[], (List.append_nil _).symm, fun _ hc => absurd hc List.not_mem_nil⟩
  rw [sendAckPacket]
  by_cases hack : u.sendAck = true
  · rw [if_pos hack]
    simp only
    generalize hkernel : kernelSend answer _ u = r
    obtain ⟨r, v⟩ := r
    obtain ⟨hbound, hcases, hwindow⟩ := kernelSend_bound hkernel
    rcases hcases with ⟨-, rfl, hsent⟩ | ⟨-, ⟨ok, rfl⟩, hsent⟩
    · refine ⟨⟨hbound.control, hbound.threshhold, hbound.btBegin⟩, hwindow, _, hsent, ?_⟩
      intro packet hin
      rw [List.mem_singleton.mp hin]
      simp [synOf, UDPPacketHeader.bytes, pred]
    · refine ⟨hbound, hwindow, [], ?_, fun _ hc => absurd hc List.not_mem_nil⟩
      rw [List.append_nil]
      exact hsent
  · rw [if_neg hack]
    exact ⟨⟨rfl, rfl, rfl⟩, rfl, hnone⟩

/-- Up to an acknowledgement that stands for no packet of the window, `PostSend` is the filling of
the window and the loop over it. -/
structure Round (dTime : Rat) (answers : Nat → SendRet) (u u' v : FxUDPConnectSock)
    (first last last' m : Nat) (packets acks : List (List UInt8)) : Prop where
  sends : ∃ data, Sends v.sendWindow data first last'
  sends' : ∃ data, Sends u'.sendWindow data first last'
  most : m = u.available ∨ m = max u.available 1
  control : v.sendWindowControl = controlAt dTime u
  bound : SameBound v u'
  fill : Fill dTime m first last last' { u with sendWindowControl := controlAt dTime u } v
  transmits : Transmits dTime answers (adjustControl u).1 first last' v packets
  sent : u'.sent = u.sent ++ (packets ++ acks)
  acks : ∀ packet ∈ acks, synOf packet = pred u'.sendWindow.btBegin

theorem postSend_round (dTime : Rat) (answers : Nat → SendRet) (hfills : Fills dTime u)
    (h : Sends u.sendWindow data first last) (hc : 0 < controlAt dTime u) :
    ∃ v last' m packets acks,
      Round dTime answers u (postSend dTime answers u).2 v first last last' m packets acks := by
  obtain ⟨t, hwindow, hring, hsent, hcontrol, -, hpost⟩ := postSend_fills dTime answers hfills
  have ht : Sends t.sendWindow data first last := by
    rw [hwindow]
    exact h
  have havailable : t.available = u.available := by
    rw [available, available, ringData, ringData, hwindow, hring]
  obtain ⟨hbound, hkeeps⟩ := putPackets_bound dTime t
  obtain ⟨data', last', m, hsends, hm, hfill⟩ := putPackets_fill dTime ht (by rwa [hcontrol])
  rw [havailable] at hm
  have hfill' : Fill dTime m first last last' { u with sendWindowControl := controlAt dTime u }
      (putPackets dTime t) := by
    refine ⟨hfill.le, hfill.most, ?_, ?_, ?_⟩
    · have hwrapped := hfill.wrapped
      rwa [hwindow, hcontrol] at hwrapped
    · have hbounded := hfill.bounded
      rwa [hwindow, hcontrol] at hbounded
    · have hretry := hfill.retry
      rwa [hwindow] at hretry
  have hle := hsends.le
  obtain ⟨packets, hpackets, htransmits, hbound', hsends'⟩ := sendWindowPackets_transmits dTime
    answers (adjustControl u).1 (i := first) (n := (putPackets dTime t).sendWindow.count) hsends
    le_rfl (by rw [hsends.count]; omega)
  rw [← hsends.begins] at hpackets hbound' hsends'
  rw [hkeeps, hsent] at hpackets
  generalize (sendWindowPackets dTime answers (putPackets dTime t).sendWindow.count
    (putPackets dTime t).sendWindow.btBegin (adjustControl u).1 (putPackets dTime t)).2 = w
    at hpost hpackets hbound' hsends'
  rcases hpost with hpost | hpost
  · rw [hpost]
    refine ⟨putPackets dTime t, last', m, packets, [], ⟨_, hsends⟩, ⟨_, hsends'⟩, hm,
      hbound.control.trans hcontrol, hbound', hfill', htransmits, ?_,
      fun _ hc => absurd hc List.not_mem_nil⟩
    rw [hpackets, List.append_nil]
  · obtain ⟨hback, hsame, acks, hacks, hsyn⟩ := sendAckPacket_syn dTime (answers 0) w
    rw [hpost]
    refine ⟨putPackets dTime t, last', m, packets, acks, ⟨_, hsends⟩, ⟨data', ?_⟩, hm,
      hbound.control.trans hcontrol, hbound'.trans hback, hfill', htransmits, ?_, ?_⟩
    · rw [hsame]
      exact hsends'
    · rw [hacks, hpackets, List.append_assoc]
    · rw [hsame]
      exact hsyn

section

variable {dTime : Rat} {answers : Nat → SendRet} {last' m : Nat} {packets acks : List (List UInt8)}

/-- A packet is ready for the loop if and only if it is due, or the first one and forced. -/
theorem Round.ready_iff (h : Round dTime answers u u' v first last last' m packets acks)
    (hu : Sends u.sendWindow data first last) {j : Nat} (hj : first + j < last') :
    Ready dTime (adjustControl u).1 first v (first + j) ↔
      Due dTime u j ∨ j = 0 ∧ (adjustControl u).1 = true := by
  have hslot : (u.sendWindow.btBegin + j) % 256 % windowSize = (first + j) % windowSize := by
    rw [hu.begins, windowSize]
    omega
  have hle := hu.le
  rw [Ready, h.fill.retry _ (Nat.le_add_right _ _) hj, Due, hu.count, hslot]
  refine or_congr ?_ (and_congr_left' (by omega))
  by_cases hnew : first + j < last
  · rw [if_pos hnew]
    exact (or_iff_right (by omega)).symm
  · rw [if_neg hnew]
    exact iff_of_true le_rfl (Or.inl (by omega))

/-- Behind the wrap the loop comes to a packet exactly if the kernel lets it. -/
theorem Round.comes_iff (h : Round dTime answers u u' v first last last' m packets acks)
    (hu : Sends u.sendWindow data first last) (hc : 0 < controlAt dTime u)
    (hwrap : 256 ≤ u.sendWindow.btBegin + ⌈controlAt dTime u⌉₊) {j : Nat}
    (hlast : last' - first = u.available) (hj : first + j < last')
    (hbehind : ⌈controlAt dTime u⌉₊ ≤ j) :
    LoopSends dTime answers (adjustControl u).1 first last' v (first + j) ↔
      Goes dTime answers u j := by
  have hpos : 0 < ⌈controlAt dTime u⌉₊ := Nat.ceil_pos.mpr hc
  have hturn : ∀ i, last' - (first + i) = u.available - i := fun i => by omega
  have hready : Ready dTime (adjustControl u).1 first v (first + j) ↔ Due dTime u j := by
    rw [h.ready_iff hu hj]
    exact or_iff_left fun hc => by omega
  constructor
  · intro hloops
    refine ⟨hready.mp hloops.ready, fun i hi hdue => ?_⟩
    have htakes := hloops.takes (first + i) (by omega) (by omega)
      ((h.ready_iff hu (by omega)).mpr hdue)
    rwa [hturn] at htakes
  · intro hgoes
    obtain ⟨data', hsends⟩ := h.sends
    have hwidth := hsends.width
    rw [windowSize] at hwidth
    have hbegin : v.sendWindow.btBegin = u.sendWindow.btBegin := hsends.begins.trans hu.begins.symm
    refine ⟨fun k hge hle => ?_, fun k hge hle hk => ?_, hready.mpr hgoes.1⟩
    · obtain ⟨i, rfl⟩ := Nat.exists_eq_add_of_le hge
      rw [stops_iff hsends (by rwa [h.control]) (by omega), h.control, hbegin]
      omega
    · obtain ⟨i, rfl⟩ := Nat.exists_eq_add_of_le hge
      rw [hturn]
      exact hgoes.2 i (by omega) ((h.ready_iff hu (by omega)).mp hk)


theorem Round.count (h : Round dTime answers u u' v first last last' m packets acks) :
    u'.sendWindow.count = last' - first := by
  obtain ⟨data', hsends⟩ := h.sends'
  exact hsends.count

theorem Round.controlAt (h : Round dTime answers u u' v first last last' m packets acks) :
    u'.sendWindowControl = controlAt dTime u :=
  h.bound.control.trans h.control

/-- The place of a packet in the window that `PostSend` leaves. -/
theorem Round.span (h : Round dTime answers u u' v first last last' m packets acks) {j : Nat}
    (hj : first + j < last') : span u'.sendWindow.btBegin ((first + j) % 256) = j := by
  obtain ⟨data', hsends⟩ := h.sends'
  have hwidth := hsends.width
  rw [windowSize] at hwidth
  rw [hsends.begins, SlidingWindow.span]
  omega

theorem Round.valid (h : Round dTime answers u u' v first last last' m packets acks) {j : Nat}
    (hj : first + j < last') : u'.sendWindow.isValidIndex ((first + j) % 256) = true := by
  rw [isValidIndex, h.span hj, h.count]
  exact decide_eq_true (by omega)

/-- An acknowledgement alone stands for no packet of the window. -/
theorem Round.ack_invalid (h : Round dTime answers u u' v first last last' m packets acks)
    {packet : List UInt8} (hin : packet ∈ acks) :
    ¬ u'.sendWindow.isValidIndex (synOf packet) = true := by
  obtain ⟨data', hsends⟩ := h.sends'
  have hwidth := hsends.width
  rw [windowSize] at hwidth
  rw [h.acks packet hin, isValidIndex, h.count, hsends.begins, SlidingWindow.span, pred,
    decide_eq_true_eq]
  omega

/-- Behind the wrap the window is filled with what there is. -/
theorem Round.wrapped (h : Round dTime answers u u' v first last last' m packets acks)
    (hwrap : 256 ≤ u.sendWindow.btBegin + ⌈FxUDPConnectSock.controlAt dTime u⌉₊) :
    u.available ≤ last' - first ∧ (2 ≤ u.available ∨ 2 ≤ last' - first →
      last' - first = u.available) := by
  have hceil := Nat.ceil_le_floor_add_one (FxUDPConnectSock.controlAt dTime u)
  have hall : last' - first = m := h.fill.wrapped (by simp only; omega)
  rcases h.most with hm | hm
  · exact ⟨by omega, fun _ => by omega⟩
  · have := Nat.le_max_left u.available 1
    refine ⟨by omega, fun htwo => ?_⟩
    omega

theorem Round.filled_iff (h : Round dTime answers u u' v first last last' m packets acks)
    (hu : Sends u.sendWindow data first last) :
    (u.sendWindow.count ≤ ⌊u'.sendWindowControl⌋₊ + 1 →
      u'.sendWindow.count ≤ ⌊u'.sendWindowControl⌋₊ + 1) ↔
    (u.sendWindow.count ≤ ⌊FxUDPConnectSock.controlAt dTime u⌋₊ + 1 →
      u.sendWindow.btBegin + ⌊FxUDPConnectSock.controlAt dTime u⌋₊ < 255 ∨
        u.available ≤ ⌊FxUDPConnectSock.controlAt dTime u⌋₊ + 1) := by
  rw [h.controlAt, h.count]
  refine imp_congr_right fun hsmall => ?_
  have hmost := h.fill.most
  constructor
  · intro hbounded
    refine or_iff_not_imp_left.mpr fun hwrap => ?_
    have hall : last' - first = m := h.fill.wrapped (by simp only; omega)
    rcases h.most with hm | hm
    · omega
    · have := Nat.le_max_left u.available 1
      omega
  · rintro (hstraight | hfew)
    · exact h.fill.bounded (by simp only; omega) (by rwa [hu.count] at hsmall)
    · rcases h.most with hm | hm
      · omega
      · omega

theorem Round.sent_iff (h : Round dTime answers u u' v first last last' m packets acks)
    (hu : Sends u.sendWindow data first last) (hc : 0 < FxUDPConnectSock.controlAt dTime u) :
    (∃ packets, u'.sent = u.sent ++ packets ∧ ∀ packet ∈ packets,
      u'.sendWindow.isValidIndex (synOf packet) →
      SlidingWindow.span u'.sendWindow.btBegin (synOf packet) < ⌈u'.sendWindowControl⌉₊) ↔
    (u.sendWindow.btBegin + ⌈FxUDPConnectSock.controlAt dTime u⌉₊ < 256 ∨
      ∀ j, ⌈FxUDPConnectSock.controlAt dTime u⌉₊ ≤ j → j < u.available →
        ¬ Goes dTime answers u j) := by
  have hone : 1 ≤ ⌈FxUDPConnectSock.controlAt dTime u⌉₊ := Nat.ceil_pos.mpr hc
  obtain ⟨data', hsends⟩ := h.sends
  have hwidth := hsends.width
  rw [windowSize] at hwidth
  have hbegin : v.sendWindow.btBegin = u.sendWindow.btBegin := hsends.begins.trans hu.begins.symm
  constructor
  · rintro ⟨packets', hsent, hfirst⟩
    obtain rfl := List.append_cancel_left (h.sent.symm.trans hsent)
    refine or_iff_not_imp_left.mpr fun hwrap j hge hlt hgoes => ?_
    rw [not_lt] at hwrap
    obtain ⟨-, hall⟩ := h.wrapped hwrap
    have hlast := hall (Or.inl (by omega))
    have hj : first + j < last' := by omega
    obtain ⟨packet, hin, hsyn⟩ := h.transmits.all (first + j) (Nat.le_add_right _ _) hj
      ((h.comes_iff hu hc hwrap hlast hj hge).mpr hgoes)
    have hplace := hfirst packet (List.mem_append_left _ hin) (by rw [hsyn]; exact h.valid hj)
    rw [hsyn, h.span hj, h.controlAt] at hplace
    omega
  · intro hstraight
    refine ⟨packets ++ acks, h.sent, fun packet hin hvalid => ?_⟩
    rcases List.mem_append.mp hin with hin | hin
    · obtain ⟨n, hge, hn, hsyn, hloops⟩ := h.transmits.only packet hin
      obtain ⟨j, rfl⟩ := Nat.exists_eq_add_of_le hge
      rw [hsyn, h.span hn, h.controlAt]
      by_contra hbehind
      rw [not_lt] at hbehind
      by_cases hwrap : u.sendWindow.btBegin + ⌈FxUDPConnectSock.controlAt dTime u⌉₊ < 256
      · -- the loop has stopped at the bound
        refine hloops.goes (first + ⌈FxUDPConnectSock.controlAt dTime u⌉₊)
          (Nat.le_add_right _ _) (by omega) ?_
        rw [stops_iff hsends (by rwa [h.control]) (by omega), h.control, hbegin]
        exact ⟨hwrap, le_rfl⟩
      · rw [not_lt] at hwrap
        obtain ⟨-, hall⟩ := h.wrapped hwrap
        have hlast := hall (Or.inr (by omega))
        refine hstraight.resolve_left (not_lt.mpr hwrap) j hbehind (by omega) ?_
        exact (h.comes_iff hu hc hwrap hlast hn hbehind).mp hloops
    · exact absurd hvalid (h.ack_invalid hin)

end

/-! #### The bound that a call takes -/

theorem half_control (hc : 0 < u.sendWindowControl) :
    (0 : Rat) < if u.sendWindowControl / 2 < 2 then 2 else u.sendWindowControl / 2 := by
  split_ifs
  · exact two_pos
  · exact half_pos hc

theorem adjustControl_control (hc : 0 < u.sendWindowControl) (ht : 0 < u.sendWindowThreshhold) :
    0 < (adjustControl u).2.sendWindowControl ∧ 0 < (adjustControl u).2.sendWindowThreshhold := by
  have hlimit : ∀ d : Rat, 0 < d → 0 < if d > windowSize then (windowSize : Rat) else d := by
    intro d hd
    split_ifs
    · simp [windowSize]
    · exact hd
  have hhalf := half_control hc
  rw [adjustControl]
  by_cases hsame : u.ackSameCount > 3
  · rw [if_pos hsame]
    by_cases hquick : u.quickRetry = false
    · rw [if_pos hquick]
      have hmany : (1 : Rat) < u.ackSameCount := by
        exact_mod_cast (by omega : 1 < u.ackSameCount)
      exact ⟨hlimit _ (by linarith), hhalf⟩
    · rw [if_neg hquick]
      exact ⟨hlimit _ (by linarith), ht⟩
  · rw [if_neg hsame]
    split_ifs
    · exact ⟨ht, ht⟩
    · exact ⟨hc, ht⟩

theorem slowStart_control (dTime : Rat) (hc : 0 < u.sendWindowControl)
    (ht : 0 < u.sendWindowThreshhold) :
    0 < (slowStart dTime u).sendWindowControl ∧ 0 < (slowStart dTime u).sendWindowThreshhold := by
  rw [slowStart]
  by_cases hlate : timedOut dTime u.sendWindow u.sendWindow.count u.sendWindow.btBegin = true
  · rw [if_pos hlate]
    exact ⟨half_control hc, half_control hc⟩
  · rw [if_neg hlate]
    exact ⟨hc, ht⟩

theorem Flowing.controlAt (h : Flowing u) (dTime : Rat) :
    0 < controlAt dTime u ∧
      0 < (slowStart dTime (adjustControl u).2).sendWindowThreshhold := by
  obtain ⟨hc, ht⟩ := adjustControl_control h.control h.threshhold
  exact slowStart_control dTime hc ht

/-- One call of `PostSend` keeps the bound if and only if no comparison with it goes wrong. -/
theorem bounded_iff_straight (h : Flowing u) {dTime : Rat} (answers : Nat → SendRet)
    (hfills : Fills dTime u) :
    Bounded u (postSend dTime answers u).2 ↔ Straight dTime answers u := by
  obtain ⟨data, first, last, -, hsends⟩ := h.window
  have hc := (h.controlAt dTime).1
  obtain ⟨v, last', m, packets, acks, hround⟩ := postSend_round dTime answers hfills hsends hc
  have hfilled := hround.filled_iff hsends
  have hsent := hround.sent_iff hsends hc
  constructor
  · intro hbounded
    exact ⟨hfilled.mp hbounded.filled, hsent.mp hbounded.sent⟩
  · intro hstraight
    exact ⟨hfilled.mpr hstraight.filled, hsent.mpr hstraight.sent⟩

/-- A call that does not get to the window keeps the bound. -/
theorem bounded_idle {dTime : Rat} (answers : Nat → SendRet) (hidle : ¬ Fills dTime u) :
    Bounded u (postSend dTime answers u).2 := by
  obtain ⟨hsame, hsent⟩ := postSend_idle dTime answers hidle
  refine ⟨fun hsmall => ?_, [], ?_, fun _ hc => absurd hc List.not_mem_nil⟩
  · rw [hsame.sendWindow]
    exact hsmall
  · rw [hsent, List.append_nil]

/-! ### Runs -/

theorem postSend_flow (dTime : Rat) (answers : Nat → SendRet) (h : Flowing u) :
    0 < (postSend dTime answers u).2.sendWindowControl ∧
      0 < (postSend dTime answers u).2.sendWindowThreshhold := by
  by_cases hfills : Fills dTime u
  · obtain ⟨data, first, last, -, hsends⟩ := h.window
    obtain ⟨hc, ht⟩ := h.controlAt dTime
    obtain ⟨t, hwindow, hring, hsent, hcontrol, hthresh, hpost⟩ :=
      postSend_fills dTime answers hfills
    have hsends' : Sends t.sendWindow data first last := by
      rw [hwindow]
      exact hsends
    obtain ⟨hput, -⟩ := putPackets_bound dTime t
    obtain ⟨data', last', m, hfilled, -, -⟩ := putPackets_fill dTime hsends' (by rwa [hcontrol])
    have hle := hfilled.le
    obtain ⟨packets, -, -, hbound, -⟩ := sendWindowPackets_transmits dTime answers
      (adjustControl u).1 (i := first) (n := (putPackets dTime t).sendWindow.count) hfilled le_rfl
      (by rw [hfilled.count]; omega)
    rw [← hfilled.begins] at hbound
    have hall := hput.trans hbound
    rcases hpost with hpost | hpost
    · rw [hpost, hall.control, hall.threshhold, hcontrol, hthresh]
      exact ⟨hc, ht⟩
    · have hacked := hall.trans (sendAckPacket_syn dTime (answers 0) _).1
      rw [hpost, hacked.control, hacked.threshhold, hcontrol, hthresh]
      exact ⟨hc, ht⟩
  · obtain ⟨hsame, -⟩ := postSend_idle dTime answers hfills
    rw [hsame.control, hsame.threshhold]
    exact ⟨h.control, h.threshhold⟩

theorem Flowing.update (h : Flowing u) (dTime : Rat) (answers : Nat → SendRet) :
    Flowing (update dTime answers u) := by
  obtain ⟨data, first, last, hpos, hsends⟩ := h.window
  obtain ⟨q, hrep, htotal⟩ := h.ring
  obtain ⟨data', last', q', hposts⟩ := update_posts dTime answers hsends hpos hrep
    (by rw [htotal]; decide)
  obtain ⟨ys, hputs, -⟩ := hposts.puts
  have hcontrol : 0 < (FxUDPConnectSock.update dTime answers u).sendWindowControl ∧
      0 < (FxUDPConnectSock.update dTime answers u).sendWindowThreshhold := by
    have hflow := postSend_flow dTime answers h
    rw [FxUDPConnectSock.update]
    split_ifs
    · exact ⟨h.control, h.threshhold⟩
    · generalize postSend dTime answers u = sent at hflow ⊢
      obtain ⟨ok, t⟩ := sent
      cases ok with
      | true => exact hflow
      | false => exact hflow
  exact ⟨hcontrol.1, hcontrol.2, ⟨data', first, last', hpos, hputs.sends⟩,
    ⟨q', hposts.rep, hposts.totalLen.trans htotal⟩⟩

theorem Flowing.push (h : Flowing u) (pTemData : List UInt8) : Flowing (pushFrame pTemData u) := by
  obtain ⟨q, hrep, htotal⟩ := h.ring
  obtain ⟨ys, hrep', htotal', -⟩ := pushFrame_ring pTemData hrep (by rw [htotal]; decide)
  have hbound : SameBound u (pushFrame pTemData u) := by
    simp only [pushFrame]
    split_ifs <;> exact ⟨rfl, rfl, rfl⟩
  refine ⟨?_, ?_, ?_, ⟨q ++ ys, hrep', htotal'.trans htotal⟩⟩
  · rw [hbound.control]
    exact h.control
  · rw [hbound.threshhold]
    exact h.threshhold
  · rw [(pushFrame_windows pTemData u).1]
    exact h.window

theorem Flowing.step (h : Flowing u) {op : Op} (hstep : step u op = some u') : Flowing u' := by
  cases op with
  | onRecv fuel clock ret sched =>
    have hsched : Flowing { u with sock := { u.sock with sched := sched } } :=
      h.same ⟨rfl, rfl, rfl, rfl⟩
    exact hsched.onRecv hstep
  | update dTime answers =>
    obtain rfl := Option.some.inj hstep
    exact h.update dTime answers
  | push pTemData =>
    obtain rfl := Option.some.inj hstep
    exact h.push pTemData
  | main =>
    obtain rfl := Option.some.inj hstep
    exact h.same ⟨rfl, rfl, rfl, rfl⟩
  | delayClose =>
    obtain rfl := Option.some.inj hstep
    exact h.same ⟨rfl, rfl, rfl, rfl⟩

theorem Established.flowing (h : Established u) : Flowing u := by
  have hshaken := h.shaken
  have hcontrol : u.sendWindowControl = 1 ∧ u.sendWindowThreshhold = windowSize := by
    cases h with
    | connect hconnect =>
      simp only [FxUDPConnectSock.connect] at hconnect
      split_ifs at hconnect
      obtain rfl := Option.some.inj hconnect
      exact ⟨rfl, rfl⟩
    | accept hdatagram haccept =>
      rw [onAccept] at haccept
      split_ifs at haccept
      obtain rfl := Option.some.inj haccept
      exact ⟨rfl, rfl⟩
  refine ⟨?_, ?_, ⟨_, 1, 2, le_rfl, hshaken.sends⟩, ⟨[], hshaken.rep, hshaken.totalLen⟩⟩
  · rw [hcontrol.1]
    exact one_pos
  · rw [hcontrol.2]
    simp [windowSize]

/-- A step in which `PostSend` keeps the bound. -/
def KeepsBound (u : FxUDPConnectSock) : Op → Prop
  | .update dTime answers => u.sock.isConnected = true → Bounded u (postSend dTime answers u).2
  | .onRecv _ _ _ _ | .push _ | .main | .delayClose => True

/-- A step in which no comparison with the bound goes wrong. -/
def ComparesStraight (u : FxUDPConnectSock) : Op → Prop
  | .update dTime answers => u.sock.isConnected = true → Fills dTime u → Straight dTime answers u
  | .onRecv _ _ _ _ | .push _ | .main | .delayClose => True

theorem keepsBound_iff (h : Flowing u) (op : Op) : KeepsBound u op ↔ ComparesStraight u op := by
  cases op with
  | update dTime answers =>
    refine imp_congr_right fun _ => ?_
    by_cases hfills : Fills dTime u
    · rw [bounded_iff_straight h answers hfills]
      exact (imp_iff_right hfills).symm
    · exact iff_of_true (bounded_idle answers hfills) fun hc => absurd hc hfills
  | onRecv | push | main | delayClose => exact Iff.rfl

/-- Every call of `PostSend` in a run keeps the bound if and only if no comparison goes wrong. -/
theorem congestion_bound_iff {u₀ : FxUDPConnectSock} (ops : List Op) (h : Established u₀) :
    Transition.Always step KeepsBound u₀ ops ↔
      Transition.Always step ComparesStraight u₀ ops :=
  Transition.always_iff Flowing (fun _ op hs => keepsBound_iff hs op)
    (fun _ _ _ hs _ hstep => hs.step hstep) h.flowing

/-- As far as the bound reaches, the window has not wrapped. -/
def Unwrapped (u : FxUDPConnectSock) : Op → Prop
  | .update dTime _ => u.sendWindow.btBegin + ⌈controlAt dTime u⌉₊ < 255
  | .onRecv _ _ _ _ | .push _ | .main | .delayClose => True

instance (u : FxUDPConnectSock) : (op : Op) → Decidable (Unwrapped u op)
  | .update _ _ => inferInstanceAs (Decidable (_ < _))
  | .onRecv _ _ _ _ | .push _ | .main | .delayClose => inferInstanceAs (Decidable True)

theorem Unwrapped.straight {op : Op} (h : Unwrapped u op) : ComparesStraight u op := by
  cases op with
  | update dTime answers =>
    intro _ _
    have hfar : u.sendWindow.btBegin + ⌈controlAt dTime u⌉₊ < 255 := h
    have hfloor := Nat.floor_le_ceil (controlAt dTime u)
    exact ⟨fun _ => Or.inl (by omega), Or.inl (by omega)⟩
  | onRecv | push | main | delayClose => trivial

theorem congestion_bound_served :
    ∃ u₀, connected = some u₀ ∧ Transition.Always step KeepsBound u₀ servedOps := by
  obtain ⟨u₀, hconnected⟩ : ∃ u₀, connected = some u₀ :=
    Option.isSome_iff_exists.mp (by decide +kernel)
  have hfacts : connected.all (fun u₀ => Transition.Always step Unwrapped u₀ servedOps) = true := by
    decide +kernel
  rw [hconnected, Option.all_some, decide_eq_true_iff] at hfacts
  refine ⟨u₀, hconnected, (congestion_bound_iff servedOps (.connect hconnected)).mpr ?_⟩
  exact hfacts.imp (fun _ => True) (fun _ _ _ hs => hs.straight) (fun _ _ _ _ _ _ => trivial)
    trivial

/-- A packet of the window is acknowledged and the next one goes out. -/
def round (k : Nat) : List Op :=
  [.onRecv 0 (fun _ => 2 * k) (.data [4, 1, UInt8.ofNat (k + 1)]) [],
    .update (2 * k + 2) fun _ => .count 3]

/-- The window comes to the last position before the wrap, its packet is late, data is pushed. -/
def wrapOps : List Op :=
  (List.range 254).flatMap round ++
    [.update 509 fun _ => .count 3, .update 510 fun _ => .count 3, .update 511 fun _ => .count 3,
      .update 512 fun _ => .count 3, .push (List.replicate 1019 7)]

set_option maxRecDepth 100000 in
/-- Where the end has wrapped and the begin has not, four packets are filled into a window whose
bound allows for three. -/
theorem wrap_exceeds_bound :
    ∃ u₀ u, Established u₀ ∧ Transition.run step u₀ wrapOps = some u ∧
      u.sock.isConnected = true ∧ ¬ Bounded u (postSend 513 (fun _ => .count 3) u).2 := by
  obtain ⟨u₀, hconnected⟩ : ∃ u₀, connected = some u₀ :=
    Option.isSome_iff_exists.mp (by decide +kernel)
  have hfacts : connected.all (fun u₀ => (Transition.run step u₀ wrapOps).any fun u =>
      u.sock.isConnected ∧ u.sendWindow.count = 1 ∧
        (postSend 513 (fun _ => .count 3) u).2.sendWindowControl = 2 ∧
        (postSend 513 (fun _ => .count 3) u).2.sendWindow.count = 4) = true := by decide +kernel
  rw [hconnected, Option.all_some, Option.any_eq_true] at hfacts
  obtain ⟨u, hrun, hu⟩ := hfacts
  obtain ⟨hconn, hcount, hcontrol, hfilled⟩ := of_decide_eq_true hu
  refine ⟨u₀, u, .connect hconnected, hrun, hconn, fun hbounded => ?_⟩
  have hbound := hbounded.filled
  rw [hcontrol, hcount, hfilled, Nat.floor_ofNat] at hbound
  exact absurd (hbound (by decide)) (by decide)

end FxUDPConnectSock
