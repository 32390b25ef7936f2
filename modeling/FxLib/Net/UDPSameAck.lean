import FxLib.Net.UDPCongestion

/-!
# Counting the same acknowledgement

`OnRecv` keeps `m_btBegin - 1` in the `unsigned char` `m_btAckLast`, and the next packet compares it
with the `int` of that form. At the begin 0 the one is 255 and the other -1.
-/

open MachineInt

namespace FxUDPConnectSock

open SlidingWindow RecvSock

/-! ### What the claim is about -/

/-- The header of a packet that `OnRecv` takes for one of its peer: the socket is connected, a
buffer is free, the header is whole and has the status of an established socket. -/
def packetOf (u : FxUDPConnectSock) : Op → Option UDPPacketHeader
  | .onRecv _ _ (.data bytes) _ =>
    let refPacket : UDPPacketHeader :=
      ⟨(bytes.getD 0 0).toNat, (bytes.getD 1 0).toNat, (bytes.getD 2 0).toNat⟩
    if u.sock.isConnected = true ∧ u.recvWindow.freeBufferId < windowSize ∧
        UDPPacketHeader.headSize ≤ bytes.length ∧
        refPacket.cStatus = ESocketState.establish.code then some refPacket
    else none
  | .onRecv _ _ (.error _) _ | .update _ _ | .push _ | .main | .delayClose => none

/-- A packet that leaves the begin of a window with packets where it is counts, any other one ends
the count. -/
def CountsSameAck (u : FxUDPConnectSock) (op : Op) : Prop :=
  (packetOf u op).isSome = true → ∀ u', step u op = some u' →
    u'.ackSameCount =
      if u'.sendWindow.btBegin = u.sendWindow.btBegin ∧
          u'.sendWindow.btBegin ≠ u'.sendWindow.btEnd then u.ackSameCount + 1
      else 0

/-- A packet that acknowledges nothing of a window with packets does not find the begin 0, nor the
largest `int` in the counter. -/
def Comparable (u : FxUDPConnectSock) (op : Op) : Prop :=
  ∀ refPacket ∈ packetOf u op, u.sendWindow.isValidIndex refPacket.cAck = false →
    u.sendWindow.btBegin ≠ u.sendWindow.btEnd →
      u.sendWindow.btBegin ≠ 0 ∧ u.ackSameCount < 2147483647

instance (u : FxUDPConnectSock) (op : Op) : Decidable (Comparable u op) :=
  inferInstanceAs (Decidable (∀ refPacket ∈ packetOf u op, _))

/-- What every call of `OnRecv` leaves. -/
structure Recorded (u : FxUDPConnectSock) : Prop where
  begin_lt : u.sendWindow.btBegin < 256
  ackLast : u.ackLast = pred u.sendWindow.btBegin
  count : 0 ≤ u.ackSameCount

variable {u u' : FxUDPConnectSock}

/-! ### PostSend -/

/-- The begin of the window and the last acknowledgement stay, and the count at most ends. -/
structure SameAcks (u u' : FxUDPConnectSock) : Prop where
  btBegin : u'.sendWindow.btBegin = u.sendWindow.btBegin
  ackLast : u'.ackLast = u.ackLast
  count : u'.ackSameCount = u.ackSameCount ∨ u'.ackSameCount = 0

theorem SameAcks.trans {u'' : FxUDPConnectSock} (h : SameAcks u u') (h' : SameAcks u' u'') :
    SameAcks u u'' := by
  refine ⟨h'.btBegin.trans h.btBegin, h'.ackLast.trans h.ackLast, ?_⟩
  rcases h'.count with hsame | hzero
  · rw [hsame]
    exact h.count
  · exact Or.inr hzero

theorem sendRule_acks : SendRule SameAcks where
  refl _ := ⟨rfl, rfl, Or.inl rfl⟩
  trans := SameAcks.trans
  part u u' h hbegin := by
    rw [h]
    exact ⟨hbegin, rfl, Or.inl rfl⟩

theorem adjustControl_acks (u : FxUDPConnectSock) : SameAcks u (adjustControl u).2 := by
  simp only [adjustControl]
  split_ifs <;> exact ⟨rfl, rfl, Or.inl rfl⟩

theorem slowStart_acks (dTime : Rat) (u : FxUDPConnectSock) : SameAcks u (slowStart dTime u) := by
  rw [slowStart]
  by_cases hlate : timedOut dTime u.sendWindow u.sendWindow.count u.sendWindow.btBegin = true
  · rw [if_pos hlate]
    exact ⟨rfl, rfl, Or.inr rfl⟩
  · rw [if_neg hlate]
    exact sendRule_acks.refl u

theorem update_acks (dTime : Rat) (answers : Nat → SendRet) (u : FxUDPConnectSock) :
    SameAcks u (update dTime answers u) := by
  have hpost := sendRule_acks.postSend adjustControl_acks slowStart_acks dTime answers u
  rw [update]
  split_ifs
  · exact sendRule_acks.refl u
  · generalize postSend dTime answers u = sent at hpost ⊢
    obtain ⟨ok, t⟩ := sent
    cases ok with
    | true => exact hpost
    | false => exact ⟨hpost.btBegin, hpost.ackLast, hpost.count⟩

theorem Recorded.same (h : Recorded u) (hsame : SameAcks u u') : Recorded u' := by
  refine ⟨?_, ?_, ?_⟩
  · rw [hsame.btBegin]
    exact h.begin_lt
  · rw [hsame.ackLast, hsame.btBegin]
    exact h.ackLast
  · rcases hsame.count with hcount | hcount <;> rw [hcount]
    exact h.count

/-! ### OnRecv -/

theorem releases_position {w : SlidingWindow} (hbegin : w.btBegin < 256) (n : Nat) :
    (releases n w).btBegin = (w.btBegin + n) % 256 ∧ (releases n w).btEnd = w.btEnd := by
  induction n generalizing w with
  | zero => exact ⟨(Nat.mod_eq_of_lt hbegin).symm, rfl⟩
  | succ n ih =>
    have hrelease : w.release.btBegin = (w.btBegin + 1) % 256 := rfl
    obtain ⟨hfirst, hlast⟩ := ih (w := w.release) (Nat.mod_lt _ (by decide))
    refine ⟨?_, hlast⟩
    rw [releases, hfirst, hrelease]
    omega

/-- The begin moves exactly when the acknowledgement stands for a packet of the window. -/
theorem procAck_begin (clock : Nat → Rat) {cAck : Nat} (hack : cAck < 256)
    (hbegin : u.sendWindow.btBegin < 256) :
    (procAck clock cAck u).sendWindow.btBegin < 256 ∧
      (procAck clock cAck u).sendWindow.btEnd = u.sendWindow.btEnd ∧
      ((procAck clock cAck u).sendWindow.btBegin = u.sendWindow.btBegin ↔
        u.sendWindow.isValidIndex cAck = false) := by
  rw [(procAck_acked clock cAck u).sendWindow]
  obtain ⟨hfirst, hlast⟩ := releases_position hbegin (if u.sendWindow.isValidIndex cAck then
    span u.sendWindow.btBegin (succ cAck) else 0)
  rw [hfirst, hlast]
  refine ⟨Nat.mod_lt _ (by decide), rfl, ?_⟩
  by_cases hvalid : u.sendWindow.isValidIndex cAck = true
  · rw [if_pos hvalid]
    have hspan := of_decide_eq_true hvalid
    refine iff_of_false (fun hsame => ?_) (by simp [hvalid])
    -- a packet of the window is less than 255 behind its begin
    simp only [SlidingWindow.count, span, succ] at hspan hsame
    omega
  · rw [if_neg hvalid]
    refine iff_of_true (by omega) (by simpa using hvalid)

theorem ackPackets_count (clock : Nat → Rat) (dMax : Rat) (n : Nat) (u : FxUDPConnectSock) :
    (ackPackets clock dMax n u).ackSameCount = u.ackSameCount ∧
      (ackPackets clock dMax n u).ackLast = u.ackLast := by
  induction n generalizing u with
  | zero => exact ⟨rfl, rfl⟩
  | succ n ih =>
    rw [ackPackets, (ih _).1, (ih _).2]
    simp only [ackPacket]
    split_ifs <;> exact ⟨rfl, rfl⟩

theorem procAck_count (clock : Nat → Rat) (cAck : Nat) (u : FxUDPConnectSock) :
    (procAck clock cAck u).ackSameCount = u.ackSameCount ∧
      (procAck clock cAck u).ackLast = u.ackLast := by
  rw [procAck]
  by_cases hvalid : u.sendWindow.isValidIndex cAck = true
  · rw [if_pos hvalid]
    exact ackPackets_count clock _ _
      { u with ackRecvTime := clock (span u.sendWindow.btBegin (succ cAck)), ackTimeoutRetry := 3 }
  · rw [if_neg hvalid]
    exact ⟨rfl, rfl⟩

/-- What a packet comes to. -/
structure Answered (u u' : FxUDPConnectSock) (cAck : Nat) : Prop where
  begin_lt : u'.sendWindow.btBegin < 256
  btEnd : u'.sendWindow.btEnd = u.sendWindow.btEnd
  stays : u'.sendWindow.btBegin = u.sendWindow.btBegin ↔ u.sendWindow.isValidIndex cAck = false
  ackLast : u'.ackLast = pred u'.sendWindow.btBegin
  count : u'.ackSameCount =
    if u'.sendWindow.btBegin = u'.sendWindow.btEnd then 0
    else if (u.ackLast : Int) = (u'.sendWindow.btBegin : Int) - 1 then add32 u.ackSameCount 1
    else 0

theorem procPacket_answered {fuel : Nat} {clock : Nat → Rat} {btBufferId nLen : Nat}
    {refPacket : UDPPacketHeader} (hbegin : u.sendWindow.btBegin < 256)
    (hack : refPacket.cAck < 256)
    (hproc : procPacket fuel clock btBufferId nLen refPacket u = some u') :
    Answered u u' refPacket.cAck := by
  obtain ⟨hlt, hend, hstays⟩ := procAck_begin clock hack hbegin
  obtain ⟨hcount, hlast⟩ := procAck_count clock refPacket.cAck u
  simp only [procPacket] at hproc
  generalize hslot : takeSlot _ _ _ _ = slot at hproc
  obtain ⟨bPacketReceived, w⟩ := slot
  have hrecorded : Answered u (recordAck
      { (procAck clock refPacket.cAck u).countSameAck with recvWindow := w }) refPacket.cAck := by
    refine ⟨hlt, hend, hstays, rfl, ?_⟩
    rw [← hcount, ← hlast]
    rfl
  simp only at hproc
  split_ifs at hproc
  · obtain ⟨s, w', b, n, rfl⟩ := updateRecvWindow_same hproc
    exact ⟨hrecorded.begin_lt, hrecorded.btEnd, hrecorded.stays, hrecorded.ackLast,
      hrecorded.count⟩
  · obtain rfl := Option.some.inj hproc
    exact hrecorded

/-- A call that gets to no packet of the peer leaves the send window and the count alone. -/
theorem onRecv_answered {fuel : Nat} {clock : Nat → Rat} {ret : RecvRet} (sched : List Nat)
    (hbegin : u.sendWindow.btBegin < 256) (hrecv : onRecv fuel clock ret u = some u') :
    (packetOf u (.onRecv fuel clock ret sched) = none ∧ SameAcks u u') ∨
      ∃ refPacket, packetOf u (.onRecv fuel clock ret sched) = some refPacket ∧
        Answered u u' refPacket.cAck := by
  have hearly : ∀ (s : Sock) (w : SlidingWindow),
      SameAcks u { u with sock := s, recvWindow := w } := fun s w => ⟨rfl, rfl, Or.inl rfl⟩
  rw [onRecv] at hrecv
  by_cases hconn : u.sock.isConnected = false
  · rw [if_pos hconn] at hrecv
    obtain rfl := Option.some.inj hrecv
    refine Or.inl ⟨?_, sendRule_acks.refl u⟩
    cases ret with
    | error errno => rfl
    | data bytes => exact if_neg fun hc => by simp [hconn] at hc
  rw [if_neg hconn] at hrecv
  simp only at hrecv
  by_cases hfull : u.recvWindow.allocate.1 ≥ windowSize
  · rw [if_pos hfull] at hrecv
    obtain rfl := Option.some.inj hrecv
    refine Or.inl ⟨?_, hearly _ _⟩
    cases ret with
    | error errno => rfl
    | data bytes => exact if_neg fun hc => absurd hc.2.1 (not_lt.mpr hfull)
  rw [if_neg hfull] at hrecv
  cases ret with
  | error errno =>
    simp only at hrecv
    refine Or.inl ⟨rfl, ?_⟩
    split_ifs at hrecv
    all_goals
      obtain rfl := Option.some.inj hrecv
      exact hearly _ _
  | data bytes =>
    simp only at hrecv
    have hfree : u.recvWindow.freeBufferId < windowSize := not_le.mp hfull
    -- a datagram of less than a header is refused before any field of it is read
    rcases bytes with _ | ⟨cStatus, _ | ⟨cSyn, _ | ⟨cAck, xs⟩⟩⟩
    iterate 3
      obtain rfl := Option.some.inj hrecv
      exact Or.inl ⟨if_neg fun hc => absurd hc.2.2.1 (by simp [UDPPacketHeader.headSize]),
        hearly _ _⟩
    have htake : (cStatus :: cSyn :: cAck :: xs).take bufferSize =
        cStatus :: cSyn :: cAck :: xs.take 509 := rfl
    obtain ⟨hheader, -⟩ := fill_packet u.recvWindow.allocate.2 u.recvWindow.freeBufferId
      cStatus cSyn cAck (xs.take 509)
    rw [htake, if_neg (by simp), if_neg (by simp [UDPPacketHeader.headSize]),
      show u.recvWindow.allocate.1 = u.recvWindow.freeBufferId from rfl, hheader] at hrecv
    by_cases hstatus : cStatus.toNat = ESocketState.establish.code
    · rw [if_neg (not_not.mpr hstatus)] at hrecv
      refine Or.inr ⟨⟨cStatus.toNat, cSyn.toNat, cAck.toNat⟩, if_pos ?_, ?_⟩
      · exact ⟨by simpa using hconn, hfree, by simp [UDPPacketHeader.headSize], hstatus⟩
      · have hanswered := procPacket_answered (u := { u with
          sock := u.sock.clearIfEmpty procRecv
          recvWindow := (u.recvWindow.allocate.2).fill u.recvWindow.freeBufferId
            (cStatus :: cSyn :: cAck :: xs.take 509) }) hbegin (UInt8.toNat_lt _) hrecv
        exact ⟨hanswered.begin_lt, hanswered.btEnd, hanswered.stays, hanswered.ackLast,
          hanswered.count⟩
    · rw [if_pos hstatus] at hrecv
      obtain rfl := Option.some.inj hrecv
      exact Or.inl ⟨if_neg fun hc => hstatus hc.2.2.2, hearly _ _⟩

/-! ### Steps -/

/-- Between two packets the count goes on or ends. -/
theorem step_answered (hbegin : u.sendWindow.btBegin < 256) {op : Op}
    (hstep : step u op = some u') :
    (packetOf u op = none ∧ SameAcks u u') ∨
      ∃ refPacket, packetOf u op = some refPacket ∧ Answered u u' refPacket.cAck := by
  cases op with
  | onRecv fuel clock ret sched =>
    rcases onRecv_answered (u := { u with sock := { u.sock with sched := sched } }) sched hbegin
      hstep with ⟨hnone, hsame⟩ | ⟨refPacket, hsome, hanswered⟩
    · exact Or.inl ⟨hnone, hsame.btBegin, hsame.ackLast, hsame.count⟩
    · exact Or.inr ⟨refPacket, hsome, hanswered.begin_lt, hanswered.btEnd, hanswered.stays,
        hanswered.ackLast, hanswered.count⟩
  | update dTime answers =>
    obtain rfl := Option.some.inj hstep
    exact Or.inl ⟨rfl, update_acks dTime answers u⟩
  | push pTemData =>
    obtain rfl := Option.some.inj hstep
    refine Or.inl ⟨rfl, ?_⟩
    simp only [pushFrame]
    split_ifs <;> exact ⟨rfl, rfl, Or.inl rfl⟩
  | main =>
    obtain rfl := Option.some.inj hstep
    exact Or.inl ⟨rfl, rfl, rfl, Or.inl rfl⟩
  | delayClose =>
    obtain rfl := Option.some.inj hstep
    exact Or.inl ⟨rfl, rfl, rfl, Or.inl rfl⟩

/-- The comparison of `OnRecv`, after a last call that left its record. -/
theorem Recorded.same_iff (h : Recorded u) {btBegin : Nat} (hlt : btBegin < 256) :
    (u.ackLast : Int) = (btBegin : Int) - 1 ↔ btBegin = u.sendWindow.btBegin ∧ btBegin ≠ 0 := by
  have hbegin := h.begin_lt
  rw [h.ackLast, pred]
  omega

theorem countsSameAck_iff (h : Recorded u) {op : Op} (hstep : step u op = some u') :
    CountsSameAck u op ↔ Comparable u op := by
  rcases step_answered h.begin_lt hstep with ⟨hnone, -⟩ | ⟨refPacket, hsome, hanswered⟩
  · simp [CountsSameAck, Comparable, hnone]
  · have hcount := hanswered.count
    have hend := hanswered.btEnd
    have hpos := h.count
    have hleft : CountsSameAck u op ↔ u'.ackSameCount =
        if u'.sendWindow.btBegin = u.sendWindow.btBegin ∧
          u'.sendWindow.btBegin ≠ u'.sendWindow.btEnd then u.ackSameCount + 1 else 0 := by
      simp [CountsSameAck, hsome, hstep]
    have hright : Comparable u op ↔ (u'.sendWindow.btBegin = u.sendWindow.btBegin →
        u.sendWindow.btBegin ≠ u.sendWindow.btEnd →
          u.sendWindow.btBegin ≠ 0 ∧ u.ackSameCount < 2147483647) := by
      simp [Comparable, hsome, hanswered.stays]
    have hwrap : add32 u.ackSameCount 1 = u.ackSameCount + 1 ↔ u.ackSameCount < 2147483647 := by
      refine ⟨fun heq => ?_, fun hlt => add32_of_fits ⟨by omega, by omega⟩⟩
      have hfits := fits_wrap32 (u.ackSameCount + 1)
      rw [show wrap32 (u.ackSameCount + 1) = u.ackSameCount + 1 from heq] at hfits
      exact Int.lt_of_add_lt_add_right hfits.2
    rw [if_congr (h.same_iff hanswered.begin_lt) rfl rfl] at hcount
    rw [hleft, hright, hcount, hend]
    by_cases hstay : u'.sendWindow.btBegin = u.sendWindow.btBegin
    · rw [hstay]
      by_cases hempty : u.sendWindow.btBegin = u.sendWindow.btEnd
      · simp [hempty]
      · by_cases hzero : u.sendWindow.btBegin = 0
        · -- the count ends where it should go on
          rw [if_neg hempty, if_neg (fun hc => hc.2 hzero), if_pos ⟨rfl, hempty⟩]
          exact iff_of_false (by omega) fun hc => (hc rfl hempty).1 hzero
        · simp [hempty, hzero, hwrap]
    · simp [hstay]

theorem Recorded.step (h : Recorded u) {op : Op} (hcounts : CountsSameAck u op)
    (hstep : FxUDPConnectSock.step u op = some u') : Recorded u' := by
  rcases step_answered h.begin_lt hstep with ⟨-, hsame⟩ | ⟨refPacket, hsome, hanswered⟩
  · exact h.same hsame
  · refine ⟨hanswered.begin_lt, hanswered.ackLast, ?_⟩
    have hpos := h.count
    rw [hcounts (by simp [hsome]) u' hstep]
    split_ifs
    · omega
    · exact le_rfl

theorem Established.recorded (h : Established u) : Recorded u := by
  have hbegin : u.sendWindow.btBegin = 1 := h.shaken.sends.begins
  have hfields : u.ackLast = pred 1 ∧ u.ackSameCount = 0 := by
    cases h with
    | connect hconnect =>
      simp only [FxUDPConnectSock.connect] at hconnect
      split_ifs at hconnect
      obtain rfl := Option.some.inj hconnect
      exact ⟨congrArg pred hbegin, rfl⟩
    | accept hdatagram haccept =>
      rw [onAccept] at haccept
      split_ifs at haccept
      obtain rfl := Option.some.inj haccept
      exact ⟨rfl, rfl⟩
  refine ⟨?_, ?_, ?_⟩
  · rw [hbegin]
    decide
  · rw [hfields.1, hbegin]
  · rw [hfields.2]

/-! ### Runs -/

/-- Every packet of a run is counted as it should be if and only if none that acknowledges nothing
of a window with packets finds the begin 0 or a counter that is full. -/
theorem same_ack_iff {u₀ : FxUDPConnectSock} {ops : List Op} (h : Established u₀)
    (hrun : Transition.run step u₀ ops = some u) :
    Transition.Always step CountsSameAck u₀ ops ↔ Transition.Always step Comparable u₀ ops :=
  Transition.always_iff_of_run Recorded (fun _ _ _ hs hstep => countsSameAck_iff hs hstep)
    (fun _ _ _ hs hcounts hstep => hs.step hcounts hstep) h.recorded hrun

/-- A packet without data that is not new. -/
def ackOf (cAck : UInt8) : Op := .onRecv 0 (fun _ => 511) (.data [4, 1, cAck]) []

/-- The first packet is acknowledged at the third time. -/
def sameAckOps : List Op := [ackOf 0, ackOf 0, .update 1 fun _ => .count 3, ackOf 1]

theorem same_ack_iff_twice :
    ∃ u₀ u, connected = some u₀ ∧ Transition.run step u₀ sameAckOps = some u ∧
      Transition.Always step CountsSameAck u₀ sameAckOps := by
  obtain ⟨u₀, hconnected⟩ : ∃ u₀, connected = some u₀ :=
    Option.isSome_iff_exists.mp (by decide +kernel)
  have hfacts : connected.all (fun u₀ => (Transition.run step u₀ sameAckOps).isSome ∧
      Transition.Always step Comparable u₀ sameAckOps) = true := by decide +kernel
  rw [hconnected, Option.all_some, decide_eq_true_iff] at hfacts
  obtain ⟨u, hrun⟩ := Option.isSome_iff_exists.mp hfacts.1
  exact ⟨u₀, u, hconnected, hrun, (same_ack_iff (.connect hconnected) hrun).mpr hfacts.2⟩

set_option maxRecDepth 100000 in
/-- Behind 255 packets that have been acknowledged the begin is 0, and the same acknowledgement is
not counted. -/
theorem same_ack_uncounted :
    ∃ u₀ u, Established u₀ ∧ Transition.run step u₀ ((List.range 255).flatMap round) = some u ∧
      ¬ CountsSameAck u (ackOf 255) := by
  obtain ⟨u₀, hconnected⟩ : ∃ u₀, connected = some u₀ :=
    Option.isSome_iff_exists.mp (by decide +kernel)
  have hfacts : connected.all (fun u₀ =>
      (Transition.run step u₀ ((List.range 255).flatMap round)).any fun u =>
        (packetOf u (ackOf 255)).isSome ∧ (step u (ackOf 255)).any fun u' =>
          u'.sendWindow.btBegin = u.sendWindow.btBegin ∧
            u'.sendWindow.btBegin ≠ u'.sendWindow.btEnd ∧ u'.ackSameCount = u.ackSameCount) =
      true := by decide +kernel
  rw [hconnected, Option.all_some, Option.any_eq_true] at hfacts
  obtain ⟨u, hrun, hu⟩ := hfacts
  obtain ⟨hpacket, hstep⟩ := of_decide_eq_true hu
  obtain ⟨u', hstep, hu'⟩ := (Option.any_eq_true _ _).mp hstep
  obtain ⟨hstay, hfilled, hsame⟩ := of_decide_eq_true hu'
  refine ⟨u₀, u, .connect hconnected, hrun, fun hcounts => ?_⟩
  have hcount := hcounts hpacket u' hstep
  rw [if_pos ⟨hstay, hfilled⟩, hsame] at hcount
  omega

end FxUDPConnectSock
