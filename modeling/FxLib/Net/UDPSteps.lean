import FxLib.Net.OnRecv
import FxLib.Net.UDPHandShake

/-!
# What the steps of the UDP socket leave alone

The windows, the two rings and the socket itself are changed by different parts of a step. Here
stands which part leaves what as it is, and that a socket once closed stays so.
-/

open MachineInt

namespace FxUDPConnectSock

open RecvSock SlidingWindow

/-! ### The main thread -/

theorem pops_procRecv (s : Sock) (c : FxConnection) (n : Nat) : Pops s (procRecv s c n) n := by
  rw [procRecv]
  by_cases hid : s.sockId ≠ c.id
  · rw [if_pos hid]
    exact Pops.refl s n
  · rw [if_neg hid]
    by_cases hsize : s.getRecvSize c < n
    · rw [if_pos hsize]
      exact ⟨rfl, (lens_pushNetEvent s (by simp) _).1, (lens_pushNetEvent s (by simp) _).2,
        Or.inl ⟨rfl, rfl⟩⟩
    · rw [if_neg hsize]
      rcases popToSession_cases s n with hpop | ⟨bytes, recvBuf, hpop, hto⟩
      · rw [hpop, if_neg (by simp)]
        exact Pops.refl s n
      · rw [hto, if_pos rfl, connectionOnRecv_same]
        exact pops_popped s hpop _ _ _

theorem procRecv_state (s : Sock) (c : FxConnection) (n : Nat) :
    (procRecv s c n).state = s.state := by
  rw [procRecv]
  by_cases hid : s.sockId ≠ c.id
  · rw [if_pos hid]
  · rw [if_neg hid]
    by_cases hsize : s.getRecvSize c < n
    · rw [if_pos hsize]
      rfl
    · rw [if_neg hsize]
      rcases popToSession_cases s n with hpop | ⟨bytes, recvBuf, hpop, hto⟩
      · rw [hpop, if_neg (by simp)]
      · rw [hto, if_pos rfl, connectionOnRecv_same]
        rfl

theorem mainStep_state (s : Sock) : (RecvSock.mainStep procRecv s).state = s.state := by
  rw [RecvSock.mainStep]
  cases s.events with
  | nil => rfl
  | cons e events =>
    obtain ⟨eType, dwValue⟩ := e
    cases eType with
    | recv =>
      simp only [procEvent]
      split
      · rfl
      · exact procRecv_state _ _ _
    | establish =>
      simp only [procEvent, procEstablish]
      split
      · rfl
      · split_ifs <;> rfl
    | associate =>
      simp only [procEvent, procAssociate]
      split
      · rfl
      · split_ifs <;> rfl
    | terminate | connErr | error | recvPackageError | release => rfl

/-! ### Sending -/

/-- What sending has no part in. -/
structure SameReceiving (u u' : FxUDPConnectSock) : Prop where
  sock : u'.sock = u.sock
  recvWindow : u'.recvWindow = u.recvWindow
  pushed : u'.pushed = u.pushed

theorem SameReceiving.trans {u u' u'' : FxUDPConnectSock} (h : SameReceiving u u')
    (h' : SameReceiving u' u'') : SameReceiving u u'' :=
  ⟨h'.sock.trans h.sock, h'.recvWindow.trans h.recvWindow, h'.pushed.trans h.pushed⟩

/-- A relation that holds across every part of `PostSend` but the congestion control: they leave the
begin of the send window where it is. -/
structure SendRule (R : FxUDPConnectSock → FxUDPConnectSock → Prop) : Prop where
  refl : ∀ u, R u u
  trans : ∀ {u u' u''}, R u u' → R u' u'' → R u u''
  part : ∀ u u', u' = { u with
      sendBuf := u'.sendBuf, sendWindow := u'.sendWindow, sendTime := u'.sendTime
      sendDataTime := u'.sendDataTime, ackRecvTime := u'.ackRecvTime
      ackTimeoutRetry := u'.ackTimeoutRetry, sendAck := u'.sendAck, sent := u'.sent } →
    u'.sendWindow.btBegin = u.sendWindow.btBegin → R u u'

namespace SendRule

variable {R : FxUDPConnectSock → FxUDPConnectSock → Prop}

theorem fillWindow (hR : SendRule R) (dTime : Rat) (n : Nat) (data : List UInt8)
    (u : FxUDPConnectSock) : R u (fillWindow dTime n data u).2 := by
  induction n generalizing data u with
  | zero => exact hR.refl u
  | succ n ih =>
    rw [FxUDPConnectSock.fillWindow]
    split_ifs
    · exact hR.refl u
    · exact hR.trans (hR.part u (putPacket dTime _ u) rfl rfl) (ih _ _)
    · exact hR.refl u

theorem putPackets (hR : SendRule R) (dTime : Rat) (u : FxUDPConnectSock) :
    R u (putPackets dTime u) := by
  have hfill : ∀ data, R u (FxUDPConnectSock.fillWindow dTime data.length data u).2 :=
    fun data => hR.fillWindow dTime data.length data u
  simp only [FxUDPConnectSock.putPackets]
  split_ifs <;> exact hR.trans (hfill _) (hR.part _ _ rfl rfl)

theorem kernelSend (hR : SendRule R) {answer : SendRet} {packet : List UInt8}
    {u u' : FxUDPConnectSock} {sent : Sent} (h : kernelSend answer packet u = (sent, u')) :
    R u u' := by
  obtain rfl : (FxUDPConnectSock.kernelSend answer packet u).2 = u' := by rw [h]
  cases answer with
  | eagain | error => exact hR.refl u
  | count nRet =>
    simp only [FxUDPConnectSock.kernelSend]
    split_ifs
    · exact hR.refl u
    · exact hR.part _ _ rfl rfl

theorem sendPacket (hR : SendRule R) (dTime : Rat) (answer : SendRet) (i : Nat)
    (u : FxUDPConnectSock) : R u (sendPacket dTime answer i u).2 := by
  have hheader : ∀ b bytes, R u { u with sendWindow := u.sendWindow.fill b bytes } :=
    fun _ _ => hR.part _ _ rfl rfl
  simp only [FxUDPConnectSock.sendPacket]
  split
  all_goals
    rename_i hsend
    have hkernel := hR.trans (hheader _ _) (hR.kernelSend hsend)
    exact hR.trans hkernel (hR.part _ _ rfl rfl)

theorem sendWindowPackets (hR : SendRule R) (dTime : Rat) (answers : Nat → SendRet) (n i : Nat)
    (bForceRetry : Bool) (u : FxUDPConnectSock) :
    R u (sendWindowPackets dTime answers n i bForceRetry u).2 := by
  induction n generalizing i bForceRetry u with
  | zero => exact hR.refl u
  | succ n ih =>
    have hsend := hR.sendPacket dTime (answers (n + 1)) i u
    rw [FxUDPConnectSock.sendWindowPackets]
    split_ifs
    · exact hR.refl u
    · split <;> rename_i heq <;> rw [heq] at hsend
      · exact hsend
      · exact hR.trans hsend (ih _ _ _)
    · exact ih _ _ _

theorem sendAckPacket (hR : SendRule R) (dTime : Rat) (answer : SendRet) (u : FxUDPConnectSock) :
    R u (sendAckPacket dTime answer u).2 := by
  rw [FxUDPConnectSock.sendAckPacket]
  split_ifs
  · simp only
    split
    all_goals
      rename_i hsend
      exact hR.trans (hR.kernelSend hsend) (hR.part _ _ rfl rfl)
  · exact hR.refl u

/-- With the congestion control, all of it. -/
theorem postSend (hR : SendRule R) (hadjust : ∀ u, R u (adjustControl u).2)
    (hslow : ∀ dTime u, R u (slowStart dTime u)) (dTime : Rat) (answers : Nat → SendRet)
    (u : FxUDPConnectSock) : R u (postSend dTime answers u).2 := by
  simp only [FxUDPConnectSock.postSend]
  generalize hlate : (if dTime - u.ackRecvTime > 5 then _ else u) = t
  have ht : R u t := by
    rw [← hlate]
    split_ifs
    · exact hR.part _ _ rfl rfl
    · exact hR.refl u
  split_ifs
  · exact ht
  · exact ht
  · have hput := hR.trans (hR.trans (hR.trans ht (hadjust t)) (hslow dTime _))
      (hR.putPackets dTime _)
    generalize FxUDPConnectSock.putPackets dTime
      (FxUDPConnectSock.slowStart dTime (adjustControl t).2) = v at hput ⊢
    have hsend := hR.trans hput (hR.sendWindowPackets dTime answers v.sendWindow.count
      v.sendWindow.btBegin (adjustControl t).1 v)
    split <;> rename_i heq <;> rw [heq] at hsend
    · exact hsend
    · exact hR.trans hsend (hR.sendAckPacket _ _ _)

end SendRule

theorem sendRule_receiving : SendRule SameReceiving where
  refl _ := ⟨rfl, rfl, rfl⟩
  trans := SameReceiving.trans
  part u u' h _ := by
    rw [h]
    exact ⟨rfl, rfl, rfl⟩

theorem adjustControl_keeps (u : FxUDPConnectSock) : SameReceiving u (adjustControl u).2 := by
  simp only [adjustControl]
  split_ifs <;> exact ⟨rfl, rfl, rfl⟩

theorem slowStart_keeps (dTime : Rat) (u : FxUDPConnectSock) :
    SameReceiving u (slowStart dTime u) := by
  rw [slowStart]
  split_ifs <;> exact ⟨rfl, rfl, rfl⟩

theorem update_cases (dTime : Rat) (answers : Nat → SendRet) (u : FxUDPConnectSock) :
    SameReceiving u (update dTime answers u) ∨
      (update dTime answers u).sock = u.sock.fail u.sock.errno ∧
        (update dTime answers u).recvWindow = u.recvWindow ∧
        (update dTime answers u).pushed = u.pushed := by
  have hkeeps := sendRule_receiving.postSend adjustControl_keeps slowStart_keeps dTime answers u
  rw [update]
  by_cases hconn : u.sock.isConnected = false
  · rw [if_pos hconn]
    exact Or.inl ⟨rfl, rfl, rfl⟩
  · rw [if_neg hconn]
    generalize postSend dTime answers u = sent at hkeeps ⊢
    obtain ⟨ok, t⟩ := sent
    cases ok with
    | true => exact Or.inl hkeeps
    | false => exact Or.inr ⟨by rw [← hkeeps.sock]; rfl, hkeeps.recvWindow, hkeeps.pushed⟩

theorem pushFrame_sock (pTemData : List UInt8) (u : FxUDPConnectSock) :
    (pushFrame pTemData u).sock = u.sock := by
  simp only [pushFrame]
  split_ifs <;> rfl

theorem pushFrame_sent (pTemData : List UInt8) (u : FxUDPConnectSock) :
    (pushFrame pTemData u).sent = u.sent := by
  simp only [pushFrame]
  split_ifs <;> rfl

theorem pushFrame_windows (pTemData : List UInt8) (u : FxUDPConnectSock) :
    (pushFrame pTemData u).sendWindow = u.sendWindow ∧
      (pushFrame pTemData u).recvWindow = u.recvWindow := by
  simp only [pushFrame]
  split_ifs <;> exact ⟨rfl, rfl⟩

/-- A socket that is not connected stays so. -/
theorem closed_step {u u' : FxUDPConnectSock} {op : Op} (h : u.sock.state ≠ .establish)
    (hstep : step u op = some u') : u'.sock.state ≠ .establish := by
  have hconn : u.sock.isConnected = false := by simp [isConnected, h]
  cases op with
  | onRecv fuel clock ret sched =>
    have hsame : step u (.onRecv fuel clock ret sched) =
        some { u with sock := { u.sock with sched := sched } } := if_pos hconn
    obtain rfl := Option.some.inj (hsame.symm.trans hstep)
    exact h
  | update dTime answers =>
    have hsame : update dTime answers u = u := if_pos hconn
    obtain rfl := Option.some.inj hstep
    rw [hsame]
    exact h
  | push pTemData =>
    obtain rfl := Option.some.inj hstep
    rw [pushFrame_sock]
    exact h
  | main =>
    obtain rfl := Option.some.inj hstep
    exact (mainStep_state u.sock).symm ▸ h
  | delayClose =>
    obtain rfl := Option.some.inj hstep
    simp only
    split_ifs
    · exact close_state _
    · exact h

/-! ### Receiving -/

/-- What receiving has no part in. -/
structure SameSending (u u' : FxUDPConnectSock) : Prop where
  sendBuf : u'.sendBuf = u.sendBuf
  pushed : u'.pushed = u.pushed
  sent : u'.sent = u.sent

theorem SameSending.trans {u u' u'' : FxUDPConnectSock} (h : SameSending u u')
    (h' : SameSending u' u'') : SameSending u u'' :=
  ⟨h'.sendBuf.trans h.sendBuf, h'.pushed.trans h.pushed, h'.sent.trans h.sent⟩

/-- Delivery is a matter of the socket and the receive window. -/
theorem deliver_same (n : Nat) (flag : Bool) (u : FxUDPConnectSock) :
    ∃ s w b, (deliver n flag u).2 = { u with sock := s, recvWindow := w, sendAck := b } := by
  induction n generalizing flag u with
  | zero => exact ⟨u.sock, u.recvWindow, u.sendAck, rfl⟩
  | succ n ih =>
    simp only [deliver]
    split
    · rename_i s happend
      exact ⟨s, u.recvWindow, u.sendAck, rfl⟩
    · rename_i s happend
      obtain ⟨s', w, b, hrest⟩ := ih (flag || (payload u.recvWindow).length ≠ 0)
        { u with sock := s, recvWindow := shift u.recvWindow, sendAck := true }
      exact ⟨s', w, b, hrest⟩

theorem updateRecvWindow_same {fuel : Nat} {u u' : FxUDPConnectSock}
    (h : updateRecvWindow fuel u = some u') :
    ∃ s w b n, u' = { u with sock := s, recvWindow := w, sendAck := b, synLast := n } := by
  simp only [updateRecvWindow] at h
  obtain ⟨s, w, b, hdeliver⟩ := deliver_same (span u.recvWindow.btBegin (succ (newAck u.recvWindow
    u.recvWindow.count u.recvWindow.btBegin (pred u.recvWindow.btBegin)))) false u
  split at h <;> rename_i heq <;> rw [heq] at hdeliver
  · obtain rfl := Option.some.inj h
    exact ⟨s, w, b, u.synLast, hdeliver⟩
  · simp only at hdeliver
    split_ifs at h
    · obtain ⟨s', -, rfl⟩ := Option.map_eq_some_iff.mp h
      exact ⟨s', w, b, _, by rw [hdeliver]⟩
    · obtain rfl := Option.some.inj h
      exact ⟨s, w, b, _, by rw [hdeliver]⟩

/-- An acknowledgement only moves the send window. -/
structure Acked (u u' : FxUDPConnectSock) (n : Nat) : Prop where
  sending : SameSending u u'
  receiving : SameReceiving u u'
  sendWindow : u'.sendWindow = releases n u.sendWindow

theorem ackPackets_acked (clock : Nat → Rat) (dSendWindowControlMax : Rat) (n : Nat)
    (u : FxUDPConnectSock) : Acked u (ackPackets clock dSendWindowControlMax n u) n := by
  induction n generalizing u with
  | zero => exact ⟨⟨rfl, rfl, rfl⟩, ⟨rfl, rfl, rfl⟩, rfl⟩
  | succ n ih =>
    have hone : Acked u (ackPacket (clock n) dSendWindowControlMax u) 1 := by
      rw [ackPacket]
      split_ifs <;> exact ⟨⟨rfl, rfl, rfl⟩, ⟨rfl, rfl, rfl⟩, rfl⟩
    have hrest := ih (ackPacket (clock n) dSendWindowControlMax u)
    refine ⟨hone.sending.trans hrest.sending, hone.receiving.trans hrest.receiving, ?_⟩
    rw [ackPackets, hrest.sendWindow, hone.sendWindow]
    rfl

theorem procAck_acked (clock : Nat → Rat) (cAck : Nat) (u : FxUDPConnectSock) :
    Acked u (procAck clock cAck u) (if u.sendWindow.isValidIndex cAck then
      span u.sendWindow.btBegin (succ cAck) else 0) := by
  by_cases hvalid : u.sendWindow.isValidIndex cAck = true
  · rw [procAck, if_pos hvalid, if_pos hvalid]
    have hacked := ackPackets_acked clock
      (if u.sendWindowControl * 2 > windowSize then windowSize else u.sendWindowControl * 2)
      (span u.sendWindow.btBegin (succ cAck))
      { u with
        ackRecvTime := clock (span u.sendWindow.btBegin (succ cAck)), ackTimeoutRetry := 3 }
    exact ⟨⟨hacked.sending.sendBuf, hacked.sending.pushed, hacked.sending.sent⟩,
      ⟨hacked.receiving.sock, hacked.receiving.recvWindow, hacked.receiving.pushed⟩,
      hacked.sendWindow⟩
  · rw [procAck, if_neg hvalid, if_neg hvalid]
    exact ⟨⟨rfl, rfl, rfl⟩, ⟨rfl, rfl, rfl⟩, rfl⟩

end FxUDPConnectSock
