import FxLib.Net.UDPPostSend

/-!
# OnRecv and the two windows

What `OnRecv` makes of a window that `Sends` and one that `Receives`, and which bytes it hands to
the receive ring.
-/

open MachineInt

namespace FxUDPConnectSock

open RecvSock SlidingWindow

variable {u u' : FxUDPConnectSock} {w : SlidingWindow} {data : Nat → List UInt8}
  {first last next b : Nat} {xs : List UInt8}

/-! ### Acknowledgements -/

/-- An acknowledgement that is less than 224 behind is taken for what it is. -/
theorem sends_procAck (h : Sends u.sendWindow data first last) (clock : Nat → Rat) {cAck : Nat}
    (hc : cAck < 256) :
    ∃ first', Sends (procAck clock cAck u).sendWindow data first' last ∧ first ≤ first' ∧
      ∀ ack, ack % 256 = cAck → ack < last → first ≤ ack + 224 → first' = max first (ack + 1) := by
  have hbegins := h.begins
  have hwidth := h.width
  have hle := h.le
  have hcount := h.count
  rw [windowSize] at hwidth
  rw [(procAck_acked clock cAck u).sendWindow]
  by_cases hvalid : span u.sendWindow.btBegin cAck < u.sendWindow.count
  · have hspan : (first + span u.sendWindow.btBegin cAck) % 256 = cAck := by
      rw [span, hbegins]
      omega
    obtain ⟨n, hn⟩ : ∃ n, n = first + span u.sendWindow.btBegin cAck := ⟨_, rfl⟩
    rw [← hn] at hspan
    have hmoves := h.span (show first ≤ n by omega) (by omega)
    rw [hspan] at hmoves
    rw [if_pos (show u.sendWindow.isValidIndex cAck = true from decide_eq_true hvalid), hmoves]
    refine ⟨first + (n + 1 - first), h.releases (by omega), by omega, fun ack hack hlt hge => ?_⟩
    omega
  · rw [if_neg (by simpa [isValidIndex] using hvalid)]
    refine ⟨first, h, le_rfl, fun ack hack hlt hge => ?_⟩
    have hout : ¬ first ≤ ack := by
      intro hin
      refine hvalid ?_
      rw [hcount, span, hbegins]
      omega
    omega

/-! ### Slots -/

/-- A packet goes to its slot, or its buffer is free again. -/
theorem receives_takeSlot (h : Receives w data next last [b]) {cSyn : Nat} (hc : cSyn < 256)
    (hshort : UDPPacketHeader.headSize + xs.length ≤ bufferSize)
    (hbytes : Memory.read (w.ppBuffer b) UDPPacketHeader.headSize xs.length = xs)
    (hdata : ∀ n, next ≤ n → n < next + windowSize → n % 256 = cSyn →
      windowSize ≤ w.seqBufferId (n % windowSize) → n < last ∧ data n = xs) :
    Receives (takeSlot cSyn b (UDPPacketHeader.headSize + xs.length) w).2 data next last [] ∧
      ((takeSlot cSyn b (UDPPacketHeader.headSize + xs.length) w).1 = false →
        (takeSlot cSyn b (UDPPacketHeader.headSize + xs.length) w).2.seqBufferId =
          w.seqBufferId) := by
  have hbegins := h.begins
  rw [takeSlot]
  by_cases htakes : w.isValidIndex cSyn = true ∧ w.seqBufferId (cSyn % windowSize) ≥ windowSize
  · rw [if_pos htakes]
    obtain ⟨hvalid, hempty⟩ := htakes
    have hspan := of_decide_eq_true hvalid
    rw [h.count] at hspan
    obtain ⟨n, hn⟩ : ∃ n, n = next + span w.btBegin cSyn := ⟨_, rfl⟩
    have hmod : n % 256 = cSyn := by
      rw [hn, span, hbegins]
      omega
    have hslot : cSyn % windowSize = n % windowSize := by
      rw [← hmod, windowSize]
      omega
    rw [hslot] at hempty ⊢
    obtain ⟨hlast, hxs⟩ := hdata n (by omega) (by omega) hmod hempty
    refine ⟨h.attach (by omega) (by omega) hempty hlast hxs hshort hbytes, ?_⟩
    intro hc
    cases hc
  · rw [if_neg htakes]
    exact ⟨h.free, fun _ => rfl⟩

/-- The numbers of the unbroken row of packets from `i` on, at most `n` of them. -/
theorem newAck_row (w : SlidingWindow) (n i btNewAck : Nat) :
    ∃ k ≤ n, (∀ j < k, w.seqBufferId ((i + j) % 256 % windowSize) < windowSize) ∧
      (k < n → windowSize ≤ w.seqBufferId ((i + k) % 256 % windowSize)) ∧
      newAck w n (i % 256) btNewAck = if k = 0 then btNewAck else (i + k - 1) % 256 := by
  induction n generalizing i btNewAck with
  | zero =>
    exact ⟨0, le_rfl, fun _ hj => absurd hj (Nat.not_lt_zero _),
      fun hc => absurd hc (lt_irrefl 0), rfl⟩
  | succ n ih =>
    rw [newAck]
    by_cases hempty : w.seqBufferId (i % 256 % windowSize) ≥ windowSize
    · rw [if_pos hempty]
      exact ⟨0, Nat.zero_le _, fun _ hj => absurd hj (Nat.not_lt_zero _), fun _ => hempty, rfl⟩
    · obtain ⟨k, hk, hrow, hend, hnew⟩ := ih (i + 1) (i % 256)
      have hsucc : succ (i % 256) = (i + 1) % 256 := by
        rw [succ]
        omega
      rw [if_neg hempty, hsucc, hnew]
      refine ⟨k + 1, by omega, fun j hj => ?_, fun hlt => ?_, ?_⟩
      · cases j with
        | zero =>
          rw [Nat.add_zero]
          omega
        | succ j =>
          rw [show i + (j + 1) = i + 1 + j by omega]
          exact hrow j (by omega)
      · rw [show i + (k + 1) = i + 1 + k by omega]
        exact hend (by omega)
      · rw [if_neg (Nat.succ_ne_zero k)]
        split_ifs <;> omega

/-- How far the window moves: up to the first empty slot. -/
theorem receives_row (h : Receives w data next last []) :
    ∃ k ≤ windowSize, span w.btBegin (succ (newAck w w.count w.btBegin (pred w.btBegin))) = k ∧
      (∀ j < k, w.seqBufferId ((next + j) % windowSize) < windowSize) ∧
      (k < windowSize → windowSize ≤ w.seqBufferId ((next + k) % windowSize)) := by
  have hmod : ∀ n, n % 256 % windowSize = n % windowSize := fun n => by
    rw [windowSize]
    omega
  obtain ⟨k, hk, hrow, hend, hnew⟩ := newAck_row w w.count next (pred w.btBegin)
  simp only [hmod] at hrow hend
  rw [h.count] at hk hend
  refine ⟨k, hk, ?_, hrow, hend⟩
  rw [h.begins] at hnew ⊢
  rw [hnew]
  rw [windowSize] at hk
  by_cases hzero : k = 0
  · rw [if_pos hzero, pred, succ, span]
    omega
  · rw [if_neg hzero, succ, span]
    omega

/-! ### Delivery -/

/-- An unbroken row stays one behind its first packet. -/
theorem receives_row_shift {k : Nat} (hk : k + 1 ≤ windowSize)
    (h : Receives w data next last [])
    (hrow : ∀ j < k + 1, w.seqBufferId ((next + j) % windowSize) < windowSize) :
    Receives (shift w) data (next + 1) last [] ∧
      (∀ i, i % windowSize ≠ next % windowSize →
        (shift w).seqBufferId (i % windowSize) = w.seqBufferId (i % windowSize)) ∧
      ∀ j < k, (shift w).seqBufferId ((next + 1 + j) % windowSize) < windowSize := by
  have hmod : w.btBegin % windowSize = next % windowSize := by
    rw [h.begins, windowSize]
    omega
  have hother : ∀ i, i % windowSize ≠ next % windowSize →
      (shift w).seqBufferId (i % windowSize) = w.seqBufferId (i % windowSize) := by
    intro i hi
    rw [shift, hmod]
    simp only [Function.update_of_ne hi]
    rfl
  refine ⟨h.shift (hrow 0 (Nat.succ_pos k)), hother, fun j hj => ?_⟩
  rw [hother]
  · rw [show next + 1 + j = next + (j + 1) by omega]
    exact hrow (j + 1) (by omega)
  · rw [windowSize] at *
    omega

/-- What a packet in its slot delivers. -/
theorem receives_payload (h : Receives w data next last [])
    (hfull : w.seqBufferId (next % windowSize) < windowSize) : payload w = data next := by
  have hmod : w.btBegin % windowSize = next % windowSize := by
    rw [h.begins, windowSize]
    omega
  obtain ⟨-, hstored⟩ := h.stored next le_rfl (by rw [windowSize]; omega) hfull
  have hshort := hstored.short
  rw [bufferSize] at hshort
  have hlen : toUInt16 ((w.seqSize (next % windowSize) : Int) - (UDPPacketHeader.headSize : Nat)) =
      (data next).length := by
    rw [hstored.size, toUInt16]
    omega
  rw [payload, hmod]
  simp only [hlen]
  exact hstored.bytes

/-- What no step of the main thread changes is the same behind its turns. -/
theorem yield_same {α : Type} (f : Sock → α)
    (hsched : ∀ (s : Sock) sched, f { s with sched := sched } = f s)
    (hstep : ∀ s : Sock, f (RecvSock.mainStep procRecv s) = f s) (s : Sock) :
    f (s.yield procRecv) = f s := by
  rw [RecvSock.yield]
  cases s.sched with
  | nil => rfl
  | cons k sched =>
    have hsteps : ∀ k (t : Sock), f ((RecvSock.mainStep procRecv)^[k] t) = f t := by
      intro k
      induction k with
      | zero => exact fun _ => rfl
      | succ k ih => exact fun t => (ih _).trans (hstep t)
    exact (hsteps k _).trans (hsched s sched)

theorem yield_taken (s : Sock) : (s.yield procRecv).taken = s.taken :=
  yield_same RecvSock.taken (fun _ _ => rfl) (mainStep_taken pops_procRecv) s

theorem yield_state (s : Sock) : (s.yield procRecv).state = s.state :=
  yield_same RecvSock.state (fun _ _ => rfl) mainStep_state s

theorem append_taken {s s' : Sock} {ok : Bool} (happend : append xs s = (ok, s')) :
    (ok = true ∧ s'.taken = s.taken ++ xs) ∨
      (ok = false ∧ s'.state ≠ .establish ∧ ∃ part, part <+: xs ∧ s'.taken = s.taken ++ part) := by
  have hin : ∀ t : Sock, (t.inCursorPtr procRecv).2.taken = t.taken := yield_taken
  have hcost : ∀ (t : Sock) n, (RecvSock.costBuff procRecv t n).taken = t.taken := fun t _ =>
    yield_taken t
  obtain rfl : (append xs s).1 = ok := by rw [happend]
  obtain rfl : (append xs s).2 = s' := by rw [happend]
  simp only [append]
  split_ifs with hempty hfit hsecond
  · rw [List.eq_nil_of_length_eq_zero hempty, List.append_nil]
    exact Or.inl ⟨rfl, rfl⟩
  · exact Or.inl ⟨rfl, by simp only [hcost, hin]⟩
  · refine Or.inr ⟨rfl, fail_state _ _, xs.take (s.inCursorPtr procRecv).1.len.toNat,
      List.take_prefix _ _, ?_⟩
    rw [fail_same]
    simp only [hcost, hin]
  · refine Or.inl ⟨rfl, ?_⟩
    simp only [hcost, hin, List.append_assoc, List.take_append_drop]

/-- The packets of the row are delivered, or the first `k` of them and a part of the next one, and
the socket is closed. -/
inductive Delivered (u u' : FxUDPConnectSock) (data : Nat → List UInt8) (next last n : Nat) :
    Option Bool → Prop
  | all (flag : Bool) (receives : Receives u'.recvWindow data (next + n) last [])
      (others : ∀ i, n ≤ i → i < windowSize →
        u'.recvWindow.seqBufferId ((next + i) % windowSize) =
          u.recvWindow.seqBufferId ((next + i) % windowSize))
      (emptied : ∀ i < n, windowSize ≤ u'.recvWindow.seqBufferId ((next + i) % windowSize))
      (taken : u'.sock.taken = u.sock.taken ++ stream data next n) :
      Delivered u u' data next last n (some flag)
  | part (k : Nat) (xs : List UInt8) (hlt : k < n) (hlast : next + k < last)
      (begins : u'.recvWindow.btBegin = (next + k) % 256) (closed : u'.sock.state ≠ .establish)
      (hpart : xs <+: data (next + k))
      (taken : u'.sock.taken = u.sock.taken ++ stream data next k ++ xs) :
      Delivered u u' data next last n none

theorem deliver_delivered {n : Nat} (hn : n ≤ windowSize)
    (h : Receives u.recvWindow data next last [])
    (hrow : ∀ j < n, u.recvWindow.seqBufferId ((next + j) % windowSize) < windowSize) {flag : Bool}
    {answer : Option Bool} (hdeliver : deliver n flag u = (answer, u')) :
    Delivered u u' data next last n answer ∧ SameSending u u' ∧ u'.sendWindow = u.sendWindow := by
  induction n generalizing u next flag with
  | zero =>
    rw [deliver, Prod.mk.injEq] at hdeliver
    obtain ⟨rfl, rfl⟩ := hdeliver
    exact ⟨.all flag h (fun _ _ _ => rfl) (fun _ hi => absurd hi (Nat.not_lt_zero _))
      (List.append_nil _).symm, ⟨rfl, rfl, rfl⟩, rfl⟩
  | succ n ih =>
    have hpayload := receives_payload h (hrow 0 (Nat.succ_pos n))
    obtain ⟨hlast, -⟩ := h.stored next le_rfl (by rw [windowSize]; omega)
      (hrow 0 (Nat.succ_pos n))
    rw [deliver] at hdeliver
    simp only [hpayload] at hdeliver
    generalize happend : append (data next) u.sock = appended at hdeliver
    obtain ⟨ok, s⟩ := appended
    rcases append_taken happend with ⟨rfl, htaken⟩ | ⟨rfl, hclosed, xs, hpart, htaken⟩
    · obtain ⟨hshift, hother, hrest⟩ := receives_row_shift hn h hrow
      have hfirst : (shift u.recvWindow).seqBufferId (next % windowSize) = windowSize := by
        have hmod : u.recvWindow.btBegin % windowSize = next % windowSize := by
          rw [h.begins, windowSize]
          omega
        rw [shift, hmod]
        exact Function.update_self _ _ _
      simp only at hdeliver
      obtain ⟨hdelivered, hsending, hwindow⟩ :=
        ih (u := { u with sock := s, recvWindow := shift u.recvWindow, sendAck := true })
          (by omega) hshift hrest hdeliver
      refine ⟨?_, ⟨hsending.sendBuf, hsending.pushed, hsending.sent⟩, hwindow⟩
      cases hdelivered with
      | all flag receives others emptied taken =>
        rw [show next + 1 + n = next + (n + 1) by omega] at receives
        refine .all flag receives (fun i hi hlt => ?_) (fun i hi => ?_) ?_
        · have hback := others (i - 1) (by omega) (by omega)
          rw [show next + 1 + (i - 1) = next + i by omega] at hback
          rw [hback, hother]
          rw [windowSize] at *
          omega
        · cases i with
          | zero =>
            -- the slot of the first packet is the last one behind the others
            have hback := others 31 (by rw [windowSize] at hn; omega) (by decide)
            have hmod : (next + 1 + 31) % windowSize = next % windowSize := by
              rw [windowSize]
              omega
            rw [hmod] at hback
            rw [Nat.add_zero, hback, hfirst]
          | succ i =>
            have hback := emptied i (by omega)
            rw [show next + 1 + i = next + (i + 1) by omega] at hback
            exact hback
        · simp only [taken, htaken, stream_succ, List.append_assoc]
      | part k xs hlt hlast begins closed hpart taken =>
        rw [show next + 1 + k = next + (k + 1) by omega] at begins hpart hlast
        refine .part (k + 1) xs (by omega) hlast begins closed hpart ?_
        simp only [taken, htaken, stream_succ, List.append_assoc]
    · simp only [Prod.mk.injEq] at hdeliver
      obtain ⟨rfl, rfl⟩ := hdeliver
      refine ⟨.part 0 xs (Nat.succ_pos n) hlast h.begins hclosed hpart ?_, ⟨rfl, rfl, rfl⟩, rfl⟩
      rw [stream, List.range'_zero, List.map_nil, List.flatten_nil, List.append_nil]
      exact htaken

/-! ### Parsing -/

/-- What the turns of the main thread, the variables of the loop and the announcement of a frame do
not change. -/
structure Lasting (P : Sock → Prop) : Prop where
  yield : ∀ s, P s → P (s.yield procRecv)
  io : ∀ s s' : Sock, P s → s' = { s with
    recvBuf := s'.recvBuf, needData := s'.needData, packetLen := s'.packetLen
    header := s'.header } → P s'
  recv : ∀ s v, P s → P (s.pushNetEvent .recv v)

variable {P : Sock → Prop} {p : Parse BinaryDataHeader}

theorem costUsed_lasts (hP : Lasting P) (h : P p.sock) : P (p.costUsed procRecv).sock :=
  hP.io _ _ (hP.yield p.sock h) rfl

theorem announce_lasts (hP : Lasting P) (h : P p.sock) : P p.announce.sock :=
  hP.io _ _ (hP.recv p.sock p.sock.packetLen h) rfl

theorem completeFrame_lasts (hP : Lasting P) (h : P p.sock) (n : Int) :
    P (p.completeFrame procRecv n).sock := by
  have hcost : P ({ p with nLen := sub32 p.nLen n, nUsedLen := add32 p.nUsedLen n }.costUsed
      procRecv).sock := costUsed_lasts hP h
  exact hP.io _ _ (announce_lasts hP hcost) rfl

theorem enterFrame_lasts (hP : Lasting P) (H : IFxDataHeader BinaryDataHeader) (h : P p.sock) :
    P (p.enterFrame procRecv H).sock := by
  simp only [Parse.enterFrame]
  split_ifs
  · apply announce_lasts hP
    exact costUsed_lasts hP (hP.io _ _ h rfl)
  · exact hP.io _ _ h rfl

/-- The loop goes on or ends, or it fails. -/
def Lasts (P : Sock → Prop) (q : Parse BinaryDataHeader) : Prop :=
  P q.sock ∨ ∃ r v, P r.sock ∧ q = parseFail r v

theorem splitStep_lasts (hP : Lasting P) (H : IFxDataHeader BinaryDataHeader) (h : P p.sock) :
    Lasts P (p.splitStep procRecv H parseFail) := by
  have hcost := costUsed_lasts hP h
  have hidle := hP.io _ { (p.costUsed procRecv).sock with needData := 0 } hcost rfl
  have huse := hP.yield _ hidle
  simp only [Parse.splitStep]
  generalize ({ (p.costUsed procRecv).sock with needData := 0 } : Sock) = s at hidle huse ⊢
  -- the part of the header in front of the end of the ring has been read
  have hpart : ∀ (header : BinaryDataHeader) (n : Int),
      P (({ (s.useLen procRecv).2 with header := header } : Sock).costUsedBuff procRecv n).2 :=
    fun header n => hP.io _ _ (hP.yield _ (hP.io _ _ huse rfl)) rfl
  split_ifs
  · exact Or.inl (hpart _ _)
  · refine Or.inr ⟨_, _, ?_, rfl⟩
    exact hP.yield _ (hpart _ _)
  · refine Or.inr ⟨_, _, ?_, rfl⟩
    exact hP.io _ _ (hP.yield _ (hpart _ _)) rfl
  · apply Or.inl
    apply enterFrame_lasts hP
    exact hP.io _ _ (hP.yield _ (hpart _ _)) rfl
  · exact Or.inl huse
  · exact Or.inl hidle

theorem wholeStep_lasts (hP : Lasting P) (h : P p.sock) : P (p.wholeStep procRecv).sock := by
  rw [Parse.wholeStep]
  split_ifs
  · exact completeFrame_lasts hP h _
  · exact hP.io _ _ h rfl

theorem frameStep_lasts (hP : Lasting P) (h : P p.sock) : Lasts P (frameStep p) := by
  have hread : ∀ (n n' : Nat) (pBuf : Mem),
      P ((p.buildHeader BinaryDataHeader.vtable n).parsePacket BinaryDataHeader.vtable pBuf
        n').sock := fun _ _ _ => hP.io _ _ h rfl
  rw [frameStep, Parse.frameStep]
  by_cases hneed : 0 ≠ p.sock.needData
  · rw [if_pos hneed, Parse.needStep]
    split_ifs
    · exact Or.inl (completeFrame_lasts hP h _)
    · exact Or.inl (hP.io _ _ h rfl)
  · rw [if_neg hneed]
    simp only
    generalize (if toInt32 (BinaryDataHeader.vtable.getHeaderLength p.sock.header) > p.nLen then
      toUInt32 p.nLen else BinaryDataHeader.vtable.getHeaderLength p.sock.header) = n
    split_ifs
    · exact Or.inr ⟨_, _, hread _ _ _, rfl⟩
    · exact splitStep_lasts hP _ (hread _ _ _)
    · exact Or.inl (wholeStep_lasts hP (hread _ _ _))

/-- Behind a loop that has not failed. -/
theorem loop_lasts (hP : Lasting P) (h : P p.sock) {q : Parse BinaryDataHeader} {fuel : Nat}
    (hrun : While.run Parse.Looping frameStep fuel p = some q) : Lasts P q := by
  have hbody : ∀ r, Lasts P r → r.Looping → Lasts P (frameStep r) := by
    rintro r (hr | ⟨t, v, ht, rfl⟩) hloop
    · exact frameStep_lasts hP hr
    · exact absurd hloop.1 (by simp [parseFail, Parse.fail])
  exact (While.run_invariant (Lasts P) hbody (Or.inl h) hrun).1

theorem lasting_taken (xs : List UInt8) : Lasting fun s => s.taken = xs where
  yield := fun s h => (yield_taken s).trans h
  io := fun s s' h hio => by
    rw [hio]
    exact h
  recv := fun _ _ h => h

/-- Parsing does not touch the record. -/
theorem parseMessage_taken {fuel : Nat} {s s' : Sock} (h : parseMessage fuel s = some s') :
    s'.taken = s.taken := by
  have hptr : (s.usedCursorPtr procRecv).2.taken = s.taken := yield_taken s
  simp only [parseMessage] at h
  obtain ⟨p, hrun, rfl⟩ := Option.map_eq_some_iff.mp h
  have htaken : p.sock.taken = s.taken := by
    rcases loop_lasts (lasting_taken s.taken) hptr hrun with hkept | ⟨r, v, hr, rfl⟩
    · exact hkept
    · rw [parseFail, Parse.fail, fail_same]
      exact costUsed_lasts (lasting_taken s.taken) hr
  rw [Parse.finish]
  split_ifs
  · exact htaken
  · exact (yield_taken p.sock).trans htaken
  · exact htaken

theorem clearIfEmpty_state (s : Sock) : (s.clearIfEmpty procRecv).state = s.state := by
  simp only [RecvSock.clearIfEmpty]
  split_ifs
  · exact (yield_state _).trans (yield_state s)
  · exact yield_state s

theorem clearIfEmpty_taken (s : Sock) : (s.clearIfEmpty procRecv).taken = s.taken := by
  simp only [RecvSock.clearIfEmpty]
  split_ifs
  · exact (yield_taken _).trans (yield_taken s)
  · exact yield_taken s

/-! ### OnRecv -/

/-- The window has moved on by `n` packets, whose bytes went to the ring; where the socket is
closed, a part of the next one may have gone there too. -/
inductive Received (u u' : FxUDPConnectSock) (data : Nat → List UInt8) (next last : Nat) : Prop
  | open (n : Nat) (before : ∀ i < n, next + i < last)
      (receives : Receives u'.recvWindow data (next + n) last [])
      (empty : windowSize ≤ u'.recvWindow.seqBufferId ((next + n) % windowSize))
      (taken : u'.sock.taken = u.sock.taken ++ stream data next n)
  | closed (n : Nat) (xs : List UInt8) (before : ∀ i < n, next + i < last) (hn : n ≤ windowSize)
      (begins : u'.recvWindow.btBegin = (next + n) % 256) (closed : u'.sock.state ≠ .establish)
      (hpart : xs = [] ∨ next + n < last ∧ xs <+: data (next + n))
      (taken : u'.sock.taken = u.sock.taken ++ stream data next n ++ xs)

/-- The socket is closed before anything is delivered. -/
theorem received_closed (hbegin : u'.recvWindow.btBegin = next % 256)
    (hclosed : u'.sock.state ≠ .establish) (htaken : u'.sock.taken = u.sock.taken) :
    Received u u' data next last := by
  refine .closed 0 [] (fun _ hi => absurd hi (Nat.not_lt_zero _)) (Nat.zero_le _) hbegin hclosed
    (Or.inl rfl) ?_
  rw [htaken, stream_zero, List.append_nil, List.append_nil]

/-- Nothing is delivered. -/
theorem received_none (h : Receives u'.recvWindow data next last [])
    (hempty : windowSize ≤ u'.recvWindow.seqBufferId (next % windowSize))
    (htaken : u'.sock.taken = u.sock.taken) : Received u u' data next last :=
  .open 0 (fun _ hi => absurd hi (Nat.not_lt_zero _)) h hempty
    (by rw [htaken, stream_zero, List.append_nil])

/-- What happens before a packet is looked at hands nothing to the ring. -/
theorem Received.of_taken {v : FxUDPConnectSock} (h : Received v u' data next last)
    (htaken : v.sock.taken = u.sock.taken) : Received u u' data next last := by
  cases h with
  | «open» n before receives empty taken => exact .open n before receives empty (htaken ▸ taken)
  | closed n xs before hn begins closed hpart taken =>
    exact .closed n xs before hn begins closed hpart (htaken ▸ taken)

theorem updateRecvWindow_received {fuel : Nat} (h : Receives u.recvWindow data next last [])
    (hupdate : updateRecvWindow fuel u = some u') :
    Received u u' data next last ∧ SameSending u u' ∧ u'.sendWindow = u.sendWindow := by
  obtain ⟨n, hn, hspan, hrow, hend⟩ := receives_row h
  have hbefore : ∀ i < n, next + i < last := fun i hi =>
    (h.stored (next + i) (Nat.le_add_right _ _) (by omega) (hrow i hi)).1
  simp only [updateRecvWindow, hspan] at hupdate
  generalize hdeliver : deliver n false u = delivered at hupdate
  obtain ⟨answer, v⟩ := delivered
  obtain ⟨hdelivered, hsame, hwindow⟩ := deliver_delivered hn h hrow hdeliver
  cases hdelivered with
  | all flag receives others emptied taken =>
    have hempty : windowSize ≤ v.recvWindow.seqBufferId ((next + n) % windowSize) := by
      rcases Nat.lt_or_eq_of_le hn with hlt | rfl
      · rw [others n le_rfl hlt]
        exact hend hlt
      · have hfirst := emptied 0 (by decide)
        rw [Nat.add_zero] at hfirst
        rw [Nat.add_mod_right]
        exact hfirst
    cases flag with
    | true =>
      obtain ⟨s, hparse, rfl⟩ := Option.map_eq_some_iff.mp hupdate
      have htaken := parseMessage_taken hparse
      exact ⟨.open n hbefore receives hempty (htaken.trans taken),
        ⟨hsame.sendBuf, hsame.pushed, hsame.sent⟩, hwindow⟩
    | false =>
      obtain rfl := Option.some.inj hupdate
      exact ⟨.open n hbefore receives hempty taken,
        ⟨hsame.sendBuf, hsame.pushed, hsame.sent⟩, hwindow⟩
  | part k xs hlt hlast begins closed hpart taken =>
    obtain rfl := Option.some.inj hupdate
    exact ⟨.closed k xs (fun i hi => hbefore i (by omega)) (by omega) begins closed
      (Or.inr ⟨hlast, hpart⟩) taken, hsame, hwindow⟩

/-- What the packet may do to the send window: less than its acknowledgement says, never more. -/
structure Acknowledges (u u' : FxUDPConnectSock) (data : Nat → List UInt8) (first last cAck : Nat) :
    Prop where
  sends : ∃ first', Sends u'.sendWindow data first' last ∧ first ≤ first' ∧
    ∀ ack, ack % 256 = cAck → ack < last → first ≤ ack + 224 → first' ≤ max first (ack + 1)
  same : SameSending u u'

theorem acknowledges_none {cAck : Nat} (h : Sends u.sendWindow data first last)
    (hwindow : u'.sendWindow = u.sendWindow) (hsame : SameSending u u') :
    Acknowledges u u' data first last cAck :=
  ⟨⟨first, hwindow ▸ h, le_rfl, fun _ _ _ _ => le_max_left _ _⟩, hsame⟩

variable {sdata : Nat → List UInt8} {slast : Nat}

theorem procPacket_received {fuel : Nat} {clock : Nat → Rat} {refPacket : UDPPacketHeader}
    (hsends : Sends u.sendWindow sdata first slast) (h : Receives u.recvWindow data next last [b])
    (hempty : windowSize ≤ u.recvWindow.seqBufferId (next % windowSize))
    (hsyn : refPacket.cSyn < 256) (hack : refPacket.cAck < 256)
    (hshort : UDPPacketHeader.headSize + xs.length ≤ bufferSize)
    (hbytes : Memory.read (u.recvWindow.ppBuffer b) UDPPacketHeader.headSize xs.length = xs)
    (hdata : ∀ n, next ≤ n → n < next + windowSize → n % 256 = refPacket.cSyn →
      windowSize ≤ u.recvWindow.seqBufferId (n % windowSize) → n < last ∧ data n = xs)
    (hproc : procPacket fuel clock b (UDPPacketHeader.headSize + xs.length) refPacket u = some u') :
    Received u u' data next last ∧ Acknowledges u u' sdata first slast refPacket.cAck := by
  obtain ⟨first', hsends', hle, hbound⟩ := sends_procAck hsends clock hack
  have hacked := procAck_acked clock refPacket.cAck u
  have hreceiving := hacked.receiving
  obtain ⟨htakes, hrefused⟩ := receives_takeSlot h hsyn hshort hbytes hdata
  simp only [procPacket] at hproc
  generalize procAck clock refPacket.cAck u = v at hsends' hacked hreceiving hproc
  rw [show v.countSameAck.recvWindow = u.recvWindow from hreceiving.recvWindow] at hproc
  generalize takeSlot refPacket.cSyn b (UDPPacketHeader.headSize + xs.length) u.recvWindow = taken
    at htakes hrefused hproc
  obtain ⟨bPacketReceived, w⟩ := taken
  obtain ⟨t, ht, hsock, hrecvWindow, hsendWindow, hsending⟩ : ∃ t : FxUDPConnectSock,
      { v.countSameAck with recvWindow := w }.recordAck = t ∧ t.sock = v.sock ∧ t.recvWindow = w ∧
        t.sendWindow = v.sendWindow ∧ SameSending v t :=
    ⟨{ v.countSameAck with recvWindow := w }.recordAck, rfl, rfl, rfl, rfl, rfl, rfl, rfl⟩
  simp only [ht] at hproc htakes hrefused
  have htaken : t.sock.taken = u.sock.taken := congrArg RecvSock.taken (hsock.trans hreceiving.sock)
  have hacks : ∀ u'', SameSending t u'' → u''.sendWindow = t.sendWindow →
      Acknowledges u u'' sdata first slast refPacket.cAck := by
    intro u'' hsame hwindow
    refine ⟨⟨first', ?_, hle, fun ack hmod hlt hge => (hbound ack hmod hlt hge).le⟩,
      (hacked.sending.trans hsending).trans hsame⟩
    rw [hwindow, hsendWindow]
    exact hsends'
  rw [← hrecvWindow] at htakes hrefused
  cases bPacketReceived with
  | true =>
    rw [if_pos rfl] at hproc
    obtain ⟨hreceived, hsame, hwindow⟩ := updateRecvWindow_received htakes hproc
    exact ⟨hreceived.of_taken htaken, hacks u' hsame hwindow⟩
  | false =>
    rw [if_neg (by simp)] at hproc
    obtain rfl := Option.some.inj hproc
    refine ⟨received_none htakes ?_ htaken, hacks t ⟨rfl, rfl, rfl⟩ rfl⟩
    rw [hrefused rfl]
    exact hempty

/-- A packet in its buffer. -/
theorem fill_packet (w : SlidingWindow) (b : Nat) (cStatus cSyn cAck : UInt8) (xs : List UInt8) :
    UDPPacketHeader.ofBuffer ((w.fill b (cStatus :: cSyn :: cAck :: xs)).ppBuffer b) =
        ⟨cStatus.toNat, cSyn.toNat, cAck.toNat⟩ ∧
      Memory.read ((w.fill b (cStatus :: cSyn :: cAck :: xs)).ppBuffer b) UDPPacketHeader.headSize
        xs.length = xs := by
  have hbuffer : (w.fill b (cStatus :: cSyn :: cAck :: xs)).ppBuffer b =
      Memory.write (w.ppBuffer b) 0 ([cStatus, cSyn, cAck] ++ xs) := Function.update_self _ _ _
  rw [hbuffer]
  refine ⟨?_, read_behind_header _ rfl xs⟩
  simp [UDPPacketHeader.ofBuffer, Memory.write]

/-- A packet that the kernel hands over. -/
theorem onRecv_received {fuel : Nat} {clock : Nat → Rat} {bytes : List UInt8}
    (hsends : Sends u.sendWindow sdata first slast) (h : Receives u.recvWindow data next last [])
    (hempty : windowSize ≤ u.recvWindow.seqBufferId (next % windowSize))
    (hdata : ∀ cStatus cSyn cAck xs, bytes.take bufferSize = cStatus :: cSyn :: cAck :: xs →
      ∀ n, next ≤ n → n < next + windowSize → n % 256 = cSyn.toNat →
        windowSize ≤ u.recvWindow.seqBufferId (n % windowSize) → n < last ∧ data n = xs)
    (hrecv : onRecv fuel clock (.data bytes) u = some u') :
    Received u u' data next last ∧
      Acknowledges u u' sdata first slast ((bytes.take bufferSize).getD 2 0).toNat := by
  have hfree := h.free_of_empty (Nat.mod_lt next (by decide)) hempty
  have hclear := clearIfEmpty_taken u.sock
  rw [onRecv] at hrecv
  by_cases hconn : u.sock.isConnected = false
  · rw [if_pos hconn] at hrecv
    obtain rfl := Option.some.inj hrecv
    exact ⟨received_none h hempty rfl, acknowledges_none hsends rfl ⟨rfl, rfl, rfl⟩⟩
  · rw [if_neg hconn] at hrecv
    simp only at hrecv
    rw [if_neg (show ¬ u.recvWindow.allocate.1 ≥ windowSize from not_le.mpr hfree)] at hrecv
    have hle : (bytes.take bufferSize).length ≤ bufferSize := List.length_take_le _ _
    generalize bytes.take bufferSize = bytes' at hdata hrecv hle ⊢
    have hcut : ∀ v n cAck, v.sock = (u.sock.clearIfEmpty procRecv).fail n →
        v.recvWindow.btBegin = u.recvWindow.btBegin → v.sendWindow = u.sendWindow →
        SameSending u v →
          Received u v data next last ∧ Acknowledges u v sdata first slast cAck := by
      intro v n cAck hsock hbegin hwindow hsame
      refine ⟨received_closed (hbegin.trans h.begins) ?_ ?_, acknowledges_none hsends hwindow hsame⟩
      · rw [hsock]
        exact fail_state _ _
      · rw [hsock, fail_same]
        exact hclear
    match bytes' with
    | [] =>
      obtain rfl := Option.some.inj hrecv
      exact hcut _ _ _ rfl rfl rfl ⟨rfl, rfl, rfl⟩
    | [_] | [_, _] =>
      obtain rfl := Option.some.inj hrecv
      exact hcut _ _ _ rfl rfl rfl ⟨rfl, rfl, rfl⟩
    | cStatus :: cSyn :: cAck :: xs =>
      obtain ⟨hheader, hpayload⟩ := fill_packet u.recvWindow.allocate.2 u.recvWindow.freeBufferId
        cStatus cSyn cAck xs
      have hlen : (cStatus :: cSyn :: cAck :: xs).length =
          UDPPacketHeader.headSize + xs.length := by
        simp only [List.length_cons, UDPPacketHeader.headSize]
        omega
      rw [if_neg (by simp), if_neg (by simp [UDPPacketHeader.headSize])] at hrecv
      rw [show u.recvWindow.allocate.1 = u.recvWindow.freeBufferId from rfl, hheader] at hrecv
      split_ifs at hrecv
      · obtain rfl := Option.some.inj hrecv
        exact hcut _ _ _ rfl rfl rfl ⟨rfl, rfl, rfl⟩
      · rw [hlen] at hle hrecv
        obtain ⟨hreceived, hacks⟩ := procPacket_received
          (u := { u with
            sock := u.sock.clearIfEmpty procRecv
            recvWindow := (u.recvWindow.allocate.2).fill u.recvWindow.freeBufferId
              (cStatus :: cSyn :: cAck :: xs) })
          (b := u.recvWindow.freeBufferId) hsends (h.allocate hfree).fill hempty
          cSyn.toNat_lt cAck.toNat_lt hle hpayload
          (hdata cStatus cSyn cAck xs rfl) hrecv
        exact ⟨hreceived.of_taken hclear, hacks.sends,
          ⟨hacks.same.sendBuf, hacks.same.pushed, hacks.same.sent⟩⟩

end FxUDPConnectSock
