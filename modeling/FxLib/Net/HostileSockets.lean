import FxLib.Net.HostileStream
import FxLib.Net.UDPFraming
import FxLib.Net.WebSocketFraming

/-!
# The three receive loops on a hostile stream

The WebSocket loop reads lengths of 64 bits and puts a header together once more when its frame
announces 0. The UDP loop marks the rest of its region before it reports an error, and its region
may end where the ring ends. As long as the headers are sized all three are bounded.
-/

open MachineInt

/-! ### WebSocket -/

namespace FxWebSocketConnect

open RecvSock Parse WebSocketDataHeader

variable {p : Parse WebSocketDataHeader} {m done rest : List UInt8} {part n k : Nat}

/-- A frame in one piece is refused when it announces -1, and when it announces 0: its header is
then put together once more, from the whole region and the head of the ring, and the second copy
may only be empty where the first has filled the buffer. -/
def webSocketRule : HeaderRule where
  headerLen := lengthOf
  pkgLen := pkgLength
  Refuses := fun n w =>
    if lengthOf w ≤ n then
      pkgLength w = -1 ∨ (pkgLength w = 0 ∧ (n ≤ bufferSize ∨ w.length = n))
    else pkgLength w ≤ 0

instance (n : Nat) (w : List UInt8) : Decidable (webSocketRule.Refuses n w) :=
  inferInstanceAs (Decidable (if lengthOf w ≤ n then _ else _))

theorem pkgLength_lt (frame : List UInt8) : pkgLength frame < 2147483648 := by
  rw [pkgLength, toInt32]
  exact (fits_wrap32 _).2

theorem side : MainSide procRecv fun _ => True := takenSide handsOver_handOver.pops fun _ => True

theorem advances_waits {q : Parse WebSocketDataHeader} {m' : List UInt8}
    (h : Scan (fun _ => True) q m' [] rest 0 0) (hexit : q.exit = .broke)
    (hcopies : q.sock.header.InBuffer) (hweight : p.weight = rest.length + 1) :
    Advances webSocketRule WebSocketDataHeader.InBuffer p q := by
  have hdigests : Digests webSocketRule WebSocketDataHeader.InBuffer q m' [] rest 0 0
      rest.length := by
    refine ⟨h, ?_, hcopies, ?_, le_rfl⟩
    · rw [hexit]
      intro hc
      cases hc
    · rw [Nat.zero_sub]
      exact sized_zero _ _ _
  refine ⟨.going _ _ _ _ _ _ hdigests, ?_⟩
  rw [hdigests.weight_eq, hweight, if_neg]
  · omega
  · intro hc
    cases hexit.symm.trans hc.1

theorem advances (h : Digests webSocketRule WebSocketDataHeader.InBuffer p m done rest part n k)
    (hloop : p.Looping) : Advances webSocketRule WebSocketDataHeader.InBuffer p (frameStep p) := by
  by_cases hneed : p.sock.needData = 0
  · obtain ⟨hused, rfl⟩ := (h.scan.frame h.exit).idle hneed
    obtain rfl := List.eq_nil_of_length_eq_zero hused
    have hlen := h.scan.len
    have hfits := h.scan.fits
    have hpos : 0 < n := by
      have := hloop.2
      omega
    have henough := h.enough
    have hweight : p.weight = rest.length + 1 := by rw [h.weight_eq, if_pos hloop]
    have hless := pkgLength_lt rest
    have hsized := h.sized
    rw [hneed] at hsized
    simp only [Int.toNat_zero, Nat.sub_zero, List.drop_zero] at hsized
    -- the fuel of `Sized` is enough for this frame
    obtain ⟨k, rfl⟩ : ∃ j, k = j + 1 := ⟨k - 1, by omega⟩
    have hidle := h.scan.idle side hloop.1 hneed hpos
    generalize frameStep p = q at hidle ⊢
    cases hidle with
    | waits m' hle hlt scan exit needData cursor record inBuffer =>
      exact advances_waits scan exit (inBuffer h.copies) hweight
    | whole p' hle scan packetLen needData exit record inBuffer eq =>
      have hcopies := inBuffer h.copies
      have hloop' : p'.Looping := ⟨exit, by rw [scan.len]; omega⟩
      have hweight' : p'.weight = p.weight := by
        rw [hweight, weight, if_neg (by rw [exit]; intro hc; cases hc), scan.unread_eq,
          if_pos hloop']
      rcases hsized with hzero | hshort | hrefused | ⟨hplus, -, hnext⟩ | ⟨-, hlt, -⟩
      · omega
      · have : rest.length < lengthOf rest := hshort
        omega
      · simp only [webSocketRule, if_pos hle] at hrefused
        rcases hrefused with hminus | ⟨hzero, hinside⟩
        · rw [if_pos (by omega)] at eq
          rw [eq]
          exact (failed_fail scan.holds _).advances hcopies (by omega)
        · rw [if_neg (by omega), if_pos (by omega)] at eq
          have hsplit := scan.resplit side exit needData hpos
          rw [← eq] at hsplit
          cases hsplit with
          | waits m' hle' scan' exit' same =>
            refine advances_waits scan' exit' ?_ hweight
            rw [same.header]
            exact hcopies
          | refused m' r hge hshort => omega
          | joined m' r hge hle' rejoin packetLen' headerLength record' inBuffer' eq' =>
            rw [if_pos (by omega)] at eq'
            rw [eq']
            exact (failed_fail rejoin.holds _).advances (inBuffer' hcopies hinside) (by omega)
      · simp only [webSocketRule] at hplus hnext
        rw [if_neg (by omega), if_neg (by omega)] at eq
        have hmoved := scan.wholeStep side (by omega) (by omega) fun _ _ _ _ _ => trivial
        rw [← eq, packetLen] at hmoved
        have hadvances := hmoved.advances scan hloop' hplus exit hcopies hnext (by omega)
        rwa [Advances, hweight'] at hadvances
      · exact absurd hle (Nat.not_le.mpr hlt)
    | refused m' r hge hshort rejoin inBuffer eq =>
      rw [eq]
      exact (failed_fail rejoin.holds _).advances (inBuffer h.copies) (by omega)
    | joined m' r hlt hle split packetLen headerLength record inBuffer eq =>
      have hcopies := inBuffer h.copies
      rcases hsized with hzero | hshort | hrefused | ⟨-, hge, -⟩ | ⟨hge, -, hnext⟩
      · omega
      · have : rest.length < lengthOf rest := hshort
        omega
      · simp only [webSocketRule, if_neg (Nat.not_le.mpr hlt)] at hrefused
        rw [if_pos (by omega)] at eq
        rw [eq]
        exact (failed_fail split.holds _).advances hcopies (by omega)
      · exact absurd hlt (Nat.not_lt.mpr hge)
      · simp only [webSocketRule] at hge hnext
        have htwo := headerLen_ge (rest.getD 1 0)
        rw [← lengthOf] at htwo
        rw [if_neg (by omega)] at eq
        rw [eq]
        refine split.advances vtable side headerLength hlt hle (by omega) (by omega) hcopies ?_
          henough hpos hweight
        rw [packetLen]
        exact hnext
  · rw [frameStep, if_pos (Ne.symm hneed)]
    exact h.needStep side hloop hneed

theorem parses : Parses webSocketRule WebSocketDataHeader.InBuffer procRecv frameStep where
  pops := handsOver_handOver.pops
  closed := handsOver_handOver.closed
  advances := fun _ _ _ _ _ _ _ h hloop => advances h hloop

end FxWebSocketConnect

/-! ### UDP -/

namespace FxUDPConnectSock

open RecvSock Parse BinaryDataHeader SlidingWindow

theorem side : MainSide procRecv fun _ => True := takenSide pops_procRecv fun _ => True

/-- `CostUsedBuff` marks what it is told of or refuses. -/
theorem costUsed_holds {s : Sock} {m w : List UInt8} {part : Nat}
    (h : Holds (fun _ => True) s m w part) {n : Int} (hn : 0 ≤ n) (hle : n ≤ 1073741824) :
    (RecvSock.costUsedBuff procRecv s n).2.header = s.header ∧
      ∃ m' w' part', Holds (fun _ => True) (RecvSock.costUsedBuff procRecv s n).2 m' w' part' := by
  by_cases hmarks : 0 < n ∧ n ≤ w.length
  · obtain ⟨m', s', hcost, hholds, hsame, -⟩ :=
      h.costUsedBuff side (n := n.toNat) (by omega) (by omega)
    rw [Int.toNat_of_nonneg hn] at hcost
    rw [hcost]
    exact ⟨hsame.header, _, _, _, hholds⟩
  · obtain ⟨m', s', hcost, hholds, hio⟩ :=
      h.costUsedBuff_refused side (n := n) (by omega) (by omega) hle
    rw [hcost]
    exact ⟨hio.header, _, _, _, hholds⟩

theorem fails_parseFail : Fails parseFail := by
  intro p dwValue m w part h hused hnonneg hle
  have hsum : add32 p.nUsedLen p.nLen = p.nLen := by
    rw [hused, add32_of_fits ⟨by omega, by omega⟩, zero_add]
  obtain ⟨hheader, m', w', part', hholds⟩ := costUsed_holds h hnonneg hle
  simp only [parseFail, costUsed, Parse.fail, hsum]
  exact ⟨rfl, fail_state _ _, (fail_header _ _).trans hheader, m', w', part', hholds.fail _⟩

theorem advances {p : Parse BinaryDataHeader} {m done rest : List UInt8} {part n k : Nat}
    (h : Digests binaryRule BinaryDataHeader.InBuffer p m done rest part n k) (hloop : p.Looping) :
    Advances binaryRule BinaryDataHeader.InBuffer p (frameStep p) :=
  h.frameStep fails_parseFail side hloop

/-! ### A call -/

/-- The socket that `UpdateRecvWindow` parses. -/
def updateParses (u : FxUDPConnectSock) : Option Sock :=
  let w := u.recvWindow
  let btNewAck := newAck w w.count w.btBegin (pred w.btBegin)
  match deliver (span w.btBegin (succ btNewAck)) false u with
  | (some true, u) => some u.sock
  | (some false, _) => none
  | (none, _) => none

def procParses (clock : Nat → Rat) (btBufferId nLen : Nat) (refPacket : UDPPacketHeader)
    (u : FxUDPConnectSock) : Option Sock :=
  let u := (procAck clock refPacket.cAck u).countSameAck
  let (bPacketReceived, w) := takeSlot refPacket.cSyn btBufferId nLen u.recvWindow
  let u := { u with recvWindow := w }.recordAck
  if bPacketReceived then updateParses u else none

/-- The socket that a call of `OnRecv` parses once it has delivered what it received. -/
def parsesSock (clock : Nat → Rat) (ret : RecvRet) (u : FxUDPConnectSock) : Option Sock :=
  if u.sock.isConnected = false then none
  else
    let u := { u with sock := u.sock.clearIfEmpty procRecv }
    let (btBufferId, w) := u.recvWindow.allocate
    let u := { u with recvWindow := w }
    if btBufferId ≥ windowSize then none
    else
      match ret with
      | .error _ => none
      | .data bytes =>
        let bytes := bytes.take bufferSize
        if bytes.length < UDPPacketHeader.headSize then none
        else
          let w := u.recvWindow.fill btBufferId bytes
          let u := { u with recvWindow := w }
          let refPacket := UDPPacketHeader.ofBuffer (w.ppBuffer btBufferId)
          if refPacket.cStatus ≠ ESocketState.establish.code then none
          else procParses clock btBufferId bytes.length refPacket u

/-- The loop that a call of `OnRecv` enters. -/
def loopStart (clock : Nat → Rat) (ret : RecvRet) (u : FxUDPConnectSock) :
    Option (Parse BinaryDataHeader) :=
  (parsesSock clock ret u).map fun s =>
    let (region, s) := s.usedCursorPtr procRecv
    Parse.start region s

variable {u : FxUDPConnectSock} {s : Sock} {m w xs : List UInt8} {part : Nat} {clock : Nat → Rat}
  {ret : RecvRet}

/-- What a call comes to: it returns at once, or it parses the old unmarked bytes `w` and the new
ones `xs`. `t` is the socket behind `Clear`. -/
inductive Comes (t : Sock) (w xs : List UInt8) (part : Nat)
    (call : Nat → Option FxUDPConnectSock) (parsed : Option Sock) : Prop
  | returns (u' : FxUDPConnectSock) (eq : ∀ fuel, call fuel = some u') (none : parsed = none)
      (resting : Resting BinaryDataHeader.InBuffer u'.sock)
  | parses (s : Sock) (u₁ : FxUDPConnectSock) (m : List UInt8) (hne : xs ≠ [])
      (eq : ∀ fuel, call fuel = (parseMessage fuel s).map fun s => { u₁ with sock := s })
      (some : parsed = some s) (holds : Holds (fun _ => True) s m (w ++ xs) part)
      (grown : Grown t s xs)

theorem comes_updateRecvWindow (h : Ready (fun _ => True) u.sock m w part)
    (hcopies : u.sock.header.InBuffer)
    (hxs : xs = payloads (span u.recvWindow.btBegin (succ (newAck u.recvWindow u.recvWindow.count
      u.recvWindow.btBegin (pred u.recvWindow.btBegin)))) u.recvWindow) :
    Comes u.sock w xs part (fun fuel => updateRecvWindow fuel u) (updateParses u) := by
  simp only [updateRecvWindow, updateParses]
  generalize span u.recvWindow.btBegin _ = n at hxs
  rcases deliver_cases n false u (P := fun _ => True) h.holds (fun _ _ => trivial) with
    ⟨m₁, u₁, hdeliver, hholds, hgrown⟩ | ⟨u₁, hdeliver, hstate, -⟩
  · rw [← hxs] at hdeliver hholds hgrown
    simp only [hdeliver, Bool.false_or]
    by_cases hne : xs = []
    · subst hne
      rw [List.append_nil] at hholds
      have hframe : SameFrame u.sock u₁.sock := by
        have hsame := hgrown.frame
        rw [List.append_nil] at hsame
        exact hsame
      refine .returns _ (fun fuel => if_neg (by simp)) (by simp) (Or.inr ⟨?_, _, _, _,
        h.sameFrame hholds hframe⟩)
      rw [show ({ u₁ with synLast := pred u₁.recvWindow.btBegin } : FxUDPConnectSock).sock.header =
        u.sock.header from hframe.header]
      exact hcopies
    · refine .parses u₁.sock { u₁ with synLast := pred u₁.recvWindow.btBegin } m₁ hne
        (fun fuel => ?_) (by simp [hne]) hholds hgrown
      rw [if_pos (by simpa using hne)]
  · simp only [hdeliver]
    exact .returns u₁ (fun _ => rfl) rfl (Or.inl hstate)

/-- A packet of the established peer. -/
theorem comes_procPacket {btBufferId nLen : Nat} {refPacket : UDPPacketHeader}
    (h : Ready (fun _ => True) u.sock m w part) (hcopies : u.sock.header.InBuffer)
    (hxs : xs = if (takeSlot refPacket.cSyn btBufferId nLen u.recvWindow).1 then
      let w := (takeSlot refPacket.cSyn btBufferId nLen u.recvWindow).2
      payloads (span w.btBegin (succ (newAck w w.count w.btBegin (pred w.btBegin)))) w else []) :
    Comes u.sock w xs part (fun fuel => procPacket fuel clock btBufferId nLen refPacket u)
      (procParses clock btBufferId nLen refPacket u) := by
  obtain ⟨hsock, hwindow, -⟩ := (procAck_acked clock refPacket.cAck u).receiving
  simp only [FxUDPConnectSock.procPacket, procParses]
  generalize procAck clock refPacket.cAck u = u₁ at hsock hwindow
  have hwindow' : u₁.countSameAck.recvWindow = u.recvWindow := hwindow
  rw [hwindow']
  generalize takeSlot refPacket.cSyn btBufferId nLen u.recvWindow = slot at hxs
  obtain ⟨bPacketReceived, w'⟩ := slot
  simp only at hxs ⊢
  generalize hu₂ : recordAck { u₁.countSameAck with recvWindow := w' } = u₂
  have hsock₂ : u₂.sock = u.sock := by rw [← hu₂, ← hsock]; rfl
  have hwindow₂ : u₂.recvWindow = w' := by rw [← hu₂]; rfl
  rw [← hsock₂] at h hcopies ⊢
  cases bPacketReceived with
  | false =>
    exact .returns u₂ (fun _ => if_neg (by simp)) (if_neg (by simp))
      (Or.inr ⟨hcopies, m, w, part, h⟩)
  | true =>
    rw [if_pos rfl] at hxs
    simp only [if_true]
    rw [← hwindow₂] at hxs
    exact comes_updateRecvWindow h hcopies hxs

theorem comes_onRecv (h : Ready (fun _ => True) u.sock m w part)
    (hcopies : u.sock.header.InBuffer) (hconn : u.sock.isConnected = true) :
    Comes (RecvSock.clearIfEmpty procRecv u.sock) w (arrived ret u) part
      (fun fuel => onRecv fuel clock ret u) (parsesSock clock ret u) := by
  obtain ⟨m₁, h₁, hsame, -⟩ := h.holds.clearIfEmpty side
  have hready := h.sameFrame h₁ hsame
  have hcopies₁ : (RecvSock.clearIfEmpty procRecv u.sock).header.InBuffer := by
    rw [hsame.header]
    exact hcopies
  have hnot : ¬ u.sock.isConnected = false := by simp [hconn]
  simp only [FxUDPConnectSock.onRecv, parsesSock, arrived, if_neg hnot]
  generalize RecvSock.clearIfEmpty procRecv u.sock = s₁ at *
  generalize u.recvWindow.allocate = slot
  obtain ⟨btBufferId, w₁⟩ := slot
  simp only
  by_cases hfull : btBufferId ≥ windowSize
  · simp only [if_pos hfull]
    exact .returns _ (fun _ => rfl) rfl (Or.inl (fail_state _ _))
  simp only [if_neg hfull]
  cases ret with
  | error errno =>
    simp only
    by_cases htransient : (RecvRet.error errno).Transient
    · simp only [if_pos htransient]
      refine .returns _ (fun _ => rfl) rfl (Or.inr ⟨hcopies₁, m₁, w, part, ?_⟩)
      exact hready.sameFrame (h₁.io side rfl rfl) ⟨rfl, rfl, rfl, rfl, rfl⟩
    · simp only [if_neg htransient]
      exact .returns _ (fun _ => rfl) rfl (Or.inl (fail_state _ _))
  | data bytes =>
    simp only
    generalize bytes.take bufferSize = packet
    by_cases hshort : packet.length < UDPPacketHeader.headSize
    · simp only [if_pos hshort]
      by_cases hempty : packet.length = 0
      · exact .returns _ (fun _ => if_pos hempty) rfl (Or.inl (fail_state _ _))
      · exact .returns _ (fun _ => if_neg hempty) rfl (Or.inl (fail_state _ _))
    have hempty : ¬ packet.length = 0 := fun hzero => hshort (by rw [hzero]; decide)
    simp only [if_neg hshort, if_neg hempty, if_neg (not_or.mpr ⟨hfull, hshort⟩)]
    generalize UDPPacketHeader.ofBuffer _ = refPacket
    by_cases hstatus : refPacket.cStatus ≠ ESocketState.establish.code
    · simp only [if_pos hstatus]
      exact .returns _ (fun _ => rfl) rfl (Or.inl (fail_state _ _))
    simp only [if_neg hstatus]
    refine comes_procPacket (u := { u with
      sock := s₁, recvWindow := w₁.fill btBufferId packet }) hready hcopies₁ ?_
    simp only [not_not.mp hstatus, true_and]

/-- The frames that a call parses are sized. What is delivered may pass the end of the ring, which
ends the region. -/
def SizedPacket (u : FxUDPConnectSock) : Op → Prop
  | .onRecv _ _ ret sched =>
    let t := RecvSock.clearIfEmpty procRecv { u.sock with sched := sched }
    let w := t.unparsed ++ arrived ret u
    u.sock.isConnected = true →
      Sized binaryRule w.length
        (min w.length (t.recvBuf.totalLen - t.recvBuf.useCursor).toNat - u.sock.needData.toNat)
        (w.drop u.sock.needData.toNat)
  | .update _ _ | .push _ | .main | .delayClose => True

instance (u : FxUDPConnectSock) : (op : Op) → Decidable (SizedPacket u op)
  | .onRecv _ _ _ _ => inferInstanceAs (Decidable (_ → _))
  | .update _ _ => inferInstanceAs (Decidable True)
  | .push _ => inferInstanceAs (Decidable True)
  | .main => inferInstanceAs (Decidable True)
  | .delayClose => inferInstanceAs (Decidable True)

/-- The loop over what has been delivered. -/
theorem digests_start {t : Sock} (hframe : Frame t 0 part) (hcopies : t.header.InBuffer)
    (h : Holds (fun _ => True) s m (w ++ xs) part) (hgrown : Grown t s xs) (hne : xs ≠ [])
    (hsized : Sized binaryRule (w ++ xs).length
      (min (w ++ xs).length (t.recvBuf.totalLen - t.recvBuf.useCursor).toNat - t.needData.toNat)
      ((w ++ xs).drop t.needData.toNat)) :
    ∃ m' n region s', s.usedCursorPtr procRecv = (region, s') ∧
      Digests binaryRule BinaryDataHeader.InBuffer (Parse.start region s') m' [] (w ++ xs) part n
        (w ++ xs).length := by
  have hsame := hgrown.frame
  have hready : Ready (fun _ => True) s m (w ++ xs) part := by
    refine ⟨h, fun hneed => hframe.idle (hsame.needData.symm.trans hneed), ?_⟩
    rw [hsame.needData, hsame.packetLen]
    exact hframe.progress
  obtain ⟨m₂, s₂, ptr, n, hptr, hpos, hscan, hcut, hio⟩ := hready.start side (by simp [hne])
  have hfits := hscan.fits
  have hinside := hscan.inside hpos
  have huse : s₂.recvBuf.useCursor = t.recvBuf.useCursor := hio.useCursor.trans hgrown.useCursor
  have htotal : s₂.recvBuf.totalLen = t.recvBuf.totalLen := hio.totalLen.trans hgrown.totalLen
  have hregion : n = min (w ++ xs).length (t.recvBuf.totalLen - t.recvBuf.useCursor).toNat := by
    rw [hgrown.useCursor, hgrown.totalLen] at hcut
    simp only [Parse.start, List.length_nil] at hinside
    by_cases hlt : n < (w ++ xs).length
    · have hend := hcut hlt
      omega
    · omega
  refine ⟨m₂, n, _, s₂, hptr, hscan, ?_, ?_, ?_, le_rfl⟩
  · intro hc
    cases hc
  · rw [show (Parse.start ⟨ptr, n⟩ s₂).sock.header = t.header from
      hio.header.trans hsame.header]
    exact hcopies
  · rw [show (Parse.start ⟨ptr, n⟩ s₂).sock.needData = t.needData from
      hio.needData.trans hsame.needData]
    rw [← hregion] at hsized
    exact hsized

/-- A call returns, and its loop is bounded. -/
theorem ready_call (h : Ready (fun _ => True) u.sock m w part) (hcopies : u.sock.header.InBuffer)
    {sched : List Nat} {fuel : Nat} (hsized : SizedPacket u (.onRecv fuel clock ret sched))
    (hfuel : 1073741825 < fuel) :
    (∃ u', step u (.onRecv fuel clock ret sched) = some u' ∧
        Resting BinaryDataHeader.InBuffer u'.sock) ∧
      ∀ p ∈ loopStart clock ret { u with sock := { u.sock with sched := sched } },
        Bounded BinaryDataHeader.InBuffer frameStep p := by
  have hready : Ready (fun _ => True) { u.sock with sched := sched } m w part :=
    ⟨h.holds.idle pops_procRecv sched, h.frame.idle, h.frame.progress⟩
  simp only [step, loopStart]
  by_cases hconn : u.sock.isConnected = true
  · obtain ⟨m₁, h₁, hsame, -⟩ := hready.holds.clearIfEmpty side
    have hsized := hsized hconn
    rw [h₁.unparsed_eq] at hsized
    have hneed : (RecvSock.clearIfEmpty procRecv { u.sock with sched := sched }).needData =
        u.sock.needData := hsame.needData
    have hcopies₁ : (RecvSock.clearIfEmpty procRecv { u.sock with sched := sched }).header.InBuffer
        := by
      rw [hsame.header]
      exact hcopies
    have hframe := (hready.sameFrame h₁ hsame).frame
    have hcomes : Comes _ _ (arrived ret { u with sock := { u.sock with sched := sched } }) _ _
        (parsesSock clock ret { u with sock := { u.sock with sched := sched } }) :=
      comes_onRecv hready hcopies hconn
    have harrived : arrived ret { u with sock := { u.sock with sched := sched } } =
        arrived ret u := rfl
    rw [harrived] at hcomes
    rw [← hneed] at hsized
    cases hcomes with
    | returns u' eq none resting =>
      rw [none]
      exact ⟨⟨u', eq fuel, resting⟩, fun p hp => by cases hp⟩
    | parses s u₁ m' hne eq some holds grown =>
      obtain ⟨m₂, n, region, s', hptr, hdigests⟩ :=
        digests_start hframe hcopies₁ holds grown hne hsized
      have hbound := hdigests.scan.bounded
      simp only [List.length_nil] at hbound
      have hweight : (Parse.start region s').weight < fuel := by
        rw [hdigests.weight_eq]
        split <;> omega
      have hkept : InHand binaryRule BinaryDataHeader.InBuffer (Parse.start region s') :=
        .going _ _ _ _ _ _ hdigests
      obtain ⟨⟨q, hrun, hkept⟩, hbounded⟩ :=
        hkept.run (fun _ _ _ _ _ _ _ h hloop => advances h hloop) hweight
      rw [some, Option.map_some, hptr]
      refine ⟨⟨{ u₁ with sock := q.finish procRecv }, ?_, resting_finish hkept side⟩, ?_⟩
      · rw [eq fuel]
        simp only [parseMessage, hptr, hrun, Option.map_some]
      · intro p hp
        obtain rfl := Option.some.inj hp
        exact hbounded
  · have hdown : u.sock.isConnected = false := by simpa using hconn
    refine ⟨⟨_, if_pos hdown, Or.inl ?_⟩, fun p hp => ?_⟩
    · simpa [isConnected] using hdown
    · rw [show parsesSock clock ret { u with sock := { u.sock with sched := sched } } = none from
        if_pos hdown] at hp
      cases hp

theorem resting_step {u' : FxUDPConnectSock} {op : Op}
    (h : Resting BinaryDataHeader.InBuffer u.sock) (hsized : SizedPacket u op)
    (hstep : step u op = some u') : Resting BinaryDataHeader.InBuffer u'.sock := by
  rcases h with hclosed | ⟨hcopies, m, w, part, h⟩
  · exact Or.inl (closed_step hclosed hstep)
  cases op with
  | onRecv fuel clock ret sched =>
    have hsized' : SizedPacket u (.onRecv (max fuel 1073741826) clock ret sched) := hsized
    obtain ⟨⟨t, ht, hresting⟩, -⟩ := ready_call h hcopies hsized' (by omega)
    have hmono := onRecv_mono (Nat.le_max_left fuel 1073741826) hstep
    obtain rfl := Option.some.inj (ht.symm.trans hmono)
    exact hresting
  | update dTime answers =>
    obtain rfl := Option.some.inj hstep
    rcases update_cases dTime answers u with hsame | ⟨hfail, -, -⟩
    · rw [hsame.sock]
      exact Or.inr ⟨hcopies, m, w, part, h⟩
    · rw [hfail]
      exact Or.inl (fail_state _ _)
  | push pTemData =>
    obtain rfl := Option.some.inj hstep
    rw [pushFrame_sock]
    exact Or.inr ⟨hcopies, m, w, part, h⟩
  | main =>
    obtain rfl := Option.some.inj hstep
    obtain ⟨m', hholds, hio, -⟩ := h.holds.mainStep side
    refine Or.inr ⟨?_, m', w, part, h.sameFrame hholds hio.frame⟩
    rw [hio.header]
    exact hcopies
  | delayClose =>
    obtain rfl := Option.some.inj hstep
    simp only
    split_ifs
    · exact Or.inl (close_state _)
    · exact Or.inr ⟨hcopies, m, w, part, h⟩

/-- In a run whose calls are sized every further call that is sized returns, and its loop is
bounded. -/
theorem run_bounded {u₀ : FxUDPConnectSock} {ops : List Op} (hblank : Blank u₀.sock)
    (hcopies : u₀.sock.header.InBuffer) (hops : Transition.Always step SizedPacket u₀ ops)
    (hrun : Transition.run step u₀ ops = some u) {sched : List Nat}
    (hsized : SizedPacket u (.onRecv 0 clock ret sched)) :
    (∃ fuel, (step u (.onRecv fuel clock ret sched)).isSome) ∧
      ∀ p ∈ loopStart clock ret { u with sock := { u.sock with sched := sched } },
        Bounded BinaryDataHeader.InBuffer frameStep p := by
  have hstep : ∀ u op u', Resting BinaryDataHeader.InBuffer (sock u) → SizedPacket u op →
      step u op = some u' → Resting BinaryDataHeader.InBuffer (sock u') :=
    fun _ _ _ h hop hs' => resting_step h hop hs'
  have hresting := Transition.invariant_of_always hstep
    (Or.inr ⟨hcopies, [], [], 0, hblank.ready⟩) hops hrun
  rcases hresting with hclosed | ⟨hcopies, m, w, part, h⟩
  · have hdown : u.sock.isConnected = false := by simpa [isConnected] using hclosed
    refine ⟨⟨0, ?_⟩, fun p hp => ?_⟩
    · rw [show step u (.onRecv 0 clock ret sched) =
        some { u with sock := { u.sock with sched := sched } } from if_pos hdown]
      rfl
    · rw [loopStart, show parsesSock clock ret { u with sock := { u.sock with sched := sched } } =
        none from if_pos hdown] at hp
      cases hp
  · have hsized' : SizedPacket u (.onRecv 1073741826 clock ret sched) := hsized
    obtain ⟨⟨u', hu', -⟩, hbounded⟩ := ready_call h hcopies hsized' (by omega)
    exact ⟨⟨_, by rw [hu']; rfl⟩, hbounded⟩

end FxUDPConnectSock

/-! ### All three -/

namespace Parse

open RecvSock

/-- Whatever the peer sends and however it is cut, and whenever the main thread runs: in a run whose
calls are sized every further call that is sized returns, and at every head of its loop the parse
pointers stand inside the region, no copy has left the header's buffer and what is announced is in
the ring. -/
theorem receive_loops_bounded (ret : RecvRet) (sched : List Nat) :
    (∀ (s₀ s : FxTCPConnectSock.Sock) (ops : List Op), Blank s₀ → s₀.header.InBuffer →
      Transition.Always FxTCPConnectSock.step (SizedCall binaryRule FxTCPConnectSock.procRecv) s₀
        ops →
      Transition.run FxTCPConnectSock.step s₀ ops = some s →
      SizedCall binaryRule FxTCPConnectSock.procRecv s (.onRecv 0 ret sched) →
      (∃ fuel, (FxTCPConnectSock.step s (.onRecv fuel ret sched)).isSome) ∧
        ∀ p ∈ loopStart FxTCPConnectSock.procRecv ret { s with sched := sched },
          Bounded BinaryDataHeader.InBuffer FxTCPConnectSock.frameStep p) ∧
    (∀ (s₀ s : FxWebSocketConnect.Sock) (ops : List Op), Blank s₀ → s₀.header.InBuffer →
      Transition.Always FxWebSocketConnect.step
        (SizedCall FxWebSocketConnect.webSocketRule FxWebSocketConnect.procRecv) s₀ ops →
      Transition.run FxWebSocketConnect.step s₀ ops = some s →
      SizedCall FxWebSocketConnect.webSocketRule FxWebSocketConnect.procRecv s
        (.onRecv 0 ret sched) →
      (∃ fuel, (FxWebSocketConnect.step s (.onRecv fuel ret sched)).isSome) ∧
        ∀ p ∈ loopStart FxWebSocketConnect.procRecv ret { s with sched := sched },
          Bounded WebSocketDataHeader.InBuffer FxWebSocketConnect.frameStep p) ∧
    ∀ (u₀ u : FxUDPConnectSock) (ops : List FxUDPConnectSock.Op), Blank u₀.sock →
      u₀.sock.header.InBuffer →
      Transition.Always FxUDPConnectSock.step FxUDPConnectSock.SizedPacket u₀ ops →
      Transition.run FxUDPConnectSock.step u₀ ops = some u → ∀ clock,
      FxUDPConnectSock.SizedPacket u (.onRecv 0 clock ret sched) →
      (∃ fuel, (FxUDPConnectSock.step u (.onRecv fuel clock ret sched)).isSome) ∧
        ∀ p ∈ FxUDPConnectSock.loopStart clock ret
            { u with sock := { u.sock with sched := sched } },
          Bounded BinaryDataHeader.InBuffer FxUDPConnectSock.frameStep p := by
  refine ⟨?_, ?_, ?_⟩
  · intro s₀ s ops hblank hcopies hops hrun hsized
    exact FxTCPConnectSock.parses.run hblank hcopies hops hrun hsized
  · intro s₀ s ops hblank hcopies hops hrun hsized
    exact FxWebSocketConnect.parses.run hblank hcopies hops hrun hsized
  · intro u₀ u ops hblank hcopies hops hrun clock hsized
    exact FxUDPConnectSock.run_bounded hblank hcopies hops hrun hsized

/-- Three streams of a frame and a header that announces -1. -/
theorem receive_loops_bounded_refused :
    (∃ s, Transition.run FxTCPConnectSock.step (accepted ⟨fun _ => 0, []⟩ 16 64)
        [.onRecv 9 (.data [0, 0, 0, 1, 84, 69, 83, 84, 7, 255]) []] = some s ∧
      ∀ p ∈ loopStart FxTCPConnectSock.procRecv (.data [255, 255, 247, 84, 69, 83, 84])
          { s with sched := [] },
        Bounded BinaryDataHeader.InBuffer FxTCPConnectSock.frameStep p) ∧
    (∃ s, Transition.run FxWebSocketConnect.step (accepted FxWebSocketConnect.freshHeader 16 64)
        [.onRecv 9 (.data [130, 1, 7]) []] = some s ∧
      ∀ p ∈ loopStart FxWebSocketConnect.procRecv
          (.data [130, 127, 0, 0, 0, 0, 255, 255, 255, 245]) { s with sched := [] },
        Bounded WebSocketDataHeader.InBuffer FxWebSocketConnect.frameStep p) ∧
    ∃ u, Transition.run FxUDPConnectSock.step (FxUDPConnectSock.accepted 16)
        [FxUDPConnectSock.datagram 2 [0, 0, 0, 1, 84, 69, 83, 84, 7, 255] []] = some u ∧
      ∀ p ∈ FxUDPConnectSock.loopStart (fun _ => 0)
          (.data [4, 3, 1, 255, 255, 247, 84, 69, 83, 84])
          { u with sock := { u.sock with sched := [] } },
        Bounded BinaryDataHeader.InBuffer FxUDPConnectSock.frameStep p := by
  refine ⟨?_, ?_, ?_⟩
  · have hblank := (fresh_accepted (⟨fun _ => 0, []⟩ : BinaryDataHeader)
      (show (0 : Int) < 16 by omega) (by omega) 64).blank
    have hsized : (Transition.run FxTCPConnectSock.step (accepted ⟨fun _ => 0, []⟩ 16 64)
        [.onRecv 9 (.data [0, 0, 0, 1, 84, 69, 83, 84, 7, 255]) []]).any (fun s =>
          SizedCall binaryRule FxTCPConnectSock.procRecv s
            (.onRecv 0 (.data [255, 255, 247, 84, 69, 83, 84]) [])) = true := by
      decide +kernel
    obtain ⟨s, hrun, hlast⟩ := (Option.any_eq_true _ _).mp hsized
    exact ⟨s, hrun, ((receive_loops_bounded _ _).1 _ s _ hblank (fun _ hc => by cases hc)
      (by decide +kernel) hrun (of_decide_eq_true hlast)).2⟩
  · have hblank := (fresh_accepted FxWebSocketConnect.freshHeader
      (show (0 : Int) < 16 by omega) (by omega) 64).blank
    have hsized : (Transition.run FxWebSocketConnect.step
        (accepted FxWebSocketConnect.freshHeader 16 64)
        [.onRecv 9 (.data [130, 1, 7]) []]).any (fun s =>
          SizedCall FxWebSocketConnect.webSocketRule FxWebSocketConnect.procRecv s
            (.onRecv 0 (.data [130, 127, 0, 0, 0, 0, 255, 255, 255, 245]) [])) = true := by
      decide +kernel
    obtain ⟨s, hrun, hlast⟩ := (Option.any_eq_true _ _).mp hsized
    exact ⟨s, hrun, ((receive_loops_bounded _ _).2.1 _ s _ hblank (fun _ hc => by cases hc)
      (by decide +kernel) hrun (of_decide_eq_true hlast)).2⟩
  · have hblank := (fresh_accepted (⟨fun _ => 0, []⟩ : BinaryDataHeader)
      (show (0 : Int) < 16 by omega) (by omega) 64).blank
    have hsized : (Transition.run FxUDPConnectSock.step (FxUDPConnectSock.accepted 16)
        [FxUDPConnectSock.datagram 2 [0, 0, 0, 1, 84, 69, 83, 84, 7, 255] []]).any (fun u =>
          FxUDPConnectSock.SizedPacket u (.onRecv 0 (fun _ => 0)
            (.data [4, 3, 1, 255, 255, 247, 84, 69, 83, 84]) [])) = true := by
      decide +kernel
    obtain ⟨u, hrun, hlast⟩ := (Option.any_eq_true _ _).mp hsized
    exact ⟨u, hrun, ((receive_loops_bounded _ _).2.2 _ u _ hblank (fun _ hc => by cases hc)
      (by decide +kernel) hrun _ (of_decide_eq_true hlast)).2⟩

/-- A header that announces 0 keeps a TCP socket in its loop for ever; one that announces
-2147483640 has more announced than the ring holds. -/
theorem receive_loops_unbounded :
    (∀ fuel, FxTCPConnectSock.step (accepted ⟨fun _ => 0, []⟩ 16 64)
      (.onRecv fuel (.data [255, 255, 255, 248, 84, 69, 83, 84]) []) = none) ∧
    ∃ p ∈ loopStart FxTCPConnectSock.procRecv (.data [128, 0, 0, 0, 84, 69, 83, 84])
        (accepted ⟨fun _ => 0, []⟩ 16 64),
      ¬ Bounded BinaryDataHeader.InBuffer FxTCPConnectSock.frameStep p := by
  have hblank := (fresh_accepted (⟨fun _ => 0, []⟩ : BinaryDataHeader)
    (show (0 : Int) < 16 by omega) (by omega) 64).blank
  constructor
  · intro fuel
    have htaken : (loopStart FxTCPConnectSock.procRecv
        (.data [255, 255, 255, 248, 84, 69, 83, 84])
        (accepted (⟨fun _ => 0, []⟩ : BinaryDataHeader) 16 64)).map (fun p => p.sock.taken) =
        some [255, 255, 255, 248, 84, 69, 83, 84] := by
      decide +kernel
    obtain ⟨p, hp, hxs⟩ := Option.map_eq_some_iff.mp htaken
    exact FxTCPConnectSock.onRecv_stuck hblank.ready rfl hp hxs (by decide) (by decide) fuel
  · have hfacts : (loopStart FxTCPConnectSock.procRecv (.data [128, 0, 0, 0, 84, 69, 83, 84])
        (accepted (⟨fun _ => 0, []⟩ : BinaryDataHeader) 16 64)).any (fun p =>
          p.Looping ∧ recvLens (FxTCPConnectSock.frameStep p).sock.events = [2147483656] ∧
            (FxTCPConnectSock.frameStep p).sock.buffered = 8) = true := by
      decide +kernel
    obtain ⟨p, hp, hfacts⟩ := (Option.any_eq_true _ _).mp hfacts
    obtain ⟨hloop, hlens, hbuffered⟩ := of_decide_eq_true hfacts
    refine ⟨p, hp, fun hbounded => ?_⟩
    have hhead := hbounded.2 _ (.next hloop (.start _))
    have hle := hhead.announced 2147483656 (by rw [hlens]; exact List.mem_singleton_self _)
    omega

end Parse
