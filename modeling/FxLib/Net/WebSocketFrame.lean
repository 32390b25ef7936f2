import FxLib.Net.OnRecv

/-!
# The frame loop of a WebSocket

`FxWebSocketConnect` behind its handshake. The length of a header depends on its second
byte. A header that the region does not hold is put together from the region and the head
of the ring; the loop does not ask whether its missing bytes have arrived at all.
-/

open MachineInt

namespace FxWebSocketConnect

open WebSocketDataHeader (vtable)

abbrev Sock := RecvSock WebSocketDataHeader

/-! ### __ProcRecv -/

def unmask (ucMaskingKey bytes : List UInt8) : List UInt8 :=
  bytes.mapIdx fun i b => b ^^^ ucMaskingKey.getD (i % 4) 0

/-- What `__ProcRecv` reads of a header; the key is there when the mask bit is set. -/
structure HeaderView where
  btOpCode : Nat
  dwHeaderLen : Nat
  ucMaskingKey : Option (List UInt8)

def readHeader (pBuf : Mem) (dwLen : Nat) : HeaderView :=
  let first := (⟨pBuf, dwLen⟩ : CNetStream).readByte 0
  let second := first.2.readByte 0
  let extended :=
    if second.1 % 128 = 126 then (4, (second.2.readShort 0).2)
    else if second.1 % 128 = 127 then (10, (second.2.readInt64 0).2)
    else (2, second.2)
  if second.1 / 128 ≠ 0 then
    ⟨first.1 % 16, extended.1 + 4, (extended.2.readData 4).1.map fun pKey => Memory.read pKey 0 4⟩
  else ⟨first.1 % 16, extended.1, none⟩

/-- `__ProcRecv` behind its `PopBuff`. -/
def handOver (s : Sock) (c : FxConnection) (dwLen : Nat) : Sock :=
  let view := readHeader s.sessionBuf dwLen
  if view.btOpCode = 8 then s.postClose
  else
    let n := toUInt32 (dwLen - view.dwHeaderLen)
    let moved := Memory.write s.sessionBuf 0 (Memory.read s.sessionBuf view.dwHeaderLen n)
    let plain := match view.ucMaskingKey with
      | none => moved
      | some key => Memory.write moved 0 (unmask key (Memory.read moved 0 n))
    { s with sessionBuf := Memory.write plain n [0] }.connectionOnRecv c n

/-- `__ProcRecv`, behind its test of the connection and of the handshake. -/
def procRecv : Sock → FxConnection → Nat → Sock := RecvSock.popAndHand handOver

/-! ### The loop body -/

/-- The header is not complete in the region. -/
def splitStep (p : Parse WebSocketDataHeader) : Parse WebSocketDataHeader :=
  let p := p.costUsed procRecv
  let p := { p with sock := { p.sock with needData := 0 } }
  let (nHasData, sock) := p.sock.useLen procRecv
  let p := { p with sock := sock }
  if nHasData > 2 then
    let p := p.buildHeader vtable (toUInt32 p.nLen)
    let (ok, sock) := p.sock.costUsedBuff procRecv p.nLen
    let p := { p with sock := sock }
    if ok = false then { p with exit := .broke }
    else
      let p := p.nextRegion procRecv
      let header := (vtable.buildRecvPkgHeader p.sock.header (p.sock.recvBuf.mem.at p.pUseBuf)
        (toUInt32 p.nRegion) (toUInt32 p.nLen)).2
      let p := { p with sock := { p.sock with header := header } }
      if sub32 (toInt32 (vtable.getHeaderLength header)) p.nLen > p.nRegion then
        p.fail netRecvbuffError
      else
        let p := p.parsePacket vtable (vtable.getPkgHeader header)
          (toUInt32 (add32 p.nLen p.nRegion))
        if 0 ≥ p.sock.packetLen then p.fail netRecvbuffError else p.enterFrame procRecv vtable
  else { p with nLen := 0, exit := .broke }

/-- One iteration. -/
def frameStep (p : Parse WebSocketDataHeader) : Parse WebSocketDataHeader :=
  if 0 ≠ p.sock.needData then p.needStep procRecv
  else
    let p := p.buildHeader vtable (toUInt32 p.nLen)
    let p := p.parsePacket vtable p.parseBuf (toUInt32 p.nLen)
    if -1 = p.sock.packetLen then p.fail netRecvError
    else if 0 = p.sock.packetLen then splitStep p
    else p.wholeStep procRecv

def onRecv (fuel : Nat) (ret : RecvRet) (s : Sock) : Option Sock :=
  s.onRecv procRecv frameStep fuel ret

def step (s : Sock) (op : RecvSock.Op) : Option Sock := s.step procRecv frameStep op

end FxWebSocketConnect

namespace Parse

open RecvSock FxWebSocketConnect WebSocketDataHeader

variable {X : Sock → Prop} {p : Parse WebSocketDataHeader} {m rest : List UInt8} {n : Nat}

/-! ### A header at the end of the region -/

/-- The first `n` unmarked bytes are marked; the rest is the new region. -/
structure Rejoin (X : Sock → Prop) (r : Parse WebSocketDataHeader) (m rest : List UInt8) (n : Nat) :
    Prop where
  holds : Holds X r.sock m rest n
  len : r.nLen = n
  region : r.nRegion = rest.length
  needData : r.sock.needData = 0
  exit : r.exit = .looping
  split : 0 < rest.length → Split X r m rest n

theorem Scan.rejoin (h : Scan X p m [] rest 0 n) (hside : MainSide FxWebSocketConnect.procRecv X)
    (hexit : p.exit = .looping) (hneed : p.sock.needData = 0) (hpos : 0 < n) :
    ∃ m' s₁ r, p.sock.costUsedBuff FxWebSocketConnect.procRecv p.nLen = (true, s₁) ∧
      ({ p with sock := s₁ } : Parse WebSocketDataHeader).nextRegion
        FxWebSocketConnect.procRecv = r ∧
      Rejoin X r m' (rest.drop n) n ∧ SameFrame p.sock r.sock := by
  have hfits := h.fits
  rcases Nat.lt_or_ge n rest.length with hcut | hall
  · obtain ⟨m', s₁, r, hcost, hr, hsplit, hframe⟩ := h.nextRegion hside hexit hneed hpos hcut
    exact ⟨m', s₁, r, hcost, hr, ⟨hsplit.holds, hsplit.len, hsplit.region, hsplit.needData,
      hsplit.exit, fun _ => hsplit⟩, hframe⟩
  · obtain ⟨m₁, s₁, hcost, h₁, hframe₁, _⟩ := h.holds.costUsedBuff hside (n := n) hpos hfits
    obtain ⟨m₂, s₂, ptr, k, hptr, h₂, hio₂, hk, _⟩ := h₁.usedCursorPtr hside
    have hnil : rest.drop n = [] := List.drop_of_length_le hall
    simp only [List.nil_append, hnil, List.length_nil] at h₂ hk
    obtain rfl : k = 0 := by omega
    refine ⟨m₂, s₁, _, by rw [h.len, hcost], rfl, ?_, ?_⟩
    · rw [hnil]
      simp only [Parse.nextRegion, hptr]
      exact ⟨by simpa using h₂, h.len, rfl, by rw [hio₂.needData, hframe₁.needData, hneed], hexit,
        fun hc => absurd hc (by simp)⟩
    · simp only [Parse.nextRegion, hptr]
      exact hframe₁.trans hio₂.frame

theorem Rejoin.read {r : Parse WebSocketDataHeader} (h : Rejoin X r m rest n) :
    Memory.read (r.sock.recvBuf.mem.at r.pUseBuf) 0 rest.length = rest := by
  rcases Nat.eq_zero_or_pos rest.length with hzero | hpos
  · rw [List.eq_nil_of_length_eq_zero hzero]
    rfl
  · have hread := (h.split hpos).read le_rfl
    rwa [List.take_length] at hread

/-- The header object and the length it computed are free to change. -/
theorem Rejoin.setHeader {r : Parse WebSocketDataHeader} (h : Rejoin X r m rest n)
    (hside : MainSide FxWebSocketConnect.procRecv X) (header : WebSocketDataHeader)
    (packetLen : Int) :
    Rejoin X { r with sock := { r.sock with header := header, packetLen := packetLen } } m rest n :=
  ⟨h.holds.io hside rfl rfl, h.len, h.region, h.needData, h.exit, fun hpos =>
    have hs := h.split hpos
    ⟨hs.holds.io hside rfl rfl, hs.used, hs.len, hs.region, hs.ptr, hs.useCursor, hs.needData,
      hs.exit⟩⟩

/-- What becomes of a header that the region does not hold. `frame` are all unmarked bytes. -/
inductive Resplit (X : Sock → Prop) (p q : Parse WebSocketDataHeader) (frame : List UInt8)
    (n : Nat) : Prop
  | waits (m' : List UInt8) (hle : frame.length ≤ 2) (scan : Scan X q m' [] frame 0 0)
      (exit : q.exit = .broke) (same : SameIo p.sock q.sock)
  | refused (m' : List UInt8) (r : Parse WebSocketDataHeader) (hge : 2 < frame.length)
      (hshort : frame.length < lengthOf frame) (rejoin : Rejoin X r m' (frame.drop n) n)
      (inBuffer : p.sock.header.InBuffer → (n ≤ bufferSize ∨ frame.length = n) →
        r.sock.header.InBuffer)
      (eq : q = r.fail netRecvbuffError)
  | joined (m' : List UInt8) (r : Parse WebSocketDataHeader) (hge : 2 < frame.length)
      (hle : lengthOf frame ≤ frame.length) (rejoin : Rejoin X r m' (frame.drop n) n)
      (packetLen : r.sock.packetLen = pkgLength frame)
      (headerLength : r.sock.header.dwHeaderLength = lengthOf frame)
      (record : SameRecord p.sock r.sock)
      (inBuffer : p.sock.header.InBuffer → (n ≤ bufferSize ∨ frame.length = n) →
        r.sock.header.InBuffer)
      (eq : q = if 0 ≥ r.sock.packetLen then r.fail netRecvbuffError
        else r.enterFrame FxWebSocketConnect.procRecv vtable)

/-- A header put together from the bytes `xs` and `ys`. -/
theorem builtTwice (h : WebSocketDataHeader) {pBuf₁ pBuf₂ : Mem} {xs ys : List UInt8}
    (hfirst : Memory.read pBuf₁ 0 xs.length = xs) (hsecond : Memory.read pBuf₂ 0 ys.length = ys)
    (hx : xs.length < 2147483648) (hy : ys.length < 2147483648) (htwo : 2 < xs.length + ys.length) :
    let header := (vtable.buildRecvPkgHeader (vtable.buildRecvPkgHeader h pBuf₁ xs.length 0).2
      pBuf₂ ys.length xs.length).2
    header.Holding (xs ++ ys) ∧ header.dwHeaderLength = lengthOf (xs ++ ys) ∧
      (h.InBuffer → (xs.length ≤ bufferSize ∨ ys.length = 0) → header.InBuffer) := by
  have hone := holding_build h hfirst (by omega)
  have hhl := build_headerLength hone hsecond (by omega) htwo
  refine ⟨hone.build hsecond (by omega) (by omega), hhl, fun hin hinside => ?_⟩
  exact (hin.build pBuf₁ (by omega) (by omega) (Or.inl (Nat.zero_le _))).build pBuf₂ (by omega)
    (by omega) hinside

theorem Scan.resplit (h : Scan X p m [] rest 0 n)
    (hside : MainSide FxWebSocketConnect.procRecv X) (hexit : p.exit = .looping)
    (hneed : p.sock.needData = 0) (hpos : 0 < n) :
    Resplit X p (FxWebSocketConnect.splitStep p) rest n := by
  obtain ⟨hbound, hsmall⟩ := h.bounded
  have hfits := h.fits
  have hlen := h.len
  obtain ⟨m₁, s₁, hcost, h₁, hio₁⟩ := h.costNothing hside
  obtain ⟨m₂, s₂, huse, hholds₂, hio₂⟩ := h₁.holds.useLen hside
  have h₂ := h₁.sameIo hholds₂ hio₂
  have hio := hio₁.trans hio₂
  have hself : { s₁ with needData := 0 } = s₁ := by rw [← hneed, ← hio₁.needData]
  simp only [FxWebSocketConnect.splitStep, hcost, hself, huse, List.nil_append]
  by_cases hge : 2 < rest.length
  · rw [if_pos (show ((rest.length : Nat) : Int) > 2 by omega)]
    have hn₂ : toUInt32 p.nLen = n := by rw [hlen]; simp [toUInt32]; omega
    have hneed₂ : s₂.needData = 0 := by rw [hio.needData, hneed]
    have hread : Memory.read (Parse.parseBuf { p with sock := s₂ }) 0 n = rest.take n :=
      h₂.read hpos le_rfl
    generalize hbuf : Parse.parseBuf { p with sock := s₂ } = pBuf₁ at hread
    have h₃ := h₂.setHeader hside hneed₂ (vtable.buildRecvPkgHeader s₂.header pBuf₁ n 0).2
      s₂.packetLen
    obtain ⟨m₃, s₃, r, hcost₃, hr, hrejoin, hframe⟩ := h₃.rejoin hside hexit hneed₂ hpos
    have hrlen := hrejoin.len
    have hregion : r.nRegion = ((rest.length - n : Nat) : Int) := by
      rw [hrejoin.region, List.length_drop]
    have hrn : toUInt32 r.nLen = n := by rw [← hn₂, hrlen, hlen]
    have hrr : toUInt32 r.nRegion = rest.length - n := by rw [hregion]; simp [toUInt32]; omega
    have hsum : toUInt32 (add32 r.nLen r.nRegion) = rest.length := by
      rw [hrlen, hregion, add32_of_fits ⟨by omega, by omega⟩]
      simp [toUInt32]
      omega
    have hheader : r.sock.header = (vtable.buildRecvPkgHeader p.sock.header pBuf₁ n 0).2 := by
      rw [hframe.header, hio.header]
    have hsecond := hrejoin.read
    generalize hpbuf : r.sock.recvBuf.mem.at r.pUseBuf = pBuf₂ at hsecond
    simp only [buildHeader, hbuf, hn₂, hcost₃, hr, hpbuf, hrn, hrr, hsum]
    rw [if_neg (by simp), hheader]
    clear hn₂ hrn hrr hsum
    have hxlen : (rest.take n).length = n := by rw [List.length_take]; omega
    have hylen : (rest.drop n).length = rest.length - n := List.length_drop
    have hfirst : Memory.read pBuf₁ 0 (rest.take n).length = rest.take n := by
      rw [hxlen]
      exact hread
    obtain ⟨hold, hhl, hin⟩ := builtTwice p.sock.header hfirst hsecond (by omega) (by omega)
      (by omega)
    rw [hxlen, hylen] at hold hhl hin
    rw [List.take_append_drop] at hold hhl
    generalize (vtable.buildRecvPkgHeader (vtable.buildRecvPkgHeader p.sock.header pBuf₁ n 0).2
      pBuf₂ (rest.length - n) n).2 = header at hold hhl hin
    have hgl : vtable.getHeaderLength header = lengthOf rest := hhl
    have hle := headerLen_le (rest.getD 1 0)
    rw [← lengthOf] at hle
    have hmissing : sub32 (toInt32 (vtable.getHeaderLength header)) r.nLen > r.nRegion ↔
        rest.length < lengthOf rest := by
      rw [hgl, hrlen, hregion, toInt32_of_lt (by omega), sub32_of_fits ⟨by omega, by omega⟩]
      omega
    have hinside : n ≤ bufferSize ∨ rest.length = n → n ≤ bufferSize ∨ rest.length - n = 0 :=
      Or.imp_right fun heq => by omega
    by_cases hshort : rest.length < lengthOf rest
    · rw [if_pos (hmissing.mpr hshort)]
      exact .refused m₃ _ hge hshort (hrejoin.setHeader hside header r.sock.packetLen)
        (fun hi hor => hin hi (hinside hor)) rfl
    · rw [if_neg (mt hmissing.mp hshort)]
      obtain ⟨hpkg, hhl', hcopies⟩ := parsePacket_eq (vtable.getPkgHeader header) hold (by omega)
      rw [if_neg hshort] at hpkg
      refine .joined m₃ _ hge (by omega) (hrejoin.setHeader hside _ _) hpkg hhl' ?_ ?_ ?_
      · exact ⟨hframe.taken.trans hio.taken, hframe.announced.trans hio.announced⟩
      · intro hi hor copy hcopy
        exact hin hi (hinside hor) copy (by rwa [hcopies] at hcopy)
      · rfl
  · rw [if_neg (show ¬ ((rest.length : Nat) : Int) > 2 by omega)]
    refine .waits m₂ (by omega) ⟨hholds₂, h.used, rfl, Nat.zero_le _, h.parser_nonneg, ?_,
      h₂.region_le, ?_, ?_, ?_, ?_⟩ rfl hio
    · have := h.region
      simp only
      omega
    · intro hc
      exact absurd hc (lt_irrefl 0)
    · intro hc
      exact absurd hc (lt_irrefl 0)
    · intro hc
      exact absurd hc (lt_irrefl 0)
    · intro _
      exact ⟨fun _ => ⟨rfl, rfl⟩, fun hc => absurd (by simp only [hio.needData, hneed]) hc⟩

/-! ### Between two frames -/

/-- What an iteration does between two frames. -/
inductive Idle (X : Sock → Prop) (p q : Parse WebSocketDataHeader) (m frame : List UInt8)
    (n : Nat) : Prop
  | waits (m' : List UInt8) (hle : frame.length ≤ 2) (hlt : n < lengthOf frame)
      (scan : Scan X q m' [] frame 0 0) (exit : q.exit = .broke) (needData : q.sock.needData = 0)
      (cursor : SameUse p.sock q.sock frame) (record : SameRecord p.sock q.sock)
      (inBuffer : p.sock.header.InBuffer → q.sock.header.InBuffer)
  | whole (p' : Parse WebSocketDataHeader) (hle : lengthOf frame ≤ n)
      (scan : Scan X p' m [] frame 0 n)
      (packetLen : p'.sock.packetLen = pkgLength frame) (needData : p'.sock.needData = 0)
      (exit : p'.exit = .looping) (record : SameRecord p.sock p'.sock)
      (inBuffer : p.sock.header.InBuffer → p'.sock.header.InBuffer)
      (eq : q = if -1 = p'.sock.packetLen then p'.fail netRecvError
        else if 0 = p'.sock.packetLen then FxWebSocketConnect.splitStep p'
        else p'.wholeStep FxWebSocketConnect.procRecv)
  | refused (m' : List UInt8) (r : Parse WebSocketDataHeader) (hge : 2 < frame.length)
      (hshort : frame.length < lengthOf frame) (rejoin : Rejoin X r m' (frame.drop n) n)
      (inBuffer : p.sock.header.InBuffer → r.sock.header.InBuffer)
      (eq : q = r.fail netRecvbuffError)
  | joined (m' : List UInt8) (r : Parse WebSocketDataHeader) (hlt : n < lengthOf frame)
      (hle : lengthOf frame ≤ frame.length) (split : Split X r m' (frame.drop n) n)
      (packetLen : r.sock.packetLen = pkgLength frame)
      (headerLength : r.sock.header.dwHeaderLength = lengthOf frame)
      (record : SameRecord p.sock r.sock)
      (inBuffer : p.sock.header.InBuffer → r.sock.header.InBuffer)
      (eq : q = if 0 ≥ r.sock.packetLen then r.fail netRecvbuffError
        else r.enterFrame FxWebSocketConnect.procRecv vtable)

/-- The part of the header that the region holds. -/
theorem parsedOnce (h : WebSocketDataHeader) {pBuf : Mem} {frame : List UInt8} {n : Nat}
    (hread : Memory.read pBuf 0 n = frame.take n) (hn : n ≤ frame.length) (hpos : 0 < n)
    (hlt : n < 2147483648) :
    let answer := vtable.parsePacket (vtable.buildRecvPkgHeader h pBuf n 0).2 pBuf n
    answer.1 = (if n < lengthOf frame then 0 else pkgLength frame) ∧
      (h.InBuffer → answer.2.InBuffer) := by
  have htwo := headerLen_ge (frame.getD 1 0)
  rw [← lengthOf] at htwo
  have hxlen : (frame.take n).length = n := by rw [List.length_take]; omega
  have hin : h.InBuffer → (vtable.buildRecvPkgHeader h pBuf n 0).2.InBuffer := fun hin =>
    hin.build pBuf (Nat.lt_trans hlt (by decide)) (by omega) (Or.inl (Nat.zero_le _))
  rcases Nat.lt_or_ge n 2 with hone | hge
  · simp only [parsePacket_short _ pBuf hone]
    rw [if_pos (by omega)]
    exact ⟨rfl, hin⟩
  · have hpart : Memory.read pBuf 0 (frame.take n).length = frame.take n := by
      rw [hxlen]
      exact hread
    have hold := holding_build h hpart (by omega)
    obtain ⟨hpkg, _, hcopies⟩ := parsePacket_eq pBuf hold (by omega)
    simp only [hxlen, lengthOf_take hge] at hpkg hcopies
    simp only [hpkg]
    refine ⟨?_, fun hi copy hcopy => hin hi copy (by rwa [hcopies] at hcopy)⟩
    by_cases hshort : n < lengthOf frame
    · rw [if_pos hshort, if_pos hshort]
    · rw [if_neg hshort, if_neg hshort, pkgLength_take (by omega)]

theorem Scan.idle (h : Scan X p m [] rest 0 n) (hside : MainSide FxWebSocketConnect.procRecv X)
    (hexit : p.exit = .looping) (hneed : p.sock.needData = 0) (hpos : 0 < n) :
    Idle X p (FxWebSocketConnect.frameStep p) m rest n := by
  obtain ⟨hbound, hsmall⟩ := h.bounded
  have hfits := h.fits
  have hn : toUInt32 p.nLen = n := by rw [h.len]; simp [toUInt32]; omega
  have hread : Memory.read p.parseBuf 0 n = rest.take n := h.read hpos le_rfl
  obtain ⟨hpkg, hin⟩ := parsedOnce p.sock.header hread hfits hpos (by omega)
  have hstep : FxWebSocketConnect.frameStep p =
      let answer := vtable.parsePacket
        (vtable.buildRecvPkgHeader p.sock.header p.parseBuf n 0).2 p.parseBuf n
      let p' : Parse WebSocketDataHeader := { p with sock := { p.sock with
        header := answer.2, packetLen := answer.1 } }
      if -1 = p'.sock.packetLen then p'.fail netRecvError
      else if 0 = p'.sock.packetLen then FxWebSocketConnect.splitStep p'
      else p'.wholeStep FxWebSocketConnect.procRecv := by
    rw [FxWebSocketConnect.frameStep, if_neg (by rw [hneed]; simp)]
    simp only [hn, buildHeader, Parse.parsePacket]
    rfl
  rw [hstep]
  clear hstep hn hread
  generalize vtable.parsePacket (vtable.buildRecvPkgHeader p.sock.header p.parseBuf n 0).2
    p.parseBuf n = answer at hpkg hin
  have hscan := h.setHeader hside hneed answer.2 answer.1
  by_cases hlt : n < lengthOf rest
  · rw [if_pos hlt] at hpkg
    have hsplit := hscan.resplit hside hexit hneed hpos
    have hinside : n ≤ bufferSize ∨ rest.length = n := by
      have := headerLen_le (rest.getD 1 0)
      rw [lengthOf] at hlt
      exact Or.inl (by rw [bufferSize]; omega)
    simp only [hpkg] at hsplit ⊢
    rw [if_neg (by omega), if_pos trivial]
    generalize FxWebSocketConnect.splitStep _ = q at hsplit
    cases hsplit with
    | waits m' hle scan exit same =>
      exact .waits m' hle hlt scan exit (by rw [same.needData]; exact hneed)
        ⟨same.totalLen, fun _ => same.useCursor⟩ ⟨same.taken, same.announced⟩
        (fun hi => by rw [same.header]; exact hin hi)
    | refused m' r hge hshort rejoin inBuffer eq =>
      exact .refused m' r hge hshort rejoin (fun hi => inBuffer (hin hi) hinside) eq
    | joined m' r hge hle rejoin packetLen headerLength record inBuffer eq =>
      exact .joined m' r hlt hle (rejoin.split (by rw [List.length_drop]; omega)) packetLen
        headerLength ⟨record.taken, record.announced⟩ (fun hi => inBuffer (hin hi) hinside) eq
  · rw [if_neg hlt] at hpkg
    exact .whole _ (by omega) hscan hpkg hneed hexit ⟨rfl, rfl⟩ hin rfl

end Parse
