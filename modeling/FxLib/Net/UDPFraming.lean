import FxLib.Net.TcpFraming
import FxLib.Net.UDPSteps

/-!
# UDP framing

What a call of `OnRecv` appends to the ring may pass its end, and the parse loop works on one
region. So what is appended behind the end is parsed only when a header stands across it, or when
the next packet comes.
-/

open MachineInt

namespace FxUDPConnectSock

open RecvSock Framing Parse SlidingWindow

variable {P : List UInt8 → Prop} {s s' : Sock} {m w : List UInt8} {part : Nat}

/-! ### What is appended -/

/-- The payloads of `n` packets from the beginning of the window. -/
def payloads : Nat → SlidingWindow → List UInt8
  | 0, _ => []
  | n + 1, w => payload w ++ payloads n (shift w)

theorem payloads_succ (n : Nat) (w : SlidingWindow) :
    payloads (n + 1) w = payload w ++ payloads n (shift w) := rfl

/-- What a call of `OnRecv` delivers. -/
def arrived (ret : RecvRet) (u : FxUDPConnectSock) : List UInt8 :=
  match ret with
  | .error _ => []
  | .data bytes =>
    let (btBufferId, w) := u.recvWindow.allocate
    let bytes := bytes.take bufferSize
    if btBufferId ≥ windowSize ∨ bytes.length < UDPPacketHeader.headSize then []
    else
      let w := w.fill btBufferId bytes
      let refPacket := UDPPacketHeader.ofBuffer (w.ppBuffer btBufferId)
      let (bPacketReceived, w) := takeSlot refPacket.cSyn btBufferId bytes.length w
      if refPacket.cStatus = ESocketState.establish.code ∧ bPacketReceived then
        payloads (span w.btBegin (succ (newAck w w.count w.btBegin (pred w.btBegin)))) w
      else []

/-- The ring has grown by `xs`; the use cursor and what is parsed are the same. -/
structure Grown (s s' : Sock) (xs : List UInt8) : Prop where
  frame : SameFrame { s with taken := s.taken ++ xs } s'
  totalLen : s'.recvBuf.totalLen = s.recvBuf.totalLen
  useCursor : s'.recvBuf.useCursor = s.recvBuf.useCursor

theorem Grown.trans {s'' : Sock} {xs ys : List UInt8} (h : Grown s s' xs) (h' : Grown s' s'' ys) :
    Grown s s'' (xs ++ ys) := by
  refine ⟨⟨h'.frame.needData.trans h.frame.needData, h'.frame.packetLen.trans h.frame.packetLen,
    h'.frame.header.trans h.frame.header, ?_, h'.frame.announced.trans h.frame.announced⟩,
    h'.totalLen.trans h.totalLen, h'.useCursor.trans h.useCursor⟩
  rw [h'.frame.taken]
  simp only [h.frame.taken, List.append_assoc]

theorem grown_nil (h : SameIo s s') : Grown s s' [] := by
  have hframe := h.frame
  refine ⟨⟨hframe.1, hframe.2, hframe.3, ?_, hframe.5⟩, h.totalLen, h.useCursor⟩
  rw [h.taken]
  simp

/-- What the main thread's side knows of the bytes received so far. -/
abbrev Known (P : List UInt8 → Prop) (s : Sock) : Prop := P s.taken

theorem known_side (P : List UInt8 → Prop) : MainSide procRecv (Known P) :=
  takenSide pops_procRecv P

/-- A piece of a payload fills what it needs of the region that was asked for. -/
theorem holds_fill (h : Holds (Known P) s m w part) {xs : List UInt8}
    (hfit : (xs.length : Int) ≤ s.recvBuf.getInCursorPtr.len) (hP : P (s.taken ++ xs)) :
    ∃ m' t, t = RecvSock.costBuff procRecv s xs.length ∧
      Holds (Known P) { t with
        recvBuf := t.recvBuf.copyIn s.recvBuf.getInCursorPtr.ptr xs
        taken := t.taken ++ xs } m' (w ++ xs) part ∧
      Grown s { t with
        recvBuf := t.recvBuf.copyIn s.recvBuf.getInCursorPtr.ptr xs
        taken := t.taken ++ xs } xs ∧ m'.length ≤ m.length := by
  have hside := known_side P
  by_cases hempty : xs = []
  · subst hempty
    obtain ⟨m', h', hio, hle⟩ := h.yield hside
    have hcost : RecvSock.costBuff procRecv s (([] : List UInt8).length : Int) =
        s.yield procRecv := by
      simp [RecvSock.costBuff, FxLoopBuff.costBuff]
    refine ⟨m', _, rfl, ?_⟩
    rw [hcost]
    simp only [FxLoopBuff.copyIn_nil, List.append_nil]
    exact ⟨h', grown_nil hio, hle⟩
  · have hpos := List.length_pos_iff.mpr hempty
    have hfull : s.recvBuf.freeLen ≠ 0 := by
      intro hzero
      rw [FxLoopBuff.getInCursorPtr_full hzero] at hfit
      simp only at hfit
      omega
    obtain ⟨n, hregion, -, hfree, hend⟩ := FxLoopBuff.getInCursorPtr_eq h.rep hfull
    rw [hregion] at hfit ⊢
    simp only at hfit
    obtain ⟨m', t, ht, h', hframe, htotal, huse, hle⟩ := h.store hside hpos (by omega) (by omega)
      fun t recvBuf _ htaken => by
        simp only [Known, htaken]
        exact hP
    refine ⟨m', t, ht, h', ⟨?_, htotal, huse⟩, hle⟩
    exact ⟨hframe.1, hframe.2, hframe.3, by rw [hframe.taken], hframe.5⟩

/-- Where the first piece goes up to the end of the ring, the region for the second one begins at
its head. -/
theorem costBuff_wraps (h : Holds (Known P) s m w part) {n : Nat} (hpos : 0 < n)
    (hfree : (n : Int) ≤ s.recvBuf.freeLen)
    (hend : s.recvBuf.inCursor + (n : Int) = s.recvBuf.totalLen) :
    (RecvSock.costBuff procRecv s n).recvBuf.inCursor = 0 := by
  obtain ⟨m', h', hio, hle⟩ := h.yield (known_side P)
  have hold := h.rep.free
  have hnew := h'.rep.free
  have htotal := hio.totalLen
  have hin := hio.inCursor
  simp only [List.length_append] at hold hnew
  exact FxLoopBuff.costBuff_wraps h'.rep hpos (by omega) (by omega)

/-- A payload stands in the ring, or it does not fit and the socket is closed. -/
theorem append_cases (h : Holds (Known P) s m w part) {xs : List UInt8}
    (hP : ∀ ys, ys <+: xs → P (s.taken ++ ys)) :
    (∃ m' s', append xs s = (true, s') ∧ Holds (Known P) s' m' (w ++ xs) part ∧ Grown s s' xs ∧
        m'.length ≤ m.length) ∨
      ∃ s', append xs s = (false, s') ∧ s'.state ≠ .establish ∧
        s.recvBuf.freeLen < (xs.length : Int) := by
  have hside := known_side P
  by_cases hempty : xs.length = 0
  · obtain rfl := List.eq_nil_of_length_eq_zero hempty
    refine Or.inl ⟨m, s, if_pos rfl, ?_, grown_nil (SameIo.refl s), le_rfl⟩
    rw [List.append_nil]
    exact h
  obtain ⟨m₁, s₁, hptr, h₁, hio₁, hle₁⟩ := h.inCursorPtr hside
  simp only [append, if_neg hempty, hptr]
  by_cases hfit : (xs.length : Int) ≤ s₁.recvBuf.getInCursorPtr.len
  · obtain ⟨m₂, t, ht, h₂, hgrown, hle₂⟩ := holds_fill h₁ hfit (by
      rw [hio₁.taken]
      exact hP xs List.prefix_rfl)
    rw [if_pos hfit, ← ht]
    exact Or.inl ⟨m₂, _, rfl, h₂, (grown_nil hio₁).trans hgrown, hle₂.trans hle₁⟩
  · rw [if_neg hfit]
    have hregion := FxLoopBuff.getInCursorPtr_nonneg h₁.rep
    generalize hn : s₁.recvBuf.getInCursorPtr.len.toNat = n
    have hlen : (xs.take n).length = n := by rw [List.length_take]; omega
    have hwraps : (n : Int) < s₁.recvBuf.freeLen → 0 < n →
        (RecvSock.costBuff procRecv s₁ n).recvBuf.inCursor = 0 := by
      intro hroom hpos
      have hcut := FxLoopBuff.getInCursorPtr_cut h₁.rep (by omega)
      exact costBuff_wraps h₁ hpos hroom.le (by omega)
    obtain ⟨m₂, t, ht, h₂, hgrown, hle₂⟩ := holds_fill h₁
      (show ((xs.take n).length : Int) ≤ s₁.recvBuf.getInCursorPtr.len by omega) (by
      rw [hio₁.taken]
      exact hP _ (List.take_prefix n xs))
    rw [hlen] at ht
    rw [show s₁.recvBuf.getInCursorPtr.len = (n : Int) by omega, ← ht]
    rw [← ht] at hwraps
    generalize hs₂ : ({ t with
      recvBuf := t.recvBuf.copyIn s₁.recvBuf.getInCursorPtr.ptr (xs.take n)
      taken := t.taken ++ xs.take n } : Sock) = s₂ at h₂ hgrown ⊢
    have hin₂ : s₂.recvBuf.inCursor = t.recvBuf.inCursor := by
      rw [← hs₂]
      exact FxLoopBuff.copyIn_inCursor _ _ _
    obtain ⟨m₃, s₃, hptr₃, h₃, hio₃, hle₃⟩ := h₂.inCursorPtr hside
    have hgrown₃ := ((grown_nil hio₁).trans hgrown).trans (grown_nil hio₃)
    rw [List.nil_append, List.append_nil] at hgrown₃
    simp only [hptr₃]
    by_cases hsecond : s₃.recvBuf.getInCursorPtr.len < ((xs.drop n).length : Int)
    · rw [if_pos hsecond]
      refine Or.inr ⟨_, rfl, fail_state _ _, ?_⟩
      -- from the head of the ring on the second piece would have all free cells
      by_contra hroom
      have hfree := h.rep.free
      have hfree₁ := h₁.rep.free
      have hfree₃ := h₃.rep.free
      have htotal₁ := hio₁.totalLen
      have htotal₃ := hgrown₃.totalLen
      simp only [List.length_append, hlen] at hfree hfree₁ hfree₃
      rw [List.length_drop] at hsecond
      have hpos : 0 < n := by
        have hfull : s₁.recvBuf.freeLen ≠ 0 := by omega
        obtain ⟨k, hk, hkpos, -⟩ := FxLoopBuff.getInCursorPtr_eq h₁.rep hfull
        rw [hk] at hn
        simp only at hn
        omega
      have hhead := FxLoopBuff.getInCursorPtr_head h₃.rep
        ((hio₃.inCursor.trans hin₂).trans (hwraps (by omega) hpos))
      omega
    · rw [if_neg hsecond]
      have hpos : 0 < (xs.drop n).length := by rw [List.length_drop]; omega
      have hfull : s₃.recvBuf.freeLen ≠ 0 := by
        intro hzero
        rw [FxLoopBuff.getInCursorPtr_full hzero] at hsecond
        simp only at hsecond
        omega
      obtain ⟨k, hregion₃, -, hfree, hend⟩ := FxLoopBuff.getInCursorPtr_eq h₃.rep hfull
      rw [hregion₃] at hsecond ⊢
      simp only at hsecond ⊢
      obtain ⟨m₄, s₄, hs₄, h₄, hframe, htotal, huse, hle₄⟩ :=
        h₃.receive hside hpos (by omega) (by omega) fun t recvBuf _ htaken => by
          simp only [Known, htaken, hgrown₃.frame.taken, List.append_assoc, List.take_append_drop]
          exact hP xs List.prefix_rfl
      rw [← hs₄]
      rw [List.append_assoc, List.take_append_drop] at h₄
      have hgrown₄ : Grown s₃ { s₄ with taken := s₄.taken ++ xs.drop n } (xs.drop n) :=
        ⟨⟨hframe.1, hframe.2, hframe.3, by rw [hframe.taken], hframe.5⟩, htotal, huse⟩
      have hall := hgrown₃.trans hgrown₄
      rw [List.take_append_drop] at hall
      exact Or.inl ⟨m₄, _, rfl, h₄, hall, by omega⟩

/-- All payloads stand in the ring, or one does not fit and the socket is closed. -/
theorem deliver_cases (n : Nat) (flag : Bool) (u : FxUDPConnectSock)
    (h : Holds (Known P) u.sock m w part)
    (hP : ∀ ys, ys <+: payloads n u.recvWindow → P (u.sock.taken ++ ys)) :
    (∃ m' u', deliver n flag u = (some (flag || payloads n u.recvWindow ≠ []), u') ∧
        Holds (Known P) u'.sock m' (w ++ payloads n u.recvWindow) part ∧
        Grown u.sock u'.sock (payloads n u.recvWindow)) ∨
      ∃ u', deliver n flag u = (none, u') ∧ u'.sock.state ≠ .establish ∧
        u.sock.recvBuf.freeLen < ((payloads n u.recvWindow).length : Int) := by
  induction n generalizing u m w flag with
  | zero =>
    have hnil : payloads 0 u.recvWindow = [] := rfl
    rw [hnil, List.append_nil]
    exact Or.inl ⟨m, u, by simp [deliver], h, grown_nil (SameIo.refl _)⟩
  | succ n ih =>
    rw [payloads_succ] at hP ⊢
    generalize hxs : payload u.recvWindow = xs at hP
    rcases append_cases h fun ys hys => hP ys (hys.trans (List.prefix_append _ _)) with
      ⟨m₁, s₁, happend, h₁, hgrown, hle⟩ | ⟨s₁, happend, hstate, hshort⟩
    · rw [deliver]
      simp only [hxs, happend]
      have htaken : s₁.taken = u.sock.taken ++ xs := hgrown.frame.taken
      rcases ih (flag || xs.length ≠ 0)
        { u with sock := s₁, recvWindow := shift u.recvWindow, sendAck := true } h₁ (by
          intro ys hys
          simp only [htaken, List.append_assoc]
          exact hP _ ((List.prefix_append_right_inj xs).mpr hys)) with
        ⟨m₂, u₂, hdeliver, h₂, hgrown₂⟩ | ⟨u₂, hdeliver, hstate, hshort⟩
      · rw [List.append_assoc] at h₂
        refine Or.inl ⟨m₂, u₂, ?_, h₂, hgrown.trans hgrown₂⟩
        rw [hdeliver]
        cases xs <;> simp
      · have hfree := h.rep.free
        have hfree₁ := h₁.rep.free
        have htotal := hgrown.totalLen
        simp only [List.length_append] at hfree hfree₁ hshort ⊢
        exact Or.inr ⟨u₂, hdeliver, hstate, by omega⟩
    · rw [deliver]
      simp only [hxs, happend]
      refine Or.inr ⟨_, rfl, hstate, ?_⟩
      rw [List.length_append]
      omega

/-! ### The parse loop -/

variable {frames : List (List UInt8 × List UInt8)} {k : Nat}

/-- What has been received is the beginning of the stream of the frames. -/
abbrev Stream (frames : List (List UInt8 × List UInt8)) (xs : List UInt8) : Prop :=
  xs <+: wire frames frames.length

theorem streams {messages : List (List UInt8)}
    (hlen : ∀ x ∈ messages, 8 + x.length < 2147483648) :
    Streams (messages.map FxTCPConnectSock.encode)
      (Known (Stream (messages.map FxTCPConnectSock.encode))) where
  wire := FxTCPConnectSock.encode_wire hlen
  taken := fun _ h => h
  announce := fun _ _ _ _ _ _ _ _ h _ => h.side

/-- Where in the stream of all bytes the end of the ring stands. -/
def ringEnd (s : Sock) : Int :=
  s.taken.length - s.recvBuf.getUseLen + (s.recvBuf.totalLen - s.recvBuf.useCursor)

/-- The frame at the position `e` of the stream is not complete, or its header stands across `e`. -/
def Apart (frames : List (List UInt8 × List UInt8)) (e : Int) (len : Nat) : Prop :=
  ∀ k < frames.length, ((wire frames k).length : Int) ≤ e → e < (wire frames (k + 1)).length →
    (((wire frames k).length : Int) < e ∧ e < (wire frames k).length + 8) ∨
      len < (wire frames (k + 1)).length

/-- The loop over the bytes received so far, of which the region ends at `e` or at the last one. -/
structure Parsing (frames : List (List UInt8 × List UInt8)) (e : Int) (received : List UInt8)
    (p : Parse BinaryDataHeader) (m done rest : List UInt8) (part n k : Nat) : Prop where
  scan : Scan (Known (Stream frames)) p m done rest part n
  synced : Synced frames p.sock rest k
  begun : Begun p.sock
  taken : p.sock.taken = received
  looping : p.exit = .looping → n = rest.length ∨ (received.length : Int) + n = e + rest.length
  broke : p.exit = .broke → p.sock.needData = 0 ∧ rest.length < 8
  exit : p.exit ≠ .returned

variable {e : Int} {received done rest : List UInt8} {p : Parse BinaryDataHeader} {n : Nat}

theorem Parsing.frameStep (h : Parsing frames e received p m done rest part n k)
    (hstream : Streams frames (Known (Stream frames))) (hloop : p.Looping) :
    ∃ m' done' rest' part' n' k',
      Parsing frames e received (frameStep p) m' done' rest' part' n' k' ∧
      (frameStep p).unread < p.unread := by
  have halong : Along frames (Known (Stream frames)) p m done rest part n k :=
    ⟨h.scan, h.synced, hloop.1⟩
  have hstep := halong.frameStep parseFail hstream (known_side _) hloop
  have hfits := h.scan.fits
  rw [FxUDPConnectSock.frameStep]
  generalize p.frameStep procRecv BinaryDataHeader.vtable parseFail = q at hstep ⊢
  cases hstep with
  | moved moves begun =>
    have hbehind := moves.behind
    refine ⟨_, _, _, _, _, _, ⟨moves.along.scan, moves.along.synced, begun h.begun,
      moves.taken.trans h.taken, fun _ => ?_, ?_, ?_⟩, moves.less⟩
    · rcases h.looping hloop.1 with hall | hend
      · exact Or.inl (by omega)
      · exact Or.inr (by omega)
    · exact fun hc => nomatch moves.along.exit.symm.trans hc
    · exact fun hc => nomatch moves.along.exit.symm.trans hc
  | joined hlt needData moves begun =>
    have hbehind := moves.behind
    refine ⟨_, _, _, _, _, _, ⟨moves.along.scan, moves.along.synced, begun,
      moves.taken.trans h.taken, fun _ => Or.inl (by omega), ?_, ?_⟩, moves.less⟩
    · exact fun hc => nomatch moves.along.exit.symm.trans hc
    · exact fun hc => nomatch moves.along.exit.symm.trans hc
  | waits hlt needData scan synced exit idle htaken less =>
    refine ⟨_, [], rest, 0, 0, k, ⟨scan, synced, fun hc => absurd idle hc,
      htaken.trans h.taken, ?_, fun _ => ⟨idle, hlt⟩, ?_⟩, less⟩
    · exact fun hc => nomatch exit.symm.trans hc
    · exact fun hc => nomatch exit.symm.trans hc

/-- Behind the loop the next frame is not complete. -/
theorem Parsing.incomplete (h : Parsing frames e received p m done rest part n k)
    (hstream : Streams frames (Known (Stream frames))) (hdone : ¬ p.Looping)
    (hapart : Apart frames e received.length) {f : List UInt8 × List UInt8}
    (hf : frames[k]? = some f) : received.length < (wire frames (k + 1)).length := by
  obtain ⟨hk, -⟩ := List.getElem?_eq_some_iff.mp hf
  obtain ⟨hge, -, -⟩ := hstream.wire f (List.mem_of_getElem? hf)
  have hwire := congrArg List.length (wire_succ hf)
  have hlen := h.scan.len
  rw [List.length_append] at hwire
  -- where the unparsed bytes begin, and how much of the frame stands before them
  obtain ⟨got, htaken, hgot, hlt⟩ : ∃ got : Nat,
      received.length = (wire frames k).length + got + rest.length ∧ (got = 0 ∨ 8 ≤ got) ∧
        got < f.1.length := by
    by_cases hneed : p.sock.needData = 0
    · have hidle := congrArg List.length (h.taken.symm.trans (h.synced.idle hneed))
      rw [List.length_append] at hidle
      exact ⟨0, by omega, Or.inl rfl, by omega⟩
    · obtain ⟨g, got, hexpects⟩ := h.synced.progress hneed
      obtain rfl : f = g := Option.some.inj (hf.symm.trans hexpects.frame)
      have htaken := congrArg List.length (h.taken.symm.trans hexpects.taken)
      have hmissing := hexpects.missing
      have hbegun := h.begun hneed
      have hpos := ((h.scan.frame h.exit).progress hneed).1
      rw [hexpects.packetLen, BinaryDataHeader.headerLength] at hbegun
      simp only [List.length_append] at htaken
      exact ⟨got.length, htaken, Or.inr (by omega), by omega⟩
  cases hexit : p.exit with
  | looping =>
    have hn : n = 0 := by
      by_contra hc
      exact hdone ⟨hexit, by omega⟩
    rcases h.looping hexit with hall | hend
    · omega
    · rcases hapart k hk (by omega) (by omega) with hacross | hshort
      · omega
      · exact hshort
  | broke =>
    obtain ⟨hneed, hshort⟩ := h.broke hexit
    have hidle := congrArg List.length (h.taken.symm.trans (h.synced.idle hneed))
    rw [List.length_append] at hidle
    omega
  | returned => exact absurd hexit h.exit

/-! ### Calls -/

/-- Between two calls: the first `k` frames are announced, and what follows them is in the ring. -/
structure Follows (frames : List (List UInt8 × List UInt8)) (s : Sock) (m w : List UInt8)
    (part k : Nat) : Prop where
  ready : Ready (Known (Stream frames)) s m w part
  synced : Synced frames s w k
  begun : Begun s

theorem Follows.sameFrame {m' : List UInt8} (h : Follows frames s m w part k)
    (hholds : Holds (Known (Stream frames)) s' m' w part) (hsame : SameFrame s s') :
    Follows frames s' m' w part k := by
  refine ⟨h.ready.sameFrame hholds hsame, h.synced.sameFrame hsame, ?_⟩
  rw [Begun, hsame.needData, hsame.packetLen]
  exact h.begun

/-- The loop over what has been delivered comes to its end. -/
theorem Follows.parses {m' xs : List UInt8} (h : Follows frames s m w part k)
    (hstream : Streams frames (Known (Stream frames)))
    (hholds : Holds (Known (Stream frames)) s' m' (w ++ xs) part) (hgrown : Grown s s' xs)
    (hne : xs ≠ []) {fuel : Nat} (hfuel : 1073741825 < fuel) :
    ∃ region t p m done rest part n k, s'.usedCursorPtr procRecv = (region, t) ∧
      While.run Parse.Looping frameStep fuel (Parse.start region t) = some p ∧ ¬ p.Looping ∧
      Parsing frames (ringEnd s) (s.taken ++ xs) p m done rest part n k := by
  have hside := known_side (Stream frames)
  have hframe := hgrown.frame
  have hready : Ready (Known (Stream frames)) s' m' (w ++ xs) part := by
    refine ⟨hholds, fun hneed => h.ready.frame.idle (hframe.needData.symm.trans hneed), ?_⟩
    rw [hframe.needData, hframe.packetLen]
    exact h.ready.frame.progress
  obtain ⟨m₂, s₂, ptr, n, hptr, hpos, hscan, hcut, hio⟩ := hready.start hside (by simp [hne])
  have htaken : s₂.taken = s.taken ++ xs := hio.taken.trans hframe.taken
  have huseLen := FxLoopBuff.getUseLen_eq h.ready.holds.rep h.ready.holds.marks
  have hfits := hscan.fits
  have hstart : Parsing frames (ringEnd s) (s.taken ++ xs) (Parse.start ⟨ptr, n⟩ s₂) m₂ []
      (w ++ xs) part n k := by
    refine ⟨hscan, ⟨h.synced.le, ?_, ?_, ?_⟩, ?_, htaken, fun _ => ?_, ?_, ?_⟩
    · exact (hio.announced.trans hframe.announced).trans h.synced.announced
    · intro hneed
      have hneed' := (hio.needData.trans hframe.needData).symm.trans hneed
      simp only [Parse.start, htaken, h.synced.idle hneed', List.append_assoc]
    · simp only [Parse.start, hio.needData, hframe.needData]
      intro hneed
      obtain ⟨f, got, hexpects⟩ := h.synced.progress hneed
      refine ⟨f, got, hexpects.frame, ?_, hexpects.missing, ?_⟩
      · exact (hio.packetLen.trans hframe.packetLen).trans hexpects.packetLen
      · simp only [htaken, hexpects.taken, List.append_assoc]
    · simp only [Begun, Parse.start, hio.needData, hio.packetLen, hframe.needData,
        hframe.packetLen]
      exact h.begun
    · rcases Nat.lt_or_ge n (w ++ xs).length with hlt | hge
      · have hend := hcut hlt
        rw [hgrown.useCursor, hgrown.totalLen] at hend
        rw [List.length_append] at hfits
        simp only [ringEnd, huseLen, List.length_append]
        exact Or.inr (by omega)
      · exact Or.inl (by omega)
    · intro hc
      cases hc
    · intro hc
      cases hc
  have hunread := hscan.unread_eq
  have hbound := hscan.bounded
  simp only [List.length_nil] at hbound
  have hfuel' : (Parse.start ⟨ptr, n⟩ s₂).unread < fuel := by
    rw [hunread]
    split <;> omega
  obtain ⟨p, hrun, ⟨m₃, done, rest, part₃, n₃, k₃, hparsing⟩, hdone⟩ :=
    While.total (fun _ => True)
      (fun p => ∃ m done rest part n k,
        Parsing frames (ringEnd s) (s.taken ++ xs) p m done rest part n k) Parse.unread
      (by
        rintro p ⟨m, done, rest, part, n, k, hparsing⟩ hloop -
        obtain ⟨m', done', rest', part', n', k', hnext, hless⟩ :=
          hparsing.frameStep hstream hloop
        exact ⟨⟨m', done', rest', part', n', k', hnext⟩, hless⟩)
      ⟨m₂, [], w ++ xs, part, n, k, hstart⟩ (fun _ _ _ => trivial) hfuel'
  exact ⟨_, s₂, p, m₃, done, rest, part₃, n₃, k₃, hptr, hrun, hdone, hparsing⟩

theorem Parsing.finish (h : Parsing frames e received p m done rest part n k) :
    ∃ m' part', Follows frames (p.finish procRecv) m' rest part' k ∧
      (p.finish procRecv).taken = received := by
  obtain ⟨m', hready, hsame⟩ := h.scan.finish (known_side _) h.exit
  refine ⟨m', _, ⟨hready, h.synced.sameFrame hsame, ?_⟩, hsame.taken.trans h.taken⟩
  rw [Begun, hsame.needData, hsame.packetLen]
  exact h.begun

/-- Between two calls: the first `k` frames are announced, and the next one is not complete. -/
structure Settled (frames : List (List UInt8 × List UInt8)) (s : Sock) (m w : List UInt8)
    (part k : Nat) : Prop where
  ready : Ready (Known (Stream frames)) s m w part
  synced : Synced frames s w k
  begun : Begun s
  incomplete : ∀ f, frames[k]? = some f → s.taken.length < (wire frames (k + 1)).length

theorem Settled.follows (h : Settled frames s m w part k) : Follows frames s m w part k :=
  ⟨h.ready, h.synced, h.begun⟩

theorem Follows.settled (h : Follows frames s m w part k)
    (hincomplete : ∀ f, frames[k]? = some f → s.taken.length < (wire frames (k + 1)).length) :
    Settled frames s m w part k :=
  ⟨h.ready, h.synced, h.begun, hincomplete⟩

theorem Settled.sameFrame {m' : List UInt8} (h : Settled frames s m w part k)
    (hholds : Holds (Known (Stream frames)) s' m' w part) (hsame : SameFrame s s') :
    Settled frames s' m' w part k := by
  apply (h.follows.sameFrame hholds hsame).settled
  rw [hsame.taken]
  exact h.incomplete

/-- What has been delivered is parsed. -/
theorem Settled.parseMessage {m' xs : List UInt8} (h : Settled frames s m w part k)
    (hstream : Streams frames (Known (Stream frames)))
    (hholds : Holds (Known (Stream frames)) s' m' (w ++ xs) part) (hgrown : Grown s s' xs)
    (hne : xs ≠ []) (hapart : Apart frames (ringEnd s) (s.taken ++ xs).length) {fuel : Nat}
    (hfuel : 1073741825 < fuel) :
    ∃ t, parseMessage fuel s' = some t ∧ ∃ m w part k, Settled frames t m w part k := by
  obtain ⟨region, s₂, p, m₃, done, rest, part₃, n, k₃, hptr, hrun, hdone, hparsing⟩ :=
    h.follows.parses hstream hholds hgrown hne hfuel
  obtain ⟨m₄, part₄, hfollows, htaken⟩ := hparsing.finish
  refine ⟨p.finish procRecv, ?_, m₄, rest, part₄, k₃, hfollows.settled fun f hf => ?_⟩
  · simp only [FxUDPConnectSock.parseMessage, hptr, hrun, Option.map_some]
  · rw [htaken]
    exact hparsing.incomplete hstream hdone hapart hf

/-! ### Runs -/

/-- The packets carry the stream of the frames. -/
def Continues (frames : List (List UInt8 × List UInt8)) (u : FxUDPConnectSock) : Op → Prop
  | .onRecv _ _ ret _ => Stream frames (u.sock.taken ++ arrived ret u)
  | .update _ _ | .push _ | .main | .delayClose => True

/-- What arrives does not complete a frame behind the end of the ring, unless a header stands
across it. `OnRecv` first resets a ring that the main thread has emptied. -/
def Parsed (frames : List (List UInt8 × List UInt8)) (u : FxUDPConnectSock) : Op → Prop
  | .onRecv _ _ ret sched =>
    u.sock.isConnected = true →
      Apart frames (ringEnd (RecvSock.clearIfEmpty procRecv { u.sock with sched := sched }))
        (u.sock.taken ++ arrived ret u).length
  | .update _ _ | .push _ | .main | .delayClose => True

/-- While the socket is open every frame whose bytes are all in the ring has been announced. -/
def NoneStranded (frames : List (List UInt8 × List UInt8)) (s : Sock) : Prop :=
  s.state = .establish → ∀ k ≤ frames.length, wire frames k <+: s.taken →
    lens frames k <+: recvLens s.announced

/-- The socket is closed, or nothing is stranded in it. -/
def Sound (frames : List (List UInt8 × List UInt8)) (s : Sock) : Prop :=
  s.state ≠ .establish ∨ ∃ m w part k, Settled frames s m w part k

theorem Settled.noneStranded (h : Settled frames s m w part k) : NoneStranded frames s := by
  intro _ j hj hprefix
  have hle := hprefix.length_le
  have hjk : j ≤ k := by
    by_contra hlt
    have hf : frames[k]? = some frames[k] := List.getElem?_eq_getElem (by omega)
    have hshort := h.incomplete _ hf
    have hmono := congrArg List.length
      (wire_between (show k + 1 ≤ j by omega) : wire frames j = _)
    rw [List.length_append] at hmono
    omega
  rw [h.synced.announced, lens, lens, List.map_take, List.map_take]
  exact List.take_prefix_take_left hjk

/-- What a packet completes is delivered and parsed. -/
theorem Settled.updateRecvWindow {u : FxUDPConnectSock} {xs : List UInt8} {fuel : Nat}
    (h : Settled frames s m w part k) (hstream : Streams frames (Known (Stream frames)))
    (hsock : u.sock = s)
    (hxs : xs = payloads (span u.recvWindow.btBegin (succ (newAck u.recvWindow u.recvWindow.count
      u.recvWindow.btBegin (pred u.recvWindow.btBegin)))) u.recvWindow)
    (hcontinues : Stream frames (s.taken ++ xs))
    (hapart : Apart frames (ringEnd s) (s.taken ++ xs).length) (hfuel : 1073741825 < fuel) :
    ∃ u', updateRecvWindow fuel u = some u' ∧ Sound frames u'.sock := by
  subst hsock
  simp only [FxUDPConnectSock.updateRecvWindow]
  generalize span u.recvWindow.btBegin _ = n at hxs
  rcases deliver_cases n false u h.ready.holds (fun ys hys => by
      rw [← hxs] at hys
      exact ((List.prefix_append_right_inj u.sock.taken).mpr hys).trans hcontinues) with
    ⟨m₁, u₁, hdeliver, hholds, hgrown⟩ | ⟨u₁, hdeliver, hstate, -⟩
  · rw [← hxs] at hdeliver hholds hgrown
    simp only [hdeliver, Bool.false_or]
    by_cases hne : xs = []
    · subst hne
      rw [List.append_nil] at hholds
      have hframe : SameFrame u.sock u₁.sock := by
        have hsame := hgrown.frame
        rw [List.append_nil] at hsame
        exact hsame
      rw [if_neg (by simp)]
      exact ⟨_, rfl, Or.inr ⟨m₁, w, part, k, h.sameFrame hholds hframe⟩⟩
    · obtain ⟨t, hparse, m₂, w₂, part₂, k₂, ht⟩ :=
        h.parseMessage hstream hholds hgrown hne hapart hfuel
      rw [if_pos (by simpa using hne), hparse]
      exact ⟨_, rfl, Or.inr ⟨m₂, w₂, part₂, k₂, ht⟩⟩
  · simp only [hdeliver]
    exact ⟨u₁, rfl, Or.inl hstate⟩

/-- A packet of the established peer takes its slot, or it is dropped. -/
theorem procPacket_eq (fuel : Nat) (clock : Nat → Rat) (btBufferId nLen : Nat)
    (refPacket : UDPPacketHeader) (u : FxUDPConnectSock) :
    ∃ v : FxUDPConnectSock, v.sock = u.sock ∧
      v.recvWindow = (takeSlot refPacket.cSyn btBufferId nLen u.recvWindow).2 ∧
      procPacket fuel clock btBufferId nLen refPacket u =
        if (takeSlot refPacket.cSyn btBufferId nLen u.recvWindow).1 then updateRecvWindow fuel v
        else some v := by
  obtain ⟨hsock, hwindow, -⟩ := (procAck_acked clock refPacket.cAck u).receiving
  simp only [FxUDPConnectSock.procPacket]
  generalize procAck clock refPacket.cAck u = u₁ at hsock hwindow
  have hwindow' : u₁.countSameAck.recvWindow = u.recvWindow := hwindow
  rw [hwindow']
  exact ⟨recordAck { u₁.countSameAck with
    recvWindow := (takeSlot refPacket.cSyn btBufferId nLen u.recvWindow).2 }, hsock, rfl, rfl⟩

theorem Settled.procPacket {u : FxUDPConnectSock} {btBufferId nLen : Nat}
    {refPacket : UDPPacketHeader} {clock : Nat → Rat} {xs : List UInt8} {fuel : Nat}
    (h : Settled frames u.sock m w part k) (hstream : Streams frames (Known (Stream frames)))
    (hxs : xs = if (takeSlot refPacket.cSyn btBufferId nLen u.recvWindow).1 then
      let w := (takeSlot refPacket.cSyn btBufferId nLen u.recvWindow).2
      payloads (span w.btBegin (succ (newAck w w.count w.btBegin (pred w.btBegin)))) w else [])
    (hcontinues : Stream frames (u.sock.taken ++ xs))
    (hapart : Apart frames (ringEnd u.sock) (u.sock.taken ++ xs).length)
    (hfuel : 1073741825 < fuel) :
    ∃ u', procPacket fuel clock btBufferId nLen refPacket u = some u' ∧ Sound frames u'.sock := by
  obtain ⟨v, hsock, hwindow, hproc⟩ := procPacket_eq fuel clock btBufferId nLen refPacket u
  rw [hproc]
  by_cases hslot : (takeSlot refPacket.cSyn btBufferId nLen u.recvWindow).1 = true
  · rw [if_pos hslot] at hxs ⊢
    rw [← hwindow] at hxs
    exact h.updateRecvWindow hstream hsock hxs hcontinues hapart hfuel
  · rw [if_neg hslot]
    refine ⟨v, rfl, Or.inr ⟨m, w, part, k, ?_⟩⟩
    rw [hsock]
    exact h

theorem Settled.onRecv {u : FxUDPConnectSock} {fuel : Nat} {clock : Nat → Rat} {ret : RecvRet}
    (h : Settled frames u.sock m w part k) (hstream : Streams frames (Known (Stream frames)))
    (hcontinues : Stream frames (u.sock.taken ++ arrived ret u))
    (hparsed : u.sock.isConnected = true → Apart frames
      (ringEnd (RecvSock.clearIfEmpty procRecv u.sock)) (u.sock.taken ++ arrived ret u).length)
    (hfuel : 1073741825 < fuel) :
    ∃ u', onRecv fuel clock ret u = some u' ∧ Sound frames u'.sock := by
  have hside := known_side (Stream frames)
  by_cases hconn : u.sock.isConnected = false
  · exact ⟨u, if_pos hconn, Or.inr ⟨m, w, part, k, h⟩⟩
  have hapart := hparsed (by simpa using hconn)
  obtain ⟨m₁, h₁, hsame, -⟩ := h.ready.holds.clearIfEmpty hside
  have hsettled := h.sameFrame h₁ hsame
  have htaken := hsame.taken
  rw [FxUDPConnectSock.onRecv, if_neg hconn]
  generalize RecvSock.clearIfEmpty procRecv u.sock = s₁ at *
  rw [← htaken] at hcontinues hapart
  simp only [arrived] at hcontinues hapart ⊢
  generalize u.recvWindow.allocate = slot at *
  obtain ⟨btBufferId, w₁⟩ := slot
  simp only at hcontinues hapart ⊢
  by_cases hfull : btBufferId ≥ windowSize
  · rw [if_pos hfull]
    exact ⟨_, rfl, Or.inl (fail_state _ _)⟩
  rw [if_neg hfull]
  cases ret with
  | error errno =>
    simp only
    by_cases htransient : (RecvRet.error errno).Transient
    · rw [if_pos htransient]
      exact ⟨_, rfl, Or.inr ⟨m₁, w, part, k,
        hsettled.sameFrame (h₁.io hside rfl rfl) ⟨rfl, rfl, rfl, rfl, rfl⟩⟩⟩
    · rw [if_neg htransient]
      exact ⟨_, rfl, Or.inl (fail_state _ _)⟩
  | data bytes =>
    simp only at hcontinues hapart ⊢
    generalize bytes.take bufferSize = packet at hcontinues hapart ⊢
    by_cases hempty : packet.length = 0
    · rw [if_pos hempty]
      exact ⟨_, rfl, Or.inl (fail_state _ _)⟩
    rw [if_neg hempty]
    by_cases hshort : packet.length < UDPPacketHeader.headSize
    · rw [if_pos hshort]
      exact ⟨_, rfl, Or.inl (fail_state _ _)⟩
    rw [if_neg hshort]
    rw [if_neg (not_or.mpr ⟨hfull, hshort⟩)] at hcontinues hapart
    generalize UDPPacketHeader.ofBuffer _ = refPacket at hcontinues hapart ⊢
    by_cases hstatus : refPacket.cStatus ≠ ESocketState.establish.code
    · rw [if_pos hstatus]
      exact ⟨_, rfl, Or.inl (fail_state _ _)⟩
    rw [if_neg hstatus]
    refine hsettled.procPacket hstream ?_ hcontinues hapart hfuel
    rw [not_not.mp hstatus]
    simp only [true_and]

theorem updateRecvWindow_mono {u u' : FxUDPConnectSock} {fuel fuel' : Nat} (hle : fuel ≤ fuel')
    (h : updateRecvWindow fuel u = some u') : updateRecvWindow fuel' u = some u' := by
  simp only [FxUDPConnectSock.updateRecvWindow] at h ⊢
  split at h
  · exact h
  · split_ifs at h ⊢
    · simp only [FxUDPConnectSock.parseMessage] at h ⊢
      obtain ⟨t, ht, hu'⟩ := Option.map_eq_some_iff.mp h
      obtain ⟨p, hp, hfinish⟩ := Option.map_eq_some_iff.mp ht
      rw [While.run_mono hle hp, Option.map_some, Option.map_some, hfinish, hu']
    · exact h

theorem procPacket_mono {u u' : FxUDPConnectSock} {fuel fuel' btBufferId nLen : Nat}
    {clock : Nat → Rat} {refPacket : UDPPacketHeader} (hle : fuel ≤ fuel')
    (h : procPacket fuel clock btBufferId nLen refPacket u = some u') :
    procPacket fuel' clock btBufferId nLen refPacket u = some u' := by
  simp only [FxUDPConnectSock.procPacket] at h ⊢
  split_ifs at h ⊢
  · exact updateRecvWindow_mono hle h
  · exact h

/-- More fuel changes nothing. -/
theorem onRecv_mono {u u' : FxUDPConnectSock} {fuel fuel' : Nat} {clock : Nat → Rat}
    {ret : RecvRet} (hle : fuel ≤ fuel') (h : onRecv fuel clock ret u = some u') :
    onRecv fuel' clock ret u = some u' := by
  cases ret with
  | error errno => exact h
  | data bytes =>
    simp only [FxUDPConnectSock.onRecv] at h ⊢
    split_ifs at h ⊢
    · exact h
    · exact h
    · exact h
    · exact h
    · exact h
    · exact procPacket_mono hle h

/-- A call of `OnRecv` with the main thread's turns during it. -/
theorem Settled.call {u : FxUDPConnectSock} {fuel : Nat} {clock : Nat → Rat} {ret : RecvRet}
    {sched : List Nat} (h : Settled frames u.sock m w part k)
    (hstream : Streams frames (Known (Stream frames)))
    (hcontinues : Continues frames u (.onRecv fuel clock ret sched))
    (hparsed : Parsed frames u (.onRecv fuel clock ret sched)) (hfuel : 1073741825 < fuel) :
    ∃ u', step u (.onRecv fuel clock ret sched) = some u' ∧ Sound frames u'.sock := by
  have hsched : Settled frames { u.sock with sched := sched } m w part k :=
    h.sameFrame (h.ready.holds.io (known_side _) rfl rfl) ⟨rfl, rfl, rfl, rfl, rfl⟩
  exact Settled.onRecv (u := { u with sock := { u.sock with sched := sched } }) hsched hstream
    hcontinues hparsed hfuel

/-- What a step does to the socket when no datagram comes. -/
theorem holds_own {u u' : FxUDPConnectSock} {op : Op} (h : Holds (Known P) u.sock m w part)
    (hop : ∀ fuel clock ret sched, op ≠ .onRecv fuel clock ret sched)
    (hstep : step u op = some u') :
    u'.sock.state ≠ .establish ∨
      ∃ m', Holds (Known P) u'.sock m' w part ∧ SameFrame u.sock u'.sock := by
  cases op with
  | onRecv fuel clock ret sched => exact absurd rfl (hop fuel clock ret sched)
  | update dTime answers =>
    obtain rfl := Option.some.inj hstep
    rcases update_cases dTime answers u with hsame | ⟨hfail, -, -⟩
    · rw [hsame.sock]
      exact Or.inr ⟨m, h, (SameIo.refl _).frame⟩
    · rw [hfail]
      exact Or.inl (fail_state _ _)
  | push pTemData =>
    obtain rfl := Option.some.inj hstep
    rw [pushFrame_sock]
    exact Or.inr ⟨m, h, (SameIo.refl _).frame⟩
  | main =>
    obtain rfl := Option.some.inj hstep
    obtain ⟨m', hholds, hio, -⟩ := h.mainStep (known_side _)
    exact Or.inr ⟨m', hholds, hio.frame⟩
  | delayClose =>
    obtain rfl := Option.some.inj hstep
    simp only
    split_ifs
    · exact Or.inl (close_state _)
    · exact Or.inr ⟨m, h, (SameIo.refl _).frame⟩

theorem Sound.step {u u' : FxUDPConnectSock} {op : Op} (h : Sound frames u.sock)
    (hstream : Streams frames (Known (Stream frames))) (hcontinues : Continues frames u op)
    (hparsed : Parsed frames u op) (hstep : step u op = some u') : Sound frames u'.sock := by
  rcases h with hclosed | ⟨m, w, part, k, h⟩
  · exact Or.inl (closed_step hclosed hstep)
  by_cases hrecv : ∃ fuel clock ret sched, op = .onRecv fuel clock ret sched
  · obtain ⟨fuel, clock, ret, sched, rfl⟩ := hrecv
    have hcontinues' : Continues frames u (.onRecv (max fuel 1073741826) clock ret sched) :=
      hcontinues
    obtain ⟨t, ht, hsound⟩ := h.call hstream hcontinues' hparsed (by omega)
    have hmono := onRecv_mono (Nat.le_max_left fuel 1073741826) hstep
    obtain rfl := Option.some.inj (ht.symm.trans hmono)
    exact hsound
  · rcases holds_own h.ready.holds (fun fuel clock ret sched hop =>
        hrecv ⟨fuel, clock, ret, sched, hop⟩) hstep with hclosed | ⟨m', hholds, hsame⟩
    · exact Or.inl hclosed
    · exact Or.inr ⟨m', w, part, k, h.sameFrame hholds hsame⟩

/-- A socket whose ring is new. -/
structure Opened (s : Sock) : Prop where
  rep : s.recvBuf.Rep []
  marks : s.recvBuf.Marks 0
  small : s.recvBuf.totalLen ≤ 1073741824
  needData : s.needData = 0
  events : recvLens s.events = []
  announced : recvLens s.announced = []
  taken : s.taken = []
  popped : s.popped = []

theorem Opened.settled (h : Opened s) (hpos : ∀ f ∈ frames, 0 < f.1.length) :
    Settled frames s [] [] 0 0 := by
  refine ⟨⟨⟨h.rep, h.marks, h.small, ?_, ?_, ?_⟩, ?_, ?_⟩, ?_, ?_, ?_⟩
  · rw [h.taken, h.popped]
    rfl
  · rw [h.events]
    rfl
  · rw [Known, h.taken]
    exact List.nil_prefix
  · exact fun _ => ⟨rfl, rfl⟩
  · exact fun hc => absurd h.needData hc
  · exact ⟨Nat.zero_le _, h.announced, fun _ => h.taken, fun hc => absurd h.needData hc⟩
  · exact fun hc => absurd h.needData hc
  · intro f hf
    have := hpos f (List.mem_of_getElem? hf)
    rw [h.taken, wire_succ hf, List.length_append, List.length_nil]
    omega

/-- As long as no frame is completed behind the end of the ring, unless a header stands across it,
no call leaves a complete frame unannounced. And every further call returns. -/
theorem onRecv_strands_nothing {messages : List (List UInt8)} {u₀ u : FxUDPConnectSock}
    {ops : List Op} (hopened : Opened u₀.sock)
    (hlen : ∀ x ∈ messages, 8 + x.length < 2147483648)
    (hops : Transition.Always step (fun u op =>
      Continues (messages.map FxTCPConnectSock.encode) u op ∧
        Parsed (messages.map FxTCPConnectSock.encode) u op) u₀ ops)
    (hrun : Transition.run step u₀ ops = some u) :
    NoneStranded (messages.map FxTCPConnectSock.encode) u.sock ∧
      ∀ fuel clock ret sched,
        Continues (messages.map FxTCPConnectSock.encode) u (.onRecv fuel clock ret sched) →
        Parsed (messages.map FxTCPConnectSock.encode) u (.onRecv fuel clock ret sched) →
        1073741825 < fuel → (step u (.onRecv fuel clock ret sched)).isSome := by
  have hstream := streams hlen
  have hopen := hopened.settled fun f hf => by
    have := (hstream.wire f hf).1
    omega
  have hstep : ∀ u op u', Sound (messages.map FxTCPConnectSock.encode) u.sock →
      Continues (messages.map FxTCPConnectSock.encode) u op ∧
        Parsed (messages.map FxTCPConnectSock.encode) u op → step u op = some u' →
      Sound (messages.map FxTCPConnectSock.encode) u'.sock :=
    fun _ _ _ h hop hs' => h.step hstream hop.1 hop.2 hs'
  have hsound := Transition.invariant_of_always hstep (Or.inr ⟨_, _, _, _, hopen⟩) hops hrun
  refine ⟨fun hstate => ?_, fun fuel clock ret sched hcontinues hparsed hfuel => ?_⟩
  · rcases hsound with hclosed | ⟨m, w, part, k, h⟩
    · exact absurd hstate hclosed
    · exact h.noneStranded hstate
  · rcases hsound with hclosed | ⟨m, w, part, k, h⟩
    · rw [show step u (.onRecv fuel clock ret sched) =
        some { u with sock := { u.sock with sched := sched } } from
          if_pos (by simpa [isConnected] using hclosed)]
      rfl
    · obtain ⟨t, ht, -⟩ := h.call hstream hcontinues hparsed hfuel
      rw [ht]
      rfl

/-- An accepted socket with a ring of `nRecvLen` bytes, whose peer sends the packet 2 next. -/
def accepted (nRecvLen : Int) : FxUDPConnectSock :=
  let window : SlidingWindow := ⟨fun _ _ => 0, 0, fun _ => 32, fun _ => 0, fun _ => 0, fun _ => 0,
    fun _ => 0, fun _ => 0, 2, 2⟩
  { sock := RecvSock.accepted ⟨fun _ => 0, []⟩ nRecvLen 64
    sendBuf := (FxLoopBuff.new.init 16 (some fun _ => 0)).2
    recvWindow := { window.clearBuffer with btEnd := 34 }
    sendWindow := window.clearBuffer
    delayTime := 0, delayAverage := 0, retryTime := 0, sendTime := 0, sendFrequency := 0
    sendDataTime := 0, sendDataFrequency := 0, sendWindowControl := 1
    sendWindowThreshhold := 32, ackRecvTime := 0, ackTimeoutRetry := 3, ackSameCount := 0
    quickRetry := false, sendAck := false, ackLast := 1, synLast := 1, pushed := [], sent := [] }

theorem opened_accepted {nRecvLen : Int} (hpos : 0 < nRecvLen) (hle : nRecvLen ≤ 1073741824) :
    Opened (accepted nRecvLen).sock := by
  have hfresh := fresh_accepted (⟨fun _ => 0, []⟩ : BinaryDataHeader) hpos hle 64
  exact ⟨hfresh.rep, hfresh.marks, hfresh.small, rfl, rfl, rfl, rfl, rfl⟩

/-- A datagram of the established peer. -/
def datagram (cSyn : UInt8) (payload : List UInt8) (sched : List Nat) : Op :=
  .onRecv 9 (fun _ => 0) (.data (4 :: cSyn :: 1 :: payload)) sched

instance (frames : List (List UInt8 × List UInt8)) (e : Int) (len : Nat) :
    Decidable (Apart frames e len) := by
  unfold Apart
  infer_instance

instance (frames : List (List UInt8 × List UInt8)) (u : FxUDPConnectSock) :
    (op : Op) → Decidable (Continues frames u op)
  | .onRecv _ _ _ _ => inferInstanceAs (Decidable (_ <+: _))
  | .update _ _ | .push _ | .main | .delayClose => inferInstanceAs (Decidable True)

instance (frames : List (List UInt8 × List UInt8)) (u : FxUDPConnectSock) :
    (op : Op) → Decidable (Parsed frames u op)
  | .onRecv _ _ _ _ => inferInstanceAs (Decidable (_ → _))
  | .update _ _ | .push _ | .main | .delayClose => inferInstanceAs (Decidable True)

/-- Two frames in two datagrams through a ring of 16 bytes, the second header across its end. -/
def wrappedOps : List Op :=
  [datagram 2 ((FxTCPConnectSock.encode [7, 8, 9]).1 ++ [0, 0]) [], .main, .main, .main,
    datagram 3 [0, 5, 84, 69, 83, 84, 1, 2, 3, 4, 5] [0, 1]]

theorem onRecv_strands_nothing_wrapped :
    ∃ u, Transition.run step (accepted 16) wrappedOps = some u ∧
      NoneStranded ([[7, 8, 9], [1, 2, 3, 4, 5]].map FxTCPConnectSock.encode) u.sock := by
  obtain ⟨u, hrun⟩ : ∃ u, Transition.run step (accepted 16) wrappedOps = some u :=
    Option.isSome_iff_exists.mp (by decide +kernel)
  exact ⟨u, hrun, (onRecv_strands_nothing (opened_accepted (by omega) (by omega)) (by decide)
    (by decide +kernel) hrun).1⟩

/-- Two frames of 8 and 10 bytes in two datagrams: the second datagram completes the second frame
behind the end of the ring. -/
def strandedOps : List Op :=
  [datagram 2 ((FxTCPConnectSock.encode []).1 ++ [0, 0, 0]) [], .main, .main, .main,
    datagram 3 [2, 84, 69, 83, 84, 1, 2] []]

/-- Both frames are in the ring and one is announced. -/
theorem onRecv_strands_frame :
    ∃ u, Transition.run step (accepted 16) strandedOps = some u ∧
      u.sock.state = .establish ∧
      u.sock.taken = wire ([[], [1, 2]].map FxTCPConnectSock.encode) 2 ∧
      recvLens u.sock.announced = [8] ∧
      ¬ NoneStranded ([[], [1, 2]].map FxTCPConnectSock.encode) u.sock := by
  obtain ⟨u, hrun⟩ : ∃ u, Transition.run step (accepted 16) strandedOps = some u :=
    Option.isSome_iff_exists.mp (by decide +kernel)
  have hfacts : (Transition.run step (accepted 16) strandedOps).map (fun u =>
      (u.sock.state, u.sock.taken, recvLens u.sock.announced)) =
      some (.establish, wire ([[], [1, 2]].map FxTCPConnectSock.encode) 2, [8]) := by
    decide +kernel
  rw [hrun, Option.map_some, Option.some.injEq, Prod.mk.injEq, Prod.mk.injEq] at hfacts
  obtain ⟨hstate, htaken, hannounced⟩ := hfacts
  refine ⟨u, hrun, hstate, htaken, hannounced, fun h => ?_⟩
  have hprefix := h hstate 2 (by decide) (htaken ▸ List.prefix_rfl)
  rw [hannounced] at hprefix
  exact absurd hprefix (by decide)

end FxUDPConnectSock
