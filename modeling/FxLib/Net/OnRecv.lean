import FxLib.Net.FrameLoop

/-!
# One call of OnRecv

Between two calls every consumed byte is marked (`Ready`). A call either returns before
its loop or enters it with `Scan`; the loop is then run by the total-correctness rule of
`While`, and `finish` marks what the loop has consumed.
-/

open MachineInt

namespace RecvSock

open Parse

variable {η : Type} {procRecv : ProcRecv η} {X : RecvSock η → Prop} {s : RecvSock η}
  {m w : List UInt8} {part : Nat}

structure Ready (X : RecvSock η → Prop) (s : RecvSock η) (m w : List UInt8) (part : Nat) :
    Prop where
  holds : Holds X s m w part
  frame : Frame s 0 part

/-- As long as something is unmarked the use cursor stays where it is. -/
structure SameUse (s s' : RecvSock η) (w : List UInt8) : Prop where
  totalLen : s'.recvBuf.totalLen = s.recvBuf.totalLen
  useCursor : w ≠ [] → s'.recvBuf.useCursor = s.recvBuf.useCursor

/-- Before the loop a call returns, closes the socket or has a region to parse. -/
inductive Chunk (X : RecvSock η → Prop) (ret : RecvRet) (s : RecvSock η) (w : List UInt8)
    (part : Nat) : Option Region × RecvSock η → Prop
  | later (m' : List UInt8) (s' : RecvSock η) (ready : Ready X s' m' w part)
      (same : SameFrame s s') (cursor : SameUse s s' w) : Chunk X ret s w part (none, s')
  | closed (m' : List UInt8) (t : RecvSock η) (dwValue : Int) (fatal : ret.Fatal)
      (holds : Holds X t m' w part) (header : t.header = s.header) :
      Chunk X ret s w part (none, t.fail dwValue)
  | parse (m' xs : List UInt8) (s' : RecvSock η) (region : Region) (n : Nat) (hne : xs ≠ [])
      (offered : ∃ bytes, ret = .data bytes ∧ xs <+: bytes) (hpos : 0 < n)
      (scan : Scan X (Parse.start region s') m' [] (w ++ xs) part n)
      (hcut : n < (w ++ xs).length →
        n ≤ w.length ∧ s.recvBuf.useCursor + n = s.recvBuf.totalLen)
      (same : SameFrame { s with taken := s.taken ++ xs } s') (cursor : SameUse s s' w) :
      Chunk X ret s w part (some region, s')

theorem close_state (s : RecvSock η) : s.close.state ≠ .establish := by
  simp only [close]
  split_ifs with h hconn
  · rcases h with h | h <;> simp [h]
  all_goals simp_all [isConnected, pushNetEvent]

/-- Reporting an error and closing does not touch the ring. -/
theorem Holds.fail (h : Holds X s m w part) (dwValue : Int) :
    Holds (fun _ => True) (s.fail dwValue) m w part := by
  have hsame := fail_same s dwValue
  have hring : (s.fail dwValue).recvBuf = s.recvBuf := by rw [hsame]
  have htaken : (s.fail dwValue).taken = s.taken := by rw [hsame]
  have hpopped : (s.fail dwValue).popped = s.popped := by rw [hsame]
  have hevents := (lens_fail s dwValue).1
  refine ⟨by rw [hring]; exact h.rep, by rw [hring]; exact h.marks, by rw [hring]; exact h.small,
    by rw [htaken, hpopped]; exact h.taken, by rw [hevents]; exact h.pending, trivial⟩

theorem fail_state (s : RecvSock η) (dwValue : Int) : (s.fail dwValue).state ≠ .establish :=
  close_state _

theorem fail_header (s : RecvSock η) (dwValue : Int) : (s.fail dwValue).header = s.header := by
  rw [fail_same]

theorem Ready.sameFrame {s' : RecvSock η} {m' : List UInt8} (h : Ready X s m w part)
    (hholds : Holds X s' m' w part) (hsame : SameFrame s s') : Ready X s' m' w part := by
  refine ⟨hholds, ?_, ?_⟩
  · rw [hsame.needData]
    exact h.frame.idle
  · rw [hsame.needData, hsame.packetLen]
    exact h.frame.progress

/-- The loop starts with the unmarked bytes, of which the region is a part. -/
theorem Ready.start (h : Ready X s m w part) (hside : MainSide procRecv X) (hne : w ≠ []) :
    ∃ m' s' ptr, ∃ n : Nat, s.usedCursorPtr procRecv = (⟨ptr, n⟩, s') ∧ 0 < n ∧
      Scan X (Parse.start ⟨ptr, n⟩ s') m' [] w part n ∧
      (n < w.length → s.recvBuf.useCursor + n = s.recvBuf.totalLen) ∧ SameIo s s' := by
  obtain ⟨m', s', ptr, n, hptr, hholds, hio, hn, hnpos, hin, hcut⟩ := h.holds.usedCursorPtr hside
  obtain ⟨hpos, hptr'⟩ := hnpos (List.length_pos_iff.mpr hne)
  have huse := hio.useCursor
  have htotal := hio.totalLen
  have huse0 := hholds.marks.use_nonneg
  refine ⟨m', s', ptr, n, hptr, hpos, ⟨hholds, rfl, rfl, hn, le_rfl, ?_, ?_, ?_, ?_, ?_, ?_⟩, hcut,
    hio⟩
  · simp [Parse.start]
  · simp only [Parse.start]
    omega
  · intro _
    simp only [Parse.start, hptr', Option.getD_some, List.length_nil]
    omega
  · intro _
    simp only [Parse.start, List.length_nil]
    omega
  · intro _ hlt
    have := hcut hlt
    simp only [Parse.start, List.length_nil]
    omega
  · intro _
    have hframe := h.frame
    refine ⟨?_, ?_⟩
    · simp only [Parse.start, hio.needData]
      exact hframe.idle
    · simp only [Parse.start, hio.needData, hio.packetLen]
      exact hframe.progress

/-- `recv` wrote `xs` behind the in cursor. -/
theorem Ready.parse (h : Ready X s m w part) (hside : MainSide procRecv X) {xs : List UInt8}
    (hne : xs ≠ []) (hfree : (xs.length : Int) ≤ s.recvBuf.freeLen)
    (hend : s.recvBuf.inCursor + (xs.length : Int) ≤ s.recvBuf.totalLen)
    (hgrow : ∀ t recvBuf, X t → t.taken = s.taken →
      X { t with recvBuf := recvBuf, taken := t.taken ++ xs }) :
    ∃ m' s₁ s₂ ptr, ∃ n : Nat, RecvSock.costBuff procRecv
        { s with recvBuf := s.recvBuf.copyIn (some s.recvBuf.inCursor) xs } xs.length = s₁ ∧
      { s₁ with taken := s₁.taken ++ xs }.usedCursorPtr procRecv = (⟨ptr, n⟩, s₂) ∧ 0 < n ∧
      Scan X (Parse.start ⟨ptr, n⟩ s₂) m' [] (w ++ xs) part n ∧
      (n < (w ++ xs).length → n ≤ w.length ∧ s.recvBuf.useCursor + n = s.recvBuf.totalLen) ∧
      SameFrame { s with taken := s.taken ++ xs } s₂ ∧ SameUse s s₂ w := by
  have hpos := List.length_pos_iff.mpr hne
  obtain ⟨m₁, s₁, hs₁, h₁, hframe₁, htotal₁, huse₁, -⟩ :=
    h.holds.receive hside hpos hfree hend hgrow
  have hready : Ready X { s₁ with taken := s₁.taken ++ xs } m₁ (w ++ xs) part := by
    have hframe := h.frame
    refine ⟨h₁, fun hneed => hframe.idle (hframe₁.needData.symm.trans hneed), ?_⟩
    simp only [hframe₁.needData, hframe₁.packetLen]
    exact hframe.progress
  obtain ⟨m₂, s₂, ptr, n, hptr, hnpos, hscan, hcut, hio₂⟩ := hready.start hside (by simp [hne])
  have hsame : SameFrame { s with taken := s.taken ++ xs } s₂ := by
    have hframe₂ := hio₂.frame
    refine ⟨hframe₂.needData.trans hframe₁.needData, hframe₂.packetLen.trans hframe₁.packetLen,
      hframe₂.header.trans hframe₁.header, ?_, hframe₂.announced.trans hframe₁.announced⟩
    rw [hframe₂.taken]
    simp only [hframe₁.taken]
  have hcursor : SameUse s s₂ w :=
    ⟨hio₂.totalLen.trans htotal₁, fun _ => hio₂.useCursor.trans huse₁⟩
  refine ⟨m₂, s₁, s₂, ptr, n, hs₁.symm, hptr, hnpos, hscan, fun hlt => ?_, hsame, hcursor⟩
  -- what was received stands behind the old unmarked bytes and does not pass the end of the ring
  have hend' := hcut hlt
  have hstraight := h.holds.marks.straight
  have hlooped := h.holds.marks.looped
  have hin0 := h.holds.rep.in_nonneg
  simp only at hend'
  rw [List.length_append] at hlt
  cases hl : s.recvBuf.useLoop with
  | false =>
    have := hstraight hl
    exact ⟨by omega, by omega⟩
  | true =>
    have := hlooped hl
    exact ⟨by omega, by omega⟩

theorem Ready.recvChunk (h : Ready X s m w part) (hside : MainSide procRecv X) (ret : RecvRet)
    (hgrow : ∀ bytes xs, ret = .data bytes → xs <+: bytes → ∀ t recvBuf, X t → t.taken = s.taken →
      X { t with recvBuf := recvBuf, taken := t.taken ++ xs }) :
    Chunk X ret s w part (s.recvChunk procRecv ret) := by
  obtain ⟨m₁, h₁, hsame₁, htotal₁, huse₁⟩ := h.holds.clearIfEmpty hside
  obtain ⟨m₂, s₂, hptr, h₂, hio₂, -⟩ := h₁.inCursorPtr hside
  have hsame := hsame₁.trans hio₂.frame
  have hready := h.sameFrame h₂ hsame
  have hcursor : SameUse s s₂ w :=
    ⟨hio₂.totalLen.trans htotal₁, fun hne => hio₂.useCursor.trans (huse₁ hne)⟩
  simp only [RecvSock.recvChunk, hptr]
  by_cases hfull : s₂.recvBuf.freeLen = 0
  · rw [FxLoopBuff.getInCursorPtr_full hfull, if_pos le_rfl]
    exact .later m₂ s₂ hready hsame hcursor
  · obtain ⟨n, hregion, hpos, hfree, hend⟩ := FxLoopBuff.getInCursorPtr_eq h₂.rep hfull
    rw [hregion, if_neg (by simp only; omega)]
    cases ret with
    | error errno =>
      have hbare : Holds X { s₂ with errno := errno } m₂ w part := h₂.io hside rfl rfl
      by_cases htransient : (RecvRet.error errno).Transient
      · simp only [if_pos htransient]
        exact .later m₂ _ ⟨hbare, hready.frame.idle, hready.frame.progress⟩
          ⟨hsame.needData, hsame.packetLen, hsame.header, hsame.taken, hsame.announced⟩
          ⟨hcursor.totalLen, hcursor.useCursor⟩
      · simp only [if_neg htransient]
        exact .closed m₂ _ _ htransient hbare hsame.header
    | data bytes =>
      simp only
      generalize hxs : bytes.take (if sndLowat < (n : Int) then sndLowat else n).toNat = xs
      by_cases hzero : xs.length = 0
      · rw [if_pos hzero]
        have hfatal : (RecvRet.data bytes).Fatal := by
          have hlen := congrArg List.length hxs
          rw [List.length_take, hzero, sndLowat] at hlen
          refine List.eq_nil_of_length_eq_zero ?_
          split at hlen <;> omega
        exact .closed m₂ _ _ hfatal h₂ hsame.header
      · rw [if_neg hzero]
        have hle : xs.length ≤ n := by
          rw [← hxs, List.length_take, sndLowat]
          split <;> omega
        have hne : xs ≠ [] := by
          rintro rfl
          exact hzero rfl
        obtain ⟨m₃, s₃, s₄, ptr, k, hcost, huse, hk, hscan, hcut, hsame₄, hcursor₄⟩ :=
          hready.parse hside hne (by omega) (by omega) fun t recvBuf hX ht =>
            hgrow bytes xs rfl (hxs ▸ List.take_prefix _ _) t recvBuf hX (ht.trans hsame.taken)
        simp only [hcost, huse]
        rw [if_neg (by omega)]
        refine .parse m₃ xs s₄ _ k hne ⟨bytes, rfl, hxs ▸ List.take_prefix _ _⟩ hk hscan ?_ ?_ ?_
        · intro hlt
          obtain ⟨hn, hend⟩ := hcut hlt
          have hne : w ≠ [] := by
            rintro rfl
            exact absurd hn (by simp; omega)
          exact ⟨hn, by rw [← hcursor.useCursor hne, ← hcursor.totalLen]; exact hend⟩
        · refine ⟨hsame₄.needData.trans hsame.needData, hsame₄.packetLen.trans hsame.packetLen,
            hsame₄.header.trans hsame.header, ?_, hsame₄.announced.trans hsame.announced⟩
          rw [hsame₄.taken]
          simp only [hsame.taken]
        · exact ⟨hcursor₄.totalLen.trans hcursor.totalLen, fun hne =>
            (hcursor₄.useCursor hne).trans (hcursor.useCursor hne)⟩

/-- What the main thread keeps of the header, a `recv` keeps. -/
theorem header_recvChunk {P : η → Prop}
    (hyield : ∀ t : RecvSock η, P t.header → P (t.yield procRecv).header) (h : P s.header)
    (ret : RecvRet) : P (s.recvChunk procRecv ret).2.header := by
  have hfail : ∀ (t : RecvSock η) dwValue, P t.header → P (t.fail dwValue).header :=
    fun t dwValue ht => by rwa [fail_header]
  have hclear : P (s.clearIfEmpty procRecv).header := by
    simp only [RecvSock.clearIfEmpty]
    split
    · exact hyield _ (hyield s h)
    · exact hyield s h
  have hptr : P ((s.clearIfEmpty procRecv).inCursorPtr procRecv).2.header := hyield _ hclear
  rw [RecvSock.recvChunk]
  generalize RecvSock.inCursorPtr procRecv (s.clearIfEmpty procRecv) = chunk at hptr ⊢
  obtain ⟨region, t⟩ := chunk
  by_cases hfull : 0 ≥ region.len
  · simpa only [if_pos hfull] using hptr
  simp only [if_neg hfull]
  cases ret with
  | error errno =>
    simp only
    split_ifs
    · exact hptr
    · exact hfail _ _ hptr
  | data bytes =>
    simp only
    generalize List.take _ bytes = xs
    by_cases hend : xs.length = 0
    · simpa only [if_pos hend] using hfail _ _ hptr
    simp only [if_neg hend]
    have hcost : P (RecvSock.costBuff procRecv
        { t with recvBuf := t.recvBuf.copyIn region.ptr xs } xs.length).header := hyield _ hptr
    generalize RecvSock.costBuff procRecv _ _ = u at hcost ⊢
    have hused : P (RecvSock.usedCursorPtr procRecv
        { u with taken := u.taken ++ xs }).2.header := hyield _ hcost
    generalize RecvSock.usedCursorPtr procRecv _ = used at hused ⊢
    obtain ⟨region, v⟩ := used
    by_cases hnone : region.len ≤ 0
    · simpa only [if_pos hnone] using hfail _ _ hused
    · simpa only [if_neg hnone] using hused

/-- More fuel changes nothing. -/
theorem onRecv_mono {body : Parse η → Parse η} {fuel fuel' : Nat} {ret : RecvRet} {s' : RecvSock η}
    (hle : fuel ≤ fuel') (h : s.onRecv procRecv body fuel ret = some s') :
    s.onRecv procRecv body fuel' ret = some s' := by
  simp only [RecvSock.onRecv] at h ⊢
  split_ifs at h ⊢
  · exact h
  · split at h
    · exact h
    · obtain ⟨p, hp, hs'⟩ := Option.map_eq_some_iff.mp h
      rw [While.run_mono hle hp, Option.map_some, hs']

end RecvSock

namespace Parse

open RecvSock

variable {η : Type} {procRecv : ProcRecv η} {X : RecvSock η → Prop} {p : Parse η}
  {m done rest : List UInt8} {part n : Nat}

/-- Behind the loop the consumed bytes are marked. -/
theorem Scan.finish (h : Scan X p m done rest part n) (hside : MainSide procRecv X)
    (hexit : p.exit ≠ .returned) :
    ∃ m', Ready X (p.finish procRecv) m' rest (part + done.length) ∧
      SameFrame p.sock (p.finish procRecv) := by
  have hframe := h.frame hexit
  have hused := h.used
  rw [Parse.finish, if_neg hexit]
  by_cases hzero : done = []
  · subst hzero
    rw [if_neg (by rw [hused]; simp)]
    exact ⟨m, ⟨h.holds, hframe.idle, hframe.progress⟩, rfl, rfl, rfl, rfl, rfl⟩
  · have hpos := List.length_pos_iff.mpr hzero
    obtain ⟨m', s', hcost, hholds, hsame, _⟩ :=
      h.holds.costUsedBuff hside (n := done.length) hpos (by simp)
    rw [List.drop_left] at hholds
    rw [if_pos (by omega), hused, hcost]
    refine ⟨_, ⟨hholds, ?_, ?_⟩, hsame⟩
    · intro hneed
      rw [hsame.needData] at hneed
      have := (hframe.idle hneed).1
      omega
    · intro hneed
      rw [hsame.needData] at hneed ⊢
      rw [hsame.packetLen]
      obtain ⟨hpos, hlt, hlen⟩ := hframe.progress hneed
      refine ⟨hpos, hlt, ?_⟩
      push_cast
      omega

/-- What is left to parse, and one more while the loop goes on. -/
def unread (p : Parse η) : Nat :=
  (p.sock.recvBuf.getUseLen - p.nUsedLen).toNat + if p.Looping then 1 else 0

theorem Scan.unread_eq (h : Scan X p m done rest part n) :
    p.unread = rest.length + if p.Looping then 1 else 0 := by
  have huse := FxLoopBuff.getUseLen_eq h.holds.rep h.holds.marks
  have hused := h.used
  rw [List.length_append] at huse
  rw [Parse.unread]
  omega

end Parse
