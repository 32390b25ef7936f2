import FxLib.Lib.Transition
import FxLib.Net.FrameLoop
import FxLib.Net.TcpFraming
import Mathlib.Algebra.Order.BigOperators.Group.List

/-!
# Frame loops on a hostile stream

A peer may send anything. `Contained` is what a loop head then owes: the parse pointers stand in
the region that the ring handed out, no copy into the header object has left its buffer, and what
is announced is in the ring. It rests on the lengths that the headers announce, which are read from
unsigned fields into an `int`: `Sized` says which of them the loop can work with.
-/

open MachineInt

namespace RecvSock

variable {η : Type}

/-- The number of bytes in the receive ring. -/
def buffered (s : RecvSock η) : Int := s.recvBuf.totalLen - s.recvBuf.freeLen

/-- The bytes in the receive ring that are not marked. -/
def unparsed (s : RecvSock η) : List UInt8 :=
  Memory.readRing s.recvBuf.mem s.recvBuf.totalLen s.recvBuf.useCursor s.recvBuf.getUseLen.toNat

variable {X : RecvSock η → Prop} {s : RecvSock η} {m w : List UInt8} {part : Nat}

theorem Holds.unparsed_eq (h : Holds X s m w part) : s.unparsed = w := by
  rw [unparsed, FxLoopBuff.getUseLen_eq h.rep h.marks, Int.toNat_natCast]
  exact FxLoopBuff.readRing_useCursor h.rep h.marks

/-- What is announced and not yet handled is in the ring. -/
theorem Holds.covered (h : Holds X s m w part) {n : Nat} (hn : n ∈ recvLens s.events) :
    (n : Int) ≤ s.buffered := by
  have hle := List.le_sum_of_mem hn
  have hfree := h.rep.free
  have hpend := h.pending
  rw [List.length_append] at hfree
  rw [buffered]
  omega

end RecvSock

namespace Parse

open RecvSock

variable {η : Type}

/-! ### What a loop owes -/

structure Contained (InBuffer : η → Prop) (p : Parse η) : Prop where
  region : p.Looping → 0 ≤ p.nParserLen ∧ p.nParserLen + p.nLen ≤ p.nRegion
  copies : InBuffer p.sock.header
  announced : ∀ n ∈ recvLens p.sock.events, (n : Int) ≤ p.sock.buffered

/-- The loop ends, and all its heads are contained. -/
def Bounded (InBuffer : η → Prop) (body : Parse η → Parse η) (p : Parse η) : Prop :=
  (∃ fuel, (While.run Parse.Looping body fuel p).isSome) ∧
    ∀ q, While.Heads Parse.Looping body p q → Contained InBuffer q

/-! ### The lengths in the headers -/

/-- What a class reads from the bytes at the beginning of a frame, and which frames it refuses with
an error when the region holds so many of them. -/
structure HeaderRule where
  headerLen : List UInt8 → Nat
  pkgLen : List UInt8 → Int
  Refuses : Nat → List UInt8 → Prop

/-- Of the unparsed bytes `w` the region holds `n`. A frame ends behind its beginning, and behind
its header when the end of the ring cuts that; the head of the ring is then the new region. -/
def Sized (H : HeaderRule) : Nat → Nat → List UInt8 → Prop
  | 0, _, _ => True
  | k + 1, n, w =>
    n = 0 ∨ w.length < H.headerLen w ∨ H.Refuses n w ∨
      (0 < H.pkgLen w ∧ H.headerLen w ≤ n ∧
        Sized H k (n - (H.pkgLen w).toNat) (w.drop (H.pkgLen w).toNat)) ∨
      ((H.headerLen w : Int) ≤ H.pkgLen w ∧ n < H.headerLen w ∧
        Sized H k (w.length - (H.pkgLen w).toNat) (w.drop (H.pkgLen w).toNat))

instance decidableSized (H : HeaderRule) [∀ n w, Decidable (H.Refuses n w)] :
    (k n : Nat) → (w : List UInt8) → Decidable (Sized H k n w)
  | 0, _, _ => inferInstanceAs (Decidable True)
  | k + 1, _, _ =>
    have := decidableSized H k
    inferInstanceAs (Decidable (_ ∨ _ ∨ _ ∨ (_ ∧ _ ∧ _) ∨ (_ ∧ _ ∧ _)))

theorem sized_zero (H : HeaderRule) (k : Nat) (w : List UInt8) : Sized H k 0 w := by
  cases k with
  | zero => trivial
  | succ k => exact Or.inl rfl

/-! ### The invariant -/

variable {H : HeaderRule} {InBuffer : η → Prop} {procRecv : ProcRecv η} {p q : Parse η}
  {m done rest : List UInt8} {part n k : Nat}

/-- The loop goes on, and the frames that begin behind the one in progress are sized. -/
structure Digests (H : HeaderRule) (InBuffer : η → Prop) (p : Parse η) (m done rest : List UInt8)
    (part n k : Nat) : Prop where
  scan : Scan (fun _ => True) p m done rest part n
  exit : p.exit ≠ .returned
  copies : InBuffer p.sock.header
  sized : Sized H k (n - p.sock.needData.toNat) (rest.drop p.sock.needData.toNat)
  enough : rest.length ≤ k

/-- The loop goes on, or it has closed the socket and returned. -/
inductive InHand (H : HeaderRule) (InBuffer : η → Prop) (p : Parse η) : Prop
  | going (m done rest : List UInt8) (part n k : Nat)
      (h : Digests H InBuffer p m done rest part n k)
  | closed (m w : List UInt8) (part : Nat) (holds : Holds (fun _ => True) p.sock m w part)
      (exit : p.exit = .returned) (state : p.sock.state ≠ .establish)
      (copies : InBuffer p.sock.header)

/-- What is left to parse; nothing behind a `return`. -/
def weight (p : Parse η) : Nat := if p.exit = .returned then 0 else p.unread

/-- An iteration keeps the invariant and parses something. -/
def Advances (H : HeaderRule) (InBuffer : η → Prop) (p q : Parse η) : Prop :=
  InHand H InBuffer q ∧ q.weight < p.weight

theorem InHand.contained (h : InHand H InBuffer p) : Contained InBuffer p := by
  cases h with
  | going m done rest part n k h =>
    have hlen := h.scan.len
    have hregion := h.scan.region
    exact ⟨fun _ => ⟨h.scan.parser_nonneg, by omega⟩, h.copies, fun _ hn => h.scan.holds.covered hn⟩
  | closed m w part holds exit state copies =>
    refine ⟨fun hloop => ?_, copies, fun _ hn => holds.covered hn⟩
    cases exit.symm.trans hloop.1

theorem Digests.weight_eq (h : Digests H InBuffer p m done rest part n k) :
    p.weight = rest.length + if p.Looping then 1 else 0 := by
  rw [weight, if_neg h.exit, h.scan.unread_eq]

/-- A loop whose iterations advance is bounded. -/
theorem InHand.run {body : Parse η → Parse η}
    (hbody : ∀ p m done rest part n k, Digests H InBuffer p m done rest part n k → p.Looping →
      Advances H InBuffer p (body p)) (h : InHand H InBuffer p) {fuel : Nat}
    (hfuel : p.weight < fuel) :
    (∃ q, While.run Parse.Looping body fuel p = some q ∧ InHand H InBuffer q) ∧
      Bounded InBuffer body p := by
  have hstep : ∀ p, InHand H InBuffer p → p.Looping → True →
      InHand H InBuffer (body p) ∧ (body p).weight < p.weight := by
    intro p hkept hloop _
    cases hkept with
    | going m done rest part n k h => exact hbody p m done rest part n k h hloop
    | closed m w part holds exit => cases exit.symm.trans hloop.1
  obtain ⟨q, hrun, hkept, -⟩ := While.total (fun _ => True) (InHand H InBuffer) weight hstep h
    (fun _ _ _ => trivial) hfuel
  refine ⟨⟨q, hrun, hkept⟩, ⟨fuel, by rw [hrun]; rfl⟩, fun r hr => ?_⟩
  exact (While.Heads.invariant (fun _ => True) (InHand H InBuffer)
    (fun p hp hloop _ => (hstep p hp hloop trivial).1) h (fun _ _ _ => trivial) hr).contained

/-- The loop has moved over the next `need` bytes, or over all bytes of the region. -/
theorem Moved.advances {need : Int} (h : Moved procRecv (fun _ => True) p q m done rest part n need)
    (hscan : Scan (fun _ => True) p m done rest part n) (hloop : p.Looping) (hneed : 0 < need)
    (hexit : p.exit = .looping)
    (hcopies : InBuffer p.sock.header)
    (hsized : Sized H k (n - need.toNat) (rest.drop need.toNat)) (henough : rest.length - 1 ≤ k) :
    Advances H InBuffer p q := by
  have hlen := hscan.len
  have hfits := hscan.fits
  have hpos := hloop.2
  have hweight : p.weight = rest.length + 1 := by
    rw [weight, if_neg (by rw [hexit]; intro hc; cases hc), hscan.unread_eq, if_pos hloop]
  cases h with
  | completed m' hle scan announced =>
    have hdigests : Digests H InBuffer q m' [] (rest.drop need.toNat) 0 (n - need.toNat) k := by
      refine ⟨scan, ?_, ?_, ?_, ?_⟩
      · rw [announced.exit, hexit]
        intro hc
        cases hc
      · rw [announced.header]
        exact hcopies
      · rw [announced.needData]
        exact hsized
      · rw [List.length_drop]
        omega
    refine ⟨.going _ _ _ _ _ _ hdigests, ?_⟩
    rw [hdigests.weight_eq, hweight, List.length_drop]
    split <;> omega
  | kept hlt eq scan =>
    have hdigests : Digests H InBuffer q m (done ++ rest.take n) (rest.drop n) part 0
        (rest.length - 1) := by
      refine ⟨scan, ?_, ?_, ?_, ?_⟩
      · rw [eq, Parse.keepPartial, hexit]
        intro hc
        cases hc
      · rw [eq]
        exact hcopies
      · rw [Nat.zero_sub]
        exact sized_zero H _ _
      · rw [List.length_drop]
        omega
    refine ⟨.going _ _ _ _ _ _ hdigests, ?_⟩
    rw [hdigests.weight_eq, hweight, List.length_drop, if_neg (fun hc => ?_)]
    · omega
    · have := scan.len
      have := hc.2
      omega

theorem Digests.needStep (h : Digests H InBuffer p m done rest part n k)
    (hside : MainSide procRecv fun _ => True) (hloop : p.Looping) (hneed : p.sock.needData ≠ 0) :
    Advances H InBuffer p (p.needStep procRecv) := by
  have hpos := ((h.scan.frame h.exit).progress hneed).1
  have henough := h.enough
  have hmoved := h.scan.needStep hside hloop.1 hneed fun _ _ _ _ _ => trivial
  exact hmoved.advances h.scan hloop hpos hloop.1 h.copies h.sized (by omega)

/-- A header across the end of the ring has been put together, and its frame is begun. -/
theorem Split.advances (V : IFxDataHeader η) {r : Parse η} {hl : Nat}
    (h : Split (fun _ => True) r m (rest.drop n) n) (hside : MainSide procRecv fun _ => True)
    (hhl : V.getHeaderLength r.sock.header = hl) (hn : n < hl) (hle : hl ≤ rest.length)
    (hge : (hl : Int) ≤ r.sock.packetLen) (hlt : r.sock.packetLen < 2147483648)
    (hcopies : InBuffer r.sock.header)
    (hsized : Sized H k (rest.length - r.sock.packetLen.toNat) (rest.drop r.sock.packetLen.toNat))
    (henough : rest.length ≤ k + 1) (hpos : 0 < n) (hweight : p.weight = rest.length + 1) :
    Advances H InBuffer p (r.enterFrame procRecv V) := by
  have hentered := h.enterFrame V hside hhl hn (by rw [List.length_drop]; omega) hge hlt
    fun _ _ _ _ _ => trivial
  have hdrop : (rest.drop n).drop (hl - n) = rest.drop hl := by
    rw [List.drop_drop, Nat.add_sub_cancel' hn.le]
  have hregion : n + (rest.drop n).length - hl = rest.length - hl := by
    rw [List.length_drop]
    omega
  rw [hdrop, hregion] at hentered
  rcases hentered with ⟨hall, m', hscan, hann⟩ | ⟨hmore, hscan, hsock, hexit⟩
  · have hdigests : Digests H InBuffer (r.enterFrame procRecv V) m' [] (rest.drop hl) 0
        (rest.length - hl) k := by
      refine ⟨hscan, ?_, ?_, ?_, ?_⟩
      · rw [hann.exit, h.exit]
        intro hc
        cases hc
      · rw [hann.header]
        exact hcopies
      · rw [hann.needData]
        rwa [hall, Int.toNat_natCast] at hsized
      · rw [List.length_drop]
        omega
    refine ⟨.going _ _ _ _ _ _ hdigests, ?_⟩
    rw [hdigests.weight_eq, hweight, List.length_drop]
    split <;> omega
  · have hneed : (r.enterFrame procRecv V).sock.needData = r.sock.packetLen - hl := by rw [hsock]
    have hdigests : Digests H InBuffer (r.enterFrame procRecv V) m ((rest.drop n).take (hl - n))
        (rest.drop hl) n (rest.length - hl) k := by
      refine ⟨hscan, ?_, ?_, ?_, ?_⟩
      · rw [hexit, h.exit]
        intro hc
        cases hc
      · rw [hsock]
        exact hcopies
      · have hlast : hl + (r.sock.packetLen - hl).toNat = r.sock.packetLen.toNat := by omega
        rw [hneed, List.drop_drop, Nat.sub_sub, hlast]
        exact hsized
      · rw [List.length_drop]
        omega
    refine ⟨.going _ _ _ _ _ _ hdigests, ?_⟩
    rw [hdigests.weight_eq, hweight, List.length_drop]
    split <;> omega

/-- Reporting an error ends the loop with the socket closed. -/
structure Failed (p q : Parse η) : Prop where
  exit : q.exit = .returned
  state : q.sock.state ≠ .establish
  header : q.sock.header = p.sock.header
  holds : ∃ m w part, Holds (fun _ => True) q.sock m w part

theorem failed_fail {w : List UInt8} (h : Holds (fun _ => True) p.sock m w part) (dwValue : Int) :
    Failed p (p.fail dwValue) :=
  ⟨rfl, fail_state _ _, fail_header _ _, m, w, part, h.fail dwValue⟩

theorem Failed.advances {r : Parse η} (h : Failed r q) (hcopies : InBuffer r.sock.header)
    (hweight : 0 < p.weight) : Advances H InBuffer p q := by
  obtain ⟨m, w, part, hholds⟩ := h.holds
  refine ⟨.closed m w part hholds h.exit h.state ?_, ?_⟩
  · rw [h.header]
    exact hcopies
  · rw [weight, if_pos h.exit]
    exact hweight

end Parse

/-! ### A call -/

namespace RecvSock

open Parse

variable {η : Type} {H : HeaderRule} {InBuffer : η → Prop} {procRecv : ProcRecv η}
  {body : Parse η → Parse η} {s s' : RecvSock η} {m w : List UInt8} {part : Nat}

/-- The loop that a call of `OnRecv` enters. -/
def loopStart (procRecv : ProcRecv η) (ret : RecvRet) (s : RecvSock η) : Option (Parse η) :=
  if s.isConnected = false then none
  else (s.recvChunk procRecv ret).1.map fun region =>
    Parse.start region (s.recvChunk procRecv ret).2

/-- How much of the unmarked bytes, of which `xs` have just been received, the region holds. What
is received does not pass the end of the ring. -/
def regionLen (s : RecvSock η) (xs : List UInt8) : Nat :=
  if s.unparsed = [] then xs.length
  else min (s.unparsed.length + xs.length) (s.recvBuf.totalLen - s.recvBuf.useCursor).toNat

/-- The frames that a call parses are sized. -/
def SizedCall (H : HeaderRule) (procRecv : ProcRecv η) (s : RecvSock η) : Op → Prop
  | .onRecv _ ret sched =>
    let xs := delivered procRecv s ret sched
    s.isConnected = true →
      Sized H (s.unparsed ++ xs).length (s.regionLen xs - s.needData.toNat)
        ((s.unparsed ++ xs).drop s.needData.toNat)
  | .main | .delayClose => True

instance (H : HeaderRule) [∀ n w, Decidable (H.Refuses n w)] (procRecv : ProcRecv η)
    (s : RecvSock η) : (op : Op) → Decidable (SizedCall H procRecv s op)
  | .onRecv _ _ _ => inferInstanceAs (Decidable (_ → _))
  | .main => inferInstanceAs (Decidable True)
  | .delayClose => inferInstanceAs (Decidable True)

/-- Between two calls: every consumed byte is marked, or the socket is closed. -/
def Resting (InBuffer : η → Prop) (s : RecvSock η) : Prop :=
  s.state ≠ .establish ∨
    InBuffer s.header ∧ ∃ m w part, Ready (fun _ => True) s m w part

/-- What a class brings along: its main thread pops what was announced and does not open a closed
socket, and the iterations of its loop advance. -/
structure Parses (H : HeaderRule) (InBuffer : η → Prop) (procRecv : ProcRecv η)
    (body : Parse η → Parse η) : Prop where
  pops : ∀ s c n, Pops s (procRecv s c n) n
  closed : ∀ s c n, s.state ≠ .establish → (procRecv s c n).state ≠ .establish
  advances : ∀ p m done rest part n k, Digests H InBuffer p m done rest part n k → p.Looping →
    Advances H InBuffer p (body p)

theorem Parses.side (h : Parses H InBuffer procRecv body) : MainSide procRecv fun _ => True :=
  takenSide h.pops fun _ => True

/-- The main thread does not open a closed socket. -/
theorem mainStep_closed
    (hclosed : ∀ s c n, s.state ≠ .establish → (procRecv s c n).state ≠ .establish)
    (h : s.state ≠ .establish) : (RecvSock.mainStep procRecv s).state ≠ .establish := by
  rw [RecvSock.mainStep]
  split
  · exact h
  · rename_i e events _
    obtain ⟨eType, dwValue⟩ := e
    cases eType with
    | recv =>
      simp only [procEvent]
      split
      · exact h
      · exact hclosed _ _ _ h
    | establish =>
      simp only [procEvent, procEstablish]
      split
      · exact h
      · split_ifs <;> exact h
    | associate =>
      simp only [procEvent, procAssociate]
      split
      · exact h
      · split_ifs <;> exact h
    | terminate | connErr | error | recvPackageError | release => exact h

theorem HandsOver.closed {handOver : ProcRecv η} (h : HandsOver handOver) (s : RecvSock η)
    (c : FxConnection) (n : Nat) (hstate : s.state ≠ .establish) :
    (popAndHand handOver s c n).state ≠ .establish := by
  rcases popAndHand_cases handOver s c n with hfail | hsame | ⟨bytes, recvBuf, -, hproc⟩
  · rw [hfail]
    exact fail_state s _
  · rw [hsame]
    exact hstate
  · rw [hproc, h]
    exact hstate

theorem Holds.idle (h : Holds (fun _ => True) s m w part)
    (hpops : ∀ s c n, Pops s (procRecv s c n) n) (sched : List Nat) :
    Holds (fun _ => True) { s with sched := sched } m w part :=
  h.io (takenSide hpops fun _ => True) rfl rfl

/-- The loop of a call starts with all that is not parsed yet. -/
theorem Ready.digests (h : Ready (fun _ => True) s m w part) (hcopies : InBuffer s.header)
    (hparses : Parses H InBuffer procRecv body) {ret : RecvRet} {sched : List Nat} {fuel : Nat}
    (hsized : SizedCall H procRecv s (.onRecv fuel ret sched)) {p : Parse η}
    (hp : p ∈ loopStart procRecv ret { s with sched := sched }) :
    ∃ m xs n, Digests H InBuffer p m [] (w ++ xs) part n (w ++ xs).length := by
  have hconn : ({ s with sched := sched } : RecvSock η).isConnected = true := by
    by_contra hc
    rw [loopStart, if_pos (by simpa using hc)] at hp
    cases hp
  have hready : Ready (fun _ => True) { s with sched := sched } m w part :=
    ⟨h.holds.idle hparses.pops sched, h.frame.idle, h.frame.progress⟩
  have hsized := hsized hconn
  have hchunk := hready.recvChunk hparses.side ret fun _ _ _ _ _ _ _ _ => trivial
  rw [loopStart, if_neg (by rw [hconn]; simp)] at hp
  simp only [delivered, h.holds.unparsed_eq] at hsized
  generalize RecvSock.recvChunk procRecv ret { s with sched := sched } = chunk at hchunk hp hsized
  cases hchunk with
  | later m' s' ready same cursor => cases hp
  | closed m' t dwValue fatal holds header => cases hp
  | parse m' xs s' region n hne offered hpos scan hcut same cursor =>
    obtain rfl := Option.some.inj hp
    have htaken : s'.taken.drop s.taken.length = xs := by
      rw [same.taken]
      exact List.drop_left
    have hfits := scan.fits
    have hinside := scan.inside hpos
    have hregion : n = s.regionLen xs := by
      rw [regionLen, h.holds.unparsed_eq]
      rw [List.length_append] at hfits hcut
      by_cases hnil : w = []
      · subst hnil
        rw [if_pos rfl]
        by_contra hc
        have := (hcut (by simp only [List.length_nil] at *; omega)).1
        simp only [List.length_nil] at this
        omega
      · have huse : s'.recvBuf.useCursor = s.recvBuf.useCursor := cursor.useCursor hnil
        have htotal : s'.recvBuf.totalLen = s.recvBuf.totalLen := cursor.totalLen
        simp only [Parse.start, List.length_nil] at hinside
        rw [if_neg hnil]
        by_cases hlt : n < w.length + xs.length
        · have hend : s.recvBuf.useCursor + n = s.recvBuf.totalLen := (hcut hlt).2
          omega
        · omega
    simp only [htaken, ← hregion] at hsized
    refine ⟨m', xs, n, scan, ?_, ?_, ?_, le_rfl⟩
    · intro hc
      cases hc
    · rw [show (Parse.start region s').sock.header = s.header from same.header]
      exact hcopies
    · rw [show (Parse.start region s').sock.needData = s.needData from same.needData]
      exact hsized

/-- Behind the loop the consumed bytes are marked, or the socket is closed. -/
theorem resting_finish {p : Parse η} (h : InHand H InBuffer p)
    (hside : MainSide procRecv fun _ => True) : Resting InBuffer (p.finish procRecv) := by
  cases h with
  | going m done rest part n k h =>
    obtain ⟨m', hready, hsame⟩ := h.scan.finish hside h.exit
    refine Or.inr ⟨?_, m', rest, _, hready⟩
    rw [hsame.header]
    exact h.copies
  | closed m w part holds exit state copies =>
    rw [Parse.finish, if_pos exit]
    exact Or.inl state

/-- A call returns, and its loop is bounded. -/
theorem Ready.call (h : Ready (fun _ => True) s m w part) (hcopies : InBuffer s.header)
    (hparses : Parses H InBuffer procRecv body) {ret : RecvRet} {sched : List Nat} {fuel : Nat}
    (hsized : SizedCall H procRecv s (.onRecv fuel ret sched)) (hfuel : 1073741825 < fuel) :
    (∃ s', step procRecv body s (.onRecv fuel ret sched) = some s' ∧ Resting InBuffer s') ∧
      ∀ p ∈ loopStart procRecv ret { s with sched := sched }, Bounded InBuffer body p := by
  have hready : Ready (fun _ => True) { s with sched := sched } m w part :=
    ⟨h.holds.idle hparses.pops sched, h.frame.idle, h.frame.progress⟩
  have hloop : ∀ p ∈ loopStart procRecv ret { s with sched := sched },
      (∃ q, While.run Parse.Looping body fuel p = some q ∧ InHand H InBuffer q) ∧
        Bounded InBuffer body p := by
    intro p hp
    obtain ⟨m', xs, n, hdigests⟩ := h.digests hcopies hparses hsized hp
    have hbound := hdigests.scan.bounded
    refine InHand.run hparses.advances (.going _ _ _ _ _ _ hdigests) ?_
    rw [hdigests.weight_eq]
    simp only [List.length_nil] at hbound
    split <;> omega
  refine ⟨?_, fun p hp => (hloop p hp).2⟩
  have hchunk := hready.recvChunk hparses.side ret fun _ _ _ _ _ _ _ _ => trivial
  simp only [step, RecvSock.onRecv]
  rw [loopStart] at hloop
  by_cases hconn : ({ s with sched := sched } : RecvSock η).isConnected = false
  · rw [if_pos hconn]
    exact ⟨_, rfl, Or.inl (by simpa [isConnected] using hconn)⟩
  · rw [if_neg hconn] at hloop ⊢
    generalize RecvSock.recvChunk procRecv ret { s with sched := sched } = chunk at hchunk hloop
    cases hchunk with
    | later m' s' ready same cursor =>
      refine ⟨s', rfl, Or.inr ⟨?_, m', w, part, ready⟩⟩
      rw [same.header]
      exact hcopies
    | closed m' t dwValue fatal holds header => exact ⟨_, rfl, Or.inl (fail_state t dwValue)⟩
    | parse m' xs s' region n hne offered hpos scan hcut same cursor =>
      obtain ⟨q, hrun, hkept⟩ := (hloop _ rfl).1
      simp only [hrun, Option.map_some]
      exact ⟨_, rfl, resting_finish hkept hparses.side⟩

theorem Resting.step (h : Resting InBuffer s) (hparses : Parses H InBuffer procRecv body) {op : Op}
    (hsized : SizedCall H procRecv s op) (hstep : step procRecv body s op = some s') :
    Resting InBuffer s' := by
  rcases h with hclosed | ⟨hcopies, m, w, part, h⟩
  · refine Or.inl ?_
    cases op with
    | onRecv fuel ret sched =>
      simp only [RecvSock.step, RecvSock.onRecv] at hstep
      rw [if_pos (by simpa [isConnected] using hclosed)] at hstep
      obtain rfl := Option.some.inj hstep
      exact hclosed
    | main =>
      obtain rfl := Option.some.inj hstep
      exact mainStep_closed hparses.closed hclosed
    | delayClose =>
      obtain rfl := Option.some.inj hstep
      split
      · exact close_state _
      · exact hclosed
  · cases op with
    | onRecv fuel ret sched =>
      have hsized' : SizedCall H procRecv s (.onRecv (max fuel 1073741826) ret sched) := hsized
      obtain ⟨⟨t, ht, hresting⟩, -⟩ := h.call hcopies hparses hsized' (by omega)
      have hmono := onRecv_mono (Nat.le_max_left fuel 1073741826) hstep
      rw [show RecvSock.onRecv procRecv body _ ret _ = some t from ht] at hmono
      obtain rfl := Option.some.inj hmono
      exact hresting
    | main =>
      obtain rfl := Option.some.inj hstep
      obtain ⟨m', hholds, hio, -⟩ := h.holds.mainStep hparses.side
      refine Or.inr ⟨?_, m', w, part, h.sameFrame hholds hio.frame⟩
      rw [hio.header]
      exact hcopies
    | delayClose =>
      obtain rfl := Option.some.inj hstep
      split
      · exact Or.inl (close_state _)
      · exact Or.inr ⟨hcopies, m, w, part, h⟩

/-- A socket that has received nothing yet. -/
structure Blank (s : RecvSock η) : Prop where
  rep : s.recvBuf.Rep []
  marks : s.recvBuf.Marks 0
  small : s.recvBuf.totalLen ≤ 1073741824
  needData : s.needData = 0
  events : recvLens s.events = []
  taken : s.taken = []
  popped : s.popped = []

theorem Blank.ready (h : Blank s) : Ready (fun _ => True) s [] [] 0 := by
  refine ⟨⟨h.rep, h.marks, h.small, ?_, ?_, trivial⟩, ?_, ?_⟩
  · rw [h.taken, h.popped]
    rfl
  · rw [h.events]
    rfl
  · exact fun _ => ⟨rfl, rfl⟩
  · exact fun hc => absurd h.needData hc

theorem Fresh.blank (h : Fresh s) : Blank s := by
  obtain ⟨c, -, -, -, hgreets⟩ := h.connection
  exact ⟨h.rep, h.marks, h.small, h.needData, hgreets.no_lens, h.taken, h.popped⟩

/-- In a run whose calls are sized every further call that is sized returns, and its loop is
bounded. -/
theorem Parses.run (hparses : Parses H InBuffer procRecv body) {s₀ : RecvSock η} {ops : List Op}
    (hblank : Blank s₀) (hcopies : InBuffer s₀.header)
    (hops : Transition.Always (step procRecv body) (SizedCall H procRecv) s₀ ops)
    (hrun : Transition.run (step procRecv body) s₀ ops = some s) {ret : RecvRet}
    {sched : List Nat} (hsized : SizedCall H procRecv s (.onRecv 0 ret sched)) :
    (∃ fuel, (step procRecv body s (.onRecv fuel ret sched)).isSome) ∧
      ∀ p ∈ loopStart procRecv ret { s with sched := sched }, Bounded InBuffer body p := by
  have hresting := Transition.invariant_of_always
    (fun _ _ _ h hop hs' => Resting.step h hparses hop hs')
    (Or.inr ⟨hcopies, [], [], 0, hblank.ready⟩) hops hrun
  rcases hresting with hclosed | ⟨hcopies, m, w, part, h⟩
  · have hconn : ({ s with sched := sched } : RecvSock η).isConnected = false := by
      simpa [isConnected] using hclosed
    refine ⟨⟨0, ?_⟩, fun p hp => ?_⟩
    · simp only [RecvSock.step, RecvSock.onRecv]
      rw [if_pos hconn]
      rfl
    · rw [loopStart, if_pos hconn] at hp
      cases hp
  · have hsized' : SizedCall H procRecv s (.onRecv 1073741826 ret sched) := hsized
    obtain ⟨⟨s', hs', -⟩, hbounded⟩ := h.call hcopies hparses hsized' (by omega)
    exact ⟨⟨_, by rw [hs']; rfl⟩, hbounded⟩

end RecvSock

/-! ### The eight byte header -/

namespace Parse

open RecvSock BinaryDataHeader

variable {procRecv : ProcRecv BinaryDataHeader} {p : Parse BinaryDataHeader}
  {m done rest : List UInt8} {part n k : Nat}

/-- A header in one piece is refused when it announces -1, which is also what a wrong magic number
comes to; one that the end of the ring cuts, when what it announces is not positive. -/
def binaryRule : HeaderRule where
  headerLen := fun _ => 8
  pkgLen := fun w => pkgLength (w.take 8)
  Refuses := fun n w =>
    if 8 ≤ n then pkgLength (w.take 8) = -1 else pkgLength (w.take 8) ≤ 0

instance (n : Nat) (w : List UInt8) : Decidable (binaryRule.Refuses n w) :=
  inferInstanceAs (Decidable (if 8 ≤ n then _ else _))

theorem pkgLength_lt (header : List UInt8) : pkgLength header < 2147483648 := by
  rw [pkgLength]
  split
  · exact (fits_wrap32 _).2
  · omega

/-- How a class reports an error between two frames. -/
def Fails (fail : Parse BinaryDataHeader → Int → Parse BinaryDataHeader) : Prop :=
  ∀ p dwValue m w part, Holds (fun _ => True) p.sock m w part → p.nUsedLen = 0 → 0 ≤ p.nLen →
    p.nLen ≤ 1073741824 → Failed p (fail p dwValue)

theorem fails_fail : Fails Parse.fail := fun _ dwValue _ _ _ h _ _ _ => failed_fail h dwValue

theorem Digests.frameStep (h : Digests binaryRule BinaryDataHeader.InBuffer p m done rest part n k)
    {fail : Parse BinaryDataHeader → Int → Parse BinaryDataHeader} (hfail : Fails fail)
    (hside : MainSide procRecv fun _ => True) (hloop : p.Looping) :
    Advances binaryRule BinaryDataHeader.InBuffer p (p.frameStep procRecv vtable fail) := by
  by_cases hneed : p.sock.needData = 0
  · obtain ⟨hused, rfl⟩ := (h.scan.frame h.exit).idle hneed
    obtain rfl := List.eq_nil_of_length_eq_zero hused
    have hlen := h.scan.len
    have hfits := h.scan.fits
    have hbound := h.scan.bounded
    have hpos : 0 < n := by
      have := hloop.2
      omega
    have henough := h.enough
    have hweight : p.weight = rest.length + 1 := by rw [h.weight_eq, if_pos hloop]
    have hsized := h.sized
    rw [hneed] at hsized
    simp only [Int.toNat_zero, Nat.sub_zero, List.drop_zero] at hsized
    -- the fuel of `Sized` is enough for this frame
    obtain ⟨k, rfl⟩ : ∃ j, k = j + 1 := ⟨k - 1, by omega⟩
    have hidle := h.scan.frameStep_idle fail hside hloop.1 hneed hpos
    generalize p.frameStep procRecv vtable fail = q at hidle ⊢
    cases hidle with
    | waits m' hlt scan exit needData record inBuffer =>
      have hdigests : Digests binaryRule BinaryDataHeader.InBuffer q m' [] rest 0 0 (k + 1) := by
        refine ⟨scan, ?_, inBuffer h.copies, ?_, henough⟩
        · rw [exit]
          intro hc
          cases hc
        · rw [Nat.zero_sub]
          exact sized_zero _ _ _
      refine ⟨.going _ _ _ _ _ _ hdigests, ?_⟩
      rw [hdigests.weight_eq, hweight, if_neg]
      · omega
      · intro hc
        cases exit.symm.trans hc.1
    | whole p' hle scan parsed eq =>
      have hcopies := parsed.inBuffer h.copies
      have hpacket := parsed.packetLen
      have hloop' : p'.Looping := ⟨parsed.exit, by rw [scan.len]; omega⟩
      have hweight' : p'.weight = p.weight := by
        rw [hweight, weight, if_neg (by rw [parsed.exit]; intro hc; cases hc), scan.unread_eq,
          if_pos hloop']
      rcases hsized with hzero | hshort | hrefused | ⟨hplus, -, hnext⟩ | ⟨-, hlt, -⟩
      · omega
      · have : rest.length < 8 := hshort
        omega
      · have hminus : pkgLength (rest.take 8) = -1 := by
          simpa only [binaryRule, if_pos hle] using hrefused
        rw [if_pos (hpacket.trans hminus).symm] at eq
        rw [eq]
        refine (hfail p' _ m _ _ scan.holds ?_ ?_ ?_).advances hcopies (by omega)
        · exact scan.used
        · rw [scan.len]
          omega
        · rw [scan.len]
          omega
      · have hplus : 0 < pkgLength (rest.take 8) := hplus
        have hless := pkgLength_lt (rest.take 8)
        rw [if_neg (by omega), if_neg (by omega)] at eq
        have hmoved := scan.wholeStep hside (by omega) (by omega) fun _ _ _ _ _ => trivial
        rw [← eq, hpacket] at hmoved
        have hadvances := hmoved.advances scan hloop' hplus parsed.exit hcopies hnext (by omega)
        rwa [Advances, hweight'] at hadvances
      · exact absurd hle (Nat.not_le.mpr hlt)
    | joined m' r hlt hle split parsed eq =>
      have hcopies := parsed.inBuffer h.copies
      have hpacket := parsed.packetLen
      have hless := pkgLength_lt (rest.take 8)
      rcases hsized with hzero | hshort | hrefused | ⟨-, hge, -⟩ | ⟨hge, -, hnext⟩
      · omega
      · have : rest.length < 8 := hshort
        omega
      · have hminus : pkgLength (rest.take 8) ≤ 0 := by
          simpa only [binaryRule, if_neg (Nat.not_le.mpr hlt)] using hrefused
        rw [if_pos (by omega)] at eq
        rw [eq]
        refine (hfail r _ m' _ _ split.holds split.used ?_ ?_).advances hcopies (by omega)
        · rw [split.len]
          omega
        · rw [split.len]
          omega
      · exact absurd hlt (Nat.not_lt.mpr hge)
      · have hge : (8 : Int) ≤ pkgLength (rest.take 8) := hge
        rw [if_neg (by omega)] at eq
        rw [eq]
        have hhl : vtable.getHeaderLength r.sock.header = 8 := rfl
        refine split.advances vtable hside hhl hlt hle (by omega) (by omega) hcopies ?_ henough hpos
          hweight
        rw [hpacket]
        exact hnext
  · rw [Parse.frameStep, if_pos (Ne.symm hneed)]
    exact h.needStep hside hloop hneed

end Parse

/-! ### A header that announces nothing -/

namespace Parse

open RecvSock BinaryDataHeader

variable {procRecv : ProcRecv BinaryDataHeader} {X : RecvSock BinaryDataHeader → Prop}
  {p : Parse BinaryDataHeader} {m rest : List UInt8} {n : Nat}

/-- The loop stands in front of a whole header that announces the length 0. -/
structure Stuck (X : RecvSock BinaryDataHeader → Prop) (p : Parse BinaryDataHeader)
    (m rest : List UInt8) (n : Nat) : Prop where
  scan : Scan X p m [] rest 0 n
  exit : p.exit = .looping
  needData : p.sock.needData = 0
  whole : 8 ≤ n
  zero : pkgLength (rest.take 8) = 0

/-- Such a header is parsed again and again. -/
theorem Stuck.frameStep (h : Stuck X p m rest n)
    (fail : Parse BinaryDataHeader → Int → Parse BinaryDataHeader) (hside : MainSide procRecv X) :
    ∃ m', Stuck X (p.frameStep procRecv vtable fail) m' rest n := by
  have hwhole := h.whole
  have hfits := h.scan.fits
  have hidle := h.scan.frameStep_idle fail hside h.exit h.needData (by omega)
  generalize p.frameStep procRecv vtable fail = q at hidle ⊢
  cases hidle with
  | waits m' hlt => omega
  | joined m' r hlt => omega
  | whole p' hle scan parsed eq =>
    have hpacket := parsed.packetLen.trans h.zero
    obtain ⟨m', s', hcost, hscan, hio⟩ := scan.costNothing hside
    have hneed : s'.needData = 0 := hio.needData.trans parsed.needData
    have hself : { s' with needData := 0 } = s' := by rw [← hneed]
    have hlen := scan.len
    have hhl : toInt32 (vtable.getHeaderLength s'.header) = 8 :=
      toInt32_of_lt (show 8 < 2147483648 by omega)
    rw [if_neg (by omega), if_pos hpacket.symm] at eq
    simp only [Parse.splitStep, hcost, hself, hhl] at eq
    rw [if_neg (by omega)] at eq
    rw [eq]
    exact ⟨m', hscan, parsed.exit, hneed, h.whole, h.zero⟩

theorem Stuck.run (h : Stuck X p m rest n)
    (fail : Parse BinaryDataHeader → Int → Parse BinaryDataHeader) (hside : MainSide procRecv X)
    (fuel : Nat) :
    While.run Parse.Looping (fun p => p.frameStep procRecv vtable fail) fuel p = none := by
  induction fuel generalizing p m with
  | zero => rfl
  | succ fuel ih =>
    have hlen := h.scan.len
    have hwhole := h.whole
    obtain ⟨m', hnext⟩ := h.frameStep fail hside
    rw [While.run_next ⟨h.exit, by omega⟩]
    exact ih hnext

end Parse

/-! ### TCP -/

namespace FxTCPConnectSock

open RecvSock Parse BinaryDataHeader

theorem side : MainSide procRecv fun _ => True := takenSide handsOver_handOver.pops fun _ => True

theorem parses : Parses binaryRule BinaryDataHeader.InBuffer procRecv frameStep where
  pops := handsOver_handOver.pops
  closed := handsOver_handOver.closed
  advances := fun _ _ _ _ _ _ _ h hloop => h.frameStep fails_fail side hloop

/-- A call that receives a header with the length 0 between two frames does not return. -/
theorem onRecv_stuck {s : Sock} {m xs : List UInt8} {ret : RecvRet} {p : Parse BinaryDataHeader}
    (h : Ready (fun _ => True) s m [] 0) (hneed : s.needData = 0)
    (hp : loopStart procRecv ret s = some p) (hxs : p.sock.taken = s.taken ++ xs)
    (hlen : 8 ≤ xs.length) (hzero : pkgLength (xs.take 8) = 0) (fuel : Nat) :
    onRecv fuel ret s = none := by
  have hchunk := h.recvChunk side ret fun _ _ _ _ _ _ _ _ => trivial
  rw [loopStart] at hp
  split_ifs at hp with hconn
  rw [FxTCPConnectSock.onRecv, RecvSock.onRecv, if_neg hconn]
  generalize RecvSock.recvChunk procRecv ret s = chunk at hchunk hp
  cases hchunk with
  | later m' s' ready same cursor => cases hp
  | closed m' t dwValue fatal holds header => cases hp
  | parse m' ys s' region n hne offered hpos scan hcut same cursor =>
    obtain rfl := Option.some.inj hp
    have hsame : ys = xs := List.append_cancel_left (same.taken.symm.trans hxs)
    subst hsame
    have hfits := scan.fits
    have hall : n = ys.length := by
      by_contra hc
      have := (hcut (by simp only [List.nil_append] at *; omega)).1
      simp only [List.length_nil] at this
      omega
    have hstuck : Stuck (fun _ => True) (Parse.start region s') m' ys n :=
      ⟨scan, rfl, same.needData.trans hneed, by omega, hzero⟩
    have hnone := hstuck.run Parse.fail side fuel
    simp only
    rw [show frameStep = fun p => p.frameStep procRecv vtable Parse.fail from rfl, hnone]
    rfl

end FxTCPConnectSock
