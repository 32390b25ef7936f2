import FxLib.Net.UDPDelivery

/-!
# Stray datagrams

Copies of what the peer has sent come late, twice and out of order. An open socket survives them as
long as none is a header of `Connect`, none lags so far behind that its numbers have wrapped, and
the receive ring has room for what they complete. The header, which `Connect` sends again until it
gets its answer, closes the socket.
-/

open MachineInt

namespace FxUDPConnectSock

open RecvSock Framing Parse SlidingWindow

/-! ### A call that leaves the socket open -/

/-- The errors that have been reported. -/
def reported (s : Sock) : List SNetEvent := s.announced.filter fun e => e.eType = .error

/-- The socket is neither closed nor is an error reported for it, unless by the main thread, which
then asks for a close. -/
structure Undisturbed (s s' : Sock) : Prop where
  state : s'.state = s.state
  errors : s'.delayClose = false → s.delayClose = false ∧ reported s' = reported s

variable {s s' s'' : Sock}

theorem Undisturbed.refl (s : Sock) : Undisturbed s s := ⟨rfl, fun h => ⟨h, rfl⟩⟩

theorem Undisturbed.trans (h : Undisturbed s s') (h' : Undisturbed s' s'') : Undisturbed s s'' := by
  refine ⟨h'.state.trans h.state, fun hdelay => ?_⟩
  obtain ⟨hmiddle, hlast⟩ := h'.errors hdelay
  obtain ⟨hfirst, hsame⟩ := h.errors hmiddle
  exact ⟨hfirst, hlast.trans hsame⟩

theorem reported_push (s : Sock) {eType : ENetEvtType} (h : eType ≠ .error) (v : Int) :
    reported (s.pushNetEvent eType v) = reported s := by
  simp [reported, pushNetEvent, h]

theorem procRecv_undisturbed (s : Sock) (c : FxConnection) (n : Nat) :
    Undisturbed s (procRecv s c n) := by
  rw [procRecv]
  by_cases hid : s.sockId ≠ c.id
  · rw [if_pos hid]
    exact .refl s
  · rw [if_neg hid]
    by_cases hsize : s.getRecvSize c < n
    · rw [if_pos hsize]
      exact ⟨rfl, fun hdelay => Bool.noConfusion hdelay⟩
    · rw [if_neg hsize]
      rcases popToSession_cases s n with hpop | ⟨bytes, recvBuf, hpop, hto⟩
      · rw [hpop, if_neg (by simp)]
        exact .refl s
      · rw [hto, if_pos rfl, connectionOnRecv_same]
        exact ⟨rfl, fun hdelay => ⟨hdelay, rfl⟩⟩

theorem mainStep_undisturbed (s : Sock) : Undisturbed s (RecvSock.mainStep procRecv s) := by
  rw [RecvSock.mainStep]
  cases s.events with
  | nil => exact .refl s
  | cons e events =>
    obtain ⟨eType, dwValue⟩ := e
    have htaken : Undisturbed s { s with events := events } := ⟨rfl, fun hdelay => ⟨hdelay, rfl⟩⟩
    apply htaken.trans
    cases eType with
    | recv =>
      simp only [procEvent]
      split
      · exact .refl _
      · exact procRecv_undisturbed _ _ _
    | establish =>
      simp only [procEvent, procEstablish]
      split
      · exact .refl _
      · split_ifs
        · exact .refl _
        · exact ⟨rfl, fun hdelay => ⟨hdelay, rfl⟩⟩
    | associate =>
      simp only [procEvent, procAssociate]
      split
      · exact .refl _
      · split_ifs
        · exact .refl _
        · exact ⟨rfl, fun hdelay => ⟨hdelay, rfl⟩⟩
    | terminate => exact ⟨rfl, fun hdelay => ⟨hdelay, reported_push _ (by simp) _⟩⟩
    | connErr | error | recvPackageError | release => exact .refl _

theorem yield_undisturbed (s : Sock) : Undisturbed s (s.yield procRecv) := by
  rw [RecvSock.yield]
  cases s.sched with
  | nil => exact .refl s
  | cons k sched =>
    have hsteps : ∀ k (t : Sock), Undisturbed t ((RecvSock.mainStep procRecv)^[k] t) := by
      intro k
      induction k with
      | zero => exact fun t => .refl t
      | succ k ih => exact fun t => (mainStep_undisturbed t).trans (ih _)
    have hsched : Undisturbed s { s with sched := sched } := ⟨rfl, fun hdelay => ⟨hdelay, rfl⟩⟩
    exact hsched.trans (hsteps k _)

theorem lasting_undisturbed (s : Sock) : Lasting (Undisturbed s) where
  yield := fun t h => h.trans (yield_undisturbed t)
  io := fun t t' h hio => by
    rw [hio]
    exact ⟨h.state, h.errors⟩
  recv := fun t v h => by
    refine h.trans ⟨rfl, fun hdelay => ⟨hdelay, reported_push t (by simp) v⟩⟩

theorem clearIfEmpty_undisturbed (s : Sock) : Undisturbed s (s.clearIfEmpty procRecv) := by
  have hyield := yield_undisturbed s
  simp only [RecvSock.clearIfEmpty]
  split_ifs
  · exact (lasting_undisturbed s).io _ _ (hyield.trans (yield_undisturbed _)) rfl
  · exact hyield

/-- A payload that stands in the ring. -/
theorem append_undisturbed {xs : List UInt8} (happend : append xs s = (true, s')) :
    Undisturbed s s' := by
  have hin : ∀ t, Undisturbed s t → Undisturbed s (t.inCursorPtr procRecv).2 := fun t ht =>
    ht.trans (yield_undisturbed t)
  have hcost : ∀ t n, Undisturbed s t → Undisturbed s (RecvSock.costBuff procRecv t n) :=
    fun t _ ht => (lasting_undisturbed s).io _ _ (ht.trans (yield_undisturbed t)) rfl
  have hput : ∀ (t : Sock) recvBuf taken, Undisturbed s t →
      Undisturbed s { t with recvBuf := recvBuf, taken := taken } := fun _ _ _ ht =>
    ⟨ht.state, ht.errors⟩
  obtain rfl : (append xs s).2 = s' := by rw [happend]
  have hflag : (append xs s).1 = true := by rw [happend]
  simp only [append] at hflag ⊢
  split_ifs at hflag ⊢ with hempty hfit hsecond
  · exact .refl s
  · exact hput _ _ _ (hcost _ _ (hin s (.refl s)))
  · apply hput _ _ _ (hcost _ _ _)
    exact hput _ _ _ (hin _ (hput _ _ _ (hcost _ _ (hin s (.refl s)))))

theorem deliver_undisturbed {n : Nat} {flag answer : Bool} {u u' : FxUDPConnectSock}
    (hdeliver : deliver n flag u = (some answer, u')) : Undisturbed u.sock u'.sock := by
  induction n generalizing flag u with
  | zero =>
    simp only [deliver, Prod.mk.injEq] at hdeliver
    rw [hdeliver.2]
    exact .refl _
  | succ n ih =>
    rw [deliver] at hdeliver
    generalize happend : append (payload u.recvWindow) u.sock = appended at hdeliver
    obtain ⟨ok, s⟩ := appended
    cases ok with
    | true => exact (append_undisturbed happend).trans (ih hdeliver)
    | false => cases hdeliver

/-- A loop that does not fail. -/
theorem parse_undisturbed {region : Region} {p : Parse BinaryDataHeader} {fuel : Nat}
    (hptr : s.usedCursorPtr procRecv = (region, s'))
    (hrun : While.run Parse.Looping frameStep fuel (Parse.start region s') = some p)
    (hexit : p.exit ≠ .returned) : Undisturbed s (p.finish procRecv) := by
  have hstart : Undisturbed s s' := by
    obtain rfl : (s.usedCursorPtr procRecv).2 = s' := by rw [hptr]
    exact yield_undisturbed s
  have hloop : Undisturbed s p.sock := by
    rcases loop_lasts (lasting_undisturbed s) hstart hrun with hkept | ⟨r, v, -, rfl⟩
    · exact hkept
    · exact absurd rfl hexit
  rw [Parse.finish]
  split_ifs
  · exact hloop
  · exact (lasting_undisturbed s).io _ _ (hloop.trans (yield_undisturbed p.sock)) rfl
  · exact hloop

/-! ### A datagram of an established peer -/

variable {frames : List (List UInt8 × List UInt8)} {m w : List UInt8} {part k : Nat}
  {u : FxUDPConnectSock}

/-- The socket is undisturbed, and its frames can be followed further. -/
structure Resumes (frames : List (List UInt8 × List UInt8)) (s s' : Sock) : Prop where
  undisturbed : Undisturbed s s'
  follows : ∃ m w part k, Follows frames s' m w part k

theorem Follows.updateRecvWindow {xs : List UInt8} {fuel : Nat}
    (h : Follows frames u.sock m w part k) (hstream : Streams frames (Known (Stream frames)))
    (hxs : xs = payloads (span u.recvWindow.btBegin (succ (newAck u.recvWindow u.recvWindow.count
      u.recvWindow.btBegin (pred u.recvWindow.btBegin)))) u.recvWindow)
    (hcontinues : Stream frames (u.sock.taken ++ xs))
    (hroom : (xs.length : Int) ≤ u.sock.recvBuf.freeLen) (hfuel : 1073741825 < fuel) :
    ∃ u', updateRecvWindow fuel u = some u' ∧ Resumes frames u.sock u'.sock := by
  simp only [FxUDPConnectSock.updateRecvWindow]
  generalize span u.recvWindow.btBegin _ = n at hxs
  rcases deliver_cases n false u h.ready.holds (fun ys hys => by
      rw [← hxs] at hys
      exact ((List.prefix_append_right_inj u.sock.taken).mpr hys).trans hcontinues) with
    ⟨m₁, u₁, hdeliver, hholds, hgrown⟩ | ⟨u₁, hdeliver, -, hshort⟩
  · have hdelivered := deliver_undisturbed hdeliver
    rw [← hxs] at hdeliver hholds hgrown
    simp only [hdeliver, Bool.false_or]
    by_cases hne : xs = []
    · subst hne
      rw [List.append_nil] at hholds
      have hframe : SameFrame u.sock u₁.sock := by
        have hsame := hgrown.frame
        rw [List.append_nil] at hsame
        exact hsame
      rw [if_neg (by simp)]
      exact ⟨_, rfl, hdelivered, m₁, w, part, k, h.sameFrame hholds hframe⟩
    · obtain ⟨region, t, p, m₂, done, rest, part₂, n₂, k₂, hptr, hrun, -, hparsing⟩ :=
        h.parses hstream hholds hgrown hne hfuel
      obtain ⟨m₃, part₃, hfollows, -⟩ := hparsing.finish
      have hparse : parseMessage fuel u₁.sock = some (p.finish procRecv) := by
        simp only [parseMessage, hptr, hrun, Option.map_some]
      rw [if_pos (by simpa using hne), hparse]
      exact ⟨_, rfl, hdelivered.trans (parse_undisturbed hptr hrun hparsing.exit),
        m₃, rest, part₃, k₂, hfollows⟩
  · rw [← hxs] at hshort
    omega

theorem Follows.procPacket {btBufferId nLen : Nat} {refPacket : UDPPacketHeader}
    (clock : Nat → Rat) {xs : List UInt8} {fuel : Nat} (h : Follows frames u.sock m w part k)
    (hstream : Streams frames (Known (Stream frames)))
    (hxs : xs = if (takeSlot refPacket.cSyn btBufferId nLen u.recvWindow).1 then
      let w := (takeSlot refPacket.cSyn btBufferId nLen u.recvWindow).2
      payloads (span w.btBegin (succ (newAck w w.count w.btBegin (pred w.btBegin)))) w else [])
    (hcontinues : Stream frames (u.sock.taken ++ xs))
    (hroom : (xs.length : Int) ≤ u.sock.recvBuf.freeLen) (hfuel : 1073741825 < fuel) :
    ∃ u', procPacket fuel clock btBufferId nLen refPacket u = some u' ∧
      Resumes frames u.sock u'.sock := by
  obtain ⟨v, hsock, hwindow, hproc⟩ := procPacket_eq fuel clock btBufferId nLen refPacket u
  rw [hproc]
  by_cases hslot : (takeSlot refPacket.cSyn btBufferId nLen u.recvWindow).1 = true
  · rw [if_pos hslot] at hxs ⊢
    rw [← hwindow] at hxs
    rw [← hsock] at h hcontinues hroom ⊢
    exact h.updateRecvWindow hstream hxs hcontinues hroom hfuel
  · rw [if_neg hslot]
    refine ⟨v, rfl, ?_⟩
    rw [hsock]
    exact ⟨.refl _, m, w, part, k, h⟩

theorem clearIfEmpty_room {P : List UInt8 → Prop} (h : Holds (Known P) s m w part) :
    s.recvBuf.freeLen ≤ (s.clearIfEmpty procRecv).recvBuf.freeLen := by
  have hyield : ∀ {t : Sock} {m : List UInt8}, Holds (Known P) t m w part → ∃ m',
      Holds (Known P) (t.yield procRecv) m' w part ∧
        t.recvBuf.freeLen ≤ (t.yield procRecv).recvBuf.freeLen := by
    intro t m ht
    obtain ⟨m', h', hio, hle⟩ := ht.yield (known_side P)
    have hold := ht.rep.free
    have hnew := h'.rep.free
    have htotal := hio.totalLen
    simp only [List.length_append] at hold hnew
    exact ⟨m', h', by omega⟩
  obtain ⟨m₁, h₁, hle₁⟩ := hyield h
  simp only [RecvSock.clearIfEmpty]
  split_ifs
  · obtain ⟨-, -, hle₂⟩ := hyield h₁
    exact hle₁.trans hle₂
  · exact hle₁

/-- A datagram of an established peer that the ring has room for. -/
theorem Follows.onRecv (clock : Nat → Rat) {bytes xs : List UInt8} {cStatus cSyn cAck : UInt8}
    (fuel : Nat) (h : Follows frames u.sock m w part k)
    (hstream : Streams frames (Known (Stream frames))) (hconn : u.sock.isConnected = true)
    (hfree : u.recvWindow.freeBufferId < windowSize)
    (hcut : bytes.take bufferSize = cStatus :: cSyn :: cAck :: xs)
    (hstatus : cStatus.toNat = ESocketState.establish.code)
    (hcontinues : Stream frames (u.sock.taken ++ arrived (.data bytes) u))
    (hroom : ((arrived (.data bytes) u).length : Int) ≤ u.sock.recvBuf.freeLen)
    (hfuel : 1073741825 < fuel) :
    ∃ u', onRecv fuel clock (.data bytes) u = some u' ∧ Resumes frames u.sock u'.sock := by
  obtain ⟨m₁, h₁, hsame, -⟩ := h.ready.holds.clearIfEmpty (known_side _)
  have hclear := clearIfEmpty_undisturbed u.sock
  have hfollows := h.sameFrame h₁ hsame
  have htaken := hsame.taken
  have hmore := clearIfEmpty_room h.ready.holds
  rw [FxUDPConnectSock.onRecv, if_neg (by simp [hconn])]
  generalize RecvSock.clearIfEmpty procRecv u.sock = s₁ at *
  rw [← htaken] at hcontinues
  have hnot : ¬ u.recvWindow.allocate.1 ≥ windowSize := not_le.mpr hfree
  have hlong : ¬ (cStatus :: cSyn :: cAck :: xs).length < UDPPacketHeader.headSize := by
    simp [UDPPacketHeader.headSize]
  simp only [arrived, hcut] at hcontinues hroom ⊢
  rw [if_neg (not_or.mpr ⟨hnot, hlong⟩)] at hcontinues hroom
  rw [if_neg hnot, if_neg (by simp), if_neg hlong]
  generalize hbuffer : u.recvWindow.allocate.2.fill u.recvWindow.allocate.1
    (cStatus :: cSyn :: cAck :: xs) = w₁ at hcontinues hroom ⊢
  have hheader : (UDPPacketHeader.ofBuffer (w₁.ppBuffer u.recvWindow.allocate.1)).cStatus =
      ESocketState.establish.code := by
    rw [← hstatus, ← hbuffer]
    exact congrArg UDPPacketHeader.cStatus (fill_packet _ _ _ _ _ _).1
  generalize UDPPacketHeader.ofBuffer (w₁.ppBuffer u.recvWindow.allocate.1) = refPacket at *
  rw [if_neg (not_ne_iff.mpr hheader)]
  simp only [hheader, true_and] at hcontinues hroom
  have hresumes : ∀ v : FxUDPConnectSock, v.sock = s₁ → v.recvWindow = w₁ →
      ∃ u', FxUDPConnectSock.procPacket fuel clock u.recvWindow.allocate.1
        (cStatus :: cSyn :: cAck :: xs).length refPacket v = some u' ∧
        Resumes frames u.sock u'.sock := by
    rintro v hsock rfl
    rw [← hsock] at hfollows hcontinues hmore hclear
    obtain ⟨u', hu', hresumes⟩ :=
      hfollows.procPacket clock hstream rfl hcontinues (hroom.trans hmore) hfuel
    exact ⟨u', hu', hclear.trans hresumes.undisturbed, hresumes.follows⟩
  exact hresumes _ rfl rfl

/-! ### What arrives -/

theorem payloads_stream {w : SlidingWindow} {data : Nat → List UInt8} {next last n : Nat}
    (hn : n ≤ windowSize) (h : Receives w data next last [])
    (hrow : ∀ j < n, w.seqBufferId ((next + j) % windowSize) < windowSize) :
    payloads n w = stream data next n := by
  induction n generalizing w next with
  | zero => rfl
  | succ n ih =>
    obtain ⟨hshift, -, hrest⟩ := receives_row_shift hn h hrow
    rw [payloads_succ, receives_payload h (hrow 0 (Nat.succ_pos n)), ih (by omega) hshift hrest,
      stream_succ]

/-- What a datagram delivers is the next piece of the stream. -/
theorem arrived_stream {data : Nat → List UInt8} {next last : Nat} {bytes : List UInt8}
    (h : Receives u.recvWindow data next last [])
    (hempty : windowSize ≤ u.recvWindow.seqBufferId (next % windowSize))
    (hdata : ∀ cStatus cSyn cAck xs, bytes.take bufferSize = cStatus :: cSyn :: cAck :: xs →
      ∀ n, next ≤ n → n < next + windowSize → n % 256 = cSyn.toNat →
        windowSize ≤ u.recvWindow.seqBufferId (n % windowSize) → n < last ∧ data n = xs) :
    ∃ n, (∀ i < n, next + i < last) ∧ arrived (.data bytes) u = stream data next n := by
  have hnone : ∃ n, (∀ i < n, next + i < last) ∧ [] = stream data next n :=
    ⟨0, fun _ hi => absurd hi (Nat.not_lt_zero _), rfl⟩
  have hfree := h.free_of_empty (Nat.mod_lt next (by decide)) hempty
  have hle : (bytes.take bufferSize).length ≤ bufferSize := List.length_take_le _ _
  simp only [arrived]
  split_ifs with hcut hreceived
  · exact hnone
  · obtain ⟨-, hlong⟩ := not_or.mp hcut
    obtain ⟨cStatus, cSyn, cAck, xs, hbytes⟩ : ∃ cStatus cSyn cAck xs,
        bytes.take bufferSize = cStatus :: cSyn :: cAck :: xs := by
      rcases hbytes : bytes.take bufferSize with _ | ⟨cStatus, _ | ⟨cSyn, _ | ⟨cAck, xs⟩⟩⟩
      · exact absurd (by simp [hbytes, UDPPacketHeader.headSize]) hlong
      · exact absurd (by simp [hbytes, UDPPacketHeader.headSize]) hlong
      · exact absurd (by simp [hbytes, UDPPacketHeader.headSize]) hlong
      · exact ⟨cStatus, cSyn, cAck, xs, rfl⟩
    specialize hdata cStatus cSyn cAck xs hbytes
    obtain ⟨hheader, hpayload⟩ := fill_packet u.recvWindow.allocate.2 u.recvWindow.freeBufferId
      cStatus cSyn cAck xs
    have hlen : (cStatus :: cSyn :: cAck :: xs).length = UDPPacketHeader.headSize + xs.length := by
      simp only [List.length_cons, UDPPacketHeader.headSize]
      omega
    rw [hbytes, hlen] at hle
    obtain ⟨htakes, -⟩ := receives_takeSlot (h.allocate hfree).fill cSyn.toNat_lt hle hpayload hdata
    obtain ⟨n, hn, hspan, hrow, -⟩ := receives_row htakes
    have hstored := htakes.stored
    refine ⟨n, fun i hi => (hstored (next + i) (Nat.le_add_right _ _) (by omega) (hrow i hi)).1, ?_⟩
    have hpayloads := payloads_stream hn htakes hrow
    rw [← hspan] at hpayloads
    rw [hbytes, hlen, show u.recvWindow.allocate.1 = u.recvWindow.freeBufferId from rfl, hheader]
    exact hpayloads.trans (by rw [hspan])
  · exact hnone

/-! ### The frames of a stream -/

/-- What has been received may be the beginning of a longer stream too. -/
theorem Follows.mono (h : Follows frames s m w part k) (later : List (List UInt8 × List UInt8)) :
    Follows (frames ++ later) s m w part k := by
  have hle := h.synced.le
  have hwire : ∀ j ≤ frames.length, wire (frames ++ later) j = wire frames j := fun j hj => by
    rw [wire, wire, List.take_append_of_le_length hj]
  have hlens : lens (frames ++ later) k = lens frames k := by
    rw [lens, lens, List.take_append_of_le_length hle]
  have hholds := h.ready.holds
  refine ⟨⟨⟨hholds.rep, hholds.marks, hholds.small, hholds.taken, hholds.pending, ?_⟩,
    h.ready.frame⟩, ⟨?_, ?_, fun hneed => ?_, fun hneed => ?_⟩, h.begun⟩
  · have hprefix := hholds.side
    rw [Known, Stream, ← hwire _ le_rfl] at hprefix
    have hle : frames.length ≤ (frames ++ later).length := by simp
    exact hprefix.trans ⟨_, (wire_between hle).symm⟩
  · rw [List.length_append]
    omega
  · rw [hlens]
    exact h.synced.announced
  · rw [hwire k hle]
    exact h.synced.idle hneed
  · obtain ⟨f, got, hexpects⟩ := h.synced.progress hneed
    refine ⟨f, got, ?_, hexpects.packetLen, hexpects.missing, ?_⟩
    · obtain ⟨hk, -⟩ := List.getElem?_eq_some_iff.mp hexpects.frame
      rw [List.getElem?_append_left hk]
      exact hexpects.frame
    · rw [hwire k hle]
      exact hexpects.taken

/-- `x` has pushed these messages, each with its header, and `y` follows their frames unless it is
closed. -/
structure Tells (messages : List (List UInt8)) (x y : FxUDPConnectSock) : Prop where
  short : ∀ message ∈ messages, 8 + message.length < 2147483648
  pushed : x.pushed = wire (messages.map FxTCPConnectSock.encode)
    (messages.map FxTCPConnectSock.encode).length
  follows : y.sock.state ≠ .establish ∨
    ∃ m w part k, Follows (messages.map FxTCPConnectSock.encode) y.sock m w part k

variable {messages : List (List UInt8)} {x x' y y' : FxUDPConnectSock}

/-- A whole frame, or nothing, goes to the send ring. -/
theorem Tells.push (h : Tells messages x y) {q payload : List UInt8} (hrep : x.sendBuf.Rep q)
    (hsmall : x.sendBuf.totalLen ≤ 1073741824) :
    ∃ messages, Tells messages (pushFrame (FxTCPConnectSock.encode payload).1 x) y := by
  obtain ⟨ys, hrep', htotal, hpushed, rfl | rfl⟩ :=
    pushFrame_ring (FxTCPConnectSock.encode payload).1 hrep hsmall
  · rw [List.append_nil] at hpushed
    exact ⟨messages, h.short, hpushed.trans h.pushed, h.follows⟩
  · have hlen := hrep'.length_le
    rw [List.length_append, FxTCPConnectSock.encode_length] at hlen
    refine ⟨messages ++ [payload], fun message hmem => ?_, ?_, h.follows.imp_right ?_⟩
    · rcases List.mem_append.mp hmem with hold | hnew
      · exact h.short message hold
      · rw [List.mem_singleton.mp hnew]
        omega
    · rw [hpushed, h.pushed, wire, wire, List.take_length, List.take_length, List.map_append,
        List.map_append, List.flatten_append]
      simp
    · rintro ⟨m, w, part, k, hfollows⟩
      rw [List.map_append]
      exact ⟨m, w, part, k, hfollows.mono _⟩

theorem Tells.keeps_sender (h : Tells messages x y) (hpushed : x'.pushed = x.pushed) :
    Tells messages x' y := ⟨h.short, hpushed.trans h.pushed, h.follows⟩

/-- What the receiver does by itself. -/
theorem Tells.act_receiver (h : Tells messages x y) (act : UDPLink.Act)
    (hstep : step y act.op = some y') : Tells messages x y' := by
  refine ⟨h.short, h.pushed, ?_⟩
  rcases h.follows with hclosed | ⟨m, w, part, k, hfollows⟩
  · exact Or.inl (closed_step hclosed hstep)
  have hown : ∀ fuel clock ret sched, act.op ≠ .onRecv fuel clock ret sched := by
    cases act <;> exact fun _ _ _ _ hop => nomatch hop
  rcases holds_own hfollows.ready.holds hown hstep with hclosed | ⟨m', hholds, hsame⟩
  · exact Or.inl hclosed
  · exact Or.inr ⟨m', w, part, k, hfollows.sameFrame hholds hsame⟩

/-! ### The network -/

namespace UDPLink

/-- The network brings every datagram, however late. -/
def lateStep (link : UDPLink) : Label → Option UDPLink
  | .act side act => step link (.act side act)
  | .deliver side i fuel clock sched =>
    match (link.sent side.peer)[i]? with
    | none => none
    | some d =>
      (FxUDPConnectSock.step (link.ends side).u (.onRecv fuel clock (.data d.bytes) sched)).map
        (link.after side)

/-- The datagram is not a header of `Connect`, its numbers have not wrapped, and the ring has room
for the payloads that it completes. -/
structure Harmless (e : Endpoint) (d : Datagram) : Prop where
  status : (d.bytes.getD 0 0).toNat = ESocketState.establish.code
  timely : Timely e d
  room : ((arrived (.data d.bytes) e.u).length : Int) ≤ e.u.sock.recvBuf.freeLen

/-- The sides push whole frames, and what comes to an open socket is harmless. -/
def Benign (link : UDPLink) : Label → Prop
  | .act _ (.push pTemData) => pTemData = (FxTCPConnectSock.encode (pTemData.drop 8)).1
  | .act _ (.update _ _) | .act _ .main | .act _ .delayClose => True
  | .deliver side i _ _ _ => (link.ends side).u.sock.isConnected = true →
    ∀ d ∈ (link.sent side.peer)[i]?, Harmless (link.ends side) d

instance (e : Endpoint) (d : Datagram) : Decidable (Harmless e d) :=
  decidable_of_iff ((d.bytes.getD 0 0).toNat = ESocketState.establish.code ∧ Timely e d ∧
      ((arrived (.data d.bytes) e.u).length : Int) ≤ e.u.sock.recvBuf.freeLen)
    ⟨fun h => ⟨h.1, h.2.1, h.2.2⟩, fun h => ⟨h.status, h.timely, h.room⟩⟩

instance (link : UDPLink) : (l : Label) → Decidable (Benign link l)
  | .act _ (.push _) => inferInstanceAs (Decidable (_ = _))
  | .act _ (.update _ _) | .act _ .main | .act _ .delayClose => inferInstanceAs (Decidable True)
  | .deliver _ _ _ _ _ => inferInstanceAs (Decidable (_ → _))

/-- `OnRecv` of an open socket neither closes it nor reports an error. -/
def Survives (link : UDPLink) : Label → Prop
  | .act _ _ => True
  | .deliver side i fuel clock sched => (link.ends side).u.sock.isConnected = true →
    ∀ link', lateStep link (.deliver side i fuel clock sched) = some link' →
      Undisturbed (link.ends side).u.sock (link'.ends side).u.sock

end UDPLink

theorem Tells.deliver {x y : Endpoint} {sent : List Datagram} {data : Nat → List UInt8}
    {start fuel : Nat} {clock : Nat → Rat} {sched : List Nat} {d : Datagram}
    {u' : FxUDPConnectSock} (h : Tells messages x.u y.u) (hflows : Flows x y sent data start)
    (hd : d ∈ sent) (hopen : y.u.sock.state = .establish) (hharmless : UDPLink.Harmless y d)
    (hstep : step y.u (.onRecv fuel clock (.data d.bytes) sched) = some u') :
    Undisturbed y.u.sock u'.sock ∧ Tells messages x.u u' := by
  have hstream := streams h.short
  have hcarries := hflows.carried d hd
  obtain ⟨cStatus, xs, hbytes, hshort, -⟩ := hcarries.bytes
  have hcut : d.bytes.take bufferSize =
      cStatus :: UInt8.ofNat d.syn :: UInt8.ofNat d.ack :: xs := by
    rw [hbytes, List.take_of_length_le]
    simp only [List.length_cons, UDPPacketHeader.headSize] at hshort ⊢
    omega
  have hstatus : cStatus.toNat = ESocketState.establish.code := by
    have hbyte := hharmless.status
    rw [hbytes] at hbyte
    exact hbyte
  obtain ⟨m, w, part, k, hfollows⟩ := h.follows.resolve_left (not_not_intro hopen)
  cases hflows.arrives with
  | closed closed => exact absurd hopen closed
  | «open» receives empty taken =>
    have hfree := receives.free_of_empty (Nat.mod_lt y.next (by decide)) empty
    obtain ⟨n, hbefore, harrived⟩ := arrived_stream receives empty
      fun _ _ _ _ hcopy n hge hlt hsyn _ => hflows.brings hd hharmless.timely hcopy hge hlt hsyn
    have hcontinues : Stream (messages.map FxTCPConnectSock.encode)
        (y.u.sock.taken ++ arrived (.data d.bytes) y.u) := by
      obtain ⟨q, -, hpushed⟩ := hflows.ring
      have hstart := hflows.start_le
      have hlast : y.next + n ≤ x.last := by
        cases n with
        | zero => exact hflows.received
        | succ n => exact hbefore n (Nat.lt_succ_self n)
      have hjoin := stream_add data start (y.next - start) n
      rw [Nat.add_sub_cancel' hstart] at hjoin
      rw [Stream, ← h.pushed, hpushed, taken, harrived, ← hjoin]
      exact (stream_mono data start (by omega)).trans (List.prefix_append _ _)
    have hsched : Follows (messages.map FxTCPConnectSock.encode) { y.u.sock with sched := sched }
        m w part k :=
      hfollows.sameFrame (hfollows.ready.holds.io (known_side _) rfl rfl) ⟨rfl, rfl, rfl, rfl, rfl⟩
    obtain ⟨t, ht, hresumes⟩ := Follows.onRecv (u := { y.u with sock := _ }) clock
      (max fuel 1073741826) hsched hstream
      (by simpa [isConnected] using hopen) hfree hcut hstatus hcontinues hharmless.room (by omega)
    have hcall : onRecv fuel clock (.data d.bytes)
        { y.u with sock := { y.u.sock with sched := sched } } = some u' := hstep
    obtain rfl := Option.some.inj
      (ht.symm.trans (onRecv_mono (Nat.le_max_left fuel 1073741826) hcall))
    exact ⟨⟨hresumes.undisturbed.state, hresumes.undisturbed.errors⟩, h.short, h.pushed,
      Or.inr hresumes.follows⟩

namespace UDPLink

variable {link link' : UDPLink}

/-- Both streams arrive as they were sent, and each side follows the frames of the other. -/
structure Told (link : UDPLink) : Prop where
  joined : Joined link
  tells : ∀ side, ∃ messages, Tells messages (link.ends side).u (link.ends side.peer).u

theorem told_after {side : Side} {u : FxUDPConnectSock} (hjoined : Joined (link.after side u))
    (hsender : ∃ messages, Tells messages u (link.ends side.peer).u)
    (hreceiver : ∃ messages, Tells messages (link.ends side.peer).u u) :
    Told (link.after side u) := by
  refine ⟨hjoined, fun s => ?_⟩
  cases side <;> cases s <;> simpa [after, Side.peer, Endpoint.advance] using by assumption

theorem Told.act (h : Told link) {side : Side} {act : Act} (hop : Benign link (.act side act))
    {u : FxUDPConnectSock} (hu : FxUDPConnectSock.step (link.ends side).u act.op = some u) :
    Told (link.after side u) := by
  have hreceiver := h.tells side.peer
  rw [Side.peer_peer] at hreceiver
  obtain ⟨messages', hreceives⟩ := hreceiver
  obtain ⟨messages, hsends⟩ := h.tells side
  refine told_after (h.joined.act hu) ?_ ⟨messages', hreceives.act_receiver act hu⟩
  obtain ⟨data, start, hflows⟩ := h.joined
  obtain ⟨q, hrep, -⟩ := (hflows side).ring
  cases act with
  | push pTemData =>
    obtain rfl := Option.some.inj hu
    rw [hop]
    exact hsends.push hrep (hflows side).small
  | update dTime answers =>
    obtain rfl := Option.some.inj hu
    refine ⟨messages, hsends.keeps_sender ?_⟩
    rcases update_cases dTime answers (link.ends side).u with hsame | ⟨-, -, hpushed⟩
    · exact hsame.pushed
    · exact hpushed
  | main =>
    obtain rfl := Option.some.inj hu
    exact ⟨messages, hsends.keeps_sender rfl⟩
  | delayClose =>
    obtain rfl := Option.some.inj hu
    exact ⟨messages, hsends.keeps_sender rfl⟩

theorem Told.deliver (h : Told link) {side : Side} {d : Datagram} (hd : d ∈ link.sent side.peer)
    (hop : (link.ends side).u.sock.state = .establish → Harmless (link.ends side) d) {fuel : Nat}
    {clock : Nat → Rat} {sched : List Nat} {u : FxUDPConnectSock}
    (hu : FxUDPConnectSock.step (link.ends side).u (.onRecv fuel clock (.data d.bytes) sched) =
      some u) :
    Told (link.after side u) ∧
      ((link.ends side).u.sock.state = .establish →
        Undisturbed (link.ends side).u.sock u.sock) := by
  have htimely := fun hopen => (hop hopen).timely
  obtain ⟨data, start, hflows⟩ := h.joined
  have hback := hflows side.peer
  have hreceiver := h.tells side.peer
  rw [Side.peer_peer] at hback hreceiver
  obtain ⟨-, -, hpushed⟩ := hback.deliver (hflows side) hd htimely hu
  obtain ⟨messages', hreceives⟩ := hreceiver
  obtain ⟨messages, hsends⟩ := h.tells side
  have hjoined := h.joined.deliver hd htimely hu
  have hsender := hsends.keeps_sender hpushed
  by_cases hopen : (link.ends side).u.sock.state = .establish
  · obtain ⟨hundisturbed, htells⟩ := hreceives.deliver hback hd hopen (hop hopen) hu
    exact ⟨told_after hjoined ⟨messages, hsender⟩ ⟨messages', htells⟩, fun _ => hundisturbed⟩
  · refine ⟨told_after hjoined ⟨messages, hsender⟩ ⟨messages', hreceives.short, hreceives.pushed,
      Or.inl (closed_step hopen hu)⟩, fun hc => absurd hc hopen⟩

theorem Told.step (h : Told link) {l : Label} (hop : Benign link l)
    (hstep : lateStep link l = some link') : Told link' := by
  cases l with
  | act side act =>
    obtain ⟨u, hu, rfl⟩ := Option.map_eq_some_iff.mp hstep
    exact h.act hop hu
  | deliver side i fuel clock sched =>
    rw [lateStep] at hstep
    split at hstep
    · cases hstep
    · rename_i d hd
      obtain ⟨u, hu, rfl⟩ := Option.map_eq_some_iff.mp hstep
      exact (h.deliver (List.mem_of_getElem? hd)
        (fun hopen => hop (by simpa [isConnected] using hopen) d hd) hu).1

theorem Told.survives (h : Told link) {l : Label} (hop : Benign link l) : Survives link l := by
  cases l with
  | act side act => trivial
  | deliver side i fuel clock sched =>
    intro hconn link' hstep
    rw [lateStep] at hstep
    split at hstep
    · cases hstep
    · rename_i d hd
      obtain ⟨u, hu, rfl⟩ := Option.map_eq_some_iff.mp hstep
      have hopen : (link.ends side).u.sock.state = .establish := by simpa [isConnected] using hconn
      obtain ⟨-, hundisturbed⟩ :=
        h.deliver (List.mem_of_getElem? hd) (fun _ => hop hconn d hd) hu
      simpa [after, Endpoint.advance] using hundisturbed hopen

end UDPLink

/-! ### Behind the handshake -/

/-- No frame of an earlier socket is announced for an object of the pool. -/
structure Unannounced (u : FxUDPConnectSock) : Prop where
  events : recvLens u.sock.events = []
  announced : recvLens u.sock.announced = []

variable {c : FxConnection} {dNow : Rat} {recvMem sendMem : Mem} {pool : FxUDPConnectSock}

theorem opened_init (dNow : Rat) (recvMem sendMem : Mem) (h : Unannounced pool) :
    Opened (init dNow recvMem sendMem pool).sock := by
  have hinit : (FxLoopBuff.new.init buffSize (some recvMem)).1 = true := rfl
  obtain ⟨hrep, hmarks, htotal⟩ := FxLoopBuff.init_rep FxLoopBuff.new (by decide)
    ⟨by decide, by decide⟩ hinit
  refine ⟨hrep, hmarks, ?_, rfl, h.events, h.announced, rfl, rfl⟩
  show (FxLoopBuff.new.init buffSize (some recvMem)).2.totalLen ≤ 1073741824
  rw [htotal]
  decide

theorem opened_establish (h : Opened u.sock) : Opened (u.establish c).sock := by
  refine ⟨h.rep, h.marks, h.small, h.needData, ?_, ?_, h.taken, h.popped⟩
  · simp only [establish, pushNetEvent, recvLens_append, h.events]
    rfl
  · simp only [establish, pushNetEvent, recvLens_append, h.announced]
    rfl

theorem connect_opened {answer : List UInt8} (h : Unannounced pool)
    (hconnect : connect c dNow answer (init dNow recvMem sendMem pool) = some u) :
    Opened u.sock := by
  obtain ⟨hrep, hmarks, hsmall, hneed, hevents, hannounced, htaken, hpopped⟩ :=
    opened_init dNow recvMem sendMem h
  simp only [connect] at hconnect
  split_ifs at hconnect
  obtain rfl := Option.some.inj hconnect
  apply opened_establish
  exact ⟨hrep, hmarks, hsmall, hneed, hevents, hannounced, htaken, hpopped⟩

theorem onAccept_opened {datagram : Option (List UInt8)} (h : Unannounced pool)
    (haccept : onAccept c dNow recvMem sendMem datagram pool = some u) : Opened u.sock := by
  obtain ⟨hrep, hmarks, hsmall, hneed, hevents, hannounced, htaken, hpopped⟩ :=
    opened_init dNow recvMem sendMem h
  rw [onAccept] at haccept
  split_ifs at haccept
  obtain rfl := Option.some.inj haccept
  apply opened_establish
  exact ⟨hrep, hmarks, hsmall, hneed, hevents, hannounced, htaken, hpopped⟩

theorem tells_shaken {x y : FxUDPConnectSock} (hx : Shaken x) (hy : Opened y.sock) :
    Tells [] x y := by
  have hsettled : Settled [] y.sock [] [] 0 0 := hy.settled fun _ hf => absurd hf List.not_mem_nil
  exact ⟨fun _ hm => absurd hm List.not_mem_nil, hx.pushed,
    Or.inr ⟨[], [], 0, 0, hsettled.follows⟩⟩

namespace UDPLink

variable {client server : FxUDPConnectSock} {ls : List Label}

theorem told_opened (hclient : Shaken client) (hserver : Shaken server)
    (hclient' : Opened client.sock) (hserver' : Opened server.sock) :
    Told (opened client server) := by
  refine ⟨joined_of_handShaken (handShaken_opened hclient hserver), fun side => ⟨[], ?_⟩⟩
  cases side with
  | client => exact tells_shaken hclient hserver'
  | server => exact tells_shaken hserver hclient'

/-- As long as no header of `Connect` comes to an open socket, no datagram whose numbers have
wrapped and none that completes more than the ring has room for, no datagram of a peer that sends
whole frames disturbs the socket, however late, often and out of order it comes. -/
theorem survives_of_benign {c₁ c₂ : FxConnection} {dNow₁ dNow₂ : Rat}
    {recvMem₁ sendMem₁ recvMem₂ sendMem₂ : Mem} {pool₁ pool₂ : FxUDPConnectSock}
    (hpool₁ : Unannounced pool₁) (hpool₂ : Unannounced pool₂)
    (hconnect : connect c₁ dNow₁ [UInt8.ofNat ESocketState.establish.code, 1, 1]
      (init dNow₁ recvMem₁ sendMem₁ pool₁) = some client)
    (haccept : onAccept c₂ dNow₂ recvMem₂ sendMem₂
      (some [UInt8.ofNat ESocketState.connect.code, 1, 0]) pool₂ = some server)
    (hops : Transition.Always lateStep Benign (opened client server) ls) :
    Transition.Always lateStep Survives (opened client server) ls := by
  have htold : Told (opened client server) :=
    told_opened (connect_shaken (new_init _ _ _ _) hconnect) (onAccept_shaken (by simp) haccept)
      (connect_opened hpool₁ hconnect) (onAccept_opened hpool₂ haccept)
  exact hops.imp Told (fun _ _ h hop => h.survives hop) (fun _ _ _ h hop hstep => h.step hop hstep)
    htold


/-- A frame comes behind a later acknowledgement and twice. -/
def strayed : List Label :=
  let serve : Side → Rat → Label := fun side dTime => .act side (.update dTime fun _ => .count 4)
  let deliver : Side → Nat → Label := fun side i => .deliver side i 20 (fun _ => 0) []
  [.act .client (.push (FxTCPConnectSock.encode [7, 8]).1), serve .client 1, deliver .server 1,
    deliver .server 1, serve .server 1, deliver .client 1, serve .client 2, serve .client 3,
    deliver .server 3, deliver .server 2, deliver .server 1]

theorem survives_strayed :
    ∃ client server, connected = some client ∧ listened = some server ∧
      Transition.Always lateStep Survives (opened client server) strayed := by
  obtain ⟨client, hclient⟩ : ∃ client, connected = some client :=
    Option.isSome_iff_exists.mp (by decide +kernel)
  obtain ⟨server, hserver⟩ : ∃ server, listened = some server :=
    Option.isSome_iff_exists.mp (by decide +kernel)
  have hbenign : connected.all (fun client => listened.all fun server =>
      Transition.Always lateStep Benign (opened client server) strayed) = true := by
    decide +kernel
  rw [hclient, Option.all_some, hserver, Option.all_some, decide_eq_true_iff] at hbenign
  exact ⟨client, server, hclient, hserver,
    survives_of_benign ⟨rfl, rfl⟩ ⟨rfl, rfl⟩ hclient hserver hbenign⟩

/-- A second copy of the header that `Connect` has sent comes to the socket that the first one has
opened. -/
def straySyn : Label := .deliver .server 0 20 (fun _ => 0) []

theorem connect_header_disturbs :
    (synHeader (init 0 (fun _ => 0) (fun _ => 0) (accepted 16))).bytes = [3, 1, 0] ∧
      ∃ client server link, connected = some client ∧ listened = some server ∧
        ((opened client server).sent .client).map Datagram.bytes = [[3, 1, 0]] ∧
        server.sock.isConnected = true ∧
        lateStep (opened client server) straySyn = some link ∧
        (link.ends .server).u.sock.state = .close ∧
        reported (link.ends .server).u.sock = [⟨.error, toUInt32 netConnectFail⟩] ∧
        ¬ Survives (opened client server) straySyn := by
  refine ⟨by decide +kernel, ?_⟩
  obtain ⟨client, hclient⟩ : ∃ client, connected = some client :=
    Option.isSome_iff_exists.mp (by decide +kernel)
  obtain ⟨server, hserver⟩ : ∃ server, listened = some server :=
    Option.isSome_iff_exists.mp (by decide +kernel)
  have hfacts : connected.all (fun client => listened.all fun server =>
      server.sock.isConnected = true ∧ ∃ link ∈ lateStep (opened client server) straySyn,
        (link.ends .server).u.sock.state = .close ∧
        reported (link.ends .server).u.sock = [⟨.error, toUInt32 netConnectFail⟩]) = true := by
    decide +kernel
  rw [hclient, Option.all_some, hserver, Option.all_some, decide_eq_true_iff] at hfacts
  obtain ⟨hconn, link, hstep, hclosed, herrors⟩ := hfacts
  refine ⟨client, server, link, hclient, hserver, rfl, hconn, hstep, hclosed, herrors, fun h => ?_⟩
  have hstate := (h hconn link hstep).state
  have hopen : server.sock.state = .establish := by simpa [isConnected] using hconn
  rw [hclosed] at hstate
  exact absurd (hstate.trans hopen) (by decide)

end UDPLink

end FxUDPConnectSock
