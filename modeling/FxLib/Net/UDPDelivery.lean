import FxLib.Lib.Transition
import FxLib.Net.UDPPartition

/-!
# Two reliable UDP sockets and the network between them

The network loses, duplicates and reorders what the two sockets send. Next to each socket stand its
sequence numbers as they would be if they did not wrap, and with each datagram the two of its
header; a datagram is not delivered once one of them lags more than 224 behind the window it is
compared with. What one side hands to its receive ring is then a prefix of what was pushed on the
other.
-/

open MachineInt

namespace FxUDPConnectSock

open RecvSock SlidingWindow

/-- The number from `n` on that the byte `bt` stands for. -/
def unwrap (n bt : Nat) : Nat := n + span (n % 256) bt

theorem unwrap_mod {n m : Nat} (hle : n ≤ m) (hlt : m < n + 256) : unwrap n (m % 256) = m := by
  rw [unwrap, span]
  omega

theorem unwrap_self (n : Nat) : unwrap n (n % 256) = n := unwrap_mod le_rfl (by omega)

/-- A socket, with the begin and the end of its send window and the begin of its receive window. -/
structure Endpoint where
  u : FxUDPConnectSock
  first : Nat
  last : Nat
  next : Nat

/-- What the network has taken from a socket, with the sequence number and the acknowledgement of
the header. -/
structure Datagram where
  bytes : List UInt8
  syn : Nat
  ack : Nat

namespace Endpoint

/-- The endpoint behind a step of its socket. -/
def advance (e : Endpoint) (u : FxUDPConnectSock) : Endpoint :=
  ⟨u, unwrap e.first u.sendWindow.btBegin, unwrap e.last u.sendWindow.btEnd,
    unwrap e.next u.recvWindow.btBegin⟩

/-- What the step has sent. No sequence number is before the one in front of the send window, and
every packet acknowledges up to the begin of the receive window. -/
def posted (e : Endpoint) (u : FxUDPConnectSock) : List Datagram :=
  (u.sent.drop e.u.sent.length).map fun bytes =>
    ⟨bytes, unwrap (e.first - 1) (bytes.getD 1 0).toNat, e.next - 1⟩

end Endpoint

inductive Side where
  | client
  | server
  deriving DecidableEq

def Side.peer : Side → Side
  | .client => .server
  | .server => .client

theorem Side.peer_peer (side : Side) : side.peer.peer = side := by
  cases side <;> rfl

/-- The two sockets, and all that the network has taken from each. -/
structure UDPLink where
  ends : Side → Endpoint
  sent : Side → List Datagram

namespace UDPLink

/-- What a side does by itself. -/
inductive Act where
  | push (pTemData : List UInt8)
  | update (dTime : Rat) (answers : Nat → SendRet)
  | main
  | delayClose

def Act.op : Act → Op
  | .push pTemData => .push pTemData
  | .update dTime answers => .update dTime answers
  | .main => .main
  | .delayClose => .delayClose

/-- A side acts, or a datagram of its peer comes to it. -/
inductive Label where
  | act (side : Side) (act : Act)
  | deliver (side : Side) (i fuel : Nat) (clock : Nat → Rat) (sched : List Nat)

/-- The link behind a step of one of its sockets. -/
def after (link : UDPLink) (side : Side) (u : FxUDPConnectSock) : UDPLink :=
  { ends := Function.update link.ends side ((link.ends side).advance u)
    sent := Function.update link.sent side (link.sent side ++ (link.ends side).posted u) }

/-- Neither number of the datagram lags more than 224 behind. -/
def Timely (e : Endpoint) (d : Datagram) : Prop := e.next ≤ d.syn + 224 ∧ e.first ≤ d.ack + 224

instance (e : Endpoint) (d : Datagram) : Decidable (Timely e d) :=
  inferInstanceAs (Decidable (_ ∧ _))

def step (link : UDPLink) : Label → Option UDPLink
  | .act side act => (FxUDPConnectSock.step (link.ends side).u act.op).map (link.after side)
  | .deliver side i fuel clock sched =>
    match (link.sent side.peer)[i]? with
    | none => none
    | some d =>
      if Timely (link.ends side) d then
        (FxUDPConnectSock.step (link.ends side).u (.onRecv fuel clock (.data d.bytes) sched)).map
          (link.after side)
      else none

end UDPLink

/-! ### One direction -/

/-- A datagram carries a packet of the sender's stream, or one that its window has left behind. -/
structure Carries (x : Endpoint) (data : Nat → List UInt8) (d : Datagram) : Prop where
  syn : d.syn < x.last
  ack : d.ack < x.next
  bytes : ∃ cStatus xs, d.bytes = cStatus :: UInt8.ofNat d.syn :: UInt8.ofNat d.ack :: xs ∧
    UDPPacketHeader.headSize + xs.length ≤ bufferSize ∧ (x.first ≤ d.syn → xs = data d.syn)

/-- What has come to the receiver: the packets from `start` on; once it is closed, perhaps a part of
the next one too. -/
inductive Arrives (y : Endpoint) (data : Nat → List UInt8) (start last : Nat) : Prop
  | open (receives : Receives y.u.recvWindow data y.next last [])
      (empty : windowSize ≤ y.u.recvWindow.seqBufferId (y.next % windowSize))
      (taken : y.u.sock.taken = stream data start (y.next - start))
  | closed (closed : y.u.sock.state ≠ .establish) (xs : List UInt8)
      (begins : y.u.recvWindow.btBegin = y.next % 256)
      (hpart : xs = [] ∨ y.next < last ∧ xs <+: data y.next)
      (taken : y.u.sock.taken = stream data start (y.next - start) ++ xs)

/-- The stream from `x` to `y`: `data` is what is in its packets, of which `y` gets the ones from
`start` on, and what is in no packet yet is in the send ring. -/
structure Flows (x y : Endpoint) (sent : List Datagram) (data : Nat → List UInt8) (start : Nat) :
    Prop where
  pos : 1 ≤ x.first
  start_le : start ≤ y.next
  sends : Sends x.u.sendWindow data x.first x.last
  ring : ∃ q, x.u.sendBuf.Rep q ∧ x.u.pushed = stream data start (x.last - start) ++ q
  small : x.u.sendBuf.totalLen ≤ 1073741824
  acked : x.first ≤ y.next
  received : y.next ≤ x.last
  arrives : Arrives y data start x.last
  carried : ∀ d ∈ sent, Carries x data d

variable {x x' y y' : Endpoint} {u' : FxUDPConnectSock} {sent new : List Datagram}
  {data data' : Nat → List UInt8} {start first last last' : Nat}

theorem Arrives.begins (h : Arrives y data start last) :
    y.u.recvWindow.btBegin = y.next % 256 := by
  cases h with
  | «open» receives empty taken => exact receives.begins
  | closed closed xs begins hpart taken => exact begins

/-- More packets may follow the ones that the receiver knows of. -/
theorem Arrives.mono (h : Arrives y data start last) (hle : last ≤ last')
    (hnext : y.next ≤ last) (hkeeps : ∀ n < last, data' n = data n) :
    Arrives y data' start last' := by
  have hstream : stream data' start (y.next - start) = stream data start (y.next - start) :=
    stream_congr fun i _ hi => hkeeps i (by omega)
  cases h with
  | «open» receives empty taken =>
    refine .open ⟨receives.begins, receives.ends, receives.pool, fun n hge hlt hid => ?_⟩ empty ?_
    · obtain ⟨hn, hstored⟩ := receives.stored n hge hlt hid
      rw [hkeeps n hn]
      exact ⟨by omega, hstored⟩
    · rw [hstream]
      exact taken
  | closed closed xs begins hpart taken =>
    refine .closed closed xs begins ?_ ?_
    · refine hpart.imp_right fun ⟨hlt, hxs⟩ => ⟨by omega, ?_⟩
      rw [hkeeps y.next hlt]
      exact hxs
    · rw [hstream]
      exact taken

theorem Carries.mono {d : Datagram} (h : Carries x data d) (hfirst : x.first ≤ x'.first)
    (hlast : x.last ≤ x'.last) (hnext : x.next ≤ x'.next)
    (hkeeps : ∀ n < x.last, data' n = data n) : Carries x' data' d := by
  obtain ⟨cStatus, xs, hbytes, hshort, hdata⟩ := h.bytes
  refine ⟨h.syn.trans_le hlast, h.ack.trans_le hnext, cStatus, xs, hbytes, hshort, fun hge => ?_⟩
  rw [hkeeps d.syn h.syn]
  exact hdata (by omega)

/-- The sender has moved on. -/
theorem Flows.sender (h : Flows x y sent data start)
    (hsends : Sends x'.u.sendWindow data' x'.first x'.last) (hfirst : x.first ≤ x'.first)
    (hacked : x'.first ≤ y.next) (hlast : x.last ≤ x'.last) (hnext : x.next ≤ x'.next)
    (hkeeps : ∀ n < x.last, data' n = data n)
    (hring : ∃ q, x'.u.sendBuf.Rep q ∧ x'.u.pushed = stream data' start (x'.last - start) ++ q)
    (hsmall : x'.u.sendBuf.totalLen ≤ 1073741824) (hnew : ∀ d ∈ new, Carries x' data' d) :
    Flows x' y (sent ++ new) data' start := by
  refine ⟨h.pos.trans hfirst, h.start_le, hsends, hring, hsmall, hacked, h.received.trans hlast,
    h.arrives.mono hlast h.received hkeeps, fun d hd => ?_⟩
  rcases List.mem_append.mp hd with hd | hd
  · exact (h.carried d hd).mono hfirst hlast hnext hkeeps
  · exact hnew d hd

/-- And the receiver. -/
theorem Flows.receiver (h : Flows x y sent data start) (hle : y.next ≤ y'.next)
    (hreceived : y'.next ≤ x.last) (harrives : Arrives y' data start x.last) :
    Flows x y' sent data start :=
  ⟨h.pos, h.start_le.trans hle, h.sends, h.ring, h.small, h.acked.trans hle, hreceived, harrives,
    h.carried⟩

/-! ### What a side does by itself -/

theorem Flows.keeps_receiver (h : Flows x y sent data start)
    (hwindow : u'.recvWindow = y.u.recvWindow) (htaken : u'.sock.taken = y.u.sock.taken)
    (hclosed : y.u.sock.state ≠ .establish → u'.sock.state ≠ .establish) :
    Flows x (y.advance u') sent data start := by
  have hnext : (y.advance u').next = y.next := by
    rw [Endpoint.advance, hwindow, h.arrives.begins]
    exact unwrap_self y.next
  have harrives : Arrives (y.advance u') data start x.last := by
    cases h.arrives with
    | «open» receives empty taken =>
      exact .open (by rw [hnext]; exact hwindow ▸ receives) (by rw [hnext]; exact hwindow ▸ empty)
        (by rw [hnext]; exact htaken.trans taken)
    | closed closed xs begins hpart taken =>
      exact .closed (hclosed closed) xs (by rw [hnext]; exact hwindow ▸ begins)
        (by rw [hnext]; exact hpart) (by rw [hnext]; exact htaken.trans taken)
  exact h.receiver hnext.ge (hnext.le.trans h.received) harrives

theorem Flows.keeps_sender (h : Flows x y sent data start)
    (hwindow : u'.sendWindow = x.u.sendWindow) (hsent : u'.sent = x.u.sent)
    (hring : ∃ q, u'.sendBuf.Rep q ∧ u'.pushed = stream data start (x.last - start) ++ q)
    (hsmall : u'.sendBuf.totalLen ≤ 1073741824) :
    Flows (x.advance u') y (sent ++ x.posted u') data start := by
  have hfirst : (x.advance u').first = x.first := by
    rw [Endpoint.advance, hwindow, h.sends.begins]
    exact unwrap_self x.first
  have hlast : (x.advance u').last = x.last := by
    rw [Endpoint.advance, hwindow, h.sends.ends]
    exact unwrap_self x.last
  have hposted : x.posted u' = [] := by
    rw [Endpoint.posted, hsent, List.drop_length, List.map_nil]
  rw [hposted]
  apply h.sender _ hfirst.ge (hfirst.le.trans h.acked) hlast.ge (Nat.le_add_right _ _)
    (fun _ _ => rfl) _ hsmall (fun _ hd => absurd hd List.not_mem_nil)
  · rw [hfirst, hlast]
    exact hwindow ▸ h.sends
  · rw [hlast]
    exact hring

/-- What `update` has posted. -/
theorem Flows.posted (h : Flows x y sent data start)
    (hbegins : x.u.recvWindow.btBegin = x.next % 256) (hnext : 1 ≤ x.next) {q q' : List UInt8}
    (hposts : Posts x.u u' data data' x.first x.last last' q q') :
    ∀ d ∈ x.posted u', Carries (x.advance u') data' d := by
  obtain ⟨ys, hputs, -⟩ := hposts.puts
  obtain ⟨packets, hsent, hposted⟩ := hposts.sent
  have hwidth := hputs.sends.width
  have hle := hputs.le
  have hpos := h.pos
  have hfirst : (x.advance u').first = x.first := by
    rw [Endpoint.advance, hputs.sends.begins]
    exact unwrap_self x.first
  have hlast : (x.advance u').last = last' := by
    rw [Endpoint.advance, hputs.sends.ends]
    exact unwrap_mod hle (by rw [windowSize] at hwidth; have := h.sends.le; omega)
  have hnext' : x.next ≤ (x.advance u').next := Nat.le_add_right _ _
  rw [windowSize] at hwidth
  intro d hd
  rw [Endpoint.posted, hsent, List.drop_left] at hd
  obtain ⟨packet, hin, rfl⟩ := List.mem_map.mp hd
  obtain ⟨n, xs, hn, hlt, hxs, hshort, rfl⟩ := hposted packet hin
  have hsyn : unwrap (x.first - 1) ((packetBytes n x.u.recvWindow.btBegin xs).getD 1 0).toNat =
      n := by
    have hbyte : ((packetBytes n x.u.recvWindow.btBegin xs).getD 1 0).toNat = n % 256 := by
      simp [packetBytes, UDPPacketHeader.bytes]
    rw [hbyte]
    exact unwrap_mod (by omega) (by omega)
  have hack : UInt8.ofNat (pred x.u.recvWindow.btBegin) = UInt8.ofNat (x.next - 1) := by
    have hpred : pred x.u.recvWindow.btBegin = (x.next - 1) % 256 := by
      rw [hbegins, pred]
      omega
    rw [hpred]
    exact UInt8.toNat_inj.mp (by simp)
  refine ⟨?_, ?_, UInt8.ofNat ESocketState.establish.code, xs, ?_, hshort, fun hge => ?_⟩
  · rw [hsyn, hlast]
    exact hlt
  · exact lt_of_lt_of_le (Nat.sub_lt hnext Nat.one_pos) hnext'
  · have hmod : UInt8.ofNat (n % 256) = UInt8.ofNat n := UInt8.toNat_inj.mp (by simp)
    rw [hsyn, ← hack, ← hmod]
    rfl
  · rw [hsyn] at hge ⊢
    exact hxs (hfirst ▸ hge)

theorem Flows.update (h : Flows x y sent data start)
    (hbegins : x.u.recvWindow.btBegin = x.next % 256) (hnext : 1 ≤ x.next) (dTime : Rat)
    (answers : Nat → SendRet) :
    ∃ data', Flows (x.advance (update dTime answers x.u)) y
      (sent ++ x.posted (update dTime answers x.u)) data' start := by
  obtain ⟨q, hrep, hpushed⟩ := h.ring
  obtain ⟨data', last', q', hposts⟩ := update_posts dTime answers h.sends h.pos hrep h.small
  have hnew := h.posted hbegins hnext hposts
  obtain ⟨ys, hputs, hq⟩ := hposts.puts
  have hwidth := hputs.sends.width
  have hle := hputs.le
  have hxy := h.acked
  have hstart := h.start_le.trans h.received
  rw [windowSize] at hwidth
  have hfirst : (x.advance (FxUDPConnectSock.update dTime answers x.u)).first = x.first := by
    rw [Endpoint.advance, hputs.sends.begins]
    exact unwrap_self x.first
  have hlast : (x.advance (FxUDPConnectSock.update dTime answers x.u)).last = last' := by
    rw [Endpoint.advance, hputs.sends.ends]
    exact unwrap_mod hle (by have := h.sends.le; omega)
  refine ⟨data', h.sender ?_ hfirst.ge (hfirst.le.trans hxy) (by rw [hlast]; exact hle)
    (Nat.le_add_right _ _) hputs.keeps ⟨q', hposts.rep, ?_⟩ ?_ hnew⟩
  · rw [hfirst, hlast]
    exact hputs.sends
  · have hold : stream data' start (x.last - start) = stream data start (x.last - start) :=
      stream_congr fun i _ hi => hputs.keeps i (by omega)
    have hsplit : last' - start = x.last - start + (last' - x.last) := by omega
    rw [hlast, hsplit, stream_add, hold, Nat.add_sub_cancel' hstart, hputs.bytes, List.append_assoc,
      ← hq]
    exact hposts.pushed.trans hpushed
  · exact hposts.totalLen.le.trans h.small

/-- The rest of what the application and the two threads do. -/
theorem act_same {u : FxUDPConnectSock} (act : UDPLink.Act)
    (hstep : FxUDPConnectSock.step u act.op = some u') :
    u'.recvWindow = u.recvWindow ∧ u'.sock.taken = u.sock.taken := by
  cases act with
  | push pTemData =>
    obtain rfl := Option.some.inj hstep
    exact ⟨(pushFrame_windows pTemData u).2, by rw [pushFrame_sock]⟩
  | update dTime answers =>
    obtain rfl := Option.some.inj hstep
    rcases update_cases dTime answers u with hsame | ⟨hsock, hwindow, -⟩
    · exact ⟨hsame.recvWindow, by rw [hsame.sock]⟩
    · exact ⟨hwindow, by rw [hsock, fail_same]⟩
  | main =>
    obtain rfl := Option.some.inj hstep
    exact ⟨rfl, mainStep_taken pops_procRecv u.sock⟩
  | delayClose =>
    obtain rfl := Option.some.inj hstep
    refine ⟨rfl, ?_⟩
    simp only
    split_ifs
    · rw [close_same]
    · rfl

theorem Flows.act_receiver (h : Flows x y sent data start) (act : UDPLink.Act)
    (hstep : FxUDPConnectSock.step y.u act.op = some u') :
    Flows x (y.advance u') sent data start := by
  obtain ⟨hwindow, htaken⟩ := act_same act hstep
  exact h.keeps_receiver hwindow htaken fun hclosed => closed_step hclosed hstep

theorem Flows.act_sender (h : Flows x y sent data start)
    (hbegins : x.u.recvWindow.btBegin = x.next % 256) (hnext : 1 ≤ x.next) (act : UDPLink.Act)
    (hstep : FxUDPConnectSock.step x.u act.op = some u') :
    ∃ data', Flows (x.advance u') y (sent ++ x.posted u') data' start := by
  obtain ⟨q, hrep, hpushed⟩ := h.ring
  cases act with
  | push pTemData =>
    obtain rfl := Option.some.inj hstep
    obtain ⟨ys, hrep', htotal, hys, -⟩ := pushFrame_ring pTemData hrep h.small
    refine ⟨data, h.keeps_sender (pushFrame_windows pTemData x.u).1 (pushFrame_sent pTemData x.u)
      ⟨q ++ ys, hrep', ?_⟩ (htotal.le.trans h.small)⟩
    rw [hys, hpushed, List.append_assoc]
  | update dTime answers =>
    obtain rfl := Option.some.inj hstep
    exact h.update hbegins hnext dTime answers
  | main =>
    obtain rfl := Option.some.inj hstep
    exact ⟨data, h.keeps_sender rfl rfl h.ring h.small⟩
  | delayClose =>
    obtain rfl := Option.some.inj hstep
    exact ⟨data, h.keeps_sender rfl rfl h.ring h.small⟩

/-! ### What the network brings -/

/-- What a datagram on time brings to the empty slot of `n` is the packet `n`. -/
theorem Flows.brings (h : Flows x y sent data start) {d : Datagram} (hd : d ∈ sent)
    (htimely : UDPLink.Timely y d) {cStatus cSyn cAck : UInt8} {xs : List UInt8}
    (hbytes : d.bytes.take bufferSize = cStatus :: cSyn :: cAck :: xs) {n : Nat} (hge : y.next ≤ n)
    (hlt : n < y.next + windowSize) (hsyn : n % 256 = cSyn.toNat) : n < x.last ∧ data n = xs := by
  have hcarries := h.carried d hd
  obtain ⟨cStatus', xs', hcut, hshort, hdata⟩ := hcarries.bytes
  have hwidth := h.sends.width
  have hacked := h.acked
  have hlast := hcarries.syn
  have hlag := htimely.1
  rw [hcut, List.take_of_length_le (by
    simp only [List.length_cons, UDPPacketHeader.headSize] at hshort ⊢; omega)] at hbytes
  obtain ⟨-, rfl, -, rfl⟩ : cStatus' = cStatus ∧ UInt8.ofNat d.syn = cSyn ∧
      UInt8.ofNat d.ack = cAck ∧ xs' = xs := by simpa using hbytes
  have hmod : n % 256 = d.syn % 256 := by
    rw [hsyn]
    simp
  rw [windowSize] at hlt hwidth
  obtain rfl : n = d.syn := by omega
  exact ⟨hlast, (hdata (hacked.trans hge)).symm⟩

/-- The byte of the acknowledgement. -/
theorem Carries.ack_byte {d : Datagram} (h : Carries x data d) :
    ((d.bytes.take bufferSize).getD 2 0).toNat = d.ack % 256 := by
  obtain ⟨cStatus, xs, hcut, hshort, -⟩ := h.bytes
  rw [hcut, List.take_of_length_le (by
    simp only [List.length_cons, UDPPacketHeader.headSize] at hshort ⊢; omega)]
  simp

/-- The receiver's window has moved on by what came into the ring. -/
theorem Flows.arrived (h : Flows x y sent data start)
    (hopen : y.u.sock.taken = stream data start (y.next - start))
    (hreceived : Received y.u u' data y.next x.last) : Flows x (y.advance u') sent data start := by
  have hwidth := h.sends.width
  have hacked := h.acked
  have hle := h.received
  have hstart := h.start_le
  rw [windowSize] at hwidth
  have hstream : ∀ n, stream data start (y.next - start) ++ stream data y.next n =
      stream data start (y.next + n - start) := by
    intro n
    rw [show y.next + n - start = y.next - start + n by omega, stream_add,
      Nat.add_sub_cancel' hstart]
  have hcount : ∀ n, (∀ i < n, y.next + i < x.last) → y.next + n ≤ x.last := by
    intro n before
    cases n with
    | zero => exact hle
    | succ n => exact before n (Nat.lt_succ_self n)
  have hnext : ∀ n, (∀ i < n, y.next + i < x.last) →
      u'.recvWindow.btBegin = (y.next + n) % 256 → (y.advance u').next = y.next + n := by
    intro n before hbegin
    have := hcount n before
    rw [Endpoint.advance, hbegin]
    exact unwrap_mod (Nat.le_add_right _ _) (by omega)
  cases hreceived with
  | «open» n before receives empty taken =>
    have hn := hnext n before receives.begins
    refine h.receiver (by rw [hn]; exact Nat.le_add_right _ _) (by rw [hn]; exact hcount n before)
      (.open ?_ ?_ ?_)
    · rw [hn]
      exact receives
    · rw [hn]
      exact empty
    · rw [hn, ← hstream, ← hopen]
      exact taken
  | closed n xs before hn32 begins closed hpart taken =>
    have hn := hnext n before begins
    refine h.receiver (by rw [hn]; exact Nat.le_add_right _ _) (by rw [hn]; exact hcount n before)
      (.closed closed xs ?_ ?_ ?_)
    · rw [hn]
      exact begins
    · rw [hn]
      exact hpart
    · rw [hn, ← hstream, ← hopen]
      exact taken

/-- What the datagram acknowledges has come to the other side. -/
theorem Flows.acknowledged (h : Flows y x sent data start) {ack : Nat} (hack : ack < x.next)
    (hlag : y.first ≤ ack + 224)
    (hacks : Acknowledges y.u u' data y.first y.last (ack % 256)) :
    Flows (y.advance u') x (sent ++ y.posted u') data start := by
  obtain ⟨first', hsends, hle, hbound⟩ := hacks.sends
  have hwidth := h.sends.width
  have hacked := h.acked
  have hreceived := h.received
  have hend := hsends.le
  have hmost := hbound ack rfl (by omega) hlag
  rw [windowSize] at hwidth
  have hfirst : (y.advance u').first = first' := by
    rw [Endpoint.advance, hsends.begins]
    exact unwrap_mod hle (by omega)
  have hlast : (y.advance u').last = y.last := by
    rw [Endpoint.advance, hsends.ends]
    exact unwrap_self y.last
  have hposted : y.posted u' = [] := by
    rw [Endpoint.posted, hacks.same.sent, List.drop_length, List.map_nil]
  obtain ⟨q, hrep, hpushed⟩ := h.ring
  rw [hposted]
  apply h.sender _ (by rw [hfirst]; exact hle) (by rw [hfirst]; omega) hlast.ge
    (Nat.le_add_right _ _) (fun _ _ => rfl) ⟨q, _, _⟩ _ (fun _ hd => absurd hd List.not_mem_nil)
  · rw [hfirst, hlast]
    exact hsends
  · exact hacks.same.sendBuf ▸ hrep
  · rw [hlast]
    exact hacks.same.pushed.trans hpushed
  · exact (congrArg FxLoopBuff.totalLen hacks.same.sendBuf).le.trans h.small

theorem Flows.deliver {sent' : List Datagram} {start' : Nat} (h : Flows x y sent data start)
    (hback : Flows y x sent' data' start') {d : Datagram} (hd : d ∈ sent)
    (htimely : y.u.sock.state = .establish → UDPLink.Timely y d) {fuel : Nat} {clock : Nat → Rat}
    {sched : List Nat}
    (hstep : FxUDPConnectSock.step y.u (.onRecv fuel clock (.data d.bytes) sched) = some u') :
    Flows x (y.advance u') sent data start ∧
      Flows (y.advance u') x (sent' ++ y.posted u') data' start' ∧ u'.pushed = y.u.pushed := by
  by_cases hstate : y.u.sock.state = .establish
  · have hlag := htimely hstate
    cases h.arrives with
    | «open» receives empty taken =>
      obtain ⟨hreceived, hacks⟩ := onRecv_received
        (u := { y.u with sock := { y.u.sock with sched := sched } }) hback.sends receives empty
        (fun _ _ _ _ hbytes n hge hlt hsyn _ => h.brings hd hlag hbytes hge hlt hsyn) hstep
      rw [(h.carried d hd).ack_byte] at hacks
      refine ⟨h.arrived taken (hreceived.of_taken rfl), ?_, hacks.same.pushed⟩
      exact hback.acknowledged (h.carried d hd).ack hlag.2
        ⟨hacks.sends, ⟨hacks.same.sendBuf, hacks.same.pushed, hacks.same.sent⟩⟩
    | closed closed => exact absurd hstate closed
  · have hsame : FxUDPConnectSock.step y.u (.onRecv fuel clock (.data d.bytes) sched) =
        some { y.u with sock := { y.u.sock with sched := sched } } :=
      if_pos (by simpa [isConnected] using hstate)
    obtain rfl := Option.some.inj (hsame.symm.trans hstep)
    exact ⟨h.keeps_receiver rfl rfl fun hclosed => hclosed,
      hback.keeps_sender rfl rfl hback.ring hback.small, rfl⟩

namespace UDPLink

variable {link link' : UDPLink}

/-! ### Both directions -/

def Joined (link : UDPLink) : Prop :=
  ∃ (data : Side → Nat → List UInt8) (start : Side → Nat), ∀ side,
    Flows (link.ends side) (link.ends side.peer) (link.sent side) (data side) (start side)

theorem joined_after {side : Side} {u : FxUDPConnectSock} {data data' : Nat → List UInt8}
    {start start' : Nat}
    (hsender : Flows ((link.ends side).advance u) (link.ends side.peer)
      (link.sent side ++ (link.ends side).posted u) data start)
    (hreceiver : Flows (link.ends side.peer) ((link.ends side).advance u)
      (link.sent side.peer) data' start') : Joined (link.after side u) := by
  refine ⟨fun s => if s = side then data else data', fun s => if s = side then start else start',
    fun s => ?_⟩
  cases side <;> cases s <;> simpa [after, Side.peer] using by assumption

theorem Joined.act (h : Joined link) {side : Side} {act : Act} {u : FxUDPConnectSock}
    (hu : FxUDPConnectSock.step (link.ends side).u act.op = some u) :
    Joined (link.after side u) := by
  obtain ⟨data, start, h⟩ := h
  have hback := h side.peer
  rw [Side.peer_peer] at hback
  obtain ⟨data', hsender⟩ := (h side).act_sender hback.arrives.begins
    (hback.pos.trans hback.acked) act hu
  exact joined_after hsender (hback.act_receiver act hu)

theorem Joined.deliver (h : Joined link) {side : Side} {d : Datagram}
    (hd : d ∈ link.sent side.peer)
    (htimely : (link.ends side).u.sock.state = .establish → Timely (link.ends side) d) {fuel : Nat}
    {clock : Nat → Rat} {sched : List Nat} {u : FxUDPConnectSock}
    (hu : FxUDPConnectSock.step (link.ends side).u (.onRecv fuel clock (.data d.bytes) sched) =
      some u) : Joined (link.after side u) := by
  obtain ⟨data, start, h⟩ := h
  have hback := h side.peer
  rw [Side.peer_peer] at hback
  obtain ⟨hreceiver, hsender, -⟩ := hback.deliver (h side) hd htimely hu
  exact joined_after hsender hreceiver

theorem Joined.step (h : Joined link) {l : Label} (hstep : step link l = some link') :
    Joined link' := by
  cases l with
  | act side act =>
    obtain ⟨u, hu, rfl⟩ := Option.map_eq_some_iff.mp hstep
    exact h.act hu
  | deliver side i fuel clock sched =>
    rw [UDPLink.step] at hstep
    split at hstep
    · cases hstep
    · rename_i d hd
      split_ifs at hstep with htimely
      obtain ⟨u, hu, rfl⟩ := Option.map_eq_some_iff.mp hstep
      exact h.deliver (List.mem_of_getElem? hd) (fun _ => htimely) hu

/-- Right behind the handshake: the receive window of `y` begins with a packet that `x` has not seen
acknowledged, it is 32 wide and its slots are empty; what is under way carries nothing. -/
structure HandShaken (x y : Endpoint) (sent : List Datagram) : Prop where
  pos : 1 ≤ x.first
  sends : Sends x.u.sendWindow (fun _ => []) x.first x.last
  recvBegin : y.u.recvWindow.btBegin = y.next % 256
  recvEnd : y.u.recvWindow.btEnd = (y.next + windowSize) % 256
  recvPool : Pool y.u.recvWindow []
  empty : ∀ id < windowSize, y.u.recvWindow.seqBufferId id = windowSize
  acked : x.first ≤ y.next
  received : y.next ≤ x.last
  rep : x.u.sendBuf.Rep []
  small : x.u.sendBuf.totalLen ≤ 1073741824
  pushed : x.u.pushed = []
  taken : y.u.sock.taken = []
  carried : ∀ d ∈ sent, Carries x (fun _ => []) d

theorem HandShaken.flows {x y : Endpoint} {sent : List Datagram} (h : HandShaken x y sent) :
    Flows x y sent (fun _ => []) y.next := by
  have hnothing : ∀ n, stream (fun _ => []) y.next n = [] := fun n => by simp [stream]
  refine ⟨h.pos, le_rfl, h.sends, ⟨[], h.rep, ?_⟩, h.small, h.acked, h.received, ?_, h.carried⟩
  · rw [hnothing, h.pushed]
    rfl
  · refine .open ⟨h.recvBegin, h.recvEnd, ?_, fun n _ _ hfull => ?_⟩ ?_ ?_
    · rw [slots_empty h.empty]
      exact h.recvPool
    · rw [h.empty (n % windowSize) (Nat.mod_lt n (by decide))] at hfull
      exact absurd hfull (lt_irrefl _)
    · exact (h.empty _ (Nat.mod_lt _ (by decide))).ge
    · rw [hnothing]
      exact h.taken

theorem joined_of_handShaken
    (h : ∀ side, HandShaken (link.ends side) (link.ends side.peer) (link.sent side)) :
    Joined link :=
  ⟨fun _ _ => [], fun side => (link.ends side.peer).next, fun side => (h side).flows⟩

/-- What the sockets promise about the stream from `x` to `y`. -/
structure Reliable (x y : Endpoint) : Prop where
  /-- Nothing is lost, duplicated, reordered or altered. -/
  delivered : y.u.sock.taken <+: x.u.pushed
  acked : x.first ≤ y.next
  received : y.next ≤ x.last
  width : x.last ≤ x.first + windowSize
  begins : y.u.recvWindow.btBegin = y.next % 256
  /-- The packets that are not acknowledged stand in the send window, each in a buffer of its own,
  and behind their bytes and the ones before come those in the send ring. -/
  window : ∃ data start q, Sends x.u.sendWindow data x.first x.last ∧ x.u.sendBuf.Rep q ∧
    x.u.pushed = stream data start (x.last - start) ++ q

theorem reliable_of_flows {x y : Endpoint} {sent : List Datagram} {data : Nat → List UInt8}
    {start : Nat} (h : Flows x y sent data start) : Reliable x y := by
  obtain ⟨q, hrep, hpushed⟩ := h.ring
  have hle := h.received
  have hstart := h.start_le
  refine ⟨?_, h.acked, h.received, h.sends.width, h.arrives.begins,
    data, start, q, h.sends, hrep, hpushed⟩
  rw [hpushed]
  apply List.IsPrefix.trans _ (List.prefix_append _ _)
  cases h.arrives with
  | «open» receives empty taken =>
    rw [taken]
    exact stream_mono data start (by omega)
  | closed closed xs begins hpart taken =>
    rw [taken]
    rcases hpart with rfl | ⟨hlt, hxs⟩
    · rw [List.append_nil]
      exact stream_mono data start (by omega)
    · have hone : stream data start (y.next - start) ++ data y.next =
          stream data start (y.next - start + 1) := by
        rw [stream_add, Nat.add_sub_cancel' hstart, stream_succ, stream_zero, List.append_nil]
      apply List.IsPrefix.trans ((List.prefix_append_right_inj _).mpr hxs)
      rw [hone]
      exact stream_mono data start (by omega)

/-- In every run from the handshake on, whatever the network loses, duplicates and reorders, the
streams of both sides arrive as they were sent. -/
theorem reliable {ls : List Label}
    (h : ∀ side, HandShaken (link.ends side) (link.ends side.peer) (link.sent side))
    (hrun : Transition.run step link ls = some link') (side : Side) :
    Reliable (link'.ends side) (link'.ends side.peer) := by
  obtain ⟨data, start, hflows⟩ :=
    Transition.invariant (fun _ _ _ h => h.step) (joined_of_handShaken h) hrun
  exact reliable_of_flows (hflows side)

/-- The sockets that `Connect` and `OnAccept` have opened. The headers of the handshake may still be
under way. -/
def opened (client server : FxUDPConnectSock) : UDPLink where
  ends
    | .client => ⟨client, 1, 2, 2⟩
    | .server => ⟨server, 1, 2, 2⟩
  sent
    | .client => [⟨[UInt8.ofNat ESocketState.connect.code, 1, 0], 1, 0⟩]
    | .server => [⟨[UInt8.ofNat ESocketState.establish.code, 1, 1], 1, 1⟩]

theorem handShaken_opened {client server : FxUDPConnectSock} (hclient : Shaken client)
    (hserver : Shaken server) (side : Side) :
    HandShaken ((opened client server).ends side) ((opened client server).ends side.peer)
      ((opened client server).sent side) := by
  have hboth : ∀ {u v : FxUDPConnectSock} {d : Datagram}, Shaken u → Shaken v →
      Carries ⟨u, 1, 2, 2⟩ (fun _ => []) d → HandShaken ⟨u, 1, 2, 2⟩ ⟨v, 1, 2, 2⟩ [d] := by
    intro u v d hu hv hd
    refine ⟨le_rfl, hu.sends, hv.recvBegin, hv.recvEnd, hv.recvPool, hv.empty, Nat.one_lt_two.le,
      le_rfl, hu.rep, ?_, hu.pushed, hv.taken, fun d' hd' => ?_⟩
    · rw [hu.totalLen]
      decide
    · rw [List.mem_singleton.mp hd']
      exact hd
  cases side with
  | client =>
    exact hboth hclient hserver ⟨Nat.one_lt_two, Nat.two_pos, _, [], rfl, by decide, fun _ => rfl⟩
  | server =>
    exact hboth hserver hclient
      ⟨Nat.one_lt_two, Nat.one_lt_two, _, [], rfl, by decide, fun _ => rfl⟩

/-- The socket that the listener makes of the header of `connected`. -/
def listened : Option FxUDPConnectSock :=
  onAccept (FxConnection.new true false .udp none) 0 (fun _ => 0) (fun _ => 0)
    (some [UInt8.ofNat ESocketState.connect.code, 1, 0]) (accepted 16)

/-- Packets come twice, one of them behind its copy. -/
def exchange : List Label :=
  let serve : Side → Rat → Label := fun side dTime => .act side (.update dTime fun _ => .count 4)
  let deliver : Side → Nat → Label := fun side i => .deliver side i 9 (fun _ => 0) []
  [.act .client (.push [7, 8, 9]), serve .client 1, deliver .server 1, deliver .server 1,
    serve .server 1, deliver .client 1, serve .client 2, serve .client 3, deliver .server 3,
    deliver .server 2]

theorem reliable_exchange :
    ∃ client server link, connected = some client ∧ listened = some server ∧
      Transition.run step (opened client server) exchange = some link ∧
      ∀ side, Reliable (link.ends side) (link.ends side.peer) := by
  obtain ⟨client, hclient⟩ : ∃ client, connected = some client :=
    Option.isSome_iff_exists.mp (by decide +kernel)
  obtain ⟨server, hserver⟩ : ∃ server, listened = some server :=
    Option.isSome_iff_exists.mp (by decide +kernel)
  have hruns : (connected.bind fun client => listened.bind fun server =>
      Transition.run step (opened client server) exchange).isSome = true := by decide +kernel
  rw [hclient, Option.bind_some, hserver, Option.bind_some] at hruns
  obtain ⟨link, hrun⟩ := Option.isSome_iff_exists.mp hruns
  have hshaken := handShaken_opened (connect_shaken (new_init _ _ _ _) hclient)
    (onAccept_shaken (by decide) hserver)
  exact ⟨client, server, link, hclient, hserver, hrun, fun side => reliable hshaken hrun side⟩

end UDPLink

end FxUDPConnectSock
