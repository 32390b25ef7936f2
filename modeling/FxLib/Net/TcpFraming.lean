import FxLib.Lib.Transition
import FxLib.Net.Framing

/-!
# TCP framing

`FxTCPConnectSock` with the eight byte header of `BinaryDataHeader`: however the kernel
cuts the stream of the frames and whenever the main thread runs, exactly the frames that
are complete are announced and their payloads handed over.
-/

open MachineInt

namespace FxTCPConnectSock

abbrev Sock := RecvSock BinaryDataHeader

/-- `__ProcRecv` behind its `PopBuff`. -/
def handOver (s : Sock) (c : FxConnection) (dwLen : Nat) : Sock :=
  (s.stripHeader BinaryDataHeader.headerLength dwLen).connectionOnRecv c
    (toUInt32 (dwLen - BinaryDataHeader.headerLength))

/-- `__ProcRecv`, behind its test of the connection. -/
def procRecv : Sock → FxConnection → Nat → Sock := RecvSock.popAndHand handOver

def frameStep (p : Parse BinaryDataHeader) : Parse BinaryDataHeader :=
  p.frameStep procRecv BinaryDataHeader.vtable Parse.fail

def onRecv (fuel : Nat) (ret : RecvRet) (s : Sock) : Option Sock :=
  s.onRecv procRecv frameStep fuel ret

def step (s : Sock) (op : RecvSock.Op) : Option Sock := s.step procRecv frameStep op

open RecvSock

/-! ### The main thread -/

theorem handsOver_handOver : HandsOver handOver := by
  intro s c n
  rw [handOver, connectionOnRecv_same]
  rfl

/-- What stands in front of the payload when it is handed over. -/
theorem read_stripHeader (s : Sock) {sessionBuf : Mem} {header payload : List UInt8}
    (hbuf : s.sessionBuf = Memory.write sessionBuf 0 (header ++ payload))
    (hheader : header.length = 8) (hlen : payload.length < 4294967296) :
    Memory.read (s.stripHeader BinaryDataHeader.headerLength (header ++ payload).length).sessionBuf
      0 payload.length = payload := by
  have hn : toUInt32 (((header ++ payload).length : Int) - (8 : Nat)) = payload.length := by
    rw [List.length_append, hheader]
    simp [toUInt32]
    omega
  have hread : Memory.read s.sessionBuf (8 : Nat) payload.length = payload := by
    have hall := Memory.read_write_same sessionBuf 0 (header ++ payload)
    have hdrop := Memory.read_drop (Memory.write sessionBuf 0 (header ++ payload)) 0
      (show 8 ≤ (header ++ payload).length by rw [List.length_append]; omega)
    rw [hall, ← hheader, List.drop_left, List.length_append, Nat.add_sub_cancel_left] at hdrop
    rw [zero_add, hheader, ← hbuf] at hdrop
    exact hdrop.symm
  simp only [stripHeader, BinaryDataHeader.headerLength, hn, hread]
  rw [Memory.read_write_disjoint _ _ (Or.inl (by omega)), Memory.read_write_same]

/-! ### The encoder -/

/-- A payload with the header that the sender puts in front of it. -/
def encode (payload : List UInt8) : List UInt8 × List UInt8 :=
  (BinaryDataHeader.buildSendPkgHeader payload.length ++ payload, payload)

theorem encode_header (payload : List UInt8) :
    (BinaryDataHeader.buildSendPkgHeader payload.length).length = 8 := by
  simp [BinaryDataHeader.buildSendPkgHeader]

theorem encode_length (payload : List UInt8) : (encode payload).1.length = 8 + payload.length := by
  rw [encode, List.length_append, encode_header]

/-- The parser finds the length of the frame in its first eight bytes. -/
theorem pkgLength_encode {payload : List UInt8} (hlen : 8 + payload.length < 2147483648) :
    BinaryDataHeader.pkgLength ((encode payload).1.take 8) = (encode payload).1.length := by
  have hfirst : (ByteOrder.bytes 4 payload.length).length = 4 := ByteOrder.bytes_length _ _
  have htake : (encode payload).1.take 8 = BinaryDataHeader.buildSendPkgHeader payload.length := by
    rw [encode, List.take_append_of_le_length (by rw [encode_header]), List.take_of_length_le
      (by rw [encode_header])]
  have hmagic : ByteOrder.value (ByteOrder.bytes 4 BinaryDataHeader.magic) =
      BinaryDataHeader.magic :=
    ByteOrder.value_bytes_of_lt (by simp [BinaryDataHeader.magic])
  have hvalue : ByteOrder.value (ByteOrder.bytes 4 payload.length) = payload.length :=
    ByteOrder.value_bytes_of_lt (by omega)
  have hdrop : ((BinaryDataHeader.buildSendPkgHeader payload.length).drop 4).take 4 =
      ByteOrder.bytes 4 BinaryDataHeader.magic := by
    rw [BinaryDataHeader.buildSendPkgHeader, List.drop_left' hfirst, List.take_of_length_le
      (by simp)]
  rw [htake, BinaryDataHeader.pkgLength, hdrop, if_pos hmagic, BinaryDataHeader.buildSendPkgHeader,
    List.take_left' hfirst, hvalue, toInt32_of_lt (by rw [BinaryDataHeader.headerLength]; omega),
    encode_length]
  rfl

/-- `__ProcRecv` hands over the payloads of encoded frames. -/
theorem hands {payloads : List (List UInt8)} (hlen : ∀ x ∈ payloads, 8 + x.length < 2147483648) :
    Hands procRecv (payloads.map encode) := by
  refine handsOver_handOver.hands ?_ ?_
  · intro f hf
    obtain ⟨payload, hmem, rfl⟩ := List.mem_map.mp hf
    have := hlen payload hmem
    rw [encode_length]
    omega
  · intro s c sessionBuf f hf hsession hstat hbuf
    obtain ⟨payload, hmem, rfl⟩ := List.mem_map.mp hf
    have hshort := hlen payload hmem
    have hwire := encode_length payload
    have hn : toUInt32 (((encode payload).1.length : Int) - (BinaryDataHeader.headerLength : Nat)) =
        payload.length := by
      rw [hwire, BinaryDataHeader.headerLength]
      simp [toUInt32]
      omega
    have hcall : (c.onRecv payload.length).2 ≠ [] := by
      simp [FxConnection.onRecv, hsession, hstat]
    have hread := read_stripHeader s hbuf (encode_header payload)
      (show payload.length < 4294967296 by omega)
    refine ⟨?_, ?_⟩
    · rw [handOver, hn, connectionOnRecv, if_neg hcall]
      simp only
      rw [show (encode payload).1 = BinaryDataHeader.buildSendPkgHeader payload.length ++ payload
        from rfl, hread]
      rfl
    · rw [handOver, connectionOnRecv_same]
      rfl

/-! ### The parse loop -/

open Framing Parse

/-- Less than a header. -/
def Short (w : List UInt8) : Prop := w.length < 8

/-- Less than a header may stand in front of the end of the ring and may be left over; the
stream may be cut anywhere. -/
def edges : Edges := ⟨Short, fun _ => True, Short, fun _ => True⟩

theorem short_take {w : List UInt8} (n : Nat) (h : Short w) : Short (w.take n) := by
  rw [Short, List.length_take] at *
  omega

theorem permits_edges (s : Sock) (w : List UInt8) (op : Op) : Permits procRecv edges s w op := by
  cases op with
  | onRecv fuel ret sched => exact ⟨trivial, fun _ _ _ _ => trivial⟩
  | main | delayClose => trivial

theorem encode_wire {payloads : List (List UInt8)}
    (hlen : ∀ x ∈ payloads, 8 + x.length < 2147483648) :
    ∀ f ∈ payloads.map encode, 8 ≤ f.1.length ∧ f.1.length < 2147483648 ∧
      BinaryDataHeader.pkgLength (f.1.take 8) = f.1.length := by
  intro f hf
  obtain ⟨payload, hmem, rfl⟩ := List.mem_map.mp hf
  have := encode_length payload
  have := hlen payload hmem
  exact ⟨by omega, by omega, pkgLength_encode this⟩

theorem streams {payloads : List (List UInt8)}
    (hlen : ∀ x ∈ payloads, 8 + x.length < 2147483648) :
    Streams (payloads.map encode) (Delivers (payloads.map encode)) where
  wire := encode_wire hlen
  taken := fun _ h => h.taken
  announce := fun _ _ f _ hannounced hf => mayAnnounce hannounced hf (by
    have := (encode_wire hlen f (List.mem_of_getElem? hf)).2.1
    omega)

theorem frameStep_onward {payloads : List (List UInt8)}
    (hlen : ∀ x ∈ payloads, 8 + x.length < 2147483648) {p : Parse BinaryDataHeader}
    {m done rest : List UInt8} {part n k : Nat}
    (h : Inside (payloads.map encode) edges p m done rest part n k) (hloop : p.Looping) :
    Onward (payloads.map encode) edges p (frameStep p) := by
  have hside := (hands hlen).side fun f hf => by have := (encode_wire hlen f hf).1; omega
  have halong : Along (payloads.map encode) (Delivers (payloads.map encode)) p m done rest
      part n k :=
    ⟨h.scan, h.synced, hloop.1⟩
  have hstep := halong.frameStep Parse.fail (streams hlen) hside hloop
  rw [frameStep]
  generalize p.frameStep procRecv BinaryDataHeader.vtable Parse.fail = q at hstep ⊢
  cases hstep with
  | moved moves begun whole =>
    have hall : n = rest.length := by
      rcases h.looping hloop.1 with hall | ⟨hneed, -, hshort, -⟩
      · exact hall
      · have hge := whole hneed
        have hshort : (rest.take n).length < 8 := hshort
        have hfits := h.scan.fits
        rw [List.length_take] at hshort
        omega
    rw [hall, Nat.sub_self] at moves
    exact moves.onward trivial
  | joined hlt needData moves => exact moves.onward trivial
  | waits hlt needData scan synced exit idle taken less =>
    refine ⟨_, [], rest, 0, 0, k, ⟨scan, synced, trivial, ?_, ?_, ?_⟩, less⟩
    · intro hc
      exact absurd (exit.symm.trans hc) (fun hc => nomatch hc)
    · intro _
      exact ⟨idle, hlt, fun n _ _ _ => short_take n hlt⟩
    · intro hc
      exact absurd (exit.symm.trans hc) (fun hc => nomatch hc)

/-! ### Runs -/

/-- Whatever the cuts and whenever the main thread runs: in every state between two calls the
complete frames are announced, each once and in order, no error is, the session has got the
payloads of the frames handled so far, and the bytes of an incomplete frame wait in the ring.
And every further call returns. -/
theorem onRecv_reassembles {payloads : List (List UInt8)} {s₀ s : Sock} {ops : List Op}
    (hfresh : Fresh s₀)
    (hfit : ∀ x ∈ payloads, 8 + x.length ≤ s₀.recvBuf.totalLen ∧ 8 + x.length ≤ s₀.sessionSize)
    (hops : Transition.Always step (Continues (payloads.map encode)) s₀ ops)
    (hrun : Transition.run step s₀ ops = some s) :
    (∃ j k tail, Reassembled (payloads.map encode) s j k tail) ∧
      ∀ fuel ret sched, Continues (payloads.map encode) s (.onRecv fuel ret sched) →
        1073741825 < fuel → (step s (.onRecv fuel ret sched)).isSome := by
  have hsmall := hfresh.small
  have hlen : ∀ x ∈ payloads, 8 + x.length < 2147483648 := fun x hx => by
    have := (hfit x hx).1
    omega
  have hwire : ∀ f ∈ payloads.map encode, 8 ≤ f.1.length ∧ f.1.length ≤ s₀.sessionSize := by
    intro f hf
    obtain ⟨payload, hmem, rfl⟩ := List.mem_map.mp hf
    rw [encode_length]
    exact ⟨by omega, (hfit payload hmem).2⟩
  have hpos : ∀ f ∈ payloads.map encode, 0 < f.1.length := fun f hf => by
    have := (hwire f hf).1
    omega
  have hside := (hands hlen).side hpos
  have hbody : ∀ p m done rest part n k, Inside (payloads.map encode) edges p m done rest part n k →
      p.Looping → Onward (payloads.map encode) edges p (frameStep p) :=
    fun _ _ _ _ _ _ _ h hloop => frameStep_onward hlen h hloop
  have hstep : ∀ s op s', (∃ m w part k, Between (payloads.map encode) edges s m w part k) →
      Continues (payloads.map encode) s op → step s op = some s' →
      ∃ m w part k, Between (payloads.map encode) edges s' m w part k :=
    fun s op s' ⟨m, w, part, k, h⟩ hop hs' => h.step hside hbody hop (permits_edges s w op) hs'
  obtain ⟨m, w, part, k, hbetween⟩ := Transition.invariant_of_always hstep
    ⟨[], [], 0, 0, hfresh.between fun f hf => (hwire f hf).2⟩ hops hrun
  refine ⟨?_, fun fuel ret sched hret hfuel => ?_⟩
  · obtain ⟨j, tail, h⟩ := hbetween.reassembled (fun w hw f hf hle => by
      have := hle.length_le
      have := (hwire f hf).1
      have hw : w.length < 8 := hw
      omega) hpos
    exact ⟨j, k, tail, h⟩
  · obtain ⟨s', m', w', part', k', hstep, _⟩ := hbetween.onRecv hside hbody hret
      (permits_edges s w _) hfuel
    rw [show step s (.onRecv fuel ret sched) = some s' from hstep]
    rfl

/-- Two frames in two pieces through a ring of 16 bytes, the second header across its end. -/
def wrappedOps : List Op :=
  [.onRecv 9 (.data ((encode [1, 2, 3, 4]).1 ++ (encode [5]).1)) [], .main, .main, .main,
    .onRecv 9 (.error 11) [], .onRecv 9 (.data [84, 69, 83, 84, 5]) [0, 1]]

theorem onRecv_reassembles_wrapped :
    ∃ s, Transition.run step (accepted ⟨fun _ => 0, []⟩ 16 64) wrappedOps = some s ∧
      ∃ j k tail, Reassembled ([[1, 2, 3, 4], [5]].map encode) s j k tail := by
  have hfresh := fresh_accepted (⟨fun _ => 0, []⟩ : BinaryDataHeader)
    (show (0 : Int) < 16 by omega) (by omega) 64
  obtain ⟨s, hrun⟩ : ∃ s, Transition.run step (accepted ⟨fun _ => 0, []⟩ 16 64) wrappedOps =
      some s :=
    Option.isSome_iff_exists.mp (by decide +kernel)
  exact ⟨s, hrun, (onRecv_reassembles hfresh (by decide) (by decide +kernel) hrun).1⟩

end FxTCPConnectSock
