import FxLib.Net.OnRecv

/-!
# A stream of frames

A frame is a pair: its bytes on the wire and the payload in them. `Delivers` is the main
thread's side of a correct reception: the first `j` frames have been popped and handed to
the session, those up to `k` are announced. `Synced` is the IO thread's side: the first
`k` frames are consumed, and nothing or the beginning of the next one.
-/

open MachineInt

namespace Framing

/-- The bytes of the first `k` frames. -/
def wire (frames : List (List UInt8 × List UInt8)) (k : Nat) : List UInt8 :=
  ((frames.take k).map Prod.fst).flatten

def lens (frames : List (List UInt8 × List UInt8)) (k : Nat) : List Nat :=
  (frames.take k).map fun f => f.1.length

/-- The event that announces a frame. -/
def announcement (f : List UInt8 × List UInt8) : SNetEvent := ⟨.recv, f.1.length⟩

variable {frames : List (List UInt8 × List UInt8)} {f : List UInt8 × List UInt8} {j k : Nat}

theorem wire_succ (hf : frames[k]? = some f) : wire frames (k + 1) = wire frames k ++ f.1 := by
  simp [wire, List.take_add_one, hf]

theorem lens_succ (hf : frames[k]? = some f) :
    lens frames (k + 1) = lens frames k ++ [f.1.length] := by
  simp [lens, List.take_add_one, hf]

theorem wire_between (h : j ≤ k) :
    wire frames k = wire frames j ++ (((frames.take k).drop j).map Prod.fst).flatten := by
  have hsplit := List.take_append_drop j (frames.take k)
  rw [List.take_take, Nat.min_eq_left h] at hsplit
  rw [wire, ← hsplit, List.map_append, List.flatten_append, wire, hsplit]

theorem lens_injective (hj : j ≤ frames.length) (hk : k ≤ frames.length)
    (h : lens frames j = lens frames k) : j = k := by
  have hlen := congrArg List.length h
  simp only [lens, List.length_map, List.length_take] at hlen
  omega

/-- All frames are the first `k`, the next one and others. -/
theorem wire_split (hf : frames[k]? = some f) :
    ∃ later, wire frames frames.length = wire frames k ++ (f.1 ++ later) := by
  obtain ⟨hk, hget⟩ := List.getElem?_eq_some_iff.mp hf
  refine ⟨((frames.drop (k + 1)).map Prod.fst).flatten, ?_⟩
  rw [← List.append_assoc, ← wire_succ hf, wire, wire, List.take_length, ← List.flatten_append,
    ← List.map_append, List.take_append_drop]

theorem drop_announcements (hf : frames[j]? = some f) (hlt : j < k) :
    ((frames.take k).drop j).map announcement =
      announcement f :: ((frames.take k).drop (j + 1)).map announcement := by
  obtain ⟨hj, hget⟩ := List.getElem?_eq_some_iff.mp hf
  rw [List.drop_eq_getElem_cons (by rw [List.length_take]; omega), List.map_cons,
    List.getElem_take, hget]

theorem push_announcement (hf : frames[k]? = some f) (hle : j ≤ k) :
    ((frames.take (k + 1)).drop j).map announcement =
      ((frames.take k).drop j).map announcement ++ [announcement f] := by
  obtain ⟨hk, _⟩ := List.getElem?_eq_some_iff.mp hf
  rw [List.take_add_one, hf, List.drop_append_of_le_length (by rw [List.length_take]; omega)]
  simp

/-- The events that bring a connection to `CONN_OK`. -/
inductive Greeting : EConnStat → List SNetEvent → Prop
  | ok : Greeting .ok []
  | associate (v : Nat) : Greeting .associate [⟨.establish, v⟩]
  | conn (v v' : Nat) : Greeting .conn [⟨.associate, v⟩, ⟨.establish, v'⟩]
  | none (v v' : Nat) : Greeting .none [⟨.associate, v⟩, ⟨.establish, v'⟩]

theorem Greeting.no_lens {stat : EConnStat} {greeting : List SNetEvent}
    (h : Greeting stat greeting) : RecvSock.recvLens greeting = [] := by
  cases h <;> rfl

end Framing

namespace RecvSock

open Framing

variable {η : Type} {frames : List (List UInt8 × List UInt8)}

theorem lens_announcements (fs : List (List UInt8 × List UInt8)) :
    recvLens (fs.map announcement) = fs.map fun f => f.1.length := by
  induction fs with
  | nil => rfl
  | cons f fs ih =>
    rw [List.map_cons, List.map_cons, ← ih]
    rfl

/-- Which frames are announced, handed over and still in the queue; `rest` is queued behind them. -/
structure Queue (frames : List (List UInt8 × List UInt8)) (s : RecvSock η) (c : FxConnection)
    (greeting rest : List SNetEvent) (j k : Nat) : Prop where
  connection : s.connection = some c
  id : c.id = s.sockId
  session : c.session = true
  greets : Greeting c.connStat greeting
  popped_le : j ≤ k
  announced_le : k ≤ frames.length
  events : s.events = greeting ++ (((frames.take k).drop j).map announcement ++ rest)
  announced : recvLens s.announced = lens frames k
  popped : s.popped = (frames.take j).map Prod.fst
  received : s.received = (frames.take j).map Prod.snd

structure Delivers (frames : List (List UInt8 × List UInt8)) (s : RecvSock η) : Prop where
  state : s.state = .establish
  delayClose : s.delayClose = false
  clean : ∀ e ∈ s.announced, e.eType = .associate ∨ e.eType = .establish ∨ e.eType = .recv
  size : ∀ f ∈ frames, f.1.length ≤ s.sessionSize
  taken : s.taken <+: wire frames frames.length
  queue : ∃ c greeting j k, Queue frames s c greeting [] j k

/-- What a `__ProcRecv` does with the frames of the stream: it pops the whole frame and hands
over its payload. -/
structure Hands (procRecv : ProcRecv η) (frames : List (List UInt8 × List UInt8)) : Prop where
  pops : ∀ s c n, Pops s (procRecv s c n) n
  hands : ∀ (s : RecvSock η) (c : FxConnection) (recvBuf : FxLoopBuff), ∀ f ∈ frames,
    c.id = s.sockId → c.session = true → c.connStat = .ok → f.1.length ≤ s.sessionSize →
    s.recvBuf.popBuff (toInt32 f.1.length) = (true, f.1, recvBuf) →
    ∃ sessionBuf, procRecv s c f.1.length = { s with
      recvBuf := recvBuf, sessionBuf := sessionBuf
      popped := s.popped ++ [f.1], received := s.received ++ [f.2] }

/-- It is enough that the payload is handed over once the frame stands in the session's buffer. -/
theorem HandsOver.hands {handOver : ProcRecv η} (h : HandsOver handOver)
    (hsmall : ∀ f ∈ frames, f.1.length < 4294967295)
    (hgives : ∀ (s : RecvSock η) (c : FxConnection) (sessionBuf : Mem), ∀ f ∈ frames,
      c.session = true → c.connStat = .ok → s.sessionBuf = Memory.write sessionBuf 0 f.1 →
      (handOver s c f.1.length).received = s.received ++ [f.2] ∧
        (handOver s c f.1.length).delayClose = s.delayClose) :
    Hands (popAndHand handOver) frames := by
  refine ⟨h.pops, fun s c recvBuf f hf hid hsession hstat hsize hpop => ?_⟩
  have hlt := hsmall f hf
  have hcap : s.getRecvSize c = s.sessionSize := by rw [getRecvSize, if_pos hsession]
  have hproc := popAndHand_popped handOver hid (by rw [hcap]; exact hsize) (by omega) hpop
  obtain ⟨hreceived, hdelay⟩ := hgives { s with
    recvBuf := recvBuf, popped := s.popped ++ [f.1]
    sessionBuf := Memory.write s.sessionBuf 0 f.1 } c s.sessionBuf f hf hsession hstat rfl
  refine ⟨(popAndHand handOver s c f.1.length).sessionBuf, ?_⟩
  rw [hproc, h, hreceived, hdelay]

variable {procRecv : ProcRecv η} {s s' : RecvSock η} {m w : List UInt8} {part : Nat}

/-- The marked bytes begin with the next frame to be popped. -/
theorem Holds.next_frame {X : RecvSock η → Prop} (h : Holds X s m w part)
    (htaken : s.taken <+: wire frames frames.length) {j : Nat} {f : List UInt8 × List UInt8}
    (hf : frames[j]? = some f) (hpopped : s.popped = (frames.take j).map Prod.fst)
    (hlen : f.1.length ≤ m.length) : m.take f.1.length = f.1 := by
  obtain ⟨later, hsplit⟩ := wire_split hf
  obtain ⟨unseen, hunseen⟩ := htaken
  rw [h.taken, hpopped, hsplit, List.append_assoc, List.append_assoc] at hunseen
  have htail : m ++ (w ++ unseen) = f.1 ++ later := List.append_cancel_left hunseen
  have htake := congrArg (List.take f.1.length) htail
  rwa [List.take_append_of_le_length hlen, List.take_left] at htake

theorem Holds.popBuff {X : RecvSock η → Prop} (h : Holds X s m w part) {n : Nat} (hpos : 0 < n)
    (hn : n ≤ m.length) :
    s.recvBuf.popBuff (toInt32 n) = (true, m.take n, s.recvBuf.advanceOut n) := by
  have hlen := h.rep.length_le
  have hsmall := h.small
  have hout := h.rep.out_lt
  have hout0 := h.rep.out_nonneg
  simp only [List.length_append] at hlen
  have hpop := FxLoopBuff.popBuff_eq h.rep (show (0 : Int) < n by omega) (by simp; omega)
    ⟨by omega, by omega⟩
  rw [toInt32_of_lt (by omega), hpop, Int.toNat_natCast, List.take_append_of_le_length hn]

theorem Delivers.io (h : Delivers frames s) (hmain : SameMain s s') : Delivers frames s' := by
  obtain ⟨c, greeting, j, k, hq⟩ := h.queue
  rw [hmain]
  exact ⟨h.state, h.delayClose, h.clean, h.size, h.taken, c, greeting, j, k,
    ⟨hq.1, hq.2, hq.3, hq.4, hq.5, hq.6, hq.7, hq.8, hq.9, hq.10⟩⟩

/-- What the main thread may change of a connected socket. -/
def HandsOn (s s' : RecvSock η) : Prop :=
  s' = { s with recvBuf := s'.recvBuf, connection := s'.connection, sessionBuf := s'.sessionBuf
                events := s'.events, popped := s'.popped, received := s'.received }

/-- The next frame goes to the session. -/
theorem Queue.hand {X : RecvSock η → Prop} {c : FxConnection} {rest : List SNetEvent} {j k : Nat}
    (hq : Queue frames s c [] rest j k) (h : Holds X s m w part) (hands : Hands procRecv frames)
    (hpos : ∀ f ∈ frames, 0 < f.1.length) (hsize : ∀ f ∈ frames, f.1.length ≤ s.sessionSize)
    (htaken : s.taken <+: wire frames frames.length) (hstat : c.connStat = .ok) (hlt : j < k) :
    Queue frames (RecvSock.mainStep procRecv s) c [] rest (j + 1) k ∧
      HandsOn s (RecvSock.mainStep procRecv s) := by
  have hjlen : j < frames.length := lt_of_lt_of_le hlt hq.announced_le
  have hf : frames[j]? = some frames[j] := List.getElem?_eq_getElem hjlen
  have hmem : frames[j] ∈ frames := List.getElem_mem hjlen
  generalize frames[j] = f at hf hmem
  have hevents := hq.events
  rw [List.nil_append, drop_announcements hf hlt, List.cons_append] at hevents
  have hlen : f.1.length ≤ m.length := by
    have hpend := h.pending
    rw [hevents] at hpend
    simp [recvLens, announcement] at hpend
    omega
  have hpop := h.popBuff (hpos f hmem) hlen
  rw [h.next_frame htaken hf hq.popped hlen] at hpop
  obtain ⟨sessionBuf, hproc⟩ := hands.hands
    { s with events := ((frames.take k).drop (j + 1)).map announcement ++ rest } c _ f hmem hq.id
    hq.session hstat (hsize f hmem) hpop
  have hstep : RecvSock.mainStep procRecv s = procRecv
      { s with events := ((frames.take k).drop (j + 1)).map announcement ++ rest } c
        f.1.length := by
    simp only [RecvSock.mainStep, hevents, procEvent, announcement, hq.connection]
  rw [hstep, hproc]
  refine ⟨⟨hq.connection, hq.id, hq.session, hq.greets, hlt, hq.announced_le, rfl, hq.announced,
    ?_, ?_⟩, rfl⟩
  · simp only [hq.popped, List.take_add_one, hf, Option.toList_some, List.map_append, List.map_cons,
      List.map_nil]
  · simp only [hq.received, List.take_add_one, hf, Option.toList_some, List.map_append,
      List.map_cons, List.map_nil]

/-- A step of the main thread takes up a greeting or the next frame, as long as there is one. -/
theorem Queue.mainStep {X : RecvSock η → Prop} {c : FxConnection} {greeting rest : List SNetEvent}
    {j k : Nat} (hq : Queue frames s c greeting rest j k) (h : Holds X s m w part)
    (hands : Hands procRecv frames) (hpos : ∀ f ∈ frames, 0 < f.1.length)
    (hsize : ∀ f ∈ frames, f.1.length ≤ s.sessionSize)
    (htaken : s.taken <+: wire frames frames.length) :
    (s.events = rest ∧ greeting = [] ∧ j = k) ∨
      ∃ c' greeting' j', Queue frames (RecvSock.mainStep procRecv s) c' greeting' rest j' k ∧
        HandsOn s (RecvSock.mainStep procRecv s) := by
  have hgreets := hq.greets
  generalize hstat : c.connStat = stat at hgreets
  cases hgreets with
  | ok =>
    rcases Nat.lt_or_ge j k with hlt | hge
    · exact Or.inr ⟨c, [], j + 1, hq.hand h hands hpos hsize htaken hstat hlt⟩
    · refine Or.inl ⟨?_, rfl, Nat.le_antisymm hq.popped_le hge⟩
      rw [hq.events, List.drop_of_length_le (by rw [List.length_take]; omega)]
      rfl
  | associate v =>
    have hstep : RecvSock.mainStep procRecv s = { s with
        events := ((frames.take k).drop j).map announcement ++ rest
        connection := some c.onConnect.1 } := by
      simp only [RecvSock.mainStep, hq.events, List.cons_append, List.nil_append, procEvent,
        procEstablish, hq.connection, hq.id, ne_eq, not_true_eq_false, if_false]
    have hconn : c.onConnect.1 = { c with connStat := .ok } := by
      simp [FxConnection.onConnect, hstat, hq.session]
    rw [hstep, hconn]
    exact Or.inr ⟨_, [], j, ⟨rfl, hq.id, hq.session, .ok, hq.popped_le, hq.announced_le, rfl,
      hq.announced, hq.popped, hq.received⟩, rfl⟩
  | conn v v' | none v v' =>
    have hstep : RecvSock.mainStep procRecv s = { s with
        events := ⟨.establish, v'⟩ :: (((frames.take k).drop j).map announcement ++ rest)
        connection := some c.onAssociate.1 } := by
      simp only [RecvSock.mainStep, hq.events, List.cons_append, List.nil_append, procEvent,
        procAssociate, hq.connection, hq.id, ne_eq, not_true_eq_false, if_false]
    have hconn : c.onAssociate.1 = { c with connStat := .associate } := by
      simp [FxConnection.onAssociate, hstat]
    rw [hstep, hconn]
    exact Or.inr ⟨_, [⟨.establish, v'⟩], j, ⟨rfl, hq.id, hq.session, .associate v', hq.popped_le,
      hq.announced_le, rfl, hq.announced, hq.popped, hq.received⟩, rfl⟩

theorem Delivers.mainStep (h : Holds (Delivers frames) s m w part)
    (hands : Hands procRecv frames) (hpos : ∀ f ∈ frames, 0 < f.1.length) :
    Delivers frames (RecvSock.mainStep procRecv s) := by
  have hX := h.side
  obtain ⟨c, greeting, j, k, hq⟩ := hX.queue
  rcases hq.mainStep h hands hpos hX.size hX.taken with ⟨hevents, -, -⟩ |
    ⟨c', greeting', j', hq', hsame⟩
  · have hstep : RecvSock.mainStep procRecv s = s := by
      simp only [RecvSock.mainStep, hevents]
    rw [hstep]
    exact hX
  · generalize RecvSock.mainStep procRecv s = s' at hq' hsame
    rw [HandsOn] at hsame
    refine ⟨?_, ?_, ?_, ?_, ?_, c', greeting', j', k, hq'⟩
    all_goals rw [hsame]
    · exact hX.state
    · exact hX.delayClose
    · exact hX.clean
    · exact hX.size
    · exact hX.taken

theorem Hands.side (hands : Hands procRecv frames) (hpos : ∀ f ∈ frames, 0 < f.1.length) :
    MainSide procRecv (Delivers frames) :=
  ⟨hands.pops, fun _ _ _ _ h => Delivers.mainStep h hands hpos, fun _ _ hmain h => h.io hmain⟩

/-- The next frame may be announced. -/
theorem mayAnnounce {f : List UInt8 × List UInt8} {k : Nat} {rest : List UInt8}
    (hannounced : recvLens s.announced = lens frames k) (hf : frames[k]? = some f)
    (hlen : f.1.length < 4294967296) :
    Parse.MayAnnounce (Delivers frames) s rest f.1.length := by
  intro t m' h hsame
  have hX := h.side
  obtain ⟨c, greeting, j, k', hq⟩ := hX.queue
  obtain ⟨hk, _⟩ := List.getElem?_eq_some_iff.mp hf
  obtain rfl : k' = k := lens_injective hq.announced_le hk.le
    (by rw [← hq.announced, hsame.announced, hannounced])
  have hcast : toUInt32 (f.1.length : Int) = f.1.length := by simp [toUInt32]; omega
  refine ⟨hX.state, hX.delayClose, ?_, hX.size, hX.taken, c, greeting, j, k' + 1, hq.connection,
    hq.id,
    hq.session, hq.greets, Nat.le_succ_of_le hq.popped_le, hk, ?_, ?_, hq.popped, hq.received⟩
  · intro e he
    simp only [pushNetEvent, List.mem_append, List.mem_singleton] at he
    rcases he with he | rfl
    · exact hX.clean e he
    · exact Or.inr (Or.inr rfl)
  · have hevents := hq.events
    rw [List.append_nil] at hevents ⊢
    rw [push_announcement hf hq.popped_le, ← List.append_assoc, ← hevents]
    simp [pushNetEvent, announcement, hcast]
  · rw [(lens_pushRecv t _).2, hq.announced, lens_succ hf, hcast]

/-! ### The IO thread's side -/

/-- Of the frame `k`, which is `f`, the bytes `got` are consumed and `need` are missing. -/
structure Expects (frames : List (List UInt8 × List UInt8)) (s : RecvSock η) (rest : List UInt8)
    (k : Nat) (need : Int) (f : List UInt8 × List UInt8) (got : List UInt8) : Prop where
  frame : frames[k]? = some f
  packetLen : s.packetLen = f.1.length
  missing : got.length + need = f.1.length
  taken : s.taken = wire frames k ++ got ++ rest

/-- The first `k` frames are announced, and `rest` follows what is consumed. -/
structure Synced (frames : List (List UInt8 × List UInt8)) (s : RecvSock η) (rest : List UInt8)
    (k : Nat) : Prop where
  le : k ≤ frames.length
  announced : recvLens s.announced = lens frames k
  idle : s.needData = 0 → s.taken = wire frames k ++ rest
  progress : s.needData ≠ 0 → ∃ f got, Expects frames s rest k s.needData f got

variable {rest got : List UInt8} {f : List UInt8 × List UInt8} {k : Nat} {need : Int}

/-- The missing bytes are the next ones. -/
theorem Expects.completed (h : Expects frames s rest k need f got)
    (htaken : s.taken <+: wire frames frames.length) (hneed : 0 ≤ need)
    (hle : need ≤ rest.length) : s.taken = wire frames (k + 1) ++ rest.drop need.toNat := by
  have hmissing := h.missing
  obtain ⟨later, hsplit⟩ := wire_split h.frame
  obtain ⟨unseen, hunseen⟩ := htaken
  rw [h.taken, hsplit, List.append_assoc, List.append_assoc] at hunseen
  have htail : got ++ (rest ++ unseen) = f.1 ++ later := List.append_cancel_left hunseen
  have htake := congrArg (List.take f.1.length) htail
  have hlen : f.1.length = got.length + need.toNat := by omega
  rw [List.take_left, hlen, List.take_append, List.take_of_length_le (by omega),
    Nat.add_sub_cancel_left, List.take_append_of_le_length (by omega)] at htake
  rw [h.taken, wire_succ h.frame, ← htake]
  simp only [List.append_assoc, List.take_append_drop]

/-- A consumed part of the frame. -/
theorem Expects.more (h : Expects frames s rest k need f got) {n : Nat} (hn : n ≤ rest.length)
    (hs : s' = { s with needData := need - n }) :
    Expects frames s' (rest.drop n) k (need - n) f (got ++ rest.take n) := by
  have hmissing := h.missing
  rw [hs]
  refine ⟨h.frame, h.packetLen, ?_, ?_⟩
  · rw [List.length_append, List.length_take, Nat.min_eq_left hn]
    push_cast
    omega
  · rw [h.taken]
    simp only [List.append_assoc, List.take_append_drop]

/-- Where a stream may be cut: what may stand in front of the end of the ring, what follows
there in all, what may be left over behind a call, and what may be received up to a call. -/
structure Edges where
  front : List UInt8 → Prop
  cut : List UInt8 → Prop
  left : List UInt8 → Prop
  received : List UInt8 → Prop

/-- `w` is left over, the beginning of a frame. -/
structure Left (E : Edges) (s : RecvSock η) (w : List UInt8) : Prop where
  needData : s.needData = 0
  left : E.left w
  front : ∀ n, 0 < n → n ≤ w.length → s.recvBuf.useCursor + (n : Int) = s.recvBuf.totalLen →
    E.front (w.take n)

theorem Left.mono {E : Edges} {s s' : RecvSock η} {w : List UInt8} (h : Left E s w)
    (hneed : s'.needData = s.needData) (htotal : s'.recvBuf.totalLen = s.recvBuf.totalLen)
    (huse : s'.recvBuf.useCursor = s.recvBuf.useCursor) : Left E s' w := by
  refine ⟨hneed.trans h.needData, h.left, ?_⟩
  rw [htotal, huse]
  exact h.front

/-- Between two frames what follows is the beginning of the next one. -/
theorem Synced.next (h : Synced frames s rest k) (hneed : s.needData = 0) (hne : rest ≠ [])
    (htaken : s.taken <+: wire frames frames.length) :
    ∃ f, frames[k]? = some f ∧ s.taken = wire frames k ++ rest ∧
      ∀ n ≤ rest.length, n ≤ f.1.length → rest.take n = f.1.take n := by
  have hidle := h.idle hneed
  obtain ⟨unseen, hunseen⟩ := htaken
  rw [hidle] at hunseen
  have hk : k < frames.length := by
    by_contra hge
    have hlen := congrArg List.length hunseen
    have hall : wire frames k = wire frames frames.length := by
      rw [wire, wire, List.take_of_length_le (by omega), List.take_length]
    have hpos := List.length_pos_iff.mpr hne
    simp only [List.length_append, hall] at hlen
    omega
  have hf : frames[k]? = some frames[k] := List.getElem?_eq_getElem hk
  refine ⟨frames[k], hf, hidle, fun n hn hnf => ?_⟩
  obtain ⟨later, hsplit⟩ := wire_split hf
  rw [hsplit, List.append_assoc] at hunseen
  have htake := congrArg (List.take n) (List.append_cancel_left hunseen)
  rwa [List.take_append_of_le_length hn, List.take_append_of_le_length hnf] at htake

end RecvSock

namespace Parse

open RecvSock Framing

variable {η : Type} {procRecv : ProcRecv η} {frames : List (List UInt8 × List UInt8)}
  {E : Edges} {p q : Parse η} {m done rest : List UInt8} {part n k : Nat}

/-- The loop over a stream of frames. -/
structure Inside (frames : List (List UInt8 × List UInt8)) (E : Edges) (p : Parse η)
    (m done rest : List UInt8) (part n k : Nat) : Prop where
  scan : Scan (Delivers frames) p m done rest part n
  synced : Synced frames p.sock rest k
  received : E.received p.sock.taken
  looping : p.exit = .looping →
    n = rest.length ∨ (p.sock.needData = 0 ∧ 0 < n ∧ E.front (rest.take n) ∧ E.cut rest)
  broke : p.exit = .broke → Left E p.sock rest
  exit : p.exit ≠ .returned

/-- What one iteration has to establish. -/
def Onward (frames : List (List UInt8 × List UInt8)) (E : Edges) (p q : Parse η) : Prop :=
  ∃ m done rest part n k, Inside frames E q m done rest part n k ∧ q.unread < p.unread

/-- The loop over a stream of frames, wherever the region ends. -/
structure Along (frames : List (List UInt8 × List UInt8)) (X : RecvSock η → Prop) (p : Parse η)
    (m done rest : List UInt8) (part n k : Nat) : Prop where
  scan : Scan X p m done rest part n
  synced : Synced frames p.sock rest k
  exit : p.exit = .looping

/-- The loop has moved on to `n'` bytes of the region, before the same `rest` behind its end. -/
structure MovesOn (frames : List (List UInt8 × List UInt8)) (X : RecvSock η → Prop) (p q : Parse η)
    (m' done' rest' : List UInt8) (part' n' k' behind : Nat) : Prop where
  along : Along frames X q m' done' rest' part' n' k'
  behind : rest'.length = n' + behind
  taken : q.sock.taken = p.sock.taken
  less : q.unread < p.unread

theorem Moved.along {X : RecvSock η → Prop} {need : Int} {f : List UInt8 × List UInt8}
    {got : List UInt8} (h : Moved procRecv X p q m done rest part n need)
    (hscan : Scan X p m done rest part n) (hn : 0 < n) (hexit : p.exit = .looping)
    (hpos : 0 < need) (hannounced : recvLens p.sock.announced = lens frames k)
    (hexpects : Expects frames p.sock rest k need f got) (hlen : f.1.length < 4294967296)
    (htaken : p.sock.taken <+: wire frames frames.length) :
    ∃ m' done' rest' part' n' k',
      MovesOn frames X p q m' done' rest' part' n' k' (rest.length - n) ∧
      (q.sock.needData = 0 ∨ q.sock.needData = need - n ∧ q.sock.packetLen = p.sock.packetLen) := by
  have hplen := hscan.len
  have hfits := hscan.fits
  obtain ⟨hk, _⟩ := List.getElem?_eq_some_iff.mp hexpects.frame
  have hbefore : p.unread = rest.length + 1 := by
    rw [hscan.unread_eq, if_pos ⟨hexit, by omega⟩]
  cases h with
  | completed m' hle scan announced =>
    refine ⟨m', [], rest.drop need.toNat, 0, n - need.toNat, k + 1,
      ⟨⟨scan, ⟨hk, ?_, ?_, ?_⟩, announced.exit.trans hexit⟩, ?_, announced.taken, ?_⟩,
      Or.inl announced.needData⟩
    · rw [announced.announced, hannounced, lens_succ hexpects.frame, hexpects.packetLen]
      congr 2
      simp [toUInt32]
      omega
    · intro _
      rw [announced.taken]
      exact hexpects.completed htaken hpos.le (by omega)
    · intro hc
      exact absurd announced.needData hc
    · rw [List.length_drop]
      omega
    · rw [scan.unread_eq, hbefore, List.length_drop]
      split <;> omega
  | kept hlt eq scan =>
    have hqneed : q.sock.needData = need - n := by rw [eq]; rfl
    have hqn : q.nLen = 0 := by rw [eq]; rfl
    refine ⟨m, done ++ rest.take n, rest.drop n, part, 0, k,
      ⟨⟨scan, ⟨hk.le, ?_, ?_, ?_⟩, by rw [eq]; exact hexit⟩, ?_, by rw [eq]; rfl, ?_⟩,
      Or.inr ⟨hqneed, by rw [eq]; rfl⟩⟩
    · rw [eq]
      exact hannounced
    · intro hc
      omega
    · intro _
      refine ⟨f, got ++ rest.take n, ?_⟩
      rw [hqneed]
      exact hexpects.more hfits (by rw [eq]; rfl)
    · rw [List.length_drop]
      omega
    · rw [scan.unread_eq, hbefore, List.length_drop,
        if_neg (fun hc => absurd hc.2 (by rw [hqn]; omega))]
      omega

/-- Where nothing stands behind the region, nothing ever does. -/
theorem MovesOn.onward {m' done' rest' : List UInt8} {part' n' k' : Nat}
    (h : MovesOn frames (Delivers frames) p q m' done' rest' part' n' k' 0)
    (hreceived : E.received p.sock.taken) : Onward frames E p q := by
  have hexit := h.along.exit
  refine ⟨m', done', rest', part', n', k', ⟨h.along.scan, h.along.synced, ?_, ?_, ?_, ?_⟩, h.less⟩
  · rw [h.taken]
    exact hreceived
  · exact fun _ => Or.inl (by have := h.behind; omega)
  · intro hc
    rw [hexit] at hc
    cases hc
  · rw [hexit]
    exact fun hc => nomatch hc

theorem Moved.onward {need : Int} {f : List UInt8 × List UInt8} {got : List UInt8}
    (h : Moved procRecv (Delivers frames) p q m done rest part n need)
    (hscan : Scan (Delivers frames) p m done rest part n) (hn : 0 < n) (hall : n = rest.length)
    (hexit : p.exit = .looping) (hpos : 0 < need)
    (hannounced : recvLens p.sock.announced = lens frames k)
    (hexpects : Expects frames p.sock rest k need f got) (hlen : f.1.length < 4294967296)
    (hreceived : E.received p.sock.taken) : Onward frames E p q := by
  obtain ⟨m', done', rest', part', n', k', hmoves, -⟩ :=
    h.along hscan hn hexit hpos hannounced hexpects hlen hscan.holds.side.taken
  rw [hall, Nat.sub_self] at hmoves
  exact hmoves.onward hreceived

/-- An iteration inside a frame. -/
theorem Inside.needStep (h : Inside frames E p m done rest part n k)
    (hside : MainSide procRecv (Delivers frames)) (hlen : ∀ f ∈ frames, f.1.length < 4294967296)
    (hloop : p.Looping) (hneed : p.sock.needData ≠ 0) :
    Onward frames E p (p.needStep procRecv) := by
  have hplen := h.scan.len
  have hnpos := hloop.2
  have hall : n = rest.length := by
    rcases h.looping hloop.1 with hall | ⟨hc, _⟩
    · exact hall
    · exact absurd hc hneed
  obtain ⟨f, got, hexpects⟩ := h.synced.progress hneed
  have hf := hlen f (List.mem_of_getElem? hexpects.frame)
  have hpos := ((h.scan.frame h.exit).progress hneed).1
  have hmoved := h.scan.needStep hside hloop.1 hneed fun _ => by
    rw [hexpects.packetLen]
    exact mayAnnounce h.synced.announced hexpects.frame hf
  exact hmoved.onward h.scan (by omega) hall hloop.1 hpos h.synced.announced hexpects hf h.received

/-- A frame whose header was put together from the two ends of the ring. -/
theorem Split.along (H : IFxDataHeader η) {X : RecvSock η → Prop} {r : Parse η} {hl : Nat}
    {f : List UInt8 × List UInt8} (h : Split X r m (rest.drop n) n) (hside : MainSide procRecv X)
    (hhl : H.getHeaderLength r.sock.header = hl) (hn : n < hl) (hrest : hl ≤ rest.length)
    (hf : frames[k]? = some f) (hlen : f.1.length < 2147483648) (hge : hl ≤ f.1.length)
    (hpacket : r.sock.packetLen = f.1.length)
    (hannounced : recvLens r.sock.announced = lens frames k)
    (htaken : r.sock.taken = wire frames k ++ rest)
    (hall : r.sock.taken <+: wire frames frames.length)
    (hX : MayAnnounce X r.sock (rest.drop hl) f.1.length)
    (hrecord : r.sock.taken = p.sock.taken) (hunread : p.unread = rest.length + 1) (hpos : 0 < n) :
    ∃ m' done' rest' part' n' k',
      MovesOn frames X p (r.enterFrame procRecv H) m' done' rest' part' n' k' 0 ∧
      ((r.enterFrame procRecv H).sock.needData = 0 ∨
        (r.enterFrame procRecv H).sock.needData + hl =
          (r.enterFrame procRecv H).sock.packetLen) := by
  obtain ⟨hk, _⟩ := List.getElem?_eq_some_iff.mp hf
  have hdrop : (rest.drop n).drop (hl - n) = rest.drop hl := by
    rw [List.drop_drop, show n + (hl - n) = hl by omega]
  have htail : n + (rest.drop n).length - hl = (rest.drop hl).length := by
    simp only [List.length_drop]
    omega
  have hwhole : Expects frames r.sock rest k f.1.length f [] :=
    ⟨hf, hpacket, by simp, by rw [List.append_nil]; exact htaken⟩
  have henter := h.enterFrame H hside hhl hn (by rw [List.length_drop]; omega)
    (by rw [hpacket]; omega) (by rw [hpacket]; omega) fun _ => by
      rw [hpacket, hdrop]
      exact hX
  rw [hdrop, htail, hpacket] at henter
  rcases henter with ⟨heq, m', hscan, hann⟩ | ⟨hlt, hscan, hsock, hexit⟩
  · refine ⟨m', [], rest.drop hl, 0, _, k + 1, ⟨⟨hscan, ⟨hk, ?_, ?_, ?_⟩, hann.exit.trans h.exit⟩,
      rfl, hann.taken.trans hrecord, ?_⟩, Or.inl hann.needData⟩
    · rw [hann.announced, hannounced, lens_succ hf]
      congr 2
      simp [toUInt32]
      omega
    · intro _
      rw [hann.taken, hwhole.completed hall (by omega) (by omega), Int.toNat_natCast,
        show f.1.length = hl by omega]
    · intro hc
      exact absurd hann.needData hc
    · rw [hscan.unread_eq, hunread, List.length_drop]
      split <;> omega
  · refine ⟨m, _, rest.drop hl, n, _, k, ⟨⟨hscan, ⟨hk.le, ?_, ?_, ?_⟩, hexit.trans h.exit⟩, rfl, ?_,
      ?_⟩, Or.inr ?_⟩
    · rw [hsock]
      exact hannounced
    · intro hc
      rw [hsock] at hc
      simp only at hc
      omega
    · intro _
      refine ⟨f, [] ++ rest.take hl, ?_⟩
      rw [hsock]
      simp only [hpacket]
      exact hwhole.more hrest (by simp only [hpacket])
    · rw [hsock]
      exact hrecord
    · rw [hscan.unread_eq, hunread, List.length_drop]
      split <;> omega
    · rw [hsock]
      simp only
      omega

theorem Split.onward (H : IFxDataHeader η) {r : Parse η} {hl : Nat}
    {f : List UInt8 × List UInt8} (h : Split (Delivers frames) r m (rest.drop n) n)
    (hside : MainSide procRecv (Delivers frames)) (hhl : H.getHeaderLength r.sock.header = hl)
    (hn : n < hl) (hrest : hl ≤ rest.length) (hf : frames[k]? = some f)
    (hlen : f.1.length < 2147483648) (hge : hl ≤ f.1.length)
    (hpacket : r.sock.packetLen = f.1.length)
    (hannounced : recvLens r.sock.announced = lens frames k)
    (htaken : r.sock.taken = wire frames k ++ rest) (hrecord : r.sock.taken = p.sock.taken)
    (hreceived : E.received p.sock.taken) (hunread : p.unread = rest.length + 1) (hpos : 0 < n) :
    Onward frames E p (r.enterFrame procRecv H) := by
  obtain ⟨m', done', rest', part', n', k', hmoves, -⟩ :=
    h.along H hside hhl hn hrest hf hlen hge hpacket hannounced htaken h.holds.side.taken
      (mayAnnounce hannounced hf (by omega)) hrecord hunread hpos
  exact hmoves.onward hreceived

/-! ### The eight byte header -/

section BinaryHeader

open BinaryDataHeader

variable {procRecv : ProcRecv BinaryDataHeader} {X : RecvSock BinaryDataHeader → Prop}
  {p q : Parse BinaryDataHeader}

/-- The header of a frame in progress is consumed. -/
def Begun (s : RecvSock BinaryDataHeader) : Prop :=
  s.needData ≠ 0 → s.needData + headerLength ≤ s.packetLen

/-- An iteration moves on in the region; or the header stood across its end and it moves on behind
it; or less than a header is left. -/
inductive Iterated (frames : List (List UInt8 × List UInt8))
    (X : RecvSock BinaryDataHeader → Prop) (p q : Parse BinaryDataHeader) (rest : List UInt8)
    (n k : Nat) : Prop
  | moved {m' done' rest' : List UInt8} {part' n' k' : Nat}
      (moves : MovesOn frames X p q m' done' rest' part' n' k' (rest.length - n))
      (begun : Begun p.sock → Begun q.sock) (whole : p.sock.needData = 0 → 8 ≤ n)
  | joined {m' done' rest' : List UInt8} {part' n' k' : Nat} (hlt : n < 8)
      (needData : p.sock.needData = 0) (moves : MovesOn frames X p q m' done' rest' part' n' k' 0)
      (begun : Begun q.sock)
  | waits {m' : List UInt8} (hlt : rest.length < 8) (needData : p.sock.needData = 0)
      (scan : Scan X q m' [] rest 0 0) (synced : Synced frames q.sock rest k)
      (exit : q.exit = .broke) (idle : q.sock.needData = 0) (taken : q.sock.taken = p.sock.taken)
      (less : q.unread < p.unread)

/-- The stream is one of frames with such a header, and the main thread's side knows that. -/
structure Streams (frames : List (List UInt8 × List UInt8))
    (X : RecvSock BinaryDataHeader → Prop) : Prop where
  wire : ∀ f ∈ frames, 8 ≤ f.1.length ∧ f.1.length < 2147483648 ∧
    pkgLength (f.1.take 8) = f.1.length
  taken : ∀ s, X s → s.taken <+: Framing.wire frames frames.length
  announce : ∀ s k f rest, recvLens s.announced = lens frames k → frames[k]? = some f →
    MayAnnounce X s rest f.1.length

theorem Along.frameStep (fail : Parse BinaryDataHeader → Int → Parse BinaryDataHeader)
    (hstream : Streams frames X) (h : Along frames X p m done rest part n k)
    (hside : MainSide procRecv X) (hloop : p.Looping) :
    Iterated frames X p (p.frameStep procRecv vtable fail) rest n k := by
  have hplen := h.scan.len
  have hfits := h.scan.fits
  have htaken := hstream.taken _ h.scan.holds.side
  have hframe := h.scan.frame (by rw [h.exit]; exact fun hc => nomatch hc)
  have hnpos : 0 < n := by
    have := hloop.2
    omega
  have hunread : p.unread = rest.length + 1 := by rw [h.scan.unread_eq, if_pos hloop]
  by_cases hneed : p.sock.needData = 0
  · obtain ⟨hused, rfl⟩ := hframe.idle hneed
    obtain rfl := List.eq_nil_of_length_eq_zero hused
    have hne : rest ≠ [] := by
      rintro rfl
      exact absurd hfits (by simp; omega)
    obtain ⟨f, hf, hnow, hbegin⟩ := h.synced.next hneed hne htaken
    obtain ⟨hge, hlt, hpkg⟩ := hstream.wire f (List.mem_of_getElem? hf)
    have hheaded := h.scan.frameStep_idle fail hside h.exit hneed hnpos
    generalize p.frameStep procRecv vtable fail = q at hheaded
    cases hheaded with
    | waits m' hrest scan exit needData record =>
      refine .waits hrest hneed scan ⟨h.synced.le, ?_, ?_, ?_⟩ exit needData record.taken ?_
      · exact record.announced.trans h.synced.announced
      · intro _
        exact record.taken.trans hnow
      · intro hc
        exact absurd needData hc
      · rw [hunread, scan.unread_eq, if_neg (fun hc => by
          exact absurd (exit.symm.trans hc.1) (fun hc => nomatch hc))]
        omega
    | whole p' hle scan parsed eq =>
      have hpacket : p'.sock.packetLen = f.1.length := by
        rw [parsed.packetLen, hbegin 8 (by omega) hge, hpkg]
      have hsame : p'.unread = p.unread := by
        have hp' := scan.len
        rw [hunread, scan.unread_eq, if_pos ⟨parsed.exit, by omega⟩]
      have hannounced := parsed.record.announced.trans h.synced.announced
      rw [if_neg (by omega), if_neg (by omega)] at eq
      have hmoved := scan.wholeStep hside (by omega) (by omega) fun _ => by
        rw [hpacket]
        exact hstream.announce _ _ _ _ hannounced hf
      have hexpects : Expects frames p'.sock rest k p'.sock.packetLen f [] :=
        ⟨hf, hpacket, by simp [hpacket], by rw [List.append_nil, parsed.record.taken, hnow]⟩
      obtain ⟨m', done', rest', part', n', k', hmoves, hbegun⟩ :=
        hmoved.along scan hnpos parsed.exit (by omega) hannounced hexpects (by omega)
          (parsed.record.taken ▸ htaken)
      rw [← eq] at hmoves hbegun
      refine .moved ⟨hmoves.along, hmoves.behind, hmoves.taken.trans parsed.record.taken,
        hsame ▸ hmoves.less⟩ (fun _ hc => ?_) fun _ => hle
      rcases hbegun with hzero | ⟨hneed', hpacket'⟩
      · exact absurd hzero hc
      · rw [hneed', hpacket', headerLength]
        omega
    | joined m' r hshort hle split parsed eq =>
      have hpacket : r.sock.packetLen = f.1.length := by
        rw [parsed.packetLen, hbegin 8 hle hge, hpkg]
      have hannounced := parsed.record.announced.trans h.synced.announced
      rw [if_neg (by omega)] at eq
      obtain ⟨m', done', rest', part', n', k', hmoves, hbegun⟩ :=
        split.along vtable hside (p := p) rfl hshort hle hf hlt hge hpacket hannounced
          (parsed.record.taken.trans hnow) (parsed.record.taken ▸ htaken)
          (hstream.announce _ _ _ _ hannounced hf) parsed.record.taken hunread hnpos
      rw [← eq] at hmoves hbegun
      refine .joined hshort hneed hmoves fun hc => ?_
      rcases hbegun with hzero | hsum
      · exact absurd hzero hc
      · exact hsum.le
  · obtain ⟨f, got, hexpects⟩ := h.synced.progress hneed
    obtain ⟨hge, hlt, -⟩ := hstream.wire f (List.mem_of_getElem? hexpects.frame)
    have hpos := (hframe.progress hneed).1
    have hmoved := h.scan.needStep hside h.exit hneed fun _ => by
      rw [hexpects.packetLen]
      exact hstream.announce _ _ _ _ h.synced.announced hexpects.frame
    obtain ⟨m', done', rest', part', n', k', hmoves, hbegun⟩ :=
      hmoved.along h.scan hnpos h.exit hpos h.synced.announced hexpects (by omega) htaken
    rw [Parse.frameStep, if_pos (Ne.symm hneed)]
    refine .moved hmoves (fun hold hc => ?_) fun hc => absurd hc hneed
    have := hold hneed
    rcases hbegun with hzero | ⟨hneed', hpacket'⟩
    · exact absurd hzero hc
    · rw [hneed', hpacket']
      omega

end BinaryHeader

end Parse

/-! ### Calls and runs -/

namespace RecvSock

open Framing Parse

variable {η : Type} {procRecv : ProcRecv η} {body : Parse η → Parse η}
  {frames : List (List UInt8 × List UInt8)} {E : Edges} {s s' : RecvSock η}
  {m w : List UInt8} {part k : Nat}

/-- Between two calls. -/
structure Between (frames : List (List UInt8 × List UInt8)) (E : Edges) (s : RecvSock η)
    (m w : List UInt8) (part k : Nat) : Prop where
  ready : Ready (Delivers frames) s m w part
  synced : Synced frames s w k
  tidy : w ≠ [] → Left E s w

/-- The kernel hands out the stream: any next piece of it, or nothing yet. -/
def Continues (frames : List (List UInt8 × List UInt8)) (s : RecvSock η) : Op → Prop
  | .onRecv _ (.data bytes) _ => bytes ≠ [] ∧ s.taken ++ bytes <+: wire frames frames.length
  | .onRecv _ (.error errno) _ => (RecvRet.error errno).Transient
  | .main | .delayClose => True

theorem Synced.sameFrame {rest : List UInt8} (h : Synced frames s rest k) (hsame : SameFrame s s') :
    Synced frames s' rest k := by
  refine ⟨h.le, hsame.announced.trans h.announced, ?_, ?_⟩
  · rw [hsame.needData, hsame.taken]
    exact h.idle
  · rw [hsame.needData]
    intro hneed
    obtain ⟨f, got, hexpects⟩ := h.progress hneed
    exact ⟨f, got, hexpects.frame, hsame.packetLen.trans hexpects.packetLen, hexpects.missing,
      hsame.taken.trans hexpects.taken⟩

/-- The loop starts with the old unmarked bytes and what was received. -/
theorem Between.start (h : Between frames E s m w part k) {m' xs : List UInt8} {region : Region}
    {n : Nat} (hpos : 0 < n)
    (scan : Scan (Delivers frames) (Parse.start region s') m' [] (w ++ xs) part n)
    (hcut : n < (w ++ xs).length →
      n ≤ w.length ∧ s.recvBuf.useCursor + (n : Int) = s.recvBuf.totalLen)
    (hsame : SameFrame { s with taken := s.taken ++ xs } s')
    (hreceived : E.received (s.taken ++ xs))
    (hedge : ∀ n, 0 < n → n ≤ w.length → s.recvBuf.useCursor + (n : Int) = s.recvBuf.totalLen →
      E.cut (w ++ xs)) :
    Inside frames E (Parse.start region s') m' [] (w ++ xs) part n k := by
  have hneed : s'.needData = s.needData := hsame.needData
  refine ⟨scan, ⟨h.synced.le, hsame.announced.trans h.synced.announced, ?_, ?_⟩, ?_, ?_, ?_, ?_⟩
  · simp only [Parse.start, hneed, hsame.taken]
    intro hc
    rw [h.synced.idle hc, List.append_assoc]
  · simp only [Parse.start, hneed]
    intro hc
    obtain ⟨f, got, hexpects⟩ := h.synced.progress hc
    refine ⟨f, got, hexpects.frame, hsame.packetLen.trans hexpects.packetLen, hexpects.missing, ?_⟩
    rw [hsame.taken]
    simp only [hexpects.taken, List.append_assoc]
  · simp only [Parse.start, hsame.taken]
    exact hreceived
  · intro _
    rcases Nat.lt_or_ge n (w ++ xs).length with hlt | hge
    · obtain ⟨hn, hend⟩ := hcut hlt
      have hne : w ≠ [] := by
        rintro rfl
        exact absurd hn (by simp; omega)
      have hleft := h.tidy hne
      refine Or.inr ⟨hneed.trans hleft.needData, hpos, ?_, hedge n hpos hn hend⟩
      rw [List.take_append_of_le_length hn]
      exact hleft.front n hpos hn hend
    · have := scan.fits
      exact Or.inl (by omega)
  · intro hc
    cases hc
  · intro hc
    cases hc

/-- Behind the loop nothing is left, or the beginning of a frame. -/
theorem Inside.finish {p : Parse η} {done rest : List UInt8} {n : Nat}
    (h : Inside frames E p m done rest part n k)
    (hside : MainSide procRecv (Delivers frames)) (hdone : ¬ p.Looping) :
    ∃ m' part', Between frames E (p.finish procRecv) m' rest part' k := by
  obtain ⟨m', hready, hsame⟩ := h.scan.finish hside h.exit
  refine ⟨m', _, hready, h.synced.sameFrame hsame, fun hne => ?_⟩
  have hlen := h.scan.len
  cases hexit : p.exit with
  | looping =>
    have hn : n = 0 := by
      by_contra hc
      exact hdone ⟨hexit, by omega⟩
    rcases h.looping hexit with hall | ⟨_, hpos, _⟩
    · exact absurd (List.eq_nil_of_length_eq_zero (by omega)) hne
    · omega
  | broke =>
    have hleft := h.broke hexit
    have hzero := (h.scan.frame h.exit).idle hleft.needData
    have hused := h.scan.used
    have hself : p.finish procRecv = p.sock := by
      rw [Parse.finish, if_neg h.exit, if_neg (by omega)]
    rw [hself]
    exact hleft
  | returned => exact absurd hexit h.exit

/-- The bytes that `recv` delivers in a call. -/
def delivered (procRecv : ProcRecv η) (s : RecvSock η) (ret : RecvRet) (sched : List Nat) :
    List UInt8 :=
  ({ s with sched := sched }.recvChunk procRecv ret).2.taken.drop s.taken.length

/-- A call may receive what it receives. -/
def Permits (procRecv : ProcRecv η) (E : Edges) (s : RecvSock η) (w : List UInt8) : Op → Prop
  | .onRecv _ ret sched =>
    E.received (s.taken ++ delivered procRecv s ret sched) ∧
      ∀ n, 0 < n → n ≤ w.length → s.recvBuf.useCursor + (n : Int) = s.recvBuf.totalLen →
        E.cut (w ++ delivered procRecv s ret sched)
  | .main | .delayClose => True

theorem Between.onRecv (h : Between frames E s m w part k)
    (hside : MainSide procRecv (Delivers frames))
    (hbody : ∀ p m done rest part n k, Inside frames E p m done rest part n k → p.Looping →
      Onward frames E p (body p))
    {fuel : Nat} {ret : RecvRet} {sched : List Nat}
    (hret : Continues frames s (.onRecv fuel ret sched))
    (hpermit : Permits procRecv E s w (.onRecv fuel ret sched)) (hfuel : 1073741825 < fuel) :
    ∃ s' m' w' part' k', RecvSock.step procRecv body s (.onRecv fuel ret sched) = some s' ∧
      Between frames E s' m' w' part' k' := by
  have hready : Ready (Delivers frames) { s with sched := sched } m w part :=
    ⟨h.ready.holds.io hside rfl rfl, h.ready.frame.idle, h.ready.frame.progress⟩
  have hconn : ({ s with sched := sched } : RecvSock η).isConnected ≠ false := by
    simp [isConnected, h.ready.holds.side.state]
  have hchunk := hready.recvChunk hside ret fun bytes xs hbytes hxs t recvBuf ht htaken => by
    subst hbytes
    obtain ⟨c, greeting, j, k', hq⟩ := ht.queue
    refine ⟨ht.state, ht.delayClose, ht.clean, ht.size, ?_, c, greeting, j, k',
      ⟨hq.1, hq.2, hq.3, hq.4, hq.5, hq.6, hq.7, hq.8, hq.9, hq.10⟩⟩
    simp only [htaken]
    exact ((List.prefix_append_right_inj s.taken).mpr hxs).trans hret.2
  simp only [RecvSock.step, RecvSock.onRecv, if_neg hconn]
  simp only [Permits, delivered] at hpermit
  generalize RecvSock.recvChunk procRecv ret { s with sched := sched } = chunk at hchunk hpermit
  cases hchunk with
  | later m' s' ready same cursor =>
    refine ⟨s', m', w, part, k, rfl, ready,
      h.synced.sameFrame ⟨same.1, same.2, same.3, same.4, same.5⟩,
      fun hne => ?_⟩
    exact (h.tidy hne).mono same.needData cursor.totalLen (cursor.useCursor hne)
  | closed m' t dwValue fatal =>
    cases ret with
    | data bytes => exact absurd fatal hret.1
    | error errno => exact absurd hret fatal
  | parse m' xs s' region n hne offered hpos scan hcut same =>
    have htaken : s'.taken.drop s.taken.length = xs := by
      rw [same.taken]
      exact List.drop_left
    simp only [htaken] at hpermit
    have hstart := h.start hpos scan hcut ⟨same.1, same.2, same.3, same.4, same.5⟩
      hpermit.1 hpermit.2
    have hunread := scan.unread_eq
    have hbound := scan.bounded
    simp only [List.length_nil] at hbound
    have hfuel' : (Parse.start region s').unread < fuel := by
      rw [hunread]
      split <;> omega
    obtain ⟨p, hrun, ⟨m₁, done, rest, part₁, n₁, k₁, hinside⟩, hdone⟩ :=
      While.total (fun _ => True)
        (fun p => ∃ m done rest part n k, Inside frames E p m done rest part n k) Parse.unread
        (by
          rintro p ⟨m, done, rest, part, n, k, hinside⟩ hloop -
          obtain ⟨m', done', rest', part', n', k', hnext, hless⟩ :=
            hbody p m done rest part n k hinside hloop
          exact ⟨⟨m', done', rest', part', n', k', hnext⟩, hless⟩)
        ⟨m', [], w ++ xs, part, n, k, hstart⟩ (fun _ _ _ => trivial) hfuel'
    obtain ⟨m₂, part₂, hbetween⟩ := Inside.finish hinside hside hdone
    exact ⟨_, m₂, rest, part₂, k₁, by simp only [hrun, Option.map_some], hbetween⟩

theorem Between.step (h : Between frames E s m w part k)
    (hside : MainSide procRecv (Delivers frames))
    (hbody : ∀ p m done rest part n k, Inside frames E p m done rest part n k → p.Looping →
      Onward frames E p (body p))
    {op : Op} (hop : Continues frames s op) (hpermit : Permits procRecv E s w op)
    (hstep : RecvSock.step procRecv body s op = some s') :
    ∃ m' w' part' k', Between frames E s' m' w' part' k' := by
  cases op with
  | onRecv fuel ret sched =>
    have hop' : Continues frames s (.onRecv (max fuel 1073741826) ret sched) := by
      cases ret with
      | data bytes => exact hop
      | error errno => exact hop
    have hpermit' : Permits procRecv E s w (.onRecv (max fuel 1073741826) ret sched) := hpermit
    obtain ⟨t, m', w', part', k', ht, hbetween⟩ := h.onRecv hside hbody hop' hpermit' (by omega)
    have hmono := onRecv_mono (Nat.le_max_left fuel 1073741826) hstep
    rw [show RecvSock.onRecv procRecv body _ ret _ = some t from ht] at hmono
    obtain rfl := Option.some.inj hmono
    exact ⟨m', w', part', k', hbetween⟩
  | main =>
    obtain ⟨m', hholds, hio, _⟩ := h.ready.holds.mainStep hside
    obtain rfl := Option.some.inj hstep
    exact ⟨m', w, part, k, h.ready.sameFrame hholds hio.frame, h.synced.sameFrame hio.frame,
      fun hne => (h.tidy hne).mono hio.needData hio.totalLen hio.useCursor⟩
  | delayClose =>
    simp only [RecvSock.step, h.ready.holds.side.delayClose] at hstep
    obtain rfl := Option.some.inj hstep
    exact ⟨m, w, part, k, h⟩

/-! ### A connection that comes to its end -/

/-- What stands in the queue behind the frames once the socket is closed. -/
def Leftover (e : SNetEvent) : Prop :=
  e.eType = .error ∨ e.eType = .terminate ∨ e.eType = .release

theorem no_lens_leftover {rest : List SNetEvent} (h : ∀ e ∈ rest, Leftover e) :
    recvLens rest = [] := quiet_of_forall fun e he => by
  rcases h e he with htype | htype | htype <;> simp [htype]

/-- The socket is closed; the frames that were announced before are still handed over. -/
structure Drains (frames : List (List UInt8 × List UInt8)) (s : RecvSock η) : Prop where
  state : s.state ≠ .establish
  delayClose : s.delayClose = false
  size : ∀ f ∈ frames, f.1.length ≤ s.sessionSize
  taken : s.taken <+: wire frames frames.length
  queue : ∃ c greeting rest j k, Queue frames s c greeting rest j k ∧ ∀ e ∈ rest, Leftover e

theorem Drains.io (h : Drains frames s) (hmain : SameMain s s') : Drains frames s' := by
  obtain ⟨c, greeting, rest, j, k, hq, hrest⟩ := h.queue
  rw [hmain]
  exact ⟨h.state, h.delayClose, h.size, h.taken, c, greeting, rest, j, k,
    ⟨hq.1, hq.2, hq.3, hq.4, hq.5, hq.6, hq.7, hq.8, hq.9, hq.10⟩, hrest⟩

/-- Closing puts an error behind the frames, and the end of the socket. -/
theorem fail_events (s : RecvSock η) (dwValue : Int) : ∃ more, (∀ e ∈ more, Leftover e) ∧
    (s.fail dwValue).events = s.events ++ more ∧
      (s.fail dwValue).announced = s.announced ++ more := by
  have herror : Leftover ⟨.error, toUInt32 dwValue⟩ := Or.inl rfl
  have hterminate : Leftover ⟨.terminate, toUInt32 0⟩ := Or.inr (Or.inl rfl)
  simp only [fail, close]
  split_ifs
  · exact ⟨[_], by simpa using herror, rfl, rfl⟩
  · exact ⟨[_], by simpa using herror, rfl, rfl⟩
  · refine ⟨[_, _], ?_, List.append_assoc _ _ _, List.append_assoc _ _ _⟩
    simpa using ⟨herror, hterminate⟩
  · exact ⟨[_], by simpa using herror, rfl, rfl⟩
  · refine ⟨[_, _], ?_, List.append_assoc _ _ _, List.append_assoc _ _ _⟩
    simpa using ⟨herror, hterminate⟩

theorem Queue.behind {c : FxConnection} {greeting rest more : List SNetEvent} {j k : Nat}
    (hq : Queue frames s c greeting rest j k) (hmore : ∀ e ∈ more, Leftover e)
    (hconnection : s'.connection = s.connection) (hid : s'.sockId = s.sockId)
    (hevents : s'.events = s.events ++ more) (hannounced : s'.announced = s.announced ++ more)
    (hpopped : s'.popped = s.popped) (hreceived : s'.received = s.received) :
    Queue frames s' c greeting (rest ++ more) j k := by
  refine ⟨hconnection.trans hq.connection, hid ▸ hq.id, hq.session, hq.greets, hq.popped_le,
    hq.announced_le, ?_, ?_, hpopped.trans hq.popped, hreceived.trans hq.received⟩
  · rw [hevents, hq.events]
    simp only [List.append_assoc]
  · rw [hannounced, recvLens_append, no_lens_leftover hmore, List.append_nil]
    exact hq.announced

theorem Holds.drains (h : Holds (Delivers frames) s m w part) (dwValue : Int) :
    Holds (Drains frames) (s.fail dwValue) m w part := by
  have hX := h.side
  have hsame := fail_same s dwValue
  have hfailed := h.fail dwValue
  have hstate := fail_state s dwValue
  obtain ⟨more, hmore, hevents, hannounced⟩ := fail_events s dwValue
  generalize s.fail dwValue = t at *
  obtain ⟨c, greeting, j, k, hq⟩ := hX.queue
  refine ⟨hfailed.rep, hfailed.marks, hfailed.small, hfailed.taken, hfailed.pending, hstate, ?_, ?_,
    ?_, c, greeting, [] ++ more, j, k, ?_, hmore⟩
  · rw [hsame]
    exact hX.delayClose
  · rw [hsame]
    exact hX.size
  · rw [hsame]
    exact hX.taken
  · exact hq.behind hmore (by rw [hsame]) (by rw [hsame]) hevents hannounced (by rw [hsame])
      (by rw [hsame])

/-- The main thread's step on what follows the frames. -/
theorem mainStep_leftover (procRecv : ProcRecv η) {e : SNetEvent} {rest : List SNetEvent}
    (hevents : s.events = e :: rest) (he : Leftover e) :
    ∃ more, (∀ e ∈ more, Leftover e) ∧ RecvSock.mainStep procRecv s =
      { s with events := rest ++ more, announced := s.announced ++ more } := by
  have hrelease : Leftover ⟨.release, toUInt32 0⟩ := Or.inr (Or.inr rfl)
  rcases he with htype | htype | htype
  · exact ⟨[], by simp, by simp [RecvSock.mainStep, hevents, procEvent, htype]⟩
  · refine ⟨[⟨.release, toUInt32 0⟩], by simpa using hrelease, ?_⟩
    simp [RecvSock.mainStep, hevents, procEvent, htype, procTerminate, pushNetEvent]
  · exact ⟨[], by simp, by simp [RecvSock.mainStep, hevents, procEvent, htype]⟩

theorem Drains.mainStep (h : Holds (Drains frames) s m w part)
    (hands : Hands procRecv frames) (hpos : ∀ f ∈ frames, 0 < f.1.length) :
    Drains frames (RecvSock.mainStep procRecv s) := by
  have hX := h.side
  obtain ⟨c, greeting, rest, j, k, hq, hrest⟩ := hX.queue
  rcases hq.mainStep h hands hpos hX.size hX.taken with ⟨hevents, rfl, rfl⟩ |
    ⟨c', greeting', j', hq', hsame⟩
  · cases rest with
    | nil =>
      have hstep : RecvSock.mainStep procRecv s = s := by
        simp only [RecvSock.mainStep, hevents]
      rw [hstep]
      exact hX
    | cons e rest =>
      obtain ⟨more, hmore, hstep⟩ := mainStep_leftover procRecv hevents
        (hrest e (List.mem_cons_self ..))
      rw [hstep]
      refine ⟨hX.state, hX.delayClose, hX.size, hX.taken, c, [], rest ++ more, j, j,
        ⟨hq.connection, hq.id, hq.session, hq.greets, le_rfl, hq.announced_le, ?_, ?_, hq.popped,
          hq.received⟩, fun e he => ?_⟩
      · rw [List.drop_of_length_le (by rw [List.length_take]; omega)]
        rfl
      · simp only [recvLens_append, no_lens_leftover hmore, List.append_nil]
        exact hq.announced
      · rcases List.mem_append.mp he with he | he
        · exact hrest e (List.mem_cons_of_mem _ he)
        · exact hmore e he
  · generalize RecvSock.mainStep procRecv s = s' at hq' hsame
    rw [HandsOn] at hsame
    refine ⟨?_, ?_, ?_, ?_, c', greeting', rest, j', k, hq', hrest⟩
    all_goals rw [hsame]
    · exact hX.state
    · exact hX.delayClose
    · exact hX.size
    · exact hX.taken

theorem Hands.drains (hands : Hands procRecv frames) (hpos : ∀ f ∈ frames, 0 < f.1.length) :
    MainSide procRecv (Drains frames) :=
  ⟨hands.pops, fun _ _ _ _ h => Drains.mainStep h hands hpos, fun _ _ hmain h => h.io hmain⟩

/-- The kernel hands out the stream, reports an error or has nothing; no bytes at all are the end
of the stream. -/
def Offers (frames : List (List UInt8 × List UInt8)) (s : RecvSock η) : Op → Prop
  | .onRecv _ (.data bytes) _ => s.taken ++ bytes <+: wire frames frames.length
  | .onRecv _ (.error _) _ | .main | .delayClose => True

/-- Between two calls of a socket that may have been closed. -/
def Follows (frames : List (List UInt8 × List UInt8)) (E : Edges) (s : RecvSock η) : Prop :=
  (∃ m w part k, Between frames E s m w part k) ∨ ∃ m w part, Holds (Drains frames) s m w part

/-- The end of the stream or an error closes the socket, unless the ring is full. -/
theorem Between.onRecv_fatal (h : Between frames E s m w part k)
    (hside : MainSide procRecv (Delivers frames)) {fuel : Nat} {ret : RecvRet} {sched : List Nat}
    (hfatal : ret.Fatal)
    (hstep : RecvSock.step procRecv body s (.onRecv fuel ret sched) = some s') :
    Follows frames E s' := by
  have hready : Ready (Delivers frames) { s with sched := sched } m w part :=
    ⟨h.ready.holds.io hside rfl rfl, h.ready.frame.idle, h.ready.frame.progress⟩
  have hconn : ({ s with sched := sched } : RecvSock η).isConnected ≠ false := by
    simp [isConnected, h.ready.holds.side.state]
  have hchunk := hready.recvChunk hside ret fun bytes xs hbytes hxs t recvBuf ht htaken => by
    subst hbytes
    obtain rfl : bytes = [] := hfatal
    obtain rfl := List.prefix_nil.mp hxs
    obtain ⟨c, greeting, j, k', hq⟩ := ht.queue
    refine ⟨ht.state, ht.delayClose, ht.clean, ht.size, ?_, c, greeting, j, k',
      ⟨hq.1, hq.2, hq.3, hq.4, hq.5, hq.6, hq.7, hq.8, hq.9, hq.10⟩⟩
    simp only [List.append_nil]
    exact ht.taken
  simp only [RecvSock.step, RecvSock.onRecv, if_neg hconn] at hstep
  generalize RecvSock.recvChunk procRecv ret { s with sched := sched } = chunk at hchunk hstep
  cases hchunk with
  | later m' t ready same cursor =>
    obtain rfl := Option.some.inj hstep
    refine Or.inl ⟨m', w, part, k, ready,
      h.synced.sameFrame ⟨same.1, same.2, same.3, same.4, same.5⟩, fun hne => ?_⟩
    exact (h.tidy hne).mono same.needData cursor.totalLen (cursor.useCursor hne)
  | closed m' t dwValue fatal holds =>
    obtain rfl := Option.some.inj hstep
    exact Or.inr ⟨m', w, part, holds.drains dwValue⟩
  | parse m' xs t region n hne offered =>
    obtain ⟨bytes, rfl, hxs⟩ := offered
    obtain rfl : bytes = [] := hfatal
    exact absurd (List.prefix_nil.mp hxs) hne

theorem Follows.step (h : Follows frames E s) (hside : MainSide procRecv (Delivers frames))
    (hdrains : MainSide procRecv (Drains frames))
    (hbody : ∀ p m done rest part n k, Inside frames E p m done rest part n k → p.Looping →
      Onward frames E p (body p))
    {op : Op} (hop : Offers frames s op) (hpermit : ∀ w, Permits procRecv E s w op)
    (hstep : RecvSock.step procRecv body s op = some s') : Follows frames E s' := by
  rcases h with ⟨m, w, part, k, h⟩ | ⟨m, w, part, h⟩
  · by_cases hcontinues : Continues frames s op
    · exact Or.inl (h.step hside hbody hcontinues (hpermit w) hstep)
    · cases op with
      | onRecv fuel ret sched =>
        refine h.onRecv_fatal hside ?_ hstep
        cases ret with
        | data bytes =>
          by_contra hne
          exact hcontinues ⟨hne, hop⟩
        | error errno => exact hcontinues
      | main | delayClose => exact absurd trivial hcontinues
  · have hclosed := h.side.state
    refine Or.inr ?_
    cases op with
    | onRecv fuel ret sched =>
      simp only [RecvSock.step, RecvSock.onRecv] at hstep
      rw [if_pos (by simpa [isConnected] using hclosed)] at hstep
      obtain rfl := Option.some.inj hstep
      exact ⟨m, w, part, h.io hdrains rfl rfl⟩
    | main =>
      obtain rfl := Option.some.inj hstep
      obtain ⟨m', hholds, -, -⟩ := h.mainStep hdrains
      exact ⟨m', w, part, hholds⟩
    | delayClose =>
      simp only [RecvSock.step, h.side.delayClose] at hstep
      obtain rfl := Option.some.inj hstep
      exact ⟨m, w, part, h⟩

theorem Follows.received (h : Follows frames E s) : s.received <+: frames.map Prod.snd := by
  obtain ⟨j, hreceived⟩ : ∃ j, s.received = (frames.take j).map Prod.snd := by
    rcases h with ⟨m, w, part, k, h⟩ | ⟨m, w, part, h⟩
    · obtain ⟨c, greeting, j, k', hq⟩ := h.ready.holds.side.queue
      exact ⟨j, hq.received⟩
    · obtain ⟨c, greeting, rest, j, k, hq, -⟩ := h.side.queue
      exact ⟨j, hq.received⟩
  rw [hreceived, List.map_take]
  exact List.take_prefix _ _

/-- What has been received of the stream, frame by frame. -/
structure Reassembled (frames : List (List UInt8 × List UInt8)) (s : RecvSock η) (j k : Nat)
    (tail : List UInt8) : Prop where
  announced : recvLens s.announced = lens frames k
  clean : ∀ e ∈ s.announced, e.eType = .associate ∨ e.eType = .establish ∨ e.eType = .recv
  state : s.state = .establish
  received : s.received = (frames.take j).map Prod.snd
  pending : recvLens s.events = ((frames.take k).drop j).map fun f => f.1.length
  popped_le : j ≤ k
  announced_le : k ≤ frames.length
  taken : s.taken = wire frames k ++ tail
  incomplete : ∀ f, frames[k]? = some f → tail.length < f.1.length
  complete : s.taken = wire frames frames.length → k = frames.length
  drained : s.events = [] → j = k
  ring : s.recvBuf.Rep ((((frames.take k).drop j).map Prod.fst).flatten ++ tail)

theorem Between.reassembled (h : Between frames E s m w part k)
    (hleft : ∀ w, E.left w → ∀ f ∈ frames, ¬ f.1 <+: w) (hpos : ∀ f ∈ frames, 0 < f.1.length) :
    ∃ j tail, Reassembled frames s j k tail := by
  have hholds := h.ready.holds
  have hX := hholds.side
  obtain ⟨c, greeting, j, k', hq⟩ := hX.queue
  obtain rfl : k' = k := lens_injective hq.announced_le h.synced.le
    (hq.announced.symm.trans h.synced.announced)
  have hpending : recvLens s.events = ((frames.take k').drop j).map fun f => f.1.length := by
    rw [hq.events, List.append_nil, recvLens_append, hq.greets.no_lens, List.nil_append,
      lens_announcements]
  obtain ⟨tail, htaken, hincomplete⟩ : ∃ tail, s.taken = wire frames k' ++ tail ∧
      ∀ f, frames[k']? = some f → tail.length < f.1.length := by
    by_cases hneed : s.needData = 0
    · refine ⟨w, h.synced.idle hneed, fun f hf => ?_⟩
      have hmem := List.mem_of_getElem? hf
      by_contra hge
      have hne : w ≠ [] := by
        rintro rfl
        exact hge (hpos f hmem)
      obtain ⟨g, hg, _, hsame⟩ := h.synced.next hneed hne hX.taken
      obtain rfl : f = g := Option.some.inj (hf.symm.trans hg)
      refine hleft w (h.tidy hne).left f hmem ?_
      rw [List.prefix_iff_eq_take, hsame _ (by omega) le_rfl, List.take_length]
    · obtain ⟨f, got, hexpects⟩ := h.synced.progress hneed
      obtain rfl : w = [] := by
        by_contra hne
        exact hneed (h.tidy hne).needData
      have hmissing := hexpects.missing
      have hneedpos := (h.ready.frame.progress hneed).1
      refine ⟨got, by rw [hexpects.taken, List.append_nil], fun g hg => ?_⟩
      obtain rfl : f = g := Option.some.inj (hexpects.frame.symm.trans hg)
      omega
  have hring : m ++ w = (((frames.take k').drop j).map Prod.fst).flatten ++ tail := by
    have hall := hholds.taken
    rw [htaken, wire_between hq.popped_le, hq.popped, List.append_assoc, List.append_assoc] at hall
    exact (List.append_cancel_left hall).symm
  refine ⟨j, tail, hq.announced, hX.clean, hX.state, hq.received, hpending, hq.popped_le,
    h.synced.le, htaken, hincomplete, ?_, ?_, ?_⟩
  · intro hall
    by_contra hne
    have hlt : k' < frames.length := lt_of_le_of_ne h.synced.le hne
    have hf : frames[k']? = some frames[k'] := List.getElem?_eq_getElem hlt
    obtain ⟨later, hsplit⟩ := wire_split hf
    rw [htaken, hsplit] at hall
    have hlen := congrArg List.length (List.append_cancel_left hall)
    have := hincomplete _ hf
    rw [List.length_append] at hlen
    omega
  · intro hevents
    have hlen := congrArg List.length hpending
    have hle := hq.popped_le
    have hk := h.synced.le
    simp only [hevents, List.length_map, List.length_drop, List.length_take] at hlen
    simp only [recvLens, List.filterMap_nil, List.length_nil] at hlen
    omega
  · rw [← hring]
    exact hholds.rep

/-- A socket that has just been connected or accepted. -/
structure Fresh (s : RecvSock η) : Prop where
  state : s.state = .establish
  delayClose : s.delayClose = false
  rep : s.recvBuf.Rep []
  marks : s.recvBuf.Marks 0
  small : s.recvBuf.totalLen ≤ 1073741824
  needData : s.needData = 0
  connection : ∃ c, s.connection = some c ∧ c.id = s.sockId ∧ c.session = true ∧
    Greeting c.connStat s.events
  announced : ∀ e ∈ s.announced, e.eType = .associate ∨ e.eType = .establish
  taken : s.taken = []
  popped : s.popped = []
  received : s.received = []

theorem Fresh.between (h : Fresh s) (hsize : ∀ f ∈ frames, f.1.length ≤ s.sessionSize) :
    Between frames E s [] [] 0 0 := by
  obtain ⟨c, hc, hid, hsession, hgreets⟩ := h.connection
  have hlens : recvLens s.announced = [] := quiet_of_forall fun e he => by
    rcases h.announced e he with htype | htype <;> simp [htype]
  refine ⟨⟨⟨h.rep, h.marks, h.small, ?_, ?_, ?_⟩, ?_⟩, ?_, fun hne => absurd rfl hne⟩
  · rw [h.taken, h.popped]
    rfl
  · rw [hgreets.no_lens]
    rfl
  · refine ⟨h.state, h.delayClose, ?_, hsize, ?_, c, s.events, 0, 0, hc, hid, hsession, hgreets,
      le_rfl, Nat.zero_le _, by simp, hlens, h.popped, h.received⟩
    · intro e he
      rcases h.announced e he with htype | htype
      · exact Or.inl htype
      · exact Or.inr (Or.inl htype)
    · rw [h.taken]
      exact List.nil_prefix
  · exact ⟨fun _ => ⟨rfl, rfl⟩, fun hc => absurd h.needData hc⟩
  · exact ⟨Nat.zero_le _, hlens, fun _ => h.taken, fun hc => absurd h.needData hc⟩

/-- An accepted socket whose events the main thread has not seen yet. -/
def accepted (header : η) (nRecvLen : Int) (dwRecvSize : Nat) : RecvSock η :=
  let c : FxConnection := ⟨1, .none, some 1, true, false, .commonTcp⟩
  { state := .establish, sock := true, sockId := 1
    recvBuf := (FxLoopBuff.new.init nRecvLen (some fun _ => 0)).2
    needData := 0, packetLen := 0, header := header, errno := 0
    connection := some c, delayClose := false, sessionBuf := fun _ => 0, sessionSize := dwRecvSize
    events := [⟨.associate, 0⟩, ⟨.establish, 0⟩], announced := [⟨.associate, 0⟩, ⟨.establish, 0⟩]
    sched := [], taken := [], popped := [], received := [] }

theorem fresh_accepted (header : η) {nRecvLen : Int} (hpos : 0 < nRecvLen)
    (hle : nRecvLen ≤ 1073741824) (dwRecvSize : Nat) :
    Fresh (accepted header nRecvLen dwRecvSize) := by
  have hinit : (FxLoopBuff.new.init nRecvLen (some fun _ => 0)).1 = true := by
    simp [FxLoopBuff.init, FxLoopBuff.new, hpos.ne']
  obtain ⟨hrep, hmarks, htotal⟩ := FxLoopBuff.init_rep FxLoopBuff.new hpos ⟨by omega, by omega⟩
    hinit
  refine ⟨rfl, rfl, hrep, hmarks, htotal.trans_le hle, rfl, ⟨_, rfl, rfl, rfl, .none 0 0⟩, ?_, rfl,
    rfl, rfl⟩
  intro e he
  simp only [accepted, List.mem_cons, List.not_mem_nil, or_false] at he
  rcases he with rfl | rfl
  · exact Or.inl rfl
  · exact Or.inr rfl

instance (frames : List (List UInt8 × List UInt8)) (s : RecvSock η) :
    (op : Op) → Decidable (Continues frames s op)
  | .onRecv _ (.data _) _ => inferInstanceAs (Decidable (_ ∧ _))
  | .onRecv _ (.error errno) _ => inferInstanceAs (Decidable (RecvRet.error errno).Transient)
  | .main => inferInstanceAs (Decidable True)
  | .delayClose => inferInstanceAs (Decidable True)

end RecvSock
