import FxLib.Net.UDPFraming
import FxLib.Net.UDPOpening

/-!
# The buffers of an open socket

Every buffer of the two windows of an open socket is free or in one slot, as long as no `OnRecv`
finds its socket without a datagram: `OnRecv` takes a buffer for the datagram first, and does not
give it back when there is none.
-/

namespace SlidingWindow

variable {w : SlidingWindow} {data : Nat → List UInt8} {first last : Nat}

/-- The buffers of the sequence numbers from the begin of the window to its end. -/
def held (w : SlidingWindow) : List Nat :=
  (List.range w.count).map fun k => w.seqBufferId ((w.btBegin + k) % 256 % windowSize)

theorem Sends.held (h : Sends w data first last) : w.held = w.buffers first last := by
  rw [SlidingWindow.held, h.count, h.begins, buffers, List.range'_eq_map_range, List.map_map]
  refine List.map_congr_left fun k _ => ?_
  have hslot : (first % 256 + k) % 256 % windowSize = (first + k) % windowSize := by
    rw [windowSize]
    omega
  rw [hslot]
  rfl

end SlidingWindow

namespace FxUDPConnectSock

open SlidingWindow RecvSock

variable {u u' : FxUDPConnectSock} {sdata rdata : Nat → List UInt8}
  {first slast next rlast : Nat} {q : List UInt8}

/-- What holds of the windows and the send ring of an open socket: the packets of the send window
are the ones from `first` on, those of the receive window the ones from `next` on, and `q` is in the
ring. -/
structure Windows (u : FxUDPConnectSock) (sdata rdata : Nat → List UInt8)
    (first slast next rlast : Nat) (q : List UInt8) : Prop where
  pos : 1 ≤ first
  sends : Sends u.sendWindow sdata first slast
  receives : Receives u.recvWindow rdata next rlast []
  empty : windowSize ≤ u.recvWindow.seqBufferId (next % windowSize)
  rep : u.sendBuf.Rep q
  totalLen : u.sendBuf.totalLen = buffSize

theorem Shaken.windows (h : Shaken u) : Windows u (fun _ => []) (fun _ => []) 1 2 2 2 [] := by
  have hslots := slots_empty h.empty
  have hempty := h.empty (2 % windowSize) (by decide)
  refine ⟨le_rfl, h.sends, ⟨h.recvBegin, h.recvEnd, ?_, fun n _ _ hfull => ?_⟩, hempty.ge, h.rep,
    h.totalLen⟩
  · rw [hslots]
    exact h.recvPool
  · rw [h.empty (n % windowSize) (Nat.mod_lt n (by decide))] at hfull
    exact absurd hfull (lt_irrefl _)

/-- Every buffer of the receive window is on its free list or in one slot, and every buffer of the
send window on its free list or in the slot of one sequence number of the window. -/
structure Partitioned (u : FxUDPConnectSock) : Prop where
  recv : Pool u.recvWindow u.recvWindow.slots
  send : Pool u.sendWindow u.sendWindow.held

theorem Windows.partitioned (h : Windows u sdata rdata first slast next rlast q) :
    Partitioned u := by
  constructor
  · exact h.receives.pool
  · rw [h.sends.held]
    exact h.sends.pool

/-- What every run keeps of a socket. -/
def Kept (u : FxUDPConnectSock) : Prop :=
  u.sock.state ≠ .establish ∨ ∃ sdata rdata first slast next rlast q,
    Windows u sdata rdata first slast next rlast q

/-! ### Steps -/

/-- A call that finds no datagram on a connected socket with a free buffer. -/
theorem onRecv_error (fuel : Nat) (clock : Nat → Rat) (errno : Nat)
    (hconn : u.sock.isConnected ≠ false) (hfree : u.recvWindow.freeBufferId < windowSize) :
    ∃ t, onRecv fuel clock (.error errno) u =
        some (if (RecvRet.error errno).Transient then t else t.fail errno) ∧
      t.recvWindow = u.recvWindow.allocate.2 ∧ t.sock.state = u.sock.state := by
  rw [onRecv, if_neg hconn]
  simp only
  rw [if_neg (show ¬ u.recvWindow.allocate.1 ≥ windowSize from not_le.mpr hfree)]
  refine ⟨_, (apply_ite some _ _ _).symm, rfl, ?_⟩
  exact clearIfEmpty_state u.sock

/-- A datagram, whoever sent it. -/
theorem Windows.onRecv_data (h : Windows u sdata rdata first slast next rlast q) {fuel : Nat}
    {clock : Nat → Rat} {bytes : List UInt8}
    (hrecv : onRecv fuel clock (.data bytes) u = some u') : Kept u' := by
  -- what the datagram brings is the data of every packet whose slot is empty
  obtain ⟨data, hdata⟩ : ∃ data : Nat → List UInt8, data = fun n =>
    if u.recvWindow.seqBufferId (n % windowSize) < windowSize then rdata n
    else (bytes.take bufferSize).drop UDPPacketHeader.headSize := ⟨_, rfl⟩
  have hreceives : Receives u.recvWindow data next (next + windowSize) [] := by
    apply h.receives.relabel
    intro n hid
    rw [hdata]
    exact if_pos hid
  obtain ⟨hreceived, hacks⟩ := onRecv_received h.sends hreceives h.empty (by
    intro cStatus cSyn cAck xs hbytes n _ hlt _ hid
    refine ⟨hlt, ?_⟩
    rw [hdata, hbytes]
    exact if_neg (not_lt.mpr hid)) hrecv
  obtain ⟨first', hsends, hle, -⟩ := hacks.sends
  have hring := hacks.same.sendBuf
  cases hreceived with
  | «open» n before receives empty taken =>
    refine Or.inr ⟨sdata, data, first', slast, next + n, next + windowSize, q,
      h.pos.trans hle, hsends, receives, empty, ?_, ?_⟩
    · rw [hring]
      exact h.rep
    · rw [hring]
      exact h.totalLen
  | closed n xs before hn begins closed hpart taken => exact Or.inl closed

theorem Windows.update (h : Windows u sdata rdata first slast next rlast q) (dTime : Rat)
    (answers : Nat → SendRet) : Kept (update dTime answers u) := by
  rcases update_cases dTime answers u with hsame | ⟨hsock, -⟩
  · obtain ⟨data', last', q', hposts⟩ := update_posts dTime answers h.sends h.pos h.rep
      (by rw [h.totalLen]; decide)
    obtain ⟨ys, hputs, -⟩ := hposts.puts
    refine Or.inr ⟨data', rdata, first, last', next, rlast, q', h.pos, hputs.sends, ?_, ?_,
      hposts.rep, hposts.totalLen.trans h.totalLen⟩
    · rw [hsame.recvWindow]
      exact h.receives
    · rw [hsame.recvWindow]
      exact h.empty
  · refine Or.inl ?_
    rw [hsock]
    exact fail_state _ _

theorem Windows.pushFrame (h : Windows u sdata rdata first slast next rlast q)
    (pTemData : List UInt8) : Kept (pushFrame pTemData u) := by
  obtain ⟨ys, hrep, htotal, -⟩ := pushFrame_ring pTemData h.rep (by rw [h.totalLen]; decide)
  obtain ⟨hsend, hrecv⟩ := pushFrame_windows pTemData u
  refine Or.inr ⟨sdata, rdata, first, slast, next, rlast, q ++ ys, h.pos, ?_, ?_, ?_, hrep,
    htotal.trans h.totalLen⟩
  · rw [hsend]
    exact h.sends
  · rw [hrecv]
    exact h.receives
  · rw [hrecv]
    exact h.empty

/-- Only the socket itself has changed. -/
theorem Windows.sock (h : Windows u sdata rdata first slast next rlast q) (s : Sock) :
    Windows { u with sock := s } sdata rdata first slast next rlast q :=
  ⟨h.pos, h.sends, h.receives, h.empty, h.rep, h.totalLen⟩

/-- A connected socket has a datagram before `OnRecv` is called. -/
def Keeps (u : FxUDPConnectSock) : Op → Prop
  | .onRecv _ _ ret _ => u.sock.isConnected = true → ¬ ret.Transient
  | .update _ _ | .push _ | .main | .delayClose => True

instance (u : FxUDPConnectSock) : (op : Op) → Decidable (Keeps u op)
  | .onRecv _ _ _ _ => inferInstanceAs (Decidable (_ → _))
  | .update _ _ | .push _ | .main | .delayClose => inferInstanceAs (Decidable True)

theorem Windows.step (h : Windows u sdata rdata first slast next rlast q) {op : Op}
    (hop : Keeps u op) (hstep : step u op = some u') : Kept u' := by
  cases op with
  | onRecv fuel clock ret sched =>
    have hsched := h.sock { u.sock with sched := sched }
    cases ret with
    | data bytes => exact hsched.onRecv_data hstep
    | error errno =>
      by_cases hconn : u.sock.isConnected = false
      · have hsame : FxUDPConnectSock.step u (.onRecv fuel clock (.error errno) sched) =
            some { u with sock := { u.sock with sched := sched } } := if_pos hconn
        obtain rfl := Option.some.inj (hsame.symm.trans hstep)
        exact Or.inr ⟨_, _, _, _, _, _, _, hsched⟩
      · have hfree := h.receives.free_of_empty (Nat.mod_lt next (by decide)) h.empty
        obtain ⟨t, ht, -⟩ := onRecv_error
          (u := { u with sock := { u.sock with sched := sched } }) fuel clock errno hconn hfree
        obtain rfl := Option.some.inj (ht.symm.trans hstep)
        rw [if_neg (hop (by simpa using hconn))]
        exact Or.inl (fail_state _ _)
  | update dTime answers =>
    obtain rfl := Option.some.inj hstep
    exact h.update dTime answers
  | push pTemData =>
    obtain rfl := Option.some.inj hstep
    exact h.pushFrame pTemData
  | main =>
    obtain rfl := Option.some.inj hstep
    exact Or.inr ⟨_, _, _, _, _, _, _, h.sock _⟩
  | delayClose =>
    obtain rfl := Option.some.inj hstep
    exact Or.inr ⟨_, _, _, _, _, _, _, h.sock _⟩

theorem Kept.step (h : Kept u) {op : Op} (hop : Keeps u op) (hstep : step u op = some u') :
    Kept u' := by
  rcases h with hclosed | ⟨sdata, rdata, first, slast, next, rlast, q, h⟩
  · exact Or.inl (closed_step hclosed hstep)
  · exact h.step hop hstep

/-- Without a datagram a buffer is lost. -/
theorem Kept.keeps (h : Kept u) {op : Op} (hstep : FxUDPConnectSock.step u op = some u')
    (hafter : u'.sock.isConnected = true → Partitioned u') : Keeps u op := by
  cases op with
  | onRecv fuel clock ret sched =>
    intro hconn htransient
    have hstate : u.sock.state = .establish := by simpa [isConnected] using hconn
    rcases h with hclosed | ⟨sdata, rdata, first, slast, next, rlast, q, h⟩
    · exact hclosed hstate
    · cases ret with
      | data bytes => exact htransient
      | error errno =>
        have hfree := h.receives.free_of_empty (Nat.mod_lt next (by decide)) h.empty
        obtain ⟨t, ht, hwindow, hsame⟩ := onRecv_error
          (u := { u with sock := { u.sock with sched := sched } }) fuel clock errno
          (by simpa [isConnected] using hstate) hfree
        rw [if_pos htransient] at ht
        obtain rfl := Option.some.inj (ht.symm.trans hstep)
        have hrecv := (hafter (by simpa [isConnected] using hsame.trans hstate)).recv
        rw [hwindow] at hrecv
        exact h.receives.pool.lost hfree hrecv
  | update | push | main | delayClose => trivial

/-! ### Runs -/

/-- A socket that `Connect` or the listener has just opened; the listener does not look at the
header when `recvfrom` returns 0. -/
inductive Established : FxUDPConnectSock → Prop
  | connect {c : FxConnection} {dNow : Rat} {recvMem sendMem : Mem} {answer : List UInt8}
      {pool u : FxUDPConnectSock} :
      connect c dNow answer (init dNow recvMem sendMem pool) = some u → Established u
  | accept {c : FxConnection} {dNow : Rat} {recvMem sendMem : Mem}
      {datagram : Option (List UInt8)} {pool u : FxUDPConnectSock} : datagram ≠ some [] →
      onAccept c dNow recvMem sendMem datagram pool = some u → Established u

theorem Established.shaken (h : Established u) : Shaken u := by
  cases h with
  | connect hconnect => exact connect_shaken (new_init _ _ _ _) hconnect
  | accept hdatagram haccept => exact onAccept_shaken hdatagram haccept

/-- Every buffer is in exactly one place in every state in which the socket is open, if and only if
`OnRecv` always finds a datagram. -/
theorem partitioned_iff_keeps {u₀ : FxUDPConnectSock} {ops : List Op} (h : Established u₀)
    (hrun : Transition.run step u₀ ops = some u) :
    (∀ ops' u', ops' <+: ops → Transition.run step u₀ ops' = some u' →
      u'.sock.isConnected = true → Partitioned u') ↔ Transition.Always step Keeps u₀ ops := by
  have hkept : Kept u₀ := Or.inr ⟨_, _, _, _, _, _, _, h.shaken.windows⟩
  apply Transition.forall_reached_iff_always _ _ _ hkept hrun
  · rintro s (hclosed | ⟨_, _, _, _, _, _, _, hs⟩) hconn
    · exact absurd (by simpa [isConnected] using hconn) hclosed
    · exact hs.partitioned
  · exact fun _ _ _ hs hop hstep => hs.step hop hstep
  · exact fun _ _ _ hs hstep hafter => hs.keeps hstep hafter

/-- A socket that `Connect` has opened. -/
def connected : Option FxUDPConnectSock :=
  connect (FxConnection.new true false .udp none) 0 [4, 1, 1]
    (init 0 (fun _ => 0) (fun _ => 0) (accepted 16))

/-- A datagram comes, a frame is pushed and sent. -/
def servedOps : List Op := [datagram 2 [7, 8] [], .push [9], .update 1 fun _ => .count 4]

theorem partitioned_iff_keeps_served :
    ∃ u₀ u, connected = some u₀ ∧ Transition.run step u₀ servedOps = some u ∧
      ∀ ops' u', ops' <+: servedOps → Transition.run step u₀ ops' = some u' →
        u'.sock.isConnected = true → Partitioned u' := by
  obtain ⟨u₀, hconnected⟩ : ∃ u₀, connected = some u₀ :=
    Option.isSome_iff_exists.mp (by decide +kernel)
  have hfacts : connected.all (fun u₀ => (Transition.run step u₀ servedOps).isSome ∧
      Transition.Always step Keeps u₀ servedOps) = true := by decide +kernel
  rw [hconnected, Option.all_some, decide_eq_true_iff] at hfacts
  obtain ⟨u, hrun⟩ := Option.isSome_iff_exists.mp hfacts.1
  exact ⟨u₀, u, hconnected, hrun,
    (partitioned_iff_keeps (.connect hconnected) hrun).mpr hfacts.2⟩

/-- An interrupted `recv` loses a buffer of an open socket. -/
theorem not_partitioned_eintr :
    ∃ u₀ u, Established u₀ ∧
      Transition.run step u₀ [.onRecv 0 (fun _ => 0) (.error eintr) []] = some u ∧
      u.sock.isConnected = true ∧ ¬ Partitioned u := by
  obtain ⟨u₀, hconnected⟩ : ∃ u₀, connected = some u₀ :=
    Option.isSome_iff_exists.mp (by decide +kernel)
  have hfacts : connected.all (fun u₀ => u₀.sock.isConnected = true) = true := by decide +kernel
  rw [hconnected, Option.all_some, decide_eq_true_iff] at hfacts
  have hopened : Established u₀ := .connect hconnected
  have h := hopened.shaken.windows
  have hfree := h.receives.free_of_empty (by decide) h.empty
  obtain ⟨t, ht, -, hstate⟩ := onRecv_error (u := { u₀ with sock := { u₀.sock with sched := [] } })
    0 (fun _ => 0) eintr (ne_of_eq_of_ne hfacts (by decide)) hfree
  rw [if_pos (by decide)] at ht
  have hstep : step u₀ (.onRecv 0 (fun _ => 0) (.error eintr) []) = some t := ht
  have hconn : t.sock.isConnected = true := by
    rw [isConnected, hstate]
    exact hfacts
  refine ⟨u₀, t, hopened, by simp [Transition.run, hstep], hconn, ?_⟩
  intro hpart
  have hkept : Kept u₀ := Or.inr ⟨_, _, _, _, _, _, _, h⟩
  exact hkept.keeps hstep (fun _ => hpart) hfacts (by decide)

end FxUDPConnectSock
