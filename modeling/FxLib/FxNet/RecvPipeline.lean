import FxLib.FxNet.FxTcpClientSocket

/-!
# What the C# session is given

`Synced payloads s waiting rest`: the session buffer holds the frames of `waiting`, the receive
buffer and the wire hold those of `rest`, and what the session has been given comes before both.
-/

namespace FxNet.FxTcpClientSocket

open RecvSock (recvLens recvLens_append)

/-- The main thread has not put the socket among the receiving ones yet. -/
def Pending (s : FxTcpClientSocket) : Prop :=
  s.added = true ∨ ∃ e ∈ s.batch ++ s.queue, e.eType = .establish

/-- What the receive callback may rely on. -/
def Callback (s : FxTcpClientSocket) (rest : List (List UInt8)) : Prop :=
  match s.io with
  | .none => s.connected = true → s.recvBuffer.dwUsedLength = 0 ∧ s.Pending
  | .receiving dwSize => dwSize ≤ s.recvBuffer.getFreeLength ∧
    ∀ payload tail, rest = payload :: tail → s.recvBuffer.dwUsedLength < (frame payload).length
  | .copying iLength => ∃ payload tail, rest = payload :: tail ∧
    iLength = (frame payload).length ∧ iLength ≤ s.recvBuffer.dwUsedLength ∧
    s.sessionBuffer.dwUsedLength + iLength ≤ 65536
  | _ => True

/-- What the main thread may rely on. -/
def Handling (s : FxTcpClientSocket) : Prop :=
  match s.main with
  | .reading dwLen seen => seen.length ≤ dwLen ∧ seen <+: s.sessionBuffer.stored
  | _ => True

structure Synced (payloads : List (List UInt8)) (s : FxTcpClientSocket)
    (waiting rest : List (List UInt8)) : Prop where
  payloads : payloads = s.given ++ waiting.drop s.main.handed ++ rest
  due : s.due = waiting.map (fun payload => (frame payload).length)
  stored : s.sessionBuffer.stored = waiting.flatMap frame
  wire : s.recvBuffer.stored ++ s.wire = rest.flatMap frame
  callback : s.Callback rest
  handling : s.Handling

/-! ### The end of the connection -/

section

variable (s : FxTcpClientSocket)

theorem disconnect_eq : ∃ events, s.disconnect =
    { s with connected := false, queue := s.queue ++ events } ∧
      ∀ e ∈ events, e.eType ≠ .recv := by
  rw [disconnect]
  cases hconnected : s.connected with
  | false =>
    refine ⟨[], ?_, by simp⟩
    rw [List.append_nil, ← hconnected, if_neg (by rw [hconnected]; decide)]
  | true => exact ⟨[⟨.terminate, 0⟩], rfl, by simp⟩

theorem failed_eq : ∃ events, s.failed =
    { s with connected := false, queue := s.queue ++ events } ∧
      ∀ e ∈ events, e.eType ≠ .recv := by
  obtain ⟨events, hs, hevents⟩ := (s.pushNetEvent .error 0).disconnect_eq
  refine ⟨⟨.error, 0⟩ :: events, ?_, ?_⟩
  · rw [failed, hs, pushNetEvent]
    simp only [List.append_assoc, List.singleton_append]
  · rw [List.forall_mem_cons]
    exact ⟨by simp, hevents⟩

end

variable {payloads waiting rest : List (List UInt8)} {s s' : FxTcpClientSocket}

/-! ### The receive callback -/

/-- A step of the callback that leaves the session buffer alone. -/
theorem Synced.received (h : Synced payloads s waiting rest) (hmain : s'.main = s.main)
    (hgiven : s'.given = s.given) (hsession : s'.sessionBuffer = s.sessionBuffer)
    (hdue : s'.due = s.due) (hwire : s'.recvBuffer.stored ++ s'.wire = rest.flatMap frame)
    (hcallback : s'.Callback rest) : Synced payloads s' waiting rest := by
  refine ⟨?_, hdue.trans h.due, ?_, hwire, hcallback, ?_⟩
  · rw [hgiven, hmain]
    exact h.payloads
  · rw [hsession]
    exact h.stored
  · have hhandling := h.handling
    rw [Handling] at hhandling ⊢
    rw [hmain, hsession]
    exact hhandling

/-- The connection ends, and with it the callback. -/
theorem Synced.stops (h : Synced payloads s waiting rest) (hio : s.io.due = [])
    {events : List SNetEvent} (hevents : ∀ e ∈ events, e.eType ≠ .recv) :
    Synced payloads { s with connected := false, queue := s.queue ++ events, io := .none }
      waiting rest := by
  refine h.received rfl rfl rfl ?_ h.wire ?_
  · simp only [FxTcpClientSocket.due, hio, recvLens_append, RecvSock.quiet_of_forall hevents,
      RecvPc.due_none, List.append_nil]
  · intro hconnected
    cases hconnected

theorem Synced.fails (h : Synced payloads s waiting rest) (hio : s.io.due = []) :
    Synced payloads { s.failed with io := .none } waiting rest := by
  obtain ⟨events, hs, hevents⟩ := s.failed_eq
  rw [hs]
  exact h.stops hio hevents

theorem Synced.beginReceive (h : Synced payloads s waiting rest) (hio : s.io.due = [])
    (hpart : s.connected = true → ∀ payload tail, rest = payload :: tail →
      s.recvBuffer.dwUsedLength < (frame payload).length) :
    Synced payloads s.beginReceive waiting rest := by
  rw [FxTcpClientSocket.beginReceive]
  by_cases hconnected : s.connected
  · rw [if_pos hconnected]
    refine h.received rfl rfl rfl ?_ h.wire ⟨Nat.le_refl _, hpart hconnected⟩
    simp only [FxTcpClientSocket.due, hio]
    rfl
  · rw [if_neg hconnected]
    exact h.fails hio

/-- What follows from the invariant about the length that the parser reads. -/
theorem Synced.parsed (h : Synced payloads s waiting rest)
    (hlen : ∀ payload ∈ payloads, 8 + payload.length < 2147483648) :
    (BinaryDataHeader.parsePacket s.recvBuffer.pData s.recvBuffer.dwUsedLength = some 0 ∧
      ∀ payload tail, rest = payload :: tail →
        s.recvBuffer.dwUsedLength < (frame payload).length) ∨
    ∃ payload tail, rest = payload :: tail ∧
      BinaryDataHeader.parsePacket s.recvBuffer.pData s.recvBuffer.dwUsedLength =
        some ((frame payload).length : Int) := by
  cases rest with
  | nil =>
    have hused : s.recvBuffer.dwUsedLength = 0 := by
      have hwire := congrArg List.length h.wire
      rw [List.length_append, DataBuffer.stored_length] at hwire
      exact Nat.eq_zero_of_add_eq_zero_right hwire
    exact Or.inl ⟨parsePacket_short _ (by omega), by simp⟩
  | cons payload tail =>
    by_cases hshort : s.recvBuffer.dwUsedLength < 8
    · refine Or.inl ⟨parsePacket_short _ hshort, ?_⟩
      rintro _ _ ⟨rfl, rfl⟩
      rw [frame_length]
      omega
    · refine Or.inr ⟨payload, tail, rfl, parsePacket_frame (hlen payload ?_) (by omega) ?_⟩
      · rw [h.payloads]
        exact List.mem_append_right _ List.mem_cons_self
      · have hwire := congrArg (List.take 8) h.wire
        rw [List.flatMap_cons,
          List.take_append_of_le_length (by rw [DataBuffer.stored_length]; omega),
          List.take_append_of_le_length (by rw [frame_length]; omega)] at hwire
        rw [DataBuffer.take_stored _ (by omega), hwire]

theorem Synced.asynReceive (h : Synced payloads s waiting rest) (hs : s.asynReceive = some s') :
    Synced payloads s' waiting rest := by
  rw [FxTcpClientSocket.asynReceive] at hs
  split_ifs at hs with hadd
  obtain rfl := Option.some.inj hs
  have hcallback := h.callback
  rw [Callback, hadd.2] at hcallback
  have hbegun := h.beginReceive (by rw [hadd.2]; rfl) fun hconnected payload tail _ => by
    rw [(hcallback hconnected).1, frame_length]
    omega
  refine hbegun.received rfl rfl rfl rfl hbegun.wire ?_
  have hnext := hbegun.callback
  rw [FxTcpClientSocket.beginReceive] at hnext ⊢
  by_cases hconnected : s.connected
  · rw [if_pos hconnected] at hnext ⊢
    exact hnext
  · rw [if_neg hconnected] at hnext ⊢
    obtain ⟨events, hfailed, -⟩ := s.failed_eq
    rw [hfailed]
    intro hup
    cases hup

theorem Synced.endReceive (h : Synced payloads s waiting rest) {bytesRead : Nat}
    (hs : s.endReceive bytesRead = some s') : Synced payloads s' waiting rest := by
  cases hio : s.io with
  | none | parsing | copying | announcing => simp [FxTcpClientSocket.endReceive, hio] at hs
  | receiving dwSize =>
    have hdue : s.io.due = [] := by rw [hio]; rfl
    have hcallback := h.callback
    simp only [FxTcpClientSocket.endReceive, hio] at hs
    rw [Callback, hio] at hcallback
    split_ifs at hs with hconnected hread hzero
    · obtain rfl := Option.some.inj hs
      exact h.fails hdue
    · obtain rfl := Option.some.inj hs
      obtain ⟨events, hdisconnect, hevents⟩ := s.disconnect_eq
      rw [hdisconnect]
      exact h.stops hdue hevents
    · have hfree := hcallback.1
      have hused := s.recvBuffer.used_le
      rw [DataBuffer.getFreeLength, DataBuffer.maxDataLength] at hfree
      have htake : (s.wire.take bytesRead).length = bytesRead := by
        rw [List.length_take, Nat.min_eq_left hread.2.1]
      obtain ⟨recvBuffer, hpush, hstored⟩ := s.recvBuffer.pushData_room
        (n := bytesRead) (s.wire.take bytesRead) (by omega) (by omega)
      rw [hpush] at hs
      obtain rfl := Option.some.inj hs
      refine h.received rfl rfl rfl ?_ ?_ trivial
      · simp only [FxTcpClientSocket.due, hdue]
        rfl
      · rw [← h.wire, hstored, List.take_take, Nat.min_self, List.append_assoc,
          List.take_append_drop]

theorem Synced.parse (h : Synced payloads s waiting rest)
    (hlen : ∀ payload ∈ payloads, 8 + payload.length < 2147483648) (hroom : s.HasRoom .parse)
    (hs : s.parse = some s') : Synced payloads s' waiting rest := by
  rw [FxTcpClientSocket.parse] at hs
  split_ifs at hs with hio
  have hdue : s.io.due = [] := by rw [hio]; rfl
  rcases h.parsed hlen with ⟨hparse, hpart⟩ | ⟨payload, tail, hrest, hparse⟩
  · rw [hparse] at hs
    obtain rfl := Option.some.inj hs
    exact h.beginReceive hdue fun _ => hpart
  · rw [hparse] at hs
    have hpos := frame_length payload
    simp only [Nat.cast_eq_zero, Int.toNat_natCast, Nat.cast_lt] at hs
    rw [if_neg (by omega), if_neg (by omega)] at hs
    split_ifs at hs with hpart hfull
    · obtain rfl := Option.some.inj hs
      refine h.beginReceive hdue ?_
      rintro - payload' tail' hrest'
      obtain ⟨rfl, rfl⟩ := List.cons.inj (hrest.symm.trans hrest')
      exact hpart
    · have hfits := hroom hio _ hparse (by omega) (by omega)
      rw [DataBuffer.maxDataLength] at hfull
      omega
    · obtain rfl := Option.some.inj hs
      rw [DataBuffer.maxDataLength] at hfull
      refine h.received rfl rfl rfl ?_ h.wire ⟨payload, tail, hrest, rfl, Nat.not_lt.mp hpart, ?_⟩
      · simp only [FxTcpClientSocket.due, hdue]
        rfl
      · have hfits := hroom hio _ hparse (by omega) (by omega)
        rwa [Int.toNat_natCast] at hfits

/-- A frame that the session has been given stands at the front of the session buffer. -/
theorem Synced.handed_le (h : Synced payloads s waiting rest) :
    s.main.handed ≤ waiting.length := by
  have hdue := congrArg List.length h.due
  rw [FxTcpClientSocket.due, List.length_map] at hdue
  simp only [List.length_append] at hdue
  cases hmain : s.main with
  | idle | reading => exact Nat.zero_le _
  | popping | cutting =>
    simp only [hmain, RunPc.due, List.length_singleton] at hdue
    rw [RunPc.handed]
    omega

/-- The frame goes from the receive buffer into the session buffer. -/
theorem Synced.copy (h : Synced payloads s waiting rest) (hs : s.copy = some s') :
    ∃ payload tail, rest = payload :: tail ∧ Synced payloads s' (waiting ++ [payload]) tail := by
  cases hio : s.io with
  | none | receiving | parsing | announcing => simp [FxTcpClientSocket.copy, hio] at hs
  | copying iLength =>
    have hcallback := h.callback
    rw [Callback, hio] at hcallback
    obtain ⟨payload, tail, hrest, hlength, hle, hroom⟩ := hcallback
    have hsize := s.recvBuffer.size
    have hused := s.recvBuffer.used_le
    obtain ⟨sessionBuffer, hcopy⟩ := DataBuffer.copyIn_isSome s.sessionBuffer
      s.recvBuffer.pData (n := iLength) (by omega) hroom
    obtain ⟨recvBuffer, hpop, hcut⟩ := DataBuffer.popData_stored hle
    simp only [FxTcpClientSocket.copy, hio, hcopy, popRecv, hpop] at hs
    obtain rfl := Option.some.inj hs
    have hfront : s.recvBuffer.pData.take iLength = frame payload := by
      have hwire := congrArg (List.take iLength) h.wire
      rw [hrest, List.flatMap_cons,
        List.take_append_of_le_length (by rwa [DataBuffer.stored_length]), hlength,
        List.take_left] at hwire
      rw [DataBuffer.take_stored _ hle, hlength, hwire]
    have hstored : sessionBuffer.stored = (waiting ++ [payload]).flatMap frame := by
      rw [DataBuffer.copyIn_stored hcopy, hfront, h.stored]
      simp
    refine ⟨payload, tail, hrest, ?_, ?_, hstored, ?_, trivial, ?_⟩
    · have hpayloads := h.payloads
      rw [hrest] at hpayloads
      simpa [List.drop_append_of_le_length h.handed_le] using hpayloads
    · have hdue := h.due
      simp only [FxTcpClientSocket.due, hio, RecvPc.due, List.append_nil] at hdue
      simp only [FxTcpClientSocket.due, RecvPc.due_announcing, hdue, List.map_append, List.map_cons,
        List.map_nil, hlength]
    · have hwire := congrArg (List.drop iLength) h.wire
      rw [hrest, List.flatMap_cons,
        List.drop_append_of_le_length (by rwa [DataBuffer.stored_length]), hlength,
        List.drop_left, ← hlength] at hwire
      rw [hcut, hwire]
    · have hhandling := h.handling
      rw [Handling] at hhandling ⊢
      cases hmain : s.main with
      | idle | popping | cutting => trivial
      | reading dwLen seen =>
        rw [hmain] at hhandling
        refine ⟨hhandling.1, ?_⟩
        rw [DataBuffer.copyIn_stored hcopy]
        exact hhandling.2.trans (List.prefix_append _ _)

theorem Synced.announce (h : Synced payloads s waiting rest) (hs : s.announce = some s') :
    Synced payloads s' waiting rest := by
  cases hio : s.io with
  | none | receiving | parsing | copying => simp [FxTcpClientSocket.announce, hio] at hs
  | announcing iLength =>
    simp only [FxTcpClientSocket.announce, hio] at hs
    obtain rfl := Option.some.inj hs
    refine h.received rfl rfl rfl ?_ h.wire trivial
    simp [FxTcpClientSocket.due, hio, pushNetEvent, recvLens, RecvPc.due]

theorem Synced.reset (h : Synced payloads s waiting rest) {dwErrorCode : Nat}
    (hs : s.reset dwErrorCode = some s') : Synced payloads s' waiting rest := by
  cases hio : s.io with
  | none | parsing | copying | announcing => simp [FxTcpClientSocket.reset, hio] at hs
  | receiving dwSize =>
    simp only [FxTcpClientSocket.reset, hio] at hs
    split_ifs at hs
    obtain rfl := Option.some.inj hs
    have hquiet : ∀ e ∈ [(⟨.error, dwErrorCode⟩ : SNetEvent)], e.eType ≠ .recv := by simp
    exact h.stops (by rw [hio]; rfl) hquiet

theorem Synced.disconnect (h : Synced payloads s waiting rest) :
    Synced payloads s.disconnect waiting rest := by
  obtain ⟨events, hs, hevents⟩ := s.disconnect_eq
  rw [hs]
  refine h.received rfl rfl rfl ?_ h.wire ?_
  · simp only [FxTcpClientSocket.due, recvLens_append, RecvSock.quiet_of_forall hevents,
      List.append_nil]
  · have hcallback := h.callback
    rw [Callback] at hcallback ⊢
    cases hio : s.io with
    | none =>
      intro hconnected
      cases hconnected
    | parsing | announcing => trivial
    | receiving | copying =>
      rw [hio] at hcallback
      exact hcallback

/-! ### The main thread -/

/-- A step of the main thread leaves the callback what it relies on. -/
theorem Callback.main (h : s.Callback rest) (hio : s'.io = s.io)
    (hconnected : s'.connected = s.connected) (hrecv : s'.recvBuffer = s.recvBuffer)
    (hused : s'.sessionBuffer.dwUsedLength ≤ s.sessionBuffer.dwUsedLength)
    (hpending : s.Pending → s'.Pending) : s'.Callback rest := by
  rw [Callback] at h ⊢
  rw [hio, hconnected, hrecv]
  cases hpc : s.io with
  | none =>
    rw [hpc] at h
    exact fun hup => (h hup).imp_right hpending
  | parsing | announcing => trivial
  | receiving =>
    rw [hpc] at h
    exact h
  | copying =>
    rw [hpc] at h
    obtain ⟨payload, tail, hrest, hlength, hle, hroom⟩ := h
    exact ⟨payload, tail, hrest, hlength, hle, by omega⟩

theorem Synced.run (h : Synced payloads s waiting rest) (hs : s.run = some s') :
    Synced payloads s' waiting rest := by
  rw [FxTcpClientSocket.run] at hs
  split_ifs at hs with hidle
  obtain rfl := Option.some.inj hs
  refine ⟨h.payloads, ?_, h.stored, h.wire, h.callback.main rfl rfl rfl (Nat.le_refl _) ?_,
    h.handling⟩
  · have hdue := h.due
    simp only [FxTcpClientSocket.due, hidle.2] at hdue
    rw [← hdue]
    simp [FxTcpClientSocket.due, recvLens]
  · rintro (hadded | hevent)
    · exact Or.inl hadded
    · rw [hidle.2] at hevent
      exact Or.inr (by simpa using hevent)

/-- The event at the front of the batch that is none of a frame. -/
theorem recvLens_cons_quiet {e : SNetEvent} (h : e.eType ≠ .recv) (events : List SNetEvent) :
    recvLens (e :: events) = recvLens events := by
  rw [recvLens, List.filterMap_cons, if_neg h]
  rfl

theorem Pending.pass {e : SNetEvent} {batch : List SNetEvent} (hbatch : s.batch = e :: batch)
    (he : e.eType ≠ .establish) (h : s.Pending) {s' : FxTcpClientSocket}
    (hadded : s'.added = s.added) (hnext : s'.batch = batch) (hqueue : s.queue <+: s'.queue) :
    s'.Pending := by
  rcases h with hup | ⟨e', hmem, he'⟩
  · exact Or.inl (hadded.trans hup)
  · refine Or.inr ⟨e', ?_, he'⟩
    rw [hbatch, List.cons_append, List.mem_cons] at hmem
    rcases hmem with rfl | hmem
    · exact absurd he' he
    · rw [hnext]
      exact List.mem_append.mpr ((List.mem_append.mp hmem).imp_right fun hq => hqueue.subset hq)

theorem Synced.procEvent (h : Synced payloads s waiting rest) (hs : s.procEvent = some s') :
    Synced payloads s' waiting rest := by
  rw [FxTcpClientSocket.procEvent] at hs
  split_ifs at hs with hidle
  cases hbatch : s.batch with
  | nil =>
    rw [hbatch] at hs
    cases hs
  | cons pEvent batch =>
    have hpayloads := h.payloads
    have hdue := h.due
    rw [hidle] at hpayloads
    rw [FxTcpClientSocket.due, hidle, hbatch] at hdue
    simp only [hbatch] at hs
    obtain ⟨eType, dwValue⟩ := pEvent
    by_cases hrecv : eType = .recv
    · subst hrecv
      obtain rfl := Option.some.inj hs
      refine ⟨hpayloads, ?_, h.stored, h.wire, h.callback.main rfl rfl rfl (Nat.le_refl _) ?_,
        Nat.zero_le _, List.nil_prefix⟩
      · rw [← hdue]
        simp [FxTcpClientSocket.due, recvLens, RunPc.due]
      · exact fun hup => Pending.pass hbatch (by simp) hup rfl rfl (List.prefix_refl _)
    · have hquiet : ∀ (added : Bool) (events : List SNetEvent), recvLens events = [] →
          (eType = .establish → added = true) → (eType ≠ .establish → added = s.added) →
          Synced payloads { s with added := added, batch := batch, queue := s.queue ++ events }
            waiting rest := by
        intro added events hevents hestablish hother
        refine ⟨h.payloads, ?_, h.stored, h.wire, h.callback.main rfl rfl rfl (Nat.le_refl _) ?_,
          h.handling⟩
        · rw [← hdue, recvLens_cons_quiet hrecv]
          simp only [FxTcpClientSocket.due, hidle, recvLens_append, hevents, List.append_nil]
        · by_cases he : eType = .establish
          · exact fun _ => Or.inl (hestablish he)
          · exact fun hup => Pending.pass hbatch he hup (hother he) rfl (List.prefix_append _ _)
      have hsame := hquiet s.added [] rfl
      rw [List.append_nil] at hsame
      cases eType with
      | recv => exact absurd rfl hrecv
      | establish =>
        obtain rfl := Option.some.inj hs
        have hadded := hquiet true [] rfl (fun _ => rfl) (absurd rfl ·)
        rwa [List.append_nil] at hadded
      | terminate =>
        obtain rfl := Option.some.inj hs
        exact hquiet s.added [⟨.release, 0⟩] (by simp [recvLens]) (by simp) fun _ => rfl
      | associate | recvPackageError | connErr | error | release =>
        obtain rfl := Option.some.inj hs
        exact hsame (by simp) fun _ => rfl

/-- The length at the front is that of the frame at the front. -/
theorem Synced.front (h : Synced payloads s waiting rest) {dwLen : Nat}
    (hdue : s.main.due = [dwLen]) : ∃ payload tail, waiting = payload :: tail ∧
      dwLen = (frame payload).length ∧ dwLen ≤ s.sessionBuffer.dwUsedLength ∧
      s.sessionBuffer.stored.take dwLen = frame payload := by
  have hwaiting := h.due
  rw [FxTcpClientSocket.due, hdue] at hwaiting
  cases waiting with
  | nil => simp at hwaiting
  | cons payload tail =>
    simp only [List.cons_append, List.map_cons, List.cons.injEq] at hwaiting
    refine ⟨payload, tail, rfl, hwaiting.1, ?_, ?_⟩
    · rw [← DataBuffer.stored_length, h.stored, List.flatMap_cons, List.length_append, hwaiting.1]
      exact Nat.le_add_right _ _
    · rw [h.stored, List.flatMap_cons, hwaiting.1, List.take_left]

theorem Synced.read (h : Synced payloads s waiting rest) {k : Nat} (hs : s.read k = some s') :
    Synced payloads s' waiting rest := by
  cases hmain : s.main with
  | idle | popping | cutting => simp [FxTcpClientSocket.read, hmain] at hs
  | reading dwLen seen =>
    simp only [FxTcpClientSocket.read, hmain] at hs
    split_ifs at hs with hk
    obtain rfl := Option.some.inj hs
    obtain ⟨payload, tail, -, -, hle, -⟩ := h.front (show s.main.due = [dwLen] by rw [hmain]; rfl)
    have hpayloads := h.payloads
    have hdue := h.due
    have hhandling := h.handling
    rw [hmain] at hpayloads
    rw [FxTcpClientSocket.due, hmain] at hdue
    rw [Handling, hmain] at hhandling
    have hseen : seen ++ (s.sessionBuffer.pData.drop seen.length).take k =
        s.sessionBuffer.stored.take (seen.length + k) := by
      rw [← DataBuffer.take_stored _ (by omega), List.take_add, DataBuffer.take_stored _ (by omega),
        ← List.prefix_iff_eq_take.mp hhandling.2]
    refine ⟨hpayloads, hdue, h.stored, h.wire, h.callback.main rfl rfl rfl (Nat.le_refl _) id, ?_,
      ?_⟩
    · rw [hseen, List.length_take, DataBuffer.stored_length]
      omega
    · rw [hseen]
      exact List.take_prefix _ _

theorem Synced.hand (h : Synced payloads s waiting rest)
    (hlen : ∀ payload ∈ payloads, 8 + payload.length < 2147483648) (hs : s.hand = some s') :
    Synced payloads s' waiting rest := by
  cases hmain : s.main with
  | idle | popping | cutting => simp [FxTcpClientSocket.hand, hmain] at hs
  | reading dwLen seen =>
    simp only [FxTcpClientSocket.hand, hmain] at hs
    split_ifs at hs with hall
    obtain ⟨payload, tail, hwaiting, hlength, hle, hfront⟩ :=
      h.front (show s.main.due = [dwLen] by rw [hmain]; rfl)
    have hpayloads := h.payloads
    have hdue := h.due
    have hhandling := h.handling
    rw [hmain, hwaiting] at hpayloads
    rw [FxTcpClientSocket.due, hmain] at hdue
    rw [Handling, hmain] at hhandling
    have hseen : seen = frame payload := by
      rw [← hfront, ← hall]
      exact List.prefix_iff_eq_take.mp hhandling.2
    have hmem : payload ∈ payloads := by
      rw [hpayloads]
      simp [RunPc.handed]
    have hgiven : BinarySession.onRecv seen dwLen = some payload := by
      rw [hseen, hlength]
      exact onRecv_frame (hlen payload hmem) (List.take_length)
    rw [hgiven] at hs
    obtain rfl := Option.some.inj hs
    refine ⟨?_, hdue, h.stored, h.wire, h.callback.main rfl rfl rfl (Nat.le_refl _) id, trivial⟩
    rw [hpayloads, hwaiting]
    simp [RunPc.handed]

theorem Synced.testPop (h : Synced payloads s waiting rest) (hs : s.testPop = some s') :
    Synced payloads s' waiting rest := by
  cases hmain : s.main with
  | idle | reading | cutting => simp [FxTcpClientSocket.testPop, hmain] at hs
  | popping dwLen =>
    obtain ⟨-, -, -, -, hle, -⟩ := h.front (show s.main.due = [dwLen] by rw [hmain]; rfl)
    simp only [FxTcpClientSocket.testPop, hmain] at hs
    rw [if_neg (Nat.not_lt.mpr hle)] at hs
    obtain rfl := Option.some.inj hs
    have hpayloads := h.payloads
    have hdue := h.due
    rw [hmain] at hpayloads
    rw [FxTcpClientSocket.due, hmain] at hdue
    exact ⟨hpayloads, hdue, h.stored, h.wire, h.callback.main rfl rfl rfl (Nat.le_refl _) id,
      trivial⟩

/-- The frame that the session has been given leaves the session buffer. -/
theorem Synced.cut (h : Synced payloads s waiting rest) (hs : s.cut = some s') :
    Synced payloads s' waiting.tail rest := by
  cases hmain : s.main with
  | idle | reading | popping => simp [FxTcpClientSocket.cut, hmain] at hs
  | cutting dwLen =>
    obtain ⟨payload, tail, hwaiting, hlength, hle, -⟩ :=
      h.front (show s.main.due = [dwLen] by rw [hmain]; rfl)
    obtain ⟨sessionBuffer, hcut⟩ := DataBuffer.cutFront_isSome hle
    have hstored := DataBuffer.cutFront_stored hcut
    simp only [FxTcpClientSocket.cut, hmain, hcut] at hs
    obtain rfl := Option.some.inj hs
    have hpayloads := h.payloads
    have hdue := h.due
    rw [hmain, hwaiting] at hpayloads
    rw [FxTcpClientSocket.due, hmain, hwaiting] at hdue
    rw [hwaiting]
    refine ⟨hpayloads, ?_, ?_, h.wire, h.callback.main rfl rfl rfl ?_ id, trivial⟩
    · simp only [RunPc.due, List.cons_append, List.map_cons, List.cons.injEq] at hdue
      rw [List.tail_cons, ← hdue.2]
      rfl
    · rw [hstored, h.stored, hwaiting, List.flatMap_cons, hlength, List.drop_left, List.tail_cons]
    · have hless := congrArg List.length hstored
      rw [DataBuffer.stored_length, List.length_drop, DataBuffer.stored_length] at hless
      simp only [hless]
      exact Nat.sub_le _ _

/-! ### Runs -/

theorem Synced.step (h : Synced payloads s waiting rest)
    (hlen : ∀ payload ∈ payloads, 8 + payload.length < 2147483648) {l : RecvStep}
    (hroom : s.HasRoom l) (hs : s.step l = some s') :
    ∃ waiting rest, Synced payloads s' waiting rest := by
  cases l with
  | asynReceive => exact ⟨_, _, h.asynReceive hs⟩
  | endReceive bytesRead => exact ⟨_, _, h.endReceive hs⟩
  | parse => exact ⟨_, _, h.parse hlen hroom hs⟩
  | copy =>
    obtain ⟨payload, tail, -, hnext⟩ := h.copy hs
    exact ⟨_, _, hnext⟩
  | announce => exact ⟨_, _, h.announce hs⟩
  | reset dwErrorCode => exact ⟨_, _, h.reset hs⟩
  | disconnect =>
    obtain rfl := Option.some.inj hs
    exact ⟨_, _, h.disconnect⟩
  | run => exact ⟨_, _, h.run hs⟩
  | procEvent => exact ⟨_, _, h.procEvent hs⟩
  | read k => exact ⟨_, _, h.read hs⟩
  | hand => exact ⟨_, _, h.hand hlen hs⟩
  | testPop => exact ⟨_, _, h.testPop hs⟩
  | cut => exact ⟨_, _, h.cut hs⟩

theorem synced_opened (payloads : List (List UInt8)) :
    Synced payloads (opened payloads) [] payloads :=
  ⟨rfl, rfl, rfl, rfl, fun _ => ⟨rfl, Or.inr ⟨⟨.establish, 0⟩, by simp [opened], rfl⟩⟩, trivial⟩

/-- The main thread has something to do, or nothing is announced. -/
theorem Synced.main_works (h : Synced payloads s waiting rest) :
    (∃ l, s.Works l ∧ (s.step l).isSome) ∨ s.main = .idle ∧ s.batch = [] ∧ s.queue = [] := by
  cases hmain : s.main with
  | reading dwLen seen =>
    have hhandling := h.handling
    rw [Handling, hmain] at hhandling
    by_cases hall : seen.length = dwLen
    · refine Or.inl ⟨.hand, trivial, ?_⟩
      simp only [FxTcpClientSocket.step, FxTcpClientSocket.hand, hmain, if_pos hall]
      split <;> rfl
    · refine Or.inl ⟨.read 1, trivial, ?_⟩
      have hmore := hhandling.1
      simp only [FxTcpClientSocket.step, FxTcpClientSocket.read, hmain]
      rw [if_pos ⟨Nat.one_pos, by omega⟩]
      rfl
  | popping dwLen =>
    refine Or.inl ⟨.testPop, trivial, ?_⟩
    simp only [FxTcpClientSocket.step, FxTcpClientSocket.testPop, hmain]
    split <;> rfl
  | cutting dwLen =>
    refine Or.inl ⟨.cut, trivial, ?_⟩
    simp only [FxTcpClientSocket.step, FxTcpClientSocket.cut, hmain]
    split <;> rfl
  | idle =>
    cases hbatch : s.batch with
    | cons pEvent batch =>
      refine Or.inl ⟨.procEvent, trivial, ?_⟩
      simp only [FxTcpClientSocket.step, FxTcpClientSocket.procEvent, hmain, hbatch, if_true]
      split <;> rfl
    | nil =>
      by_cases hqueue : s.queue = []
      · exact Or.inr ⟨rfl, rfl, hqueue⟩
      · refine Or.inl ⟨.run, hqueue, ?_⟩
        simp [FxTcpClientSocket.step, FxTcpClientSocket.run, hmain, hbatch]

/-- While the connection is up there is a step to do, or everything is done. -/
theorem Synced.works (h : Synced payloads s waiting rest) (hconnected : s.connected) :
    s.AtRest ∨ ∃ l, s.Works l ∧ (s.step l).isSome := by
  rcases h.main_works with hmain | ⟨hmain, hbatch, hqueue⟩
  · exact Or.inr hmain
  · cases hio : s.io with
    | none =>
      have hcallback := h.callback
      rw [Callback, hio] at hcallback
      have hadded : s.added = true := by
        rcases (hcallback hconnected).2 with hadded | hevent
        · exact hadded
        · simp [hbatch, hqueue] at hevent
      refine Or.inr ⟨.asynReceive, trivial, ?_⟩
      simp [FxTcpClientSocket.step, FxTcpClientSocket.asynReceive, hadded, hio]
    | receiving dwSize =>
      by_cases hwire : s.wire = []
      · exact Or.inl ⟨⟨dwSize, hio⟩, hmain, hbatch, hqueue, hwire⟩
      · have hsome : 0 < s.wire.length := List.length_pos_iff.mpr hwire
        refine Or.inr ⟨.endReceive (min dwSize s.wire.length), hwire, ?_⟩
        simp only [FxTcpClientSocket.step, FxTcpClientSocket.endReceive, hio]
        rw [if_neg (by simp [hconnected]),
          if_pos ⟨Nat.min_le_left _ _, Nat.min_le_right _ _, fun hzero => Or.inl (by omega)⟩]
        split
        · rfl
        · split <;> rfl
    | parsing =>
      refine Or.inr ⟨.parse, trivial, ?_⟩
      simp only [FxTcpClientSocket.step, FxTcpClientSocket.parse, hio, if_true]
      split
      · rfl
      · split_ifs <;> rfl
    | copying iLength =>
      refine Or.inr ⟨.copy, trivial, ?_⟩
      simp only [FxTcpClientSocket.step, FxTcpClientSocket.copy, hio]
      split <;> rfl
    | announcing iLength =>
      refine Or.inr ⟨.announce, trivial, ?_⟩
      simp [FxTcpClientSocket.step, FxTcpClientSocket.announce, hio]

theorem Synced.complete (h : Synced payloads s waiting rest) (hrest : s.AtRest) :
    s.given = payloads := by
  obtain ⟨dwSize, hio⟩ := hrest.io
  have hwaiting : waiting = [] := by
    have hdue := h.due
    rw [FxTcpClientSocket.due, hrest.main, hrest.batch, hrest.queue, hio] at hdue
    exact List.map_eq_nil_iff.mp hdue.symm
  have hnone : rest = [] := by
    cases hcons : rest with
    | nil => rfl
    | cons payload tail =>
      have hcallback := h.callback
      rw [Callback, hio] at hcallback
      have hpart := hcallback.2 payload tail hcons
      have hwire := congrArg List.length h.wire
      rw [hrest.wire, List.append_nil, DataBuffer.stored_length, hcons, List.flatMap_cons,
        List.length_append] at hwire
      omega
  have hpayloads := h.payloads
  rw [hwaiting, hnone, List.drop_nil, List.append_nil, List.append_nil] at hpayloads
  exact hpayloads.symm

theorem Synced.exact (h : Synced payloads s waiting rest) : Exact payloads s where
  stored := ⟨waiting, rest, h.payloads, h.due, h.stored⟩
  works := h.works
  complete := h.complete

/-- The bytes of a frame that is refused are missing from then on. -/
theorem Synced.hasRoom (h : Synced payloads s waiting rest) {l : RecvStep}
    (hs : s.step l = some s') (hexact : Exact payloads s') : s.HasRoom l := by
  cases l with
  | parse =>
    intro hio iLength hparse hpos hle
    obtain ⟨recvBuffer, hpop, -⟩ := DataBuffer.popData_stored (b := s.recvBuffer)
      (n := iLength.toNat) (by omega)
    simp only [FxTcpClientSocket.step, FxTcpClientSocket.parse, hio, hparse, if_true] at hs
    rw [if_neg (by omega), if_neg (by omega), if_neg (by omega)] at hs
    have hused := s.sessionBuffer.used_le
    by_contra hfull
    rw [if_pos (by rw [DataBuffer.maxDataLength]; omega), popRecv, hpop] at hs
    obtain rfl := Option.some.inj hs
    obtain ⟨waiting', rest', -, hdue', hstored'⟩ := hexact.stored
    have hdue := h.due
    have hlength := congrArg List.length h.stored
    have hlength' := congrArg List.length hstored'
    rw [DataBuffer.stored_length, List.length_flatMap] at hlength hlength'
    simp only [FxTcpClientSocket.due, hio, RecvPc.due] at hdue hdue'
    rw [← hdue] at hlength
    rw [← hdue'] at hlength'
    simp only [List.sum_append, List.sum_cons, List.sum_nil] at hlength hlength'
    omega
  | asynReceive | endReceive | copy | announce | reset | disconnect | run | procEvent | read | hand
  | testPop | cut => trivial

/-! ### A frame that arrives whole -/

section

variable {s : FxTcpClientSocket} {payload w : List UInt8} {n : Nat}

theorem parse_nothing (hio : s.io = .parsing) (hconnected : s.connected)
    (hempty : s.recvBuffer.stored = []) : s.parse = some { s with io := .receiving 65536 } := by
  have hused : s.recvBuffer.dwUsedLength = 0 := by
    rw [← DataBuffer.stored_length, hempty, List.length_nil]
  rw [parse, if_pos hio, parsePacket_short _ (by omega)]
  simp [beginReceive, hconnected, DataBuffer.getFreeLength, DataBuffer.maxDataLength, hused]

/-- The first two steps of a frame that one receive takes whole. -/
theorem frame_arrives {dwSize : Nat} (hlen : 8 + payload.length < 2147483648)
    (hn : (frame payload).length = n) (hio : s.io = .receiving dwSize) (hsize : n ≤ dwSize)
    (hfits : n ≤ 65536) (hconnected : s.connected) (hempty : s.recvBuffer.stored = [])
    (hwire : s.wire = frame payload ++ w) :
    ∃ recvBuffer, recvBuffer.stored = frame payload ∧
      s.endReceive n = some { s with recvBuffer := recvBuffer, wire := w, io := .parsing } ∧
      BinaryDataHeader.parsePacket recvBuffer.pData recvBuffer.dwUsedLength = some (n : Int) := by
  have hused : s.recvBuffer.dwUsedLength = 0 := by
    rw [← DataBuffer.stored_length, hempty, List.length_nil]
  have hpos : 8 ≤ n := by
    rw [← hn, frame_length]
    omega
  have htake : s.wire.take n = frame payload := by rw [hwire, ← hn, List.take_left]
  have hdrop : s.wire.drop n = w := by rw [hwire, ← hn, List.drop_left]
  have hlength : n ≤ s.wire.length := by
    rw [hwire, List.length_append, hn]
    omega
  obtain ⟨recvBuffer, hpush, hstored⟩ := s.recvBuffer.pushData_room
    (n := n) (frame payload) (by omega) (by omega)
  rw [hempty, List.nil_append, List.take_of_length_le (by omega)] at hstored
  refine ⟨recvBuffer, hstored, ?_, ?_⟩
  · simp only [endReceive, hio]
    rw [if_neg (by simp [hconnected]), if_pos ⟨hsize, hlength, fun hzero => by omega⟩,
      if_neg (by omega), htake, hpush, hdrop]
  · have hall : recvBuffer.dwUsedLength = n := by rw [← DataBuffer.stored_length, hstored, hn]
    rw [parsePacket_frame hlen (by omega) (by rw [DataBuffer.take_stored _ (by omega), hstored]),
      hn]

/-- There is room for it. -/
theorem frame_taken {dwSize : Nat} (hlen : 8 + payload.length < 2147483648)
    (hn : (frame payload).length = n) (hio : s.io = .receiving dwSize) (hsize : n ≤ dwSize)
    (hconnected : s.connected) (hempty : s.recvBuffer.stored = [])
    (hwire : s.wire = frame payload ++ w) (hroom : s.sessionBuffer.dwUsedLength + n ≤ 65536) :
    ∃ recvBuffer sessionBuffer, recvBuffer.stored = [] ∧
      sessionBuffer.stored = s.sessionBuffer.stored ++ frame payload ∧
      Transition.run step s [.endReceive n, .parse, .copy, .announce, .parse] =
        some { s with
          recvBuffer := recvBuffer, sessionBuffer := sessionBuffer, wire := w
          queue := s.queue ++ [⟨.recv, n⟩], io := .receiving 65536 } := by
  have hpos := frame_length payload
  obtain ⟨r, hstored, hreceive, hparse⟩ := frame_arrives hlen hn hio hsize (by omega) hconnected
    hempty hwire
  have hall : r.dwUsedLength = n := by rw [← DataBuffer.stored_length, hstored, hn]
  have hsize' := r.size
  obtain ⟨sessionBuffer, hcopy⟩ := DataBuffer.copyIn_isSome s.sessionBuffer
    r.pData (n := n) (by omega) hroom
  obtain ⟨recvBuffer, hpop, hcut⟩ := DataBuffer.popData_stored (b := r) (n := n) (by omega)
  rw [hstored, List.drop_of_length_le (by omega)] at hcut
  refine ⟨recvBuffer, sessionBuffer, hcut, ?_, ?_⟩
  · rw [DataBuffer.copyIn_stored hcopy, DataBuffer.take_stored _ (by omega), hstored,
      List.take_of_length_le (by omega)]
  · have hmoves : ({ s with recvBuffer := r, wire := w, io := .parsing } :
        FxTcpClientSocket).parse =
          some { s with recvBuffer := r, wire := w, io := .copying n } := by
      simp only [parse, if_true, hparse, Int.toNat_natCast]
      rw [if_neg (by omega), if_neg (by omega), if_neg (by omega),
        if_neg (by rw [DataBuffer.maxDataLength]; omega)]
    have hcopies : ({ s with recvBuffer := r, wire := w, io := .copying n } :
        FxTcpClientSocket).copy = some { s with
          recvBuffer := recvBuffer, sessionBuffer := sessionBuffer, wire := w
          io := .announcing n } := by
      simp only [copy, hcopy, popRecv, hpop]
    have hends : ({ s with
        recvBuffer := recvBuffer, sessionBuffer := sessionBuffer, wire := w
        queue := s.queue ++ [⟨.recv, n⟩], io := .parsing } : FxTcpClientSocket).parse =
          some { s with
            recvBuffer := recvBuffer, sessionBuffer := sessionBuffer, wire := w
            queue := s.queue ++ [⟨.recv, n⟩], io := .receiving 65536 } :=
      parse_nothing rfl hconnected hcut
    simp only [Transition.run, step, hreceive, Option.bind_some, hmoves, hcopies, announce,
      pushNetEvent, hends]

/-- There is no room for it, and it is announced all the same. -/
theorem frame_refused {dwSize : Nat} (hlen : 8 + payload.length < 2147483648)
    (hn : (frame payload).length = n) (hio : s.io = .receiving dwSize) (hsize : n ≤ dwSize)
    (hfits : n ≤ 65536) (hconnected : s.connected) (hempty : s.recvBuffer.stored = [])
    (hwire : s.wire = frame payload ++ w) (hfull : 65536 < s.sessionBuffer.dwUsedLength + n) :
    ∃ recvBuffer, recvBuffer.stored = [] ∧
      Transition.run step s [.endReceive n, .parse, .announce, .parse] =
        some { s with
          recvBuffer := recvBuffer, wire := w
          queue := s.queue ++ [⟨.recv, n⟩], io := .receiving 65536 } := by
  have hpos := frame_length payload
  obtain ⟨r, hstored, hreceive, hparse⟩ := frame_arrives hlen hn hio hsize hfits hconnected
    hempty hwire
  have hall : r.dwUsedLength = n := by rw [← DataBuffer.stored_length, hstored, hn]
  obtain ⟨recvBuffer, hpop, hcut⟩ := DataBuffer.popData_stored (b := r) (n := n) (by omega)
  rw [hstored, List.drop_of_length_le (by omega)] at hcut
  refine ⟨recvBuffer, hcut, ?_⟩
  have hmoves : ({ s with recvBuffer := r, wire := w, io := .parsing } : FxTcpClientSocket).parse =
      some { s with recvBuffer := recvBuffer, wire := w, io := .announcing n } := by
    simp only [parse, if_true, hparse, Int.toNat_natCast, popRecv, hpop]
    rw [if_neg (by omega), if_neg (by omega), if_neg (by omega),
      if_pos (by rw [DataBuffer.maxDataLength]; have := s.sessionBuffer.used_le; omega)]
  have hends : ({ s with
      recvBuffer := recvBuffer, wire := w
      queue := s.queue ++ [⟨.recv, n⟩], io := .parsing } : FxTcpClientSocket).parse =
        some { s with
          recvBuffer := recvBuffer, wire := w
          queue := s.queue ++ [⟨.recv, n⟩], io := .receiving 65536 } :=
    parse_nothing rfl hconnected hcut
  simp only [Transition.run, step, hreceive, Option.bind_some, hmoves, announce, pushNetEvent,
    hends]

/-- What the session is given is what stands at the front of the array. -/
theorem frame_shown (batch : List SNetEvent) (hlen : 8 + payload.length < 2147483648)
    (hn : (frame payload).length = n) (hmain : s.main = .idle)
    (hbatch : s.batch = ⟨.recv, n⟩ :: batch)
    (hfront : s.sessionBuffer.pData.take n = frame payload) :
    Transition.run step s [.procEvent, .read n, .hand] =
      some { s with main := .popping n, batch := batch, given := s.given ++ [payload] } := by
  have hpos := frame_length payload
  have hgiven : BinarySession.onRecv (frame payload) n = some payload := by
    rw [← hn]
    exact onRecv_frame hlen List.take_length
  simp only [Transition.run, step, procEvent, read, hand, hmain, hbatch, if_true, Option.bind_some,
    List.length_nil, List.nil_append, List.drop_zero, Nat.zero_add, hfront]
  rw [if_pos ⟨by omega, Nat.le_refl _⟩]
  simp only [Option.bind_some, hn, if_true, hgiven]

end

/-- In every run, however the stream is cut and the threads are interleaved: the session gets the
payloads exactly as long as every frame that is moved has room in the session buffer. The server's
`Send` puts a frame into a ring whose length is an `int`. -/
theorem session_exact_iff
    (hlen : ∀ payload ∈ payloads, 8 + payload.length < 2147483648) {ls : List RecvStep}
    {s : FxTcpClientSocket} (hrun : Transition.run step (opened payloads) ls = some s) :
    (∀ ls' s', ls' <+: ls → Transition.run step (opened payloads) ls' = some s' →
      Exact payloads s') ↔ Transition.Always step HasRoom (opened payloads) ls := by
  have hexact : ∀ s, (∃ waiting rest, Synced payloads s waiting rest) → Exact payloads s := by
    rintro s ⟨waiting, rest, h⟩
    exact h.exact
  apply Transition.forall_reached_iff_always hexact
  · rintro s l s' ⟨waiting, rest, h⟩ hroom hs
    exact h.step hlen hroom hs
  · rintro s l s' ⟨waiting, rest, h⟩ hs hexact
    exact h.hasRoom hs hexact
  · exact ⟨[], payloads, synced_opened payloads⟩
  · exact hrun

/-- The session starts to receive. -/
def startSteps : List RecvStep := [.run, .procEvent, .asynReceive]

theorem run_opened (payloads : List (List UInt8)) :
    Transition.run step (opened payloads) startSteps =
      some { opened payloads with queue := [], io := .receiving 65536 } := rfl

/-- A frame comes, and there is room for it. -/
def takeSteps (n : Nat) : List RecvStep := [.endReceive n, .parse, .copy, .announce, .parse]

/-- A frame comes, and there is no room for it. -/
def refuseSteps (n : Nat) : List RecvStep := [.endReceive n, .parse, .announce, .parse]

/-- The session is given what it has been told of. -/
def showSteps (n : Nat) : List RecvStep := [.procEvent, .read n, .hand]

/-- One frame from the socket to the session. -/
def wholeSteps (n : Nat) : List RecvStep :=
  startSteps ++ (takeSteps n ++ ([.run] ++ showSteps n))

theorem whole_given {payload : List UInt8} {n : Nat} (hn : (frame payload).length = n)
    (hfits : n ≤ 65536) : ∃ s,
      Transition.run step (opened [payload]) (wholeSteps n) = some s ∧ s.given = [payload] := by
  have hlen : 8 + payload.length < 2147483648 := by
    rw [← frame_length]
    omega
  obtain ⟨r, sb, hr, hsb, htaken⟩ := frame_taken (w := [])
    (s := { opened [payload] with queue := [], io := .receiving 65536 }) hlen hn rfl hfits rfl rfl
    (by simp [opened]) (by simpa [opened] using hfits)
  have hfront : sb.pData.take n = frame payload := by
    have hused : sb.dwUsedLength = n := by
      rw [← DataBuffer.stored_length, hsb]
      simpa [opened] using hn
    rw [DataBuffer.take_stored _ (by omega), hsb, ← hn]
    simp [opened]
  have hshown := frame_shown []
    (s := { opened [payload] with
      recvBuffer := r, sessionBuffer := sb, wire := [], queue := [], batch := [⟨.recv, n⟩]
      io := .receiving 65536 }) hlen hn rfl rfl hfront
  exact ⟨_, Transition.run_trans (run_opened _) (Transition.run_trans htaken
    (Transition.run_trans rfl hshown)), rfl⟩

/-- One payload of three bytes. -/
theorem session_exact_three : ∃ s,
    Transition.run step (opened [[1, 2, 3]]) (wholeSteps 11) = some s ∧ s.given = [[1, 2, 3]] ∧
    ((∀ ls' s', ls' <+: wholeSteps 11 →
      Transition.run step (opened [[1, 2, 3]]) ls' = some s' → Exact [[1, 2, 3]] s') ↔
        Transition.Always step HasRoom (opened [[1, 2, 3]]) (wholeSteps 11)) := by
  obtain ⟨s, hrun, hgiven⟩ := whole_given (show (frame [1, 2, 3]).length = 11 from rfl) (by omega)
  exact ⟨s, hrun, hgiven, session_exact_iff (by decide) hrun⟩

/-! ### A session buffer that is full -/

/-- Two frames between two calls of `Run`. -/
def overfullSteps (n : Nat) : List RecvStep :=
  startSteps ++ (takeSteps n ++ (refuseSteps n ++ ([.run] ++ (showSteps n ++
    ([.testPop, .cut] ++ (showSteps n ++ [.testPop]))))))

/-- The session is given the first payload twice and the second never. -/
theorem first_twice {a b : List UInt8} {n : Nat} (ha : (frame a).length = n)
    (hb : (frame b).length = n) (hfits : n ≤ 65536) (hfull : 65536 < n + n) :
    ∃ s, Transition.run step (opened [a, b]) (overfullSteps n) = some s ∧ s.connected = true ∧
      s.AtRest ∧ s.given = [a, a] := by
  have hlen : 8 + a.length < 2147483648 := by
    rw [← frame_length]
    omega
  have hlen' : 8 + b.length < 2147483648 := by
    rw [← frame_length]
    omega
  obtain ⟨r, sb, hr, hsb, htaken⟩ := frame_taken (w := frame b)
    (s := { opened [a, b] with queue := [], io := .receiving 65536 }) hlen ha rfl hfits rfl rfl
    (by simp [opened]) (by simpa [opened] using hfits)
  have hused : sb.dwUsedLength = n := by
    rw [← DataBuffer.stored_length, hsb]
    simpa [opened] using ha
  obtain ⟨r', hr', hrefused⟩ := frame_refused (w := [])
    (s := { opened [a, b] with
      recvBuffer := r, sessionBuffer := sb, wire := frame b, queue := [⟨.recv, n⟩]
      io := .receiving 65536 }) hlen' hb rfl hfits hfits rfl hr (by simp)
    (by simpa [hused] using hfull)
  have hfront : sb.pData.take n = frame a := by
    rw [DataBuffer.take_stored _ (by omega), hsb, ← ha]
    simp [opened]
  obtain ⟨sb', hcut⟩ := DataBuffer.cutFront_isSome (Nat.le_refl sb.dwUsedLength)
  obtain ⟨hdata, hempty⟩ := DataBuffer.cutFront_all hcut
  rw [hused] at hcut
  have hshown := frame_shown [⟨.recv, n⟩]
    (s := { opened [a, b] with
      recvBuffer := r', sessionBuffer := sb, wire := [], queue := []
      batch := [⟨.recv, n⟩, ⟨.recv, n⟩], io := .receiving 65536 }) hlen ha rfl rfl hfront
  have hagain := frame_shown []
    (s := { opened [a, b] with
      recvBuffer := r', sessionBuffer := sb', wire := [], queue := [], batch := [⟨.recv, n⟩]
      io := .receiving 65536, given := [a] }) hlen ha rfl rfl (by rw [hdata, hfront])
  have hcuts : Transition.run step
      { opened [a, b] with
        recvBuffer := r', sessionBuffer := sb, wire := [], queue := [], batch := [⟨.recv, n⟩]
        io := .receiving 65536, main := .popping n, given := [a] } [.testPop, .cut] =
      some { opened [a, b] with
        recvBuffer := r', sessionBuffer := sb', wire := [], queue := [], batch := [⟨.recv, n⟩]
        io := .receiving 65536, given := [a] } := by
    simp only [Transition.run, step, testPop, hused, Nat.lt_irrefl, if_false, Option.bind_some, cut,
      hcut]
    rfl
  have hends : Transition.run step
      { opened [a, b] with
        recvBuffer := r', sessionBuffer := sb', wire := [], queue := [], io := .receiving 65536
        main := .popping n, given := [a, a] } [.testPop] =
      some { opened [a, b] with
        recvBuffer := r', sessionBuffer := sb', wire := [], queue := [], io := .receiving 65536
        given := [a, a] } := by
    simp only [Transition.run, step, testPop, hempty]
    rw [if_pos (by omega)]
    rfl
  refine ⟨_, Transition.run_trans (run_opened _) (Transition.run_trans htaken
    (Transition.run_trans hrefused (Transition.run_trans rfl (Transition.run_trans hshown
      (Transition.run_trans hcuts (Transition.run_trans hagain hends)))))), rfl, ?_, rfl⟩
  exact ⟨⟨65536, rfl⟩, rfl, rfl, rfl, rfl⟩

/-- The second of two payloads of 40000 bytes is lost, and the first comes in its place. -/
theorem session_gets_stale : ∃ s,
    Transition.run step (opened [List.replicate 40000 1, List.replicate 40000 2])
      (overfullSteps 40008) = some s ∧ s.connected = true ∧ s.AtRest ∧
    s.given = [List.replicate 40000 1, List.replicate 40000 1] ∧
    ¬ Exact [List.replicate 40000 1, List.replicate 40000 2] s := by
  have hlength (c : UInt8) : (frame (List.replicate 40000 c)).length = 40008 := by
    rw [frame_length, List.length_replicate]
  obtain ⟨s, hrun, hconnected, hrest, hgiven⟩ :=
    first_twice (hlength 1) (hlength 2) (by omega) (by omega)
  refine ⟨s, hrun, hconnected, hrest, hgiven, fun hexact => ?_⟩
  have hsame := hexact.complete hrest
  rw [hgiven] at hsame
  have hbytes := (List.cons.inj (List.cons.inj hsame).2).1
  have hbyte : (1 : UInt8) ∈ List.replicate 40000 (2 : UInt8) := by
    rw [← hbytes]
    exact List.mem_replicate.mpr ⟨by omega, rfl⟩
  exact absurd (List.eq_of_mem_replicate hbyte) (by decide)

end FxNet.FxTcpClientSocket
