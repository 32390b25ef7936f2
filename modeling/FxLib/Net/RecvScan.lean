import FxLib.Lib.While
import FxLib.Net.RecvSock

/-!
# What every receive loop keeps

`Holds X s m w part`: the receive ring holds the marked bytes `m` and the unmarked
bytes `w`, of the marked ones the last `part` belong to a frame that is not yet
announced, and the announced ones still to be popped fit into the rest. `X` is
whatever else is to be known of the main thread's side. Every ring call of the IO
thread, with everything the main thread does before it, has one lemma here.
-/

open MachineInt

namespace RecvSock

variable {η : Type}

/-- The lengths of the pending `NETEVT_RECV` events. -/
def recvLens (events : List SNetEvent) : List Nat :=
  events.filterMap fun e => if e.eType = .recv then some e.dwValue else none

@[simp] theorem recvLens_append (xs ys : List SNetEvent) :
    recvLens (xs ++ ys) = recvLens xs ++ recvLens ys := by
  simp [recvLens]

theorem quiet_of_forall {events : List SNetEvent} (h : ∀ e ∈ events, e.eType ≠ .recv) :
    recvLens events = [] := by
  rw [recvLens, List.filterMap_eq_nil_iff]
  intro e he
  rw [if_neg (h e he)]

theorem quiet_cons {e : SNetEvent} {rest : List SNetEvent} (h : recvLens (e :: rest) = []) :
    e.eType ≠ .recv ∧ recvLens rest = [] := by
  by_cases he : e.eType = .recv <;> simp [recvLens, he] at h ⊢
  exact h

/-- What the main thread sees of the socket is the same. -/
def SameMain (s s' : RecvSock η) : Prop :=
  s' = { s with recvBuf := s'.recvBuf, needData := s'.needData, packetLen := s'.packetLen
                header := s'.header, errno := s'.errno, sched := s'.sched }

/-- What the IO thread sees of the socket is the same. -/
structure SameIo (s s' : RecvSock η) : Prop where
  needData : s'.needData = s.needData
  packetLen : s'.packetLen = s.packetLen
  header : s'.header = s.header
  taken : s'.taken = s.taken
  announced : recvLens s'.announced = recvLens s.announced
  totalLen : s'.recvBuf.totalLen = s.recvBuf.totalLen
  mem : s'.recvBuf.mem = s.recvBuf.mem
  inCursor : s'.recvBuf.inCursor = s.recvBuf.inCursor
  useCursor : s'.recvBuf.useCursor = s.recvBuf.useCursor
  useLoop : s'.recvBuf.useLoop = s.recvBuf.useLoop

theorem SameIo.refl (s : RecvSock η) : SameIo s s :=
  ⟨rfl, rfl, rfl, rfl, rfl, rfl, rfl, rfl, rfl, rfl⟩

theorem SameIo.trans {s s' s'' : RecvSock η} (h : SameIo s s') (h' : SameIo s' s'') :
    SameIo s s'' :=
  ⟨h'.1.trans h.1, h'.2.trans h.2, h'.3.trans h.3, h'.4.trans h.4, h'.5.trans h.5,
    h'.6.trans h.6, h'.7.trans h.7, h'.8.trans h.8, h'.9.trans h.9, h'.10.trans h.10⟩

structure Holds (X : RecvSock η → Prop) (s : RecvSock η) (m w : List UInt8) (part : Nat) :
    Prop where
  rep : s.recvBuf.Rep (m ++ w)
  marks : s.recvBuf.Marks w.length
  small : s.recvBuf.totalLen ≤ 1073741824
  taken : s.taken = s.popped.flatten ++ m ++ w
  pending : (recvLens s.events).sum + part ≤ m.length
  side : X s

/-! ### The main thread -/

/-- What a `__ProcRecv` may do: at most pop the `n` bytes it was told of. -/
structure Pops (s s' : RecvSock η) (n : Nat) : Prop where
  same : s' = { s with recvBuf := s'.recvBuf, state := s'.state, sock := s'.sock
                       connection := s'.connection, delayClose := s'.delayClose
                       sessionBuf := s'.sessionBuf, events := s'.events
                       announced := s'.announced, popped := s'.popped
                       received := s'.received }
  lens : recvLens s'.events = recvLens s.events
  announced : recvLens s'.announced = recvLens s.announced
  ring : (s'.recvBuf = s.recvBuf ∧ s'.popped = s.popped) ∨
    ∃ bytes, s.recvBuf.popBuff (toInt32 n) = (true, bytes, s'.recvBuf) ∧
      s'.popped = s.popped ++ [bytes]

abbrev ProcRecv (η : Type) := RecvSock η → FxConnection → Nat → RecvSock η

/-- The invariant of the main thread's side: kept by its steps, and not touched by the
IO thread's own variables. -/
structure MainSide (procRecv : ProcRecv η) (X : RecvSock η → Prop) : Prop where
  pops : ∀ s c n, Pops s (procRecv s c n) n
  main : ∀ s m w part, Holds X s m w part → X (mainStep procRecv s)
  io : ∀ s s', SameMain s s' → X s → X s'

variable {procRecv : ProcRecv η} {X : RecvSock η → Prop} {s s' : RecvSock η}
  {m w : List UInt8} {part : Nat}

theorem lens_pushNetEvent (s : RecvSock η) {eType : ENetEvtType} (h : eType ≠ .recv) (v : Int) :
    recvLens (s.pushNetEvent eType v).events = recvLens s.events ∧
      recvLens (s.pushNetEvent eType v).announced = recvLens s.announced := by
  simp [pushNetEvent, recvLens, h]

theorem lens_pushRecv (s : RecvSock η) (v : Int) :
    recvLens (s.pushNetEvent .recv v).events = recvLens s.events ++ [toUInt32 v] ∧
      recvLens (s.pushNetEvent .recv v).announced = recvLens s.announced ++ [toUInt32 v] := by
  simp [pushNetEvent, recvLens]

theorem lens_close (s : RecvSock η) : recvLens s.close.events = recvLens s.events ∧
    recvLens s.close.announced = recvLens s.announced := by
  have hterm : ∀ t : RecvSock η, recvLens (t.pushNetEvent .terminate 0).events = recvLens t.events ∧
      recvLens (t.pushNetEvent .terminate 0).announced = recvLens t.announced :=
    fun t => lens_pushNetEvent t (by simp) 0
  simp only [close]
  split_ifs
  · exact ⟨rfl, rfl⟩
  · exact ⟨rfl, rfl⟩
  · exact hterm _
  · exact ⟨rfl, rfl⟩
  · exact hterm _

theorem pops_pushNetEvent (s : RecvSock η) {eType : ENetEvtType} (h : eType ≠ .recv) (v : Int)
    (n : Nat) : Pops s (s.pushNetEvent eType v) n :=
  ⟨rfl, (lens_pushNetEvent s h v).1, (lens_pushNetEvent s h v).2, Or.inl ⟨rfl, rfl⟩⟩

theorem Pops.refl (s : RecvSock η) (n : Nat) : Pops s s n :=
  ⟨rfl, rfl, rfl, Or.inl ⟨rfl, rfl⟩⟩

theorem close_same (s : RecvSock η) :
    s.close = { s with state := s.close.state, sock := s.close.sock, events := s.close.events
                       announced := s.close.announced } := by
  simp only [close]
  split_ifs <;> rfl

theorem fail_same (s : RecvSock η) (dwValue : Int) :
    s.fail dwValue = { s with state := (s.fail dwValue).state, sock := (s.fail dwValue).sock
                              events := (s.fail dwValue).events
                              announced := (s.fail dwValue).announced } :=
  close_same (s.pushNetEvent .error dwValue)

theorem lens_fail (s : RecvSock η) (dwValue : Int) :
    recvLens (s.fail dwValue).events = recvLens s.events ∧
      recvLens (s.fail dwValue).announced = recvLens s.announced := by
  have hclose := lens_close (s.pushNetEvent .error dwValue)
  have hpush := lens_pushNetEvent s (show ENetEvtType.error ≠ .recv by simp) dwValue
  exact ⟨hclose.1.trans hpush.1, hclose.2.trans hpush.2⟩

theorem pops_fail (s : RecvSock η) (dwValue : Int) (n : Nat) : Pops s (s.fail dwValue) n := by
  have hsame := fail_same s dwValue
  have hlens := lens_fail s dwValue
  refine ⟨?_, hlens.1, hlens.2, Or.inl ⟨?_, ?_⟩⟩ <;> rw [hsame]

/-- `PopBuff` into the session's buffer either refuses or takes exactly `dwLen` bytes. -/
theorem popToSession_cases (s : RecvSock η) (dwLen : Nat) :
    s.popToSession dwLen = (false, s) ∨
      ∃ bytes recvBuf, s.recvBuf.popBuff (toInt32 dwLen) = (true, bytes, recvBuf) ∧
        s.popToSession dwLen = (true, { s with
          recvBuf := recvBuf, popped := s.popped ++ [bytes]
          sessionBuf := Memory.write s.sessionBuf 0 bytes }) := by
  generalize hpop : s.recvBuf.popBuff (toInt32 dwLen) = answer
  obtain ⟨ok, bytes, recvBuf⟩ := answer
  cases ok with
  | true =>
    exact Or.inr ⟨bytes, recvBuf, rfl, by simp only [popToSession, hpop, if_true]⟩
  | false =>
    exact Or.inl (by simp only [popToSession, hpop, Bool.false_eq_true, if_false])

theorem pops_popped {bytes : List UInt8} {recvBuf : FxLoopBuff} {n : Nat} (s : RecvSock η)
    (hpop : s.recvBuf.popBuff (toInt32 n) = (true, bytes, recvBuf)) (sessionBuf : Mem)
    (received : List (List UInt8)) (delayClose : Bool) :
    Pops s { s with recvBuf := recvBuf, popped := s.popped ++ [bytes], sessionBuf := sessionBuf
                    received := received, delayClose := delayClose } n :=
  ⟨rfl, rfl, rfl, Or.inr ⟨bytes, hpop, rfl⟩⟩

theorem connectionOnRecv_same (s : RecvSock η) (c : FxConnection) (n : Nat) :
    s.connectionOnRecv c n = { s with received := (s.connectionOnRecv c n).received } := by
  simp only [connectionOnRecv]
  split <;> rfl

/-- Handing a frame over is the session's affair. -/
def HandsOver (handOver : ProcRecv η) : Prop := ∀ s c n,
  handOver s c n = { s with sessionBuf := (handOver s c n).sessionBuf
                            received := (handOver s c n).received
                            delayClose := (handOver s c n).delayClose }

theorem popAndHand_cases (handOver : ProcRecv η) (s : RecvSock η) (c : FxConnection) (n : Nat) :
    popAndHand handOver s c n = s.fail netRecvError ∨ popAndHand handOver s c n = s ∨
      ∃ bytes recvBuf, s.recvBuf.popBuff (toInt32 n) = (true, bytes, recvBuf) ∧
        popAndHand handOver s c n = handOver { s with
          recvBuf := recvBuf, popped := s.popped ++ [bytes]
          sessionBuf := Memory.write s.sessionBuf 0 bytes } c n := by
  rw [popAndHand]
  by_cases hlen : 4294967295 = n
  · rw [if_pos hlen]
    exact Or.inl rfl
  · rw [if_neg hlen]
    by_cases hid : s.sockId ≠ c.id
    · rw [if_pos hid]
      exact Or.inr (Or.inl rfl)
    · rw [if_neg hid]
      by_cases hsize : s.getRecvSize c < n
      · rw [if_pos hsize]
        exact Or.inl rfl
      · rw [if_neg hsize]
        rcases popToSession_cases s n with hpop | ⟨bytes, recvBuf, hpop, hto⟩
        · rw [hpop, if_neg (by simp)]
          exact Or.inr (Or.inl rfl)
        · rw [hto, if_pos rfl]
          exact Or.inr (Or.inr ⟨bytes, recvBuf, hpop, rfl⟩)

/-- A block that the session's buffer takes is popped and handed over. -/
theorem popAndHand_popped (handOver : ProcRecv η) {s : RecvSock η} {c : FxConnection} {n : Nat}
    {bytes : List UInt8} {recvBuf : FxLoopBuff} (hid : c.id = s.sockId)
    (hsize : n ≤ s.getRecvSize c) (hlt : n < 4294967295)
    (hpop : s.recvBuf.popBuff (toInt32 n) = (true, bytes, recvBuf)) :
    popAndHand handOver s c n = handOver { s with
      recvBuf := recvBuf, popped := s.popped ++ [bytes]
      sessionBuf := Memory.write s.sessionBuf 0 bytes } c n := by
  rcases popToSession_cases s n with hto | ⟨bytes', ring, hpop', hto⟩
  · rw [popToSession, hpop] at hto
    cases hto
  · rw [hpop] at hpop'
    simp only [Prod.mk.injEq, true_and] at hpop'
    rw [popAndHand, if_neg (by omega), if_neg (by simp [hid]), if_neg (by omega), hto, if_pos rfl,
      hpop'.1, hpop'.2]

theorem HandsOver.pops {handOver : ProcRecv η} (h : HandsOver handOver) (s : RecvSock η)
    (c : FxConnection) (n : Nat) : Pops s (popAndHand handOver s c n) n := by
  rcases popAndHand_cases handOver s c n with hfail | hsame | ⟨bytes, recvBuf, hpop, hproc⟩
  · rw [hfail]
    exact pops_fail s _ n
  · rw [hsame]
    exact Pops.refl s n
  · rw [hproc, h]
    exact pops_popped s hpop _ _ _

/-- Popping `n` bytes that the marked ones cover. -/
theorem Holds.pop (h : Holds X s m w part) {n : Nat} {recvBuf : FxLoopBuff}
    {bytes : List UInt8} (hn : n ≤ m.length)
    (hpop : s.recvBuf.popBuff (toInt32 n) = (true, bytes, recvBuf)) :
    bytes = m.take n ∧ recvBuf = s.recvBuf.advanceOut n ∧ recvBuf.Rep (m.drop n ++ w) ∧
      recvBuf.Marks w.length := by
  have hlen := h.rep.length_le
  have hfree := h.rep.free
  have hout := h.rep.out_lt
  have hout0 := h.rep.out_nonneg
  have hsmall := h.small
  simp only [List.length_append] at hlen hfree
  have hint : toInt32 n = n := wrap32_of_fits ⟨by omega, by omega⟩
  rw [hint] at hpop
  have hpos : (0 : Int) < n := by
    by_contra hzero
    simp only [FxLoopBuff.popBuff] at hpop
    rw [if_pos (by omega)] at hpop
    cases hpop
  rw [FxLoopBuff.popBuff_eq h.rep hpos (by simp; omega) ⟨by omega, by omega⟩] at hpop
  simp only [Prod.mk.injEq, true_and, Int.toNat_natCast] at hpop
  obtain ⟨rfl, rfl⟩ := hpop
  have hrep := h.rep.advanceOut (n := n) (by simp; omega)
  rw [List.drop_append_of_le_length hn] at hrep
  exact ⟨List.take_append_of_le_length hn, rfl, hrep, h.marks.advanceOut (by omega)⟩

theorem advanceOut_io (b : FxLoopBuff) (n : Nat) :
    (b.advanceOut n).inCursor = b.inCursor ∧ (b.advanceOut n).useCursor = b.useCursor ∧
      (b.advanceOut n).useLoop = b.useLoop := by
  simp only [FxLoopBuff.advanceOut]
  split <;> exact ⟨rfl, rfl, rfl⟩

theorem Holds.sameIo_of_pops {n : Nat} (h : Holds X s m w part) (hn : n ≤ m.length)
    (hpops : Pops s s' n) : SameIo s s' := by
  have hsame := hpops.same
  have hbuf : s'.recvBuf.totalLen = s.recvBuf.totalLen ∧ s'.recvBuf.mem = s.recvBuf.mem ∧
      s'.recvBuf.inCursor = s.recvBuf.inCursor ∧ s'.recvBuf.useCursor = s.recvBuf.useCursor ∧
      s'.recvBuf.useLoop = s.recvBuf.useLoop := by
    rcases hpops.ring with ⟨hring, _⟩ | ⟨bytes, hpop, _⟩
    · rw [hring]
      exact ⟨rfl, rfl, rfl, rfl, rfl⟩
    · obtain ⟨_, hring, _⟩ := h.pop hn hpop
      obtain ⟨hin, huse, hloop⟩ := advanceOut_io s.recvBuf n
      rw [hring]
      exact ⟨by simp, by simp, hin, huse, hloop⟩
  obtain ⟨h1, h2, h3, h4, h5⟩ := hbuf
  refine ⟨?_, ?_, ?_, ?_, hpops.announced, h1, h2, h3, h4, h5⟩ <;> rw [hsame]

theorem pops_procEstablish (s : RecvSock η) (n : Nat) : Pops s s.procEstablish n := by
  simp only [procEstablish]
  split
  · exact Pops.refl s n
  · split_ifs
    · exact Pops.refl s n
    · exact ⟨rfl, rfl, rfl, Or.inl ⟨rfl, rfl⟩⟩

theorem pops_procAssociate (s : RecvSock η) (n : Nat) : Pops s s.procAssociate n := by
  simp only [procAssociate]
  split
  · exact Pops.refl s n
  · split_ifs
    · exact Pops.refl s n
    · exact ⟨rfl, rfl, rfl, Or.inl ⟨rfl, rfl⟩⟩

/-- An event pops at most the bytes it announces. -/
theorem pops_procEvent (hpops : ∀ s c n, Pops s (procRecv s c n) n) (s : RecvSock η)
    (e : SNetEvent) :
    Pops s (procEvent procRecv s e) (if e.eType = .recv then e.dwValue else 0) := by
  obtain ⟨eType, dwValue⟩ := e
  cases eType with
  | recv =>
    simp only [procEvent, if_true]
    cases s.connection with
    | none => exact Pops.refl s _
    | some c => exact hpops s c dwValue
  | establish => exact pops_procEstablish s _
  | associate => exact pops_procAssociate s _
  | terminate => exact pops_pushNetEvent s (by simp) 0 _
  | connErr => exact Pops.refl s _
  | error => exact Pops.refl s _
  | recvPackageError => exact Pops.refl s _
  | release => exact Pops.refl s _

theorem Holds.mainStep (h : Holds X s m w part) (hside : MainSide procRecv X) :
    ∃ m', Holds X (mainStep procRecv s) m' w part ∧ SameIo s (RecvSock.mainStep procRecv s) ∧
      m'.length ≤ m.length := by
  have hX := hside.main s m w part h
  cases hev : s.events with
  | nil =>
    have heq : RecvSock.mainStep procRecv s = s := by simp [RecvSock.mainStep, hev]
    rw [heq]
    exact ⟨m, h, SameIo.refl s, le_rfl⟩
  | cons e rest =>
    have heq : RecvSock.mainStep procRecv s = procEvent procRecv { s with events := rest } e := by
      simp [RecvSock.mainStep, hev]
    generalize hn : (if e.eType = .recv then e.dwValue else 0) = n
    have hpend : n + (recvLens rest).sum + part ≤ m.length := by
      have hpend := h.pending
      rw [hev] at hpend
      by_cases htype : e.eType = .recv <;> simp [recvLens, htype] at hpend hn ⊢ <;> omega
    have hdead : Holds (fun _ => True) { s with events := rest } m w part :=
      ⟨h.rep, h.marks, h.small, h.taken, by simp only; omega, trivial⟩
    have hpops := pops_procEvent hside.pops { s with events := rest } e
    rw [hn, ← heq] at hpops
    have hio := hdead.sameIo_of_pops (by omega) hpops
    have hsmall : (RecvSock.mainStep procRecv s).recvBuf.totalLen ≤ 1073741824 := by
      rw [hio.totalLen]
      exact h.small
    have hlens := hpops.lens
    simp only at hlens
    have hio' : SameIo s (RecvSock.mainStep procRecv s) :=
      ⟨hio.1, hio.2, hio.3, hio.4, hio.5, hio.6, hio.7, hio.8, hio.9, hio.10⟩
    rcases hpops.ring with ⟨hring, hpopped⟩ | ⟨bytes, hpop, hpopped⟩
    · simp only at hring hpopped
      refine ⟨m, ⟨?_, ?_, hsmall, ?_, ?_, hX⟩, hio', le_rfl⟩
      · rw [hring]
        exact h.rep
      · rw [hring]
        exact h.marks
      · rw [hio'.taken, hpopped]
        exact h.taken
      · rw [hlens]
        omega
    · obtain ⟨rfl, _, hrep, hmarks⟩ := hdead.pop (by omega) hpop
      refine ⟨m.drop n, ⟨hrep, hmarks, hsmall, ?_, ?_, hX⟩, hio', by simp⟩
      · rw [hio'.taken, hpopped, h.taken]
        simp
      · rw [hlens, List.length_drop]
        omega

/-- The main thread does not touch the bytes received so far. -/
theorem mainStep_taken (hpops : ∀ s c n, Pops s (procRecv s c n) n) (s : RecvSock η) :
    (RecvSock.mainStep procRecv s).taken = s.taken := by
  simp only [RecvSock.mainStep]
  split
  · rfl
  · rename_i e events _
    rw [(pops_procEvent hpops { s with events := events } e).same]

/-- A side that knows the bytes received so far and nothing else. -/
theorem takenSide (hpops : ∀ s c n, Pops s (procRecv s c n) n) (P : List UInt8 → Prop) :
    MainSide procRecv fun s => P s.taken where
  pops := hpops
  main := fun s _ _ _ h => by
    simp only [mainStep_taken hpops s]
    exact h.side
  io := fun s s' hmain h => by
    rw [hmain]
    exact h

theorem Holds.mainSteps (h : Holds X s m w part) (hside : MainSide procRecv X) (k : Nat) :
    ∃ m', Holds X ((RecvSock.mainStep procRecv)^[k] s) m' w part ∧
      SameIo s ((RecvSock.mainStep procRecv)^[k] s) ∧ m'.length ≤ m.length := by
  induction k generalizing s m with
  | zero => exact ⟨m, h, SameIo.refl s, le_rfl⟩
  | succ k ih =>
    obtain ⟨m₁, h₁, hio₁, hle₁⟩ := h.mainStep hside
    obtain ⟨m₂, h₂, hio₂, hle₂⟩ := ih h₁
    exact ⟨m₂, h₂, hio₁.trans hio₂, hle₂.trans hle₁⟩

/-- The IO thread's own variables are free to change. -/
theorem Holds.io (h : Holds X s m w part) (hside : MainSide procRecv X) (hmain : SameMain s s')
    (hring : s'.recvBuf = s.recvBuf) : Holds X s' m w part := by
  have hX := hside.io s s' hmain h.side
  have htaken : s'.taken = s.taken := by rw [hmain]
  have hpopped : s'.popped = s.popped := by rw [hmain]
  have hevents : s'.events = s.events := by rw [hmain]
  refine ⟨?_, ?_, ?_, ?_, ?_, hX⟩
  · rw [hring]
    exact h.rep
  · rw [hring]
    exact h.marks
  · rw [hring]
    exact h.small
  · rw [htaken, hpopped]
    exact h.taken
  · rw [hevents]
    exact h.pending

/-- The main thread's turn before a ring call. -/
theorem Holds.yield (h : Holds X s m w part) (hside : MainSide procRecv X) :
    ∃ m', Holds X (s.yield procRecv) m' w part ∧ SameIo s (s.yield procRecv) ∧
      m'.length ≤ m.length := by
  simp only [RecvSock.yield]
  cases hsched : s.sched with
  | nil => exact ⟨m, h, SameIo.refl s, le_rfl⟩
  | cons k sched =>
    have hs : Holds X { s with sched := sched } m w part :=
      ⟨h.rep, h.marks, h.small, h.taken, h.pending, hside.io _ _ rfl h.side⟩
    obtain ⟨m', h', hio, hle⟩ := hs.mainSteps hside k
    exact ⟨m', h', ⟨hio.1, hio.2, hio.3, hio.4, hio.5, hio.6, hio.7, hio.8, hio.9, hio.10⟩, hle⟩

/-! ### The IO thread's ring calls -/

/-- The variables of the frame in progress and the record of the socket are the same. -/
structure SameFrame (s s' : RecvSock η) : Prop where
  needData : s'.needData = s.needData
  packetLen : s'.packetLen = s.packetLen
  header : s'.header = s.header
  taken : s'.taken = s.taken
  announced : recvLens s'.announced = recvLens s.announced

theorem SameIo.frame (h : SameIo s s') : SameFrame s s' := ⟨h.1, h.2, h.3, h.4, h.5⟩

theorem SameFrame.trans {s'' : RecvSock η} (h : SameFrame s s') (h' : SameFrame s' s'') :
    SameFrame s s'' :=
  ⟨h'.1.trans h.1, h'.2.trans h.2, h'.3.trans h.3, h'.4.trans h.4, h'.5.trans h.5⟩

theorem Holds.clearIfEmpty (h : Holds X s m w part) (hside : MainSide procRecv X) :
    ∃ m', Holds X (s.clearIfEmpty procRecv) m' w part ∧
      SameFrame s (s.clearIfEmpty procRecv) ∧
      (s.clearIfEmpty procRecv).recvBuf.totalLen = s.recvBuf.totalLen ∧
      (w ≠ [] → (s.clearIfEmpty procRecv).recvBuf.useCursor = s.recvBuf.useCursor) := by
  obtain ⟨m₁, h₁, hio₁, _⟩ := h.yield hside
  simp only [RecvSock.clearIfEmpty]
  split
  · rename_i he
    have hq := h₁.rep.isEmpty_iff.mp (by simpa [FxLoopBuff.isEmpty] using he)
    obtain ⟨rfl, rfl⟩ := List.append_eq_nil_iff.mp hq
    -- nothing is left for the main thread to pop before `Clear`
    obtain ⟨m₂, h₂, hio₂, hle⟩ := h₁.yield hside
    obtain rfl := List.eq_nil_of_length_eq_zero (Nat.le_zero.mp hle)
    have hfree := h₂.rep.free
    have hempty := h₂.rep.isEmpty_iff.mpr rfl
    have hmarks := FxLoopBuff.Marks.clear (by omega) h₂.rep.total_pos
    have hio := (hio₁.trans hio₂).frame
    exact ⟨[], ⟨h₂.rep.clear (by simpa [FxLoopBuff.isEmpty] using hempty), hmarks, h₂.small,
      h₂.taken, h₂.pending, hside.io _ _ rfl h₂.side⟩,
      ⟨hio.1, hio.2, hio.3, hio.4, hio.5⟩, (hio₁.trans hio₂).totalLen, fun hne => absurd rfl hne⟩
  · exact ⟨m₁, h₁, hio₁.frame, hio₁.totalLen, fun _ => hio₁.useCursor⟩

/-- The bytes behind the in cursor become unmarked bytes. -/
theorem Holds.grow (h : Holds X s m w part) {xs : List UInt8} (hpos : 0 < xs.length)
    (hfree : (xs.length : Int) ≤ s.recvBuf.freeLen)
    (hend : s.recvBuf.inCursor + (xs.length : Int) ≤ s.recvBuf.totalLen)
    (hread : Memory.read s.recvBuf.mem s.recvBuf.inCursor xs.length = xs)
    (hX : X { s with recvBuf := s.recvBuf.advanceIn xs.length, taken := s.taken ++ xs }) :
    Holds X { s with recvBuf := (s.recvBuf.costBuff xs.length).2, taken := s.taken ++ xs }
      m (w ++ xs) part := by
  obtain ⟨hcost, hrep⟩ := h.rep.cost hpos hfree hend hread
  have hmarks := h.marks.cost h.rep hfree
  rw [hcost]
  refine ⟨?_, ?_, ?_, ?_, h.pending, hX⟩
  · rw [← List.append_assoc]
    exact hrep
  · rw [List.length_append]
    exact hmarks
  · simpa using h.small
  · simp [h.taken]

/-- Bytes may be written to the free cells behind the in cursor. -/
theorem Holds.write (h : Holds X s m w part) (hside : MainSide procRecv X) {xs : List UInt8}
    (hfree : (xs.length : Int) ≤ s.recvBuf.freeLen)
    (hend : s.recvBuf.inCursor + (xs.length : Int) ≤ s.recvBuf.totalLen) :
    s.recvBuf.copyIn (some s.recvBuf.inCursor) xs =
        { s.recvBuf with buff := some (Memory.write s.recvBuf.mem s.recvBuf.inCursor xs) } ∧
      Holds X { s with recvBuf := s.recvBuf.copyIn (some s.recvBuf.inCursor) xs } m w part := by
  have hcopy : s.recvBuf.copyIn (some s.recvBuf.inCursor) xs =
      { s.recvBuf with buff := some (Memory.write s.recvBuf.mem s.recvBuf.inCursor xs) } := by
    rw [FxLoopBuff.copyIn, h.rep.alloc, Option.map_some]
  have hm := h.marks
  refine ⟨hcopy, ?_⟩
  rw [hcopy]
  exact ⟨h.rep.write hfree hend, ⟨hm.1, hm.2, hm.3, hm.4, hm.5⟩, h.small, h.taken, h.pending,
    hside.io _ _ rfl h.side⟩

/-- What is received goes to free cells behind the in cursor; `CostBuff` appends it to the
unmarked bytes. -/
theorem Holds.receive (h : Holds X s m w part) (hside : MainSide procRecv X) {xs : List UInt8}
    (hpos : 0 < xs.length) (hfree : (xs.length : Int) ≤ s.recvBuf.freeLen)
    (hend : s.recvBuf.inCursor + (xs.length : Int) ≤ s.recvBuf.totalLen)
    (hgrow : ∀ t recvBuf, X t → t.taken = s.taken →
      X { t with recvBuf := recvBuf, taken := t.taken ++ xs }) :
    ∃ m' s₁, s₁ = RecvSock.costBuff procRecv
        { s with recvBuf := s.recvBuf.copyIn (some s.recvBuf.inCursor) xs } xs.length ∧
      Holds X { s₁ with taken := s₁.taken ++ xs } m' (w ++ xs) part ∧ SameFrame s s₁ ∧
      s₁.recvBuf.totalLen = s.recvBuf.totalLen ∧
      s₁.recvBuf.useCursor = s.recvBuf.useCursor ∧ m'.length ≤ m.length := by
  obtain ⟨hcopy, hwritten⟩ := h.write hside hfree hend
  obtain ⟨m', h', hio, hle⟩ := hwritten.yield hside
  simp only [RecvSock.costBuff]
  generalize hs₁ : RecvSock.yield procRecv
    { s with recvBuf := s.recvBuf.copyIn (some s.recvBuf.inCursor) xs } = t at h' hio
  have htotal : t.recvBuf.totalLen = s.recvBuf.totalLen := by
    rw [hio.totalLen, hcopy]
  have hin : t.recvBuf.inCursor = s.recvBuf.inCursor := by
    rw [hio.inCursor, hcopy]
  have hread : Memory.read t.recvBuf.mem t.recvBuf.inCursor xs.length = xs := by
    rw [hin, hio.mem, hcopy]
    exact Memory.read_write_same _ _ _
  have hfree₀ := h.rep.free
  have hfree₁ := h'.rep.free
  simp only [List.length_append] at hfree₀ hfree₁
  have hframe := hio.frame
  refine ⟨m', _, rfl, ?_, ⟨hframe.1, hframe.2, hframe.3, hframe.4, hframe.5⟩, ?_⟩
  · exact h'.grow hpos (by omega) (by omega) hread (hgrow t _ h'.side hio.taken)
  · obtain ⟨hcost, _⟩ := h'.rep.cost hpos (by omega) (by omega) hread
    have huse : t.recvBuf.useCursor = s.recvBuf.useCursor := by
      rw [hio.useCursor, hcopy]
    simp only [hcost, FxLoopBuff.advanceIn_totalLen, FxLoopBuff.advanceIn_useCursor]
    exact ⟨htotal, huse, hle⟩

/-- The same when `CostBuff` comes first and the bytes are written behind it. -/
theorem Holds.store (h : Holds X s m w part) (hside : MainSide procRecv X) {xs : List UInt8}
    (hpos : 0 < xs.length) (hfree : (xs.length : Int) ≤ s.recvBuf.freeLen)
    (hend : s.recvBuf.inCursor + (xs.length : Int) ≤ s.recvBuf.totalLen)
    (hgrow : ∀ t recvBuf, X t → t.taken = s.taken →
      X { t with recvBuf := recvBuf, taken := t.taken ++ xs }) :
    ∃ m' s₁, s₁ = RecvSock.costBuff procRecv s xs.length ∧
      Holds X { s₁ with
        recvBuf := s₁.recvBuf.copyIn (some s.recvBuf.inCursor) xs
        taken := s₁.taken ++ xs } m' (w ++ xs) part ∧ SameFrame s s₁ ∧
      (s₁.recvBuf.copyIn (some s.recvBuf.inCursor) xs).totalLen = s.recvBuf.totalLen ∧
      (s₁.recvBuf.copyIn (some s.recvBuf.inCursor) xs).useCursor = s.recvBuf.useCursor ∧
      m'.length ≤ m.length := by
  obtain ⟨m', h', hio, hle⟩ := h.yield hside
  simp only [RecvSock.costBuff]
  generalize RecvSock.yield procRecv s = t at h' hio
  have hfree₀ := h.rep.free
  have hfree₁ := h'.rep.free
  have htotal := hio.totalLen
  have hin := hio.inCursor
  simp only [List.length_append] at hfree₀ hfree₁
  obtain ⟨hcopy, hwritten⟩ := h'.write hside
    (show (xs.length : Int) ≤ t.recvBuf.freeLen by omega) (by omega)
  have hread : Memory.read (t.recvBuf.copyIn (some t.recvBuf.inCursor) xs).mem
      (t.recvBuf.copyIn (some t.recvBuf.inCursor) xs).inCursor xs.length = xs := by
    rw [hcopy]
    exact Memory.read_write_same _ _ _
  have hroom : (xs.length : Int) ≤ (t.recvBuf.copyIn (some t.recvBuf.inCursor) xs).freeLen ∧
      (t.recvBuf.copyIn (some t.recvBuf.inCursor) xs).inCursor + (xs.length : Int) ≤
        (t.recvBuf.copyIn (some t.recvBuf.inCursor) xs).totalLen := by
    rw [hcopy]
    simp only
    omega
  have hgrown := hwritten.grow hpos hroom.1 hroom.2 hread (hgrow t _ h'.side hio.taken)
  obtain ⟨hcost, _⟩ := hwritten.rep.cost hpos hroom.1 hroom.2 hread
  have hring := FxLoopBuff.costBuff_copyIn t.recvBuf (some t.recvBuf.inCursor) xs xs.length
  simp only at hcost
  rw [hcost] at hring
  simp only [FxLoopBuff.costBuff_copyIn] at hgrown
  have hframe := hio.frame
  rw [← hin]
  refine ⟨m', _, rfl, hgrown, ⟨hframe.1, hframe.2, hframe.3, hframe.4, hframe.5⟩, ?_, ?_, hle⟩
  · simp only [← hring, hcopy]
    simpa using htotal
  · simp only [← hring, hcopy]
    simpa using hio.useCursor

theorem Holds.inCursorPtr (h : Holds X s m w part) (hside : MainSide procRecv X) :
    ∃ m' s', s.inCursorPtr procRecv = (s'.recvBuf.getInCursorPtr, s') ∧ Holds X s' m' w part ∧
      SameIo s s' ∧ m'.length ≤ m.length := by
  obtain ⟨m', h', hio, hle⟩ := h.yield hside
  exact ⟨m', _, rfl, h', hio, hle⟩

theorem Holds.useLen (h : Holds X s m w part) (hside : MainSide procRecv X) :
    ∃ m' s', s.useLen procRecv = ((w.length : Int), s') ∧ Holds X s' m' w part ∧ SameIo s s' := by
  obtain ⟨m', h', hio, _⟩ := h.yield hside
  refine ⟨m', _, ?_, h', hio⟩
  simp only [RecvSock.useLen, FxLoopBuff.getUseLen_eq h'.rep h'.marks]

/-- The region to be parsed: a prefix of the unmarked bytes, cut only by the end of the
block. -/
theorem Holds.usedCursorPtr (h : Holds X s m w part) (hside : MainSide procRecv X) :
    ∃ m' s' ptr, ∃ n : Nat, s.usedCursorPtr procRecv = (⟨ptr, n⟩, s') ∧ Holds X s' m' w part ∧
      SameIo s s' ∧ n ≤ w.length ∧ (0 < w.length → 0 < n ∧ ptr = some s.recvBuf.useCursor) ∧
      s.recvBuf.useCursor + n ≤ s.recvBuf.totalLen ∧
      (n < w.length → s.recvBuf.useCursor + n = s.recvBuf.totalLen) := by
  obtain ⟨m', h', hio, _⟩ := h.yield hside
  simp only [RecvSock.usedCursorPtr, ← hio.useCursor, ← hio.totalLen]
  generalize RecvSock.yield procRecv s = t at h' hio ⊢
  by_cases hw : w = []
  · subst hw
    have hzero := FxLoopBuff.getUsedCursorPtr_len_zero h'.rep h'.marks
    have hlt := h'.marks.use_lt
    refine ⟨m', t, t.recvBuf.getUsedCursorPtr.ptr, 0, ?_, h', hio, le_rfl, ?_, ?_, ?_⟩
    · rw [Nat.cast_zero, ← hzero]
    · intro hpos
      exact absurd hpos (by simp)
    · push_cast
      omega
    · intro hpos
      exact absurd hpos (by simp)
  · obtain ⟨n, hreg, hn, hle, hend, _, hcut⟩ :=
      FxLoopBuff.getUsedCursorPtr_eq h'.rep h'.marks hw
    exact ⟨m', t, _, n, by rw [hreg], h', hio, hle, fun _ => ⟨hn, rfl⟩, hend, hcut⟩

/-- The unmarked bytes up to the end of the block stand behind the use cursor. -/
theorem Holds.read_use (h : Holds X s m w part) {i n : Nat} (hn : i + n ≤ w.length)
    (hend : s.recvBuf.useCursor + ((i + n : Nat) : Int) ≤ s.recvBuf.totalLen) :
    Memory.read s.recvBuf.mem (s.recvBuf.useCursor + i) n = (w.drop i).take n := by
  have htot := h.rep.total_pos
  have huse := h.marks.use_lt
  have hread : Memory.read s.recvBuf.mem s.recvBuf.useCursor (i + n) = w.take (i + n) := by
    rw [← Memory.readRing_eq_read s.recvBuf.mem hend,
      ← Memory.readRing_take s.recvBuf.mem hn h.marks.use_nonneg huse (by omega),
      FxLoopBuff.readRing_useCursor h.rep h.marks]
  have hdrop := Memory.read_drop s.recvBuf.mem s.recvBuf.useCursor (Nat.le_add_right i n)
  rw [Nat.add_sub_cancel_left] at hdrop
  rw [← hdrop, hread, List.drop_take, Nat.add_sub_cancel_left]

/-- `CostUsedBuff` marks the next `n` bytes. -/
theorem Holds.costUsedBuff (h : Holds X s m w part) (hside : MainSide procRecv X) {n : Nat}
    (hpos : 0 < n) (hn : n ≤ w.length) :
    ∃ m' s', s.costUsedBuff procRecv n = (true, s') ∧
      Holds X s' (m' ++ w.take n) (w.drop n) (part + n) ∧ SameFrame s s' ∧
      s'.recvBuf.totalLen = s.recvBuf.totalLen ∧
      (s.recvBuf.useCursor + (n : Int) < s.recvBuf.totalLen →
        s'.recvBuf.useCursor = s.recvBuf.useCursor + n) ∧
      (s.recvBuf.useCursor + (n : Int) = s.recvBuf.totalLen → s'.recvBuf.useCursor = 0) := by
  obtain ⟨m', h', hio, _⟩ := h.yield hside
  simp only [RecvSock.costUsedBuff, ← hio.useCursor, ← hio.totalLen]
  generalize RecvSock.yield procRecv s = t at h' hio ⊢
  have hlen := h'.rep.length_le
  have hsmall := h'.small
  simp only [List.length_append] at hlen
  have hframe := hio.frame
  have huse := h'.marks.use_lt
  have huse0 := h'.marks.use_nonneg
  have hin := h'.rep.in_lt
  have hcost := FxLoopBuff.costUsedBuff_eq h'.rep h'.marks
    (show (0 : Int) < n by omega) (by omega)
    ⟨by omega, by omega⟩
  rw [Int.toNat_natCast] at hcost
  rw [hcost]
  refine ⟨m', { t with recvBuf := t.recvBuf.advanceUse n }, rfl, ⟨?_, ?_, ?_, ?_, ?_, ?_⟩,
    ⟨hframe.1, hframe.2, hframe.3, hframe.4, hframe.5⟩, by simp, ?_, ?_⟩
  · have hrep := h'.rep.advanceUse n
    rw [List.append_assoc, List.take_append_drop]
    exact hrep
  · rw [List.length_drop]
    exact h'.marks.advanceUse hin hn
  · simpa using h'.small
  · simp only
    rw [h'.taken, List.append_assoc, List.append_assoc, List.append_assoc,
      List.take_append_drop]
  · have hpend := h'.pending
    simp only [List.length_append, List.length_take]
    omega
  · exact hside.io _ _ rfl h'.side
  · intro hlt
    simp only [FxLoopBuff.advanceUse]
    rw [if_neg (by omega)]
  · intro heq
    have hst := h'.marks.straight
    simp only [FxLoopBuff.advanceUse]
    have hloop : t.recvBuf.useLoop = true := by
      by_contra hc
      have := hst (by simpa using hc)
      omega
    rw [if_pos ⟨hloop, by omega⟩]
    simp only
    omega

/-- For 0, or for more than there is, it refuses and changes nothing. -/
theorem Holds.costUsedBuff_refused (h : Holds X s m w part) (hside : MainSide procRecv X) {n : Int}
    (hn : n ≤ 0 ∨ (w.length : Int) < n) (hge : -1073741824 ≤ n) (hle : n ≤ 1073741824) :
    ∃ m' s', s.costUsedBuff procRecv n = (false, s') ∧ Holds X s' m' w part ∧ SameIo s s' := by
  obtain ⟨m', h', hio, _⟩ := h.yield hside
  simp only [RecvSock.costUsedBuff]
  generalize RecvSock.yield procRecv s = t at h' hio ⊢
  have hsmall := h'.small
  have huse := h'.marks.use_lt
  have huse0 := h'.marks.use_nonneg
  have hfits := h'.rep.total_fits
  have hcost := FxLoopBuff.costUsedBuff_refused h'.marks hn ⟨by omega, by omega⟩ h'.rep.in_nonneg
    ⟨by omega, hfits⟩
  exact ⟨m', t, by rw [hcost], h', hio⟩

end RecvSock
