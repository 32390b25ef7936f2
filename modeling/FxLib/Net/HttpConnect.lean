import FxLib.Net.Framing
import FxLib.Net.SendPipeline

/-!
# The HTTP exchange

`FxHttpConnect` receives straight into the session's buffer. It takes one `recv` for the whole
request and one `send` that is answered at all for the whole response; `epoll_ctl` does not fail.
-/

open MachineInt

/-- The sending half, and what the session has had from the receiving half. -/
structure HttpExchange where
  sendBuf : FxLoopBuff
  sending : Bool
  /-- `EPOLLOUT` is in the socket's event mask. -/
  armed : Bool
  /-- The length of the array that `GetRecvBuf()` points to. -/
  recvBufLen : Nat
  /-- What the session gave to `Send`, what of it was pushed, and what the kernel has. -/
  response : Option (List UInt8)
  pushed : List UInt8
  sent : List UInt8
  /-- Where terminating zeros were written. -/
  nuls : List Nat

namespace FxHttpConnect

abbrev Sock := RecvSock HttpExchange

def netSendError : Int := -4

def netCloseError : Int := -9

/-- What one `recv` of Linux moves at most. -/
def maxRwCount : Nat := 2147479552

/-- `__ProcRecv`, behind its test of the connection. -/
def procRecv (s : Sock) (c : FxConnection) (dwLen : Nat) : Sock :=
  { s with
    sessionBuf := Memory.write s.sessionBuf dwLen [0]
    header := { s.header with nuls := s.header.nuls ++ [dwLen] } }.connectionOnRecv c dwLen

/-- The kernel writes no more than it was offered. -/
def onRecv (ret : RecvRet) (s : Sock) : Sock :=
  if s.isConnected = false then s
  else
    match s.connection with
    | none => s
    | some c =>
      match ret with
      | .error errno =>
        let s := { s with errno := errno }
        if ret.Transient then s else s.fail errno
      | .data bytes =>
        let bytes := bytes.take (min (s.getRecvSize c) maxRwCount)
        if bytes.length = 0 then s.fail netEofError
        else
          { s with sessionBuf := Memory.write s.sessionBuf 0 bytes
                   taken := s.taken ++ bytes }.pushNetEvent .recv bytes.length

/-- `none` when the kernel would answer more than it was offered. A `PostSend` that fails leaves
the socket as it is. -/
def postSend (ret : SendRet) (s : Sock) : Option Sock :=
  let region := s.header.sendBuf.getOutCursorPtr
  if 0 ≥ region.len ∨ region.ptr = none then some (s.fail netSendError)
  else
    let nLen := if sndLowat < region.len then sndLowat else region.len
    let s := { s with header := { s.header with sending := true } }
    match ret with
    | .eagain => some { s with header := { s.header with armed := true } }
    | .error => some s
    | .count nRet =>
      if nRet < 0 ∨ nLen < nRet then none
      else if 0 = nRet then some s
      else
        let bytes := s.header.sendBuf.copyOut region.ptr nRet
        some ({ s with header := { s.header with sent := s.header.sent ++ bytes } }.fail
          netCloseError)

def onSend (ret : SendRet) (s : Sock) : Option Sock :=
  if s.isConnected = false then some s
  else postSend ret { s with header := { s.header with sending := false } }

/-- `Send` on the main thread. Nothing is ever discarded from the ring, so a `PushBuff` that is
refused is refused every time. -/
def send (pData : List UInt8) (s : Sock) : Sock :=
  let s := { s with header := { s.header with response := some pData } }
  if s.isConnected = false then s
  else
    let sendBuf := if s.header.sendBuf.isEmpty then s.header.sendBuf.clear else s.header.sendBuf
    let (ok, sendBuf) := sendBuf.pushBuff pData pData.length
    if ok then
      { s with header := { s.header with
          sendBuf := sendBuf, pushed := s.header.pushed ++ pData, armed := true } }
    else { s with header := { s.header with sendBuf := sendBuf } }

/-- The callbacks of the IO thread, the main thread with its events, and the session's answer. -/
inductive Op where
  | onRecv (ret : RecvRet)
  | onSend (ret : SendRet)
  | main
  | send (pData : List UInt8)

/-- A closed descriptor has left the epoll set. The session answers once. -/
def step (s : Sock) : Op → Option Sock
  | .onRecv ret => if s.sock then some (onRecv ret s) else none
  | .onSend ret => if s.sock ∧ s.header.armed then onSend ret s else none
  | .main => some (s.mainStep procRecv)
  | .send pData => if s.header.response = none then some (send pData s) else none

open RecvSock Framing

variable {R : List UInt8} {s s' : Sock} {greeting rest : List SNetEvent}

/-! ### The sending half -/

/-- The ring holds what was pushed until the socket is closed. -/
structure Answering (s : Sock) : Prop where
  ring : s.header.sendBuf.Rep s.header.pushed
  small : s.header.sendBuf.totalLen ≤ 1073741824
  pushed : s.header.pushed ≠ [] → s.header.response = some s.header.pushed
  armed : s.header.armed = true → s.header.pushed ≠ []
  running : s.state = .establish → s.sock = true ∧ s.header.sent = []
  closed : s.state ≠ .establish → s.sock = false ∧ s.header.response = some s.header.sent

/-- The receiving half sees at most that the socket is closed. -/
structure SendsOnly (s s' : Sock) : Prop where
  connection : s'.connection = s.connection
  sockId : s'.sockId = s.sockId
  sessionBuf : s'.sessionBuf = s.sessionBuf
  taken : s'.taken = s.taken
  received : s'.received = s.received
  recvBufLen : s'.header.recvBufLen = s.header.recvBufLen
  nuls : s'.header.nuls = s.header.nuls
  events : ∃ extra, s'.events = s.events ++ extra ∧
    ∀ e ∈ extra, e.eType = .error ∨ e.eType = .terminate

theorem fail_running (hstate : s.state = .establish) (hsock : s.sock = true) (dwValue : Int) :
    s.fail dwValue = { s with
      state := .close, sock := false
      events := s.events ++ [⟨.error, toUInt32 dwValue⟩, ⟨.terminate, 0⟩]
      announced := s.announced ++ [⟨.error, toUInt32 dwValue⟩, ⟨.terminate, 0⟩] } := by
  simp [RecvSock.fail, RecvSock.close, pushNetEvent, isConnected, hstate, hsock, toUInt32]

/-- The kernel has taken all that was pushed. -/
theorem Answering.taken (h : Answering s) (hstate : s.state = .establish)
    (hne : s.header.pushed ≠ []) {t : Sock}
    (ht : t = { s with header := { s.header with sending := true, sent := s.header.pushed } }) :
    Answering (t.fail netCloseError) ∧ SendsOnly s (t.fail netCloseError) := by
  subst ht
  have hsock := (h.running hstate).1
  rw [fail_running (by exact hstate) (by exact hsock)]
  exact ⟨⟨h.ring, h.small, h.pushed, h.armed, by simp, fun _ => ⟨rfl, h.pushed hne⟩⟩,
    ⟨rfl, rfl, rfl, rfl, rfl, rfl, rfl, _, rfl, by simp⟩⟩

/-- What is offered to the kernel is what was pushed, as far as it stands in one piece. -/
theorem Answering.postSend {ret : SendRet} (h : Answering s) (hstate : s.state = .establish)
    (hne : s.header.pushed ≠ [])
    (hret : ∀ n, ret = .count n → n ≤ 0 ∨ n = s.header.pushed.length)
    (hstep : postSend ret s = some s') : Answering s' ∧ SendsOnly s s' := by
  obtain ⟨n, hregion, hpos, hle, hend, hread⟩ := FxLoopBuff.getOutCursorPtr_eq h.ring hne
  obtain ⟨hsock, hsent⟩ := h.running hstate
  have hsome : ¬ (0 ≥ (n : Int) ∨ some s.header.sendBuf.outCursor = none) := by simp; omega
  simp only [FxHttpConnect.postSend, hregion, if_neg hsome] at hstep
  have hkeep : ∀ (sending armed : Bool), (armed = true → s.header.pushed ≠ []) →
      Answering { s with header := { s.header with sending := sending, armed := armed } } ∧
      SendsOnly s { s with header := { s.header with sending := sending, armed := armed } } :=
    fun sending armed harmed => ⟨⟨h.ring, h.small, h.pushed, harmed, h.running, h.closed⟩,
      ⟨rfl, rfl, rfl, rfl, rfl, rfl, rfl, [], by simp, by simp⟩⟩
  cases ret with
  | eagain =>
    obtain rfl := Option.some.inj hstep
    exact hkeep true true fun _ => hne
  | error =>
    obtain rfl := Option.some.inj hstep
    exact hkeep true s.header.armed h.armed
  | count nRet =>
    obtain ⟨nLen, hnLen⟩ : ∃ nLen, (if sndLowat < (n : Int) then sndLowat else n) = nLen := ⟨_, rfl⟩
    have hoffered : nLen ≤ n := by
      split_ifs at hnLen <;> omega
    simp only [hnLen] at hstep
    split_ifs at hstep with hbad hzero
    · obtain rfl := Option.some.inj hstep
      exact hkeep true s.header.armed h.armed
    · obtain rfl := Option.some.inj hstep
      have hwhole : nRet = s.header.pushed.length := by
        rcases hret nRet rfl with hnonpos | hwhole
        · omega
        · exact hwhole
      have hall : n = s.header.pushed.length := by omega
      have hcopy : s.header.sendBuf.copyOut (some s.header.sendBuf.outCursor) nRet =
          s.header.pushed := by
        simp only [FxLoopBuff.copyOut, hwhole, Int.toNat_natCast]
        rw [← hall, hread, hall, List.take_length]
      refine h.taken hstate hne ?_
      simp only [hcopy, hsent, List.nil_append]

theorem Answering.onSend {ret : SendRet} (h : Answering s) (harmed : s.header.armed = true)
    (hret : ∀ n, ret = .count n → n ≤ 0 ∨ n = s.header.pushed.length)
    (hstep : onSend ret s = some s') : Answering s' ∧ SendsOnly s s' := by
  simp only [FxHttpConnect.onSend] at hstep
  split_ifs at hstep with hconn
  · obtain rfl := Option.some.inj hstep
    exact ⟨h, ⟨rfl, rfl, rfl, rfl, rfl, rfl, rfl, [], by simp, by simp⟩⟩
  · have hstate : s.state = .establish := by simpa [isConnected] using hconn
    have hidle : Answering { s with header := { s.header with sending := false } } :=
      ⟨h.ring, h.small, h.pushed, h.armed, h.running, h.closed⟩
    obtain ⟨hnext, hframe⟩ := hidle.postSend hstate (h.armed harmed) hret hstep
    exact ⟨hnext, ⟨hframe.1, hframe.2, hframe.3, hframe.4, hframe.5, hframe.6, hframe.7, hframe.8⟩⟩

theorem Answering.send (h : Answering s) (hnone : s.header.response = none) (pData : List UInt8) :
    Answering (send pData s) ∧ SendsOnly s (send pData s) := by
  have hpushed : s.header.pushed = [] := by
    by_contra hne
    exact absurd (hnone.symm.trans (h.pushed hne)) (by simp)
  have hstate : s.state = .establish := by
    by_contra hne
    exact absurd (hnone.symm.trans (h.closed hne).2) (by simp)
  have hconn : ¬ RecvSock.isConnected { s with header :=
      { s.header with response := some pData } } = false := by simp [isConnected, hstate]
  have hring := h.ring
  rw [hpushed] at hring
  have hempty : s.header.sendBuf.isEmpty = true := by
    simpa [FxLoopBuff.isEmpty] using hring.isEmpty_iff.mpr rfl
  have hclear := hring.clear hempty
  have hsmall : s.header.sendBuf.clear.totalLen ≤ 1073741824 := h.small
  have hframe : ∀ header : HttpExchange, header.recvBufLen = s.header.recvBufLen →
      header.nuls = s.header.nuls → SendsOnly s { s with header := header } :=
    fun header hlen hnuls => ⟨rfl, rfl, rfl, rfl, rfl, hlen, hnuls, [], by simp, by simp⟩
  simp only [FxHttpConnect.send, if_neg hconn, hempty, if_true]
  by_cases hfits : 0 < (pData.length : Int) ∧ (pData.length : Int) ≤ s.header.sendBuf.clear.freeLen
  · have hlen := hclear.free
    obtain ⟨mem, hpush, hrep⟩ := hclear.pushBuff hfits.1 le_rfl hfits.2
      ⟨by simp [FxLoopBuff.clear], by simp [FxLoopBuff.clear]; omega⟩
    simp only [hpush, if_true]
    refine ⟨⟨?_, ?_, fun _ => ?_, fun _ => ?_, h.running, fun hne => absurd hstate hne⟩,
      hframe _ rfl rfl⟩
    · simpa [hpushed] using hrep
    · simpa using hsmall
    · simp [hpushed]
    · simpa [hpushed] using List.length_pos_iff.mp (by omega)
  · have hrefused : (pData.length : Int) ≤ 0 ∨ s.header.sendBuf.clear.freeLen < pData.length := by
      omega
    simp only [FxLoopBuff.pushBuff_refused pData hrefused, Bool.false_eq_true, if_false]
    refine ⟨⟨?_, hsmall, fun hne => absurd hpushed hne, h.armed, h.running,
      fun hne => absurd hstate hne⟩, hframe _ rfl rfl⟩
    simpa [hpushed] using hclear

/-! ### The receiving half -/

/-- The main thread has `greeting` before it, and `rest` behind that. -/
structure Greets (greeting rest : List SNetEvent) (s : Sock) : Prop where
  connection : ∃ c, s.connection = some c ∧ c.id = s.sockId ∧ c.session = true ∧
    Greeting c.connStat greeting
  events : s.events = greeting ++ rest
  plain : ∀ e ∈ rest, e.eType ≠ .associate ∧ e.eType ≠ .establish

/-- The session's buffer holds the request and has room for the zero behind it. -/
structure Buffered (R : List UInt8) (s : Sock) : Prop where
  room : R.length < s.header.recvBufLen
  read : Memory.read s.sessionBuf 0 R.length = R
  received : s.received = []
  nuls : s.header.nuls = []

/-- No event hands anything to the session. -/
def Quiet (s : Sock) : Prop := ∃ greeting rest, Greets greeting rest s ∧ recvLens rest = []

/-- The main thread hands the request over when it has processed `n` events. -/
structure Announced (R : List UInt8) (n : Nat) (s : Sock) : Prop where
  queue : ∃ greeting before behind, greeting.length + before.length = n ∧
    Greets greeting (before ++ ⟨.recv, R.length⟩ :: behind) s ∧ recvLens before = [] ∧
    recvLens behind = []
  buffered : Buffered R s
  taken : s.taken ≠ []

structure Handed (R : List UInt8) (s : Sock) : Prop where
  quiet : Quiet s
  received : s.received = [R]
  room : R.length < s.header.recvBufLen
  nuls : s.header.nuls = [R.length]
  taken : s.taken ≠ []

inductive Receiving (R : List UInt8) (s : Sock) : Prop
  | waiting (quiet : Quiet s) (taken : s.taken = []) (received : s.received = [])
      (nuls : s.header.nuls = [])
  | announced {n : Nat} (h : Announced R n s)
  | handed (h : Handed R s)

theorem Buffered.same (h : Buffered R s) (hbuf : s'.sessionBuf = s.sessionBuf)
    (hlen : s'.header.recvBufLen = s.header.recvBufLen) (hnuls : s'.header.nuls = s.header.nuls)
    (hreceived : s'.received = s.received) : Buffered R s' :=
  ⟨hlen ▸ h.room, hbuf ▸ h.read, hreceived.trans h.received, hnuls.trans h.nuls⟩

/-! ### The main thread -/

/-- The first event of a greeting changes the connection only. -/
theorem Greets.greet (h : Greets greeting rest s) (hne : greeting ≠ []) :
    ∃ connection greeting', greeting'.length + 1 = greeting.length ∧
      mainStep procRecv s = { s with events := greeting' ++ rest, connection := connection } ∧
      Greets greeting' rest { s with events := greeting' ++ rest, connection := connection } := by
  obtain ⟨c, hc, hid, hsession, hgreeting⟩ := h.connection
  generalize hstat : c.connStat = stat at hgreeting
  cases hgreeting with
  | ok => exact absurd rfl hne
  | associate v =>
    have hconn : c.onConnect.1 = { c with connStat := .ok } := by
      simp [FxConnection.onConnect, hstat, hsession]
    refine ⟨some c.onConnect.1, [], rfl, ?_, ⟨_, rfl, ?_, ?_, ?_⟩, rfl, h.plain⟩
    · simp only [mainStep, h.events, List.cons_append, List.nil_append, procEvent, procEstablish,
        hc, hid, ne_eq, not_true_eq_false, if_false]
    all_goals rw [hconn]
    · exact hid
    · exact hsession
    · exact .ok
  | conn v v' | none v v' =>
    have hconn : c.onAssociate.1 = { c with connStat := .associate } := by
      simp [FxConnection.onAssociate, hstat]
    refine ⟨some c.onAssociate.1, [⟨.establish, v'⟩], rfl, ?_, ⟨_, rfl, ?_, ?_, ?_⟩, rfl, h.plain⟩
    · simp only [mainStep, h.events, List.cons_append, List.nil_append, procEvent, procAssociate,
        hc, hid, ne_eq, not_true_eq_false, if_false]
    all_goals rw [hconn]
    · exact hid
    · exact hsession
    · exact .associate v'

/-- An event of the sending half changes nothing. -/
theorem Greets.pass {e : SNetEvent} (h : Greets [] (e :: rest) s) (he : e.eType ≠ .recv) :
    ∃ extra announced, recvLens extra = [] ∧
      mainStep procRecv s = { s with events := rest ++ extra, announced := announced } ∧
      Greets [] (rest ++ extra) { s with events := rest ++ extra, announced := announced } := by
  have hevents : s.events = e :: rest := h.events
  obtain ⟨hassociate, hestablish⟩ := h.plain e List.mem_cons_self
  have hplain : ∀ e ∈ rest, e.eType ≠ .associate ∧ e.eType ≠ .establish := fun e he =>
    h.plain e (List.mem_cons_of_mem _ he)
  cases htype : e.eType with
  | recv => exact absurd htype he
  | associate => exact absurd htype hassociate
  | establish => exact absurd htype hestablish
  | terminate =>
    refine ⟨[⟨.release, 0⟩], s.announced ++ [⟨.release, 0⟩], rfl, ?_, h.connection, rfl, ?_⟩
    · simp only [mainStep, hevents, procEvent, htype, procTerminate, pushNetEvent]
      rfl
    · intro e he
      rcases List.mem_append.mp he with he | he
      · exact hplain e he
      · simp [List.mem_singleton.mp he]
  | recvPackageError | connErr | error | release =>
    refine ⟨[], s.announced, rfl, ?_, h.connection, rfl, by simpa using hplain⟩
    simp only [mainStep, hevents, procEvent, htype, List.append_nil]

/-- One event nearer to what stands behind `before`. -/
theorem Greets.next {before behind : List SNetEvent} (h : Greets greeting (before ++ behind) s)
    (hquiet : recvLens before = []) (hpos : 0 < greeting.length + before.length) :
    ∃ events connection announced greeting' before' extra,
      greeting'.length + before'.length + 1 = greeting.length + before.length ∧
      recvLens before' = [] ∧ recvLens extra = [] ∧
      mainStep procRecv s = { s with
        events := events, connection := connection, announced := announced } ∧
      Greets greeting' (before' ++ (behind ++ extra))
        { s with events := events, connection := connection, announced := announced } := by
  by_cases hne : greeting = []
  · subst hne
    cases before with
    | nil => exact absurd hpos (by simp)
    | cons e before =>
      obtain ⟨he, hquiet'⟩ := quiet_cons hquiet
      obtain ⟨extra, announced, hextra, hstep, hgreets⟩ := h.pass he
      exact ⟨_, s.connection, announced, [], before, extra, by simp, hquiet', hextra, hstep,
        by simpa using hgreets⟩
  · obtain ⟨connection, greeting', hlen, hstep, hgreets⟩ := h.greet hne
    exact ⟨_, connection, s.announced, greeting', before, [], by omega, hquiet, rfl, hstep,
      by simpa using hgreets⟩

theorem Quiet.mainStep (h : Quiet s) : ∃ events connection announced,
    mainStep procRecv s = { s with
      events := events, connection := connection, announced := announced } ∧
    Quiet { s with events := events, connection := connection, announced := announced } := by
  obtain ⟨greeting, rest, hgreets, hquiet⟩ := h
  rcases Nat.eq_zero_or_pos (greeting.length + rest.length) with hzero | hpos
  · obtain rfl : greeting = [] := List.eq_nil_of_length_eq_zero (by omega)
    obtain rfl : rest = [] := List.eq_nil_of_length_eq_zero (by omega)
    have hevents : s.events = [] := hgreets.events
    have hstep : RecvSock.mainStep procRecv s = s := by simp only [RecvSock.mainStep, hevents]
    exact ⟨s.events, s.connection, s.announced, hstep, [], [], hgreets, rfl⟩
  · rw [← List.append_nil rest] at hgreets
    obtain ⟨events, connection, announced, greeting', before', extra, -, hbefore, hextra, hstep,
      hnext⟩ := hgreets.next hquiet hpos
    exact ⟨events, connection, announced, hstep, greeting', _, hnext, by simp [hbefore, hextra]⟩

theorem Announced.next {n : Nat} (h : Announced R (n + 1) s) :
    Announced R n (mainStep procRecv s) := by
  obtain ⟨greeting, before, behind, hlen, hgreets, hbefore, hbehind⟩ := h.queue
  obtain ⟨events, connection, announced, greeting', before', extra, hlen', hbefore', hextra, hstep,
    hnext⟩ := hgreets.next hbefore (by omega)
  rw [hstep]
  exact ⟨⟨greeting', before', behind ++ extra, by omega, hnext, hbefore',
    by simp [hbehind, hextra]⟩, h.buffered.same rfl rfl rfl rfl, h.taken⟩

/-- The zero goes behind the request. -/
theorem Announced.hand (h : Announced R 0 s) : Handed R (mainStep procRecv s) := by
  obtain ⟨greeting, before, behind, hlen, hgreets, -, hbehind⟩ := h.queue
  obtain rfl : greeting = [] := List.eq_nil_of_length_eq_zero (by omega)
  obtain rfl : before = [] := List.eq_nil_of_length_eq_zero (by omega)
  obtain ⟨c, hc, hid, hsession, hgreeting⟩ := hgreets.connection
  have hevents : s.events = ⟨.recv, R.length⟩ :: behind := hgreets.events
  have hok : c.connStat = .ok := by
    generalize c.connStat = stat at hgreeting
    cases hgreeting
    rfl
  have hread : Memory.read (Memory.write s.sessionBuf R.length [0]) 0 R.length = R := by
    rw [Memory.read_write_disjoint _ _ (Or.inl (by omega)), h.buffered.read]
  have honrecv : (c.onRecv R.length).2 ≠ [] := by simp [FxConnection.onRecv, hsession, hok]
  have hstep : RecvSock.mainStep procRecv s = { s with
      events := behind, sessionBuf := Memory.write s.sessionBuf R.length [0], received := [R]
      header := { s.header with nuls := [R.length] } } := by
    simp only [RecvSock.mainStep, hevents, procEvent, hc, procRecv, connectionOnRecv,
      if_neg honrecv, hread, h.buffered.received, h.buffered.nuls, List.nil_append]
  rw [hstep]
  refine ⟨⟨[], behind, ⟨⟨c, hc, hid, hsession, hgreeting⟩, rfl, fun e he => ?_⟩, hbehind⟩, rfl,
    h.buffered.room, rfl, h.taken⟩
  exact hgreets.plain e (by simp [he])

theorem Handed.mainStep (h : Handed R s) : Handed R (mainStep procRecv s) := by
  obtain ⟨events, connection, announced, hstep, hquiet⟩ := h.quiet.mainStep
  rw [hstep]
  exact ⟨hquiet, h.received, h.room, h.nuls, h.taken⟩

theorem Receiving.mainStep (h : Receiving R s) : Receiving R (mainStep procRecv s) := by
  cases h with
  | waiting quiet taken received nuls =>
    obtain ⟨events, connection, announced, hstep, hquiet⟩ := quiet.mainStep
    rw [hstep]
    exact .waiting hquiet taken received nuls
  | announced h =>
    rename_i n
    cases n with
    | zero => exact .handed h.hand
    | succ n => exact .announced h.next
  | handed h => exact .handed h.mainStep

/-- The main thread gets to the request. -/
theorem Announced.soon {n : Nat} (h : Announced R n s) :
    ∃ k, ((RecvSock.mainStep procRecv)^[k] s).received = [R] := by
  induction n generalizing s with
  | zero => exact ⟨1, h.hand.received⟩
  | succ n ih =>
    obtain ⟨k, hk⟩ := ih h.next
    exact ⟨k + 1, hk⟩

/-! ### The callbacks of the IO thread -/

/-- More events stand behind those that the main thread has before it. -/
theorem Greets.sendsOnly (h : Greets greeting rest s) (hframe : SendsOnly s s') :
    ∃ extra, recvLens extra = [] ∧ Greets greeting (rest ++ extra) s' := by
  obtain ⟨extra, hevents, hextra⟩ := hframe.events
  refine ⟨extra, quiet_of_forall fun e he => ?_, ?_, ?_, ?_⟩
  · rcases hextra e he with htype | htype <;> simp [htype]
  · rw [hframe.connection, hframe.sockId]
    exact h.connection
  · rw [hevents, h.events, List.append_assoc]
  · intro e he
    rcases List.mem_append.mp he with he | he
    · exact h.plain e he
    · rcases hextra e he with htype | htype <;> simp [htype]

theorem Quiet.sendsOnly (h : Quiet s) (hframe : SendsOnly s s') : Quiet s' := by
  obtain ⟨greeting, rest, hgreets, hquiet⟩ := h
  obtain ⟨extra, hextra, hgreets'⟩ := hgreets.sendsOnly hframe
  exact ⟨greeting, _, hgreets', by simp [hquiet, hextra]⟩

theorem Receiving.sendsOnly (h : Receiving R s) (hframe : SendsOnly s s') : Receiving R s' := by
  cases h with
  | waiting quiet taken received nuls =>
    exact .waiting (quiet.sendsOnly hframe) (hframe.taken.trans taken)
      (hframe.received.trans received) (hframe.nuls.trans nuls)
  | announced h =>
    obtain ⟨greeting, before, behind, hlen, hgreets, hbefore, hbehind⟩ := h.queue
    obtain ⟨extra, hextra, hgreets'⟩ := hgreets.sendsOnly hframe
    refine .announced ⟨⟨greeting, before, behind ++ extra, hlen, by simpa using hgreets', hbefore,
      by simp [hbehind, hextra]⟩, ?_, hframe.taken ▸ h.taken⟩
    exact h.buffered.same hframe.sessionBuf hframe.recvBufLen hframe.nuls hframe.received
  | handed h =>
    exact .handed ⟨h.quiet.sendsOnly hframe, hframe.received.trans h.received,
      hframe.recvBufLen ▸ h.room, hframe.nuls.trans h.nuls, hframe.taken ▸ h.taken⟩

/-- The whole request comes with the first answer of `recv`. -/
theorem Receiving.onRecv (h : Receiving R s) (hstate : s.state = .establish) (hne : R ≠ [])
    (htaken : s.taken = []) (hsize : R.length ≤ min s.sessionSize maxRwCount)
    (hroom : R.length < s.header.recvBufLen) :
    onRecv (.data R) s = RecvSock.pushNetEvent { s with
      sessionBuf := Memory.write s.sessionBuf 0 R, taken := R } .recv R.length ∧
    Receiving R (onRecv (.data R) s) := by
  cases h with
  | waiting quiet taken received nuls =>
    obtain ⟨greeting, rest, hgreets, hquiet⟩ := quiet
    obtain ⟨c, hc, hid, hsession, hgreeting⟩ := hgreets.connection
    have hcap : R.take (min (s.getRecvSize c) maxRwCount) = R := by
      rw [getRecvSize, if_pos hsession]
      exact List.take_of_length_le hsize
    have hpos : R.length ≠ 0 := fun h0 => hne (List.eq_nil_of_length_eq_zero h0)
    have hcast : toUInt32 (R.length : Int) = R.length := by
      have hmax : R.length ≤ 2147479552 := hsize.trans (Nat.min_le_right _ _)
      simp only [toUInt32]
      omega
    have hstep : FxHttpConnect.onRecv (.data R) s = RecvSock.pushNetEvent { s with
        sessionBuf := Memory.write s.sessionBuf 0 R, taken := R } .recv R.length := by
      simp only [FxHttpConnect.onRecv, isConnected, hstate, decide_true, Bool.true_eq_false,
        if_false, hc, hcap, if_neg hpos, taken, List.nil_append]
    refine ⟨hstep, ?_⟩
    rw [hstep]
    refine .announced ⟨⟨greeting, rest, [], rfl, ⟨⟨c, hc, hid, hsession, hgreeting⟩, ?_, ?_⟩,
      hquiet, rfl⟩, ⟨hroom, Memory.read_write_same _ _ _, received, nuls⟩, hne⟩
    · simp [pushNetEvent, hgreets.events, hcast]
    · intro e he
      rcases List.mem_append.mp he with he | he
      · exact hgreets.plain e he
      · simp [List.mem_singleton.mp he]
  | announced h => exact absurd htaken h.taken
  | handed h => exact absurd htaken h.taken

/-! ### Runs -/

/-- An accepted socket. -/
structure Begins (s : Sock) : Prop where
  fresh : Fresh s
  sock : s.sock = true
  ring : s.header.sendBuf.Rep []
  small : s.header.sendBuf.totalLen ≤ 1073741824
  armed : s.header.armed = false
  response : s.header.response = none
  pushed : s.header.pushed = []
  sent : s.header.sent = []
  nuls : s.header.nuls = []

/-- The first `recv` that is not to be tried again brings the whole request, with room for the
zero behind it; the first `send` that takes anything takes the whole response. -/
def Whole (R : List UInt8) (s : Sock) : Op → Prop
  | .onRecv (.data bytes) => s.state ≠ .establish ∨ bytes = R ∧ R ≠ [] ∧ s.taken = [] ∧
      R.length ≤ min s.sessionSize maxRwCount ∧ R.length < s.header.recvBufLen
  | .onRecv (.error errno) => s.state ≠ .establish ∨ RecvRet.Transient (.error errno)
  | .onSend (.count nRet) => nRet ≤ 0 ∨ nRet = s.header.pushed.length
  | .onSend .eagain | .onSend .error | .main | .send _ => True

instance (R : List UInt8) (s : Sock) : (op : Op) → Decidable (Whole R s op)
  | .onRecv (.data _) => inferInstanceAs (Decidable (_ ∨ _ ∧ _))
  | .onRecv (.error _) => inferInstanceAs (Decidable (_ ∨ _))
  | .onSend (.count _) => inferInstanceAs (Decidable (_ ∨ _))
  | .onSend .eagain => inferInstanceAs (Decidable True)
  | .onSend .error => inferInstanceAs (Decidable True)
  | .main => inferInstanceAs (Decidable True)
  | .send _ => inferInstanceAs (Decidable True)

/-- The request reaches the session once and as a whole, no zero is written outside its buffer, and
the socket is closed only when the kernel has the whole response. -/
structure Intact (R : List UInt8) (s : Sock) : Prop where
  once : s.received = [] ∨ s.received = [R]
  handed : s.taken ≠ [] → ∃ k, ((RecvSock.mainStep procRecv)^[k] s).received = [R]
  inside : ∀ i ∈ s.header.nuls, i < s.header.recvBufLen
  closed : s.state ≠ .establish → s.header.response = some s.header.sent

structure Kept (R : List UInt8) (s : Sock) : Prop where
  answering : Answering s
  receiving : Receiving R s

theorem Begins.kept (h : Begins s) (R : List UInt8) : Kept R s := by
  obtain ⟨c, hc, hid, hsession, hgreeting⟩ := h.fresh.connection
  refine ⟨⟨?_, h.small, fun hne => absurd h.pushed hne, fun harmed => ?_,
    fun _ => ⟨h.sock, h.sent⟩, fun hne => absurd h.fresh.state hne⟩,
    .waiting ⟨s.events, [], ⟨⟨c, hc, hid, hsession, hgreeting⟩, (List.append_nil _).symm, ?_⟩, rfl⟩
      h.fresh.taken h.fresh.received h.nuls⟩
  · rw [h.pushed]
    exact h.ring
  · rw [h.armed] at harmed
    cases harmed
  · simp

/-- The main thread's events do not touch the sending half. -/
theorem mainStep_same (s : Sock) : ∃ events connection announced sessionBuf received nuls,
    mainStep procRecv s = { s with
      events := events, connection := connection, announced := announced
      sessionBuf := sessionBuf, received := received
      header := { s.header with nuls := nuls } } := by
  simp only [mainStep]
  split
  · exact ⟨s.events, s.connection, s.announced, s.sessionBuf, s.received, s.header.nuls, rfl⟩
  · rename_i e events _
    simp only [procEvent]
    split
    · split
      · exact ⟨events, s.connection, s.announced, s.sessionBuf, s.received, s.header.nuls, rfl⟩
      · simp only [procRecv, connectionOnRecv]
        split_ifs
        · exact ⟨events, s.connection, s.announced, _, s.received, _, rfl⟩
        · exact ⟨events, s.connection, s.announced, _, _, _, rfl⟩
    · simp only [procEstablish]
      split
      · exact ⟨events, s.connection, s.announced, s.sessionBuf, s.received, s.header.nuls, rfl⟩
      · split_ifs
        · exact ⟨events, s.connection, s.announced, s.sessionBuf, s.received, s.header.nuls, rfl⟩
        · exact ⟨events, _, s.announced, s.sessionBuf, s.received, s.header.nuls, rfl⟩
    · simp only [procAssociate]
      split
      · exact ⟨events, s.connection, s.announced, s.sessionBuf, s.received, s.header.nuls, rfl⟩
      · split_ifs
        · exact ⟨events, s.connection, s.announced, s.sessionBuf, s.received, s.header.nuls, rfl⟩
        · exact ⟨events, _, s.announced, s.sessionBuf, s.received, s.header.nuls, rfl⟩
    · exact ⟨_, s.connection, _, s.sessionBuf, s.received, s.header.nuls, rfl⟩
    all_goals exact ⟨events, s.connection, s.announced, s.sessionBuf, s.received, s.header.nuls,
      rfl⟩

theorem Answering.mainStep (h : Answering s) : Answering (mainStep procRecv s) := by
  obtain ⟨events, connection, announced, sessionBuf, received, nuls, hstep⟩ := mainStep_same s
  rw [hstep]
  exact ⟨h.ring, h.small, h.pushed, h.armed, h.running, h.closed⟩

/-- A socket that is closed, or has nothing to receive yet. -/
theorem onRecv_idle {ret : RecvRet} (h : s.state ≠ .establish ∨ ret.Transient) :
    ∃ errno, onRecv ret s = { s with errno := errno } := by
  by_cases hconn : s.isConnected = false
  · exact ⟨s.errno, by simp only [FxHttpConnect.onRecv, if_pos hconn]⟩
  · have hstate : s.state = .establish := by simpa [isConnected] using hconn
    have htrans : ret.Transient := h.resolve_left (not_not_intro hstate)
    cases ret with
    | data bytes => exact htrans.elim
    | error errno =>
      cases hc : s.connection with
      | none =>
        refine ⟨s.errno, ?_⟩
        simp only [FxHttpConnect.onRecv, if_neg hconn, hc]
        rw [← hc]
      | some c =>
        exact ⟨errno, by simp only [FxHttpConnect.onRecv, if_neg hconn, hc, if_pos htrans]⟩

theorem Kept.errno (h : Kept R s) (errno : Nat) : Kept R { s with errno := errno } :=
  ⟨⟨h.answering.ring, h.answering.small, h.answering.pushed, h.answering.armed, h.answering.running,
    h.answering.closed⟩,
    h.receiving.sendsOnly ⟨rfl, rfl, rfl, rfl, rfl, rfl, rfl, [], by simp, by simp⟩⟩

theorem Kept.onRecv {ret : RecvRet} (h : Kept R s) (hwhole : Whole R s (.onRecv ret)) :
    Kept R (onRecv ret s) := by
  have hidle : s.state ≠ .establish ∨ ret.Transient → Kept R (FxHttpConnect.onRecv ret s) := by
    intro hskip
    obtain ⟨errno, hstep⟩ := onRecv_idle hskip
    rw [hstep]
    exact h.errno errno
  cases ret with
  | error errno => exact hidle hwhole
  | data bytes =>
    by_cases hstate : s.state = .establish
    · obtain ⟨rfl, hne, htaken, hsize, hroom⟩ := hwhole.resolve_left (not_not_intro hstate)
      obtain ⟨hstep, hreceiving⟩ := h.receiving.onRecv hstate hne htaken hsize hroom
      refine ⟨?_, hreceiving⟩
      rw [hstep]
      exact ⟨h.answering.ring, h.answering.small, h.answering.pushed, h.answering.armed,
        h.answering.running, h.answering.closed⟩
    · exact hidle (Or.inl hstate)

theorem Kept.step {op : Op} (h : Kept R s) (hwhole : Whole R s op) (hstep : step s op = some s') :
    Kept R s' := by
  cases op with
  | onRecv ret =>
    simp only [FxHttpConnect.step] at hstep
    split_ifs at hstep
    obtain rfl := Option.some.inj hstep
    exact h.onRecv hwhole
  | onSend ret =>
    simp only [FxHttpConnect.step] at hstep
    split_ifs at hstep with harmed
    have hret : ∀ n, ret = .count n → n ≤ 0 ∨ n = s.header.pushed.length := by
      rintro n rfl
      exact hwhole
    obtain ⟨hanswering, hframe⟩ := h.answering.onSend harmed.2 hret hstep
    exact ⟨hanswering, h.receiving.sendsOnly hframe⟩
  | main =>
    obtain rfl := Option.some.inj hstep
    exact ⟨h.answering.mainStep, h.receiving.mainStep⟩
  | send pData =>
    simp only [FxHttpConnect.step] at hstep
    split_ifs at hstep with hnone
    obtain rfl := Option.some.inj hstep
    obtain ⟨hanswering, hframe⟩ := h.answering.send hnone pData
    exact ⟨hanswering, h.receiving.sendsOnly hframe⟩

theorem Kept.intact (h : Kept R s) : Intact R s := by
  have hclosed := fun hne => (h.answering.closed hne).2
  cases h.receiving with
  | waiting quiet taken received nuls =>
    exact ⟨Or.inl received, fun hne => absurd taken hne, by simp [nuls], hclosed⟩
  | announced h =>
    exact ⟨Or.inl h.buffered.received, fun _ => h.soon, by simp [h.buffered.nuls], hclosed⟩
  | handed h =>
    refine ⟨Or.inr h.received, fun _ => ⟨0, h.received⟩, ?_, hclosed⟩
    simpa [h.nuls] using h.room

/-- Over every interleaving of the callbacks and the main thread in which the request is received
whole and the response is taken whole. -/
theorem exchange_intact {ops : List Op} {s₀ : Sock} (hbegin : Begins s₀)
    (hwhole : Transition.Always step (Whole R) s₀ ops)
    (hrun : Transition.run step s₀ ops = some s) : Intact R s :=
  (Transition.invariant_of_always (fun _ _ _ h hgood hstep => h.step hgood hstep) (hbegin.kept R)
    hwhole hrun).intact

/-- A session with an array of `recvBufLen` bytes and a ring of 16 bytes for the response. -/
def exchange (recvBufLen : Nat) : HttpExchange :=
  { sendBuf := (FxLoopBuff.new.init 16 (some fun _ => 0)).2, sending := false, armed := false
    recvBufLen := recvBufLen, response := none, pushed := [], sent := [], nuls := [] }

theorem begins_accepted (recvBufLen dwRecvSize : Nat) :
    Begins (accepted (exchange recvBufLen) 16 dwRecvSize) := by
  have hinit : (FxLoopBuff.new.init 16 (some fun _ => 0)).1 = true := by decide
  obtain ⟨hrep, -, htotal⟩ :=
    FxLoopBuff.init_rep FxLoopBuff.new (show (0 : Int) < 16 by omega) ⟨by omega, by omega⟩ hinit
  refine ⟨fresh_accepted _ (show (0 : Int) < 16 by omega) (by omega) _, rfl, hrep, ?_, rfl, rfl,
    rfl, rfl, rfl⟩
  exact htotal.trans_le (by omega)

/-- One segment each way, behind transient errors. -/
theorem exchange_intact_one_segment :
    ∃ s, Transition.run step (accepted (exchange 4) 16 4)
        [.main, .main, .onRecv (.error eagain), .onRecv (.data [71, 69, 84]), .main,
          .send [72, 105], .onSend .eagain, .onSend (.count 2)] = some s ∧
      s.state = .close ∧ Intact [71, 69, 84] s := by
  have hwhole : Transition.Always step (Whole [71, 69, 84]) (accepted (exchange 4) 16 4)
      [.main, .main, .onRecv (.error eagain), .onRecv (.data [71, 69, 84]), .main, .send [72, 105],
        .onSend .eagain, .onSend (.count 2)] := by
    decide +kernel
  have hstate : (Transition.run step (accepted (exchange 4) 16 4)
      [.main, .main, .onRecv (.error eagain), .onRecv (.data [71, 69, 84]), .main, .send [72, 105],
        .onSend .eagain, .onSend (.count 2)]).map (fun s => s.state) = some .close := by
    decide +kernel
  obtain ⟨s, hrun, hs⟩ := Option.map_eq_some_iff.mp hstate
  exact ⟨s, hrun, hs, exchange_intact (begins_accepted 4 4) hwhole hrun⟩

/-- The two pieces of a request are handed over as two requests, and the socket is closed when the
kernel has two of the three bytes of the response. Where a request fills the buffer, its zero stands
behind the end. -/
theorem exchange_cut_short :
    (∃ s, Transition.run step (accepted (exchange 8) 16 8)
        [.main, .main, .onRecv (.data [71, 69, 84]), .main, .onRecv (.data [32, 47]), .main,
          .send [72, 105, 33], .onSend (.count 2)] = some s ∧
      s.received = [[71, 69, 84], [32, 47]] ∧ s.state = .close ∧
      s.header.response = some [72, 105, 33] ∧ s.header.sent = [72, 105] ∧
      ∀ R, ¬ Intact R s) ∧
    ∃ s, Transition.run step (accepted (exchange 3) 16 3)
        [.main, .main, .onRecv (.data [71, 69, 84]), .main] = some s ∧
      s.header.nuls = [3] ∧ s.header.recvBufLen = 3 := by
  have hcut : (Transition.run step (accepted (exchange 8) 16 8)
      [.main, .main, .onRecv (.data [71, 69, 84]), .main, .onRecv (.data [32, 47]), .main,
        .send [72, 105, 33], .onSend (.count 2)]).map
        (fun s => (s.received, s.state, s.header.response, s.header.sent)) =
      some ([[71, 69, 84], [32, 47]], .close, some [72, 105, 33], [72, 105]) := by
    decide +kernel
  have hfull : (Transition.run step (accepted (exchange 3) 16 3)
      [.main, .main, .onRecv (.data [71, 69, 84]), .main]).map
        (fun s => (s.header.nuls, s.header.recvBufLen)) = some ([3], 3) := by
    decide +kernel
  obtain ⟨s, hrun, hs⟩ := Option.map_eq_some_iff.mp hcut
  obtain ⟨s', hrun', hs'⟩ := Option.map_eq_some_iff.mp hfull
  simp only [Prod.mk.injEq] at hs hs'
  refine ⟨⟨s, hrun, hs.1, hs.2.1, hs.2.2.1, hs.2.2.2, fun R h => ?_⟩, s', hrun', hs'⟩
  have hclosed := h.closed (by simp [hs.2.1])
  rw [hs.2.2.1, hs.2.2.2] at hclosed
  exact absurd hclosed (by decide)

end FxHttpConnect
