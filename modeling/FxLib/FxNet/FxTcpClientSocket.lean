import FxLib.FxNet.DataBuffer

/-!
# The receive pipeline of the C# client

The receive callback of `FxTcpClientSocket` moves bytes into the receive buffer and whole frames on
into the session buffer, and announces each with an event. The main thread runs the events: it shows
the session the bytes and cuts them off. The buffers and the queue have locks of their own, so what
stands between two of them may be interleaved with the other thread. The test in front of the lock
of `PushData` is a step of its own, and so is that of `PopData`.
-/

open MachineInt

namespace FxNet

/-- Where the receive callback stands. -/
inductive RecvPc where
  /-- No receive is outstanding. -/
  | none
  | receiving (dwSize : Nat)
  /-- At the top of the loop of `OnRecv`. -/
  | parsing
  /-- In `PushData` of the session buffer, behind the test. -/
  | copying (iLength : Nat)
  /-- The frame has left the receive buffer. -/
  | announcing (iLength : Nat)
  deriving DecidableEq

/-- Where the main thread stands in `ProcEvent`. -/
inductive RunPc where
  | idle
  /-- In `m_pSession.OnRecv`, which has looked at the bytes `seen`. -/
  | reading (dwLen : Nat) (seen : List UInt8)
  | popping (dwLen : Nat)
  /-- In `PopData`, behind the test. -/
  | cutting (dwLen : Nat)
  deriving DecidableEq

def RecvPc.due : RecvPc → List Nat
  | .announcing iLength => [iLength]
  | _ => []

def RunPc.due : RunPc → List Nat
  | .idle => []
  | .reading dwLen _ | .popping dwLen | .cutting dwLen => [dwLen]

/-- How many of the frames at the front of the session buffer the session has been given. -/
def RunPc.handed : RunPc → Nat
  | .popping _ | .cutting _ => 1
  | _ => 0

@[simp] theorem RecvPc.due_none : RecvPc.none.due = [] := rfl

@[simp] theorem RecvPc.due_announcing (iLength : Nat) :
    (RecvPc.announcing iLength).due = [iLength] := rfl

@[simp] theorem RunPc.due_idle : RunPc.idle.due = [] := rfl

inductive RecvStep where
  | asynReceive
  | endReceive (bytesRead : Nat)
  | parse
  | copy
  | announce
  /-- The connection breaks under the receive. -/
  | reset (dwErrorCode : Nat)
  /-- `Disconnect` of the IO thread, for a session that has been closed. -/
  | disconnect
  | run
  | procEvent
  | read (k : Nat)
  | hand
  | testPop
  | cut

/-- The socket with the part of `FxNetModule`'s queue that is about it. -/
structure FxTcpClientSocket where
  recvBuffer : DataBuffer
  sessionBuffer : DataBuffer
  /-- `m_hSocket` is there and connected. -/
  connected : Bool
  /-- The socket is in `m_setAddSockets`. -/
  added : Bool
  io : RecvPc
  main : RunPc
  /-- `m_pEventQueue`. -/
  queue : List SNetEvent
  /-- `lProcEvent`. -/
  batch : List SNetEvent
  /-- What the server has sent and no receive has taken. -/
  wire : List UInt8
  /-- The payloads the session has been given. -/
  given : List (List UInt8)

namespace FxTcpClientSocket

open RecvSock (recvLens)

/-- After `Init`, `Connect` and `OnConnect`. -/
def opened (payloads : List (List UInt8)) : FxTcpClientSocket :=
  ⟨.new, .new, true, false, .none, .idle, [⟨.establish, 0⟩], [], payloads.flatMap frame, []⟩

def pushNetEvent (s : FxTcpClientSocket) (eType : ENetEvtType) (dwValue : Nat) :
    FxTcpClientSocket :=
  { s with queue := s.queue ++ [⟨eType, dwValue⟩] }

def disconnect (s : FxTcpClientSocket) : FxTcpClientSocket :=
  if s.connected then { s with connected := false }.pushNetEvent .terminate 0 else s

/-- The way out of an exception, and of a header that is none. -/
def failed (s : FxTcpClientSocket) : FxTcpClientSocket := (s.pushNetEvent .error 0).disconnect

/-! ### The receive callback -/

def beginReceive (s : FxTcpClientSocket) : FxTcpClientSocket :=
  if s.connected then { s with io := .receiving s.recvBuffer.getFreeLength }
  else { s.failed with io := .none }

def asynReceive (s : FxTcpClientSocket) : Option FxTcpClientSocket :=
  if s.added ∧ s.io = .none then some { s.beginReceive with added := false } else none

/-- `ReceiveCallback` up to the loop of `OnRecv`. A receive takes no byte where none was asked for
and where the server has closed. -/
def endReceive (bytesRead : Nat) (s : FxTcpClientSocket) : Option FxTcpClientSocket :=
  match s.io with
  | .receiving dwSize =>
    if s.connected = false then some { s.failed with io := .none }
    else if bytesRead ≤ dwSize ∧ bytesRead ≤ s.wire.length ∧
        (bytesRead = 0 → dwSize = 0 ∨ s.wire = []) then
      if bytesRead = 0 then some { s.disconnect with io := .none }
      else
        -- the result of the push is not asked for
        match s.recvBuffer.pushData (s.wire.take bytesRead) bytesRead with
        | none => some { s.failed with io := .none }
        | some (_, recvBuffer) =>
          some { s with recvBuffer := recvBuffer, wire := s.wire.drop bytesRead, io := .parsing }
    else none
  | _ => none

def popRecv (iLength : Nat) (s : FxTcpClientSocket) : FxTcpClientSocket :=
  match s.recvBuffer.popData iLength with
  | none => { s.failed with io := .none }
  | some (_, recvBuffer) => { s with recvBuffer := recvBuffer, io := .announcing iLength }

def parse (s : FxTcpClientSocket) : Option FxTcpClientSocket :=
  if s.io = .parsing then
    match BinaryDataHeader.parsePacket s.recvBuffer.pData s.recvBuffer.dwUsedLength with
    | none => some { s.failed with io := .none }
    | some iLength =>
      if iLength = 0 then some s.beginReceive
      else if iLength < 0 then some s.failed.beginReceive
      else if s.recvBuffer.dwUsedLength < iLength then some s.beginReceive
      -- `PushData` returns false here, and `OnRecv` goes on
      else if DataBuffer.maxDataLength - s.sessionBuffer.dwUsedLength < iLength.toNat then
        some (s.popRecv iLength.toNat)
      else some { s with io := .copying iLength.toNat }
  else none

def copy (s : FxTcpClientSocket) : Option FxTcpClientSocket :=
  match s.io with
  | .copying iLength =>
    match s.sessionBuffer.copyIn s.recvBuffer.pData iLength with
    | none => some { s.failed with io := .none }
    | some sessionBuffer => some ({ s with sessionBuffer := sessionBuffer }.popRecv iLength)
  | _ => none

def announce (s : FxTcpClientSocket) : Option FxTcpClientSocket :=
  match s.io with
  | .announcing iLength => some { s.pushNetEvent .recv iLength with io := .parsing }
  | _ => none

def reset (dwErrorCode : Nat) (s : FxTcpClientSocket) : Option FxTcpClientSocket :=
  match s.io with
  | .receiving _ =>
    if s.connected then
      some { s.pushNetEvent .error dwErrorCode with connected := false, io := .none }
    else none
  | _ => none

/-! ### The main thread -/

/-- `FxNetModule.Run` takes the whole queue. -/
def run (s : FxTcpClientSocket) : Option FxTcpClientSocket :=
  if s.main = .idle ∧ s.batch = [] then some { s with batch := s.queue, queue := [] } else none

def procEvent (s : FxTcpClientSocket) : Option FxTcpClientSocket :=
  if s.main = .idle then
    match s.batch with
    | [] => none
    | pEvent :: batch =>
      let s := { s with batch := batch }
      match pEvent.eType with
      | .establish => some { s with added := true }
      | .recv => some { s with main := .reading pEvent.dwValue [] }
      | .terminate => some (s.pushNetEvent .release 0)
      | _ => some s
  else none

/-- The session looks at the next `k` bytes of the array. -/
def read (k : Nat) (s : FxTcpClientSocket) : Option FxTcpClientSocket :=
  match s.main with
  | .reading dwLen seen =>
    if 0 < k ∧ seen.length + k ≤ dwLen then
      let pBuf := s.sessionBuffer.pData
      some { s with main := .reading dwLen (seen ++ (pBuf.drop seen.length).take k) }
    else none
  | _ => none

/-- `m_pSession.OnRecv` returns, or leaves `Run` with an exception. -/
def hand (s : FxTcpClientSocket) : Option FxTcpClientSocket :=
  match s.main with
  | .reading dwLen seen =>
    if seen.length = dwLen then
      match BinarySession.onRecv seen dwLen with
      | none => some { s with main := .idle, batch := [] }
      | some pData => some { s with main := .popping dwLen, given := s.given ++ [pData] }
    else none
  | _ => none

def testPop (s : FxTcpClientSocket) : Option FxTcpClientSocket :=
  match s.main with
  | .popping dwLen =>
    if s.sessionBuffer.dwUsedLength < dwLen then some { s with main := .idle }
    else some { s with main := .cutting dwLen }
  | _ => none

def cut (s : FxTcpClientSocket) : Option FxTcpClientSocket :=
  match s.main with
  | .cutting dwLen =>
    match s.sessionBuffer.cutFront dwLen with
    | none => some { s with main := .idle, batch := [] }
    | some sessionBuffer => some { s with sessionBuffer := sessionBuffer, main := .idle }
  | _ => none

def step (s : FxTcpClientSocket) : RecvStep → Option FxTcpClientSocket
  | .asynReceive => s.asynReceive
  | .endReceive bytesRead => s.endReceive bytesRead
  | .parse => s.parse
  | .copy => s.copy
  | .announce => s.announce
  | .reset dwErrorCode => s.reset dwErrorCode
  | .disconnect => some s.disconnect
  | .run => s.run
  | .procEvent => s.procEvent
  | .read k => s.read k
  | .hand => s.hand
  | .testPop => s.testPop
  | .cut => s.cut

/-! ### What the session is to be given -/

/-- The lengths that are announced, or about to be, and not cut off yet. -/
def due (s : FxTcpClientSocket) : List Nat :=
  s.main.due ++ recvLens s.batch ++ recvLens s.queue ++ s.io.due

/-- Everything the server has sent has come, and neither thread has anything to do. -/
structure AtRest (s : FxTcpClientSocket) : Prop where
  io : ∃ dwSize, s.io = .receiving dwSize
  main : s.main = .idle
  batch : s.batch = []
  queue : s.queue = []
  wire : s.wire = []

/-- A step of the socket itself that is not the end of the connection. -/
def Works (s : FxTcpClientSocket) : RecvStep → Prop
  | .reset _ | .disconnect => False
  | .run => s.queue ≠ []
  | .endReceive _ => s.wire ≠ []
  | _ => True

/-- The session has been given payloads of the server, complete, in order and once each, the frames
that are announced are stored, byte for byte and in the order of their events, and a connection that
is up goes on until every payload is given. -/
structure Exact (payloads : List (List UInt8)) (s : FxTcpClientSocket) : Prop where
  stored : ∃ waiting rest : List (List UInt8),
    payloads = s.given ++ waiting.drop s.main.handed ++ rest ∧
    s.due = waiting.map (fun payload => (frame payload).length) ∧
    s.sessionBuffer.stored = waiting.flatMap frame
  works : s.connected → s.AtRest ∨ ∃ l, s.Works l ∧ (s.step l).isSome
  complete : s.AtRest → s.given = payloads

/-- A frame that the loop of `OnRecv` moves has room in the session buffer. -/
def HasRoom (s : FxTcpClientSocket) : RecvStep → Prop
  | .parse => s.io = .parsing → ∀ iLength,
    BinaryDataHeader.parsePacket s.recvBuffer.pData s.recvBuffer.dwUsedLength = some iLength →
    0 < iLength → iLength ≤ s.recvBuffer.dwUsedLength →
    s.sessionBuffer.dwUsedLength + iLength.toNat ≤ 65536
  | _ => True

end FxTcpClientSocket

end FxNet
