import FxLib.Lib.While
import FxLib.Net.Connection
import FxLib.Net.DataHeader
import FxLib.Net.LoopBuffSpec
import FxLib.Net.NetEvent

/-!
# The receiving half of a socket

What the receive loops of all connect sockets share: the receive ring, the two
counters of the frame in progress, the header object, the event queue and the
main thread at its other end. The main thread may run at any moment. Before each
ring call of the IO thread it processes as many events as the next number of
`sched` says, so a theorem about every `sched` is one about every interleaving of
ring calls.
-/

open MachineInt

structure RecvSock (η : Type) where
  state : ESocketState
  /-- `GetSock()` is a descriptor. -/
  sock : Bool
  sockId : Nat
  recvBuf : FxLoopBuff
  needData : Int
  packetLen : Int
  header : η
  errno : Nat
  connection : Option FxConnection
  /-- The socket is on the delay list of the IO thread, which closes it later. -/
  delayClose : Bool
  /-- `GetRecvBuf()` and `GetRecvSize()` of the session. -/
  sessionBuf : Mem
  sessionSize : Nat
  /-- Events pushed and not yet processed, and all events pushed so far. -/
  events : List SNetEvent
  announced : List SNetEvent
  sched : List Nat
  /-- The bytes received so far, the blocks popped from the ring, and what the session's
  `OnRecv` was handed. -/
  taken : List UInt8
  popped : List (List UInt8)
  received : List (List UInt8)

namespace RecvSock

variable {η : Type}

def isConnected (s : RecvSock η) : Bool := s.state = .establish

def pushNetEvent (s : RecvSock η) (eType : ENetEvtType) (dwValue : Int) : RecvSock η :=
  let e : SNetEvent := ⟨eType, toUInt32 dwValue⟩
  { s with events := s.events ++ [e], announced := s.announced ++ [e] }

def close (s : RecvSock η) : RecvSock η :=
  if s.state = .release ∨ s.state = .close then s
  else
    let s := if s.isConnected then { s with state := .close } else s
    if s.sock = false then s
    else { s with sock := false }.pushNetEvent .terminate 0

/-- `PushNetEvent(NETEVT_ERROR, dwValue); Close()`. -/
def fail (s : RecvSock η) (dwValue : Int) : RecvSock η := (s.pushNetEvent .error dwValue).close

/-- `PostClose`: the IO thread is asked to close the socket. -/
def postClose (s : RecvSock η) : RecvSock η := { s with delayClose := true }

/-! ### The main thread -/

/-- `GetConnection()->GetRecvSize()`. -/
def getRecvSize (s : RecvSock η) (c : FxConnection) : Nat := if c.session then s.sessionSize else 0

/-- `GetConnection()->OnRecv(dwLen)` with the bytes that stand in the session's buffer. -/
def connectionOnRecv (s : RecvSock η) (c : FxConnection) (dwLen : Nat) : RecvSock η :=
  if (c.onRecv dwLen).2 = [] then s
  else { s with received := s.received ++ [Memory.read s.sessionBuf 0 dwLen] }

/-- Move the payload to the front of the session's buffer and end it with a zero. -/
def stripHeader (s : RecvSock η) (dwHeaderLen dwLen : Nat) : RecvSock η :=
  let n := toUInt32 (dwLen - dwHeaderLen)
  let sessionBuf := Memory.write s.sessionBuf 0 (Memory.read s.sessionBuf dwHeaderLen n)
  { s with sessionBuf := Memory.write sessionBuf n [0] }

/-- `PopBuff` into the session's buffer. -/
def popToSession (s : RecvSock η) (dwLen : Nat) : Bool × RecvSock η :=
  let popped := s.recvBuf.popBuff (toInt32 dwLen)
  if popped.1 then
    (true, { s with recvBuf := popped.2.2, popped := s.popped ++ [popped.2.1]
                    sessionBuf := Memory.write s.sessionBuf 0 popped.2.1 })
  else (false, s)

/-- The `__ProcRecv` of a TCP socket, behind its test of the connection; `handOver` is what the
class does with the frame once it stands in the session's buffer. -/
def popAndHand (handOver : RecvSock η → FxConnection → Nat → RecvSock η) (s : RecvSock η)
    (c : FxConnection) (dwLen : Nat) : RecvSock η :=
  if 4294967295 = dwLen then s.fail netRecvError
  else if s.sockId ≠ c.id then s
  else if s.getRecvSize c < dwLen then s.fail netRecvError
  else
    let popped := s.popToSession dwLen
    if popped.1 then handOver popped.2 c dwLen else popped.2

def procEstablish (s : RecvSock η) : RecvSock η :=
  match s.connection with
  | none => s
  | some c => if s.sockId ≠ c.id then s else { s with connection := some c.onConnect.1 }

def procAssociate (s : RecvSock η) : RecvSock η :=
  match s.connection with
  | none => s
  | some c => if s.sockId ≠ c.id then s else { s with connection := some c.onAssociate.1 }

def procTerminate (s : RecvSock η) : RecvSock η := s.pushNetEvent .release 0

/-- `ProcEvent`; `procRecv` is the `__ProcRecv` of the socket's class, behind its test of the
connection. The other events do not touch the receiving half. -/
def procEvent (procRecv : RecvSock η → FxConnection → Nat → RecvSock η) (s : RecvSock η)
    (e : SNetEvent) : RecvSock η :=
  match e.eType with
  | .recv =>
    match s.connection with
    | none => s
    | some c => procRecv s c e.dwValue
  | .establish => s.procEstablish
  | .associate => s.procAssociate
  | .terminate => s.procTerminate
  | .connErr | .error | .recvPackageError | .release => s

def mainStep (procRecv : RecvSock η → FxConnection → Nat → RecvSock η) (s : RecvSock η) :
    RecvSock η :=
  match s.events with
  | [] => s
  | e :: events => { s with events := events }.procEvent procRecv e

/-- The main thread's turn before a ring call of the IO thread. -/
def yield (procRecv : RecvSock η → FxConnection → Nat → RecvSock η) (s : RecvSock η) :
    RecvSock η :=
  match s.sched with
  | [] => s
  | k :: sched => (mainStep procRecv)^[k] { s with sched := sched }

/-! ### Ring calls of the IO thread -/

section RingCalls

variable (procRecv : RecvSock η → FxConnection → Nat → RecvSock η)

def clearIfEmpty (s : RecvSock η) : RecvSock η :=
  let s := s.yield procRecv
  if s.recvBuf.isEmpty then
    let s := s.yield procRecv
    { s with recvBuf := s.recvBuf.clear }
  else s

def inCursorPtr (s : RecvSock η) : Region × RecvSock η :=
  let s := s.yield procRecv
  (s.recvBuf.getInCursorPtr, s)

def costBuff (s : RecvSock η) (nLen : Int) : RecvSock η :=
  let s := s.yield procRecv
  { s with recvBuf := (s.recvBuf.costBuff nLen).2 }

def useLen (s : RecvSock η) : Int × RecvSock η :=
  let s := s.yield procRecv
  (s.recvBuf.getUseLen, s)

def usedCursorPtr (s : RecvSock η) : Region × RecvSock η :=
  let s := s.yield procRecv
  (s.recvBuf.getUsedCursorPtr, s)

def costUsedBuff (s : RecvSock η) (nLen : Int) : Bool × RecvSock η :=
  let s := s.yield procRecv
  ((s.recvBuf.costUsedBuff nLen).1, { s with recvBuf := (s.recvBuf.costUsedBuff nLen).2 })

end RingCalls

end RecvSock

/-! ### A parse loop between two iterations -/

inductive LoopExit where
  | looping
  | broke
  | returned
  deriving DecidableEq

/-- The locals of a parse loop. `nRegion` is the length that `GetUsedCursorPtr` last
answered. -/
structure Parse (η : Type) where
  sock : RecvSock η
  nLen : Int
  nUsedLen : Int
  nParserLen : Int
  pUseBuf : Int
  nRegion : Int
  exit : LoopExit

namespace Parse

variable {η : Type}

/-- `while (0 < nLen)`, before a `break` or a `return`. -/
def Looping (p : Parse η) : Prop := p.exit = .looping ∧ 0 < p.nLen

instance (p : Parse η) : Decidable p.Looping := inferInstanceAs (Decidable (_ ∧ _))

/-- `pUseBuf + nParserLen`. -/
def parseBuf (p : Parse η) : Mem := p.sock.recvBuf.mem.at (p.pUseBuf + p.nParserLen)

section Primitives

variable (procRecv : RecvSock η → FxConnection → Nat → RecvSock η)

/-- `CostUsedBuff(nUsedLen); nUsedLen = 0`. -/
def costUsed (p : Parse η) : Parse η :=
  { p with sock := (p.sock.costUsedBuff procRecv p.nUsedLen).2, nUsedLen := 0 }

/-- `PushNetEvent(NETEVT_RECV, m_nPacketLen); m_nPacketLen = 0`. -/
def announce (p : Parse η) : Parse η :=
  { p with sock := { p.sock.pushNetEvent .recv p.sock.packetLen with packetLen := 0 } }

/-- `n` bytes complete the frame in progress. -/
def completeFrame (p : Parse η) (n : Int) : Parse η :=
  let nUsedLen := add32 p.nUsedLen n
  let p := { p with nLen := sub32 p.nLen n, nUsedLen := nUsedLen }.costUsed procRecv |>.announce
  { p with sock := { p.sock with needData := 0 } }

end Primitives

/-- The rest of the region belongs to the frame in progress, of which `need` bytes are
missing afterwards. -/
def keepPartial (p : Parse η) (need : Int) : Parse η :=
  { p with sock := { p.sock with needData := need }
           nUsedLen := add32 p.nUsedLen p.nLen, nLen := 0 }

/-- `PushNetEvent(NETEVT_ERROR, dwValue); Close(); return`. -/
def fail (p : Parse η) (dwValue : Int) : Parse η :=
  { p with sock := p.sock.fail dwValue, exit := .returned }

/-! ### The branches that all loops share -/

section Branches

variable (procRecv : RecvSock η → FxConnection → Nat → RecvSock η) (H : IFxDataHeader η)

/-- `0 != m_nNeedData`. -/
def needStep (p : Parse η) : Parse η :=
  if p.nLen ≥ p.sock.needData then
    { p with nParserLen := add32 p.nParserLen p.sock.needData }.completeFrame procRecv
      p.sock.needData
  else p.keepPartial (sub32 p.sock.needData p.nLen)

/-- The header of the next frame has been parsed in one piece. `nParserLen` grows by the
new `nUsedLen`. -/
def wholeStep (p : Parse η) : Parse η :=
  if p.nLen ≥ p.sock.packetLen then
    { p with nParserLen := add32 p.nParserLen (add32 p.nUsedLen p.sock.packetLen) }.completeFrame
      procRecv p.sock.packetLen
  else p.keepPartial (sub32 p.sock.packetLen p.nLen)

/-- `BuildRecvPkgHeader(pParseBuf, dwLen, 0)`. -/
def buildHeader (p : Parse η) (dwLen : Nat) : Parse η :=
  { p with sock := { p.sock with
      header := (H.buildRecvPkgHeader p.sock.header p.parseBuf dwLen 0).2 } }

/-- `m_nPacketLen = ParsePacket(pBuf, dwLen)`. -/
def parsePacket (p : Parse η) (pBuf : Mem) (dwLen : Nat) : Parse η :=
  { p with sock := { p.sock with
      header := (H.parsePacket p.sock.header pBuf dwLen).2
      packetLen := (H.parsePacket p.sock.header pBuf dwLen).1 } }

/-- `GetUsedCursorPtr(pUseBuf)`. -/
def nextRegion (p : Parse η) : Parse η :=
  let (region, sock) := p.sock.usedCursorPtr procRecv
  { p with sock := sock, pUseBuf := region.ptr.getD 0, nRegion := region.len }

/-- The header was complete only with the bytes at the head of the ring, of which it used
`GetHeaderLength() - nLen`. -/
def enterFrame (p : Parse η) : Parse η :=
  let dwHeaderLen := H.getHeaderLength p.sock.header
  let nUsedLen := sub32 (toInt32 dwHeaderLen) p.nLen
  let p := { p with sock := { p.sock with needData := sub32 p.sock.packetLen (toInt32 dwHeaderLen) }
                    nUsedLen := nUsedLen, nParserLen := nUsedLen
                    nLen := sub32 p.nRegion nUsedLen }
  if 0 = p.sock.needData then (p.costUsed procRecv).announce else p

end Branches

end Parse

/-! ### The frame loop of TCP and UDP -/

namespace Parse

variable {η : Type}

section FrameLoop

variable (procRecv : RecvSock η → FxConnection → Nat → RecvSock η) (H : IFxDataHeader η)
  (fail : Parse η → Int → Parse η)

/-- The header is not complete in the region. -/
def splitStep (p : Parse η) : Parse η :=
  let p := p.costUsed procRecv
  let p := { p with sock := { p.sock with needData := 0 } }
  if toInt32 (H.getHeaderLength p.sock.header) > p.nLen then
    let (nHasData, sock) := p.sock.useLen procRecv
    let p := { p with sock := sock }
    if toInt32 (H.getHeaderLength p.sock.header) ≤ nHasData then
      let p := p.buildHeader H (toUInt32 p.nLen)
      let (ok, sock) := p.sock.costUsedBuff procRecv p.nLen
      let p := { p with sock := sock }
      if ok = false then { p with exit := .broke }
      else
        let p := p.nextRegion procRecv
        if sub32 (toInt32 (H.getHeaderLength p.sock.header)) p.nLen > p.nRegion then
          fail p netRecvbuffError
        else
          let header := (H.buildRecvPkgHeader p.sock.header (p.sock.recvBuf.mem.at p.pUseBuf)
            (toUInt32 (H.getHeaderLength p.sock.header - p.nLen)) (toUInt32 p.nLen)).2
          let p := { p with sock := { p.sock with header := header } }
          let p := p.parsePacket H (H.getPkgHeader header) (H.getHeaderLength header)
          if 0 ≥ p.sock.packetLen then fail p netRecvbuffError
          else p.enterFrame procRecv H
    else { p with nLen := 0, exit := .broke }
  else p

/-- One iteration. -/
def frameStep (p : Parse η) : Parse η :=
  if 0 ≠ p.sock.needData then p.needStep procRecv
  else
    let dwHeaderLen := H.getHeaderLength p.sock.header
    let p := p.buildHeader H (if toInt32 dwHeaderLen > p.nLen then toUInt32 p.nLen else dwHeaderLen)
    let p := p.parsePacket H p.parseBuf (toUInt32 p.nLen)
    if -1 = p.sock.packetLen then fail p netRecvError
    else if 0 = p.sock.packetLen then p.splitStep procRecv H fail
    else p.wholeStep procRecv

end FrameLoop

end Parse

/-! ### OnRecv -/

namespace RecvSock

variable {η : Type} (procRecv : RecvSock η → FxConnection → Nat → RecvSock η)

/-- The one `recv` of an `OnRecv`; `none` when `OnRecv` returns without parsing anything. The
kernel writes no more than it was offered. -/
def recvChunk (ret : RecvRet) (s : RecvSock η) : Option Region × RecvSock η :=
  let s := s.clearIfEmpty procRecv
  let (region, s) := s.inCursorPtr procRecv
  if 0 ≥ region.len then (none, s)
  else
    let nLen := if sndLowat < region.len then sndLowat else region.len
    match ret with
    | .error errno =>
      let s := { s with errno := errno }
      if ret.Transient then (none, s) else (none, s.fail errno)
    | .data bytes =>
      let bytes := bytes.take nLen.toNat
      if bytes.length = 0 then (none, s.fail netEofError)
      else
        let s := { s with recvBuf := s.recvBuf.copyIn region.ptr bytes }
        let s := s.costBuff procRecv bytes.length
        let s := { s with taken := s.taken ++ bytes }
        let (region, s) := s.usedCursorPtr procRecv
        if region.len ≤ 0 then (none, s.fail netRecvbuffError) else (some region, s)

end RecvSock

namespace Parse

variable {η : Type} (procRecv : RecvSock η → FxConnection → Nat → RecvSock η)

def start (region : Region) (s : RecvSock η) : Parse η :=
  ⟨s, region.len, 0, 0, region.ptr.getD 0, region.len, .looping⟩

/-- Behind the loop. -/
def finish (p : Parse η) : RecvSock η :=
  if p.exit = .returned then p.sock
  else if 0 ≠ p.nUsedLen then (p.sock.costUsedBuff procRecv p.nUsedLen).2
  else p.sock

end Parse

namespace RecvSock

variable {η : Type} (procRecv : RecvSock η → FxConnection → Nat → RecvSock η)
  (body : Parse η → Parse η)

/-- `OnRecv` with the body of its parse loop; `none` when the fuel does not suffice. -/
def onRecv (fuel : Nat) (ret : RecvRet) (s : RecvSock η) : Option (RecvSock η) :=
  if s.isConnected = false then some s
  else
    match s.recvChunk procRecv ret with
    | (none, s) => some s
    | (some region, s) =>
      (While.run Parse.Looping body fuel (Parse.start region s)).map (Parse.finish procRecv)

/-- A call of `OnRecv`, with the main thread's turns during it, or between two calls a step of
the main thread or of the IO thread with its delay list. -/
inductive Op where
  | onRecv (fuel : Nat) (ret : RecvRet) (sched : List Nat)
  | main
  | delayClose

def step (s : RecvSock η) : Op → Option (RecvSock η)
  | .onRecv fuel ret sched => { s with sched := sched }.onRecv procRecv body fuel ret
  | .main => some (s.mainStep procRecv)
  | .delayClose => some (if s.delayClose then { s with delayClose := false }.close else s)

end RecvSock
