import FxLib.Net.RecvSock
import FxLib.Net.SendPipeline
import FxLib.Net.SlidingWindow

/-!
# The reliable UDP socket

`FxUDPConnectSock` of `Net/myudpsock.cpp`, in its Linux version. The IO thread runs `OnRecv` and
`Update`, one after the other; the main thread pushes into the send ring and processes the events.
-/

open MachineInt

structure FxUDPConnectSock where
  /-- What it shares with the other sockets. -/
  sock : RecvSock BinaryDataHeader
  sendBuf : FxLoopBuff
  recvWindow : SlidingWindow
  sendWindow : SlidingWindow
  delayTime : Rat
  delayAverage : Rat
  retryTime : Rat
  sendTime : Rat
  sendFrequency : Rat
  sendDataTime : Rat
  sendDataFrequency : Rat
  sendWindowControl : Rat
  sendWindowThreshhold : Rat
  ackRecvTime : Rat
  ackTimeoutRetry : Int
  ackSameCount : Int
  quickRetry : Bool
  sendAck : Bool
  ackLast : Nat
  synLast : Nat
  /-- The bytes pushed into the send ring, and the packets that the kernel took. -/
  pushed : List UInt8
  sent : List (List UInt8)

namespace FxUDPConnectSock

open SlidingWindow UDPPacketHeader

abbrev Sock := RecvSock BinaryDataHeader

/-- `PushNetEvent(NETEVT_ERROR, dwValue); Close()`. -/
def fail (u : FxUDPConnectSock) (dwValue : Int) : FxUDPConnectSock :=
  { u with sock := u.sock.fail dwValue }

/-! ### The main thread -/

/-- `__ProcRecv`, behind its test of the connection. -/
def procRecv (s : Sock) (c : FxConnection) (dwLen : Nat) : Sock :=
  if s.sockId ≠ c.id then s
  else if s.getRecvSize c < dwLen then (s.pushNetEvent .error netRecvError).postClose
  else
    let popped := s.popToSession dwLen
    if popped.1 then
      (popped.2.stripHeader BinaryDataHeader.headerLength dwLen).connectionOnRecv c
        (toUInt32 (dwLen - BinaryDataHeader.headerLength))
    else popped.2

/-- `PushBuff` of a frame into the send ring, which is reset first when it is empty. -/
def pushFrame (pTemData : List UInt8) (u : FxUDPConnectSock) : FxUDPConnectSock :=
  let sendBuf := if u.sendBuf.isEmpty then u.sendBuf.clear else u.sendBuf
  let (ok, sendBuf) := sendBuf.pushBuff pTemData pTemData.length
  if ok then { u with sendBuf := sendBuf, pushed := u.pushed ++ pTemData }
  else { u with sendBuf := sendBuf }

/-! ### OnRecv: what a packet acknowledges -/

/-- One packet of the send window has arrived. -/
def ackPacket (now dSendWindowControlMax : Rat) (u : FxUDPConnectSock) : FxUDPConnectSock :=
  let btId := u.sendWindow.btBegin % windowSize
  let u :=
    if u.sendWindow.seqRetryCount btId = 1 then
      let dErrTime := now - u.sendWindow.seqTime btId - u.delayTime
      { u with
        delayTime := u.delayTime + 1 / 8 * dErrTime
        delayAverage := u.delayAverage + 1 / 4 * (|dErrTime| - u.delayAverage) }
    else u
  let dSendWindowControl :=
    if u.sendWindowControl ≤ u.sendWindowThreshhold then u.sendWindowControl + 1
    else u.sendWindowControl + 1 / u.sendWindowControl
  { u with
    sendWindow := u.sendWindow.release
    sendWindowControl :=
      if dSendWindowControl > dSendWindowControlMax then dSendWindowControlMax
      else dSendWindowControl }

/-- `n` turns of the loop; the clock is read in each. -/
def ackPackets (clock : Nat → Rat) (dSendWindowControlMax : Rat) :
    Nat → FxUDPConnectSock → FxUDPConnectSock
  | 0, u => u
  | n + 1, u => ackPackets clock dSendWindowControlMax n
      (ackPacket (clock n) dSendWindowControlMax u)

/-- The loop ends when the begin of the window stands behind `cAck`. -/
def procAck (clock : Nat → Rat) (cAck : Nat) (u : FxUDPConnectSock) : FxUDPConnectSock :=
  if u.sendWindow.isValidIndex cAck then
    let dSendWindowControlMax : Rat :=
      if u.sendWindowControl * 2 > windowSize then windowSize else u.sendWindowControl * 2
    let n := span u.sendWindow.btBegin (succ cAck)
    let u := ackPackets clock dSendWindowControlMax n
      { u with ackRecvTime := clock n, ackTimeoutRetry := 3 }
    let dRetryTime := u.delayTime + 2 * u.delayAverage
    { u with retryTime := if dRetryTime < u.sendFrequency then u.sendFrequency else dRetryTime }
  else u

/-- `m_btBegin - 1` is an `int`. -/
def countSameAck (u : FxUDPConnectSock) : FxUDPConnectSock :=
  { u with ackSameCount :=
      if (u.ackLast : Int) = (u.sendWindow.btBegin : Int) - 1 then add32 u.ackSameCount 1 else 0 }

def recordAck (u : FxUDPConnectSock) : FxUDPConnectSock :=
  { u with
    ackSameCount := if u.sendWindow.btBegin = u.sendWindow.btEnd then 0 else u.ackSameCount
    ackLast := pred u.sendWindow.btBegin }

/-! ### OnRecv: what a packet brings -/

/-- The packet takes its slot when it stands in the window and the slot is empty; else its buffer
is free again. -/
def takeSlot (cSyn btBufferId nLen : Nat) (w : SlidingWindow) : Bool × SlidingWindow :=
  let id := cSyn % windowSize
  if w.isValidIndex cSyn ∧ w.seqBufferId id ≥ windowSize then
    (true, { w with
      seqBufferId := Function.update w.seqBufferId id btBufferId
      seqSize := Function.update w.seqSize id nLen })
  else (false, w.free btBufferId)

/-- The last packet of an unbroken row from `i`, of `n` at most. -/
def newAck (w : SlidingWindow) : Nat → Nat → Nat → Nat
  | 0, _, btNewAck => btNewAck
  | n + 1, i, btNewAck =>
    if w.seqBufferId (i % windowSize) ≥ windowSize then btNewAck else newAck w n (succ i) i

/-- The bytes behind the header of the packet at the beginning of the window. -/
def payload (w : SlidingWindow) : List UInt8 :=
  let btId := w.btBegin % windowSize
  Memory.read (w.ppBuffer (w.seqBufferId btId)) headSize
    (toUInt16 (w.seqSize btId - headSize))

/-- The packet is taken out of the window, which moves on. -/
def shift (w : SlidingWindow) : SlidingWindow :=
  let btId := w.btBegin % windowSize
  let w := w.free (w.seqBufferId btId)
  { w with
    seqSize := Function.update w.seqSize btId 0
    seqBufferId := Function.update w.seqBufferId btId windowSize
    btBegin := succ w.btBegin
    btEnd := succ w.btEnd }

/-- The payload goes to the ring in one piece or in two; `false` when the second does not fit, and
the socket is closed. -/
def append (pBuffer : List UInt8) (s : Sock) : Bool × Sock :=
  if pBuffer.length = 0 then (true, s)
  else
    let (region, s) := s.inCursorPtr procRecv
    if pBuffer.length ≤ region.len then
      let s := s.costBuff procRecv pBuffer.length
      (true, { s with
        recvBuf := s.recvBuf.copyIn region.ptr pBuffer, taken := s.taken ++ pBuffer })
    else
      let s := s.costBuff procRecv region.len
      let first := pBuffer.take region.len.toNat
      let s := { s with recvBuf := s.recvBuf.copyIn region.ptr first, taken := s.taken ++ first }
      let second := pBuffer.drop region.len.toNat
      let (region, s) := s.inCursorPtr procRecv
      if region.len < second.length then (false, s.fail s.errno)
      else
        let s := { s with recvBuf := s.recvBuf.copyIn region.ptr second }
        let s := s.costBuff procRecv second.length
        (true, { s with taken := s.taken ++ second })

/-- `n` packets from the beginning of the window are delivered; `none` when one does not fit.
The flag is `bParseMessage`. -/
def deliver : Nat → Bool → FxUDPConnectSock → Option Bool × FxUDPConnectSock
  | 0, bParseMessage, u => (some bParseMessage, u)
  | n + 1, bParseMessage, u =>
    let pBuffer := payload u.recvWindow
    match append pBuffer u.sock with
    | (false, s) => (none, { u with sock := s })
    | (true, s) =>
      deliver n (bParseMessage || pBuffer.length ≠ 0)
        { u with sock := s, recvWindow := shift u.recvWindow, sendAck := true }

/-! ### OnRecv: the parse loop -/

/-- What remains of the region is marked, and the error number is whatever `errno` holds. -/
def parseFail (p : Parse BinaryDataHeader) (_ : Int) : Parse BinaryDataHeader :=
  let p := { p with nUsedLen := add32 p.nUsedLen p.nLen }.costUsed procRecv
  p.fail p.sock.errno

def frameStep (p : Parse BinaryDataHeader) : Parse BinaryDataHeader :=
  p.frameStep procRecv BinaryDataHeader.vtable parseFail

/-- `none` when the fuel does not suffice. -/
def parseMessage (fuel : Nat) (s : Sock) : Option Sock :=
  let (region, s) := s.usedCursorPtr procRecv
  (While.run Parse.Looping frameStep fuel (Parse.start region s)).map (Parse.finish procRecv)

/-- The receive window is updated, and what was delivered is parsed. -/
def updateRecvWindow (fuel : Nat) (u : FxUDPConnectSock) : Option FxUDPConnectSock :=
  let w := u.recvWindow
  let btNewAck := newAck w w.count w.btBegin (pred w.btBegin)
  match deliver (span w.btBegin (succ btNewAck)) false u with
  | (none, u) => some u
  | (some bParseMessage, u) =>
    let u := { u with synLast := pred u.recvWindow.btBegin }
    if bParseMessage then
      (parseMessage fuel u.sock).map fun s => { u with sock := s }
    else some u

/-! ### OnRecv -/

/-- A packet of the established peer in the buffer `btBufferId`. -/
def procPacket (fuel : Nat) (clock : Nat → Rat) (btBufferId nLen : Nat)
    (refPacket : UDPPacketHeader) (u : FxUDPConnectSock) : Option FxUDPConnectSock :=
  let u := (procAck clock refPacket.cAck u).countSameAck
  let (bPacketReceived, w) := takeSlot refPacket.cSyn btBufferId nLen u.recvWindow
  let u := { u with recvWindow := w }.recordAck
  if bPacketReceived then updateRecvWindow fuel u else some u

/-- The kernel cuts a packet that is longer than the buffer. `m_ppBuffer[32][0]`, which is read when
no buffer is free, lies behind the array. -/
def onRecv (fuel : Nat) (clock : Nat → Rat) (ret : RecvRet) (u : FxUDPConnectSock) :
    Option FxUDPConnectSock :=
  if u.sock.isConnected = false then some u
  else
    let u := { u with sock := u.sock.clearIfEmpty procRecv }
    let (btBufferId, w) := u.recvWindow.allocate
    let u := { u with recvWindow := w }
    if btBufferId ≥ windowSize then some (u.fail netPacketError)
    else
      match ret with
      | .error errno =>
        let u := { u with sock := { u.sock with errno := errno } }
        if ret.Transient then some u else some (u.fail errno)
      | .data bytes =>
        let bytes := bytes.take bufferSize
        if bytes.length = 0 then some (u.fail netEofError)
        else
          let w := u.recvWindow.fill btBufferId bytes
          if bytes.length < headSize then
            some ({ u with recvWindow := w.free btBufferId }.fail netPacketError)
          else
            let u := { u with recvWindow := w }
            let refPacket := UDPPacketHeader.ofBuffer (w.ppBuffer btBufferId)
            if refPacket.cStatus ≠ ESocketState.establish.code then some (u.fail netConnectFail)
            else procPacket fuel clock btBufferId bytes.length refPacket u

/-! ### PostSend -/

/-- A packet with the next sequence number goes to the end of the send window. -/
def putPacket (dTime : Rat) (data : List UInt8) (u : FxUDPConnectSock) : FxUDPConnectSock :=
  let btId := u.sendWindow.btEnd % windowSize
  let (btBufferId, w) := u.sendWindow.allocate
  let header : UDPPacketHeader :=
    ⟨u.sock.state.code, u.sendWindow.btEnd, pred u.recvWindow.btBegin⟩
  let w := w.fill btBufferId (header.bytes ++ data)
  { u with
    sendWindow :=
      { w with
        seqBufferId := Function.update w.seqBufferId btId btBufferId
        seqSize := Function.update w.seqSize btId (data.length + headSize)
        seqTime := Function.update w.seqTime btId dTime
        seqRetry := Function.update w.seqRetry btId dTime
        seqRetryTime := Function.update w.seqRetryTime btId u.retryTime
        seqRetryCount := Function.update w.seqRetryCount btId 0
        btEnd := succ w.btEnd } }

/-- Data of the send ring goes to the window, `n` packets at most; what is left is returned. The
difference of the two ends is an `int`. -/
def fillWindow (dTime : Rat) : Nat → List UInt8 → FxUDPConnectSock → List UInt8 × FxUDPConnectSock
  | 0, data, u => (data, u)
  | n + 1, data, u =>
    if u.sendWindow.freeBufferId < windowSize ∧ data ≠ [] then
      if ((u.sendWindow.btEnd : Int) - u.sendWindow.btBegin : Rat) > u.sendWindowControl then
        (data, u)
      else
        fillWindow dTime n (data.drop (bufferSize - headSize))
          (putPacket dTime (data.take (bufferSize - headSize)) u)
    else (data, u)

/-- `bForceRetry` is the flag. -/
def adjustControl (u : FxUDPConnectSock) : Bool × FxUDPConnectSock :=
  let limit : Rat → Rat := fun d => if d > windowSize then windowSize else d
  if u.ackSameCount > 3 then
    if u.quickRetry = false then
      let dThreshhold := if u.sendWindowControl / 2 < 2 then 2 else u.sendWindowControl / 2
      (true, { u with
        quickRetry := true
        sendWindowThreshhold := dThreshhold
        sendWindowControl := limit (dThreshhold + u.ackSameCount - 1) })
    else (false, { u with sendWindowControl := limit (u.sendWindowControl + 1) })
  else if u.quickRetry then
    (false, { u with sendWindowControl := u.sendWindowThreshhold, quickRetry := false })
  else (false, u)

/-- A packet among the next `n` from `i` that was sent has not been acknowledged in time. -/
def timedOut (dTime : Rat) (w : SlidingWindow) : Nat → Nat → Bool
  | 0, _ => false
  | n + 1, i =>
    (decide (w.seqRetryCount (i % windowSize) > 0 ∧ dTime ≥ w.seqRetry (i % windowSize))) ||
      timedOut dTime w n (succ i)

def slowStart (dTime : Rat) (u : FxUDPConnectSock) : FxUDPConnectSock :=
  if timedOut dTime u.sendWindow u.sendWindow.count u.sendWindow.btBegin then
    let dThreshhold := if u.sendWindowControl / 2 < 2 then 2 else u.sendWindowControl / 2
    { u with
      sendWindowThreshhold := dThreshhold, sendWindowControl := dThreshhold
      quickRetry := false, ackSameCount := 0 }
  else u

/-- What one `send` comes to: `PostSend` goes on or returns. -/
inductive Sent where
  | goesOn
  | returns (ok : Bool)
  deriving DecidableEq

/-- A datagram is taken as a whole or not at all. -/
def kernelSend (answer : SendRet) (packet : List UInt8) (u : FxUDPConnectSock) :
    Sent × FxUDPConnectSock :=
  match answer with
  | .eagain => (.returns true, u)
  | .error => (.returns false, u)
  | .count nRet =>
    if 0 ≥ nRet then (.returns false, u) else (.goesOn, { u with sent := u.sent ++ [packet] })

/-- The packet `i` of the window, with the acknowledgement of now. -/
def sendPacket (dTime : Rat) (answer : SendRet) (i : Nat) (u : FxUDPConnectSock) :
    Sent × FxUDPConnectSock :=
  let btId := i % windowSize
  let btBufferId := u.sendWindow.seqBufferId btId
  let header : UDPPacketHeader := ⟨u.sock.state.code, i, pred u.recvWindow.btBegin⟩
  let u := { u with sendWindow := u.sendWindow.fill btBufferId header.bytes }
  let packet := Memory.read (u.sendWindow.ppBuffer btBufferId) 0 (u.sendWindow.seqSize btId)
  match kernelSend answer packet u with
  | (.returns ok, u) => (.returns ok, u)
  | (.goesOn, u) =>
    let w := u.sendWindow
    let dRetry : Rat := if 3 / 2 * u.retryTime > 1 / 5 then 1 / 5 else 3 / 2 * u.retryTime
    (.goesOn, { u with
      sendTime := dTime + u.sendFrequency
      sendDataTime := dTime + u.sendDataFrequency
      sendAck := false
      sendWindow :=
        { w with
          seqRetryCount := Function.update w.seqRetryCount btId (w.seqRetryCount btId + 1)
          seqRetryTime := Function.update w.seqRetryTime btId dRetry
          seqRetry := Function.update w.seqRetry btId (dTime + dRetry) } })

/-- The next `n` packets from `i`, as far as the congestion control lets them go. -/
def sendWindowPackets (dTime : Rat) (answers : Nat → SendRet) :
    Nat → Nat → Bool → FxUDPConnectSock → Sent × FxUDPConnectSock
  | 0, _, _, u => (.goesOn, u)
  | n + 1, i, bForceRetry, u =>
    if ((i : Int) - u.sendWindow.btBegin : Rat) ≥ u.sendWindowControl then (.goesOn, u)
    else if dTime ≥ u.sendWindow.seqRetry (i % windowSize) ∨ bForceRetry then
      match sendPacket dTime (answers (n + 1)) i u with
      | (.returns ok, u) => (.returns ok, u)
      | (.goesOn, u) => sendWindowPackets dTime answers n (succ i) false u
    else sendWindowPackets dTime answers n (succ i) bForceRetry u

/-- An acknowledgement alone. -/
def sendAckPacket (dTime : Rat) (answer : SendRet) (u : FxUDPConnectSock) :
    Bool × FxUDPConnectSock :=
  if u.sendAck then
    let oPacket : UDPPacketHeader :=
      ⟨u.sock.state.code, pred u.sendWindow.btBegin, pred u.recvWindow.btBegin⟩
    match kernelSend answer oPacket.bytes u with
    | (.returns ok, u) => (ok, u)
    | (.goesOn, u) => (true, { u with sendTime := dTime + u.sendFrequency, sendAck := false })
  else (true, u)

/-- The send ring's first region goes to the window as far as it can; where the window stays empty,
a packet without data. -/
def putPackets (dTime : Rat) (u : FxUDPConnectSock) : FxUDPConnectSock :=
  let region := u.sendBuf.getOutCursorPtr
  let data := u.sendBuf.copyOut region.ptr region.len
  let (rest, u) := fillWindow dTime data.length data u
  let dwOffset := data.length - rest.length
  let u := if dwOffset > 0 then { u with sendBuf := (u.sendBuf.discardBuff dwOffset).2 } else u
  if u.sendWindow.btBegin = u.sendWindow.btEnd then
    if dTime ≥ u.sendDataTime ∧ u.sendWindow.freeBufferId < windowSize then putPacket dTime [] u
    else u
  else { u with sendDataTime := dTime + u.sendDataFrequency }

def postSend (dTime : Rat) (answers : Nat → SendRet) (u : FxUDPConnectSock) :
    Bool × FxUDPConnectSock :=
  let late := dTime - u.ackRecvTime > 5
  let u :=
    if late then
      { u with ackRecvTime := dTime, ackTimeoutRetry := sub32 u.ackTimeoutRetry 1 }
    else u
  if late ∧ u.ackTimeoutRetry ≤ 0 then (false, u)
  else if dTime < u.sendTime then (true, u)
  else
    let (bForceRetry, u) := adjustControl u
    let u := putPackets dTime (slowStart dTime u)
    match sendWindowPackets dTime answers u.sendWindow.count u.sendWindow.btBegin bForceRetry u with
    | (.returns ok, u) => (ok, u)
    | (.goesOn, u) => sendAckPacket dTime (answers 0) u

/-- `Update`, which the IO thread calls on a connected socket only. -/
def update (dTime : Rat) (answers : Nat → SendRet) (u : FxUDPConnectSock) : FxUDPConnectSock :=
  if u.sock.isConnected = false then u
  else
    let (ok, u) := postSend dTime answers u
    if ok then u else u.fail u.sock.errno

/-! ### Steps -/

/-- A callback of the IO thread, with the main thread's turns during it, or between two of them a
step of the main thread or of the IO thread with its delay list. -/
inductive Op where
  | onRecv (fuel : Nat) (clock : Nat → Rat) (ret : RecvRet) (sched : List Nat)
  | update (dTime : Rat) (answers : Nat → SendRet)
  | push (pTemData : List UInt8)
  | main
  | delayClose

def step (u : FxUDPConnectSock) : Op → Option FxUDPConnectSock
  | .onRecv fuel clock ret sched =>
    onRecv fuel clock ret { u with sock := { u.sock with sched := sched } }
  | .update dTime answers => some (update dTime answers u)
  | .push pTemData => some (pushFrame pTemData u)
  | .main => some { u with sock := u.sock.mainStep procRecv }
  | .delayClose => some { u with sock :=
      if u.sock.delayClose then { u.sock with delayClose := false }.close else u.sock }

end FxUDPConnectSock
