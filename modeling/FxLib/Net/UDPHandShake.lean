import FxLib.Net.UDPConnectSock

/-!
# The handshake of the reliable UDP socket

`Init` and `Connect` of `FxUDPConnectSock` and `OnAccept` of `FxUDPListenSock`, in their Linux
versions: what they make of the windows, the rings and the state of the socket. Where a call of the
kernel fails, they return before the socket is connected.
-/

open MachineInt

namespace SlidingWindow

def emptySlot (w : SlidingWindow) (id : Nat) : SlidingWindow :=
  { w with
    seqBufferId := Function.update w.seqBufferId id windowSize
    seqSize := Function.update w.seqSize id 0
    seqTime := Function.update w.seqTime id 0
    seqRetry := Function.update w.seqRetry id 0
    seqRetryCount := Function.update w.seqRetryCount id 0 }

/-- The slots of the next `n` sequence numbers from `i`. -/
def emptySlots : Nat → Nat → SlidingWindow → SlidingWindow
  | 0, _, w => w
  | n + 1, i, w => emptySlots n (succ i) (w.emptySlot (i % windowSize))

/-- The first `n` packets of the window are done with. -/
def releases : Nat → SlidingWindow → SlidingWindow
  | 0, w => w
  | n + 1, w => releases n w.release

end SlidingWindow

namespace FxUDPConnectSock

open SlidingWindow UDPPacketHeader

/-- `RECV_BUFF_SIZE` and `SEND_BUFF_SIZE`. -/
def buffSize : Int := 32 * 64 * 1024

/-- The first `n` packets of the window are taken out of it. -/
def shifts : Nat → SlidingWindow → SlidingWindow
  | 0, w => w
  | n + 1, w => shifts n (shift w)

/-- `Init` of an object of the pool, with its `Reset`. The memory of the rings is whatever it is. -/
def init (dNow : Rat) (recvMem sendMem : Mem) (u : FxUDPConnectSock) : FxUDPConnectSock :=
  { u with
    sock :=
      { u.sock with
        state := .invalid, sock := false, needData := 0, packetLen := 0, connection := none
        recvBuf := (FxLoopBuff.new.init buffSize (some recvMem)).2
        taken := [], popped := [] }
    sendBuf := (FxLoopBuff.new.init buffSize (some sendMem)).2
    pushed := [], sent := []
    sendFrequency := 1 / 50
    sendDataFrequency := 1
    delayTime := 0
    delayAverage := 3 * (1 / 50)
    retryTime := 2 * (3 * (1 / 50))
    sendTime := 0
    ackRecvTime := dNow
    ackTimeoutRetry := 3
    ackSameCount := 0
    quickRetry := false
    sendDataTime := 0
    ackLast := 0
    synLast := 0
    sendAck := false
    sendWindowControl := 1
    sendWindowThreshhold := windowSize
    recvWindow := { u.recvWindow.clearBuffer with btBegin := 1, btEnd := 1 + windowSize }
    sendWindow := { u.sendWindow.clearBuffer with btBegin := 1, btEnd := 1 } }

/-- The socket is connected, and the main thread is told so. -/
def establish (c : FxConnection) (u : FxUDPConnectSock) : FxUDPConnectSock :=
  let s :=
    { u.sock with
      state := .establish, sock := true, connection := some { c with id := u.sock.sockId } }
  { u with sock := (s.pushNetEvent .associate 0).pushNetEvent .establish 0 }

/-! ### Connect -/

/-- The header that `Connect` sends until it gets an answer. -/
def synHeader (u : FxUDPConnectSock) : UDPPacketHeader :=
  ⟨ESocketState.connect.code, u.sendWindow.btEnd, pred u.recvWindow.btBegin⟩

/-- It takes a place in the send window, whose buffer is not written, and a buffer of the receive
window waits for the answer. -/
def connectStart (dNow : Rat) (u : FxUDPConnectSock) : Nat × FxUDPConnectSock :=
  let btId := u.sendWindow.btEnd % windowSize
  let (btBufferId, sendWindow) := u.sendWindow.allocate
  let w := u.recvWindow
  let (btRecvBufferId, recvWindow) := (emptySlots w.count w.btBegin w).allocate
  (btRecvBufferId, { u with
    sock := { u.sock with state := .connect, sock := true }
    sendWindow :=
      { sendWindow with
        seqBufferId := Function.update sendWindow.seqBufferId btId btBufferId
        seqSize := Function.update sendWindow.seqSize btId headSize
        seqTime := Function.update sendWindow.seqTime btId dNow
        seqRetry := Function.update sendWindow.seqRetry btId dNow
        seqRetryTime := Function.update sendWindow.seqRetryTime btId u.retryTime
        seqRetryCount := Function.update sendWindow.seqRetryCount btId 0
        btEnd := succ sendWindow.btEnd }
    recvWindow := recvWindow })

/-- The answer is in the buffer: both windows are moved on. The acknowledgement that the send window
is released up to is the one of the own header. -/
def connectEnd (c : FxConnection) (header refPacket : UDPPacketHeader) (btRecvBufferId : Nat)
    (u : FxUDPConnectSock) : FxUDPConnectSock :=
  let sendWindow := releases (span u.sendWindow.btBegin (succ header.cAck)) u.sendWindow
  let (bPacketReceived, w) := takeSlot refPacket.cSyn btRecvBufferId headSize u.recvWindow
  let w := if bPacketReceived then w else u.recvWindow
  let ackLast := pred sendWindow.btBegin
  let btNewAck := newAck w w.count w.btBegin ackLast
  { u with
    sendWindow := sendWindow
    recvWindow := shifts (span w.btBegin (succ btNewAck)) w
    ackLast := ackLast }.establish c

/-- `Connect` with the first answer that it gets; `none` when that is not the one it wants. -/
def connect (c : FxConnection) (dNow : Rat) (answer : List UInt8) (u : FxUDPConnectSock) :
    Option FxUDPConnectSock :=
  let header := u.synHeader
  let (btRecvBufferId, u) := connectStart dNow u
  let w := u.recvWindow.fill btRecvBufferId (answer.take headSize)
  let u := { u with recvWindow := w }
  let refPacket := UDPPacketHeader.ofBuffer (w.ppBuffer btRecvBufferId)
  if refPacket.cAck ≠ 1 then none
  else if refPacket.cSyn ≠ 1 then none
  else if refPacket.cStatus ≠ ESocketState.establish.code then none
  else some (connectEnd c header refPacket btRecvBufferId u)

/-! ### OnAccept -/

/-- What `recvfrom` leaves of a new header; no datagram is the error -1. -/
def recvHeader (datagram : Option (List UInt8)) : UDPPacketHeader :=
  let oUDPPacketHeader := Memory.write (fun _ => 0) 0 UDPPacketHeader.new.bytes
  UDPPacketHeader.ofBuffer (Memory.write oUDPPacketHeader 0 ((datagram.getD []).take headSize))

/-- The header is looked at unless `recvfrom` returns 0. -/
def refuses (datagram : Option (List UInt8)) (oUDPPacketHeader : UDPPacketHeader) : Prop :=
  datagram ≠ some [] ∧ (oUDPPacketHeader.cAck ≠ 0 ∨ oUDPPacketHeader.cSyn ≠ 1 ∨
    oUDPPacketHeader.cStatus ≠ ESocketState.connect.code)

instance (datagram : Option (List UInt8)) (oUDPPacketHeader : UDPPacketHeader) :
    Decidable (refuses datagram oUDPPacketHeader) := inferInstanceAs (Decidable (_ ∧ _))

/-- The new socket takes the header as the first packet of its peer and answers it. -/
def acceptHeader (c : FxConnection) (dNow : Rat) (pUDPPacketHeader : UDPPacketHeader)
    (u : FxUDPConnectSock) : FxUDPConnectSock :=
  let w := u.recvWindow
  let (btRecvBufferId, w) := (emptySlots w.count w.btBegin w).allocate
  let w := w.fill btRecvBufferId pUDPPacketHeader.bytes
  let (_, w) := takeSlot pUDPPacketHeader.cSyn btRecvBufferId headSize w
  let ackLast := pred u.sendWindow.btBegin
  let btNewAck := newAck w w.count w.btBegin ackLast
  let u := { u with
    sock := { u.sock with state := .establish }
    recvWindow := shifts (span w.btBegin (succ btNewAck)) w
    sendWindow := releases (span u.sendWindow.btBegin (succ pUDPPacketHeader.cAck)) u.sendWindow
    ackLast := ackLast }
  ({ putPacket dNow [] u with sendAck := true } : FxUDPConnectSock).establish c

/-- `OnAccept` with the datagram that the listener gets; `none` when it is refused. `u` is what the
pool hands out. -/
def onAccept (c : FxConnection) (dNow : Rat) (recvMem sendMem : Mem)
    (datagram : Option (List UInt8)) (u : FxUDPConnectSock) : Option FxUDPConnectSock :=
  let oUDPPacketHeader := recvHeader datagram
  if refuses datagram oUDPPacketHeader then none
  else some (acceptHeader c dNow oUDPPacketHeader (init dNow recvMem sendMem u))

end FxUDPConnectSock
