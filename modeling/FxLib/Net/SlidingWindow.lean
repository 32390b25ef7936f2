import Mathlib.Data.Rat.Defs
import Mathlib.Logic.Function.Basic
import FxLib.Net.DataHeader

/-!
# The sliding window

`SlidingWindow` of `Net/myudpsock.h`. Sequence numbers and buffer ids are `unsigned char`s. A free
buffer holds the id of the next one in its first byte, and the list ends with the id 32. The times
are exact rationals.
-/

structure SlidingWindow where
  ppBuffer : Nat → Mem
  freeBufferId : Nat
  seqBufferId : Nat → Nat
  seqSize : Nat → Nat
  seqTime : Nat → Rat
  seqRetry : Nat → Rat
  seqRetryTime : Nat → Rat
  seqRetryCount : Nat → Nat
  btBegin : Nat
  btEnd : Nat

namespace SlidingWindow

/-- `s_dwBufferSize`. -/
def bufferSize : Nat := 512

/-- `s_dwWindowSize`. -/
def windowSize : Nat := 32

/-- The next sequence number. -/
def succ (btId : Nat) : Nat := (btId + 1) % 256

/-- The one before. -/
def pred (btId : Nat) : Nat := (btId + 255) % 256

/-- How many numbers there are from one to the next, forwards. -/
def span (btFrom btTo : Nat) : Nat := (btTo + 256 - btFrom) % 256

def count (w : SlidingWindow) : Nat := span w.btBegin w.btEnd

def isValidIndex (w : SlidingWindow) (btId : Nat) : Bool := span w.btBegin btId < w.count

def clearBuffer (w : SlidingWindow) : SlidingWindow :=
  { w with
    freeBufferId := 0
    ppBuffer := fun i => if i < windowSize then
      Memory.write (w.ppBuffer i) 0 [UInt8.ofNat (i + 1)] else w.ppBuffer i }

/-- The first byte of a buffer. -/
def link (w : SlidingWindow) (btBufferId : Nat) : Nat := (w.ppBuffer btBufferId 0).toNat

/-- The first free buffer is taken off the list. -/
def allocate (w : SlidingWindow) : Nat × SlidingWindow :=
  (w.freeBufferId, { w with freeBufferId := w.link w.freeBufferId })

/-- A buffer becomes the first free one. -/
def free (w : SlidingWindow) (btBufferId : Nat) : SlidingWindow :=
  { w with
    ppBuffer := Function.update w.ppBuffer btBufferId
      (Memory.write (w.ppBuffer btBufferId) 0 [UInt8.ofNat w.freeBufferId])
    freeBufferId := btBufferId }

/-- Bytes at the beginning of a buffer. -/
def fill (w : SlidingWindow) (btBufferId : Nat) (bytes : List UInt8) : SlidingWindow :=
  { w with
    ppBuffer := Function.update w.ppBuffer btBufferId
      (Memory.write (w.ppBuffer btBufferId) 0 bytes) }

/-- The packet at the beginning of the window is done with: its buffer is free again. -/
def release (w : SlidingWindow) : SlidingWindow :=
  let w := w.free (w.seqBufferId (w.btBegin % windowSize))
  { w with btBegin := succ w.btBegin }

end SlidingWindow

/-- The three bytes in front of every packet. -/
structure UDPPacketHeader where
  cStatus : Nat
  cSyn : Nat
  cAck : Nat
  deriving DecidableEq

namespace UDPPacketHeader

/-- `sizeof(UDPPacketHeader)`. -/
def headSize : Nat := 3

/-- What the constructor leaves. -/
def new : UDPPacketHeader := ⟨255, 255, 255⟩

def bytes (h : UDPPacketHeader) : List UInt8 :=
  [UInt8.ofNat h.cStatus, UInt8.ofNat h.cSyn, UInt8.ofNat h.cAck]

/-- `*(UDPPacketHeader*)pBuffer`. -/
def ofBuffer (pBuffer : Mem) : UDPPacketHeader :=
  ⟨(pBuffer 0).toNat, (pBuffer 1).toNat, (pBuffer 2).toNat⟩

end UDPPacketHeader
