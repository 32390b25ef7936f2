import FxLib.FxNet.NetStream
import FxLib.Net.TcpFraming

/-!
# DataBuffer of the C# client

The class in `DataBuffer.cs`, an array whose first `m_dwUsedLength` bytes are in use, and the two
readers of its bytes: the header parser of `DataHeader.cs` and `OnRecv` of a `BinarySession`. The
test at the beginning of `PushData` and of `PopData` stands outside the lock, so the locked part is
a function of its own. An exception is `none`.
-/

open MachineInt

namespace FxNet

structure DataBuffer where
  pData : List UInt8
  dwUsedLength : Nat
  size : pData.length = 65536
  used_le : dwUsedLength ≤ 65536

namespace DataBuffer

def maxDataLength : Nat := 65536

def new : DataBuffer :=
  ⟨List.replicate maxDataLength 0, 0, List.length_replicate, Nat.zero_le _⟩

def getFreeLength (b : DataBuffer) : Nat := maxDataLength - b.dwUsedLength

/-- The bytes in use. What is behind them has been there before. -/
def stored (b : DataBuffer) : List UInt8 := b.pData.take b.dwUsedLength

/-- `PushData` inside the lock. `Array.Copy` throws where an array is too short. -/
def copyIn (b : DataBuffer) (byteData : List UInt8) (dwDataLen : Nat) : Option DataBuffer :=
  if h : dwDataLen ≤ byteData.length ∧ b.dwUsedLength + dwDataLen ≤ 65536 then
    some {
      pData := b.pData.take b.dwUsedLength ++
        (byteData.take dwDataLen ++ b.pData.drop (b.dwUsedLength + dwDataLen))
      dwUsedLength := b.dwUsedLength + dwDataLen
      size := by
        have hsize := b.size
        simp only [List.length_append, List.length_take, List.length_drop]
        omega
      used_le := h.2 }
  else none

def pushData (b : DataBuffer) (byteData : List UInt8) (dwDataLen : Nat) :
    Option (Bool × DataBuffer) :=
  if maxDataLength - b.dwUsedLength < dwDataLen then some (false, b)
  else (b.copyIn byteData dwDataLen).map (true, ·)

/-- `PopData` inside the lock: the bytes behind the first `dwLen` move to the front. -/
def cutFront (b : DataBuffer) (dwLen : Nat) : Option DataBuffer :=
  if h : dwLen ≤ b.dwUsedLength then
    some {
      pData := (b.pData.drop dwLen).take (b.dwUsedLength - dwLen) ++
        b.pData.drop (b.dwUsedLength - dwLen)
      dwUsedLength := b.dwUsedLength - dwLen
      size := by
        have hsize := b.size
        have hused := b.used_le
        simp only [List.length_append, List.length_take, List.length_drop]
        omega
      used_le := Nat.le_trans (Nat.sub_le _ _) b.used_le }
  else none

def popData (b : DataBuffer) (dwLen : Nat) : Option (Bool × DataBuffer) :=
  if b.dwUsedLength < dwLen then some (false, b) else (b.cutFront dwLen).map (true, ·)

@[simp] theorem stored_length (b : DataBuffer) : b.stored.length = b.dwUsedLength := by
  have hsize := b.size
  have hused := b.used_le
  rw [stored, List.length_take]
  omega

@[simp] theorem new_stored : new.stored = [] := rfl

@[simp] theorem new_used : new.dwUsedLength = 0 := rfl

/-- A reader that keeps to the bytes in use sees those. -/
theorem take_stored (b : DataBuffer) {k : Nat} (h : k ≤ b.dwUsedLength) :
    b.pData.take k = b.stored.take k := by
  rw [stored, List.take_take, Nat.min_eq_left h]

variable {b b' : DataBuffer} {byteData : List UInt8} {n : Nat}

theorem copyIn_isSome (b : DataBuffer) (byteData : List UInt8) (h : n ≤ byteData.length)
    (hroom : b.dwUsedLength + n ≤ 65536) :
    ∃ b', b.copyIn byteData n = some b' := by
  rw [copyIn, dif_pos ⟨h, hroom⟩]
  exact ⟨_, rfl⟩

theorem copyIn_stored (h : b.copyIn byteData n = some b') :
    b'.stored = b.stored ++ byteData.take n := by
  rw [copyIn] at h
  split_ifs at h with hfit
  obtain rfl := Option.some.inj h
  have hlen : b.dwUsedLength + n = (b.pData.take b.dwUsedLength ++ byteData.take n).length := by
    have hstored := b.stored_length
    rw [stored] at hstored
    rw [List.length_append, hstored, List.length_take, Nat.min_eq_left hfit.1]
  simp only [stored]
  rw [← List.append_assoc, hlen, List.take_left]

/-- A push for which there is room. -/
theorem pushData_room (b : DataBuffer) (byteData : List UInt8) (h : n ≤ byteData.length)
    (hroom : b.dwUsedLength + n ≤ 65536) :
    ∃ b', b.pushData byteData n = some (true, b') ∧ b'.stored = b.stored ++ byteData.take n := by
  obtain ⟨b', hcopy⟩ := copyIn_isSome b byteData h hroom
  refine ⟨b', ?_, copyIn_stored hcopy⟩
  rw [pushData, if_neg (by rw [maxDataLength]; omega), hcopy]
  rfl

theorem cutFront_isSome (h : n ≤ b.dwUsedLength) : ∃ b', b.cutFront n = some b' := by
  rw [cutFront, dif_pos h]
  exact ⟨_, rfl⟩

theorem cutFront_stored (h : b.cutFront n = some b') : b'.stored = b.stored.drop n := by
  rw [cutFront] at h
  split_ifs at h with hle
  obtain rfl := Option.some.inj h
  have hsize := b.size
  have hused := b.used_le
  have hlen : b.dwUsedLength - n = ((b.pData.drop n).take (b.dwUsedLength - n)).length := by
    rw [List.length_take, List.length_drop]
    omega
  simp only [stored]
  rw [List.take_left' hlen.symm, List.drop_take]

theorem popData_stored (h : n ≤ b.dwUsedLength) :
    ∃ b', b.popData n = some (true, b') ∧ b'.stored = b.stored.drop n := by
  obtain ⟨b', hcut⟩ := cutFront_isSome h
  refine ⟨b', ?_, cutFront_stored hcut⟩
  rw [popData, if_neg (by omega), hcut]
  rfl

/-- With nothing behind them the bytes that are cut off stay in the array. -/
theorem cutFront_all (h : b.cutFront b.dwUsedLength = some b') :
    b'.pData = b.pData ∧ b'.dwUsedLength = 0 := by
  rw [cutFront, dif_pos (Nat.le_refl _)] at h
  obtain rfl := Option.some.inj h
  simp

end DataBuffer

/-! ### BinaryDataHeader -/

namespace BinaryDataHeader

def dwHeaderLen : UInt32 := 8

/-- `'T' << 24 | 'E' << 16 | 'S' << 8 | 'T'`. -/
def dwMagic : UInt32 := 0x54455354

def readHeader : ReadM Int := do
  let dwLength ← Reader.readInt
  let dwMagicNum ← Reader.readInt
  return if dwMagicNum ≠ dwMagic then -1 else toInt32 (dwHeaderLen + dwLength).toNat

/-- `__CheckPkgHeader`. -/
def checkPkgHeader (pBuf : List UInt8) : Option Int :=
  (readHeader (Reader.new (pBuf.take dwHeaderLen.toNat))).map Prod.fst

/-- `IFxDataHeader.ParsePacket`. -/
def parsePacket (pBuf : List UInt8) (dwLen : Nat) : Option Int :=
  if dwLen < dwHeaderLen.toNat then some 0 else checkPkgHeader pBuf

end BinaryDataHeader

/-! ### BinarySession -/

namespace BinarySession

def readPayload : ReadM (List UInt8) := do
  let dwDataLen ← Reader.readInt
  let _ ← Reader.readInt
  Reader.readData dwDataLen

/-- `OnRecv` of the session up to the payload that it gives to its object. -/
def onRecv (pBuf : List UInt8) (dwLen : Nat) : Option (List UInt8) :=
  (readPayload (Reader.new (pBuf.take dwLen))).map Prod.fst

end BinarySession

/-! ### Frames of the server -/

/-- A payload behind the header that the server puts in front of it. -/
def frame (payload : List UInt8) : List UInt8 := (FxTCPConnectSock.encode payload).1

theorem frame_length (payload : List UInt8) : (frame payload).length = 8 + payload.length :=
  FxTCPConnectSock.encode_length payload

/-- The header of a frame, as the `NetStream` of the client reads it. -/
theorem frame_eq {payload : List UInt8} (h : 8 + payload.length < 2147483648) :
    frame payload = ByteOrder.bytes 4 (UInt32.ofNat payload.length).toNat ++
      (ByteOrder.bytes 4 BinaryDataHeader.dwMagic.toNat ++ payload) := by
  rw [UInt32.toNat_ofNat_of_lt' (by rw [UInt32.size]; omega), ← List.append_assoc]
  rfl

theorem Reader.counted_new {pData : List UInt8} (h : pData.length < 4294967296) :
    (Reader.new pData).Counted := by
  rw [Reader.Counted, Reader.new, Reader.left, List.drop_zero]
  exact UInt32.toNat_ofNat_of_lt' h

theorem takes_readHeader {payload : List UInt8} (h : 8 + payload.length < 2147483648) :
    Reader.Takes BinaryDataHeader.readHeader
      (ByteOrder.bytes 4 (UInt32.ofNat payload.length).toNat ++
        ByteOrder.bytes 4 BinaryDataHeader.dwMagic.toNat) ((frame payload).length : Int) := by
  have hsum : (BinaryDataHeader.dwHeaderLen + UInt32.ofNat payload.length).toNat =
      8 + payload.length := by
    rw [UInt32.toNat_add, UInt32.toNat_ofNat_of_lt' (by rw [UInt32.size]; omega)]
    exact Nat.mod_eq_of_lt (Nat.lt_trans h (by decide))
  have hread := (Reader.takes_readInt (UInt32.ofNat payload.length)).bind
    (k := fun dwLength => do
      let dwMagicNum ← Reader.readInt
      return if dwMagicNum ≠ BinaryDataHeader.dwMagic then -1
        else toInt32 (BinaryDataHeader.dwHeaderLen + dwLength).toNat)
    ((Reader.takes_readInt BinaryDataHeader.dwMagic).map _)
  rwa [if_neg (by simp), hsum, toInt32_of_lt h, ← frame_length] at hread

/-- The first eight bytes of a frame tell its length. -/
theorem parsePacket_frame {payload pBuf : List UInt8} {dwLen : Nat}
    (h : 8 + payload.length < 2147483648) (hlen : 8 ≤ dwLen)
    (hbuf : pBuf.take 8 = (frame payload).take 8) :
    BinaryDataHeader.parsePacket pBuf dwLen = some ((frame payload).length : Int) := by
  have htake : pBuf.take 8 = (ByteOrder.bytes 4 (UInt32.ofNat payload.length).toNat ++
      ByteOrder.bytes 4 BinaryDataHeader.dwMagic.toNat) ++ [] := by
    rw [hbuf, frame_eq h, ← List.append_assoc, List.take_left' (by simp), List.append_nil]
  obtain ⟨t, hread, -⟩ := takes_readHeader h (Reader.new (pBuf.take 8)) [] htake
    (Reader.counted_new (by rw [List.length_take]; omega))
  have hwhole : ¬ dwLen < BinaryDataHeader.dwHeaderLen.toNat := Nat.not_lt.mpr hlen
  rw [BinaryDataHeader.parsePacket, if_neg hwhole, BinaryDataHeader.checkPkgHeader]
  exact congrArg (Option.map Prod.fst) hread

theorem parsePacket_short (pBuf : List UInt8) {dwLen : Nat} (h : dwLen < 8) :
    BinaryDataHeader.parsePacket pBuf dwLen = some 0 := by
  have hshort : dwLen < BinaryDataHeader.dwHeaderLen.toNat := h
  rw [BinaryDataHeader.parsePacket, if_pos hshort]

/-- The session finds the payload in a frame that stands at the front. -/
theorem onRecv_frame {payload pBuf : List UInt8} (h : 8 + payload.length < 2147483648)
    (hbuf : pBuf.take (frame payload).length = frame payload) :
    BinarySession.onRecv pBuf (frame payload).length = some payload := by
  have hcount : (UInt32.ofNat payload.length).toNat = payload.length :=
    UInt32.toNat_ofNat_of_lt' (by rw [UInt32.size]; omega)
  have hread := (Reader.takes_readInt (UInt32.ofNat payload.length)).bind
    (k := fun dwDataLen => do
      let _ ← Reader.readInt
      Reader.readData dwDataLen)
    ((Reader.takes_readInt BinaryDataHeader.dwMagic).bind
      (Reader.takes_readData hcount (by omega)))
  obtain ⟨t, hpayload, -⟩ := hread (Reader.new (frame payload)) []
    (by rw [List.append_nil]; exact frame_eq h)
    (Reader.counted_new (by rw [frame_length]; omega))
  rw [BinarySession.onRecv, hbuf]
  exact congrArg (Option.map Prod.fst) hpayload

end FxNet
