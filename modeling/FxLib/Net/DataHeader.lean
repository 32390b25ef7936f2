import FxLib.Lib.ByteOrder
import FxLib.Net.LoopBuff

/-!
# Data headers

`CNetStream` of `meta_header/netstream.h`, the interface `IFxDataHeader` and its
two implementations in `WebGame/SocketSession.cpp`. A header object collects the
first bytes of a frame in a small buffer of its own and computes the frame's total
length from them. `copies` records every `memcpy` into that buffer, as an offset
and a length.
-/

open MachineInt

/-- The memory behind a pointer, addressed from the pointer. -/
def Mem.at (m : Mem) (p : Int) : Mem := fun i => m (p + i)

theorem Memory.read_at (m : Mem) (p off : Int) (n : Nat) :
    Memory.read (m.at p) off n = Memory.read m (p + off) n := by
  induction n generalizing off with
  | zero => rfl
  | succ n ih =>
    rw [Memory.read_succ, Memory.read_succ, ih, ← Int.add_assoc]
    rfl

/-! ### CNetStream -/

structure CNetStream where
  pData : Mem
  dwLen : Nat

namespace CNetStream

def readData (s : CNetStream) (dwLen : Nat) : Option Mem × CNetStream :=
  if dwLen > s.dwLen then (none, s)
  else (some s.pData, ⟨s.pData.at dwLen, s.dwLen - dwLen⟩)

/-- A number of `k` bytes in network byte order; the variable keeps its value when the
stream is too short. -/
def readNumber (s : CNetStream) (k data : Nat) : Nat × CNetStream :=
  match s.readData k with
  | (none, s) => (data, s)
  | (some pData, s) => (ByteOrder.value (Memory.read pData 0 k), s)

def readByte (s : CNetStream) (btData : Nat) : Nat × CNetStream := s.readNumber 1 btData

def readShort (s : CNetStream) (wData : Nat) : Nat × CNetStream := s.readNumber 2 wData

def readInt (s : CNetStream) (dwData : Nat) : Nat × CNetStream := s.readNumber 4 dwData

def readInt64 (s : CNetStream) (ullData : Nat) : Nat × CNetStream := s.readNumber 8 ullData

end CNetStream

/-! ### IFxDataHeader -/

/-- The virtual functions of a header object of type `η` that the sockets call. -/
structure IFxDataHeader (η : Type) where
  getHeaderLength : η → Nat
  getPkgHeader : η → Mem
  buildRecvPkgHeader : η → (pBuff : Mem) → (dwLen dwOffset : Nat) → Bool × η
  parsePacket : η → (pBuf : Mem) → (dwLen : Nat) → Int × η

/-! ### BinaryDataHeader -/

structure BinaryDataHeader where
  dataRecvBuffer : Mem
  copies : List (Nat × Nat)

namespace BinaryDataHeader

/-- `sizeof(m_dataRecvBuffer)`. -/
def headerLength : Nat := 8

/-- `'T' << 24 | 'E' << 16 | 'S' << 8 | 'T'`. -/
def magic : Nat := 0x54455354

def buildSendPkgHeader (dwDataLen : Nat) : List UInt8 :=
  ByteOrder.bytes 4 dwDataLen ++ ByteOrder.bytes 4 magic

def buildRecvPkgHeader (h : BinaryDataHeader) (pBuff : Mem) (dwLen dwOffset : Nat) :
    Bool × BinaryDataHeader :=
  if (dwLen + dwOffset) % 4294967296 > headerLength then (false, h)
  else
    (true, ⟨Memory.write h.dataRecvBuffer dwOffset (Memory.read pBuff 0 dwLen),
      h.copies ++ [(dwOffset, dwLen)]⟩)

def checkPkgHeader (h : BinaryDataHeader) (pBuf : Mem) : Int :=
  let oHeaderStream : CNetStream := ⟨h.dataRecvBuffer, headerLength⟩
  let oRecvStream : CNetStream := ⟨pBuf, headerLength⟩
  let (dwHeaderLength, oHeaderStream) := oHeaderStream.readInt 0
  let (dwBufferLength, oRecvStream) := oRecvStream.readInt 0
  let (_, _) := oHeaderStream.readInt 0
  let (dwBufferMagic, _) := oRecvStream.readInt 0
  if dwHeaderLength ≠ dwBufferLength then -1
  else if magic ≠ dwBufferMagic then -1
  else toInt32 (headerLength + dwHeaderLength)

/-- `IFxDataHeader::ParsePacket`, which this class inherits. -/
def parsePacket (h : BinaryDataHeader) (pBuf : Mem) (dwLen : Nat) : Int :=
  if dwLen < headerLength then 0 else h.checkPkgHeader pBuf

def vtable : IFxDataHeader BinaryDataHeader where
  getHeaderLength := fun _ => headerLength
  getPkgHeader := fun h => h.dataRecvBuffer
  buildRecvPkgHeader := buildRecvPkgHeader
  parsePacket := fun h pBuf dwLen => (h.parsePacket pBuf dwLen, h)

/-! What the parser computes from the eight bytes of a header. -/

/-- `__CheckPkgHeader` on a header that stands in the buffer as it was received. -/
def pkgLength (header : List UInt8) : Int :=
  if ByteOrder.value ((header.drop 4).take 4) = magic then
    toInt32 (headerLength + ByteOrder.value (header.take 4))
  else -1

theorem readInt_eight (pData : Mem) (dwData : Nat) :
    (⟨pData, 8⟩ : CNetStream).readInt dwData =
      (ByteOrder.value (Memory.read pData 0 4), ⟨pData.at 4, 4⟩) := by
  simp [CNetStream.readInt, CNetStream.readNumber, CNetStream.readData]

theorem readInt_four (pData : Mem) (dwData : Nat) :
    (⟨pData, 4⟩ : CNetStream).readInt dwData =
      (ByteOrder.value (Memory.read pData 0 4), ⟨pData.at 4, 0⟩) := by
  simp [CNetStream.readInt, CNetStream.readNumber, CNetStream.readData]

theorem checkPkgHeader_eq {h : BinaryDataHeader} {pBuf : Mem} {header : List UInt8}
    (hbuilt : Memory.read h.dataRecvBuffer 0 8 = header) (hbuf : Memory.read pBuf 0 8 = header) :
    h.checkPkgHeader pBuf = pkgLength header := by
  have hfirst : ∀ m : Mem, Memory.read m 0 8 = header → Memory.read m 0 4 = header.take 4 := by
    intro m hm
    rw [← hm, Memory.read_take m 0 (by omega)]
  have hsecond : Memory.read (pBuf.at 4) 0 4 = (header.drop 4).take 4 := by
    rw [← hbuf, Memory.read_drop pBuf 0 (by omega), Memory.read_at, ← Memory.read_take _ _ le_rfl]
    rfl
  simp only [checkPkgHeader, headerLength, readInt_eight, readInt_four, hfirst _ hbuilt,
    hfirst _ hbuf, hsecond, pkgLength]
  by_cases hmagic : ByteOrder.value ((header.drop 4).take 4) = magic
  · simp [hmagic]
  · rw [if_neg (by simp), if_pos (Ne.symm hmagic), if_neg hmagic]

theorem parsePacket_short (h : BinaryDataHeader) (pBuf : Mem) {dwLen : Nat} (hlt : dwLen < 8) :
    vtable.parsePacket h pBuf dwLen = (0, h) := by
  simp only [vtable, parsePacket]
  rw [if_pos (show dwLen < headerLength from hlt)]

theorem parsePacket_whole {h : BinaryDataHeader} {pBuf : Mem} {dwLen : Nat} {header : List UInt8}
    (hlen : 8 ≤ dwLen) (hbuilt : Memory.read h.dataRecvBuffer 0 8 = header)
    (hbuf : Memory.read pBuf 0 8 = header) :
    vtable.parsePacket h pBuf dwLen = (pkgLength header, h) := by
  simp only [vtable, parsePacket]
  rw [if_neg (show ¬ dwLen < headerLength from Nat.not_lt.mpr hlen),
    checkPkgHeader_eq hbuilt hbuf]

theorem buildRecvPkgHeader_eq (h : BinaryDataHeader) (pBuf : Mem) {dwLen dwOffset : Nat}
    (hle : dwLen + dwOffset ≤ 8) :
    (vtable.buildRecvPkgHeader h pBuf dwLen dwOffset).2 =
      ⟨Memory.write h.dataRecvBuffer dwOffset (Memory.read pBuf 0 dwLen),
        h.copies ++ [(dwOffset, dwLen)]⟩ := by
  have hsum : ¬ (dwLen + dwOffset) % 4294967296 > headerLength := by
    rw [Nat.mod_eq_of_lt (by omega)]
    exact Nat.not_lt.mpr hle
  simp only [vtable, buildRecvPkgHeader]
  rw [if_neg hsum]

/-- No copy has left the header's buffer. -/
def InBuffer (h : BinaryDataHeader) : Prop := ∀ copy ∈ h.copies, copy.1 + copy.2 ≤ headerLength

theorem InBuffer.build {h : BinaryDataHeader} (hin : h.InBuffer) (pBuf : Mem)
    {dwLen dwOffset : Nat} (hle : dwLen + dwOffset ≤ 8) :
    (vtable.buildRecvPkgHeader h pBuf dwLen dwOffset).2.InBuffer := by
  rw [buildRecvPkgHeader_eq h pBuf hle]
  intro copy hcopy
  rcases List.mem_append.mp hcopy with hold | hnew
  · exact hin copy hold
  · obtain rfl := List.mem_singleton.mp hnew
    simp only [headerLength]
    omega

end BinaryDataHeader

/-! ### WebSocketDataHeader -/

structure WebSocketDataHeader where
  btOpCode : Nat
  btFin : Nat
  btMask : Nat
  qwPayloadLen : Nat
  btMaskingKey : List UInt8
  dataRecvBuffer : Mem
  dwHeaderLength : Nat
  copies : List (Nat × Nat)

namespace WebSocketDataHeader

/-- `sizeof(m_dataRecvBuffer)`. -/
def bufferSize : Nat := 16

/-- The header fields are set as a side effect. -/
def checkPkgHeader (h : WebSocketDataHeader) (pBuf : Mem) : Int × WebSocketDataHeader :=
  let oHeaderStream : CNetStream := ⟨pBuf, bufferSize⟩
  let (bt1, oHeaderStream) := oHeaderStream.readByte 0
  let (bt2, oHeaderStream) := oHeaderStream.readByte 0
  let h := { h with dwHeaderLength := 2, btFin := bt1 / 128, btOpCode := bt1 % 16
                    btMask := bt2 / 128, qwPayloadLen := bt2 % 128 }
  let (h, oHeaderStream) :=
    if h.qwPayloadLen = 126 then
      let (wTemp, oHeaderStream) := oHeaderStream.readShort 0
      ({ h with qwPayloadLen := wTemp, dwHeaderLength := h.dwHeaderLength + 2 }, oHeaderStream)
    else if h.qwPayloadLen = 127 then
      let (qwTemp, oHeaderStream) := oHeaderStream.readInt64 0
      ({ h with qwPayloadLen := qwTemp, dwHeaderLength := h.dwHeaderLength + 8 }, oHeaderStream)
    else (h, oHeaderStream)
  let h :=
    if h.btMask ≠ 0 then
      match (oHeaderStream.readData 4).1 with
      | none => { h with dwHeaderLength := h.dwHeaderLength + 4 }
      | some pKey =>
        { h with btMaskingKey := Memory.read pKey 0 4, dwHeaderLength := h.dwHeaderLength + 4 }
    else h
  (toInt32 ((h.qwPayloadLen + h.dwHeaderLength) % 18446744073709551616), h)

/-- The bound of the copy is computed in `size_t`. -/
def buildRecvPkgHeader (h : WebSocketDataHeader) (pBuff : Mem) (dwLen dwOffset : Nat) :
    Bool × WebSocketDataHeader :=
  let room := (bufferSize + 18446744073709551616 - dwOffset) % 18446744073709551616
  let n := if room > dwLen then dwLen else room
  let h := { h with
    dataRecvBuffer := Memory.write h.dataRecvBuffer dwOffset (Memory.read pBuff 0 n)
    copies := h.copies ++ [(dwOffset, n)]
    dwHeaderLength := 0 }
  if (dwLen + dwOffset) % 4294967296 > 2 then (true, (h.checkPkgHeader h.dataRecvBuffer).2)
  else (true, h)

def parsePacket (h : WebSocketDataHeader) (_pBuf : Mem) (dwLen : Nat) :
    Int × WebSocketDataHeader :=
  if dwLen < 2 then (0, h)
  else
    let (nPkgLen, h) := h.checkPkgHeader h.dataRecvBuffer
    if dwLen < h.dwHeaderLength then (0, h) else (nPkgLen, h)

def vtable : IFxDataHeader WebSocketDataHeader where
  getHeaderLength := fun h => h.dwHeaderLength
  getPkgHeader := fun h => h.dataRecvBuffer
  buildRecvPkgHeader := buildRecvPkgHeader
  parsePacket := parsePacket

/-! What the parser computes from the first bytes of a frame. -/

/-- The length of a header with the second byte `bt2`. -/
def headerLen (bt2 : UInt8) : Nat :=
  2 + (if bt2.toNat % 128 = 126 then 2 else if bt2.toNat % 128 = 127 then 8 else 0) +
    if bt2.toNat / 128 ≠ 0 then 4 else 0

/-- The header length of a frame of which at least two bytes are known. -/
def lengthOf (frame : List UInt8) : Nat := headerLen (frame.getD 1 0)

def payloadLen (frame : List UInt8) : Nat :=
  let n := (frame.getD 1 0).toNat % 128
  if n = 126 then ByteOrder.value ((frame.drop 2).take 2)
  else if n = 127 then ByteOrder.value ((frame.drop 2).take 8)
  else n

/-- `__CheckPkgHeader` on a header that stands in the buffer as it was received. -/
def pkgLength (frame : List UInt8) : Int :=
  toInt32 ((payloadLen frame + lengthOf frame) % 18446744073709551616)

theorem headerLen_ge (bt2 : UInt8) : 2 ≤ headerLen bt2 := by
  rw [headerLen]
  omega

theorem headerLen_le (bt2 : UInt8) : headerLen bt2 ≤ 14 := by
  rw [headerLen]
  split_ifs <;> omega

/-- Only the bytes of the header count. -/
theorem lengthOf_take {frame : List UInt8} {k : Nat} (hk : 2 ≤ k) :
    lengthOf (frame.take k) = lengthOf frame := by
  rw [lengthOf, lengthOf, List.getD_eq_getElem?_getD, List.getD_eq_getElem?_getD,
    List.getElem?_take_of_lt (by omega)]

theorem payloadLen_take {frame : List UInt8} {k : Nat} (hk : lengthOf frame ≤ k) :
    payloadLen (frame.take k) = payloadLen frame := by
  have htwo := headerLen_ge (frame.getD 1 0)
  have hget : (frame.take k).getD 1 0 = frame.getD 1 0 := by
    rw [List.getD_eq_getElem?_getD, List.getD_eq_getElem?_getD,
      List.getElem?_take_of_lt (by rw [lengthOf] at hk; omega)]
  have hcut : ∀ j, j + 2 ≤ k → ((frame.take k).drop 2).take j = (frame.drop 2).take j := by
    intro j hj
    rw [List.drop_take, List.take_take, Nat.min_eq_left (by omega)]
  rw [lengthOf, headerLen] at hk
  simp only [payloadLen, hget]
  split_ifs with h126 h127
  · rw [if_pos h126] at hk
    rw [hcut 2 (by omega)]
  · rw [if_neg h126, if_pos h127] at hk
    rw [hcut 8 (by omega)]
  · rfl

theorem pkgLength_take {frame : List UInt8} {k : Nat} (hk : lengthOf frame ≤ k) :
    pkgLength (frame.take k) = pkgLength frame := by
  have htwo := headerLen_ge (frame.getD 1 0)
  rw [pkgLength, payloadLen_take hk, lengthOf_take (by rw [lengthOf] at hk; omega), pkgLength]

theorem readByte_sixteen (pData : Mem) (btData : Nat) :
    (⟨pData, 16⟩ : CNetStream).readByte btData = ((pData 0).toNat, ⟨pData.at 1, 15⟩) := by
  simp [CNetStream.readByte, CNetStream.readNumber, CNetStream.readData, ByteOrder.value,
    Memory.read]

theorem readByte_fifteen (pData : Mem) (btData : Nat) :
    (⟨pData, 15⟩ : CNetStream).readByte btData = ((pData 0).toNat, ⟨pData.at 1, 14⟩) := by
  simp [CNetStream.readByte, CNetStream.readNumber, CNetStream.readData, ByteOrder.value,
    Memory.read]

theorem readShort_fourteen (pData : Mem) (wData : Nat) :
    (⟨pData, 14⟩ : CNetStream).readShort wData =
      (ByteOrder.value (Memory.read pData 0 2), ⟨pData.at 2, 12⟩) := by
  simp [CNetStream.readShort, CNetStream.readNumber, CNetStream.readData]

theorem readInt64_fourteen (pData : Mem) (ullData : Nat) :
    (⟨pData, 14⟩ : CNetStream).readInt64 ullData =
      (ByteOrder.value (Memory.read pData 0 8), ⟨pData.at 8, 6⟩) := by
  simp [CNetStream.readInt64, CNetStream.readNumber, CNetStream.readData]

/-- The header length is that of the second byte, and the buffer stays. -/
theorem checkPkgHeader_length (h : WebSocketDataHeader) (pBuf : Mem) :
    (h.checkPkgHeader pBuf).2.dwHeaderLength = headerLen (pBuf 1) ∧
      (h.checkPkgHeader pBuf).2.dataRecvBuffer = h.dataRecvBuffer ∧
      (h.checkPkgHeader pBuf).2.copies = h.copies := by
  have hsecond : pBuf.at 1 0 = pBuf 1 := rfl
  simp only [checkPkgHeader, bufferSize, readByte_sixteen, readByte_fifteen, readShort_fourteen,
    readInt64_fourteen, hsecond, headerLen]
  split_ifs <;> simp [CNetStream.readData]

theorem read_second {pBuf : Mem} {frame : List UInt8} {k : Nat}
    (hframe : Memory.read pBuf 0 k = frame) (hk : 2 ≤ k) : pBuf 1 = frame.getD 1 0 := by
  have hlen : 1 < (Memory.read pBuf 0 k).length := by rw [Memory.read_length]; omega
  rw [← hframe, List.getD_eq_getElem?_getD, List.getElem?_eq_getElem hlen, Memory.read_getElem]
  rfl

theorem checkPkgHeader_eq (h : WebSocketDataHeader) {pBuf : Mem} {frame : List UInt8} {k : Nat}
    (hframe : Memory.read pBuf 0 k = frame) (hk : lengthOf frame ≤ k) :
    (h.checkPkgHeader pBuf).1 = pkgLength frame := by
  have htwo := headerLen_ge (frame.getD 1 0)
  have hsecond : pBuf.at 1 0 = frame.getD 1 0 := read_second hframe (by rw [lengthOf] at hk; omega)
  have hread : ∀ j, j + 2 ≤ k → Memory.read ((pBuf.at 1).at 1) 0 j = (frame.drop 2).take j := by
    intro j hj
    rw [← hframe, Memory.read_drop pBuf 0 (by omega),
      ← Memory.read_take _ _ (show j ≤ k - 2 by omega),
      Memory.read_at, Memory.read_at]
    rfl
  rw [lengthOf, headerLen] at hk
  by_cases h126 : (frame.getD 1 0).toNat % 128 = 126
  · have hshort := hread 2 (by rw [if_pos h126] at hk; omega)
    simp only [checkPkgHeader, bufferSize, readByte_sixteen, readByte_fifteen, readShort_fourteen,
      hsecond, pkgLength, payloadLen, lengthOf, headerLen, if_pos h126, hshort]
    split_ifs <;> simp [CNetStream.readData]
  · by_cases h127 : (frame.getD 1 0).toNat % 128 = 127
    · have hlong := hread 8 (by rw [if_neg h126, if_pos h127] at hk; omega)
      simp only [checkPkgHeader, bufferSize, readByte_sixteen, readByte_fifteen,
        readInt64_fourteen, hsecond, pkgLength, payloadLen, lengthOf, headerLen, if_neg h126,
        if_pos h127, hlong]
      split_ifs <;> simp [CNetStream.readData]
    · simp only [checkPkgHeader, bufferSize, readByte_sixteen, readByte_fifteen, hsecond, pkgLength,
        payloadLen, lengthOf, headerLen, if_neg h126, if_neg h127]
      split_ifs <;> simp [CNetStream.readData]

/-! A header is put together from one or two copies. -/

/-- The buffer begins with what it can hold of `bytes`. -/
def Holding (h : WebSocketDataHeader) (bytes : List UInt8) : Prop :=
  Memory.read h.dataRecvBuffer 0 (min bufferSize bytes.length) = bytes.take bufferSize

/-- No copy has left the header's buffer. -/
def InBuffer (h : WebSocketDataHeader) : Prop :=
  ∀ copy ∈ h.copies, copy.2 = 0 ∨ copy.1 + copy.2 ≤ bufferSize

/-- The bound of a copy to an offset behind the buffer has wrapped around. -/
def copied (dwLen dwOffset : Nat) : Nat :=
  if dwOffset ≤ bufferSize then min dwLen (bufferSize - dwOffset) else dwLen

theorem buildRecvPkgHeader_same (h : WebSocketDataHeader) (pBuf : Mem) {dwLen dwOffset : Nat}
    (hlen : dwLen < 4294967296) (hoff : dwOffset < 4294967296) :
    (vtable.buildRecvPkgHeader h pBuf dwLen dwOffset).2.dataRecvBuffer =
        Memory.write h.dataRecvBuffer dwOffset (Memory.read pBuf 0 (copied dwLen dwOffset)) ∧
      (vtable.buildRecvPkgHeader h pBuf dwLen dwOffset).2.copies =
        h.copies ++ [(dwOffset, copied dwLen dwOffset)] := by
  have hcopied : (if (bufferSize + 18446744073709551616 - dwOffset) % 18446744073709551616 > dwLen
      then dwLen else (bufferSize + 18446744073709551616 - dwOffset) % 18446744073709551616) =
      copied dwLen dwOffset := by
    rw [copied, bufferSize]
    split_ifs <;> omega
  simp only [vtable, buildRecvPkgHeader, hcopied]
  split <;> simp only [checkPkgHeader_length, and_self]

theorem Holding.second {h : WebSocketDataHeader} {bytes : List UInt8} (hold : h.Holding bytes)
    (hlen : 2 ≤ bytes.length) : headerLen (h.dataRecvBuffer 1) = lengthOf bytes := by
  rw [read_second hold (by rw [bufferSize]; omega), ← lengthOf, lengthOf_take (by decide)]

/-- The second copy continues the first. -/
theorem Holding.build {h : WebSocketDataHeader} {xs ys : List UInt8} {pBuf : Mem}
    (hold : h.Holding xs) (hread : Memory.read pBuf 0 ys.length = ys)
    (hx : xs.length < 4294967296) (hy : ys.length < 4294967296) :
    (vtable.buildRecvPkgHeader h pBuf ys.length xs.length).2.Holding (xs ++ ys) := by
  have hbuf := (buildRecvPkgHeader_same h pBuf hy hx).1
  rw [Holding] at hold ⊢
  rw [hbuf]
  by_cases hle : xs.length ≤ bufferSize
  · have hcopied : copied ys.length xs.length = min ys.length (bufferSize - xs.length) := by
      rw [copied, if_pos hle]
    have hys : Memory.read pBuf 0 (min ys.length (bufferSize - xs.length)) =
        ys.take (bufferSize - xs.length) := by
      rw [← Memory.read_take pBuf 0 (Nat.min_le_left ys.length _), hread,
        Nat.min_comm, ← List.take_eq_take_min]
    have hend : min bufferSize (xs.length + ys.length) =
        xs.length + (ys.take (bufferSize - xs.length)).length := by
      rw [List.length_take]
      omega
    rw [Nat.min_eq_right hle, List.take_of_length_le hle] at hold
    rw [hcopied, hys, List.length_append, hend, List.take_append, List.take_of_length_le hle,
      Memory.read_add, Memory.read_write_disjoint _ _ (Or.inl (by omega)), hold, zero_add,
      Memory.read_write_same]
  · have hin : ¬ bufferSize < 0 := by omega
    rw [List.length_append, Nat.min_eq_left (by omega),
      Memory.read_write_disjoint _ _ (Or.inl (by omega)),
      List.take_append_of_le_length (by omega)]
    rwa [Nat.min_eq_left (by omega)] at hold

/-- The first copy. -/
theorem holding_build (h : WebSocketDataHeader) {ys : List UInt8} {pBuf : Mem}
    (hread : Memory.read pBuf 0 ys.length = ys) (hy : ys.length < 4294967296) :
    (vtable.buildRecvPkgHeader h pBuf ys.length 0).2.Holding ys := by
  have hold : h.Holding [] := rfl
  exact hold.build hread (by simp) hy

theorem build_headerLength {h : WebSocketDataHeader} {xs ys : List UInt8} {pBuf : Mem}
    (hold : h.Holding xs) (hread : Memory.read pBuf 0 ys.length = ys)
    (hsum : xs.length + ys.length < 4294967296) (htwo : 2 < xs.length + ys.length) :
    (vtable.buildRecvPkgHeader h pBuf ys.length xs.length).2.dwHeaderLength =
      lengthOf (xs ++ ys) := by
  have hbuilt := hold.build hread (by omega) (by omega)
  rw [← hbuilt.second (by rw [List.length_append]; omega)]
  simp only [vtable, buildRecvPkgHeader]
  rw [if_pos (by rw [Nat.mod_eq_of_lt (by omega)]; omega)]
  simp only [checkPkgHeader_length]

theorem InBuffer.build {h : WebSocketDataHeader} (hin : h.InBuffer) (pBuf : Mem)
    {dwLen dwOffset : Nat} (hlen : dwLen < 4294967296) (hoff : dwOffset < 4294967296)
    (hinside : dwOffset ≤ bufferSize ∨ dwLen = 0) :
    (vtable.buildRecvPkgHeader h pBuf dwLen dwOffset).2.InBuffer := by
  intro copy hcopy
  rw [(buildRecvPkgHeader_same h pBuf hlen hoff).2] at hcopy
  rcases List.mem_append.mp hcopy with hold | hnew
  · exact hin copy hold
  · obtain rfl := List.mem_singleton.mp hnew
    simp only [copied]
    split_ifs <;> omega

/-- The length of the frame that begins with `frame`, 0 while its header is incomplete. -/
theorem parsePacket_eq {h : WebSocketDataHeader} {frame : List UInt8} (pBuf : Mem)
    (hold : h.Holding frame) (hlen : 2 ≤ frame.length) :
    (vtable.parsePacket h pBuf frame.length).1 =
        (if frame.length < lengthOf frame then 0 else pkgLength frame) ∧
      (vtable.parsePacket h pBuf frame.length).2.dwHeaderLength = lengthOf frame ∧
      (vtable.parsePacket h pBuf frame.length).2.copies = h.copies := by
  obtain ⟨hhl, _, hcopies⟩ := checkPkgHeader_length h h.dataRecvBuffer
  rw [hold.second hlen] at hhl
  have hle := headerLen_le (frame.getD 1 0)
  rw [← lengthOf] at hle
  have hparse : vtable.parsePacket h pBuf frame.length =
      if frame.length < (h.checkPkgHeader h.dataRecvBuffer).2.dwHeaderLength then
        (0, (h.checkPkgHeader h.dataRecvBuffer).2)
      else h.checkPkgHeader h.dataRecvBuffer := by
    simp only [vtable, parsePacket]
    rw [if_neg (by omega)]
  have hpkg := fun hk => checkPkgHeader_eq h hold hk
  rw [hparse]
  generalize h.checkPkgHeader h.dataRecvBuffer = answer at hhl hcopies hpkg ⊢
  rw [hhl]
  by_cases hlt : frame.length < lengthOf frame
  · rw [if_pos hlt, if_pos hlt]
    exact ⟨rfl, hhl, hcopies⟩
  · have hpkg := hpkg (by rw [lengthOf_take (by decide), bufferSize]; omega)
    rw [pkgLength_take (by rw [bufferSize]; omega)] at hpkg
    rw [if_neg hlt, if_neg hlt]
    exact ⟨hpkg, hhl, hcopies⟩

theorem parsePacket_short (h : WebSocketDataHeader) (pBuf : Mem) {dwLen : Nat} (hlt : dwLen < 2) :
    vtable.parsePacket h pBuf dwLen = (0, h) := by
  simp only [vtable, parsePacket]
  rw [if_pos hlt]

end WebSocketDataHeader
