import FxLib.Lib.Utf16
import FxLib.Meta.NetStream
import Mathlib.Algebra.Order.Ring.Rat

/-!
# NetStream of the C# client

The class in `DataBuffer.cs` over a `MemoryStream`, the third codec of the same format. Its
`BinaryReader` and `BinaryWriter` are little endian on every host, and so are the hosts of the
client, which makes `HostToNetworkOrder` a swap. The overloads for signed types have the same bits.
An exception is `none`.
-/

namespace FxNet

open Codec

/-- `(float)n`: 24 significant bits, the nearest number, the even one of two. -/
def single (n : Int) : Int :=
  if n.natAbs < 16777216 then n
  else
    let e := n.natAbs.log2 - 23
    let q := n.natAbs / 2 ^ e
    let r := n.natAbs % 2 ^ e
    let q := if 2 ^ e < 2 * r ∨ 2 ^ e = 2 * r ∧ q % 2 = 1 then q + 1 else q
    n.sign * q * 2 ^ e

/-- A typed value, over the strings of either side. -/
inductive Value (str : Type) where
  | byte (cData : UInt8)
  | short (wData : UInt16)
  | int (dwData : UInt32)
  | int64 (ullData : UInt64)
  | float (fData : Rat)
  | string (szData : str)
  | data (pData : List UInt8)

/-- What a read asks for. -/
inductive Kind where
  | byte
  | short
  | int
  | int64
  | float
  | string
  | data (dwLen : Nat)

def Value.kind {str : Type} : Value str → Kind
  | .byte _ => .byte
  | .short _ => .short
  | .int _ => .int
  | .int64 _ => .int64
  | .float _ => .float
  | .string _ => .string
  | .data pData => .data pData.length

/-! ### Writing -/

/-- A stream of type `ENetStreamType_Write`. The `MemoryStream` does not grow. -/
structure Writer where
  written : List UInt8
  room : Nat
  dwLen : UInt32
  fits : room < 2147483648
  deriving DecidableEq

abbrev WriteM := StateT Writer Option PUnit

namespace Writer

def new (dwLen : Nat) (h : dwLen < 2147483648) : Writer := ⟨[], dwLen, .ofNat dwLen, h⟩

/-- `m_pWrite.Write` and `m_dwLen -=`. -/
def put (bytes : List UInt8) (s : Writer) : Option Writer :=
  if bytes.length > s.room then none
  else some ⟨s.written ++ bytes, s.room - bytes.length, s.dwLen - .ofNat bytes.length,
    Nat.lt_of_le_of_lt (Nat.sub_le _ _) s.fits⟩

def writeData (pData : List UInt8) (dwLen : Nat) : WriteM :=
  if dwLen > pData.length then failure
  else fun s => (put (pData.take dwLen) s).map (PUnit.unit, ·)

/-- `Write` of a number of `k` bytes that `HostToNetworkOrder` has converted. -/
def writeNumber (k n : Nat) : WriteM :=
  fun s => (put (HostOrder.little.bytes k (HostOrder.little.hton k n)) s).map (PUnit.unit, ·)

def writeByte (cData : UInt8) : WriteM := fun s => (put [cData] s).map (PUnit.unit, ·)

def writeShort (wData : UInt16) : WriteM := writeNumber 2 wData.toNat

def writeInt (dwData : UInt32) : WriteM := writeNumber 4 dwData.toNat

def writeInt64 (ullData : UInt64) : WriteM := writeNumber 8 ullData.toNat

/-- `(Int32)(fData * 256)`. -/
def fixed (fData : Rat) : UInt32 :=
  (Int32.ofInt ((fData * 256).num.tdiv (fData * 256).den)).toUInt32

def writeFloat (fData : Rat) : WriteM := writeInt (fixed fData)

def writeString (szData : List UInt16) : WriteM := do
  let pData := Utf16.toUtf8 szData
  writeInt (.ofNat pData.length)
  writeData pData pData.length

def write : Value (List UInt16) → WriteM
  | .byte cData => writeByte cData
  | .short wData => writeShort wData
  | .int dwData => writeInt dwData
  | .int64 ullData => writeInt64 ullData
  | .float fData => writeFloat fData
  | .string szData => writeString szData
  | .data pData => writeData pData pData.length

theorem appends_put : Appends put where
  nil := fun s => by simp [put]
  append := fun a b s => by
    simp only [put, List.length_append]
    by_cases ha : a.length > s.room
    · rw [if_pos (by omega), if_pos ha]
      rfl
    · rw [if_neg ha]
      simp only [Option.bind_some, put]
      by_cases hb : b.length > s.room - a.length
      · rw [if_pos (by omega), if_pos hb]
      · rw [if_neg (by omega), if_neg hb]
        simp only [Option.some.injEq, Writer.mk.injEq]
        refine ⟨(List.append_assoc _ _ _).symm, (Nat.sub_sub _ _ _).symm, ?_⟩
        rw [UInt32.ofNat_add, UInt32.sub_eq_add_neg, UInt32.sub_eq_add_neg, UInt32.sub_eq_add_neg,
          UInt32.neg_add, UInt32.sub_eq_add_neg, UInt32.add_assoc]

/-- The bytes of a value. -/
def bytes : Value (List UInt16) → List UInt8
  | .byte cData => [cData]
  | .short wData => ByteOrder.bytes 2 wData.toNat
  | .int dwData => ByteOrder.bytes 4 dwData.toNat
  | .int64 ullData => ByteOrder.bytes 8 ullData.toNat
  | .float fData => ByteOrder.bytes 4 (fixed fData).toNat
  | .string szData =>
    ByteOrder.bytes 4 (UInt32.ofNat (Utf16.toUtf8 szData).length).toNat ++ Utf16.toUtf8 szData
  | .data pData => pData

theorem encodes_writeNumber (k n : Nat) : Encodes put (writeNumber k n) (ByteOrder.bytes k n) := by
  intro s
  rw [writeNumber, HostOrder.bytes_hton]

theorem encodes_writeData (pData : List UInt8) :
    Encodes put (writeData pData pData.length) pData := by
  intro s
  rw [writeData, if_neg (Nat.lt_irrefl _), List.take_length]

theorem encodes_write (v : Value (List UInt16)) : Encodes put (write v) (bytes v) := by
  cases v with
  | byte cData => exact fun _ => rfl
  | short wData => exact encodes_writeNumber 2 _
  | int dwData => exact encodes_writeNumber 4 _
  | int64 ullData => exact encodes_writeNumber 8 _
  | float fData => exact encodes_writeNumber 4 _
  | string szData => exact (encodes_writeNumber 4 _).bind appends_put (encodes_writeData _)
  | data pData => exact encodes_writeData pData

/-- What a sequence of writes leaves in the stream, and that there was room for it. -/
theorem written_forM {vs : List (Value (List UInt16))} {s s' : Writer}
    (h : vs.forM write s = some (PUnit.unit, s')) :
    s'.written = s.written ++ vs.flatMap bytes ∧ (vs.flatMap bytes).length < 2147483648 := by
  rw [encodes_forM appends_put encodes_write vs s] at h
  obtain ⟨t, ht, hpair⟩ := Option.map_eq_some_iff.mp h
  obtain rfl : t = s' := (Prod.mk.inj hpair).2
  have hfits := s.fits
  rw [put] at ht
  split_ifs at ht
  obtain rfl := Option.some.inj ht
  exact ⟨rfl, by omega⟩

end Writer

/-! ### Reading -/

/-- A stream of type `ENetStreamType_Read`. -/
structure Reader where
  pData : List UInt8
  pos : Nat
  dwLen : UInt32
  deriving DecidableEq

abbrev ReadM (α : Type) := StateT Reader Option α

namespace Reader

def new (pData : List UInt8) : Reader := ⟨pData, 0, .ofNat pData.length⟩

/-- What is behind the position of the `MemoryStream`. -/
def left (s : Reader) : List UInt8 := s.pData.drop s.pos

/-- The reads of a number of `k` bytes. At the end of the stream they throw. -/
def readNumber (k : Nat) : ReadM Nat := fun s =>
  if s.left.length < k then none
  else some (HostOrder.little.value (s.left.take k), { s with pos := s.pos + k })

/-- `m_dwLen -= dwLen`. -/
def lessen (dwLen : UInt32) : ReadM PUnit := fun s =>
  some (PUnit.unit, { s with dwLen := s.dwLen - dwLen })

/-- `ReadBytes` reads what there is. -/
def readData (dwLen : UInt32) : ReadM (List UInt8) := fun s =>
  if 2147483648 ≤ dwLen.toNat then none
  else
    let pData := s.left.take dwLen.toNat
    some (pData, { s with pos := s.pos + pData.length, dwLen := s.dwLen - dwLen })

def readByte : ReadM UInt8 := do
  let cData ← readNumber 1
  lessen 1
  return .ofNat cData

def readShort : ReadM UInt16 := do
  let wData ← readNumber 2
  lessen 2
  return .ofNat (HostOrder.little.hton 2 wData)

def readInt : ReadM UInt32 := do
  let dwData ← readNumber 4
  lessen 4
  return .ofNat (HostOrder.little.hton 4 dwData)

def readInt64 : ReadM UInt64 := do
  let ullData ← readNumber 8
  lessen 8
  return .ofNat (HostOrder.little.hton 8 ullData)

/-- Neither `NetworkToHostOrder` nor `m_dwLen`. -/
def readFloat : ReadM Rat := do
  let dwFloat ← readNumber 4
  return single (UInt32.ofNat dwFloat).toInt32.toInt / 256

/-- `replace` is what `GetString` makes of bytes that are no UTF-8. -/
def readString (replace : List UInt8 → List Char) : ReadM (List UInt16) := do
  let dwLen ← readInt
  let pData ← readData dwLen
  return Utf16.ofUtf8 replace pData

def read (replace : List UInt8 → List Char) : Kind → ReadM (Value (List UInt16))
  | .byte => do return .byte (← readByte)
  | .short => do return .short (← readShort)
  | .int => do return .int (← readInt)
  | .int64 => do return .int64 (← readInt64)
  | .float => do return .float (← readFloat)
  | .string => do return .string (← readString replace)
  | .data dwLen => do return .data (← readData (.ofNat dwLen))

/-- The values are read one after the other, and each read takes from `GetLeftLen` what it takes
from the stream. -/
def ReadsBack (replace : List UInt8 → List Char) : List (Value (List UInt16)) → Reader → Prop
  | [], _ => True
  | v :: vs, s => ∃ s', read replace v.kind s = some (v, s') ∧
      s'.dwLen.toNat + (s'.pos - s.pos) = s.dwLen.toNat ∧ ReadsBack replace vs s'

/-! #### What one read does -/

/-- `GetLeftLen` is right. -/
def Counted (s : Reader) : Prop := s.dwLen.toNat = s.left.length

/-- The read takes `bytes`, answers `v`, and counts what it takes. -/
def Takes {α : Type} (r : ReadM α) (bytes : List UInt8) (v : α) : Prop :=
  ∀ s rest, s.left = bytes ++ rest → s.Counted →
    ∃ s', r s = some (v, s') ∧ s'.left = rest ∧ s'.Counted ∧ s'.pos = s.pos + bytes.length

section

variable {α β : Type} {r : ReadM α} {k : α → ReadM β} {a b : List UInt8} {v : α} {w : β}

theorem Takes.bind (h : Takes r a v) (h' : Takes (k v) b w) : Takes (r >>= k) (a ++ b) w := by
  intro s rest hs hcounted
  obtain ⟨t, hr, ht, hcounted', hpos⟩ := h s (b ++ rest) (by rw [hs, List.append_assoc]) hcounted
  obtain ⟨t', hk, ht', hcounted'', hpos'⟩ := h' t rest ht hcounted'
  refine ⟨t', ?_, ht', hcounted'', by rw [hpos', hpos, List.length_append, Nat.add_assoc]⟩
  rw [show (r >>= k) s = (r s).bind fun x => k x.1 x.2 from rfl, hr]
  exact hk

theorem Takes.map (h : Takes r a v) (f : α → β) : Takes (r >>= fun x => pure (f x)) a (f v) := by
  intro s rest hs hcounted
  obtain ⟨t, hr, ht⟩ := h s rest hs hcounted
  refine ⟨t, ?_, ht⟩
  rw [show (r >>= fun x => pure (f x)) s = (r s).bind fun x => some (f x.1, x.2) from rfl, hr]
  rfl

/-- A step behind the front of the stream. -/
theorem left_step {s : Reader} {bytes rest : List UInt8} (h : s.left = bytes ++ rest)
    (hcounted : s.Counted) {dwLen : UInt32} (hlen : dwLen.toNat = bytes.length) :
    let s' : Reader := ⟨s.pData, s.pos + bytes.length, s.dwLen - dwLen⟩
    s'.left = rest ∧ s'.Counted := by
  have hleft : s.pData.drop (s.pos + bytes.length) = rest := by
    rw [← List.drop_drop, show s.pData.drop s.pos = bytes ++ rest from h, List.drop_left]
  have hsum := congrArg List.length h
  rw [List.length_append] at hsum
  refine ⟨hleft, ?_⟩
  rw [Counted, left, hleft]
  rw [Counted] at hcounted
  rw [UInt32.toNat_sub_of_le _ _ (by rw [UInt32.le_iff_toNat_le]; omega)]
  omega

theorem takes_readData {pData : List UInt8} {dwLen : UInt32} (hlen : dwLen.toNat = pData.length)
    (hshort : pData.length < 2147483648) : Takes (readData dwLen) pData pData := by
  intro s rest hs hcounted
  have htake : s.left.take dwLen.toNat = pData := by rw [hs, hlen, List.take_left]
  refine ⟨⟨s.pData, s.pos + pData.length, s.dwLen - dwLen⟩, ?_, ?_⟩
  · simp only [readData, htake]
    rw [if_neg (by omega)]
  · obtain ⟨hleft, hcounted'⟩ := left_step hs hcounted hlen
    exact ⟨hleft, hcounted', rfl⟩

/-- The reads of whole numbers. -/
theorem takes_number (dwLen : UInt32) {bytes : List UInt8} {n : Nat} (hn : bytes.length = n)
    (hlen : dwLen.toNat = n) (f : Nat → α) :
    Takes (do let data ← readNumber n; lessen dwLen; return f data) bytes
      (f (HostOrder.little.value bytes)) := by
  subst hn
  intro s rest hs hcounted
  have hroom : ¬ s.left.length < bytes.length := by rw [hs, List.length_append]; omega
  have htake : s.left.take bytes.length = bytes := by rw [hs, List.take_left]
  obtain ⟨hleft, hcounted'⟩ := left_step hs hcounted hlen
  refine ⟨⟨s.pData, s.pos + bytes.length, s.dwLen - dwLen⟩, ?_, hleft, hcounted', rfl⟩
  rw [show (do let data ← readNumber bytes.length; lessen dwLen; return f data : ReadM α) s =
    (readNumber bytes.length s).bind fun x => some (f x.1, ⟨x.2.pData, x.2.pos, x.2.dwLen - dwLen⟩)
    from rfl, readNumber, if_neg hroom, htake]
  rfl

end

/-- What a value is after its way through UTF-8. -/
def back (replace : List UInt8 → List Char) : Value (List UInt16) → Value (List UInt16)
  | .string szData => .string (Utf16.ofUtf8 replace (Utf16.toUtf8 szData))
  | v => v

/-- A value that a read gives back with the length counted. -/
def Plain : Value (List UInt16) → Prop
  | .float _ => False
  | .string szData => Utf16.Paired szData
  | _ => True

instance : (v : Value (List UInt16)) → Decidable (Plain v)
  | .float _ => inferInstanceAs (Decidable False)
  | .string szData => inferInstanceAs (Decidable (Utf16.Paired szData))
  | .byte _ | .short _ | .int _ | .int64 _ | .data _ => inferInstanceAs (Decidable True)

section

variable (replace : List UInt8 → List Char)

theorem back_eq_iff {v : Value (List UInt16)} (h : ∀ fData, v ≠ .float fData) :
    back replace v = v ↔ Plain v := by
  cases v with
  | float fData => exact absurd rfl (h fData)
  | string szData =>
    rw [back, Value.string.injEq]
    exact Utf16.ofUtf8_toUtf8_iff replace szData
  | byte | short | int | int64 | data => exact iff_of_true rfl trivial

theorem takes_readByte (cData : UInt8) : Takes readByte [cData] cData := by
  have hread := takes_number 1 (show [cData].length = 1 from rfl) rfl UInt8.ofNat
  have hvalue : UInt8.ofNat (HostOrder.little.value [cData]) = cData := by
    simp [HostOrder.value, ByteOrder.value]
  rwa [hvalue] at hread

theorem takes_readShort (wData : UInt16) :
    Takes readShort (ByteOrder.bytes 2 wData.toNat) wData := by
  have hread := takes_number 2 (ByteOrder.bytes_length 2 wData.toNat) rfl
    fun data => UInt16.ofNat (HostOrder.little.hton 2 data)
  rwa [HostOrder.hton_value (by simp), ByteOrder.value_bytes_of_lt wData.toNat_lt,
    UInt16.ofNat_toNat] at hread

theorem takes_readInt (dwData : UInt32) :
    Takes readInt (ByteOrder.bytes 4 dwData.toNat) dwData := by
  have hread := takes_number 4 (ByteOrder.bytes_length 4 dwData.toNat) rfl
    fun data => UInt32.ofNat (HostOrder.little.hton 4 data)
  rwa [HostOrder.hton_value (by simp), ByteOrder.value_bytes_of_lt dwData.toNat_lt,
    UInt32.ofNat_toNat] at hread

theorem takes_readInt64 (ullData : UInt64) :
    Takes readInt64 (ByteOrder.bytes 8 ullData.toNat) ullData := by
  have hread := takes_number 8 (ByteOrder.bytes_length 8 ullData.toNat) rfl
    fun data => UInt64.ofNat (HostOrder.little.hton 8 data)
  rwa [HostOrder.hton_value (by simp), ByteOrder.value_bytes_of_lt ullData.toNat_lt,
    UInt64.ofNat_toNat] at hread

theorem takes_read {v : Value (List UInt16)} (h : ∀ fData, v ≠ .float fData)
    (hlen : (Writer.bytes v).length < 2147483648) :
    Takes (read replace v.kind) (Writer.bytes v) (back replace v) := by
  cases v with
  | byte cData => exact (takes_readByte cData).map _
  | short wData => exact (takes_readShort wData).map _
  | int dwData => exact (takes_readInt dwData).map _
  | int64 ullData => exact (takes_readInt64 ullData).map _
  | float fData => exact absurd rfl (h fData)
  | string szData =>
    rw [Writer.bytes, List.length_append] at hlen
    have hcount : (UInt32.ofNat (Utf16.toUtf8 szData).length).toNat =
        (Utf16.toUtf8 szData).length := UInt32.toNat_ofNat_of_lt' (by
      rw [UInt32.size]
      omega)
    exact (((takes_readInt _).bind ((takes_readData hcount (by omega)).map
      (Utf16.ofUtf8 replace))).map _)
  | data pData =>
    rw [Writer.bytes] at hlen
    have hcount : (UInt32.ofNat pData.length).toNat = pData.length :=
      UInt32.toNat_ofNat_of_lt' (by
        rw [UInt32.size]
        omega)
    exact (takes_readData hcount hlen).map _

/-- A float takes four bytes and does not count them. -/
theorem readFloat_uncounted {s s' : Reader} {v : Value (List UInt16)}
    (h : read replace .float s = some (v, s')) : s'.dwLen = s.dwLen ∧ s'.pos = s.pos + 4 := by
  obtain ⟨⟨fData, t⟩, hfloat, hv⟩ := Option.bind_eq_some_iff.mp h
  obtain ⟨⟨dwFloat, t'⟩, hnumber, hfloat⟩ := Option.bind_eq_some_iff.mp hfloat
  rw [readNumber] at hnumber
  split_ifs at hnumber
  obtain ⟨-, rfl⟩ := Prod.mk.inj (Option.some.inj hnumber)
  obtain ⟨-, rfl⟩ := Prod.mk.inj (Option.some.inj hfloat)
  obtain ⟨-, rfl⟩ := Prod.mk.inj (Option.some.inj hv)
  exact ⟨rfl, rfl⟩

theorem readsBack_iff {vs : List (Value (List UInt16))} {s : Reader} (hcounted : s.Counted)
    (hs : s.left = vs.flatMap Writer.bytes)
    (hlen : (vs.flatMap Writer.bytes).length < 2147483648) :
    ReadsBack replace vs s ↔ ∀ v ∈ vs, Plain v := by
  induction vs generalizing s with
  | nil => exact iff_of_true trivial fun v hv => by cases hv
  | cons v vs ih =>
    rw [List.flatMap_cons] at hs hlen
    rw [List.length_append] at hlen
    rw [List.forall_mem_cons, ReadsBack]
    by_cases hfloat : ∃ fData, v = .float fData
    · obtain ⟨fData, rfl⟩ := hfloat
      refine iff_of_false ?_ fun h => h.1
      rintro ⟨s', hread, hcount, -⟩
      obtain ⟨hsame, hpos⟩ := readFloat_uncounted replace hread
      rw [hsame, hpos] at hcount
      omega
    · have hother : ∀ fData, v ≠ .float fData := fun fData h => hfloat ⟨fData, h⟩
      obtain ⟨t, hread, ht, hcounted', hpos⟩ :=
        takes_read replace hother (by omega) s _ hs hcounted
      have hcount : t.dwLen.toNat + (t.pos - s.pos) = s.dwLen.toNat := by
        rw [hcounted', hcounted, ht, hs, hpos, List.length_append]
        omega
      rw [← back_eq_iff replace hother, ← ih hcounted' ht (by omega)]
      constructor
      · rintro ⟨s', hread', -, hrest⟩
        rw [hread] at hread'
        obtain ⟨hback, rfl⟩ := Prod.mk.inj (Option.some.inj hread')
        exact ⟨hback, hrest⟩
      · rintro ⟨hback, hrest⟩
        exact ⟨t, by rw [hread, hback], hcount, hrest⟩

end

end Reader

/-! ### The server reads the same bytes -/

section

variable (o : HostOrder)

/-- `ReadFloat` of the server. -/
def readServerFloat : StateT CNetStream Option Rat := do
  let dwFloat ← CNetStream.readUInt32 o
  return single dwFloat.toInt32.toInt / 256

/-- The corresponding reads of `CNetStream`. -/
def readServer : Kind → StateT CNetStream Option (Value (List UInt8))
  | .byte => do return .byte (← CNetStream.readUInt8 o)
  | .short => do return .short (← CNetStream.readUInt16 o)
  | .int => do return .int (← CNetStream.readUInt32 o)
  | .int64 => do return .int64 (← CNetStream.readUInt64 o)
  | .float => do return .float (← readServerFloat o)
  | .string => do return .string (← CNetStream.readString o)
  | .data dwLen => do return .data (← CNetStream.readBytes dwLen)

def readServerAll : List Kind → StateT CNetStream Option (List (Value (List UInt8)))
  | [] => pure []
  | k :: ks => do
    let v ← readServer o k
    let vs ← readServerAll ks
    return v :: vs

end

/-- A value on the side of the server: a string is its UTF-8, a float what its 32 bits say. -/
def toServer : Value (List UInt16) → Value (List UInt8)
  | .byte cData => .byte cData
  | .short wData => .short wData
  | .int dwData => .int dwData
  | .int64 ullData => .int64 ullData
  | .float fData => .float (single (Writer.fixed fData).toInt32.toInt / 256)
  | .string szData => .string (Utf16.toUtf8 szData)
  | .data pData => .data pData

section

variable (o : HostOrder)

theorem decodes_readServer {v : Value (List UInt16)} (hlen : (Writer.bytes v).length < 2147483648) :
    Decodes CNetStream.content (readServer o v.kind) (Writer.bytes v) (toServer v) := by
  cases v with
  | byte cData => exact (CNetStream.decodes_readUInt8 o cData).map _
  | short wData => exact (CNetStream.decodes_readUInt16 o wData).map _
  | int dwData => exact (CNetStream.decodes_readUInt32 o dwData).map _
  | int64 ullData => exact (CNetStream.decodes_readUInt64 o ullData).map _
  | float fData => exact ((CNetStream.decodes_readUInt32 o _).map _).map _
  | string szData =>
    rw [Writer.bytes, List.length_append] at hlen
    have hcut := (CNetStream.cut_eq_iff (Utf16.toUtf8 szData)).mpr (by omega)
    have hread := CNetStream.decodes_readString o (Utf16.toUtf8 szData)
    rw [CNetStream.stringBytes, hcut] at hread
    exact hread.map _
  | data pData => exact (CNetStream.decodes_readBytes rfl).map _

theorem decodes_readServerAll {vs : List (Value (List UInt16))}
    (hlen : (vs.flatMap Writer.bytes).length < 2147483648) :
    Decodes CNetStream.content (readServerAll o (vs.map Value.kind)) (vs.flatMap Writer.bytes)
      (vs.map toServer) := by
  induction vs with
  | nil => exact decodes_pure []
  | cons v vs ih =>
    rw [List.flatMap_cons, List.length_append] at hlen
    exact (decodes_readServer o (by omega)).bind ((ih (by omega)).map _)

/-- Values that were written are read back with the length counted, and the server reads the same,
if and only if there is no float among them and their strings have no surrogate by itself. -/
theorem netStream_agrees_iff (replace : List UInt8 → List Char) (vs : List (Value (List UInt16)))
    (dwLen : Nat) (h : dwLen < 2147483648) {s : Writer}
    (hwritten : vs.forM Writer.write (Writer.new dwLen h) = some (PUnit.unit, s)) :
    Reader.ReadsBack replace vs (Reader.new s.written) ∧
        Decodes CNetStream.content (readServerAll o (vs.map Value.kind)) s.written
          (vs.map toServer) ↔
      ∀ v ∈ vs, Reader.Plain v := by
  obtain ⟨hbytes, hlen⟩ := Writer.written_forM hwritten
  rw [show s.written = vs.flatMap Writer.bytes from hbytes]
  have hcounted : (Reader.new (vs.flatMap Writer.bytes)).Counted :=
    UInt32.toNat_ofNat_of_lt' (by
      rw [UInt32.size]
      exact Nat.lt_trans hlen (by omega))
  rw [and_iff_left (decodes_readServerAll o hlen)]
  exact Reader.readsBack_iff replace hcounted rfl hlen

end

theorem netStream_agrees_mixed :
    Reader.ReadsBack (fun _ => []) [.int 5, .string [0x41, 0xD83D, 0xDE00], .data [1, 2]]
      (Reader.new [0, 0, 0, 5, 0, 0, 0, 5, 0x41, 0xF0, 0x9F, 0x98, 0x80, 1, 2]) :=
  ((netStream_agrees_iff .little (fun _ => [])
    [.int 5, .string [0x41, 0xD83D, 0xDE00], .data [1, 2]] 15 (by decide)
    (s := ⟨[0, 0, 0, 5, 0, 0, 0, 5, 0x41, 0xF0, 0x9F, 0x98, 0x80, 1, 2], 0, 0, by decide⟩)
    (by decide +kernel)).mpr (by decide +kernel)).1

/-- The float 1 is written as 00 00 01 00 and read as 256, with no byte counted. -/
theorem netStream_float :
    [Value.float 1].forM Writer.write (Writer.new 4 (by decide)) =
        some (PUnit.unit, ⟨[0, 0, 1, 0], 0, 0, by decide⟩) ∧
      (∀ replace, ¬ Reader.ReadsBack replace [.float 1] (Reader.new [0, 0, 1, 0])) ∧
      Reader.readFloat (Reader.new [0, 0, 1, 0]) = some (256, ⟨[0, 0, 1, 0], 4, 4⟩) := by
  refine ⟨by decide +kernel, fun replace hread => ?_, by decide +kernel⟩
  obtain ⟨s', hs', hcount, -⟩ := hread
  obtain ⟨hsame, hpos⟩ := Reader.readFloat_uncounted replace hs'
  rw [hsame, hpos] at hcount
  omega

end FxNet
