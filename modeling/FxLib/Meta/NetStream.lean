import FxLib.Lib.Codec
import FxLib.Net.DataHeader

/-!
# CNetStream

The typed reads and writes of `meta_header/netstream.h`. A stream of type
`ENetStreamType_Write` is a `WriteStream`, one of type `ENetStreamType_Read` a `CNetStream`, so
the assertions on `m_eType` hold. The overloads for signed types copy the same bits as those for
unsigned ones.
-/

/-! ### Numbers in memory -/

inductive HostOrder where
  | little
  | big

namespace HostOrder

/-- The bytes of a number of `k` bytes in memory. -/
def bytes (o : HostOrder) (k n : Nat) : List UInt8 :=
  match o with
  | .little => (ByteOrder.bytes k n).reverse
  | .big => ByteOrder.bytes k n

def value (o : HostOrder) (bs : List UInt8) : Nat :=
  match o with
  | .little => ByteOrder.value bs.reverse
  | .big => ByteOrder.value bs

/-- `htons`, `htonl`, `ntohs` and `ntohl`, for 2 and for 4 bytes. -/
def hton (o : HostOrder) (k n : Nat) : Nat :=
  match o with
  | .little => ByteOrder.value (ByteOrder.bytes k n).reverse
  | .big => n

/-- The conversion of `ReadInt64` and `WriteInt64`, which asks for the byte order itself. -/
def swapInt64 (o : HostOrder) (ullData : Nat) : Nat :=
  match o with
  | .little =>
    hton .little 4 (ullData >>> 32 % 4294967296) ||| hton .little 4 (ullData % 4294967296) <<< 32
  | .big => ullData

variable {o : HostOrder} {k n : Nat} {bs : List UInt8}

@[simp] theorem bytes_length : (o.bytes k n).length = k := by
  cases o <;> simp [bytes]

theorem reverse_bytes_value (h : bs.length = k) :
    (ByteOrder.bytes k (ByteOrder.value bs)).reverse = bs.reverse := by
  rw [← h, ByteOrder.bytes_value]

/-- A converted number lies in memory in network order. -/
theorem bytes_hton : o.bytes k (o.hton k n) = ByteOrder.bytes k n := by
  cases o with
  | little =>
    simp only [bytes, hton]
    rw [reverse_bytes_value (by simp), List.reverse_reverse]
  | big => rfl

theorem hton_value (h : bs.length = k) : o.hton k (o.value bs) = ByteOrder.value bs := by
  cases o with
  | little =>
    simp only [hton, value]
    rw [reverse_bytes_value (by simpa using h), List.reverse_reverse]
  | big => rfl

theorem hton_lt : hton .little k n < 256 ^ k := by
  have hlt := ByteOrder.value_lt (ByteOrder.bytes k n).reverse
  simpa [hton] using hlt

/-- The two words are swapped and each is converted. -/
theorem swapInt64_eq (h : n < 256 ^ 8) : o.swapInt64 n = o.hton 8 n := by
  cases o with
  | little =>
    have hhigh : n >>> 32 % 4294967296 = n / 256 ^ 4 := by
      rw [Nat.shiftRight_eq_div_pow]
      omega
    have hlow : hton .little 4 (n % 4294967296) = hton .little 4 n := by
      simp only [hton]
      rw [show (4294967296 : Nat) = 256 ^ 4 by norm_num, ByteOrder.bytes_mod]
    rw [swapInt64, hhigh, hlow, Nat.or_comm,
      ← Nat.shiftLeft_add_eq_or_of_lt (show hton .little 4 (n / 256 ^ 4) < 2 ^ 32 from
        lt_of_lt_of_eq hton_lt (by norm_num)), Nat.shiftLeft_eq]
    simp only [hton]
    rw [show (8 : Nat) = 4 + 4 from rfl, ByteOrder.bytes_add, List.reverse_append,
      ByteOrder.value_append, List.length_reverse, ByteOrder.bytes_length]
    norm_num
  | big => rfl

end HostOrder

/-! ### Writing -/

structure WriteStream where
  mem : Mem
  pData : Int
  dwLen : Nat
  fits : dwLen < 4294967296

namespace WriteStream

/-- Copy `bytes` to the stream and move on. -/
def put (bytes : List UInt8) (s : WriteStream) : Option WriteStream :=
  if bytes.length > s.dwLen then none
  else some ⟨Memory.write s.mem s.pData bytes, s.pData + bytes.length, s.dwLen - bytes.length,
    lt_of_le_of_lt (Nat.sub_le _ _) s.fits⟩

/-- What has been written between two states of a stream. -/
def produced (s s' : WriteStream) : List UInt8 := Memory.read s'.mem s.pData (s.dwLen - s'.dwLen)

theorem write_append (m : Mem) (off : Int) (a b : List UInt8) :
    Memory.write m off (a ++ b) = Memory.write (Memory.write m off a) (off + a.length) b := by
  funext p
  by_cases hb : off + a.length ≤ p ∧ p < off + a.length + b.length
  · obtain ⟨i, hi⟩ : ∃ i : Nat, p = off + a.length + i := ⟨(p - off - a.length).toNat, by omega⟩
    have hlt : i < b.length := by omega
    have hin := Memory.write_inside m off (a ++ b) (i := a.length + i)
      (by rw [List.length_append]; omega)
    rw [hi, Memory.write_inside _ _ b hlt]
    rw [List.getElem_append_right (by omega)] at hin
    simp only [Nat.add_sub_cancel_left] at hin
    rw [← hin]
    congr 1
    push_cast
    omega
  · rw [Memory.write_outside _ (off + a.length) b (by omega)]
    by_cases ha : off ≤ p ∧ p < off + a.length
    · obtain ⟨i, hi⟩ : ∃ i : Nat, p = off + i := ⟨(p - off).toNat, by omega⟩
      have hlt : i < a.length := by omega
      rw [hi, Memory.write_inside _ _ a hlt,
        Memory.write_inside _ _ (a ++ b) (by rw [List.length_append]; omega),
        List.getElem_append_left hlt]
    · rw [Memory.write_outside _ _ a (by omega),
        Memory.write_outside _ _ (a ++ b) (by rw [List.length_append]; push_cast; omega)]

theorem appends_put : Codec.Appends put where
  nil := fun s => by simp [put, Memory.write]
  append := fun a b s => by
    simp only [put, List.length_append]
    by_cases ha : a.length > s.dwLen
    · rw [if_pos (by omega), if_pos ha]
      rfl
    · rw [if_neg ha]
      simp only [Option.bind_some, put]
      by_cases hb : b.length > s.dwLen - a.length
      · rw [if_pos (by omega), if_pos hb]
      · rw [if_neg (by omega), if_neg hb, write_append]
        simp only [Option.some.injEq, WriteStream.mk.injEq, true_and]
        push_cast
        omega

theorem produced_put {s s' : WriteStream} {bytes : List UInt8} (h : put bytes s = some s') :
    s.produced s' = bytes ∧ bytes.length < 4294967296 := by
  unfold put at h
  split_ifs at h with hlen
  obtain rfl := Option.some.inj h
  have hfits := s.fits
  refine ⟨?_, by omega⟩
  simp only [produced]
  rw [show s.dwLen - (s.dwLen - bytes.length) = bytes.length by omega, Memory.read_write_same]

/-- Calls of `WriteData` one after the other, until one fails. -/
def writeAll : List (List UInt8) → WriteStream → WriteStream
  | [], s => s
  | pData :: rest, s =>
    match put pData s with
    | none => s
    | some s' => writeAll rest s'

theorem writeAll_eq (pieces : List (List UInt8)) (s : WriteStream) :
    put (Codec.fit s.dwLen pieces) s = some (writeAll pieces s) := by
  induction pieces generalizing s with
  | nil => exact appends_put.nil s
  | cons pData rest ih =>
    rw [Codec.fit, writeAll]
    by_cases h : pData.length ≤ s.dwLen
    · have hput : put pData s = some ⟨Memory.write s.mem s.pData pData, s.pData + pData.length,
          s.dwLen - pData.length, lt_of_le_of_lt (Nat.sub_le _ _) s.fits⟩ := by
        rw [put, if_neg (by omega)]
      rw [if_pos h, appends_put.append, hput]
      exact ih _
    · have hput : put pData s = none := by
        rw [put, if_pos (by omega)]
      rw [if_neg h, hput]
      exact appends_put.nil s

/-- What stands in the stream is what there was room for. -/
theorem produced_writeAll (pieces : List (List UInt8)) (s : WriteStream) :
    s.produced (writeAll pieces s) = Codec.fit s.dwLen pieces :=
  (produced_put (writeAll_eq pieces s)).1

end WriteStream

abbrev WriteM := StateT WriteStream Option PUnit

namespace WriteStream

def writeData (pData : List UInt8) (dwLen : Nat) : WriteM :=
  fun s => (put (pData.take dwLen) s).map (PUnit.unit, ·)

section

variable (o : HostOrder)

def writeByte (cData : UInt8) : WriteM := writeData (o.bytes 1 cData.toNat) 1

def writeShort (wData : UInt16) : WriteM := writeData (o.bytes 2 (o.hton 2 wData.toNat)) 2

def writeInt (dwData : UInt32) : WriteM := writeData (o.bytes 4 (o.hton 4 dwData.toNat)) 4

def writeInt64 (ullData : UInt64) : WriteM :=
  writeData (o.bytes 8 (o.swapInt64 ullData.toNat)) 8

/-- `refStr.size()` becomes an `unsigned int` both in front of the text and as its length. -/
def writeString (refStr : List UInt8) : WriteM := do
  writeInt o (UInt32.ofNat refStr.length)
  writeData refStr (refStr.length % 4294967296)

end

/-- A call whose result is not asked for. Where it fails, the stream stays as it is. -/
def attempt (w : WriteM) (s : WriteStream) : WriteStream := ((w s).map Prod.snd).getD s

theorem put_eq_some {bytes : List UInt8} {s : WriteStream} (h : bytes.length ≤ s.dwLen) :
    ∃ s', put bytes s = some s' ∧ s'.dwLen = s.dwLen - bytes.length := by
  rw [put, if_neg (by omega)]
  exact ⟨_, rfl, rfl⟩

theorem put_eq_none {bytes : List UInt8} {s : WriteStream} (h : s.dwLen < bytes.length) :
    put bytes s = none := if_pos h

theorem put_attempt {w : WriteM} {bytes : List UInt8} {s : WriteStream}
    (hw : Codec.Encodes put w bytes) (h : bytes.length ≤ s.dwLen) :
    put bytes s = some (attempt w s) := by
  obtain ⟨s', hs', -⟩ := put_eq_some h
  rw [attempt, hw s, hs']
  rfl

theorem attempt_of_lt {w : WriteM} {bytes : List UInt8} {s : WriteStream}
    (hw : Codec.Encodes put w bytes) (h : s.dwLen < bytes.length) : attempt w s = s := by
  rw [attempt, hw s, put_eq_none h]
  rfl

/-- One more write for which there is room. -/
theorem put_append_attempt {w : WriteM} {a b : List UInt8} {s s' : WriteStream}
    (hs : put a s = some s') (hw : Codec.Encodes put w b) (h : a.length + b.length ≤ s.dwLen) :
    put (a ++ b) s = some (s'.attempt w) := by
  obtain ⟨t, ht, hlen⟩ := put_eq_some (show a.length ≤ s.dwLen by omega)
  rw [hs] at ht
  obtain rfl := Option.some.inj ht
  rw [appends_put.append, hs, Option.bind_some]
  exact put_attempt hw (by omega)

theorem read_put {s s' : WriteStream} {bytes : List UInt8} {n : Nat} (h : put bytes s = some s')
    (hn : bytes.length = n) : Memory.read s'.mem s.pData n = bytes := by
  subst hn
  rw [put] at h
  split_ifs at h
  obtain rfl := Option.some.inj h
  exact Memory.read_write_same _ _ _

end WriteStream

/-! ### Reading -/

abbrev ReadM (α : Type) := StateT CNetStream Option α

namespace CNetStream

/-- The bytes a stream has left. -/
def content (s : CNetStream) : List UInt8 := Memory.read s.pData 0 s.dwLen

/-- The bytes that `ReadData` points to. -/
def readBytes (dwLen : Nat) : ReadM (List UInt8) := fun s =>
  match s.readData dwLen with
  | (none, _) => none
  | (some pData, s) => some (Memory.read pData 0 dwLen, s)

section

variable (o : HostOrder)

def readUInt8 : ReadM UInt8 := do
  let pData ← readBytes 1
  return UInt8.ofNat (o.value pData)

def readUInt16 : ReadM UInt16 := do
  let pData ← readBytes 2
  return UInt16.ofNat (o.hton 2 (o.value pData))

def readUInt32 : ReadM UInt32 := do
  let pData ← readBytes 4
  return UInt32.ofNat (o.hton 4 (o.value pData))

def readUInt64 : ReadM UInt64 := do
  let pData ← readBytes 8
  return UInt64.ofNat (o.swapInt64 (o.value pData))

def readString : ReadM (List UInt8) := do
  let dwStrLen ← readUInt32 o
  let refStr ← readBytes dwStrLen.toNat
  if dwStrLen.toNat ≠ refStr.length then failure
  return refStr

end

/-! ### What is written is read -/

open Codec WriteStream

theorem decodes_readBytes {n : Nat} {bytes : List UInt8} (h : bytes.length = n) :
    Decodes content (readBytes n) bytes bytes := by
  intro s rest hs
  have hlen := congrArg List.length hs
  simp only [content, Memory.read_length, List.length_append] at hlen
  refine ⟨⟨s.pData.at n, s.dwLen - n⟩, ?_, ?_⟩
  · have hread := congrArg (List.take n) hs
    rw [content, Memory.read_take _ _ (by omega), ← h, List.take_left, h] at hread
    simp only [readBytes, readData]
    rw [if_neg (by omega)]
    simp only [hread]
  · have hread := congrArg (List.drop n) hs
    rw [content, Memory.read_drop _ _ (by omega), ← h, List.drop_left, h] at hread
    simpa only [content, Memory.read_at, Int.add_comm] using hread

/-- A stream over given bytes. -/
def ofBytes (bytes : List UInt8) : CNetStream :=
  ⟨Memory.write (fun _ => 0) 0 bytes, bytes.length⟩

theorem content_ofBytes (bytes : List UInt8) : (ofBytes bytes).content = bytes := by
  simp only [content, ofBytes, Memory.read_write_same]

theorem encodes_writeData {pData : List UInt8} {dwLen : Nat} (h : pData.length = dwLen) :
    Encodes put (writeData pData dwLen) pData := by
  intro s
  rw [writeData, ← h, List.take_length]

section Numbers

variable (o : HostOrder)

theorem encodes_writeByte (cData : UInt8) : Encodes put (writeByte o cData) [cData] := by
  have hbytes : o.bytes 1 cData.toNat = [cData] := by
    cases o <;> simp [HostOrder.bytes, ByteOrder.bytes]
  rw [writeByte, hbytes]
  exact encodes_writeData rfl

theorem encodes_writeShort (wData : UInt16) :
    Encodes put (writeShort o wData) (ByteOrder.bytes 2 wData.toNat) := by
  rw [writeShort, HostOrder.bytes_hton]
  exact encodes_writeData (by simp)

theorem encodes_writeInt (dwData : UInt32) :
    Encodes put (writeInt o dwData) (ByteOrder.bytes 4 dwData.toNat) := by
  rw [writeInt, HostOrder.bytes_hton]
  exact encodes_writeData (by simp)

theorem encodes_writeInt64 (ullData : UInt64) :
    Encodes put (writeInt64 o ullData) (ByteOrder.bytes 8 ullData.toNat) := by
  rw [writeInt64, HostOrder.swapInt64_eq ullData.toNat_lt, HostOrder.bytes_hton]
  exact encodes_writeData (by simp)

theorem decodes_readUInt8 (cData : UInt8) : Decodes content (readUInt8 o) [cData] cData := by
  have hvalue : UInt8.ofNat (o.value [cData]) = cData := by
    cases o <;> simp [HostOrder.value, ByteOrder.value]
  have hread := (decodes_readBytes (show [cData].length = 1 from rfl)).map
    fun pData => UInt8.ofNat (o.value pData)
  rwa [hvalue] at hread

theorem decodes_readUInt16 (wData : UInt16) :
    Decodes content (readUInt16 o) (ByteOrder.bytes 2 wData.toNat) wData := by
  have hread := (decodes_readBytes (ByteOrder.bytes_length 2 wData.toNat)).map
    fun pData => UInt16.ofNat (o.hton 2 (o.value pData))
  rwa [HostOrder.hton_value (by simp), ByteOrder.value_bytes_of_lt wData.toNat_lt,
    UInt16.ofNat_toNat] at hread

theorem decodes_readUInt32 (dwData : UInt32) :
    Decodes content (readUInt32 o) (ByteOrder.bytes 4 dwData.toNat) dwData := by
  have hread := (decodes_readBytes (ByteOrder.bytes_length 4 dwData.toNat)).map
    fun pData => UInt32.ofNat (o.hton 4 (o.value pData))
  rwa [HostOrder.hton_value (by simp), ByteOrder.value_bytes_of_lt dwData.toNat_lt,
    UInt32.ofNat_toNat] at hread

theorem value_lt {bs : List UInt8} {k : Nat} (h : bs.length = k) : o.value bs < 256 ^ k := by
  subst h
  cases o with
  | little => simpa [HostOrder.value] using ByteOrder.value_lt bs.reverse
  | big => exact ByteOrder.value_lt bs

theorem decodes_readUInt64 (ullData : UInt64) :
    Decodes content (readUInt64 o) (ByteOrder.bytes 8 ullData.toNat) ullData := by
  have hread := (decodes_readBytes (ByteOrder.bytes_length 8 ullData.toNat)).map
    fun pData => UInt64.ofNat (o.swapInt64 (o.value pData))
  rwa [HostOrder.swapInt64_eq (value_lt o (by simp)), HostOrder.hton_value (by simp),
    ByteOrder.value_bytes_of_lt ullData.toNat_lt, UInt64.ofNat_toNat] at hread

end Numbers

/-! #### Strings -/

/-- What of a string reaches the stream. -/
def cut (refStr : List UInt8) : List UInt8 := refStr.take (refStr.length % 4294967296)

theorem cut_length (refStr : List UInt8) : (cut refStr).length = refStr.length % 4294967296 := by
  have hle := Nat.mod_le refStr.length 4294967296
  rw [cut, List.length_take]
  omega

/-- Only a string whose length fits is written as it is. -/
theorem cut_eq_iff (refStr : List UInt8) :
    cut refStr = refStr ↔ refStr.length < 4294967296 := by
  constructor
  · intro h
    have hlen := cut_length refStr
    rw [h] at hlen
    omega
  · intro h
    rw [cut, Nat.mod_eq_of_lt h, List.take_length]

def stringBytes (refStr : List UInt8) : List UInt8 :=
  ByteOrder.bytes 4 (UInt32.ofNat refStr.length).toNat ++ cut refStr

theorem encodes_writeString (o : HostOrder) (refStr : List UInt8) :
    Encodes put (writeString o refStr) (stringBytes refStr) := by
  refine (encodes_writeInt o _).bind appends_put fun s => ?_
  rfl

theorem decodes_readString (o : HostOrder) (refStr : List UInt8) :
    Decodes content (readString o) (stringBytes refStr) (cut refStr) := by
  have hlen : (cut refStr).length = (UInt32.ofNat refStr.length).toNat := by
    rw [cut_length]
    simp
  refine (decodes_readUInt32 o _).bind ?_
  have hread := (decodes_readBytes hlen).bind (k := fun bytes => do
    if (UInt32.ofNat refStr.length).toNat ≠ bytes.length then failure
    return bytes) (w := cut refStr) (b := []) (by
      simp only [hlen, ne_eq, not_true_eq_false, if_false]
      exact decodes_pure _)
  rwa [List.append_nil] at hread

end CNetStream

/-! ### Sequences of typed writes -/

/-- A value as it is handed to a write. Raw data comes with its length as an `unsigned int`. -/
inductive StreamValue where
  | byte (cData : UInt8)
  | short (wData : UInt16)
  | int (dwData : UInt32)
  | int64 (ullData : UInt64)
  | string (refStr : List UInt8)
  | data (pData : { pData : List UInt8 // pData.length < 4294967296 })

/-- What a read asks for. -/
inductive StreamKind where
  | byte
  | short
  | int
  | int64
  | string
  | data (dwLen : Nat)

namespace StreamValue

open CNetStream WriteStream Codec

def kind : StreamValue → StreamKind
  | .byte _ => .byte
  | .short _ => .short
  | .int _ => .int
  | .int64 _ => .int64
  | .string _ => .string
  | .data block => .data block.1.length

def write (o : HostOrder) : StreamValue → WriteM
  | .byte cData => writeByte o cData
  | .short wData => writeShort o wData
  | .int dwData => writeInt o dwData
  | .int64 ullData => writeInt64 o ullData
  | .string refStr => writeString o refStr
  | .data block => writeData block.1 block.1.length

def read (o : HostOrder) : StreamKind → ReadM StreamValue
  | .byte => do return .byte (← readUInt8 o)
  | .short => do return .short (← readUInt16 o)
  | .int => do return .int (← readUInt32 o)
  | .int64 => do return .int64 (← readUInt64 o)
  | .string => do return .string (← readString o)
  | .data n => do
    let block ← readBytes n
    if h : block.length < 4294967296 then return .data ⟨block, h⟩ else failure

def readAll (o : HostOrder) : List StreamKind → ReadM (List StreamValue)
  | [] => pure []
  | k :: ks => do
    let v ← read o k
    let vs ← readAll o ks
    return v :: vs

def bytes : StreamValue → List UInt8
  | .byte cData => [cData]
  | .short wData => ByteOrder.bytes 2 wData.toNat
  | .int dwData => ByteOrder.bytes 4 dwData.toNat
  | .int64 ullData => ByteOrder.bytes 8 ullData.toNat
  | .string refStr => stringBytes refStr
  | .data block => block.1

/-- What arrives of a value. -/
def wire : StreamValue → StreamValue
  | .string refStr => .string (cut refStr)
  | v => v

/-- The length of a string fits in front of it. -/
def Short : StreamValue → Prop
  | .string refStr => refStr.length < 4294967296
  | _ => True

theorem wire_eq_iff (v : StreamValue) : v.wire = v ↔ v.Short := by
  cases v with
  | string refStr => simpa [wire, Short] using cut_eq_iff refStr
  | _ => simp [wire, Short]

theorem map_wire_eq_iff (vs : List StreamValue) : vs.map wire = vs ↔ ∀ v ∈ vs, v.Short := by
  induction vs with
  | nil => simp
  | cons v vs ih => simp [wire_eq_iff, ih]

theorem encodes_write (o : HostOrder) (v : StreamValue) : Encodes put (v.write o) v.bytes := by
  cases v with
  | byte cData => exact encodes_writeByte o cData
  | short wData => exact encodes_writeShort o wData
  | int dwData => exact encodes_writeInt o dwData
  | int64 ullData => exact encodes_writeInt64 o ullData
  | string refStr => exact encodes_writeString o refStr
  | data block => exact encodes_writeData rfl

theorem decodes_read (o : HostOrder) (v : StreamValue) :
    Decodes content (read o v.kind) v.bytes v.wire := by
  cases v with
  | byte cData => exact (decodes_readUInt8 o cData).map _
  | short wData => exact (decodes_readUInt16 o wData).map _
  | int dwData => exact (decodes_readUInt32 o dwData).map _
  | int64 ullData => exact (decodes_readUInt64 o ullData).map _
  | string refStr => exact (decodes_readString o refStr).map _
  | data block =>
    have hread := (decodes_readBytes (show block.1.length = _ from rfl)).bind (k := fun bytes =>
      if h : bytes.length < 4294967296 then pure (StreamValue.data ⟨bytes, h⟩) else failure)
      (w := .data block) (b := []) (by
        rw [dif_pos block.2]
        exact decodes_pure _)
    rwa [List.append_nil] at hread

theorem decodes_readAll (o : HostOrder) (vs : List StreamValue) :
    Decodes content (readAll o (vs.map kind)) (vs.flatMap bytes) (vs.map wire) := by
  induction vs with
  | nil => exact decodes_pure []
  | cons v vs ih => exact (decodes_read o v).bind (ih.map _)

end StreamValue

/-! ### Round trips -/

section RoundTrips

open CNetStream WriteStream Codec

variable {α : Type} {w : WriteM} {r : ReadM α} {v : α}

/-- A stream has room for fewer than 2 ^ 32 bytes. -/
abbrev Carries (w : WriteM) (r : ReadM α) (v : α) : Prop :=
  Codec.Travels put content 4294967296 w r v

/-- When the write succeeds, what it has produced is read as a value like the one written, with
nothing left over, if and only if `short` holds. -/
def RoundTrip (w : WriteM) (r : ReadM α) (same : α → Prop) (short : Prop) : Prop :=
  ∀ s s' : WriteStream, w s = some (PUnit.unit, s') →
    ((∃ v, Decodes content r (s.produced s') v ∧ same v) ↔ short)

/-- The value that is carried is the only one that is read. -/
theorem RoundTrip.of_carries {same : α → Prop} {short : Prop} (h : Carries w r v)
    (hsame : same v ↔ short) : RoundTrip w r same short := by
  intro s s' hs
  obtain ⟨bytes, hw, hr⟩ := h
  rw [hw s] at hs
  obtain ⟨t, ht, hpair⟩ := Option.map_eq_some_iff.mp hs
  obtain rfl : t = s' := (Prod.mk.inj hpair).2
  obtain ⟨hproduced, hlen⟩ := produced_put ht
  have hread := hr hlen
  rw [hproduced, ← hsame]
  refine ⟨fun ⟨v', hv', hsame'⟩ => ?_, fun h => ⟨v, hread, h⟩⟩
  rwa [hread.unique hv' ⟨ofBytes bytes, [], by rw [content_ofBytes, List.append_nil]⟩]

theorem StreamValue.carries_all (o : HostOrder) (vs : List StreamValue) :
    Carries (vs.forM (write o)) (readAll o (vs.map kind)) (vs.map wire) :=
  .of (encodes_forM appends_put (encodes_write o) vs) (decodes_readAll o vs)

/-- A sequence of writes is read back if and only if its strings are short. -/
theorem StreamValue.roundTrip (o : HostOrder) (vs : List StreamValue) :
    RoundTrip (vs.forM (write o)) (readAll o (vs.map kind)) (· = vs) (∀ v ∈ vs, v.Short) :=
  .of_carries (carries_all o vs) (map_wire_eq_iff vs)

end RoundTrips
