import FxLib.Meta.NetStream
import FxLib.Net.WebSocketFraming

/-!
# The header of a frame that goes out

`BuildSendPkgHeader` of a WebSocket header, against `BuildRecvPkgHeader` and `ParsePacket` of the
same class. The header may come in any number of pieces: what the receiver has put together from
them is what counts, not what its buffer held before.
-/

open MachineInt

namespace WebSocketDataHeader

open WriteStream FxWebSocketConnect

/-- `m_dataSendBuffer` and `dwHeaderLen` after the call. The results of the writes are not asked
for. -/
def buildSendPkgHeader (o : HostOrder) (dataSendBuffer : Mem) (dwDataLen : Nat) : Mem × Nat :=
  let oNetStream : WriteStream := ⟨dataSendBuffer, 0, bufferSize, by decide⟩
  let oNetStream := oNetStream.attempt (writeByte o 0x82)
  if dwDataLen < 126 ∧ dwDataLen ≤ 0xFFFF then
    let oNetStream := oNetStream.attempt (writeByte o (.ofNat dwDataLen))
    (oNetStream.mem, 1 + 1)
  else if dwDataLen ≥ 126 ∧ dwDataLen ≤ 0xFFFF then
    let oNetStream := oNetStream.attempt (writeByte o 126)
    let oNetStream := oNetStream.attempt (writeShort o (.ofNat dwDataLen))
    (oNetStream.mem, 1 + 3)
  else
    let oNetStream := oNetStream.attempt (writeByte o 127)
    let oNetStream := oNetStream.attempt (writeInt64 o (.ofNat dwDataLen))
    (oNetStream.mem, 1 + 9)

/-- The bytes that go out in front of `dwDataLen` bytes. -/
def sentHeader (o : HostOrder) (dataSendBuffer : Mem) (dwDataLen : Nat) : List UInt8 :=
  Memory.read (buildSendPkgHeader o dataSendBuffer dwDataLen).1 0
    (buildSendPkgHeader o dataSendBuffer dwDataLen).2

/-! ### What is sent -/

def shortestForm (n : Nat) : LengthForm :=
  if n < 126 then .bits7 else if n < 65536 then .bits16 else .bits64

theorem shortestForm_fits {n : Nat} (h : n < 9223372036854775808) : (shortestForm n).Fits n := by
  rw [shortestForm]
  split_ifs with h7 h16
  · exact h7
  · exact h16
  · exact h

/-- No form that has room for the length takes fewer bytes. -/
theorem shortestForm_le {n : Nat} {form : LengthForm} (h : form.Fits n) :
    ((shortestForm n).extension n).length ≤ (form.extension n).length := by
  rw [shortestForm]
  split_ifs with h7 h16
  · exact Nat.zero_le _
  · cases form with
    | bits7 => exact absurd h h7
    | bits16 | bits64 => simp [LengthForm.extension]
  · cases form with
    | bits7 => exact absurd h h7
    | bits16 => exact absurd h h16
    | bits64 => exact Nat.le_refl _

theorem sentHeader_eq (o : HostOrder) (dataSendBuffer : Mem) {n : Nat} (h : n < 2147483648) :
    sentHeader o dataSendBuffer n =
      [0x82, .ofNat ((shortestForm n).code n)] ++ (shortestForm n).extension n := by
  have hfirst := put_attempt (s := ⟨dataSendBuffer, 0, bufferSize, by decide⟩)
    (CNetStream.encodes_writeByte o 0x82) (show 1 ≤ 16 by decide)
  have hsecond := fun cData : UInt8 => put_append_attempt hfirst
    (CNetStream.encodes_writeByte o cData) (show 1 + 1 ≤ 16 by decide)
  rw [sentHeader, buildSendPkgHeader]
  by_cases h7 : n < 126
  · simp only [if_pos (show n < 126 ∧ n ≤ 0xFFFF from ⟨h7, by omega⟩), shortestForm, if_pos h7]
    exact read_put (hsecond (.ofNat n)) rfl
  · have hn7 : ¬ (n < 126 ∧ n ≤ 0xFFFF) := fun hc => h7 hc.1
    by_cases h16 : n < 65536
    · have hlast := put_append_attempt (hsecond 126)
        (CNetStream.encodes_writeShort o (.ofNat n)) (show 2 + 2 ≤ 16 by decide)
      have hvalue : (UInt16.ofNat n).toNat = n := UInt16.toNat_ofNat_of_lt' h16
      rw [hvalue] at hlast
      simp only [if_neg hn7, if_pos (show n ≥ 126 ∧ n ≤ 0xFFFF by omega), shortestForm, if_neg h7,
        if_pos h16]
      exact read_put hlast rfl
    · have hlast := put_append_attempt (hsecond 127)
        (CNetStream.encodes_writeInt64 o (.ofNat n)) (show 2 + 8 ≤ 16 by decide)
      have hvalue : (UInt64.ofNat n).toNat = n :=
        UInt64.toNat_ofNat_of_lt' (Nat.lt_trans h (by decide))
      rw [hvalue] at hlast
      simp only [if_neg hn7, if_neg (show ¬ (n ≥ 126 ∧ n ≤ 0xFFFF) by omega), shortestForm,
        if_neg h7, if_neg h16]
      exact read_put hlast rfl

theorem lengthOf_append {a : List UInt8} (h : 2 ≤ a.length) (b : List UInt8) :
    lengthOf (a ++ b) = lengthOf a := by
  have htake : lengthOf ((a ++ b).take a.length) = lengthOf (a ++ b) := lengthOf_take h
  rw [List.take_left] at htake
  exact htake.symm

theorem unmasked_key_length (key : List UInt8) (h : (none : Option (List UInt8)) = some key) :
    key.length = 4 := by
  cases h

theorem replicate_fits {n : Nat} (h : n < 2147483648) :
    (shortestForm n).Fits (List.replicate n (0 : UInt8)).length := by
  rw [List.length_replicate]
  exact shortestForm_fits (Nat.lt_trans h (by decide))

/-- An unmasked frame with that header. -/
def sentFrame (n : Nat) (h : n < 2147483648) : ClientFrame where
  bt1 := 0x82
  form := shortestForm n
  maskingKey := none
  payload := List.replicate n 0
  key_length := unmasked_key_length
  fits := replicate_fits h

theorem sentFrame_header (o : HostOrder) (dataSendBuffer : Mem) {n : Nat} (h : n < 2147483648) :
    (sentFrame n h).header = sentHeader o dataSendBuffer n := by
  rw [sentHeader_eq o dataSendBuffer h]
  simp [ClientFrame.header, ClientFrame.bt2, sentFrame]

section

variable (o : HostOrder) (dataSendBuffer : Mem) {n : Nat}

/-- Its second byte says how long the header is. -/
theorem lengthOf_sentHeader (h : n < 2147483648) :
    (sentHeader o dataSendBuffer n).length = lengthOf (sentHeader o dataSendBuffer n) := by
  rw [← sentFrame_header o dataSendBuffer h]
  exact (sentFrame n h).header_length

theorem length_sentHeader (h : n < 2147483648) :
    2 ≤ (sentHeader o dataSendBuffer n).length ∧ (sentHeader o dataSendBuffer n).length ≤ 10 := by
  rw [sentHeader_eq o dataSendBuffer h, shortestForm]
  split_ifs <;> simp [LengthForm.extension]

theorem pkgLength_sentHeader (h : n < 2147483634) (later : List UInt8) :
    pkgLength (sentHeader o dataSendBuffer n ++ later) =
      (n + (sentHeader o dataSendBuffer n).length : Nat) := by
  have hn : n < 2147483648 := by omega
  have hlen := length_sentHeader o dataSendBuffer hn
  have hown := lengthOf_sentHeader o dataSendBuffer hn
  have hheader := sentFrame_header o dataSendBuffer hn
  have htotal : (sentFrame n hn).encode.1.length =
      n + (sentHeader o dataSendBuffer n).length := by
    rw [ClientFrame.encode_length, hheader, sentFrame, List.length_replicate, Nat.add_comm]
  have hframe := (sentFrame n hn).pkgLength_encode (by rw [htotal]; omega)
  have htake : ∀ rest, pkgLength (sentHeader o dataSendBuffer n ++ rest) =
      pkgLength (sentHeader o dataSendBuffer n) := by
    intro rest
    have hlengthOf : lengthOf (sentHeader o dataSendBuffer n ++ rest) =
        (sentHeader o dataSendBuffer n).length := by
      rw [lengthOf_append hlen.1, ← hown]
    rw [← pkgLength_take (Nat.le_of_eq hlengthOf), List.take_left]
  rw [htake, ← htake (sentFrame n hn).masked, ← htotal, ← hheader]
  exact hframe

end

/-! ### What is received -/

/-- Calls of `BuildRecvPkgHeader` for one piece after the other: a pointer and its length. -/
def feed (h : WebSocketDataHeader) (dwOffset : Nat) : List (Mem × Nat) → WebSocketDataHeader
  | [] => h
  | (pBuff, dwLen) :: pieces =>
    feed (h.buildRecvPkgHeader pBuff dwLen dwOffset).2 (dwOffset + dwLen) pieces

def fed (pieces : List (Mem × Nat)) : List UInt8 :=
  pieces.flatMap fun piece => Memory.read piece.1 0 piece.2

theorem fed_cons (pBuff : Mem) (dwLen : Nat) (pieces : List (Mem × Nat)) :
    fed ((pBuff, dwLen) :: pieces) = Memory.read pBuff 0 dwLen ++ fed pieces := rfl

theorem fed_append (pieces pieces' : List (Mem × Nat)) :
    fed (pieces ++ pieces') = fed pieces ++ fed pieces' := List.flatMap_append

theorem feed_append (h : WebSocketDataHeader) (dwOffset : Nat) (pieces : List (Mem × Nat))
    (pBuff : Mem) (dwLen : Nat) : h.feed dwOffset (pieces ++ [(pBuff, dwLen)]) =
      ((h.feed dwOffset pieces).buildRecvPkgHeader pBuff dwLen
        (dwOffset + (fed pieces).length)).2 := by
  induction pieces generalizing h dwOffset with
  | nil => rfl
  | cons piece pieces ih =>
    obtain ⟨pBuff', dwLen'⟩ := piece
    rw [List.cons_append, feed, ih, feed, fed_cons, List.length_append, Memory.read_length,
      Nat.add_assoc]

/-- The pieces stand in the buffer one behind the other, and no copy has left it. -/
theorem Holding.feed {h : WebSocketDataHeader} {xs : List UInt8} {pieces : List (Mem × Nat)}
    (hold : h.Holding xs) (hlen : xs.length + (fed pieces).length ≤ bufferSize) :
    (h.feed xs.length pieces).Holding (xs ++ fed pieces) ∧
      (h.InBuffer → (h.feed xs.length pieces).InBuffer) := by
  induction pieces generalizing h xs with
  | nil =>
    rw [show fed [] = [] from rfl, List.append_nil]
    exact ⟨hold, id⟩
  | cons piece pieces ih =>
    obtain ⟨pBuff, dwLen⟩ := piece
    rw [fed_cons, List.length_append, Memory.read_length] at hlen
    have hsize : bufferSize = 16 := rfl
    have hread : (Memory.read pBuff 0 dwLen).length = dwLen := Memory.read_length pBuff 0 dwLen
    have hcopy : Memory.read pBuff 0 (Memory.read pBuff 0 dwLen).length =
        Memory.read pBuff 0 dwLen := by rw [hread]
    have hnext := hold.build hcopy (by omega) (by omega)
    rw [hread] at hnext
    have hrest := ih hnext (by rw [List.length_append, hread]; omega)
    rw [List.length_append, hread, List.append_assoc] at hrest
    refine ⟨hrest.1, fun hin => hrest.2 ?_⟩
    exact hin.build pBuff (by omega) (by omega) (.inl (by omega))

section

variable (o : HostOrder) (dataSendBuffer : Mem) (h : WebSocketDataHeader) {n : Nat}

/-- The receiver has part of the header, in any number of pieces. -/
theorem parsePacket_part {pieces : List (Mem × Nat)} {missing : List UInt8} (hn : n < 2147483648)
    (hfed : fed pieces ++ missing = sentHeader o dataSendBuffer n) (hmissing : missing ≠ [])
    (pBuf : Mem) : ((h.feed 0 pieces).parsePacket pBuf (fed pieces).length).1 = 0 := by
  have hsum := congrArg List.length hfed
  have hlen := length_sentHeader o dataSendBuffer hn
  have hpos := List.length_pos_of_ne_nil hmissing
  rw [List.length_append] at hsum
  have hempty : h.Holding [] := rfl
  have hroom : ([] : List UInt8).length + (fed pieces).length ≤ bufferSize := by
    have hsize : bufferSize = 16 := rfl
    rw [List.length_nil]
    omega
  have hold := (hempty.feed hroom).1
  rw [List.nil_append] at hold
  by_cases htwo : 2 ≤ (fed pieces).length
  · have hown := lengthOf_sentHeader o dataSendBuffer hn
    have hless : (fed pieces).length < lengthOf (fed pieces) := by
      have hsame : lengthOf (sentHeader o dataSendBuffer n) = lengthOf (fed pieces) := by
        rw [← hfed, lengthOf_append htwo]
      omega
    have hparse := (parsePacket_eq pBuf hold htwo).1
    rw [if_pos hless] at hparse
    exact hparse
  · have hshort := parsePacket_short (h.feed 0 pieces) pBuf (Nat.lt_of_not_le htwo)
    exact congrArg Prod.fst hshort

/-- The last piece completes the header, with any bytes behind it. -/
theorem parsePacket_complete {pieces : List (Mem × Nat)} {pBuff : Mem} {dwLen : Nat}
    {later : List UInt8} (hn : n < 2147483634)
    (hpart : (fed pieces).length < (sentHeader o dataSendBuffer n).length)
    (hfed : fed (pieces ++ [(pBuff, dwLen)]) = sentHeader o dataSendBuffer n ++ later)
    (htotal : (fed (pieces ++ [(pBuff, dwLen)])).length < 4294967296) (pBuf : Mem) :
    let built := h.feed 0 (pieces ++ [(pBuff, dwLen)])
    let parsed := built.parsePacket pBuf (fed (pieces ++ [(pBuff, dwLen)])).length
    parsed.1 = (n + (sentHeader o dataSendBuffer n).length : Nat) ∧
      parsed.2.dwHeaderLength = (sentHeader o dataSendBuffer n).length ∧
      (h.InBuffer → parsed.2.InBuffer) := by
  have hn' : n < 2147483648 := by omega
  have hlen := length_sentHeader o dataSendBuffer hn'
  have hown := lengthOf_sentHeader o dataSendBuffer hn'
  have hlast : fed [(pBuff, dwLen)] = Memory.read pBuff 0 dwLen := by
    rw [fed_cons, show fed [] = [] from rfl, List.append_nil]
  have hread : (Memory.read pBuff 0 dwLen).length = dwLen := Memory.read_length pBuff 0 dwLen
  have hsize : bufferSize = 16 := rfl
  have hempty : h.Holding [] := rfl
  have hroom : ([] : List UInt8).length + (fed pieces).length ≤ bufferSize := by
    rw [List.length_nil]
    omega
  obtain ⟨hold, hin⟩ := hempty.feed hroom
  simp only [List.nil_append, List.length_nil] at hold hin
  have hsum := htotal
  rw [fed_append, hlast, List.length_append, hread] at hsum
  have hcopy : Memory.read pBuff 0 (Memory.read pBuff 0 dwLen).length =
      Memory.read pBuff 0 dwLen := by rw [hread]
  have hbuilt := hold.build hcopy (by omega) (by omega)
  rw [hread, ← hlast, ← fed_append, hfed] at hbuilt
  have hwhole : 2 ≤ (sentHeader o dataSendBuffer n ++ later).length := by
    rw [List.length_append]
    omega
  have hlengthOf : lengthOf (sentHeader o dataSendBuffer n ++ later) =
      (sentHeader o dataSendBuffer n).length := by
    rw [lengthOf_append hlen.1, ← hown]
  have hfeed : h.feed 0 (pieces ++ [(pBuff, dwLen)]) =
      (vtable.buildRecvPkgHeader (h.feed 0 pieces) pBuff dwLen (fed pieces).length).2 := by
    rw [feed_append, Nat.zero_add]
    rfl
  obtain ⟨hpkg, hheader, hcopies⟩ := parsePacket_eq pBuf hbuilt hwhole
  rw [if_neg (by rw [hlengthOf, List.length_append]; omega),
    pkgLength_sentHeader o dataSendBuffer hn] at hpkg
  rw [hlengthOf] at hheader
  intro built parsed
  have hparsed : parsed = vtable.parsePacket
      (vtable.buildRecvPkgHeader (h.feed 0 pieces) pBuff dwLen (fed pieces).length).2 pBuf
      (sentHeader o dataSendBuffer n ++ later).length := by
    rw [← hfed, ← hfeed]
    rfl
  rw [hparsed]
  refine ⟨hpkg, hheader, fun hcopied => ?_⟩
  have hbuffer : (vtable.buildRecvPkgHeader (h.feed 0 pieces) pBuff dwLen
      (fed pieces).length).2.InBuffer :=
    (hin hcopied).build pBuff (by omega) (by omega) (.inl (by omega))
  intro copy hcopy
  rw [hcopies] at hcopy
  exact hbuffer copy hcopy

end

/-- The two functions agree: the shortest form of the length is sent, the header is recovered
whatever pieces it comes in and whatever follows, and none of its parts is taken for a header. -/
theorem sentHeader_recovered (o : HostOrder) (dataSendBuffer : Mem) {n : Nat}
    (hn : n < 2147483634) :
    (∃ form : LengthForm, form.Fits n ∧
      (∀ form' : LengthForm, form'.Fits n →
        (form.extension n).length ≤ (form'.extension n).length) ∧
      sentHeader o dataSendBuffer n = [0x82, .ofNat (form.code n)] ++ form.extension n) ∧
    ∀ (h : WebSocketDataHeader) (pBuf : Mem) (pieces : List (Mem × Nat)),
      (∀ missing, missing ≠ [] → fed pieces ++ missing = sentHeader o dataSendBuffer n →
        ((h.feed 0 pieces).parsePacket pBuf (fed pieces).length).1 = 0) ∧
      ∀ (pBuff : Mem) (dwLen : Nat) (later : List UInt8),
        (fed pieces).length < (sentHeader o dataSendBuffer n).length →
        fed (pieces ++ [(pBuff, dwLen)]) = sentHeader o dataSendBuffer n ++ later →
        (fed (pieces ++ [(pBuff, dwLen)])).length < 4294967296 →
        let built := h.feed 0 (pieces ++ [(pBuff, dwLen)])
        let parsed := built.parsePacket pBuf (fed (pieces ++ [(pBuff, dwLen)])).length
        parsed.1 = (n + (sentHeader o dataSendBuffer n).length : Nat) ∧
          parsed.2.dwHeaderLength = (sentHeader o dataSendBuffer n).length ∧
          (h.InBuffer → parsed.2.InBuffer) := by
  have hn' : n < 2147483648 := by omega
  refine ⟨⟨shortestForm n, shortestForm_fits (Nat.lt_trans hn' (by decide)),
    fun form' h => shortestForm_le h, sentHeader_eq o dataSendBuffer hn'⟩, fun h pBuf pieces => ?_⟩
  constructor
  · intro missing hmissing hfed
    exact parsePacket_part o dataSendBuffer h hn' hfed hmissing pBuf
  · intro pBuff dwLen later hpart hfed htotal
    exact parsePacket_complete o dataSendBuffer h hn hpart hfed htotal pBuf

/-- A header of four bytes that comes in two halves. -/
theorem sentHeader_recovered_halves :
    let half : Mem := Memory.write (fun _ => 0) 0 [0x82, 126]
    let rest : Mem := Memory.write (fun _ => 0) 0 [1, 0]
    ((freshHeader.feed 0 [(half, 2)]).parsePacket half 2).1 = 0 ∧
      ((freshHeader.feed 0 [(half, 2), (rest, 2)]).parsePacket half 4).1 = 260 := by
  intro half rest
  have hheader : sentHeader .little (fun _ => 0) 256 = [0x82, 126, 1, 0] := by decide +kernel
  have hhalf : fed [(half, 2)] = [0x82, 126] := by decide +kernel
  have hboth : fed ([(half, 2)] ++ [(rest, 2)]) = [0x82, 126, 1, 0] := by decide +kernel
  obtain ⟨hpart, hwhole⟩ := (sentHeader_recovered .little (fun _ => 0)
    (show 256 < 2147483634 by omega)).2 freshHeader half [(half, 2)]
  have hzero := hpart [1, 0] (by simp) (by rw [hhalf, hheader]; rfl)
  have hall := (hwhole rest 2 [] (by rw [hhalf, hheader]; decide) (by rw [hboth, hheader]; rfl)
    (by rw [hboth]; decide)).1
  rw [hheader] at hall
  exact ⟨hzero, hall⟩

end WebSocketDataHeader
