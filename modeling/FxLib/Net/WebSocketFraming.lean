import FxLib.Lib.Transition
import FxLib.Net.Framing
import FxLib.Net.WebSocketFrame

/-!
# WebSocket framing

A stream of client frames through `FxWebSocketConnect`. A cut inside a header is survived
only when at most two of its bytes have arrived, and an unmasked empty frame is announced at
once only when the end of the ring does not cut it.
-/

open MachineInt

namespace FxWebSocketConnect

open WebSocketDataHeader

/-! ### Client frames -/

/-- The three forms of the payload length. -/
inductive LengthForm where
  | bits7
  | bits16
  | bits64
  deriving DecidableEq

namespace LengthForm

def Fits : LengthForm → Nat → Prop
  | bits7, n => n < 126
  | bits16, n => n < 65536
  | bits64, n => n < 9223372036854775808

instance : (form : LengthForm) → (n : Nat) → Decidable (form.Fits n)
  | bits7, n => inferInstanceAs (Decidable (n < 126))
  | bits16, n => inferInstanceAs (Decidable (n < 65536))
  | bits64, n => inferInstanceAs (Decidable (n < 9223372036854775808))

/-- The seven bits in the second byte. -/
def code : LengthForm → Nat → Nat
  | bits7, n => n
  | bits16, _ => 126
  | bits64, _ => 127

def extension : LengthForm → Nat → List UInt8
  | bits7, _ => []
  | bits16, n => ByteOrder.bytes 2 n
  | bits64, n => ByteOrder.bytes 8 n

variable {form : LengthForm} {n : Nat}

theorem code_lt (h : form.Fits n) : form.code n < 128 := by
  cases form with
  | bits7 => exact Nat.lt_trans h (by omega)
  | bits16 => exact show 126 < 128 by omega
  | bits64 => exact show 127 < 128 by omega

/-- The code says how long the extension is. -/
theorem extension_length (h : form.Fits n) : (form.extension n).length =
    if form.code n = 126 then 2 else if form.code n = 127 then 8 else 0 := by
  cases form with
  | bits7 =>
    have h : n < 126 := h
    rw [code, if_neg (by omega), if_neg (by omega)]
    rfl
  | bits16 | bits64 => simp [extension, code]

/-- The length is read back. -/
theorem length_value (h : form.Fits n) (later : List UInt8) :
    (if form.code n = 126 then ByteOrder.value ((form.extension n ++ later).take 2)
      else if form.code n = 127 then ByteOrder.value ((form.extension n ++ later).take 8)
      else form.code n) = n := by
  have hlen := extension_length h
  cases form with
  | bits7 =>
    have h : n < 126 := h
    rw [code, if_neg (by omega), if_neg (by omega)]
  | bits16 =>
    rw [code, if_pos rfl, extension, List.take_left' (by simp)]
    exact ByteOrder.value_bytes_of_lt h
  | bits64 =>
    rw [code, if_neg (by omega), if_pos rfl, extension, List.take_left' (by simp)]
    exact ByteOrder.value_bytes_of_lt (Nat.lt_trans h (by omega))

end LengthForm

structure ClientFrame where
  bt1 : UInt8
  form : LengthForm
  maskingKey : Option (List UInt8)
  payload : List UInt8
  key_length : ∀ key ∈ maskingKey, key.length = 4
  fits : form.Fits payload.length

namespace ClientFrame

def bt2 (f : ClientFrame) : UInt8 :=
  UInt8.ofNat (f.form.code f.payload.length + if f.maskingKey.isSome then 128 else 0)

def header (f : ClientFrame) : List UInt8 :=
  [f.bt1, f.bt2] ++ f.form.extension f.payload.length ++ f.maskingKey.getD []

/-- Masking is its own inverse. -/
def masked (f : ClientFrame) : List UInt8 :=
  match f.maskingKey with
  | none => f.payload
  | some key => unmask key f.payload

def encode (f : ClientFrame) : List UInt8 × List UInt8 := (f.header ++ f.masked, f.payload)

/-- A close frame ends the data phase. -/
def IsClose (f : ClientFrame) : Prop := f.bt1.toNat % 16 = 8

instance (f : ClientFrame) : Decidable f.IsClose := inferInstanceAs (Decidable (_ = _))

variable (f : ClientFrame)

theorem bt2_toNat : f.bt2.toNat =
    f.form.code f.payload.length + if f.maskingKey.isSome then 128 else 0 := by
  have hcode := LengthForm.code_lt f.fits
  rw [bt2, UInt8.toNat_ofNat', Nat.mod_eq_of_lt]
  split <;> omega

theorem bt2_mod : f.bt2.toNat % 128 = f.form.code f.payload.length := by
  have hcode := LengthForm.code_lt f.fits
  rw [bt2_toNat]
  split <;> omega

theorem bt2_div : f.bt2.toNat / 128 ≠ 0 ↔ f.maskingKey.isSome := by
  have hcode := LengthForm.code_lt f.fits
  rw [bt2_toNat]
  split <;> simp_all

theorem masked_length : f.masked.length = f.payload.length := by
  rw [masked]
  split
  · rfl
  · rw [unmask, List.length_mapIdx]

theorem encode_length : f.encode.1.length = f.header.length + f.payload.length := by
  rw [encode, List.length_append, masked_length]

theorem key_length_eq : (f.maskingKey.getD []).length = if f.maskingKey.isSome then 4 else 0 := by
  have hkey := f.key_length
  cases hmask : f.maskingKey with
  | none => rfl
  | some key => exact hkey key hmask

theorem header_length : f.header.length = headerLen f.bt2 := by
  rw [header, headerLen, List.length_append, List.length_append, key_length_eq,
    LengthForm.extension_length f.fits, bt2_mod, if_congr f.bt2_div rfl rfl]
  rfl

theorem lengthOf_encode : lengthOf f.encode.1 = f.header.length := f.header_length.symm

/-- The parser finds the length of the frame in its header. -/
theorem pkgLength_encode (hlen : f.encode.1.length < 2147483648) :
    pkgLength f.encode.1 = f.encode.1.length := by
  have hsecond : f.encode.1.getD 1 0 = f.bt2 := rfl
  have hdrop : f.encode.1.drop 2 =
      f.form.extension f.payload.length ++ (f.maskingKey.getD [] ++ f.masked) := by
    simp [encode, header]
  have hvalue : payloadLen f.encode.1 = f.payload.length := by
    simp only [payloadLen, hsecond, f.bt2_mod, hdrop]
    exact LengthForm.length_value f.fits _
  have hlength := f.encode_length
  rw [pkgLength, hvalue, lengthOf_encode, Nat.add_comm, ← hlength, Nat.mod_eq_of_lt (by omega),
    toInt32_of_lt hlen]

theorem unmask_unmask (key bytes : List UInt8) : unmask key (unmask key bytes) = bytes := by
  refine List.ext_getElem (by simp [unmask]) fun i h h' => ?_
  simp only [unmask, List.getElem_mapIdx]
  rw [UInt8.xor_assoc, UInt8.xor_self, UInt8.xor_zero]

end ClientFrame

/-! ### The main thread -/

open RecvSock

theorem handsOver_handOver : HandsOver handOver := by
  intro s c n
  simp only [handOver]
  split
  · rfl
  · rw [connectionOnRecv_same]

theorem readNumber_eq {s : CNetStream} {k : Nat} (h : k ≤ s.dwLen) (data : Nat) :
    s.readNumber k data =
      (ByteOrder.value (Memory.read s.pData 0 k), ⟨s.pData.at k, s.dwLen - k⟩) := by
  simp only [CNetStream.readNumber, CNetStream.readData]
  rw [if_neg (by omega)]

/-- `__ProcRecv` finds the parts of a header that is whole. -/
theorem readHeader_eq {pBuf : Mem} {frame : List UInt8} {n : Nat}
    (hread : Memory.read pBuf 0 n = frame) (hle : lengthOf frame ≤ n) :
    readHeader pBuf n = ⟨(frame.getD 0 0).toNat % 16, lengthOf frame,
      if (frame.getD 1 0).toNat / 128 ≠ 0 then some ((frame.drop (lengthOf frame - 4)).take 4)
      else none⟩ := by
  have htwo := headerLen_ge (frame.getD 1 0)
  have hhl : lengthOf frame = headerLen (frame.getD 1 0) := rfl
  have hlen : frame.length = n := by rw [← hread, Memory.read_length]
  have hfirst : (⟨pBuf, n⟩ : CNetStream).readByte 0 =
      ((frame.getD 0 0).toNat, ⟨pBuf.at 1, n - 1⟩) := by
    rw [CNetStream.readByte, readNumber_eq (show 1 ≤ n by omega), Memory.read_succ, ByteOrder.value,
      ← hread, List.getD_eq_getElem?_getD,
        List.getElem?_eq_getElem (by rw [Memory.read_length]; omega),
      Memory.read_getElem]
    simp [ByteOrder.value]
  have hsecond : (⟨pBuf.at 1, n - 1⟩ : CNetStream).readByte 0 =
      ((frame.getD 1 0).toNat, ⟨(pBuf.at 1).at 1, n - 2⟩) := by
    rw [CNetStream.readByte, readNumber_eq (show 1 ≤ n - 1 by omega), Memory.read_succ,
      ByteOrder.value, ← read_second hread (by omega)]
    simp [ByteOrder.value, Mem.at, Nat.sub_sub]
  -- the key is the end of the header
  have hkey : ∀ j, j + 6 ≤ n →
      (⟨((pBuf.at 1).at 1).at j, n - 2 - j⟩ : CNetStream).readData 4 =
        (some (((pBuf.at 1).at 1).at j), ⟨(((pBuf.at 1).at 1).at j).at 4, n - 2 - j - 4⟩) ∧
      Memory.read (((pBuf.at 1).at 1).at j) 0 4 = (frame.drop (j + 2)).take 4 := by
    intro j hj
    constructor
    · rw [CNetStream.readData, if_neg (by simp only; omega)]
      rfl
    · rw [← hread, Memory.read_drop pBuf 0 (by omega),
        ← Memory.read_take _ _ (show 4 ≤ n - (j + 2) by omega), Memory.read_at, Memory.read_at,
        Memory.read_at]
      congr 2
      push_cast
      ring
  rw [hhl, headerLen] at hle
  simp only [readHeader, hfirst, hsecond, hhl, headerLen]
  generalize (frame.getD 1 0).toNat = bt2 at hle ⊢
  obtain ⟨j, hj, hext⟩ : ∃ j : Nat,
      j = (if bt2 % 128 = 126 then 2 else if bt2 % 128 = 127 then 8 else 0) ∧
      (if bt2 % 128 = 126 then (4, ((⟨(pBuf.at 1).at 1, n - 2⟩ : CNetStream).readShort 0).2)
        else if bt2 % 128 = 127 then (10, ((⟨(pBuf.at 1).at 1, n - 2⟩ : CNetStream).readInt64 0).2)
        else (2, ⟨(pBuf.at 1).at 1, n - 2⟩)) =
      (j + 2, (⟨((pBuf.at 1).at 1).at j, n - 2 - j⟩ : CNetStream)) := by
    refine ⟨_, rfl, ?_⟩
    by_cases h126 : bt2 % 128 = 126
    · simp only [if_pos h126] at hle ⊢
      rw [CNetStream.readShort, readNumber_eq (by simp only; omega)]
    · by_cases h127 : bt2 % 128 = 127
      · simp only [if_neg h126, if_pos h127] at hle ⊢
        rw [CNetStream.readInt64, readNumber_eq (by simp only; omega)]
      · simp only [if_neg h126, if_neg h127]
        congr 2
        funext i
        simp [Mem.at]
  rw [← hj] at hle ⊢
  rw [hext]
  split_ifs at hle ⊢
  · obtain ⟨hdata, hbytes⟩ := hkey j (by omega)
    simp only [hdata, Option.map_some, hbytes]
    rw [Nat.add_comm 2 j, Nat.add_sub_cancel]
  · simp only [Nat.add_comm 2 j, Nat.add_zero]

/-- What `__ProcRecv` finds in the header of an encoded frame. -/
theorem readHeader_encode (f : ClientFrame) (sessionBuf : Mem) :
    readHeader (Memory.write sessionBuf 0 f.encode.1) f.encode.1.length =
      ⟨f.bt1.toNat % 16, f.header.length, f.maskingKey⟩ := by
  have hread := Memory.read_write_same sessionBuf 0 f.encode.1
  have hlen := f.encode_length
  have hkey := f.key_length
  rw [readHeader_eq hread (by rw [f.lengthOf_encode]; omega), f.lengthOf_encode]
  have hfirst : f.encode.1.getD 0 0 = f.bt1 := rfl
  have hsecond : f.encode.1.getD 1 0 = f.bt2 := rfl
  rw [hfirst, hsecond, if_congr f.bt2_div rfl rfl]
  cases hmask : f.maskingKey with
  | none => rfl
  | some key =>
    have hfour := hkey key hmask
    have hsplit : f.encode.1 =
        ([f.bt1, f.bt2] ++ f.form.extension f.payload.length) ++ (key ++ f.masked) := by
      simp [ClientFrame.encode, ClientFrame.header, hmask]
    have hstart : f.header.length - 4 =
        ([f.bt1, f.bt2] ++ f.form.extension f.payload.length).length := by
      rw [ClientFrame.header, List.length_append, hmask, Option.getD_some, hfour]
      omega
    rw [if_pos Option.isSome_some, hstart, hsplit, List.drop_left, List.take_left' hfour]

theorem handOver_encode (f : ClientFrame) (hopen : ¬ f.IsClose) (s : Sock) (c : FxConnection)
    {sessionBuf : Mem} (hsession : c.session = true) (hstat : c.connStat = .ok)
    (hbuf : s.sessionBuf = Memory.write sessionBuf 0 f.encode.1)
    (hsmall : f.encode.1.length < 4294967296) :
    (handOver s c f.encode.1.length).received = s.received ++ [f.payload] ∧
      (handOver s c f.encode.1.length).delayClose = s.delayClose := by
  have hlen := f.encode_length
  have hn : toUInt32 ((f.encode.1.length : Int) - (f.header.length : Nat)) = f.payload.length := by
    rw [hlen]
    simp [toUInt32]
    omega
  have hmasked : Memory.read s.sessionBuf (f.header.length : Nat) f.payload.length = f.masked := by
    have hall := Memory.read_write_same sessionBuf 0 f.encode.1
    have hdrop := Memory.read_drop (Memory.write sessionBuf 0 f.encode.1) 0
      (show f.header.length ≤ f.encode.1.length by omega)
    rw [hall, ← hbuf, hlen, Nat.add_sub_cancel_left, zero_add] at hdrop
    rw [← hdrop, ClientFrame.encode, List.drop_left]
  have hview := readHeader_encode f sessionBuf
  rw [← hbuf] at hview
  have hcall : (c.onRecv f.payload.length).2 ≠ [] := by
    simp [FxConnection.onRecv, hsession, hstat]
  have hplain : ∀ m : Mem, Memory.read (Memory.write m f.payload.length [0]) 0 f.payload.length =
      Memory.read m 0 f.payload.length := fun m =>
    Memory.read_write_disjoint m [0] (Or.inl (by omega))
  have hmoved : Memory.read (Memory.write s.sessionBuf 0 f.masked) 0 f.payload.length =
      f.masked := by
    rw [← f.masked_length]
    exact Memory.read_write_same _ _ _
  simp only [handOver, hview]
  rw [if_neg (show ¬ f.bt1.toNat % 16 = 8 from hopen)]
  simp only [hn, hmasked, connectionOnRecv, if_neg hcall, hplain, and_true]
  congr 2
  cases hmask : f.maskingKey with
  | none =>
    simp only [hmoved]
    rw [ClientFrame.masked, hmask]
  | some key =>
    have hround : unmask key f.masked = f.payload := by
      simp only [ClientFrame.masked, hmask, ClientFrame.unmask_unmask]
    simp only [hmoved, hround]
    exact Memory.read_write_same _ _ _

open Framing

/-- `__ProcRecv` hands over the payloads of encoded frames, unmasked. -/
theorem hands {frames : List ClientFrame} (hopen : ∀ f ∈ frames, ¬ f.IsClose)
    (hlen : ∀ f ∈ frames, f.encode.1.length < 2147483648) :
    Hands procRecv (frames.map ClientFrame.encode) := by
  refine handsOver_handOver.hands ?_ ?_
  · intro g hg
    obtain ⟨f, hf, rfl⟩ := List.mem_map.mp hg
    have := hlen f hf
    omega
  · intro s c sessionBuf g hg hsession hstat hbuf
    obtain ⟨f, hf, rfl⟩ := List.mem_map.mp hg
    have := hlen f hf
    exact handOver_encode f (hopen f hf) s c hsession hstat hbuf (by omega)

/-! ### The parse loop -/

open Parse

/-- How many bytes of an incomplete header stand at the end of the first `n` bytes. -/
def headerBytes : List ClientFrame → Nat → Nat
  | [], _ => 0
  | f :: frames, n =>
    if n < f.header.length then n
    else if n < f.encode.1.length then 0
    else headerBytes frames (n - f.encode.1.length)

theorem headerBytes_eq {frames : List ClientFrame} {k n : Nat} {f : ClientFrame}
    (hf : frames[k]? = some f) (hn : n < f.header.length) :
    headerBytes frames ((wire (frames.map ClientFrame.encode) k).length + n) = n := by
  induction frames generalizing k with
  | nil => cases hf
  | cons g frames ih =>
    cases k with
    | zero =>
      obtain rfl : g = f := Option.some.inj hf
      rw [headerBytes, wire, List.take_zero, List.map_nil, List.flatten_nil, List.length_nil,
        zero_add,
        if_pos hn]
    | succ k =>
      have hlen : (wire ((g :: frames).map ClientFrame.encode) (k + 1)).length =
          g.encode.1.length + (wire (frames.map ClientFrame.encode) k).length := by
        simp [wire]
      have hg := g.encode_length
      rw [headerBytes, hlen, if_neg (by omega), if_neg (by omega), Nat.add_assoc,
        Nat.add_sub_cancel_left]
      exact ih hf

/-- Where the stream may be cut: at most two bytes of an incomplete header may have arrived,
and the end of the ring may not stand inside an empty unmasked frame that has just arrived. -/
def edges (frames : List ClientFrame) : Edges where
  front w := w.length ≤ 2 ∧ (w.length = 2 → 2 < lengthOf w)
  cut w := ∀ b, w ≠ [b, 0]
  left w := w.length ≤ 2 ∧ ∀ b, w ≠ [b, 0]
  received taken := headerBytes frames taken.length ≤ 2

/-- A client frame has a header, and no more bytes than an `int` counts. -/
theorem wire_bounds {frames : List ClientFrame}
    (hlen : ∀ f ∈ frames, f.encode.1.length < 2147483648) :
    ∀ g ∈ frames.map ClientFrame.encode, 2 ≤ g.1.length ∧ g.1.length < 2147483648 := by
  intro g hg
  obtain ⟨f, hf, rfl⟩ := List.mem_map.mp hg
  have hge := headerLen_ge f.bt2
  rw [← f.header_length] at hge
  have := f.encode_length
  exact ⟨by omega, hlen f hf⟩

/-- `f` is the next frame: the lengths that `rest` tells are its own. -/
structure Next (frames : List ClientFrame) (taken rest : List UInt8) (k : Nat) (f : ClientFrame) :
    Prop where
  frame : frames[k]? = some f
  taken : taken = wire (frames.map ClientFrame.encode) k ++ rest
  header : 2 ≤ rest.length → lengthOf rest = f.header.length
  package : 2 ≤ rest.length → f.header.length ≤ rest.length →
    pkgLength rest = f.encode.1.length

theorem Next.mapped {frames : List ClientFrame} {taken rest : List UInt8} {k : Nat}
    {f : ClientFrame} (h : Next frames taken rest k f) :
    (frames.map ClientFrame.encode)[k]? = some f.encode := by
  rw [List.getElem?_map, h.frame]
  rfl

theorem exists_next {frames : List ClientFrame}
    (hlen : ∀ f ∈ frames, f.encode.1.length < 2147483648) {s : Sock} {rest : List UInt8} {k : Nat}
    (h : Synced (frames.map ClientFrame.encode) s rest k) (hneed : s.needData = 0)
    (hne : rest ≠ [])
    (htaken : s.taken <+: wire (frames.map ClientFrame.encode)
      (frames.map ClientFrame.encode).length) :
    ∃ f, Next frames s.taken rest k f := by
  obtain ⟨g, hg, hidle, hbegin⟩ := h.next hneed hne htaken
  obtain ⟨f, hf, rfl⟩ : ∃ f, frames[k]? = some f ∧ f.encode = g := by
    rw [List.getElem?_map] at hg
    exact Option.map_eq_some_iff.mp hg
  have hflen := f.encode_length
  obtain ⟨htwo, hlt⟩ := wire_bounds hlen _ (List.mem_of_getElem? hg)
  have hheader : 2 ≤ rest.length → lengthOf rest = f.header.length := fun hge => by
    rw [← lengthOf_take le_rfl, hbegin 2 hge htwo, lengthOf_take le_rfl, f.lengthOf_encode]
  refine ⟨f, hf, hidle, hheader, fun hge hle => ?_⟩
  rw [← pkgLength_take (hheader hge).le, hbegin _ hle (by omega),
    pkgLength_take f.lengthOf_encode.le, f.pkgLength_encode hlt]

section

variable {frames : List ClientFrame} {p q : Parse WebSocketDataHeader} {m m' rest : List UInt8}
  {n k : Nat} {f : ClientFrame}

/-- A part of a header is left over, at most two bytes and no whole frame. -/
theorem waits_onward
    (h : Inside (frames.map ClientFrame.encode) (edges frames) p m [] rest 0 n k)
    (hlooping : p.exit = .looping) (hnpos : 0 < n) (hne : rest ≠ [])
    (hnext : Next frames p.sock.taken rest k f) (hunread : p.unread = rest.length + 1)
    (hle : rest.length ≤ 2) (hshort : n < lengthOf rest)
    (scan : Scan (Delivers (frames.map ClientFrame.encode)) q m' [] rest 0 0)
    (exit : q.exit = .broke) (needData : q.sock.needData = 0)
    (cursor : SameUse p.sock q.sock rest) (record : SameRecord p.sock q.sock) :
    Onward (frames.map ClientFrame.encode) (edges frames) p q := by
  have hnot : ∀ e, e ≠ LoopExit.broke → q.exit ≠ e := fun e he hc => he (hc.symm.trans exit)
  have hrestlen := headerLen_ge (rest.getD 1 0)
  rw [← lengthOf] at hrestlen
  -- a whole frame of two bytes is not cut
  have hwhole : ∀ b, rest ≠ [b, 0] := by
    rintro b rfl
    have hzero : lengthOf [b, 0] = 2 := by simp [lengthOf, headerLen]
    rcases h.looping hlooping with hall | ⟨_, _, _, hcut⟩
    · rw [hall, hzero] at hshort
      exact absurd hshort (by simp)
    · exact hcut b rfl
  refine ⟨m', [], rest, 0, 0, k, ⟨scan, ⟨h.synced.le, ?_, ?_, ?_⟩, ?_, ?_, ?_, ?_⟩, ?_⟩
  · exact record.announced.trans h.synced.announced
  · intro _
    exact record.taken.trans hnext.taken
  · intro hc
    exact absurd needData hc
  · rw [record.taken]
    exact h.received
  · intro hc
    exact absurd hc (hnot _ (by simp))
  · intro _
    refine ⟨needData, ⟨hle, hwhole⟩, fun n' hpos' hle' hend => ?_⟩
    rw [cursor.totalLen, cursor.useCursor hne] at hend
    have htake : (rest.take n').length = n' := by rw [List.length_take]; omega
    refine ⟨by omega, fun htwo' => ?_⟩
    rw [lengthOf_take (by omega)]
    rcases Nat.lt_or_ge n rest.length with hcut | hge
    · have := h.scan.whole hnpos hcut
      simp only [List.length_nil] at this
      omega
    · omega
  · exact hnot _ (by simp)
  · rw [hunread, scan.unread_eq, if_neg (fun hc => hnot _ (by simp) hc.1)]
    omega

/-- The region holds a whole header, and with it all that has been received. -/
theorem whole_onward
    (h : Inside (frames.map ClientFrame.encode) (edges frames) p m [] rest 0 n k)
    (hside : MainSide procRecv (Delivers (frames.map ClientFrame.encode)))
    (hlooping : p.exit = .looping) (hnpos : 0 < n) (hnext : Next frames p.sock.taken rest k f)
    (hlt : f.encode.1.length < 2147483648) (hunread : p.unread = rest.length + 1)
    {p' : Parse WebSocketDataHeader} (hle : lengthOf rest ≤ n)
    (scan : Scan (Delivers (frames.map ClientFrame.encode)) p' m [] rest 0 n)
    (packetLen : p'.sock.packetLen = pkgLength rest) (exit : p'.exit = .looping)
    (record : SameRecord p.sock p'.sock) :
    0 < p'.sock.packetLen ∧
      Onward (frames.map ClientFrame.encode) (edges frames) p (p'.wholeStep procRecv) := by
  have hfits := h.scan.fits
  have hflen := f.encode_length
  have hrestlen := headerLen_ge (rest.getD 1 0)
  rw [← lengthOf] at hrestlen
  have hheader := hnext.header (by omega)
  have hpacket : p'.sock.packetLen = f.encode.1.length := by
    rw [packetLen, hnext.package (by omega) (by omega)]
  have hall : n = rest.length := by
    rcases h.looping hlooping with hall | ⟨_, _, ⟨hfront, hlong⟩, _⟩
    · exact hall
    · have htake : (rest.take n).length = n := by rw [List.length_take]; omega
      have := hlong (by omega)
      rw [lengthOf_take (by omega)] at this
      omega
  have hsame : p'.unread = p.unread := by
    have hp' := scan.len
    rw [hunread, scan.unread_eq, if_pos ⟨exit, by omega⟩]
  have hannounced := record.announced.trans h.synced.announced
  have hreceived : (edges frames).received p'.sock.taken := by
    rw [record.taken]
    exact h.received
  have hmoved := scan.wholeStep hside (by omega) (by omega) fun _ => by
    rw [hpacket]
    exact mayAnnounce hannounced hnext.mapped (by omega)
  have hexpects : Expects (frames.map ClientFrame.encode) p'.sock rest k p'.sock.packetLen
      f.encode [] :=
    ⟨hnext.mapped, hpacket, by simp [hpacket], by rw [List.append_nil, record.taken, hnext.taken]⟩
  have honward : Onward (frames.map ClientFrame.encode) (edges frames) p'
      (p'.wholeStep procRecv) :=
    hmoved.onward scan hnpos hall exit (by omega) hannounced hexpects (by omega) hreceived
  rw [Onward, hsame] at honward
  exact ⟨by omega, honward⟩

end

theorem frameStep_onward {frames : List ClientFrame} (hopen : ∀ f ∈ frames, ¬ f.IsClose)
    (hlen : ∀ f ∈ frames, f.encode.1.length < 2147483648) {p : Parse WebSocketDataHeader}
    {m done rest : List UInt8} {part n k : Nat}
    (h : Inside (frames.map ClientFrame.encode) (edges frames) p m done rest part n k)
    (hloop : p.Looping) :
    Onward (frames.map ClientFrame.encode) (edges frames) p (frameStep p) := by
  have hwire := wire_bounds hlen
  have hside := (hands hopen hlen).side fun g hg => by have := (hwire g hg).1; omega
  by_cases hneed : p.sock.needData = 0
  · obtain ⟨hused, rfl⟩ := (h.scan.frame h.exit).idle hneed
    obtain rfl := List.eq_nil_of_length_eq_zero hused
    have hplen := h.scan.len
    have hfits := h.scan.fits
    have hnpos : 0 < n := by
      have := hloop.2
      omega
    have hunread : p.unread = rest.length + 1 := by rw [h.scan.unread_eq, if_pos hloop]
    have hne : rest ≠ [] := by
      rintro rfl
      exact absurd hfits (by simp; omega)
    obtain ⟨f, hnext⟩ := exists_next hlen h.synced hneed hne h.scan.holds.side.taken
    have hlt := (hwire _ (List.mem_of_getElem? hnext.mapped)).2
    have hidle : Idle (Delivers (frames.map ClientFrame.encode)) p (frameStep p) m rest n :=
      h.scan.idle hside hloop.1 hneed hnpos
    have hrestlen := headerLen_ge (rest.getD 1 0)
    rw [← lengthOf] at hrestlen
    cases hidle with
    | waits m' hle hshort scan exit needData cursor record inBuffer =>
      exact waits_onward h hloop.1 hnpos hne hnext hunread hle hshort scan exit needData cursor
        record
    | whole p' hle scan packetLen needData exit record inBuffer eq =>
      obtain ⟨hpos, honward⟩ :=
        whole_onward h hside hloop.1 hnpos hnext hlt hunread hle scan packetLen exit record
      rw [eq, if_neg (by omega), if_neg (by omega)]
      exact honward
    | refused m' r hge hshort rejoin inBuffer eq =>
      rw [hnext.header (by omega)] at hshort
      have hle : headerBytes frames p.sock.taken.length ≤ 2 := h.received
      rw [hnext.taken, List.length_append, headerBytes_eq hnext.frame hshort] at hle
      omega
    | joined m' r hshort hle split packetLen headerLength record inBuffer eq =>
      have hge : 2 ≤ rest.length := by omega
      have hheader := hnext.header hge
      have hflen := f.encode_length
      have hpacket : r.sock.packetLen = f.encode.1.length := by
        rw [packetLen, hnext.package hge (by omega)]
      rw [eq, if_neg (by omega)]
      exact split.onward vtable hside headerLength hshort hle hnext.mapped hlt (by omega) hpacket
        (record.announced.trans h.synced.announced) (record.taken.trans hnext.taken) record.taken
        h.received hunread hnpos
  · rw [frameStep, if_pos (Ne.symm hneed)]
    exact h.needStep hside (fun g hg => by have := (hwire g hg).2; omega) hloop hneed

/-! ### Runs -/

/-- The condition on a call: of an incomplete header at most two bytes have been received
behind it, and it does not receive just the second byte of an empty unmasked frame whose first
byte stands in the last cell of the ring. -/
def SparesHeaders (frames : List ClientFrame) (s : Sock) : Op → Prop
  | .onRecv _ ret sched =>
    headerBytes frames (s.taken ++ delivered procRecv s ret sched).length ≤ 2 ∧
      ¬ (s.recvBuf.getUseLen = 1 ∧ s.recvBuf.useCursor + 1 = s.recvBuf.totalLen ∧
        s.needData = 0 ∧ delivered procRecv s ret sched = [0])
  | .main | .delayClose => True

instance (frames : List ClientFrame) (s : Sock) : (op : Op) → Decidable (SparesHeaders frames s op)
  | .onRecv _ _ _ => inferInstanceAs (Decidable (_ ∧ _))
  | .main => inferInstanceAs (Decidable True)
  | .delayClose => inferInstanceAs (Decidable True)

theorem SparesHeaders.permits {frames : List ClientFrame} {s : Sock} {m w : List UInt8}
    {part k : Nat}
    (hbetween : Between (frames.map ClientFrame.encode) (edges frames) s m w part k) :
    {op : Op} → SparesHeaders frames s op → Permits procRecv (edges frames) s w op
  | .onRecv fuel ret sched, ⟨hreceived, hsecond⟩ => by
    refine ⟨hreceived, fun n hpos hn hend b hcut => ?_⟩
    have hne : w ≠ [] := by
      rintro rfl
      exact absurd hn (by simp; omega)
    have hleft := hbetween.tidy hne
    have huse := FxLoopBuff.getUseLen_eq hbetween.ready.holds.rep hbetween.ready.holds.marks
    rcases w with _ | ⟨b₁, _ | ⟨b₂, w⟩⟩
    · exact hne rfl
    · obtain rfl : n = 1 := by simp at hn; omega
      rw [List.cons_append, List.nil_append, List.cons.injEq] at hcut
      exact hsecond ⟨by simpa using huse, hend, hleft.needData, hcut.2⟩
    · simp only [List.cons_append, List.cons.injEq, List.append_eq_nil_iff] at hcut
      obtain ⟨rfl, rfl, rfl, _⟩ := hcut
      exact hleft.left.2 _ rfl
  | .main, _ => trivial
  | .delayClose, _ => trivial

/-- A whole frame of two bytes is the empty unmasked one. -/
theorem encode_of_short (f : ClientFrame) (h : f.encode.1.length ≤ 2) :
    f.encode.1 = [f.bt1, 0] := by
  have hlen := f.encode_length
  have hkey := f.key_length_eq
  have hheader := f.header_length
  have hext := LengthForm.extension_length f.fits
  have hge := headerLen_ge f.bt2
  have hpayload : f.payload = [] := List.eq_nil_of_length_eq_zero (by omega)
  have hsum : f.header.length =
      2 + (f.form.extension f.payload.length).length + (f.maskingKey.getD []).length := by
    rw [ClientFrame.header, List.length_append, List.length_append]
    rfl
  have hmask : f.maskingKey = none := by
    cases hm : f.maskingKey with
    | none => rfl
    | some key =>
      rw [if_pos (by rw [hm]; rfl)] at hkey
      omega
  have hform : f.form = .bits7 := by
    cases hf : f.form with
    | bits7 => rfl
    | bits16 | bits64 =>
      rw [hf] at hsum
      simp [LengthForm.extension] at hsum
      omega
  simp [ClientFrame.encode, ClientFrame.header, ClientFrame.masked, ClientFrame.bt2, hmask, hform,
    hpayload, LengthForm.extension, LengthForm.code]

/-- However the stream is cut, as long as every call spares the headers: the complete frames
are announced, each once and in order, no error is, the socket stays open, and the session has
got the unmasked payloads of the frames handled so far. And every such call returns. -/
theorem webSocket_reassembles {frames : List ClientFrame} {s₀ s : Sock} {ops : List Op}
    (hfresh : Fresh s₀) (hopen : ∀ f ∈ frames, ¬ f.IsClose)
    (hfit : ∀ f ∈ frames,
      f.encode.1.length ≤ s₀.recvBuf.totalLen ∧ f.encode.1.length ≤ s₀.sessionSize)
    (hops : Transition.Always step (fun s op =>
      Continues (frames.map ClientFrame.encode) s op ∧ SparesHeaders frames s op) s₀ ops)
    (hrun : Transition.run step s₀ ops = some s) :
    (∃ j k tail, Reassembled (frames.map ClientFrame.encode) s j k tail) ∧
      ∀ fuel ret sched, Continues (frames.map ClientFrame.encode) s (.onRecv fuel ret sched) →
        SparesHeaders frames s (.onRecv fuel ret sched) → 1073741825 < fuel →
        (step s (.onRecv fuel ret sched)).isSome := by
  have hsmall := hfresh.small
  have hlen : ∀ f ∈ frames, f.encode.1.length < 2147483648 := fun f hf => by
    have := (hfit f hf).1
    omega
  have hpos : ∀ g ∈ frames.map ClientFrame.encode, 0 < g.1.length := fun g hg => by
    obtain ⟨f, hf, rfl⟩ := List.mem_map.mp hg
    have hge := headerLen_ge f.bt2
    rw [← f.header_length] at hge
    have := f.encode_length
    omega
  have hside := (hands hopen hlen).side hpos
  have hbody : ∀ p m done rest part n k,
      Inside (frames.map ClientFrame.encode) (edges frames) p m done rest part n k → p.Looping →
      Onward (frames.map ClientFrame.encode) (edges frames) p (frameStep p) :=
    fun _ _ _ _ _ _ _ h hloop => frameStep_onward hopen hlen h hloop
  have hstep : ∀ s op s',
      (∃ m w part k, Between (frames.map ClientFrame.encode) (edges frames) s m w part k) →
      Continues (frames.map ClientFrame.encode) s op ∧ SparesHeaders frames s op →
      step s op = some s' →
      ∃ m w part k, Between (frames.map ClientFrame.encode) (edges frames) s' m w part k :=
    fun s op s' ⟨m, w, part, k, h⟩ hop hs' =>
      h.step hside hbody hop.1 (SparesHeaders.permits h hop.2) hs'
  obtain ⟨m, w, part, k, hbetween⟩ := Transition.invariant_of_always hstep
    ⟨[], [], 0, 0, hfresh.between fun g hg => by
      obtain ⟨f, hf, rfl⟩ := List.mem_map.mp hg
      exact (hfit f hf).2⟩ hops hrun
  refine ⟨?_, fun fuel ret sched hret hspares hfuel => ?_⟩
  · obtain ⟨j, tail, h⟩ := hbetween.reassembled (fun w hw g hg hle => by
      obtain ⟨f, hf, rfl⟩ := List.mem_map.mp hg
      have hge := headerLen_ge f.bt2
      rw [← f.header_length] at hge
      have hlen := f.encode_length
      have hprefix := hle.length_le
      have hshort : w.length ≤ 2 := hw.1
      have hall : f.encode.1 = w := hle.eq_of_length (by omega)
      exact hw.2 f.bt1 (hall ▸ encode_of_short f (by omega))) hpos
    exact ⟨j, k, tail, h⟩
  · obtain ⟨s', m', w', part', k', hstep, _⟩ := hbetween.onRecv hside hbody hret
      (SparesHeaders.permits hbetween hspares) hfuel
    rw [show step s (.onRecv fuel ret sched) = some s' from hstep]
    rfl

/-- A header object before its first frame. -/
def freshHeader : WebSocketDataHeader := ⟨0, 0, 0, 0, [0, 0, 0, 0], fun _ => 0, 0, []⟩

/-- A masked text frame. -/
def maskedText : ClientFrame := ⟨129, .bits7, some [1, 2, 3, 4], [104, 105], by decide, by decide⟩

/-- An unmasked binary frame with a longer length field than it needs. -/
def longForm : ClientFrame := ⟨130, .bits16, none, [7], by decide, by decide⟩

/-- Two frames through a ring of ten bytes: the first is cut behind its second byte, the header
of the second stands across the end of the ring. -/
def wrappedOps : List Op :=
  [.onRecv 9 (.data [129, 130]) [], .main, .main, .onRecv 9 (.data [1, 2, 3, 4, 105, 107]) [0, 1],
    .onRecv 9 (.data [130, 126]) [], .main, .onRecv 9 (.data [0, 1, 7]) []]

theorem webSocket_reassembles_wrapped :
    ∃ s, Transition.run step (accepted freshHeader 10 64) wrappedOps = some s ∧
      ∃ j k tail, Reassembled ([maskedText, longForm].map ClientFrame.encode) s j k tail := by
  have hfresh := fresh_accepted freshHeader (show (0 : Int) < 10 by omega) (by omega) 64
  obtain ⟨s, hrun⟩ : ∃ s, Transition.run step (accepted freshHeader 10 64) wrappedOps = some s :=
    Option.isSome_iff_exists.mp (by decide +kernel)
  exact ⟨s, hrun, (webSocket_reassembles hfresh (by decide) (by decide) (by decide +kernel) hrun).1⟩

/-- Three bytes of a header of six: the socket is closed with an error. -/
theorem header_in_three_bytes :
    ∃ s, Transition.run step (accepted freshHeader 64 64) [.onRecv 9 (.data [129, 130, 1]) []] =
        some s ∧
      Transition.Always step (Continues ([maskedText].map ClientFrame.encode))
        (accepted freshHeader 64 64) [.onRecv 9 (.data [129, 130, 1]) []] ∧
      ¬ ∃ j k tail, Reassembled ([maskedText].map ClientFrame.encode) s j k tail := by
  have hstate : (Transition.run step (accepted freshHeader 64 64)
      [.onRecv 9 (.data [129, 130, 1]) []]).map (fun s => s.state) = some .close := by
    decide +kernel
  obtain ⟨s, hrun, hclosed⟩ := Option.map_eq_some_iff.mp hstate
  refine ⟨s, hrun, by decide +kernel, ?_⟩
  rintro ⟨j, k, tail, h⟩
  rw [h.state] at hclosed
  cases hclosed

end FxWebSocketConnect
