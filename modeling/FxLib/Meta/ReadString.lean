import FxLib.Meta.NetStream

/-!
# Strings that are read into an array

`CNetStream::ReadString(char*, unsigned int)`. The destination begins at the address 0, and
`dwBehind` bytes behind its end can be read. The text that has been copied is measured with
`std::string(pStr).size()`, which looks for a NUL wherever the first one is.
-/

namespace CNetStream

open WriteStream Codec

variable {o : HostOrder} {s s' : CNetStream} {pStr : Mem} {text rest : List UInt8}

/-- The first NUL of `mapped` bytes; `none` where it lies behind them. -/
def strlen (pStr : Mem) (mapped : Nat) : Option Nat :=
  (List.range mapped).find? fun i : Nat => pStr i = 0

/-- With what is returned, the destination and the stream; `none` where the measuring leaves the
memory that can be read. -/
def readCString (o : HostOrder) (pStr : Mem) (dwLen : UInt32) (dwBehind : Nat) (s : CNetStream) :
    Option (Bool × Mem × CNetStream) :=
  match readUInt32 o s with
  | none => some (false, pStr, s)
  | some (dwStrLen, s) =>
    if dwStrLen > dwLen then some (false, pStr, s)
    else
      match readBytes dwStrLen.toNat s with
      | none => some (false, pStr, s)
      | some (pData, s) =>
        let pStr := Memory.write pStr 0 pData
        (strlen pStr (dwLen.toNat + dwBehind)).map fun size => (dwStrLen.toNat = size, pStr, s)

/-! ### What a read takes -/

theorem readBytes_some {n : Nat} {pData : List UInt8} (h : readBytes n s = some (pData, s')) :
    pData.length = n ∧ s.content = pData ++ s'.content := by
  simp only [readBytes, readData] at h
  by_cases hlen : n > s.dwLen
  · simp [hlen] at h
  · rw [if_neg hlen] at h
    obtain ⟨rfl, rfl⟩ := Prod.mk.inj (Option.some.inj h)
    refine ⟨Memory.read_length .., ?_⟩
    have hsum : s.dwLen = n + (s.dwLen - n) := by omega
    simp only [content, Memory.read_at]
    conv_lhs => rw [hsum, Memory.read_add]
    simp

theorem readUInt32_some {dwData : UInt32} (h : readUInt32 o s = some (dwData, s')) :
    s.content = ByteOrder.bytes 4 dwData.toNat ++ s'.content := by
  obtain ⟨⟨pData, s''⟩, hread, hdata⟩ := Option.bind_eq_some_iff.mp h
  obtain ⟨hlen, hcontent⟩ := readBytes_some hread
  obtain ⟨rfl, rfl⟩ := Prod.mk.inj (Option.some.inj hdata)
  have hlt := ByteOrder.value_lt pData
  rw [hlen] at hlt
  rw [HostOrder.hton_value hlen, UInt32.toNat_ofNat_of_lt' hlt, hcontent]
  congr 1
  conv_rhs => rw [← hlen]
  exact (ByteOrder.bytes_value pData).symm

/-! ### The claim of the function -/

/-- The stream begins with the length of a text without NUL and the text. -/
structure Starts (s : CNetStream) (text rest : List UInt8) : Prop where
  nul : 0 ∉ text
  length : text.length < 4294967296
  content : s.content = ByteOrder.bytes 4 text.length ++ (text ++ rest)

/-- The array of `n` bytes holds the text, with a NUL behind it. -/
structure Holds (pStr : Mem) (n : Nat) (text : List UInt8) : Prop where
  chars : Memory.read pStr 0 text.length = text
  length : text.length < n
  nul : pStr text.length = 0

/-- The function returns; it returns true exactly on a text that is shorter than the array, which
then holds it and nothing more is taken from the stream; and nothing is written elsewhere. -/
def Decoded (o : HostOrder) (pStr : Mem) (dwLen : UInt32) (dwBehind : Nat) (s : CNetStream) :
    Prop :=
  ∃ ok pStr' s', readCString o pStr dwLen dwBehind s = some (ok, pStr', s') ∧
    (ok = true ↔ ∃ text rest, Starts s text rest ∧ text.length < dwLen.toNat) ∧
    (ok = true → ∃ text, Starts s text s'.content ∧ Holds pStr' dwLen.toNat text) ∧
    ∀ a : Int, a < 0 ∨ dwLen.toNat ≤ a → pStr' a = pStr a

/-- Where the stream begins with a text, the byte behind its place is a NUL already; where the text
fills the array, there is a NUL further on, but not at its end. -/
def Cleared (pStr : Mem) (dwLen : UInt32) (dwBehind : Nat) (s : CNetStream) : Prop :=
  ∀ text rest, Starts s text rest →
    (text.length < dwLen.toNat → pStr text.length = 0) ∧
    (text.length = dwLen.toNat →
      pStr dwLen.toNat ≠ 0 ∧ ∃ i < dwBehind, pStr (dwLen.toNat + i : Nat) = 0)

/-- A stream begins with one text at most. -/
theorem Starts.unique {text' rest' : List UInt8} (h : Starts s text rest)
    (hlength : text'.length < 4294967296)
    (hcontent : s.content = ByteOrder.bytes 4 text'.length ++ (text' ++ rest')) :
    text' = text ∧ rest' = rest := by
  obtain ⟨hbytes, hrest⟩ := List.append_inj (hcontent.symm.trans h.content) (by simp)
  have hlen := congrArg ByteOrder.value hbytes
  rw [ByteOrder.value_bytes_of_lt hlength, ByteOrder.value_bytes_of_lt h.length] at hlen
  exact List.append_inj hrest hlen

theorem strlen_some_iff {mapped n : Nat} :
    strlen pStr mapped = some n ↔ n < mapped ∧ pStr n = 0 ∧ ∀ i : Nat, i < n → pStr i ≠ 0 := by
  simp only [strlen, List.find?_range_eq_some, decide_eq_true_eq, List.mem_range,
    Bool.not_eq_eq_eq_not, Bool.not_true, decide_eq_false_iff_not]
  tauto

theorem strlen_none_iff {mapped : Nat} :
    strlen pStr mapped = none ↔ ∀ i : Nat, i < mapped → pStr i ≠ 0 := by
  simp [strlen]

/-- A text that the stream holds and the array has room for is copied and measured. -/
theorem readCString_copied (o : HostOrder) (pStr : Mem) (dwBehind : Nat) {dwLen : UInt32}
    {pData : List UInt8} (hlength : pData.length ≤ dwLen.toNat)
    (hcontent : s.content = ByteOrder.bytes 4 pData.length ++ (pData ++ rest)) :
    ∃ s' : CNetStream, s'.content = rest ∧ readCString o pStr dwLen dwBehind s =
      (strlen (Memory.write pStr 0 pData) (dwLen.toNat + dwBehind)).map
        fun size => (decide (pData.length = size), Memory.write pStr 0 pData, s') := by
  have hlt : pData.length < 4294967296 := lt_of_le_of_lt hlength dwLen.toNat_lt
  have hsize : (UInt32.ofNat pData.length).toNat = pData.length := UInt32.toNat_ofNat_of_lt' hlt
  rw [← hsize] at hcontent
  obtain ⟨s₁, hint, hs₁⟩ := decodes_readUInt32 o (UInt32.ofNat pData.length) s _ hcontent
  obtain ⟨s₂, hread, hs₂⟩ := decodes_readBytes hsize.symm s₁ rest hs₁
  have hle : ¬ UInt32.ofNat pData.length > dwLen := by
    rw [gt_iff_lt, UInt32.lt_iff_toNat_lt, hsize]
    omega
  rw [hsize] at hread
  refine ⟨s₂, hs₂, ?_⟩
  simp only [readCString, hint, if_neg hle, hsize, hread]

/-- Otherwise nothing is written. -/
theorem readCString_refused (o : HostOrder) (pStr : Mem) (dwBehind : Nat) {dwLen : UInt32}
    (hnone : ¬ ∃ pData rest, pData.length ≤ dwLen.toNat ∧
      s.content = ByteOrder.bytes 4 pData.length ++ (pData ++ rest)) :
    ∃ s', readCString o pStr dwLen dwBehind s = some (false, pStr, s') := by
  rw [readCString]
  cases hint : readUInt32 o s with
  | none => exact ⟨s, rfl⟩
  | some r =>
    obtain ⟨dwStrLen, s₁⟩ := r
    simp only
    split_ifs with hlong
    · exact ⟨s₁, rfl⟩
    · cases hread : readBytes dwStrLen.toNat s₁ with
      | none => exact ⟨s₁, rfl⟩
      | some r =>
        obtain ⟨pData, s₂⟩ := r
        obtain ⟨hlen, hdata⟩ := readBytes_some hread
        refine absurd ⟨pData, s₂.content, ?_, ?_⟩ hnone
        · rw [gt_iff_lt, UInt32.lt_iff_toNat_lt] at hlong
          omega
        · rw [readUInt32_some hint, hdata, hlen]

theorem write_text (pStr : Mem) {i : Nat} (hi : i < text.length) :
    Memory.write pStr 0 text i = text[i] := by
  have hin := Memory.write_inside pStr 0 text hi
  rwa [zero_add] at hin

theorem write_behind (pStr : Mem) {i : Nat} (hi : text.length ≤ i) :
    Memory.write pStr 0 text i = pStr i :=
  Memory.write_outside pStr 0 text (.inr (by omega))

/-- A text without NUL has the measure that it should have where the byte behind it is one. -/
theorem strlen_write_iff (pStr : Mem) (hnul : 0 ∉ text) {mapped : Nat} :
    strlen (Memory.write pStr 0 text) mapped = some text.length ↔
      text.length < mapped ∧ pStr text.length = 0 := by
  rw [strlen_some_iff, write_behind pStr le_rfl]
  refine and_congr_right fun _ => and_iff_left fun i hi => ?_
  rw [write_text pStr hi]
  exact ne_of_mem_of_not_mem (List.getElem_mem hi) hnul

theorem zero_of_true {dwLen : UInt32} {dwBehind : Nat} {pStr' : Mem} (h : Starts s text rest)
    (hle : text.length ≤ dwLen.toNat)
    (hread : readCString o pStr dwLen dwBehind s = some (true, pStr', s')) :
    pStr text.length = 0 := by
  obtain ⟨s₂, -, hcopied⟩ := readCString_copied o pStr dwBehind hle h.content
  obtain ⟨size, hsize, heq⟩ := Option.map_eq_some_iff.mp (hcopied.symm.trans hread)
  have hlen : text.length = size := by simpa using congrArg Prod.fst heq
  exact ((strlen_write_iff pStr h.nul).mp (hlen ▸ hsize)).2

/-- A text that is shorter than the array. -/
theorem decoded_short_iff {dwLen : UInt32} {dwBehind : Nat} (h : Starts s text rest)
    (hlt : text.length < dwLen.toNat) :
    Decoded o pStr dwLen dwBehind s ↔ pStr text.length = 0 := by
  constructor
  · rintro ⟨ok, pStr', s', hread, hok, -, -⟩
    obtain rfl : ok = true := hok.mpr ⟨text, rest, h, hlt⟩
    exact zero_of_true h hlt.le hread
  · intro hzero
    obtain ⟨s₂, hs₂, hread⟩ := readCString_copied o pStr dwBehind hlt.le h.content
    have hsize := (strlen_write_iff pStr h.nul).mpr
      ⟨lt_of_lt_of_le hlt (Nat.le_add_right _ dwBehind), hzero⟩
    rw [hsize, Option.map_some] at hread
    refine ⟨_, _, _, hread, ?_, fun _ => ⟨text, hs₂ ▸ h, ⟨?_, hlt, ?_⟩⟩, fun a ha => ?_⟩
    · exact iff_of_true (by simp) ⟨text, rest, h, hlt⟩
    · exact Memory.read_write_same ..
    · rw [write_behind pStr le_rfl, hzero]
    · exact Memory.write_outside _ _ _ (by omega)

/-- A text that is measured wrongly is refused. -/
theorem decoded_of_measured {dwLen : UInt32} {dwBehind size : Nat} {pData : List UInt8}
    (hnone : ¬ ∃ text rest, Starts s text rest ∧ text.length < dwLen.toNat)
    (hle : pData.length ≤ dwLen.toNat)
    (hcontent : s.content = ByteOrder.bytes 4 pData.length ++ (pData ++ rest))
    (hsize : strlen (Memory.write pStr 0 pData) (dwLen.toNat + dwBehind) = some size)
    (hne : pData.length ≠ size) : Decoded o pStr dwLen dwBehind s := by
  obtain ⟨s₂, -, hread⟩ := readCString_copied o pStr dwBehind hle hcontent
  rw [hsize, Option.map_some] at hread
  refine ⟨_, _, _, hread, ?_, fun hc => ?_, fun a ha => ?_⟩
  · exact iff_of_false (by simpa using hne) hnone
  · exact absurd hc (by simpa using hne)
  · exact Memory.write_outside _ _ _ (by omega)

/-- A text that fills the array. -/
theorem decoded_full_iff {dwLen : UInt32} {dwBehind : Nat} (h : Starts s text rest)
    (hlen : text.length = dwLen.toNat) :
    Decoded o pStr dwLen dwBehind s ↔
      pStr dwLen.toNat ≠ 0 ∧ ∃ i < dwBehind, pStr (dwLen.toNat + i : Nat) = 0 := by
  have hnone : ¬ ∃ text rest, Starts s text rest ∧ text.length < dwLen.toNat := by
    rintro ⟨text', rest', h', hlt⟩
    obtain ⟨rfl, -⟩ := h.unique h'.length h'.content
    omega
  constructor
  · rintro ⟨ok, pStr', s', hresult, hok, -, -⟩
    have hfalse : ok ≠ true := fun hc => hnone (hok.mp hc)
    obtain ⟨s₂, hs₂, hread⟩ := readCString_copied o pStr dwBehind hlen.le h.content
    rw [hread] at hresult
    obtain ⟨size, hsize, heq⟩ := Option.map_eq_some_iff.mp hresult
    have hne : text.length ≠ size := fun hc =>
      hfalse (by simpa [hc] using (congrArg Prod.fst heq).symm)
    obtain ⟨hmapped, hzero, hbefore⟩ := strlen_some_iff.mp hsize
    have hlt : text.length < size := by
      by_contra hc
      have hin : size < text.length := by omega
      rw [write_text pStr hin] at hzero
      exact h.nul (hzero ▸ List.getElem_mem _)
    have hend := hbefore text.length hlt
    rw [write_behind pStr le_rfl] at hend
    rw [write_behind pStr hlt.le] at hzero
    refine ⟨hlen ▸ hend, size - dwLen.toNat, by omega, ?_⟩
    rwa [Nat.add_sub_cancel' (by omega)]
  · rintro ⟨hend, i, hi, hzero⟩
    have hsome : strlen (Memory.write pStr 0 text) (dwLen.toNat + dwBehind) ≠ none := by
      intro hc
      refine strlen_none_iff.mp hc (dwLen.toNat + i) (by omega) ?_
      rwa [write_behind pStr (by omega)]
    obtain ⟨size, hsize⟩ := Option.ne_none_iff_exists'.mp hsome
    refine decoded_of_measured hnone hlen.le h.content hsize ?_
    rintro rfl
    rw [← hlen] at hend
    exact hend ((strlen_write_iff pStr h.nul).mp hsize).2

/-- Without such a text there is nothing to go wrong. -/
theorem decoded_of_not_starts {dwLen : UInt32} {dwBehind : Nat}
    (hlong : ∀ text rest, Starts s text rest → dwLen.toNat < text.length) :
    Decoded o pStr dwLen dwBehind s := by
  have hnone : ¬ ∃ text rest, Starts s text rest ∧ text.length < dwLen.toNat := by
    rintro ⟨text, rest, h, hlt⟩
    exact absurd (hlong text rest h) (by omega)
  by_cases hcopied : ∃ pData rest, pData.length ≤ dwLen.toNat ∧
      s.content = ByteOrder.bytes 4 pData.length ++ (pData ++ rest)
  · obtain ⟨pData, rest, hle, hcontent⟩ := hcopied
    have hnul : 0 ∈ pData := by
      by_contra hc
      have hlt := hlong pData rest ⟨hc, lt_of_le_of_lt hle dwLen.toNat_lt, hcontent⟩
      omega
    obtain ⟨j, hj, hget⟩ := List.getElem_of_mem hnul
    have hsome : strlen (Memory.write pStr 0 pData) (dwLen.toNat + dwBehind) ≠ none := by
      intro hc
      refine strlen_none_iff.mp hc j (by omega) ?_
      rw [write_text pStr hj, hget]
    obtain ⟨size, hsize⟩ := Option.ne_none_iff_exists'.mp hsome
    refine decoded_of_measured hnone hle hcontent hsize ?_
    rintro rfl
    refine (strlen_some_iff.mp hsize).2.2 j hj ?_
    rw [write_text pStr hj, hget]
  · obtain ⟨s', hread⟩ := readCString_refused o pStr dwBehind hcopied
    exact ⟨false, pStr, s', hread, iff_of_false (by simp) hnone, by simp, fun _ _ => rfl⟩

theorem decoded_iff_cleared (o : HostOrder) (pStr : Mem) (dwLen : UInt32) (dwBehind : Nat)
    (s : CNetStream) : Decoded o pStr dwLen dwBehind s ↔ Cleared pStr dwLen dwBehind s := by
  by_cases hstarts : ∃ text rest, Starts s text rest ∧ text.length ≤ dwLen.toNat
  · obtain ⟨text, rest, h, hle⟩ := hstarts
    have hcleared : Cleared pStr dwLen dwBehind s ↔
        (text.length < dwLen.toNat → pStr text.length = 0) ∧
        (text.length = dwLen.toNat →
          pStr dwLen.toNat ≠ 0 ∧ ∃ i < dwBehind, pStr (dwLen.toNat + i : Nat) = 0) := by
      constructor
      · intro hall
        exact hall text rest h
      · intro hone text' rest' h'
        obtain ⟨rfl, -⟩ := h.unique h'.length h'.content
        exact hone
    rw [hcleared]
    rcases hle.lt_or_eq with hlt | heq
    · rw [decoded_short_iff h hlt]
      simp [hlt, hlt.ne]
    · rw [decoded_full_iff h heq]
      simp [heq]
  · have hlong : ∀ text rest, Starts s text rest → dwLen.toNat < text.length := by
      intro text rest h
      by_contra hle
      exact hstarts ⟨text, rest, h, by omega⟩
    refine iff_of_true (decoded_of_not_starts hlong) fun text rest h => ?_
    have hlt := hlong text rest h
    exact ⟨fun hc => by omega, fun hc => by omega⟩

/-- What `WriteString` has written begins with its text. -/
theorem starts_of_written {o : HostOrder} {ws ws' : WriteStream} (hnul : 0 ∉ text)
    (hlt : text.length < 4294967296) (hwrite : writeString o text ws = some ((), ws'))
    (hcontent : s.content = ws.produced ws' ++ rest) : Starts s text rest := by
  refine ⟨hnul, hlt, ?_⟩
  have hput := encodes_writeString o text ws
  rw [hwrite] at hput
  obtain ⟨ws'', hput', heq⟩ := Option.map_eq_some_iff.mp hput.symm
  obtain rfl : ws'' = ws' := congrArg Prod.snd heq
  have hsize : (UInt32.ofNat text.length).toNat = text.length := UInt32.toNat_ofNat_of_lt' hlt
  rw [hcontent, (produced_put hput').1, stringBytes, hsize, (cut_eq_iff text).mpr hlt,
    List.append_assoc]

/-- The function does what it should if and only if the array was cleared where the text ends. What
`WriteString` wrote is read back if and only if it was. -/
theorem readCString_iff_cleared (o : HostOrder) (pStr : Mem) (dwLen : UInt32) (dwBehind : Nat)
    (s : CNetStream) :
    (Decoded o pStr dwLen dwBehind s ↔ Cleared pStr dwLen dwBehind s) ∧
      ∀ text rest ws ws', 0 ∉ text → text.length < dwLen.toNat →
        writeString o text ws = some ((), ws') → s.content = ws.produced ws' ++ rest →
        ((∃ pStr' s', readCString o pStr dwLen dwBehind s = some (true, pStr', s') ∧
            Holds pStr' dwLen.toNat text ∧ s'.content = rest) ↔ pStr text.length = 0) := by
  refine ⟨decoded_iff_cleared o pStr dwLen dwBehind s, ?_⟩
  intro text rest ws ws' hnul hlt hwrite hcontent
  have hstarts := starts_of_written hnul (hlt.trans dwLen.toNat_lt) hwrite hcontent
  constructor
  · rintro ⟨pStr', s', hread, -, -⟩
    exact zero_of_true hstarts hlt.le hread
  · intro hzero
    obtain ⟨ok, pStr', s', hread, hok, hholds, -⟩ :
      Decoded o pStr dwLen dwBehind s := (decoded_short_iff hstarts hlt).mpr hzero
    obtain rfl : ok = true := hok.mpr ⟨text, rest, hstarts, hlt⟩
    obtain ⟨text', hstarts', hholds⟩ := hholds rfl
    obtain ⟨rfl, hrest⟩ := hstarts.unique hstarts'.length hstarts'.content
    exact ⟨pStr', s', hread, hholds, hrest⟩

/-- The text of one character is written, and read into a cleared array of four. -/
theorem readCString_iff_cleared_written :
    ∃ pStr' s', readCString .little (fun _ => 0) 4 0 (ofBytes [0, 0, 0, 1, 65]) =
      some (true, pStr', s') ∧ Holds pStr' 4 [65] ∧ s'.content = [] := by
  have hput := encodes_writeString .little [65] ⟨fun _ => 0, 0, 8, by decide⟩
  obtain ⟨ws', hput', -⟩ := put_eq_some
    (show (stringBytes [65]).length ≤ (⟨fun _ => 0, 0, 8, by decide⟩ : WriteStream).dwLen by decide)
  rw [hput', Option.map_some] at hput
  refine ((readCString_iff_cleared .little (fun _ => 0) 4 0 (ofBytes [0, 0, 0, 1, 65])).2 [65] [] _
    ws' (by decide) (by decide) hput ?_).mpr rfl
  rw [(produced_put hput').1, content_ofBytes]
  decide

/-- A text of one character, and an array of four in which no byte is a NUL. -/
theorem not_decoded_of_used :
    ¬ ∀ o pStr dwLen dwBehind s, Decoded o pStr dwLen dwBehind s := by
  intro hall
  obtain ⟨ok, pStr', s', hread, hok, -, -⟩ :=
    hall .little (fun a => if a = 9 then 0 else 42) 4 8 (ofBytes [0, 0, 0, 1, 65])
  have hfalse : (readCString .little (fun a => if a = 9 then 0 else 42) 4 8
      (ofBytes [0, 0, 0, 1, 65])).map (·.1) = some false := by decide
  rw [hread] at hfalse
  obtain rfl : ok = false := Option.some.inj hfalse
  have hstarts : Starts (ofBytes [0, 0, 0, 1, 65]) [65] [] :=
    ⟨by decide, by decide, content_ofBytes _⟩
  exact absurd (hok.mpr ⟨[65], [], hstarts, by decide⟩) (by decide)

end CNetStream
