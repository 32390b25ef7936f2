import FxLib.FxNet.DataBuffer
import FxLib.Lib.Transition

/-!
# The send pipeline of the C# client

`Send` appends a frame to the send buffer, or drops it where there is no room. The IO thread's
`Update` begins to send where nothing is being sent; the callback of a send cuts off what was sent
and sends again until the buffer is empty. Nothing but the buffer has a lock, and the kernel reads
the bytes out of the buffer's own array while the send is outstanding.
-/

namespace FxNet

/-! ### The frame -/

namespace BinaryDataHeader

def buildSendPkgHeader (dwDataLen : Nat) : Option (List UInt8) :=
  ((do
    Writer.writeInt (.ofNat dwDataLen)
    Writer.writeInt dwMagic : WriteM) (Writer.new 8 (by decide))).map (·.2.written)

end BinaryDataHeader

/-- `Send` up to its `PushData`. An array that is too long is an exception. -/
def buildFrame (byteData : List UInt8) : Option (List UInt8) := do
  let pDataHeader ← BinaryDataHeader.buildSendPkgHeader byteData.length
  if h : byteData.length + 8 < 2147483648 then
    ((do
      Writer.writeData pDataHeader 8
      Writer.writeData byteData byteData.length : WriteM)
        (Writer.new (byteData.length + 8) h)).map (·.2.written)
  else none

/-- What is written to a fresh stream with room for it. -/
theorem written_new {w : WriteM} {bytes : List UInt8} (hw : Codec.Encodes Writer.put w bytes)
    {n : Nat} (hn : n < 2147483648) (hfits : bytes.length ≤ n) :
    (w (Writer.new n hn)).map (·.2.written) = some bytes := by
  have hroom : ¬ bytes.length > (Writer.new n hn).room := Nat.not_lt.mpr hfits
  rw [hw, Writer.put, if_neg hroom]
  rfl

theorem buildSendPkgHeader_eq (dwDataLen : Nat) :
    BinaryDataHeader.buildSendPkgHeader dwDataLen =
      some (ByteOrder.bytes 4 (UInt32.ofNat dwDataLen).toNat ++
        ByteOrder.bytes 4 BinaryDataHeader.dwMagic.toNat) :=
  written_new ((Writer.encodes_writeNumber 4 _).bind Writer.appends_put
    (Writer.encodes_writeNumber 4 _)) (by decide) (by simp)

/-- The client's frame is the one that the server reads and writes. -/
theorem buildFrame_eq {byteData : List UInt8} (h : 8 + byteData.length < 2147483648) :
    buildFrame byteData = some (frame byteData) := by
  rw [buildFrame, buildSendPkgHeader_eq, frame_eq h, ← List.append_assoc]
  obtain ⟨header, hheader⟩ : ∃ header, ByteOrder.bytes 4 (UInt32.ofNat byteData.length).toNat ++
      ByteOrder.bytes 4 BinaryDataHeader.dwMagic.toNat = header := ⟨_, rfl⟩
  have hlen : header.length = 8 := by rw [← hheader]; simp
  have hwrites := (Writer.encodes_writeData header).bind Writer.appends_put
    (Writer.encodes_writeData byteData)
  rw [hlen] at hwrites
  rw [hheader]
  simp only [Option.bind_eq_bind, Option.bind_some]
  rw [dif_pos (by omega)]
  exact written_new hwrites _ (by rw [List.length_append, hlen]; omega)

theorem buildFrame_length {byteData pData : List UInt8} (h : buildFrame byteData = some pData) :
    pData = frame byteData ∧ 8 + byteData.length < 2147483648 := by
  by_cases hshort : 8 + byteData.length < 2147483648
  · exact ⟨Option.some.inj (h.symm.trans (buildFrame_eq hshort)), hshort⟩
  · rw [buildFrame, buildSendPkgHeader_eq] at h
    simp only [Option.bind_eq_bind, Option.bind_some] at h
    rw [dif_neg (by omega)] at h
    cases h

/-! ### The socket -/

inductive SendState where
  | none
  | idle
  | sending
  deriving DecidableEq

/-- Where the main thread stands in `Send`. -/
inductive SendPc where
  | idle
  /-- In `PushData`, behind the test. -/
  | copying (byteData pData : List UInt8)
  deriving DecidableEq

/-- Where the IO thread stands in `Update`. -/
inductive UpdatePc where
  | idle
  /-- Behind the test of `m_eSendState`. -/
  | tested
  /-- In front of `AsynSend`. -/
  | sending
  /-- Behind an exception that nothing catches. -/
  | dead
  deriving DecidableEq

/-- An asynchronous send: with the kernel, or in its `SendCallback`. -/
inductive SendOp where
  | kernel (dwLen sent : Nat)
  /-- In `PopData`, in front of its test and behind it. -/
  | popping (bytesSent : Nat)
  | cutting (bytesSent : Nat)
  /-- In front of the test for an empty buffer. -/
  | checking
  | idling
  | resending
  deriving DecidableEq

structure TcpSender where
  sendBuffer : DataBuffer
  sendState : SendState
  main : SendPc
  io : UpdatePc
  sends : List SendOp
  connected : Bool
  /-- The bytes that the kernel has taken. -/
  wire : List UInt8
  /-- What has been copied to the send buffer. -/
  accepted : List (List UInt8)
  /-- What found no room. -/
  refused : List (List UInt8)

inductive SendStep where
  | send (byteData : List UInt8)
  | copy
  | update
  | testUsed
  | beginSend
  | take (i k : Nat)
  | endSend (i : Nat)
  | testPop (i : Nat)
  | cut (i : Nat)
  | check (i : Nat)
  | setIdle (i : Nat)
  | resend (i : Nat)
  /-- The connection breaks. -/
  | lose
  deriving DecidableEq

namespace TcpSender

/-- After `Init` and `OnConnect`. -/
def opened : TcpSender := ⟨.new, .idle, .idle, .idle, [], true, [], [], []⟩

/-! ### The main thread -/

/-- `Send` up to the lock of `PushData`, whose result is not asked for. -/
def send (byteData : List UInt8) (s : TcpSender) : Option TcpSender :=
  match s.main with
  | .copying _ _ => none
  | .idle =>
    match buildFrame byteData with
    | none => some s
    | some pData =>
      if DataBuffer.maxDataLength - s.sendBuffer.dwUsedLength < pData.length then
        some { s with refused := s.refused ++ [byteData] }
      else some { s with main := .copying byteData pData }

def copy (s : TcpSender) : Option TcpSender :=
  match s.main with
  | .idle => none
  | .copying byteData pData =>
    match s.sendBuffer.copyIn pData pData.length with
    | none => some { s with main := .idle }
    | some sendBuffer => some { s with
        sendBuffer := sendBuffer, main := .idle, accepted := s.accepted ++ [byteData] }

/-! ### The IO thread -/

/-- `ThrdFunc` asks for the connection first. -/
def update (s : TcpSender) : Option TcpSender :=
  if s.io = .idle ∧ s.connected then
    if s.sendState = .idle then some { s with io := .tested } else some s
  else none

def testUsed (s : TcpSender) : Option TcpSender :=
  if s.io = .tested then
    if s.sendBuffer.dwUsedLength > 0 then some { s with sendState := .sending, io := .sending }
    else some { s with io := .idle }
  else none

def beginSend (s : TcpSender) : Option TcpSender :=
  if s.io = .sending then
    if s.connected then some { s with
      sends := s.sends ++ [.kernel s.sendBuffer.dwUsedLength 0], io := .idle }
    else some { s with io := .dead }
  else none

/-! ### The kernel and the callback -/

/-- The kernel reads the next `k` bytes from the array. -/
def take (i k : Nat) (s : TcpSender) : Option TcpSender :=
  match s.sends[i]? with
  | some (.kernel dwLen sent) =>
    if s.connected ∧ sent + k ≤ dwLen then
      some { s with
        wire := s.wire ++ (s.sendBuffer.pData.drop sent).take k
        sends := s.sends.set i (.kernel dwLen (sent + k)) }
    else none
  | _ => none

/-- `EndSend`; its exceptions end the callback. -/
def endSend (i : Nat) (s : TcpSender) : Option TcpSender :=
  match s.sends[i]? with
  | some (.kernel _ sent) =>
    if s.connected then some { s with sends := s.sends.set i (.popping sent) }
    else some { s with sends := s.sends.eraseIdx i }
  | _ => none

def testPop (i : Nat) (s : TcpSender) : Option TcpSender :=
  match s.sends[i]? with
  | some (.popping bytesSent) =>
    if s.sendBuffer.dwUsedLength < bytesSent then some { s with sends := s.sends.set i .checking }
    else some { s with sends := s.sends.set i (.cutting bytesSent) }
  | _ => none

def cut (i : Nat) (s : TcpSender) : Option TcpSender :=
  match s.sends[i]? with
  | some (.cutting bytesSent) =>
    match s.sendBuffer.cutFront bytesSent with
    | none => some { s with sends := s.sends.eraseIdx i }
    | some sendBuffer =>
      some { s with sendBuffer := sendBuffer, sends := s.sends.set i .checking }
  | _ => none

def check (i : Nat) (s : TcpSender) : Option TcpSender :=
  match s.sends[i]? with
  | some .checking =>
    if s.sendBuffer.dwUsedLength = 0 then some { s with sends := s.sends.set i .idling }
    else some { s with sendState := .sending, sends := s.sends.set i .resending }
  | _ => none

def setIdle (i : Nat) (s : TcpSender) : Option TcpSender :=
  match s.sends[i]? with
  | some .idling => some { s with sendState := .idle, sends := s.sends.eraseIdx i }
  | _ => none

def resend (i : Nat) (s : TcpSender) : Option TcpSender :=
  match s.sends[i]? with
  | some .resending =>
    if s.connected then some { s with
      sends := s.sends.eraseIdx i ++ [.kernel s.sendBuffer.dwUsedLength 0] }
    else some { s with sends := s.sends.eraseIdx i }
  | _ => none

def step (s : TcpSender) : SendStep → Option TcpSender
  | .send byteData => s.send byteData
  | .copy => s.copy
  | .update => s.update
  | .testUsed => s.testUsed
  | .beginSend => s.beginSend
  | .take i k => s.take i k
  | .endSend i => s.endSend i
  | .testPop i => s.testPop i
  | .cut i => s.cut i
  | .check i => s.check i
  | .setIdle i => s.setIdle i
  | .resend i => s.resend i
  | .lose => some { s with connected := false }

/-! ### What a run keeps -/

/-- A send in progress has the first `n` bytes of the buffer behind it. -/
inductive Sees (used : Nat) : SendOp → Nat → Prop
  | kernel {dwLen sent : Nat} : sent ≤ dwLen → dwLen ≤ used → Sees used (.kernel dwLen sent) sent
  | popping {bytesSent : Nat} : bytesSent ≤ used → Sees used (.popping bytesSent) bytesSent
  | cutting {bytesSent : Nat} : bytesSent ≤ used → Sees used (.cutting bytesSent) bytesSent
  | checking : Sees used .checking 0
  | idling : Sees used .idling 0
  | resending : 0 < used → Sees used .resending 0

/-- Whose turn it is to send. At most one of the IO thread, the kernel and a callback has it. -/
inductive Turn (s : TcpSender) : Nat → Prop
  | idle : s.sends = [] → s.sendState = .idle → s.io = .idle ∨ s.io = .tested → Turn s 0
  | update : s.sends = [] → s.sendState = .sending → s.io = .sending →
      0 < s.sendBuffer.dwUsedLength → Turn s 0
  | send {op : SendOp} {n : Nat} : s.sends = [op] → s.sendState = .sending → s.io = .idle →
      Sees s.sendBuffer.dwUsedLength op n → Turn s n
  | lost {n : Nat} : s.connected = false → s.sends = [] → s.sendState = .sending →
      s.io = .idle ∨ s.io = .dead → n ≤ s.sendBuffer.dwUsedLength → Turn s n

/-- `done` has been cut off, and the first `n` bytes of the buffer are on the wire. -/
structure Carries (s : TcpSender) (done : List UInt8) (n : Nat) : Prop where
  accepted : s.accepted.flatMap frame = done ++ s.sendBuffer.stored
  wire : s.wire = done ++ s.sendBuffer.stored.take n
  turn : s.Turn n
  copying : ∀ byteData pData, s.main = .copying byteData pData →
    pData = frame byteData ∧ s.sendBuffer.dwUsedLength + pData.length ≤ 65536

variable {s s' : TcpSender} {done : List UInt8} {n i k : Nat}

theorem Sees.le {used : Nat} {op : SendOp} (h : Sees used op n) : n ≤ used := by
  cases h with
  | kernel hsent hlen => omega
  | popping hle | cutting hle => exact hle
  | checking | idling | resending _ => exact Nat.zero_le used

theorem Sees.mono {used used' : Nat} {op : SendOp} (h : Sees used op n) (hle : used ≤ used') :
    Sees used' op n := by
  cases h with
  | kernel hsent hlen => exact .kernel hsent (by omega)
  | popping hused => exact .popping (by omega)
  | cutting hused => exact .cutting (by omega)
  | checking => exact .checking
  | idling => exact .idling
  | resending hused => exact .resending (by omega)

theorem Turn.le (h : s.Turn n) : n ≤ s.sendBuffer.dwUsedLength := by
  cases h with
  | idle | update => exact Nat.zero_le _
  | send _ _ _ hsees => exact hsees.le
  | lost _ _ _ _ hle => exact hle

/-- The main thread leaves the turn alone. -/
theorem Turn.grow (h : s.Turn n) (hsends : s'.sends = s.sends) (hstate : s'.sendState = s.sendState)
    (hio : s'.io = s.io) (hconnected : s'.connected = s.connected)
    (hused : s.sendBuffer.dwUsedLength ≤ s'.sendBuffer.dwUsedLength) : s'.Turn n := by
  cases h with
  | idle h1 h2 h3 => exact .idle (hsends.trans h1) (hstate.trans h2) (by rwa [hio])
  | update h1 h2 h3 hpos =>
    exact .update (hsends.trans h1) (hstate.trans h2) (hio.trans h3) (by omega)
  | send h1 h2 h3 hsees =>
    exact .send (hsends.trans h1) (hstate.trans h2) (hio.trans h3) (hsees.mono hused)
  | lost h0 h1 h2 h3 hle =>
    exact .lost (hconnected.trans h0) (hsends.trans h1) (hstate.trans h2) (by rwa [hio]) (by omega)

/-- There is never more than one send in progress. -/
theorem Turn.single (h : s.Turn n) : s.sends.length ≤ 1 := by
  cases h with
  | idle hsends | update hsends | lost _ hsends => simp [hsends]
  | send hsends => simp [hsends]

/-- A send that is in progress is the only one. -/
theorem Turn.of_getElem? (h : s.Turn n) {op : SendOp} (hop : s.sends[i]? = some op) :
    i = 0 ∧ s.sends = [op] ∧ s.sendState = .sending ∧ s.io = .idle ∧
      Sees s.sendBuffer.dwUsedLength op n := by
  cases h with
  | idle hsends | update hsends | lost _ hsends => simp [hsends] at hop
  | send hsends hstate hio hsees =>
    rw [hsends] at hop
    cases i with
    | zero =>
      obtain rfl := Option.some.inj hop
      exact ⟨rfl, hsends, hstate, hio, hsees⟩
    | succ i => simp at hop

/-! ### One step -/

theorem Carries.send (h : s.Carries done n) {byteData : List UInt8}
    (hs : s.send byteData = some s') : s'.Carries done n := by
  rw [TcpSender.send] at hs
  cases hmain : s.main with
  | copying => simp [hmain] at hs
  | idle =>
    simp only [hmain] at hs
    cases hframe : buildFrame byteData with
    | none =>
      simp only [hframe, Option.some.injEq] at hs
      exact hs ▸ h
    | some pData =>
      simp only [hframe] at hs
      split_ifs at hs with hroom
      all_goals obtain rfl := Option.some.inj hs
      · exact ⟨h.accepted, h.wire, h.turn.grow rfl rfl rfl rfl le_rfl, by simp⟩
      · refine ⟨h.accepted, h.wire, h.turn.grow rfl rfl rfl rfl le_rfl, ?_⟩
        rintro _ _ ⟨rfl, rfl⟩
        have hused := s.sendBuffer.used_le
        rw [DataBuffer.maxDataLength] at hroom
        exact ⟨(buildFrame_length hframe).1, by simp only; omega⟩

theorem Carries.copy (h : s.Carries done n) (hs : s.copy = some s') : s'.Carries done n := by
  rw [TcpSender.copy] at hs
  cases hmain : s.main with
  | idle => simp [hmain] at hs
  | copying byteData pData =>
    obtain ⟨hframe, hroom⟩ := h.copying byteData pData hmain
    obtain ⟨sendBuffer, hcopy⟩ := DataBuffer.copyIn_isSome s.sendBuffer pData le_rfl hroom
    have hstored := DataBuffer.copyIn_stored hcopy
    have hle := h.turn.le
    simp only [hmain, hcopy] at hs
    obtain rfl := Option.some.inj hs
    rw [List.take_length] at hstored
    refine ⟨?_, ?_, ?_, by simp⟩
    · simp only [List.flatMap_append, h.accepted, hstored, hframe]
      simp
    · simp only [hstored]
      rw [List.take_append_of_le_length (by rwa [DataBuffer.stored_length])]
      exact h.wire
    · refine h.turn.grow rfl rfl rfl rfl ?_
      rw [← DataBuffer.stored_length, ← DataBuffer.stored_length, hstored, List.length_append]
      omega

theorem Carries.update (h : s.Carries done n) (hs : s.update = some s') : s'.Carries done n := by
  rw [TcpSender.update] at hs
  split_ifs at hs with hio hstate
  · obtain rfl := Option.some.inj hs
    refine ⟨h.accepted, h.wire, ?_, h.copying⟩
    cases h.turn with
    | idle hsends => exact .idle hsends hstate (.inr rfl)
    | update _ hstate' | send _ hstate' | lost _ _ hstate' =>
      rw [hstate'] at hstate
      cases hstate
  · exact Option.some.inj hs ▸ h

theorem Carries.testUsed (h : s.Carries done n) (hs : s.testUsed = some s') :
    s'.Carries done n := by
  rw [TcpSender.testUsed] at hs
  split_ifs at hs with hio hused
  all_goals
    obtain rfl := Option.some.inj hs
    refine ⟨h.accepted, h.wire, ?_, h.copying⟩
    cases h.turn with
    | idle hsends hstate =>
      first
        | exact .update hsends rfl rfl hused
        | exact .idle hsends hstate (.inl rfl)
    | update _ _ hio' | send _ _ hio' => simp [hio] at hio'
    | lost _ _ _ hio' => simp [hio] at hio'

theorem Carries.beginSend (h : s.Carries done n) (hs : s.beginSend = some s') :
    s'.Carries done n := by
  rw [TcpSender.beginSend] at hs
  split_ifs at hs with hio hconnected
  all_goals
    obtain rfl := Option.some.inj hs
    refine ⟨h.accepted, h.wire, ?_, h.copying⟩
    cases h.turn with
    | idle _ _ hio' | lost _ _ _ hio' => simp [hio] at hio'
    | send _ _ hio' => simp [hio] at hio'
    | update hsends hstate =>
      first
      | exact .send (by simp [hsends]) hstate rfl (.kernel (Nat.zero_le _) le_rfl)
      | exact .lost (by simpa using hconnected) hsends hstate (.inr rfl) (Nat.zero_le _)

theorem Carries.take (h : s.Carries done n) (hs : s.take i k = some s') :
    s'.Carries done (n + k) := by
  rw [TcpSender.take] at hs
  cases hop : s.sends[i]? with
  | none => simp [hop] at hs
  | some op =>
    obtain ⟨rfl, hsends, hstate, hio, hsees⟩ := h.turn.of_getElem? hop
    cases hsees with
    | kernel hsent hlen =>
      simp only [hop] at hs
      split_ifs at hs with hk
      obtain rfl := Option.some.inj hs
      refine ⟨h.accepted, ?_, .send (by simp [hsends]) hstate hio (.kernel hk.2 hlen), h.copying⟩
      have hread : (s.sendBuffer.pData.drop n).take k = (s.sendBuffer.stored.drop n).take k := by
        rw [List.take_drop, List.take_drop, DataBuffer.take_stored _ (by omega)]
      simp only [h.wire, hread]
      rw [List.append_assoc, ← List.take_add]
    | _ => simp [hop] at hs

theorem Carries.endSend (h : s.Carries done n) (hs : s.endSend i = some s') :
    s'.Carries done n := by
  rw [TcpSender.endSend] at hs
  cases hop : s.sends[i]? with
  | none => simp [hop] at hs
  | some op =>
    obtain ⟨rfl, hsends, hstate, hio, hsees⟩ := h.turn.of_getElem? hop
    have hle := hsees.le
    cases hsees with
    | kernel hsent hlen =>
      simp only [hop] at hs
      split_ifs at hs with hconnected
      all_goals obtain rfl := Option.some.inj hs
      · exact ⟨h.accepted, h.wire, .send (by simp [hsends]) hstate hio (.popping hle), h.copying⟩
      · exact ⟨h.accepted, h.wire, .lost (by simpa using hconnected) (by simp [hsends]) hstate
          (.inl hio) hle, h.copying⟩
    | _ => simp [hop] at hs

theorem Carries.testPop (h : s.Carries done n) (hs : s.testPop i = some s') :
    s'.Carries done n := by
  rw [TcpSender.testPop] at hs
  cases hop : s.sends[i]? with
  | none => simp [hop] at hs
  | some op =>
    obtain ⟨rfl, hsends, hstate, hio, hsees⟩ := h.turn.of_getElem? hop
    cases hsees with
    | popping hle =>
      simp only [hop, if_neg (Nat.not_lt.mpr hle)] at hs
      obtain rfl := Option.some.inj hs
      exact ⟨h.accepted, h.wire, .send (by simp [hsends]) hstate hio (.cutting hle), h.copying⟩
    | _ => simp [hop] at hs

theorem Carries.cut (h : s.Carries done n) (hs : s.cut i = some s') :
    s'.Carries (done ++ s.sendBuffer.stored.take n) 0 := by
  rw [TcpSender.cut] at hs
  cases hop : s.sends[i]? with
  | none => simp [hop] at hs
  | some op =>
    obtain ⟨rfl, hsends, hstate, hio, hsees⟩ := h.turn.of_getElem? hop
    cases hsees with
    | cutting hle =>
      obtain ⟨sendBuffer, hcut⟩ := DataBuffer.cutFront_isSome hle
      have hstored := DataBuffer.cutFront_stored hcut
      simp only [hop, hcut] at hs
      obtain rfl := Option.some.inj hs
      refine ⟨?_, ?_, .send (by simp [hsends]) hstate hio .checking, ?_⟩
      · simp only [h.accepted, hstored]
        rw [List.append_assoc, List.take_append_drop]
      · simp only [h.wire, List.take_zero, List.append_nil]
      · intro byteData pData hmain
        obtain ⟨hframe, hroom⟩ := h.copying byteData pData hmain
        refine ⟨hframe, ?_⟩
        rw [← DataBuffer.stored_length, hstored, List.length_drop, DataBuffer.stored_length]
        omega
    | _ => simp [hop] at hs

theorem Carries.check (h : s.Carries done n) (hs : s.check i = some s') : s'.Carries done n := by
  rw [TcpSender.check] at hs
  cases hop : s.sends[i]? with
  | none => simp [hop] at hs
  | some op =>
    obtain ⟨rfl, hsends, hstate, hio, hsees⟩ := h.turn.of_getElem? hop
    cases hsees with
    | checking =>
      simp only [hop] at hs
      split_ifs at hs
      all_goals obtain rfl := Option.some.inj hs
      · exact ⟨h.accepted, h.wire, .send (by simp [hsends]) hstate hio .idling, h.copying⟩
      · rename_i hused
        exact ⟨h.accepted, h.wire,
          .send (by simp [hsends]) rfl hio (.resending (Nat.pos_of_ne_zero hused)), h.copying⟩
    | _ => simp [hop] at hs

theorem Carries.setIdle (h : s.Carries done n) (hs : s.setIdle i = some s') :
    s'.Carries done n := by
  rw [TcpSender.setIdle] at hs
  cases hop : s.sends[i]? with
  | none => simp [hop] at hs
  | some op =>
    obtain ⟨rfl, hsends, hstate, hio, hsees⟩ := h.turn.of_getElem? hop
    cases hsees with
    | idling =>
      simp only [hop] at hs
      obtain rfl := Option.some.inj hs
      exact ⟨h.accepted, h.wire, .idle (by simp [hsends]) rfl (.inl hio), h.copying⟩
    | _ => simp [hop] at hs

theorem Carries.resend (h : s.Carries done n) (hs : s.resend i = some s') :
    s'.Carries done n := by
  rw [TcpSender.resend] at hs
  cases hop : s.sends[i]? with
  | none => simp [hop] at hs
  | some op =>
    obtain ⟨rfl, hsends, hstate, hio, hsees⟩ := h.turn.of_getElem? hop
    cases hsees with
    | resending =>
      simp only [hop] at hs
      split_ifs at hs with hconnected
      all_goals obtain rfl := Option.some.inj hs
      · exact ⟨h.accepted, h.wire, .send (by simp [hsends]) hstate hio
          (.kernel (Nat.zero_le _) le_rfl), h.copying⟩
      · exact ⟨h.accepted, h.wire, .lost (by simpa using hconnected) (by simp [hsends]) hstate
          (.inl hio) (Nat.zero_le _), h.copying⟩
    | _ => simp [hop] at hs

theorem Carries.lose (h : s.Carries done n) :
    ({ s with connected := false } : TcpSender).Carries done n := by
  refine ⟨h.accepted, h.wire, ?_, h.copying⟩
  cases h.turn with
  | idle h1 h2 h3 => exact .idle h1 h2 h3
  | update h1 h2 h3 hpos => exact .update h1 h2 h3 hpos
  | send h1 h2 h3 hsees => exact .send h1 h2 h3 hsees
  | lost _ h1 h2 h3 hle => exact .lost rfl h1 h2 h3 hle

theorem Carries.step (h : s.Carries done n) {l : SendStep} (hs : s.step l = some s') :
    ∃ done' n', s'.Carries done' n' := by
  cases l with
  | send byteData => exact ⟨done, n, h.send hs⟩
  | copy => exact ⟨done, n, h.copy hs⟩
  | update => exact ⟨done, n, h.update hs⟩
  | testUsed => exact ⟨done, n, h.testUsed hs⟩
  | beginSend => exact ⟨done, n, h.beginSend hs⟩
  | take i k => exact ⟨done, n + k, h.take hs⟩
  | endSend i => exact ⟨done, n, h.endSend hs⟩
  | testPop i => exact ⟨done, n, h.testPop hs⟩
  | cut i => exact ⟨done ++ s.sendBuffer.stored.take n, 0, h.cut hs⟩
  | check i => exact ⟨done, n, h.check hs⟩
  | setIdle i => exact ⟨done, n, h.setIdle hs⟩
  | resend i => exact ⟨done, n, h.resend hs⟩
  | lose =>
    obtain rfl := Option.some.inj hs
    exact ⟨done, n, h.lose⟩

theorem opened_carries : opened.Carries [] 0 :=
  ⟨rfl, rfl, .idle rfl rfl (.inl rfl), fun _ _ hmain => nomatch hmain⟩

/-! ### Nothing is stranded -/

/-- A step other than a call of `Send` or the end of the connection. -/
def Works : SendStep → Prop
  | .send _ | .lose => False
  | _ => True

/-- Everything that was accepted is on the wire, and the next call of `Send` finds no send in
progress. -/
structure Settled (s : TcpSender) : Prop where
  main : s.main = .idle
  wire : s.wire = s.accepted.flatMap frame
  sends : s.sends = []
  sendState : s.sendState = .idle

/-- The bytes of the buffer that a send in progress has behind it. -/
def behind (s : TcpSender) : Nat :=
  match s.sends with
  | .kernel _ sent :: _ => sent
  | .popping bytesSent :: _ | .cutting bytesSent :: _ => bytesSent
  | _ => 0

def stage (s : TcpSender) : Nat :=
  match s.sends with
  | .kernel dwLen sent :: _ => if sent < dwLen then 0 else 8
  | .popping _ :: _ => 7
  | .cutting _ :: _ => 6
  | .checking :: _ => 5
  | .idling :: _ | .resending :: _ => 4
  | [] =>
    match s.io with
    | .idle => if s.sendBuffer.dwUsedLength = 0 then 0 else 3
    | .tested => 2
    | .sending | .dead => 1

/-- What is being copied counts as if it were in the buffer. -/
def toCome (s : TcpSender) : Nat :=
  match s.main with
  | .idle => 0
  | .copying _ pData => pData.length

/-- How far it is to a settled state: the bytes that are not on the wire count most. -/
def distance (s : TcpSender) : Nat :=
  20 * (s.sendBuffer.dwUsedLength + s.toCome - s.behind) + s.stage +
    if s.main = .idle then 0 else 10

/-- What is still to be sent does not change, and the stage is a lower one. -/
theorem distance_lt_of_stage (hmain : s'.main = s.main)
    (hleft : s'.sendBuffer.dwUsedLength - s'.behind = s.sendBuffer.dwUsedLength - s.behind)
    (hidle : s.main = .idle) (hstage : s'.stage < s.stage) : s'.distance < s.distance := by
  simp only [distance, toCome, hmain, hidle, Nat.add_zero, if_true]
  omega

theorem stage_le (s : TcpSender) : s.stage ≤ 8 := by
  rw [stage]
  split
  case h_7 =>
    split
    case h_1 => split_ifs <;> omega
    all_goals omega
  case h_1 => split_ifs <;> omega
  all_goals omega

/-- The turn goes on. -/
theorem Turn.progress (h : s.Turn n) (hconnected : s.connected = true) (hidle : s.main = .idle) :
    (s.sends = [] ∧ s.sendState = .idle ∧ s.sendBuffer.dwUsedLength = 0) ∨
      ∃ l s', Works l ∧ s.step l = some s' ∧ s'.connected = true ∧ s'.distance < s.distance := by
  cases h with
  | idle hsends hstate hio =>
    by_cases hused : s.sendBuffer.dwUsedLength = 0
    · exact .inl ⟨hsends, hstate, hused⟩
    right
    rcases hio with hio | hio
    · refine ⟨.update, { s with io := .tested }, trivial,
        by simp [TcpSender.step, TcpSender.update, hio, hconnected, hstate], hconnected,
        distance_lt_of_stage rfl rfl hidle ?_⟩
      simp [stage, hsends, hio, hused]
    · refine ⟨.testUsed, { s with sendState := .sending, io := .sending }, trivial,
        by simp [TcpSender.step, TcpSender.testUsed, hio, Nat.pos_of_ne_zero hused], hconnected,
        distance_lt_of_stage rfl rfl hidle ?_⟩
      simp [stage, hsends, hio]
  | update hsends hstate hio hused =>
    refine .inr ⟨.beginSend, { s with
      sends := s.sends ++ [.kernel s.sendBuffer.dwUsedLength 0], io := .idle }, trivial,
      by simp [TcpSender.step, TcpSender.beginSend, hio, hconnected], hconnected,
      distance_lt_of_stage rfl ?_ hidle ?_⟩
    · simp [behind, hsends]
    · simp [stage, hsends, hio, hused]
  | @send op n hsends hstate hio hsees =>
    right
    have hop : s.sends[0]? = some op := by rw [hsends]; rfl
    cases hsees with
    | @kernel dwLen sent hsent hlen =>
      by_cases hall : n < dwLen
      · refine ⟨.take 0 (dwLen - n), { s with
          wire := s.wire ++ (s.sendBuffer.pData.drop n).take (dwLen - n)
          sends := s.sends.set 0 (.kernel dwLen (n + (dwLen - n))) }, trivial, ?_, hconnected, ?_⟩
        · simp only [TcpSender.step, TcpSender.take, hop]
          rw [if_pos ⟨hconnected, by omega⟩]
        · simp only [distance, toCome, hidle, behind, stage, hsends, List.set_cons_zero, if_true,
            if_pos hall]
          rw [if_neg (by omega)]
          omega
      · refine ⟨.endSend 0, { s with sends := s.sends.set 0 (.popping n) }, trivial,
          by simp [TcpSender.step, TcpSender.endSend, hop, hconnected], hconnected,
          distance_lt_of_stage rfl ?_ hidle ?_⟩
        · simp [behind, hsends]
        · simp [stage, hsends, hall]
    | popping hle =>
      refine ⟨.testPop 0, { s with sends := s.sends.set 0 (.cutting n) }, trivial,
        by simp [TcpSender.step, TcpSender.testPop, hop, hle], hconnected,
        distance_lt_of_stage rfl ?_ hidle ?_⟩
      · simp [behind, hsends]
      · simp [stage, hsends]
    | cutting hle =>
      obtain ⟨sendBuffer, hcut⟩ := DataBuffer.cutFront_isSome hle
      have hused : sendBuffer.dwUsedLength = s.sendBuffer.dwUsedLength - n := by
        rw [← DataBuffer.stored_length, DataBuffer.cutFront_stored hcut, List.length_drop,
          DataBuffer.stored_length]
      refine ⟨.cut 0, { s with sendBuffer := sendBuffer, sends := s.sends.set 0 .checking },
        trivial, by simp [TcpSender.step, TcpSender.cut, hop, hcut], hconnected,
        distance_lt_of_stage rfl ?_ hidle ?_⟩
      · simp [behind, hsends, hused]
      · simp [stage, hsends]
    | checking =>
      by_cases hused : s.sendBuffer.dwUsedLength = 0
      · refine ⟨.check 0, { s with sends := s.sends.set 0 .idling }, trivial,
          by simp [TcpSender.step, TcpSender.check, hop, hused], hconnected,
          distance_lt_of_stage rfl ?_ hidle ?_⟩
        · simp [behind, hsends]
        · simp [stage, hsends]
      · refine ⟨.check 0, { s with sendState := .sending, sends := s.sends.set 0 .resending },
          trivial, by simp [TcpSender.step, TcpSender.check, hop, hused], hconnected,
          distance_lt_of_stage rfl ?_ hidle ?_⟩
        · simp [behind, hsends]
        · simp [stage, hsends]
    | idling =>
      refine ⟨.setIdle 0, { s with sendState := .idle, sends := s.sends.eraseIdx 0 }, trivial,
        by simp [TcpSender.step, TcpSender.setIdle, hop], hconnected,
        distance_lt_of_stage rfl ?_ hidle ?_⟩
      · simp [behind, hsends]
      · simp only [stage, hsends, List.eraseIdx_cons_zero, hio]
        split_ifs <;> omega
    | resending hused =>
      refine ⟨.resend 0, { s with
        sends := s.sends.eraseIdx 0 ++ [.kernel s.sendBuffer.dwUsedLength 0] }, trivial,
        by simp [TcpSender.step, TcpSender.resend, hop, hconnected], hconnected,
        distance_lt_of_stage rfl ?_ hidle ?_⟩
      · simp [behind, hsends]
      · simp [stage, hsends, hused]
  | lost hlost => simp [hconnected] at hlost

/-- A connected socket that has not settled has a step of its own that brings it nearer. -/
theorem Carries.progress (h : s.Carries done n) (hconnected : s.connected = true) :
    s.Settled ∨ ∃ l s', Works l ∧ s.step l = some s' ∧ s'.connected = true ∧
      s'.distance < s.distance := by
  cases hmain : s.main with
  | copying byteData pData =>
    obtain ⟨hframe, hroom⟩ := h.copying byteData pData hmain
    obtain ⟨sendBuffer, hcopy⟩ := DataBuffer.copyIn_isSome s.sendBuffer pData le_rfl hroom
    have hused : sendBuffer.dwUsedLength = s.sendBuffer.dwUsedLength + pData.length := by
      rw [← DataBuffer.stored_length, DataBuffer.copyIn_stored hcopy, List.length_append,
        DataBuffer.stored_length, List.take_length]
    refine .inr ⟨.copy, { s with
      sendBuffer := sendBuffer, main := .idle, accepted := s.accepted ++ [byteData] }, trivial,
      by simp [TcpSender.step, TcpSender.copy, hmain, hcopy], hconnected, ?_⟩
    have hstage := stage_le { s with
      sendBuffer := sendBuffer, main := .idle, accepted := s.accepted ++ [byteData] }
    simp only [distance, toCome, hmain, hused, behind, reduceCtorEq, if_false, if_true,
      Nat.add_zero]
    omega
  | idle =>
    rcases h.turn.progress hconnected hmain with ⟨hsends, hstate, hused⟩ | hnext
    · left
      have hstored : s.sendBuffer.stored = [] := by
        rw [← List.length_eq_zero_iff, DataBuffer.stored_length, hused]
      refine ⟨hmain, ?_, hsends, hstate⟩
      rw [h.accepted, h.wire, hstored, List.take_nil]
    · exact .inr hnext

/-- What the IO thread, the kernel and the callbacks leave alone. -/
structure Keeps (s s' : TcpSender) : Prop where
  main : s'.main = s.main
  accepted : s'.accepted = s.accepted
  wire : s.wire <+: s'.wire

/-- Only the main thread is in `Send`. -/
theorem keeps_step {l : SendStep} (hs : s.step l = some s') (hsend : ∀ byteData, l ≠ .send byteData)
    (hcopy : l ≠ .copy) : s.Keeps s' := by
  cases l with
  | send byteData => exact absurd rfl (hsend byteData)
  | copy => exact absurd rfl hcopy
  | update =>
    simp only [TcpSender.step, TcpSender.update] at hs
    split_ifs at hs <;> exact Option.some.inj hs ▸ ⟨rfl, rfl, List.prefix_rfl⟩
  | testUsed =>
    simp only [TcpSender.step, TcpSender.testUsed] at hs
    split_ifs at hs <;> exact Option.some.inj hs ▸ ⟨rfl, rfl, List.prefix_rfl⟩
  | beginSend =>
    simp only [TcpSender.step, TcpSender.beginSend] at hs
    split_ifs at hs <;> exact Option.some.inj hs ▸ ⟨rfl, rfl, List.prefix_rfl⟩
  | take i k =>
    simp only [TcpSender.step, TcpSender.take] at hs
    split at hs
    · split_ifs at hs
      exact Option.some.inj hs ▸ ⟨rfl, rfl, List.prefix_append _ _⟩
    · cases hs
  | endSend i =>
    simp only [TcpSender.step, TcpSender.endSend] at hs
    split at hs
    · split_ifs at hs <;> exact Option.some.inj hs ▸ ⟨rfl, rfl, List.prefix_rfl⟩
    · cases hs
  | testPop i =>
    simp only [TcpSender.step, TcpSender.testPop] at hs
    split at hs
    · split_ifs at hs <;> exact Option.some.inj hs ▸ ⟨rfl, rfl, List.prefix_rfl⟩
    · cases hs
  | cut i =>
    simp only [TcpSender.step, TcpSender.cut] at hs
    split at hs
    · split at hs <;> exact Option.some.inj hs ▸ ⟨rfl, rfl, List.prefix_rfl⟩
    · cases hs
  | check i =>
    simp only [TcpSender.step, TcpSender.check] at hs
    split at hs
    · split_ifs at hs <;> exact Option.some.inj hs ▸ ⟨rfl, rfl, List.prefix_rfl⟩
    · cases hs
  | setIdle i =>
    simp only [TcpSender.step, TcpSender.setIdle] at hs
    split at hs
    · exact Option.some.inj hs ▸ ⟨rfl, rfl, List.prefix_rfl⟩
    · cases hs
  | resend i =>
    simp only [TcpSender.step, TcpSender.resend] at hs
    split at hs
    · split_ifs at hs <;> exact Option.some.inj hs ▸ ⟨rfl, rfl, List.prefix_rfl⟩
    · cases hs
  | lose => exact Option.some.inj hs ▸ ⟨rfl, rfl, List.prefix_rfl⟩

/-- `Send` up to its `PushData`. -/
theorem send_cases {byteData : List UInt8} (hs : s.send byteData = some s') :
    s.main = .idle ∧ s'.accepted = s.accepted ∧ s'.wire = s.wire ∧
      (s'.main = .idle ∨ ∃ pData, s'.main = .copying byteData pData) := by
  simp only [TcpSender.send] at hs
  split at hs
  · cases hs
  · rename_i hmain
    split at hs
    · exact Option.some.inj hs ▸ ⟨hmain, rfl, rfl, .inl hmain⟩
    · split_ifs at hs
      · exact Option.some.inj hs ▸ ⟨hmain, rfl, rfl, .inl hmain⟩
      · exact Option.some.inj hs ▸ ⟨hmain, rfl, rfl, .inr ⟨_, rfl⟩⟩

/-- `PushData` behind its test. -/
theorem copy_cases (hs : s.copy = some s') :
    ∃ byteData pData, s.main = .copying byteData pData ∧ s'.main = .idle ∧ s'.wire = s.wire ∧
      (s'.accepted = s.accepted ∨ s'.accepted = s.accepted ++ [byteData]) := by
  simp only [TcpSender.copy] at hs
  split at hs
  · cases hs
  · rename_i byteData pData hmain
    split at hs
    · exact Option.some.inj hs ▸ ⟨byteData, pData, hmain, rfl, rfl, .inl rfl⟩
    · exact Option.some.inj hs ▸ ⟨byteData, pData, hmain, rfl, rfl, .inr rfl⟩

/-- Neither what was accepted nor what the kernel has taken is ever taken back. -/
theorem step_grows {l : SendStep} (hs : s.step l = some s') :
    s.accepted <+: s'.accepted ∧ s.wire <+: s'.wire := by
  cases l with
  | send byteData =>
    obtain ⟨-, haccepted, hwire, -⟩ := send_cases hs
    exact ⟨haccepted ▸ List.prefix_rfl, hwire ▸ List.prefix_rfl⟩
  | copy =>
    obtain ⟨byteData, pData, -, -, hwire, haccepted | haccepted⟩ := copy_cases hs
    · exact ⟨haccepted ▸ List.prefix_rfl, hwire ▸ List.prefix_rfl⟩
    · exact ⟨haccepted ▸ List.prefix_append _ _, hwire ▸ List.prefix_rfl⟩
  | _ =>
    have hkeeps := keeps_step hs (by simp) (by simp)
    exact ⟨hkeeps.accepted ▸ List.prefix_rfl, hkeeps.wire⟩

/-! ### The calls of `Send` -/

/-- The message of a call of `Send`. -/
def called : SendStep → List (List UInt8)
  | .send byteData => [byteData]
  | _ => []

/-- The message that `Send` is at work on. -/
inductive Current : SendPc → List (List UInt8) → Prop
  | idle : Current .idle []
  | copying (byteData pData : List UInt8) : Current (.copying byteData pData) [byteData]

/-- What has been accepted of the messages that `Send` was called with. -/
def Accepts (s : TcpSender) (calls : List (List UInt8)) : Prop :=
  ∃ front current, calls = front ++ current ∧ s.accepted.Sublist front ∧ Current s.main current

theorem Accepts.step {calls : List (List UInt8)} (h : s.Accepts calls) {l : SendStep}
    (hs : s.step l = some s') : s'.Accepts (calls ++ called l) := by
  obtain ⟨front, current, rfl, hsub, hcurrent⟩ := h
  cases l with
  | send byteData =>
    obtain ⟨hmain, haccepted, -, hnext⟩ := send_cases hs
    rw [hmain] at hcurrent
    cases hcurrent
    rw [List.append_nil]
    rcases hnext with hidle | ⟨pData, hcopying⟩
    · refine ⟨front ++ [byteData], [], by simp [called], ?_, hidle ▸ .idle⟩
      exact haccepted ▸ hsub.trans (List.sublist_append_left _ _)
    · exact ⟨front, [byteData], rfl, haccepted ▸ hsub, hcopying ▸ .copying byteData pData⟩
  | copy =>
    obtain ⟨byteData, pData, hmain, hidle, -, haccepted⟩ := copy_cases hs
    rw [hmain] at hcurrent
    cases hcurrent
    refine ⟨front ++ [byteData], [], by simp [called], ?_, hidle ▸ .idle⟩
    rcases haccepted with haccepted | haccepted
    · exact haccepted ▸ hsub.trans (List.sublist_append_left _ _)
    · exact haccepted ▸ hsub.append (List.Sublist.refl _)
  | _ =>
    have hkeeps := keeps_step hs (by simp) (by simp)
    exact ⟨front, current, by simp [called], hkeeps.accepted ▸ hsub, hkeeps.main ▸ hcurrent⟩

theorem accepts_of_run {ls : List SendStep} (hrun : Transition.run step opened ls = some s) :
    s.accepted.Sublist (ls.flatMap called) := by
  have hstep : ∀ (s : TcpSender) (l : SendStep) (s' : TcpSender) calls, s.Accepts calls → True →
      s.step l = some s' → s'.Accepts (calls ++ called l) := fun _ _ _ _ h _ hs => h.step hs
  have hopened : opened.Accepts [] := ⟨[], [], rfl, List.Sublist.refl _, .idle⟩
  have h := Transition.invariant_outputs hstep hopened
    (Transition.always_of_forall (fun _ _ => trivial) opened) hrun
  rw [Transition.outputs_of_label called hrun, List.nil_append] at h
  obtain ⟨front, current, hcalls, hsub, -⟩ := h
  exact hcalls ▸ hsub.trans (List.sublist_append_left front current)

/-! ### Runs -/

theorem carries_of_run {ls : List SendStep} (hrun : Transition.run step opened ls = some s) :
    ∃ done n, s.Carries done n := by
  have hstep : ∀ (s : TcpSender) (l : SendStep) (s' : TcpSender),
      (∃ done n, s.Carries done n) → s.step l = some s' → ∃ done n, s'.Carries done n :=
    fun _ _ _ ⟨_, _, h⟩ hs => h.step hs
  exact Transition.invariant hstep ⟨[], 0, opened_carries⟩ hrun

/-- A message that is accepted has found room for its frame. -/
theorem Carries.short (h : s.Carries done n) {l : SendStep} (hs : s.step l = some s')
    (hshort : ∀ x ∈ s.accepted, 8 + x.length ≤ DataBuffer.maxDataLength) :
    ∀ x ∈ s'.accepted, 8 + x.length ≤ DataBuffer.maxDataLength := by
  cases l with
  | send byteData => exact (send_cases hs).2.1 ▸ hshort
  | copy =>
    obtain ⟨byteData, pData, hmain, -, -, haccepted | haccepted⟩ := copy_cases hs
    · exact haccepted ▸ hshort
    · obtain ⟨rfl, hroom⟩ := h.copying byteData pData hmain
      rw [frame_length] at hroom
      rw [haccepted]
      intro x hx
      rcases List.mem_append.mp hx with hx | hx
      · exact hshort x hx
      · obtain rfl := List.mem_singleton.mp hx
        rw [DataBuffer.maxDataLength]
        omega
  | _ => exact (keeps_step hs (by simp) (by simp)).accepted ▸ hshort

theorem accepted_short {ls : List SendStep} (hrun : Transition.run step opened ls = some s) :
    ∀ x ∈ s.accepted, 8 + x.length ≤ DataBuffer.maxDataLength := by
  have hstep : ∀ (s : TcpSender) (l : SendStep) (s' : TcpSender),
      ((∃ done n, s.Carries done n) ∧ ∀ x ∈ s.accepted, 8 + x.length ≤ DataBuffer.maxDataLength) →
        s.step l = some s' → (∃ done n, s'.Carries done n) ∧
          ∀ x ∈ s'.accepted, 8 + x.length ≤ DataBuffer.maxDataLength :=
    fun _ _ _ ⟨⟨_, _, h⟩, hshort⟩ hs => ⟨h.step hs, h.short hs hshort⟩
  exact (Transition.invariant hstep ⟨⟨[], 0, opened_carries⟩, by simp [opened]⟩ hrun).2

theorem wire_in_order {ls : List SendStep} (hrun : Transition.run step opened ls = some s) :
    s.wire <+: s.accepted.flatMap frame := by
  obtain ⟨done, n, h⟩ := carries_of_run hrun
  rw [h.wire, h.accepted]
  exact (List.prefix_append_right_inj done).mpr (List.take_prefix n _)

/-- However the three threads and the kernel are interleaved: the kernel gets the frames of the
accepted messages, whole and in the order of the calls of `Send`, there is one send at a time, and
as long as the connection is up nothing that was accepted can be stranded. -/
theorem sends_in_order {ls : List SendStep} (hrun : Transition.run step opened ls = some s) :
    s.accepted.Sublist (ls.flatMap called) ∧ s.wire <+: s.accepted.flatMap frame ∧
      s.sends.length ≤ 1 ∧ (s.connected = true → ∃ ls' s', (∀ l ∈ ls', Works l) ∧
        Transition.run step s ls' = some s' ∧ s'.Settled ∧ s.accepted <+: s'.accepted) := by
  obtain ⟨done, n, h⟩ := carries_of_run hrun
  refine ⟨accepts_of_run hrun, wire_in_order hrun, h.turn.single, fun hconnected => ?_⟩
  have hprogress : ∀ t : TcpSender,
      ((∃ done n, t.Carries done n) ∧ t.connected = true ∧ s.accepted <+: t.accepted) →
      t.Settled ∨ ∃ l t', Works l ∧ t.step l = some t' ∧ ((∃ done n, t'.Carries done n) ∧
        t'.connected = true ∧ s.accepted <+: t'.accepted) ∧ t'.distance < t.distance := by
    rintro t ⟨⟨done, n, ht⟩, hup, hprefix⟩
    rcases ht.progress hup with hsettled | ⟨l, t', hl, hs, hup', hless⟩
    · exact .inl hsettled
    · exact .inr ⟨l, t', hl, hs, ⟨ht.step hs, hup', hprefix.trans (step_grows hs).1⟩, hless⟩
  obtain ⟨ls', s', hworks, hrun', hinv, hsettled⟩ := Transition.settles distance hprogress
    ⟨⟨done, n, h⟩, hconnected, List.prefix_rfl⟩
  exact ⟨ls', s', hworks, hrun', hsettled, hinv.2.2⟩

/-- Two messages, the second while the first is on its way; the kernel stops inside a frame. -/
def twoSteps : List SendStep :=
  [.send [1, 2], .copy, .update, .testUsed, .beginSend, .take 0 4, .send [3], .copy, .endSend 0,
    .testPop 0, .cut 0, .check 0, .resend 0]

theorem sends_in_order_two : ∃ s, Transition.run step opened twoSteps = some s ∧
    s.accepted.Sublist (twoSteps.flatMap called) ∧ s.wire <+: s.accepted.flatMap frame ∧
      s.sends.length ≤ 1 := by
  have hsome : (Transition.run step opened twoSteps).isSome := by decide +kernel
  obtain ⟨s, hrun⟩ := Option.isSome_iff_exists.mp hsome
  obtain ⟨hcalls, hwire, hsends, -⟩ := sends_in_order hrun
  exact ⟨s, hrun, hcalls, hwire, hsends⟩

end TcpSender

end FxNet
