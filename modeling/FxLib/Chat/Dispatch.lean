import FxLib.Meta.NetStream

/-!
# Dispatching a message

The four places of the chat server and of its manager where a message is given to a handler. The
protocol id is read from the message and the handler gets what is behind it, over which it puts a
`CNetStream` of its own. Bytes are addressed from the beginning of the message.
-/

/-- `dwLen` bytes from `pData` on. -/
structure Extent where
  pData : Nat
  dwLen : Nat
  deriving DecidableEq

/-- A call of a reading function of `CNetStream`. -/
inductive StreamCall where
  | byte
  | short
  | int
  | int64
  | float
  /-- `ReadString(std::string&)`. -/
  | string
  /-- `ReadString(char*, unsigned int)`. -/
  | chars (dwLen : UInt32)
  | readData (dwLen : UInt32)
  | getData (dwLen : UInt32)
  deriving DecidableEq

namespace Extent

variable {e s s' t : Extent} {pBuf : Mem} {n : Nat}

def Within (e t : Extent) : Prop := t.pData ≤ e.pData ∧ e.pData + e.dwLen ≤ t.pData + t.dwLen

instance (e t : Extent) : Decidable (e.Within t) := inferInstanceAs (Decidable (_ ∧ _))

theorem Within.trans (h : e.Within s) (hs : s.Within t) : e.Within t :=
  ⟨hs.1.trans h.1, h.2.trans hs.2⟩

def bytes (pBuf : Mem) (e : Extent) : List UInt8 := Memory.read pBuf e.pData e.dwLen

/-! ### A stream -/

/-- `ReadData` of a stream that has the bytes `s` left: what it points to, and what is left. -/
def readData (s : Extent) (dwLen : Nat) : Option (Extent × Extent) :=
  if dwLen > s.dwLen then none else some (⟨s.pData, dwLen⟩, ⟨s.pData + dwLen, s.dwLen - dwLen⟩)

/-- What the caller gets of a number or of a block, and what is left. -/
def readBlock (n : Nat) (s : Extent) : List Extent × Extent :=
  match s.readData n with
  | none => ([], s)
  | some (e, s) => ([e], s)

/-- What the caller gets of a string: its length, and its text where `fits` accepts the length. -/
def readText (pBuf : Mem) (fits : Nat → Bool) (s : Extent) : List Extent × Extent :=
  match s.readData 4 with
  | none => ([], s)
  | some (e, s) =>
    if fits (ByteOrder.value (e.bytes pBuf)) then
      let (text, s) := s.readBlock (ByteOrder.value (e.bytes pBuf))
      (e :: text, s)
    else ([e], s)

/-- What the caller gets, and what is left behind the call. -/
def call (pBuf : Mem) (c : StreamCall) (s : Extent) : List Extent × Extent :=
  match c with
  | .byte => s.readBlock 1
  | .short => s.readBlock 2
  | .int => s.readBlock 4
  | .int64 => s.readBlock 8
  | .float => s.readBlock 4
  | .string => s.readText pBuf fun _ => true
  | .chars dwLen => s.readText pBuf fun dwStrLen => dwStrLen ≤ dwLen.toNat
  | .readData dwLen => s.readBlock dwLen.toNat
  | .getData dwLen => if dwLen.toNat ≤ s.dwLen then ([⟨s.pData, dwLen.toNat⟩], s) else ([], s)

/-- What a handler gets with its calls, one after another. -/
def gets (pBuf : Mem) : List StreamCall → Extent → List Extent
  | [], _ => []
  | c :: calls, s => (s.call pBuf c).1 ++ gets pBuf calls (s.call pBuf c).2

/-! ### What a call gets -/

theorem readData_within (hread : s.readData n = some (e, s')) : e.Within s ∧ s'.Within s := by
  rw [readData] at hread
  split_ifs at hread with hlen
  obtain ⟨rfl, rfl⟩ := Prod.mk.inj (Option.some.inj hread)
  simp only [Within]
  omega

/-- What a call gets and what it leaves lies in what was left before. -/
def Inside (s : Extent) (r : List Extent × Extent) : Prop := (∀ e ∈ r.1, e.Within s) ∧ r.2.Within s

theorem inside_readBlock (n : Nat) (s : Extent) : Inside s (s.readBlock n) := by
  rw [readBlock]
  cases hread : s.readData n with
  | none => exact ⟨by simp, le_rfl, le_rfl⟩
  | some r =>
    obtain ⟨he, hs⟩ := readData_within hread
    exact ⟨by simpa using he, hs⟩

theorem inside_readText (pBuf : Mem) (fits : Nat → Bool) (s : Extent) :
    Inside s (s.readText pBuf fits) := by
  rw [readText]
  cases hread : s.readData 4 with
  | none => exact ⟨by simp, le_rfl, le_rfl⟩
  | some r =>
    obtain ⟨he, hs⟩ := readData_within hread
    obtain ⟨htext, hleft⟩ := inside_readBlock (ByteOrder.value (r.1.bytes pBuf)) r.2
    simp only
    split_ifs
    · refine ⟨?_, hleft.trans hs⟩
      rintro e' hmem
      rcases List.mem_cons.mp hmem with rfl | hmem
      · exact he
      · exact (htext e' hmem).trans hs
    · exact ⟨by simpa using he, hs⟩

theorem inside_call (pBuf : Mem) (c : StreamCall) (s : Extent) : Inside s (s.call pBuf c) := by
  cases c with
  | byte => exact inside_readBlock 1 s
  | short => exact inside_readBlock 2 s
  | int => exact inside_readBlock 4 s
  | int64 => exact inside_readBlock 8 s
  | float => exact inside_readBlock 4 s
  | string => exact inside_readText pBuf _ s
  | chars dwLen => exact inside_readText pBuf _ s
  | readData dwLen => exact inside_readBlock dwLen.toNat s
  | getData dwLen =>
    simp only [call]
    split_ifs with hlen
    · refine ⟨?_, le_rfl, le_rfl⟩
      rintro e hmem
      rw [List.mem_singleton.mp hmem]
      exact ⟨le_rfl, Nat.add_le_add_left hlen _⟩
    · exact ⟨by simp, le_rfl, le_rfl⟩

/-- Whatever a handler reads, and in whatever order, lies in the stream it was given. -/
theorem gets_within (pBuf : Mem) (calls : List StreamCall) (s : Extent) :
    ∀ e ∈ gets pBuf calls s, e.Within s := by
  induction calls generalizing s with
  | nil => simp [gets]
  | cons c calls ih =>
    obtain ⟨hgot, hleft⟩ := inside_call pBuf c s
    intro e hmem
    rcases List.mem_append.mp hmem with hmem | hmem
    · exact hgot e hmem
    · exact (ih _ e hmem).trans hleft

end Extent

namespace ChatServer

/-! ### The dispatchers -/

/-- What a dispatcher does with a message, `handlers` being what its `switch` knows: the handler and
what it is given, or `none` at the default. `eProrocol` is what stands in the variable before. -/
def dispatch {H : Type} (handlers : List (UInt32 × H)) (pBuf : Mem) (dwLen eProrocol : UInt32) :
    Option (H × Extent) :=
  let (eProrocol, _) := (CNetStream.mk pBuf dwLen.toNat).readInt eProrocol.toNat
  let dwLen := dwLen - 4
  (handlers.lookup (.ofNat eProrocol)).map fun handler => (handler, ⟨4, dwLen.toNat⟩)

namespace ChatSession

inductive Handler where
  | onLogin
  deriving DecidableEq

def handlers : List (UInt32 × Handler) := [(30001, .onLogin)]

def onMsg (pBuf : Mem) (dwLen eProrocol : UInt32) : Option (Handler × Extent) :=
  dispatch handlers pBuf dwLen eProrocol

end ChatSession

namespace ChatPlayer

inductive Handler where
  | onPrivateChat
  | onRequestCreateChatGroup
  | onRequestGroupChat
  | onRequestInviteEnterGroupChat
  | onRequestLeaveGroupChat
  deriving DecidableEq

def handlers : List (UInt32 × Handler) :=
  [(30002, .onPrivateChat), (30003, .onRequestCreateChatGroup), (30004, .onRequestGroupChat),
    (30005, .onRequestInviteEnterGroupChat), (30006, .onRequestLeaveGroupChat)]

def onMsg (pBuf : Mem) (dwLen eProrocol : UInt32) : Option (Handler × Extent) :=
  dispatch handlers pBuf dwLen eProrocol

end ChatPlayer

namespace ChatServerSession

inductive Handler where
  | onChatToChatHashIndex
  | onChatToChatPrivateChat
  | onChatToChatGroupCreate
  | onChatToChatGroupChat
  | onChatToChatGroupMemberChat
  | onChatToChatInviteGroupMember
  | onChatToChatInviteGroupMemberResult
  | onChatToChatLeaveGroupChat
  | onChatToChatLeaveGroupChatResult
  deriving DecidableEq

def handlers : List (UInt32 × Handler) :=
  [(10002, .onChatToChatHashIndex), (10003, .onChatToChatPrivateChat),
    (10004, .onChatToChatGroupCreate), (10005, .onChatToChatGroupChat),
    (10006, .onChatToChatGroupMemberChat), (10007, .onChatToChatInviteGroupMember),
    (10008, .onChatToChatInviteGroupMemberResult), (10009, .onChatToChatLeaveGroupChat),
    (10010, .onChatToChatLeaveGroupChatResult)]

def onRecv (pBuf : Mem) (dwLen eProrocol : UInt32) : Option (Handler × Extent) :=
  dispatch handlers pBuf dwLen eProrocol

end ChatServerSession

end ChatServer

namespace ChatServerManager.GameSession

inductive Handler where
  | onLogin
  | onPlayerLogin
  deriving DecidableEq

def handlers : List (UInt32 × Handler) := [(40001, .onLogin), (40002, .onPlayerLogin)]

def onRecv (pBuf : Mem) (dwLen eProrocol : UInt32) : Option (Handler × Extent) :=
  ChatServer.dispatch handlers pBuf dwLen eProrocol

end ChatServerManager.GameSession

namespace ChatServer

/-! ### Inside the message -/

/-- Where a handler is given something, it lies in the message, and so does all that the handler
reads through a stream over it. -/
def StaysInside {H : Type} (pBuf : Mem) (dwLen : UInt32) (given : Option (H × Extent)) : Prop :=
  ∀ handler s, given = some (handler, s) → s.Within ⟨0, dwLen.toNat⟩ ∧
    ∀ calls, ∀ e ∈ s.gets pBuf calls, e.Within s ∧ e.Within ⟨0, dwLen.toNat⟩

/-- A message that is too short for an id leaves the variable as it was. -/
theorem dispatch_short {H : Type} (handlers : List (UInt32 × H)) (pBuf : Mem)
    {dwLen : UInt32} (eProrocol : UInt32) (hshort : dwLen < 4) :
    dispatch handlers pBuf dwLen eProrocol =
      (handlers.lookup eProrocol).map fun handler => (handler, ⟨4, (dwLen - 4).toNat⟩) := by
  have hlen : 4 > dwLen.toNat := UInt32.lt_iff_toNat_lt.mp hshort
  simp [dispatch, CNetStream.readInt, CNetStream.readNumber, CNetStream.readData, hlen]

theorem staysInside_of_le {H : Type} (handlers : List (UInt32 × H)) (pBuf : Mem)
    {dwLen : UInt32} (eProrocol : UInt32) (hlen : 4 ≤ dwLen) :
    StaysInside pBuf dwLen (dispatch handlers pBuf dwLen eProrocol) := by
  rintro handler s hgiven
  obtain ⟨handler', -, heq⟩ := Option.map_eq_some_iff.mp hgiven
  obtain ⟨-, rfl⟩ := Prod.mk.inj heq
  have hsub : (dwLen - 4).toNat = dwLen.toNat - 4 := UInt32.toNat_sub_of_le _ _ hlen
  have hle : 4 ≤ dwLen.toNat := UInt32.le_iff_toNat_le.mp hlen
  have hs : Extent.Within ⟨4, (dwLen - 4).toNat⟩ ⟨0, dwLen.toNat⟩ := by
    simp only [Extent.Within]
    omega
  exact ⟨hs, fun calls e hmem => ⟨Extent.gets_within pBuf calls _ e hmem,
    (Extent.gets_within pBuf calls _ e hmem).trans hs⟩⟩

/-- A dispatcher stays inside the message exactly where the message has room for an id, or what
stands in the variable is no id that the dispatcher knows. -/
theorem staysInside_iff {H : Type} (handlers : List (UInt32 × H)) (pBuf : Mem)
    (dwLen eProrocol : UInt32) :
    StaysInside pBuf dwLen (dispatch handlers pBuf dwLen eProrocol) ↔
      4 ≤ dwLen ∨ handlers.lookup eProrocol = none := by
  by_cases hlen : 4 ≤ dwLen
  · exact iff_of_true (staysInside_of_le handlers pBuf eProrocol hlen) (.inl hlen)
  · have hshort : dwLen < 4 := UInt32.not_le.mp hlen
    rw [dispatch_short handlers pBuf eProrocol hshort]
    cases hhandler : handlers.lookup eProrocol with
    | none => exact iff_of_true (fun _ _ h => nomatch h) (.inr rfl)
    | some handler =>
      refine iff_of_false (fun hinside => ?_) (by simp [hlen])
      obtain ⟨⟨-, hend⟩, -⟩ := hinside handler _ rfl
      have hlt : dwLen.toNat < 4 := UInt32.lt_iff_toNat_lt.mp hshort
      simp only at hend
      omega

open ChatServerManager in
theorem dispatchers_stayInside_iff (pBuf : Mem) (dwLen eProrocol : UInt32) :
    (StaysInside pBuf dwLen (ChatSession.onMsg pBuf dwLen eProrocol) ↔
      4 ≤ dwLen ∨ ChatSession.handlers.lookup eProrocol = none) ∧
    (StaysInside pBuf dwLen (ChatPlayer.onMsg pBuf dwLen eProrocol) ↔
      4 ≤ dwLen ∨ ChatPlayer.handlers.lookup eProrocol = none) ∧
    (StaysInside pBuf dwLen (ChatServerSession.onRecv pBuf dwLen eProrocol) ↔
      4 ≤ dwLen ∨ ChatServerSession.handlers.lookup eProrocol = none) ∧
    (StaysInside pBuf dwLen (GameSession.onRecv pBuf dwLen eProrocol) ↔
      4 ≤ dwLen ∨ GameSession.handlers.lookup eProrocol = none) :=
  ⟨staysInside_iff _ pBuf dwLen eProrocol, staysInside_iff _ pBuf dwLen eProrocol,
    staysInside_iff _ pBuf dwLen eProrocol, staysInside_iff _ pBuf dwLen eProrocol⟩

/-- A message of one byte; the id of a login is left in the variable. The first number that the
handler reads is behind the message. -/
theorem not_staysInside_of_short :
    ¬ StaysInside (fun _ => 0) 1 (ChatSession.onMsg (fun _ => 0) 1 30001) := by
  intro hinside
  have hgiven : ChatSession.onMsg (fun _ => 0) 1 30001 = some (.onLogin, ⟨4, 4294967293⟩) := by
    decide
  have hint : (⟨4, 4⟩ : Extent) ∈ Extent.gets (fun _ => 0) [.int] ⟨4, 4294967293⟩ := by decide
  obtain ⟨-, hmessage⟩ := (hinside _ _ hgiven).2 [.int] _ hint
  exact absurd hmessage (by decide)

end ChatServer
