import FxLib.Lib.Text
import FxLib.Meta.NetStream

/-!
# Chat messages

The structs of `ChatServerManager/chatdefine.h` that have both `Write` and `Read`. A struct that
only inherits is the one it inherits from.
-/

open CNetStream WriteStream Codec

/-- The generated enumeration is as wide as an `unsigned int`, and is copied as one. -/
abbrev EChatType := UInt32

/-- The length of every string fits in front of it. -/
def Brief (strs : List (List UInt8)) : Prop := ∀ str ∈ strs, str.length < 4294967296

@[simp] theorem brief_nil : Brief [] := fun _ h => absurd h List.not_mem_nil

@[simp] theorem brief_cons {str : List UInt8} {strs : List (List UInt8)} :
    Brief (str :: strs) ↔ str.length < 4294967296 ∧ Brief strs :=
  List.forall_mem_cons

section

variable (o : HostOrder)

theorem carries_int (dwData : UInt32) : Carries (writeInt o dwData) (readUInt32 o) dwData :=
  .of (encodes_writeInt o dwData) (decodes_readUInt32 o dwData)

theorem carries_string (refStr : List UInt8) :
    Carries (writeString o refStr) (readString o) (cut refStr) :=
  .of (encodes_writeString o refStr) (decodes_readString o refStr)

/-! ### Vectors -/

variable {α : Type}

/-- `WriteInt` of the size and a loop over the elements. -/
def writeVec (write : α → WriteM) (vec : List α) : WriteM := do
  writeInt o (UInt32.ofNat vec.length)
  vec.forM write

def readVec (read : ReadM α) : ReadM (List α) := do
  let dwLen ← readUInt32 o
  replicateRead read dwLen.toNat

theorem length_le_flatMap {bytes : α → List UInt8} (h : ∀ x, bytes x ≠ []) (vec : List α) :
    vec.length ≤ (vec.flatMap bytes).length := by
  induction vec with
  | nil => simp
  | cons x vec ih =>
    have hpos := List.length_pos_iff.mpr (h x)
    simp only [List.flatMap_cons, List.length_append, List.length_cons]
    omega

/-- A stream has no room for as many elements as an `unsigned int` does not count. -/
theorem carries_vec {write : α → WriteM} {read : ReadM α} {bytes : α → List UInt8}
    {wire : α → α} (hw : ∀ x, Encodes put (write x) (bytes x))
    (hr : ∀ x, Decodes content read (bytes x) (wire x)) (hne : ∀ x, bytes x ≠ [])
    (vec : List α) : Carries (writeVec o write vec) (readVec o read) (vec.map wire) := by
  refine ⟨_, (encodes_writeInt o _).bind appends_put (encodes_forM appends_put hw vec), ?_⟩
  intro hlen
  have hle := length_le_flatMap hne vec
  rw [List.length_append] at hlen
  have hcount : (UInt32.ofNat vec.length).toNat = vec.length :=
    UInt32.toNat_ofNat_of_lt' (by rw [UInt32.size]; omega)
  refine (decodes_readUInt32 o _).bind ?_
  rw [hcount]
  exact decodes_replicateRead hr vec

theorem stringBytes_ne_nil (refStr : List UInt8) : stringBytes refStr ≠ [] := by
  simp [stringBytes, ByteOrder.bytes]

/-! ### The calls of `WriteData` in a `Write`

Where nobody looks at the answer of `Write`, what it has written before it fails is sent.
-/

def intPiece (dwData : UInt32) : List UInt8 := ByteOrder.bytes 4 dwData.toNat

def stringPieces (refStr : List UInt8) : List (List UInt8) :=
  [ByteOrder.bytes 4 (UInt32.ofNat refStr.length).toNat, cut refStr]

theorem flatten_stringPieces (refStr : List UInt8) :
    (stringPieces refStr).flatten = stringBytes refStr := by
  simp [stringPieces, stringBytes]

theorem flatten_flatMap_stringPieces (strs : List (List UInt8)) :
    (strs.flatMap stringPieces).flatten = strs.flatMap stringBytes := by
  induction strs with
  | nil => rfl
  | cons str strs ih =>
    rw [List.flatMap_cons, List.flatten_append, ih, flatten_stringPieces, List.flatMap_cons]

/-! ### Chat servers among themselves -/

structure StChatToChatHashIndex where
  dwHashIndex : UInt32

namespace StChatToChatHashIndex

def write (m : StChatToChatHashIndex) : WriteM := writeInt o m.dwHashIndex

def read : ReadM StChatToChatHashIndex := do return ⟨← readUInt32 o⟩

theorem roundTrip (m : StChatToChatHashIndex) :
    RoundTrip (m.write o) (read o) (· = m) True := by
  have hcarries : Carries (m.write o) (read o)
      ⟨m.dwHashIndex⟩ :=
    (carries_int o _).map _
  exact .of_carries hcarries (by simp)

end StChatToChatHashIndex

structure StChatNotifyChatGroupCreate where
  dwGroupId : UInt32

namespace StChatNotifyChatGroupCreate

def write (m : StChatNotifyChatGroupCreate) : WriteM := writeInt o m.dwGroupId

def read : ReadM StChatNotifyChatGroupCreate := do return ⟨← readUInt32 o⟩

theorem roundTrip (m : StChatNotifyChatGroupCreate) :
    RoundTrip (m.write o) (read o) (· = m) True := by
  have hcarries : Carries (m.write o) (read o)
      ⟨m.dwGroupId⟩ :=
    (carries_int o _).map _
  exact .of_carries hcarries (by simp)

end StChatNotifyChatGroupCreate

structure StChatNotifyChatGroupChat where
  dwGroupId : UInt32
  szSenderId : List UInt8
  eChatType : EChatType
  szContent : List UInt8
  dwSendTime : UInt32

namespace StChatNotifyChatGroupChat

def write (m : StChatNotifyChatGroupChat) : WriteM := do
  writeInt o m.dwGroupId
  writeString o m.szSenderId
  writeInt o m.eChatType
  writeString o m.szContent
  writeInt o m.dwSendTime

def read : ReadM StChatNotifyChatGroupChat := do
  let dwGroupId ← readUInt32 o
  let szSenderId ← readString o
  let eChatType ← readUInt32 o
  let szContent ← readString o
  let dwSendTime ← readUInt32 o
  return ⟨dwGroupId, szSenderId, eChatType, szContent, dwSendTime⟩

def strings (m : StChatNotifyChatGroupChat) : List (List UInt8) := [m.szSenderId, m.szContent]

def wire (m : StChatNotifyChatGroupChat) : StChatNotifyChatGroupChat :=
  ⟨m.dwGroupId, cut m.szSenderId, m.eChatType, cut m.szContent, m.dwSendTime⟩

theorem wire_eq_iff (m : StChatNotifyChatGroupChat) : m.wire = m ↔ Brief m.strings := by
  cases m
  simp [wire, strings, cut_eq_iff]

theorem carries (m : StChatNotifyChatGroupChat) : Carries (m.write o) (read o) m.wire :=
  (carries_int o _).bind appends_put <|
    (carries_string o _).bind appends_put <|
    (carries_int o _).bind appends_put <|
    (carries_string o _).bind appends_put <|
    (carries_int o _).map _

theorem roundTrip (m : StChatNotifyChatGroupChat) :
    RoundTrip (m.write o) (read o) (· = m) (Brief m.strings) :=
  .of_carries (m.carries o) m.wire_eq_iff

def pieces (m : StChatNotifyChatGroupChat) : List (List UInt8) :=
  intPiece m.dwGroupId :: (stringPieces m.szSenderId ++
    intPiece m.eChatType :: (stringPieces m.szContent ++ [intPiece m.dwSendTime]))

theorem flatten_pieces (m : StChatNotifyChatGroupChat) : m.pieces.flatten =
    intPiece m.dwGroupId ++ (stringBytes m.szSenderId ++
      (intPiece m.eChatType ++ (stringBytes m.szContent ++ intPiece m.dwSendTime))) := by
  simp only [pieces, List.flatten_cons, List.flatten_append, flatten_stringPieces,
    List.flatten_nil, List.append_nil]

theorem decodes_pieces (m : StChatNotifyChatGroupChat) :
    Decodes content (read o) m.pieces.flatten m.wire := by
  rw [flatten_pieces]
  exact (decodes_readUInt32 o _).bind <|
    (decodes_readString o _).bind <|
    (decodes_readUInt32 o _).bind <|
    (decodes_readString o _).bind <|
    (decodes_readUInt32 o _).map _

end StChatNotifyChatGroupChat

abbrev StChatNotifyPlayerGroupChat := StChatNotifyChatGroupChat

structure StChatNotifyChatGroupMemberChat where
  vecPlayerIds : List (List UInt8)
  oChat : StChatNotifyPlayerGroupChat

namespace StChatNotifyChatGroupMemberChat

def write (m : StChatNotifyChatGroupMemberChat) : WriteM := do
  writeVec o (writeString o) m.vecPlayerIds
  m.oChat.write o

/-- `vecPlayerIds` of a fresh struct is empty. -/
def read : ReadM StChatNotifyChatGroupMemberChat := do
  let vecPlayerIds ← readVec o (readString o)
  let oChat ← StChatNotifyChatGroupChat.read o
  return ⟨vecPlayerIds, oChat⟩

def strings (m : StChatNotifyChatGroupMemberChat) : List (List UInt8) :=
  m.vecPlayerIds ++ m.oChat.strings

theorem map_cut_eq_iff (strs : List (List UInt8)) : strs.map cut = strs ↔ Brief strs := by
  induction strs with
  | nil => simp
  | cons str strs ih => simp [cut_eq_iff, ih]

theorem brief_append (strs strs' : List (List UInt8)) :
    Brief (strs ++ strs') ↔ Brief strs ∧ Brief strs' :=
  List.forall_mem_append

def wire (m : StChatNotifyChatGroupMemberChat) : StChatNotifyChatGroupMemberChat :=
  ⟨m.vecPlayerIds.map cut, m.oChat.wire⟩

theorem wire_eq_iff (m : StChatNotifyChatGroupMemberChat) : m.wire = m ↔ Brief m.strings := by
  rw [strings, brief_append, ← map_cut_eq_iff, ← m.oChat.wire_eq_iff]
  cases m
  simp [wire]

theorem roundTrip (m : StChatNotifyChatGroupMemberChat) :
    RoundTrip (m.write o) (read o) (· = m) (Brief m.strings) := by
  have hcarries : Carries (m.write o) (read o) m.wire :=
    (carries_vec o (encodes_writeString o) (decodes_readString o) stringBytes_ne_nil _).bind
      appends_put <|
    (m.oChat.carries o).map _
  exact .of_carries hcarries m.wire_eq_iff

def pieces (m : StChatNotifyChatGroupMemberChat) : List (List UInt8) :=
  intPiece (UInt32.ofNat m.vecPlayerIds.length) ::
    (m.vecPlayerIds.flatMap stringPieces ++ m.oChat.pieces)

theorem flatten_pieces (m : StChatNotifyChatGroupMemberChat) : m.pieces.flatten =
    (intPiece (UInt32.ofNat m.vecPlayerIds.length) ++ m.vecPlayerIds.flatMap stringBytes) ++
      m.oChat.pieces.flatten := by
  simp only [pieces, List.flatten_cons, List.flatten_append, flatten_flatMap_stringPieces,
    List.append_assoc]

theorem length_le (m : StChatNotifyChatGroupMemberChat) :
    m.vecPlayerIds.length ≤ m.pieces.flatten.length := by
  have hle := length_le_flatMap stringBytes_ne_nil m.vecPlayerIds
  rw [flatten_pieces, List.length_append, List.length_append]
  omega

theorem decodes_pieces (m : StChatNotifyChatGroupMemberChat)
    (h : m.vecPlayerIds.length < 4294967296) :
    Decodes content (read o) m.pieces.flatten m.wire := by
  rw [flatten_pieces]
  have hcount : (UInt32.ofNat m.vecPlayerIds.length).toNat = m.vecPlayerIds.length :=
    UInt32.toNat_ofNat_of_lt' (by rw [UInt32.size]; omega)
  have hvec : Decodes content (readVec o (readString o)) (intPiece
      (UInt32.ofNat m.vecPlayerIds.length) ++ m.vecPlayerIds.flatMap stringBytes)
      (m.vecPlayerIds.map cut) := by
    refine (decodes_readUInt32 o _).bind ?_
    rw [hcount]
    exact decodes_replicateRead (decodes_readString o) _
  exact hvec.bind ((m.oChat.decodes_pieces o).map _)

/-- The number of players that are read fits an `unsigned int`. -/
theorem length_lt_of_read {s s' : CNetStream} (h : read o s = some (m, s')) :
    m.vecPlayerIds.length < 4294967296 := by
  obtain ⟨⟨vec, s₁⟩, hvec, hrest⟩ := Option.bind_eq_some_iff.mp h
  obtain ⟨⟨oChat, s₂⟩, -, hlast⟩ := Option.bind_eq_some_iff.mp hrest
  obtain ⟨rfl, -⟩ := Prod.mk.inj (Option.some.inj hlast)
  obtain ⟨⟨dwLen, s₃⟩, -, hread⟩ := Option.bind_eq_some_iff.mp hvec
  rw [length_replicateRead hread]
  exact dwLen.toNat_lt

end StChatNotifyChatGroupMemberChat

structure StChatNotifyChatInviteEnterGroupChat where
  dwGroupId : UInt32
  szPlayerId : List UInt8
  szInviter : List UInt8

namespace StChatNotifyChatInviteEnterGroupChat

def write (m : StChatNotifyChatInviteEnterGroupChat) : WriteM := do
  writeInt o m.dwGroupId
  writeString o m.szPlayerId
  writeString o m.szInviter

def read : ReadM StChatNotifyChatInviteEnterGroupChat := do
  let dwGroupId ← readUInt32 o
  let szPlayerId ← readString o
  let szInviter ← readString o
  return ⟨dwGroupId, szPlayerId, szInviter⟩

def strings (m : StChatNotifyChatInviteEnterGroupChat) : List (List UInt8) :=
  [m.szPlayerId, m.szInviter]

theorem roundTrip (m : StChatNotifyChatInviteEnterGroupChat) :
    RoundTrip (m.write o) (read o) (· = m) (Brief m.strings) := by
  have hcarries : Carries (m.write o) (read o)
      ⟨m.dwGroupId, cut m.szPlayerId, cut m.szInviter⟩ :=
    (carries_int o _).bind appends_put <|
      (carries_string o _).bind appends_put <|
      (carries_string o _).map _
  exact .of_carries hcarries (by cases m; simp [strings, brief_cons, cut_eq_iff])

end StChatNotifyChatInviteEnterGroupChat

structure StChatNotifyChatInviteEnterGroupChatResult where
  dwGroupId : UInt32
  szInviter : List UInt8
  szPlayerId : List UInt8
  dwResult : UInt32

namespace StChatNotifyChatInviteEnterGroupChatResult

def write (m : StChatNotifyChatInviteEnterGroupChatResult) : WriteM := do
  writeInt o m.dwGroupId
  writeString o m.szInviter
  writeString o m.szPlayerId
  writeInt o m.dwResult

def read : ReadM StChatNotifyChatInviteEnterGroupChatResult := do
  let dwGroupId ← readUInt32 o
  let szInviter ← readString o
  let szPlayerId ← readString o
  let dwResult ← readUInt32 o
  return ⟨dwGroupId, szInviter, szPlayerId, dwResult⟩

def strings (m : StChatNotifyChatInviteEnterGroupChatResult) : List (List UInt8) :=
  [m.szInviter, m.szPlayerId]

theorem roundTrip (m : StChatNotifyChatInviteEnterGroupChatResult) :
    RoundTrip (m.write o) (read o) (· = m) (Brief m.strings) := by
  have hcarries : Carries (m.write o) (read o)
      ⟨m.dwGroupId, cut m.szInviter, cut m.szPlayerId, m.dwResult⟩ :=
    (carries_int o _).bind appends_put <|
      (carries_string o _).bind appends_put <|
      (carries_string o _).bind appends_put <|
      (carries_int o _).map _
  exact .of_carries hcarries (by cases m; simp [strings, brief_cons, cut_eq_iff])

end StChatNotifyChatInviteEnterGroupChatResult

structure StChatNotifyChatPlayerLeaveGroupChat where
  dwGroupId : UInt32
  szPlayerId : List UInt8

namespace StChatNotifyChatPlayerLeaveGroupChat

def write (m : StChatNotifyChatPlayerLeaveGroupChat) : WriteM := do
  writeInt o m.dwGroupId
  writeString o m.szPlayerId

def read : ReadM StChatNotifyChatPlayerLeaveGroupChat := do
  let dwGroupId ← readUInt32 o
  let szPlayerId ← readString o
  return ⟨dwGroupId, szPlayerId⟩

def strings (m : StChatNotifyChatPlayerLeaveGroupChat) : List (List UInt8) := [m.szPlayerId]

theorem roundTrip (m : StChatNotifyChatPlayerLeaveGroupChat) :
    RoundTrip (m.write o) (read o) (· = m) (Brief m.strings) := by
  have hcarries : Carries (m.write o) (read o)
      ⟨m.dwGroupId, cut m.szPlayerId⟩ :=
    (carries_int o _).bind appends_put <|
      (carries_string o _).map _
  exact .of_carries hcarries (by cases m; simp [strings, brief_cons, cut_eq_iff])

end StChatNotifyChatPlayerLeaveGroupChat

structure StChatNotifyChatPlayerLeaveGroupChatResult where
  dwGroupId : UInt32
  szPlayerId : List UInt8
  dwResult : UInt32

namespace StChatNotifyChatPlayerLeaveGroupChatResult

def write (m : StChatNotifyChatPlayerLeaveGroupChatResult) : WriteM := do
  writeInt o m.dwGroupId
  writeString o m.szPlayerId
  writeInt o m.dwResult

def read : ReadM StChatNotifyChatPlayerLeaveGroupChatResult := do
  let dwGroupId ← readUInt32 o
  let szPlayerId ← readString o
  let dwResult ← readUInt32 o
  return ⟨dwGroupId, szPlayerId, dwResult⟩

def strings (m : StChatNotifyChatPlayerLeaveGroupChatResult) : List (List UInt8) := [m.szPlayerId]

theorem roundTrip (m : StChatNotifyChatPlayerLeaveGroupChatResult) :
    RoundTrip (m.write o) (read o) (· = m) (Brief m.strings) := by
  have hcarries : Carries (m.write o) (read o)
      ⟨m.dwGroupId, cut m.szPlayerId, m.dwResult⟩ :=
    (carries_int o _).bind appends_put <|
      (carries_string o _).bind appends_put <|
      (carries_int o _).map _
  exact .of_carries hcarries (by cases m; simp [strings, brief_cons, cut_eq_iff])

end StChatNotifyChatPlayerLeaveGroupChatResult

/-! ### Chat servers and their manager -/

structure StChatSendChatManagerInfo where
  m_dwChatPort : UInt32
  m_dwWebSocketChatPort : UInt32
  m_dwChatServerPort : UInt32
  m_szChatIp : List UInt8

namespace StChatSendChatManagerInfo

def write (m : StChatSendChatManagerInfo) : WriteM := do
  writeInt o m.m_dwChatPort
  writeInt o m.m_dwWebSocketChatPort
  writeInt o m.m_dwChatServerPort
  writeString o m.m_szChatIp

def read : ReadM StChatSendChatManagerInfo := do
  let m_dwChatPort ← readUInt32 o
  let m_dwWebSocketChatPort ← readUInt32 o
  let m_dwChatServerPort ← readUInt32 o
  let m_szChatIp ← readString o
  return ⟨m_dwChatPort, m_dwWebSocketChatPort, m_dwChatServerPort, m_szChatIp⟩

def strings (m : StChatSendChatManagerInfo) : List (List UInt8) := [m.m_szChatIp]

theorem roundTrip (m : StChatSendChatManagerInfo) :
    RoundTrip (m.write o) (read o) (· = m) (Brief m.strings) := by
  have hcarries : Carries (m.write o) (read o)
      ⟨m.m_dwChatPort, m.m_dwWebSocketChatPort, m.m_dwChatServerPort, cut m.m_szChatIp⟩ :=
    (carries_int o _).bind appends_put <|
      (carries_int o _).bind appends_put <|
      (carries_int o _).bind appends_put <|
      (carries_string o _).map _
  exact .of_carries hcarries (by cases m; simp [strings, brief_cons, cut_eq_iff])

end StChatSendChatManagerInfo

structure StChatSendChatManagerLoginSign where
  szPlayerId : List UInt8
  szServerId : List UInt8
  szSign : List UInt8

namespace StChatSendChatManagerLoginSign

def write (m : StChatSendChatManagerLoginSign) : WriteM := do
  writeString o m.szPlayerId
  writeString o m.szServerId
  writeString o m.szSign

def read : ReadM StChatSendChatManagerLoginSign := do
  let szPlayerId ← readString o
  let szServerId ← readString o
  let szSign ← readString o
  return ⟨szPlayerId, szServerId, szSign⟩

def strings (m : StChatSendChatManagerLoginSign) : List (List UInt8) :=
  [m.szPlayerId, m.szServerId, m.szSign]

theorem roundTrip (m : StChatSendChatManagerLoginSign) :
    RoundTrip (m.write o) (read o) (· = m) (Brief m.strings) := by
  have hcarries : Carries (m.write o) (read o)
      ⟨cut m.szPlayerId, cut m.szServerId, cut m.szSign⟩ :=
    (carries_string o _).bind appends_put <|
      (carries_string o _).bind appends_put <|
      (carries_string o _).map _
  exact .of_carries hcarries (by cases m; simp [strings, brief_cons, cut_eq_iff])

end StChatSendChatManagerLoginSign

abbrev StChatSendChatManagerLoginSignGm := StChatSendChatManagerLoginSign

structure StRemoteChatInfo where
  dwIp : UInt32
  dwPort : UInt32
  dwHashIndex : UInt32

namespace StRemoteChatInfo

def write (it : StRemoteChatInfo) : WriteM := do
  writeInt o it.dwIp
  writeInt o it.dwPort
  writeInt o it.dwHashIndex

def read : ReadM StRemoteChatInfo := do
  let dwIp ← readUInt32 o
  let dwPort ← readUInt32 o
  let dwHashIndex ← readUInt32 o
  return ⟨dwIp, dwPort, dwHashIndex⟩

def bytes (it : StRemoteChatInfo) : List UInt8 :=
  ByteOrder.bytes 4 it.dwIp.toNat ++
    (ByteOrder.bytes 4 it.dwPort.toNat ++ ByteOrder.bytes 4 it.dwHashIndex.toNat)

theorem encodes_write (it : StRemoteChatInfo) : Encodes put (it.write o) it.bytes :=
  (encodes_writeInt o _).bind appends_put <|
    (encodes_writeInt o _).bind appends_put <|
    encodes_writeInt o _

theorem decodes_read (it : StRemoteChatInfo) : Decodes content (read o) it.bytes (id it) :=
  (decodes_readUInt32 o _).bind <|
    (decodes_readUInt32 o _).bind <|
    (decodes_readUInt32 o _).map _

theorem bytes_ne_nil (it : StRemoteChatInfo) : it.bytes ≠ [] := by
  simp [bytes, ByteOrder.bytes]

end StRemoteChatInfo

structure StChatManagerNotifyChatInfo where
  dwHashIndex : UInt32
  vecRemoteInfo : List StRemoteChatInfo

namespace StChatManagerNotifyChatInfo

def write (m : StChatManagerNotifyChatInfo) : WriteM := do
  writeInt o m.dwHashIndex
  writeVec o (StRemoteChatInfo.write o) m.vecRemoteInfo

def read : ReadM StChatManagerNotifyChatInfo := do
  let dwHashIndex ← readUInt32 o
  let vecRemoteInfo ← readVec o (StRemoteChatInfo.read o)
  return ⟨dwHashIndex, vecRemoteInfo⟩

theorem roundTrip (m : StChatManagerNotifyChatInfo) :
    RoundTrip (m.write o) (read o) (· = m) True := by
  have hcarries : Carries (m.write o) (read o) ⟨m.dwHashIndex, m.vecRemoteInfo.map id⟩ :=
    (carries_int o _).bind appends_put <|
    (carries_vec o (StRemoteChatInfo.encodes_write o) (StRemoteChatInfo.decodes_read o)
      StRemoteChatInfo.bytes_ne_nil _).map _
  exact .of_carries hcarries (by simp)

end StChatManagerNotifyChatInfo

structure StChatManagerNotifyChatBroadcast where
  eChatType : EChatType
  szContent : List UInt8

namespace StChatManagerNotifyChatBroadcast

def write (m : StChatManagerNotifyChatBroadcast) : WriteM := do
  writeInt o m.eChatType
  writeString o m.szContent

def read : ReadM StChatManagerNotifyChatBroadcast := do
  let eChatType ← readUInt32 o
  let szContent ← readString o
  return ⟨eChatType, szContent⟩

def strings (m : StChatManagerNotifyChatBroadcast) : List (List UInt8) := [m.szContent]

theorem roundTrip (m : StChatManagerNotifyChatBroadcast) :
    RoundTrip (m.write o) (read o) (· = m) (Brief m.strings) := by
  have hcarries : Carries (m.write o) (read o)
      ⟨m.eChatType, cut m.szContent⟩ :=
    (carries_int o _).bind appends_put <|
      (carries_string o _).map _
  exact .of_carries hcarries (by cases m; simp [strings, brief_cons, cut_eq_iff])

end StChatManagerNotifyChatBroadcast

structure StChatManagerNotifyChatLogin where
  szPlayerId : List UInt8
  szServerId : List UInt8

namespace StChatManagerNotifyChatLogin

def write (m : StChatManagerNotifyChatLogin) : WriteM := do
  writeString o m.szPlayerId
  writeString o m.szServerId

def read : ReadM StChatManagerNotifyChatLogin := do
  let szPlayerId ← readString o
  let szServerId ← readString o
  return ⟨szPlayerId, szServerId⟩

def strings (m : StChatManagerNotifyChatLogin) : List (List UInt8) := [m.szPlayerId, m.szServerId]

theorem roundTrip (m : StChatManagerNotifyChatLogin) :
    RoundTrip (m.write o) (read o) (· = m) (Brief m.strings) := by
  have hcarries : Carries (m.write o) (read o)
      ⟨cut m.szPlayerId, cut m.szServerId⟩ :=
    (carries_string o _).bind appends_put <|
      (carries_string o _).map _
  exact .of_carries hcarries (by cases m; simp [strings, brief_cons, cut_eq_iff])

end StChatManagerNotifyChatLogin

abbrev StChatManagerNotifyChatLoginGm := StChatManagerNotifyChatLogin

/-! ### Private chat -/

structure CharArray (n : Nat) where
  chars : List UInt8
  size : chars.length = n

namespace CharArray

variable {n : Nat} {text : List UInt8}

/-- After `memset`. -/
def zero (n : Nat) : CharArray n := ⟨List.replicate n 0, List.length_replicate⟩

/-- After `memcpy` of no more bytes than it has. -/
def copyIn (pStr : CharArray n) (pData : List UInt8) : CharArray n :=
  ⟨(pData ++ pStr.chars.drop pData.length).take n, by
    have hsize := pStr.size
    simp only [List.length_take, List.length_append, List.length_drop]
    omega⟩

/-- The array holds a string that ends inside it. -/
def Terminated (pStr : CharArray n) : Prop := 0 ∈ pStr.chars

instance (pStr : CharArray n) : Decidable pStr.Terminated :=
  inferInstanceAs (Decidable (0 ∈ pStr.chars))

/-- Read into the whole array. What lies behind it is looked at when the text leaves no room for
a NUL. -/
def readString (pStr : CharArray n) (behind : List UInt8) : ReadM (CharArray n) := do
  let dwStrLen ← readUInt32 o
  if dwStrLen.toNat > n then failure
  let pData ← readBytes dwStrLen.toNat
  let pStr := pStr.copyIn pData
  if dwStrLen.toNat ≠ (cString (pStr.chars ++ behind)).length then failure
  return pStr

theorem Terminated.split {pStr : CharArray n} (h : pStr.Terminated) :
    ∃ text rest, 0 ∉ text ∧ text.length < n ∧ pStr.chars = text ++ 0 :: rest := by
  obtain ⟨text, rest, hsplit, hnot⟩ := List.eq_append_cons_of_mem h
  have hsize := pStr.size
  rw [hsplit, List.length_append, List.length_cons] at hsize
  exact ⟨text, rest, hnot, by omega, hsplit⟩

theorem cString_length_lt {pStr : CharArray n} (h : pStr.Terminated) :
    (cString pStr.chars).length < n := by
  obtain ⟨text, rest, hnot, hlt, hsplit⟩ := h.split
  rwa [hsplit, cString_eq hnot]

/-- A text in a cleared array has NULs behind it. -/
theorem chars_zero_copyIn (hle : text.length ≤ n) :
    ((zero n).copyIn text).chars = text ++ List.replicate (n - text.length) 0 := by
  simp only [copyIn, zero, List.drop_replicate]
  exact List.take_of_length_le (by simp; omega)

/-- A text copied into a cleared array that is longer ends where it should. -/
theorem cString_copyIn (hnul : 0 ∉ text) (hlt : text.length < n) (behind : List UInt8) :
    cString (((zero n).copyIn text).chars ++ behind) = text := by
  obtain ⟨k, hk⟩ : ∃ k, n - text.length = k + 1 := ⟨n - text.length - 1, by omega⟩
  rw [chars_zero_copyIn hlt.le, hk, List.replicate_succ, List.append_assoc, List.cons_append,
    cString_eq hnul]

theorem cString_zero_copyIn {pStr : CharArray n} (h : pStr.Terminated) (behind : List UInt8) :
    cString (((zero n).copyIn (cString pStr.chars)).chars ++ behind) = cString pStr.chars :=
  cString_copyIn (zero_not_mem_cString _) (cString_length_lt h) behind

/-- A text that ends inside an array is read into one that has been cleared. -/
theorem carries {pStr : CharArray n} (hn : n < 4294967296) (h : pStr.Terminated)
    (behind behind' : List UInt8) :
    Carries (writeString o (cString (pStr.chars ++ behind))) (readString o (zero n) behind')
      ((zero n).copyIn (cString pStr.chars)) := by
  have hlt := cString_length_lt h
  have hcut : cut (cString pStr.chars) = cString pStr.chars := (cut_eq_iff _).mpr (by omega)
  have hlen : (UInt32.ofNat (cString pStr.chars).length).toNat = (cString pStr.chars).length :=
    UInt32.toNat_ofNat_of_lt' (by rw [UInt32.size]; omega)
  rw [cString_append_of_mem h]
  refine .of (encodes_writeString o _) ?_
  rw [stringBytes, hcut]
  refine (decodes_readUInt32 o _).bind ?_
  simp only [hlen, if_neg (show ¬ (cString pStr.chars).length > n by omega)]
  have hread := (decodes_readBytes (show (cString pStr.chars).length = _ from rfl)).bind
    (k := fun pData => do
      let pStr' := (zero n).copyIn pData
      if (cString pStr.chars).length ≠ (cString (pStr'.chars ++ behind')).length then failure
      return pStr') (w := (zero n).copyIn (cString pStr.chars)) (b := []) (by
        simp only [cString_zero_copyIn h, ne_eq, not_true_eq_false, if_false]
        exact decodes_pure _)
  rwa [List.append_nil] at hread

end CharArray

/-- `IDLENTH`. -/
abbrev idLenth : Nat := 64

structure StChatSendChatPrivateChat where
  dwTimeStamp : UInt32
  szSenderId : CharArray idLenth
  szRecverId : CharArray idLenth
  eChatType : EChatType
  szContent : List UInt8

abbrev StChatSendPlayerPrivateChat := StChatSendChatPrivateChat

namespace StChatSendChatPrivateChat

/-- The recipient's array lies behind the sender's, and `behind` behind both. -/
def write (behind : List UInt8) (m : StChatSendChatPrivateChat) : WriteM := do
  writeInt o m.dwTimeStamp
  writeString o (cString (m.szSenderId.chars ++ (m.szRecverId.chars ++ behind)))
  writeString o (cString (m.szRecverId.chars ++ behind))
  writeInt o m.eChatType
  writeString o m.szContent

def read (behind : List UInt8) : ReadM StChatSendChatPrivateChat := do
  let dwTimeStamp ← readUInt32 o
  let szSenderId ← CharArray.readString o (.zero idLenth) ((CharArray.zero idLenth).chars ++ behind)
  let szRecverId ← CharArray.readString o (.zero idLenth) behind
  let eChatType ← readUInt32 o
  let szContent ← CNetStream.readString o
  return ⟨dwTimeStamp, szSenderId, szRecverId, eChatType, szContent⟩

/-- Both arrays hold strings. -/
def Terminated (m : StChatSendChatPrivateChat) : Prop :=
  m.szSenderId.Terminated ∧ m.szRecverId.Terminated

instance (m : StChatSendChatPrivateChat) : Decidable m.Terminated :=
  inferInstanceAs (Decidable (_ ∧ _))

/-- The same texts, whatever follows the NUL in an array. -/
def Same (m m' : StChatSendChatPrivateChat) : Prop :=
  m.dwTimeStamp = m'.dwTimeStamp ∧ cString m.szSenderId.chars = cString m'.szSenderId.chars ∧
    cString m.szRecverId.chars = cString m'.szRecverId.chars ∧ m.eChatType = m'.eChatType ∧
    m.szContent = m'.szContent

theorem roundTrip {m : StChatSendChatPrivateChat} (h : m.Terminated) (behind behind' : List UInt8) :
    RoundTrip (m.write o behind) (read o behind') (Same · m) (Brief [m.szContent]) := by
  have hcarries : Carries (m.write o behind) (read o behind')
      ⟨m.dwTimeStamp, (CharArray.zero idLenth).copyIn (cString m.szSenderId.chars),
        (CharArray.zero idLenth).copyIn (cString m.szRecverId.chars), m.eChatType,
        cut m.szContent⟩ :=
    (carries_int o _).bind appends_put <|
    (CharArray.carries o (by decide) h.1 _ _).bind appends_put <|
    (CharArray.carries o (by decide) h.2 _ _).bind appends_put <|
    (carries_int o _).bind appends_put <|
    (carries_string o _).map _
  have hsender := CharArray.cString_zero_copyIn h.1 []
  have hrecver := CharArray.cString_zero_copyIn h.2 []
  rw [List.append_nil] at hsender hrecver
  exact .of_carries hcarries (by simp [Same, hsender, hrecver, cut_eq_iff])

end StChatSendChatPrivateChat

/-! ### Answers -/

structure StPlayerRequestCreateChatGroup where

namespace StPlayerRequestCreateChatGroup

def write (_ : StPlayerRequestCreateChatGroup) : WriteM := pure ()

def read : ReadM StPlayerRequestCreateChatGroup := pure ⟨⟩

theorem roundTrip (m : StPlayerRequestCreateChatGroup) : RoundTrip m.write read (· = m) True :=
  .of_carries (travels_pure appends_put m) (by simp)

end StPlayerRequestCreateChatGroup

structure StChatAckPlayerLogin where
  dwResult : UInt32

namespace StChatAckPlayerLogin

def write (m : StChatAckPlayerLogin) : WriteM := writeInt o m.dwResult

def read : ReadM StChatAckPlayerLogin := do return ⟨← readUInt32 o⟩

theorem roundTrip (m : StChatAckPlayerLogin) :
    RoundTrip (m.write o) (read o) (· = m) True := by
  have hcarries : Carries (m.write o) (read o)
      ⟨m.dwResult⟩ :=
    (carries_int o _).map _
  exact .of_carries hcarries (by simp)

end StChatAckPlayerLogin

structure StChatAckPlayerCreateChatGroup where
  dwGroupId : UInt32

namespace StChatAckPlayerCreateChatGroup

def write (m : StChatAckPlayerCreateChatGroup) : WriteM := writeInt o m.dwGroupId

def read : ReadM StChatAckPlayerCreateChatGroup := do return ⟨← readUInt32 o⟩

theorem roundTrip (m : StChatAckPlayerCreateChatGroup) :
    RoundTrip (m.write o) (read o) (· = m) True := by
  have hcarries : Carries (m.write o) (read o)
      ⟨m.dwGroupId⟩ :=
    (carries_int o _).map _
  exact .of_carries hcarries (by simp)

end StChatAckPlayerCreateChatGroup

structure StChatAckPlayerInviteGroupChat where
  dwGroupId : UInt32
  dwResult : UInt32
  szPlayerId : List UInt8

namespace StChatAckPlayerInviteGroupChat

def write (m : StChatAckPlayerInviteGroupChat) : WriteM := do
  writeInt o m.dwGroupId
  writeInt o m.dwResult
  writeString o m.szPlayerId

def read : ReadM StChatAckPlayerInviteGroupChat := do
  let dwGroupId ← readUInt32 o
  let dwResult ← readUInt32 o
  let szPlayerId ← readString o
  return ⟨dwGroupId, dwResult, szPlayerId⟩

def strings (m : StChatAckPlayerInviteGroupChat) : List (List UInt8) := [m.szPlayerId]

theorem roundTrip (m : StChatAckPlayerInviteGroupChat) :
    RoundTrip (m.write o) (read o) (· = m) (Brief m.strings) := by
  have hcarries : Carries (m.write o) (read o)
      ⟨m.dwGroupId, m.dwResult, cut m.szPlayerId⟩ :=
    (carries_int o _).bind appends_put <|
      (carries_int o _).bind appends_put <|
      (carries_string o _).map _
  exact .of_carries hcarries (by cases m; simp [strings, brief_cons, cut_eq_iff])

end StChatAckPlayerInviteGroupChat

structure StChatAckPlayerLeaveGroupChat where
  dwGroupId : UInt32
  dwResult : UInt32

namespace StChatAckPlayerLeaveGroupChat

def write (m : StChatAckPlayerLeaveGroupChat) : WriteM := do
  writeInt o m.dwGroupId
  writeInt o m.dwResult

def read : ReadM StChatAckPlayerLeaveGroupChat := do
  let dwGroupId ← readUInt32 o
  let dwResult ← readUInt32 o
  return ⟨dwGroupId, dwResult⟩

theorem roundTrip (m : StChatAckPlayerLeaveGroupChat) :
    RoundTrip (m.write o) (read o) (· = m) True := by
  have hcarries : Carries (m.write o) (read o)
      ⟨m.dwGroupId, m.dwResult⟩ :=
    (carries_int o _).bind appends_put <|
      (carries_int o _).map _
  exact .of_carries hcarries (by simp)

end StChatAckPlayerLeaveGroupChat

structure StChatManagerAckGameLogin where
  dwResult : UInt32

namespace StChatManagerAckGameLogin

def write (m : StChatManagerAckGameLogin) : WriteM := writeInt o m.dwResult

def read : ReadM StChatManagerAckGameLogin := do return ⟨← readUInt32 o⟩

theorem roundTrip (m : StChatManagerAckGameLogin) :
    RoundTrip (m.write o) (read o) (· = m) True := by
  have hcarries : Carries (m.write o) (read o)
      ⟨m.dwResult⟩ :=
    (carries_int o _).map _
  exact .of_carries hcarries (by simp)

end StChatManagerAckGameLogin

structure StChatManagerAckGamePlayerLogin where
  szPlayerId : List UInt8
  szListenIp : List UInt8
  szSign : List UInt8
  dwTcpPort : UInt32
  dwWebSocketPort : UInt32

namespace StChatManagerAckGamePlayerLogin

def write (m : StChatManagerAckGamePlayerLogin) : WriteM := do
  writeString o m.szPlayerId
  writeString o m.szListenIp
  writeString o m.szSign
  writeInt o m.dwTcpPort
  writeInt o m.dwWebSocketPort

def read : ReadM StChatManagerAckGamePlayerLogin := do
  let szPlayerId ← readString o
  let szListenIp ← readString o
  let szSign ← readString o
  let dwTcpPort ← readUInt32 o
  let dwWebSocketPort ← readUInt32 o
  return ⟨szPlayerId, szListenIp, szSign, dwTcpPort, dwWebSocketPort⟩

def strings (m : StChatManagerAckGamePlayerLogin) : List (List UInt8) :=
  [m.szPlayerId, m.szListenIp, m.szSign]

theorem roundTrip (m : StChatManagerAckGamePlayerLogin) :
    RoundTrip (m.write o) (read o) (· = m) (Brief m.strings) := by
  have hcarries : Carries (m.write o) (read o)
      ⟨cut m.szPlayerId, cut m.szListenIp, cut m.szSign, m.dwTcpPort, m.dwWebSocketPort⟩ :=
    (carries_string o _).bind appends_put <|
      (carries_string o _).bind appends_put <|
      (carries_string o _).bind appends_put <|
      (carries_int o _).bind appends_put <|
      (carries_int o _).map _
  exact .of_carries hcarries (by cases m; simp [strings, brief_cons, cut_eq_iff])

end StChatManagerAckGamePlayerLogin

/-! ### Every struct -/

/-- A sequence of typed writes is read back, and so is every struct, as far as the strings in it
are shorter than 2 ^ 32 bytes. -/
structure RoundTrips : Prop where
  sequence : ∀ vs : List StreamValue,
    RoundTrip (vs.forM (StreamValue.write o)) (StreamValue.readAll o (vs.map StreamValue.kind))
      (· = vs) (∀ v ∈ vs, v.Short)
  chatToChatHashIndex : ∀ m : StChatToChatHashIndex,
    RoundTrip (m.write o) (StChatToChatHashIndex.read o) (· = m) True
  chatNotifyChatGroupCreate : ∀ m : StChatNotifyChatGroupCreate,
    RoundTrip (m.write o) (StChatNotifyChatGroupCreate.read o) (· = m) True
  chatNotifyChatGroupChat : ∀ m : StChatNotifyChatGroupChat,
    RoundTrip (m.write o) (StChatNotifyChatGroupChat.read o) (· = m) (Brief m.strings)
  chatNotifyPlayerGroupChat : ∀ m : StChatNotifyPlayerGroupChat,
    RoundTrip (m.write o) (StChatNotifyChatGroupChat.read o) (· = m) (Brief m.strings)
  chatNotifyChatGroupMemberChat : ∀ m : StChatNotifyChatGroupMemberChat,
    RoundTrip (m.write o) (StChatNotifyChatGroupMemberChat.read o) (· = m) (Brief m.strings)
  chatNotifyChatInviteEnterGroupChat : ∀ m : StChatNotifyChatInviteEnterGroupChat,
    RoundTrip (m.write o) (StChatNotifyChatInviteEnterGroupChat.read o) (· = m) (Brief m.strings)
  chatNotifyChatInviteEnterGroupChatResult : ∀ m : StChatNotifyChatInviteEnterGroupChatResult,
    RoundTrip (m.write o) (StChatNotifyChatInviteEnterGroupChatResult.read o) (· = m)
      (Brief m.strings)
  chatNotifyChatPlayerLeaveGroupChat : ∀ m : StChatNotifyChatPlayerLeaveGroupChat,
    RoundTrip (m.write o) (StChatNotifyChatPlayerLeaveGroupChat.read o) (· = m) (Brief m.strings)
  chatNotifyChatPlayerLeaveGroupChatResult : ∀ m : StChatNotifyChatPlayerLeaveGroupChatResult,
    RoundTrip (m.write o) (StChatNotifyChatPlayerLeaveGroupChatResult.read o) (· = m)
      (Brief m.strings)
  chatSendChatManagerInfo : ∀ m : StChatSendChatManagerInfo,
    RoundTrip (m.write o) (StChatSendChatManagerInfo.read o) (· = m) (Brief m.strings)
  chatSendChatManagerLoginSign : ∀ m : StChatSendChatManagerLoginSign,
    RoundTrip (m.write o) (StChatSendChatManagerLoginSign.read o) (· = m) (Brief m.strings)
  chatSendChatManagerLoginSignGm : ∀ m : StChatSendChatManagerLoginSignGm,
    RoundTrip (m.write o) (StChatSendChatManagerLoginSign.read o) (· = m) (Brief m.strings)
  chatManagerNotifyChatInfo : ∀ m : StChatManagerNotifyChatInfo,
    RoundTrip (m.write o) (StChatManagerNotifyChatInfo.read o) (· = m) True
  chatManagerNotifyChatBroadcast : ∀ m : StChatManagerNotifyChatBroadcast,
    RoundTrip (m.write o) (StChatManagerNotifyChatBroadcast.read o) (· = m) (Brief m.strings)
  chatSendChatPrivateChat : ∀ m : StChatSendChatPrivateChat, m.Terminated → ∀ behind behind',
    RoundTrip (m.write o behind) (StChatSendChatPrivateChat.read o behind') (·.Same m)
      (Brief [m.szContent])
  chatManagerNotifyChatLogin : ∀ m : StChatManagerNotifyChatLogin,
    RoundTrip (m.write o) (StChatManagerNotifyChatLogin.read o) (· = m) (Brief m.strings)
  chatManagerNotifyChatLoginGm : ∀ m : StChatManagerNotifyChatLoginGm,
    RoundTrip (m.write o) (StChatManagerNotifyChatLogin.read o) (· = m) (Brief m.strings)
  playerRequestCreateChatGroup : ∀ m : StPlayerRequestCreateChatGroup,
    RoundTrip m.write StPlayerRequestCreateChatGroup.read (· = m) True
  chatAckPlayerLogin : ∀ m : StChatAckPlayerLogin,
    RoundTrip (m.write o) (StChatAckPlayerLogin.read o) (· = m) True
  chatSendPlayerPrivateChat : ∀ m : StChatSendPlayerPrivateChat, m.Terminated → ∀ behind behind',
    RoundTrip (m.write o behind) (StChatSendChatPrivateChat.read o behind') (·.Same m)
      (Brief [m.szContent])
  chatAckPlayerCreateChatGroup : ∀ m : StChatAckPlayerCreateChatGroup,
    RoundTrip (m.write o) (StChatAckPlayerCreateChatGroup.read o) (· = m) True
  chatAckPlayerInviteGroupChat : ∀ m : StChatAckPlayerInviteGroupChat,
    RoundTrip (m.write o) (StChatAckPlayerInviteGroupChat.read o) (· = m) (Brief m.strings)
  chatAckPlayerLeaveGroupChat : ∀ m : StChatAckPlayerLeaveGroupChat,
    RoundTrip (m.write o) (StChatAckPlayerLeaveGroupChat.read o) (· = m) True
  chatManagerAckGameLogin : ∀ m : StChatManagerAckGameLogin,
    RoundTrip (m.write o) (StChatManagerAckGameLogin.read o) (· = m) True
  chatManagerAckGamePlayerLogin : ∀ m : StChatManagerAckGamePlayerLogin,
    RoundTrip (m.write o) (StChatManagerAckGamePlayerLogin.read o) (· = m) (Brief m.strings)

theorem roundTrips : RoundTrips o where
  sequence := StreamValue.roundTrip o
  chatToChatHashIndex := StChatToChatHashIndex.roundTrip o
  chatNotifyChatGroupCreate := StChatNotifyChatGroupCreate.roundTrip o
  chatNotifyChatGroupChat := StChatNotifyChatGroupChat.roundTrip o
  chatNotifyPlayerGroupChat := StChatNotifyChatGroupChat.roundTrip o
  chatNotifyChatGroupMemberChat := StChatNotifyChatGroupMemberChat.roundTrip o
  chatNotifyChatInviteEnterGroupChat := StChatNotifyChatInviteEnterGroupChat.roundTrip o
  chatNotifyChatInviteEnterGroupChatResult := StChatNotifyChatInviteEnterGroupChatResult.roundTrip o
  chatNotifyChatPlayerLeaveGroupChat := StChatNotifyChatPlayerLeaveGroupChat.roundTrip o
  chatNotifyChatPlayerLeaveGroupChatResult := StChatNotifyChatPlayerLeaveGroupChatResult.roundTrip o
  chatSendChatManagerInfo := StChatSendChatManagerInfo.roundTrip o
  chatSendChatManagerLoginSign := StChatSendChatManagerLoginSign.roundTrip o
  chatSendChatManagerLoginSignGm := StChatSendChatManagerLoginSign.roundTrip o
  chatManagerNotifyChatInfo := StChatManagerNotifyChatInfo.roundTrip o
  chatManagerNotifyChatBroadcast := StChatManagerNotifyChatBroadcast.roundTrip o
  chatSendChatPrivateChat := fun _ => StChatSendChatPrivateChat.roundTrip o
  chatManagerNotifyChatLogin := StChatManagerNotifyChatLogin.roundTrip o
  chatManagerNotifyChatLoginGm := StChatManagerNotifyChatLogin.roundTrip o
  playerRequestCreateChatGroup := StPlayerRequestCreateChatGroup.roundTrip
  chatAckPlayerLogin := StChatAckPlayerLogin.roundTrip o
  chatSendPlayerPrivateChat := fun _ => StChatSendChatPrivateChat.roundTrip o
  chatAckPlayerCreateChatGroup := StChatAckPlayerCreateChatGroup.roundTrip o
  chatAckPlayerInviteGroupChat := StChatAckPlayerInviteGroupChat.roundTrip o
  chatAckPlayerLeaveGroupChat := StChatAckPlayerLeaveGroupChat.roundTrip o
  chatManagerAckGameLogin := StChatManagerAckGameLogin.roundTrip o
  chatManagerAckGamePlayerLogin := StChatManagerAckGamePlayerLogin.roundTrip o

end

/-- A text of 2 ^ 32 bytes leaves only its length on the stream, which is 0. -/
theorem lost_of_length {refStr : List UInt8} (h : refStr.length = 4294967296) :
    ∃ s s' : WriteStream,
      [StreamValue.string refStr].forM (StreamValue.write .little) s = some (PUnit.unit, s') ∧
      s.produced s' = [0, 0, 0, 0] ∧
      Decodes content (StreamValue.readAll .little [.string]) (s.produced s') [.string []] ∧
      ¬ Decodes content (StreamValue.readAll .little [.string]) (s.produced s')
        [.string refStr] := by
  have hcut : cut refStr = [] := by rw [cut, h]; rfl
  have hbytes : [StreamValue.string refStr].flatMap StreamValue.bytes = [0, 0, 0, 0] := by
    simp only [List.flatMap_cons, List.flatMap_nil, StreamValue.bytes, stringBytes, hcut, h]
    decide
  obtain ⟨s', hput⟩ : ∃ s', put [0, 0, 0, 0] ⟨fun _ => 0, 0, 4, by decide⟩ = some s' := by
    simp [put]
  have hwrite : [StreamValue.string refStr].forM (StreamValue.write .little)
      ⟨fun _ => 0, 0, 4, by decide⟩ = some (PUnit.unit, s') := by
    rw [encodes_forM appends_put (StreamValue.encodes_write .little), hbytes, hput]
    rfl
  have hproduced := (produced_put hput).1
  have hread := StreamValue.decodes_readAll .little [StreamValue.string refStr]
  rw [hbytes] at hread
  simp only [List.map_cons, List.map_nil, StreamValue.kind, StreamValue.wire, hcut] at hread
  refine ⟨_, s', hwrite, hproduced, hproduced ▸ hread, fun hlong => ?_⟩
  have hshort := (StreamValue.roundTrip .little _ _ _ hwrite).mp ⟨_, hlong, rfl⟩ _
    List.mem_cons_self
  rw [StreamValue.Short, h] at hshort
  omega

/-- Its writer reports success, and its reader an empty text. -/
theorem string_lost_at_four_gigabytes :
    ∃ s s' : WriteStream,
      [StreamValue.string (List.replicate 4294967296 97)].forM (StreamValue.write .little) s =
        some (PUnit.unit, s') ∧
      s.produced s' = [0, 0, 0, 0] ∧
      Decodes content (StreamValue.readAll .little [.string]) (s.produced s') [.string []] ∧
      ¬ Decodes content (StreamValue.readAll .little [.string]) (s.produced s')
        [.string (List.replicate 4294967296 97)] :=
  lost_of_length List.length_replicate
