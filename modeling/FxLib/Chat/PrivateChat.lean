import FxLib.Chat.ChatPlayerManager
import FxLib.Chat.QueryText

/-!
# Private chat

Private messages on one chat server. A message is sent to its recipient if it is online, and in any
case stored with what has come of that; who logs in is sent what is stored as not readed. The rows
are written and read by the one thread of the database client, its results are taken later. What a
query does is what the server reads in its text.
-/

namespace ChatServer

/-- The texts of a private message. -/
structure PrivateMsg where
  szSenderId : PlayerId
  szRecverId : PlayerId
  eChatType : UInt32
  szContent : List UInt8
  dwTimeStamp : UInt32
  deriving DecidableEq

namespace PrivateMsg

/-- What a message says in its arrays. -/
def ofChat (refChat : StChatSendChatPrivateChat) : PrivateMsg :=
  ⟨cString refChat.szSenderId.chars, cString refChat.szRecverId.chars, refChat.eChatType,
    refChat.szContent, refChat.dwTimeStamp⟩

/-- What `Write` sends of it, with `behind` behind its arrays. -/
def written (refChat : StChatSendChatPrivateChat) (behind : List UInt8) : PrivateMsg :=
  ⟨cString (refChat.szSenderId.chars ++ (refChat.szRecverId.chars ++ behind)),
    cString (refChat.szRecverId.chars ++ behind), refChat.eChatType, refChat.szContent,
    refChat.dwTimeStamp⟩

end PrivateMsg

/-- `m_szPyayerId`. -/
def ChatPlayer.szPyayerId (player : ChatPlayer) : CharArray idLenth :=
  (CharArray.zero idLenth).copyIn player.szPlayerId

/-- A row of `private_chat`. `serial` says which message of the run it is of; rows from before have
none. -/
structure ChatRow where
  serial : Option Nat
  msg : PrivateMsg
  readed : Bool
  deriving DecidableEq

inductive ChatQuery where
  /-- `DBChatQuery`, with the memory behind the arrays of its message. -/
  | chat (serial : Nat) (refChat : StChatSendChatPrivateChat) (behind : List UInt8)
      (bReaded : Bool)
  /-- `DBUnreadChatQuery`. -/
  | unread (szPlayerId : PlayerId)

inductive ChatResult where
  | chat
  /-- The rows behind `m_pReader`. -/
  | unread (szPlayerId : PlayerId) (rows : List ChatRow)
  deriving DecidableEq

/-- A message that the connection of a session has taken, and the id of that session. -/
structure SentChat where
  serial : Option Nat
  msg : PrivateMsg
  szId : PlayerId
  deriving DecidableEq

/-- The columns of `private_chat`: which messages they keep as they are (the ids are
`varchar(64)`, the content is `varchar(1024)`, the numbers are signed), and which ids are compared
as equal only to themselves (`utf8_bin` passes over spaces at the end). -/
structure ChatColumns where
  keeps : PrivateMsg → Bool
  finds : PlayerId → Bool

namespace ChatQuery

section

variable (escape : List UInt8 → List UInt8) (columns : ChatColumns)

/-- What the constructor writes. -/
def text : ChatQuery → QueryText
  | .chat _ refChat behind bReaded => dbChatQuery escape refChat behind bReaded
  | .unread szPlayerId => dbUnreadChatQuery szPlayerId

/-- The server reads the strings that are meant, and the columns are fit for them. -/
def Exact : ChatQuery → Prop
  | .chat serial refChat behind bReaded =>
    ((chat serial refChat behind bReaded).text escape).Safe
      [cString refChat.szSenderId.chars, cString refChat.szRecverId.chars, refChat.szContent] ∧
    columns.keeps (.ofChat refChat) = true
  | .unread szPlayerId =>
    ((unread szPlayerId).text escape).Safe [szPlayerId, szPlayerId] ∧
      columns.finds szPlayerId = true

instance : (query : ChatQuery) → Decidable (query.Exact escape columns)
  | .chat .. | .unread _ => inferInstanceAs (Decidable (_ ∧ _))

end

/-- What the statements are meant to do: the rows afterwards, and the result. -/
def meant (rows : List ChatRow) : ChatQuery → List ChatRow × ChatResult
  | .chat serial refChat _ bReaded => (rows ++ [⟨some serial, .ofChat refChat, bReaded⟩], .chat)
  | .unread szPlayerId =>
    (rows.map fun row =>
      if row.msg.szRecverId = szPlayerId then { row with readed := true } else row,
    .unread szPlayerId
      (rows.filter fun row => row.readed = false ∧ row.msg.szRecverId = szPlayerId))

/-- `OnQuery`. Where the server reads something else, `other` are the rows afterwards and those
behind `m_pReader`. -/
def onQuery (escape : List UInt8 → List UInt8) (columns : ChatColumns)
    (other : List ChatRow × List ChatRow) (rows : List ChatRow) (query : ChatQuery) :
    List ChatRow × ChatResult :=
  if query.Exact escape columns then query.meant rows
  else
    match query with
    | .chat .. => (other.1, .chat)
    | .unread szPlayerId => (other.1, .unread szPlayerId other.2)

end ChatQuery

/-- `accepted` are the messages to other players, except those in `forwarded`, which have gone to
the recipient's server; `crashed` says that a handler has read behind a null pointer. -/
structure PrivateChats where
  logins : Logins
  serial : Nat
  accepted : List (Nat × PrivateMsg)
  forwarded : List PrivateMsg
  querys : List ChatQuery
  results : List ChatResult
  rows : List ChatRow
  sent : List SentChat
  crashed : Bool

/-- A call of `Send` for a private message: the memory behind the arrays of the message, and the
answer, which is false also where the message has not fitted the buffer. -/
structure Sending where
  behind : List UInt8
  takes : Bool

namespace PrivateChats

inductive Label where
  /-- Logins, connections and closes. -/
  | logins (l : Logins.Label)
  /-- A player's private message comes in; `behind` lies behind the array of the request, and
  `remote` says whether there is a connection to the server of the recipient. -/
  | privateChat (pSession : Nat) (szRecverId : CharArray idLenth) (behind : List UInt8)
      (eChatType : UInt32) (szContent : List UInt8) (dwTimeStamp : UInt32) (remote : Bool)
      (sending : Sending)
  /-- A private message comes in from another server. -/
  | chatToChat (refChat : StChatSendChatPrivateChat) (behind : List UInt8) (sending : Sending)
  /-- The client executes the first query. -/
  | query (other : List ChatRow × List ChatRow)
  /-- The main thread takes the first result, with a call of `Send` for each row. -/
  | result (sending : Nat → Sending)

def start (setHashIndex : List Nat) (rows : List (PrivateMsg × Bool)) : PrivateChats where
  logins := Logins.start setHashIndex
  serial := 0
  accepted := []
  forwarded := []
  querys := []
  results := []
  rows := rows.map fun row => ⟨none, row.1, row.2⟩
  sent := []
  crashed := false

def checkHashIndex (s : PrivateChats) (btHash : UInt8) : Bool :=
  btHash.toNat ∈ s.logins.setHashIndex

/-- `CheckHashIndex` of a recipient. -/
def owns (s : PrivateChats) (szRecverId : CharArray idLenth) : Bool :=
  s.checkHashIndex (privateChatIndex szRecverId)

/-- Who is found under an id in an array, which is taken up to the next NUL. -/
def recver (s : PrivateChats) (szRecverId : CharArray idLenth) (behind : List UInt8) :
    Option ChatPlayer :=
  s.logins.manager.getChatPlayer (cString (szRecverId.chars ++ behind))

/-- `Send` on the session of a player. -/
def send (s : PrivateChats) (player : ChatPlayer) (sending : Sending) (serial : Option Nat)
    (refChat : StChatSendChatPrivateChat) : List SentChat :=
  let session := s.logins.session player.pSession
  if session.connStat = .ok ∧ sending.takes then
    [⟨serial, .written refChat sending.behind, session.szId⟩]
  else []

/-- `OnLogin` adds its query where `OnPlayerLogin` gives a player. -/
def loginQuerys (s : PrivateChats) : Logins.Label → List ChatQuery
  | .login pSession szId szSign =>
    if (s.logins.manager.getChatPlayer (s.logins.session pSession).szId).isNone ∧
        s.checkHashIndex (hashToIndex szId) ∧
        (s.logins.manager.onPlayerLogin szId szSign pSession).1.isSome then
      [.unread szId]
    else []
  | _ => []

/-- The run counts one more message. -/
def accept (s : PrivateChats) (msg : PrivateMsg) : PrivateChats :=
  { s with serial := s.serial + 1, accepted := s.accepted ++ [(s.serial, msg)] }

/-- `AddQuery` of a `DBChatQuery`. -/
def store (s : PrivateChats) (refChat : StChatSendChatPrivateChat) (behind : List UInt8)
    (bReaded : Bool) : PrivateChats :=
  { s.accept (.ofChat refChat) with
    querys := s.querys ++ [.chat s.serial refChat behind bReaded] }

/-- The request of a player as a message. -/
def request (player : ChatPlayer) (szRecverId : CharArray idLenth) (eChatType : UInt32)
    (szContent : List UInt8) (dwTimeStamp : UInt32) : StChatSendChatPrivateChat :=
  ⟨dwTimeStamp, player.szPyayerId, szRecverId, eChatType, szContent⟩

/-- `ChatPlayer::OnPrivateChat` of a request: players of one id are one player. -/
def onRequest (s : PrivateChats) (sender : ChatPlayer) (refChat : StChatSendChatPrivateChat)
    (behind : List UInt8) (remote : Bool) (sending : Sending) : PrivateChats :=
  if s.owns refChat.szRecverId then
    match s.recver refChat.szRecverId behind with
    | none => s.store refChat sending.behind false
    | some player =>
      if player = sender then s
      else
        { s.store refChat sending.behind true with
          sent := s.sent ++ s.send player sending (some s.serial) refChat }
  else if remote then
    if sending.takes then { s with forwarded := s.forwarded ++ [.ofChat refChat] }
    else s.accept (.ofChat refChat)
  else s.store refChat sending.behind false

/-- `ChatPlayer::OnPrivateChat` of a message from another server or from the table: the recipient
is the player itself. -/
def onPrivateChat (s : PrivateChats) (player : ChatPlayer) (sending : Sending)
    (serial : Option Nat) (refChat : StChatSendChatPrivateChat) : List SentChat :=
  s.send player sending serial { refChat with szRecverId := player.szPyayerId }

/-- `ChatServerSession::OnChatToChatPrivateChat`. -/
def onChatToChatPrivateChat (s : PrivateChats) (refChat : StChatSendChatPrivateChat)
    (behind : List UInt8) (sending : Sending) : PrivateChats :=
  if s.owns refChat.szRecverId then
    match s.recver refChat.szRecverId behind with
    | none => s.store refChat behind false
    | some player =>
      { s.store refChat behind true with
        sent := s.sent ++ s.onPrivateChat player sending (some s.serial) refChat }
  else s.accept (.ofChat refChat)

/-- The fields of a row as they are handed to `OnPrivateChat`: `IDLENTH` bytes of the sender's id,
and the content as a C string. -/
def readRow (row : ChatRow) : StChatSendChatPrivateChat :=
  ⟨row.msg.dwTimeStamp, (CharArray.zero idLenth).copyIn row.msg.szSenderId, .zero idLenth,
    row.msg.eChatType, cString row.msg.szContent⟩

/-- `OnResult`. -/
def onResult (s : PrivateChats) (sending : Nat → Sending) : ChatResult → PrivateChats
  | .chat => s
  | .unread szPlayerId rows =>
    match s.logins.manager.getChatPlayer szPlayerId with
    | none => { s with crashed := decide (rows ≠ []) }
    | some player => { s with
        sent := s.sent ++ rows.zipIdx.flatMap fun row =>
          s.onPrivateChat player (sending row.2) row.1.serial (readRow row.1) }

def step (escape : List UInt8 → List UInt8) (columns : ChatColumns) (s : PrivateChats)
    (l : Label) : Option PrivateChats :=
  if s.crashed then none
  else match l with
  | .logins l =>
    (s.logins.step l).map fun logins =>
      { s with logins := logins, querys := s.querys ++ s.loginQuerys l }
  | .privateChat pSession szRecverId behind eChatType szContent dwTimeStamp remote sending =>
    match s.logins.manager.getChatPlayer (s.logins.session pSession).szId with
    | none => none
    | some player =>
      some (s.onRequest player (request player szRecverId eChatType szContent dwTimeStamp) behind
        remote sending)
  | .chatToChat refChat behind sending => some (s.onChatToChatPrivateChat refChat behind sending)
  | .query other =>
    match s.querys with
    | [] => none
    | query :: querys =>
      let (rows, result) := query.onQuery escape columns other s.rows
      some { s with rows := rows, querys := querys, results := s.results ++ [result] }
  | .result sending =>
    match s.results with
    | [] => none
    | result :: results => some { s.onResult sending result with results := results }

/-- The message has been sent to a session on which its recipient is logged in. -/
def WasSent (s : PrivateChats) (a : Nat × PrivateMsg) : Prop :=
  ⟨some a.1, a.2, a.2.szRecverId⟩ ∈ s.sent

/-- The message is stored for a later login. -/
def IsStored (s : PrivateChats) (a : Nat × PrivateMsg) : Prop :=
  ⟨some a.1, a.2, false⟩ ∈ s.rows

/-- No handler has read behind a null pointer, and once no query is pending every message has been
sent or is stored. -/
def Delivers (s : PrivateChats) : Prop :=
  s.crashed = false ∧ (s.querys = [] → s.results = [] →
    ∀ a ∈ s.accepted, s.WasSent a ∨ s.IsStored a)

end PrivateChats

/-! ### The condition on a run -/

/-- The ids of a message end in their arrays, its statement is harmless, and the columns keep it;
the id of a player that logs in is shorter than its array, stands for itself and finds its own
rows. -/
def ChatQuery.Carried (escape : List UInt8 → List UInt8) (columns : ChatColumns) :
    ChatQuery → Prop
  | .chat _ refChat behind bReaded => refChat.Terminated ∧
    (SqlQuery.chat refChat behind bReaded).Harmless escape ∧ columns.keeps (.ofChat refChat) = true
  | .unread szPlayerId =>
    Verbatim szPlayerId ∧ szPlayerId.length < idLenth ∧ columns.finds szPlayerId = true

/-- A row comes back as it was stored. -/
def PrivateMsg.Legible (msg : PrivateMsg) : Prop :=
  (0 ∉ msg.szSenderId ∧ msg.szSenderId.length < idLenth) ∧
    (0 ∉ msg.szRecverId ∧ msg.szRecverId.length < idLenth) ∧ 0 ∉ msg.szContent

namespace PrivateChats

/-- The connection of a player takes what is sent. -/
def Takes (s : PrivateChats) (player : ChatPlayer) (sending : Sending) : Prop :=
  (s.logins.session player.pSession).connStat = .ok ∧ sending.takes = true

/-- Whoever is found has a connection that takes the message. -/
def FoundTakes (s : PrivateChats) (szRecverId : CharArray idLenth) (behind : List UInt8)
    (sending : Sending) : Prop :=
  ∀ player ∈ s.recver szRecverId behind, s.Takes player sending

/-- Where unread rows come back, the player is online, and its connection takes each of them. -/
def FindsReader (s : PrivateChats) (sending : Nat → Sending) : Option ChatResult → Prop
  | some (.unread szPlayerId rows) => rows ≠ [] →
    ∃ player ∈ s.logins.manager.getChatPlayer szPlayerId,
      ∀ row ∈ rows.zipIdx, s.Takes player (sending row.2) ∧ row.1.msg.Legible
  | some .chat | none => True

section

variable (escape : List UInt8 → List UInt8) (columns : ChatColumns)

def RequestInTime (s : PrivateChats) (sender : ChatPlayer) (refChat : StChatSendChatPrivateChat)
    (behind : List UInt8) (remote : Bool) (sending : Sending) : Prop :=
  if s.owns refChat.szRecverId then
    s.recver refChat.szRecverId behind = some sender ∨
      (ChatQuery.chat s.serial refChat sending.behind false).Carried escape columns ∧
        s.FoundTakes refChat.szRecverId behind sending
  else if remote then sending.takes = true
  else (ChatQuery.chat s.serial refChat sending.behind false).Carried escape columns

/-- The condition on a step: what is stored and asked for is carried; whoever is found online when a
message comes in has a connection that takes it, and so has the player that is found when unread
rows come back; a message between servers is taken, and goes to the server of its recipient. -/
def InTime (s : PrivateChats) : Label → Prop
  | .logins l => ∀ query ∈ s.loginQuerys l, query.Carried escape columns
  | .privateChat pSession szRecverId behind eChatType szContent dwTimeStamp remote sending =>
    ∀ player ∈ s.logins.manager.getChatPlayer (s.logins.session pSession).szId,
      s.RequestInTime escape columns player
        (request player szRecverId eChatType szContent dwTimeStamp) behind remote sending
  | .chatToChat refChat behind sending =>
    s.owns refChat.szRecverId = true ∧
      (ChatQuery.chat s.serial refChat behind false).Carried escape columns ∧
      s.FoundTakes refChat.szRecverId behind sending
  | .query _ => True
  | .result sending => s.FindsReader sending s.results.head?

end

variable {escape : List UInt8 → List UInt8} {columns : ChatColumns}

instance : (query : ChatQuery) → Decidable (query.Carried escape columns)
  | .chat _ refChat behind bReaded =>
    decidable_of_iff (refChat.Terminated ∧ (SqlText.Plain (cString refChat.szSenderId.chars) ∧
        SqlText.Plain (cString refChat.szRecverId.chars)) ∧
        124 + (cString refChat.szSenderId.chars).length +
          (cString (refChat.szRecverId.chars ++ behind)).length +
          (Text.printUInt refChat.eChatType).length + (escape refChat.szContent).length +
          (Text.printUInt refChat.dwTimeStamp).length ≤ 6144 ∧
        columns.keeps (.ofChat refChat) = true)
      (and_congr_right fun hends => by
        rw [SqlQuery.Harmless, idsVerbatim_iff_of_terminated hends]
        exact and_assoc.symm)
  | .unread _ => inferInstanceAs (Decidable (_ ∧ _))

instance (msg : PrivateMsg) : Decidable msg.Legible := inferInstanceAs (Decidable (_ ∧ _))

instance (s : PrivateChats) (player : ChatPlayer) (sending : Sending) :
    Decidable (s.Takes player sending) :=
  inferInstanceAs (Decidable (_ ∧ _))

instance (s : PrivateChats) (szRecverId : CharArray idLenth) (behind : List UInt8)
    (sending : Sending) : Decidable (s.FoundTakes szRecverId behind sending) :=
  inferInstanceAs (Decidable (∀ player ∈ s.recver szRecverId behind, _))

instance (s : PrivateChats) (sending : Nat → Sending) :
    (result : Option ChatResult) → Decidable (s.FindsReader sending result)
  | some (.unread szPlayerId rows) =>
    inferInstanceAs (Decidable (rows ≠ [] →
      ∃ player ∈ s.logins.manager.getChatPlayer szPlayerId,
        ∀ row ∈ rows.zipIdx, s.Takes player (sending row.2) ∧ row.1.msg.Legible))
  | some .chat | none => inferInstanceAs (Decidable True)

instance (s : PrivateChats) (sender : ChatPlayer) (refChat : StChatSendChatPrivateChat)
    (behind : List UInt8) (remote : Bool) (sending : Sending) :
    Decidable (s.RequestInTime escape columns sender refChat behind remote sending) :=
  inferInstanceAs (Decidable (if s.owns refChat.szRecverId then _ ∨ _ else _))

instance (s : PrivateChats) : (l : Label) → Decidable (InTime escape columns s l)
  | .logins l => inferInstanceAs (Decidable (∀ query ∈ s.loginQuerys l, _))
  | .privateChat pSession .. =>
    inferInstanceAs (Decidable
      (∀ player ∈ s.logins.manager.getChatPlayer (s.logins.session pSession).szId, _))
  | .chatToChat .. => inferInstanceAs (Decidable (_ ∧ _))
  | .query _ => inferInstanceAs (Decidable True)
  | .result sending => inferInstanceAs (Decidable (s.FindsReader sending _))

/-- What is carried is read as it is meant. -/
theorem exact_of_carried (hescape : Escapes escape) {query : ChatQuery}
    (h : query.Carried escape columns) : query.Exact escape columns := by
  cases query with
  | chat serial refChat behind bReaded =>
    exact ⟨(SqlQuery.chat_safe_iff hescape refChat behind bReaded).mpr h.2.1, h.2.2⟩
  | unread szPlayerId => exact ⟨SqlQuery.unreadChat_safe h.1 h.2.1, h.2.2⟩

/-- Where a message is: sent, stored, on its way to the table, or read from there. -/
def Accounted (s : PrivateChats) (a : Nat × PrivateMsg) : Prop :=
  s.WasSent a ∨ s.IsStored a ∨
    (∃ refChat behind, .chat a.1 refChat behind false ∈ s.querys ∧ .ofChat refChat = a.2) ∨
    ∃ rows, .unread a.2.szRecverId rows ∈ s.results ∧ ⟨some a.1, a.2, false⟩ ∈ rows

variable (escape columns) in
structure Kept (s : PrivateChats) : Prop where
  named : s.logins.Named
  alive : s.crashed = false
  exact : ∀ query ∈ s.querys, query.Exact escape columns
  accounted : ∀ a ∈ s.accepted, s.Accounted a
  read : ∀ szPlayerId rows, .unread szPlayerId rows ∈ s.results →
    ∀ row ∈ rows, row.msg.szRecverId = szPlayerId

variable {s s' : PrivateChats} {refChat : StChatSendChatPrivateChat} {behind : List UInt8}
  {sending : Sending} {a : Nat × PrivateMsg}

theorem kept_start (setHashIndex : List Nat) (rows : List (PrivateMsg × Bool)) :
    Kept escape columns (start setHashIndex rows) :=
  ⟨Logins.named_start setHashIndex, rfl, fun _ h => absurd h List.not_mem_nil,
    fun _ h => absurd h List.not_mem_nil, fun _ _ h => absurd h List.not_mem_nil⟩

/-- More that has been sent and more queries do no harm. -/
theorem Accounted.mono (h : s.Accounted a) (hsent : s.sent ⊆ s'.sent) (hrows : s'.rows = s.rows)
    (hquerys : s.querys ⊆ s'.querys) (hresults : s'.results = s.results) : s'.Accounted a := by
  obtain h | h | ⟨refChat, behind, hquery, hmsg⟩ | h := h
  · exact Or.inl (hsent h)
  · exact Or.inr (Or.inl (by rwa [IsStored, hrows]))
  · exact Or.inr (Or.inr (Or.inl ⟨refChat, behind, hquerys hquery, hmsg⟩))
  · exact Or.inr (Or.inr (Or.inr (by rwa [hresults])))

/-- A message with one more query, and with what has been sent of it. -/
theorem Kept.store (h : Kept escape columns s) {bReaded : Bool} (sent : List SentChat)
    (hexact : (ChatQuery.chat s.serial refChat behind bReaded).Exact escape columns)
    (hsent : bReaded = true →
      ⟨some s.serial, .ofChat refChat, cString refChat.szRecverId.chars⟩ ∈ sent) :
    Kept escape columns { s.store refChat behind bReaded with sent := s.sent ++ sent } := by
  refine ⟨h.named, h.alive, fun query hquery => ?_, fun a ha => ?_, h.read⟩
  · rcases List.mem_append.mp hquery with hquery | hquery
    · exact h.exact query hquery
    · obtain rfl := List.mem_singleton.mp hquery
      exact hexact
  · rcases List.mem_append.mp ha with ha | ha
    · exact (h.accounted a ha).mono (List.subset_append_left _ _) rfl
        (List.subset_append_left _ _) rfl
    · obtain rfl := List.mem_singleton.mp ha
      cases bReaded with
      | false =>
        exact Or.inr (Or.inr (Or.inl ⟨refChat, behind,
          List.mem_append_right _ (List.mem_singleton_self _), rfl⟩))
      | true => exact Or.inl (List.mem_append_right _ (hsent rfl))

theorem send_of_takes (h : s.logins.Named) {szPlayerId : PlayerId} {player : ChatPlayer}
    (hplayer : s.logins.manager.getChatPlayer szPlayerId = some player)
    (htakes : s.Takes player sending) (serial : Option Nat)
    (refChat : StChatSendChatPrivateChat) :
    s.send player sending serial refChat =
      [⟨serial, .written refChat sending.behind, szPlayerId⟩] := by
  have hboth : (s.logins.session player.pSession).connStat = .ok ∧ sending.takes = true := htakes
  rw [send, if_pos hboth, (h szPlayerId player hplayer).2.1]

theorem written_of_terminated (h : refChat.Terminated) (behind : List UInt8) :
    PrivateMsg.written refChat behind = .ofChat refChat := by
  rw [PrivateMsg.written, PrivateMsg.ofChat, cString_append_of_mem h.1, cString_append_of_mem h.2]

/-- Whoever is found under the id of a message is its recipient. -/
theorem recver_of_terminated (h : refChat.Terminated) (behind : List UInt8) :
    s.recver refChat.szRecverId behind =
      s.logins.manager.getChatPlayer (cString refChat.szRecverId.chars) := by
  rw [recver, cString_append_of_mem h.2]

/-- The array of a player says its id. -/
theorem cString_szPyayerId {player : ChatPlayer} (hnul : 0 ∉ player.szPlayerId)
    (hlt : player.szPlayerId.length < idLenth) (behind : List UInt8) :
    cString (player.szPyayerId.chars ++ behind) = player.szPlayerId :=
  CharArray.cString_copyIn hnul hlt behind

theorem Kept.onRequest (h : Kept escape columns s) (hescape : Escapes escape)
    {sender : ChatPlayer} {remote : Bool}
    (hgood : s.RequestInTime escape columns sender refChat behind remote sending) :
    Kept escape columns (s.onRequest sender refChat behind remote sending) := by
  have hstore : (ChatQuery.chat s.serial refChat sending.behind false).Carried escape columns →
      Kept escape columns (s.store refChat sending.behind false) := by
    intro hcarried
    have hkept := h.store [] (exact_of_carried hescape hcarried) fun hc => nomatch hc
    rwa [List.append_nil] at hkept
  rw [PrivateChats.onRequest]
  by_cases howns : s.owns refChat.szRecverId = true
  · rw [RequestInTime, if_pos howns] at hgood
    rw [if_pos howns]
    cases hfound : s.recver refChat.szRecverId behind with
    | none => exact hstore (hgood.resolve_left (by simp [hfound])).1
    | some player =>
      simp only
      split_ifs with hself
      · exact h
      · obtain hc | ⟨hcarried, htakes⟩ := hgood
        · exact absurd (Option.some.inj (hfound.symm.trans hc)) hself
        · have hends := hcarried.1
          have hplayer := hfound
          rw [recver_of_terminated hends] at hplayer
          refine h.store _ (exact_of_carried hescape hcarried) fun _ => ?_
          rw [send_of_takes h.named hplayer (htakes player hfound), written_of_terminated hends]
          exact List.mem_singleton_self _
  · rw [RequestInTime, if_neg howns] at hgood
    rw [if_neg howns]
    cases remote with
    | false => exact hstore hgood
    | true =>
      have htakes : sending.takes = true := hgood
      rw [if_pos rfl, if_pos htakes]
      exact ⟨h.named, h.alive, h.exact, h.accounted, h.read⟩

/-- A player sends on what says its id. -/
theorem onPrivateChat_of_takes (h : s.logins.Named) {szPlayerId : PlayerId} {player : ChatPlayer}
    (hplayer : s.logins.manager.getChatPlayer szPlayerId = some player)
    (htakes : s.Takes player sending) (hsender : refChat.szSenderId.Terminated)
    (hnul : 0 ∉ szPlayerId) (hlt : szPlayerId.length < idLenth) (serial : Option Nat) :
    s.onPrivateChat player sending serial refChat =
      [⟨serial, ⟨cString refChat.szSenderId.chars, szPlayerId, refChat.eChatType,
        refChat.szContent, refChat.dwTimeStamp⟩, szPlayerId⟩] := by
  obtain ⟨rfl, -, -⟩ := h szPlayerId player hplayer
  rw [PrivateChats.onPrivateChat, send_of_takes h hplayer htakes, PrivateMsg.written,
    cString_append_of_mem hsender, cString_szPyayerId hnul hlt]

theorem Kept.onChatToChatPrivateChat (h : Kept escape columns s) (hescape : Escapes escape)
    (howns : s.owns refChat.szRecverId = true)
    (hcarried : (ChatQuery.chat s.serial refChat behind false).Carried escape columns)
    (htakes : s.FoundTakes refChat.szRecverId behind sending) :
    Kept escape columns (s.onChatToChatPrivateChat refChat behind sending) := by
  have hends := hcarried.1
  rw [PrivateChats.onChatToChatPrivateChat, if_pos howns]
  cases hfound : s.recver refChat.szRecverId behind with
  | none =>
    have hkept := h.store [] (exact_of_carried hescape hcarried) fun hc => nomatch hc
    rwa [List.append_nil] at hkept
  | some player =>
    have hplayer := hfound
    rw [recver_of_terminated hends] at hplayer
    refine h.store _ (exact_of_carried hescape hcarried) fun _ => ?_
    rw [onPrivateChat_of_takes h.named hplayer (htakes player hfound) hends.1
      (zero_not_mem_cString _) (CharArray.cString_length_lt hends.2)]
    exact List.mem_singleton_self _

theorem onQuery_of_exact {query : ChatQuery} (h : query.Exact escape columns)
    (other : List ChatRow × List ChatRow) (rows : List ChatRow) :
    query.onQuery escape columns other rows = query.meant rows :=
  if_pos h

/-- A query finds the row of a message, or reads it. -/
theorem Kept.onQuery (h : Kept escape columns s) {query : ChatQuery} {querys : List ChatQuery}
    (hquerys : s.querys = query :: querys) (other : List ChatRow × List ChatRow) :
    Kept escape columns { s with
      rows := (query.onQuery escape columns other s.rows).1
      querys := querys
      results := s.results ++ [(query.onQuery escape columns other s.rows).2] } := by
  have hexact := h.exact
  rw [hquerys] at hexact
  obtain ⟨hquery, hrest⟩ := List.forall_mem_cons.mp hexact
  rw [onQuery_of_exact hquery]
  cases query with
  | chat serial refChat behind bReaded =>
    refine ⟨h.named, h.alive, hrest, fun a ha => ?_, fun id rows hin => ?_⟩
    · obtain hsent | hstored | ⟨refChat', behind', hquery, hmsg⟩ | ⟨rows, hresult, hrow⟩ :=
        h.accounted a ha
      · exact Or.inl hsent
      · exact Or.inr (Or.inl (List.mem_append_left _ hstored))
      · rw [hquerys] at hquery
        rcases List.mem_cons.mp hquery with heq | hquery
        · obtain ⟨rfl, rfl, rfl, rfl⟩ := ChatQuery.chat.inj heq
          refine Or.inr (Or.inl (List.mem_append_right _ ?_))
          rw [hmsg]
          exact List.mem_singleton_self _
        · exact Or.inr (Or.inr (Or.inl ⟨refChat', behind', hquery, hmsg⟩))
      · exact Or.inr (Or.inr (Or.inr ⟨rows, List.mem_append_left _ hresult, hrow⟩))
    · rcases List.mem_append.mp hin with hin | hin
      · exact h.read id rows hin
      · cases List.mem_singleton.mp hin
  | unread szPlayerId =>
    refine ⟨h.named, h.alive, hrest, fun a ha => ?_, fun id rows hin => ?_⟩
    · obtain hsent | hstored | ⟨refChat', behind', hquery, hmsg⟩ | ⟨rows, hresult, hrow⟩ :=
        h.accounted a ha
      · exact Or.inl hsent
      · -- A row of the player is read now, any other stays.
        by_cases hid : a.2.szRecverId = szPlayerId
        · have hread : ⟨some a.1, a.2, false⟩ ∈ s.rows.filter fun row =>
              row.readed = false ∧ row.msg.szRecverId = szPlayerId :=
            List.mem_filter.mpr ⟨hstored, by simpa using hid⟩
          refine Or.inr (Or.inr (Or.inr ⟨_, List.mem_append_right _ ?_, hread⟩))
          rw [hid]
          exact List.mem_singleton_self _
        · refine Or.inr (Or.inl (List.mem_map.mpr ⟨_, hstored, ?_⟩))
          rw [if_neg hid]
      · rw [hquerys] at hquery
        rcases List.mem_cons.mp hquery with heq | hquery
        · cases heq
        · exact Or.inr (Or.inr (Or.inl ⟨refChat', behind', hquery, hmsg⟩))
      · exact Or.inr (Or.inr (Or.inr ⟨rows, List.mem_append_left _ hresult, hrow⟩))
    · rcases List.mem_append.mp hin with hin | hin
      · exact h.read id rows hin
      · obtain ⟨rfl, rfl⟩ := ChatResult.unread.inj (List.mem_singleton.mp hin)
        intro row hrow
        have hkeep := (List.mem_filter.mp hrow).2
        simp only [decide_eq_true_eq] at hkeep
        exact hkeep.2

/-- A message that the first result does not bring back is accounted for without it. -/
theorem Accounted.next (h : s.Accounted a) (s' : PrivateChats) {result : ChatResult}
    {results : List ChatResult} (hresults : s.results = result :: results)
    (hsent : s.sent ⊆ s'.sent) (hrows : s'.rows = s.rows) (hquerys : s'.querys = s.querys)
    (hresults' : s'.results = results) :
    s'.Accounted a ∨
      ∃ rows, result = .unread a.2.szRecverId rows ∧ ⟨some a.1, a.2, false⟩ ∈ rows := by
  obtain h | h | h | ⟨rows, hresult, hrow⟩ := h
  · exact Or.inl (Or.inl (hsent h))
  · exact Or.inl (Or.inr (Or.inl (by rwa [IsStored, hrows])))
  · exact Or.inl (Or.inr (Or.inr (Or.inl (by rwa [hquerys]))))
  · rw [hresults] at hresult
    rcases List.mem_cons.mp hresult with heq | hresult
    · exact Or.inr ⟨rows, heq.symm, hrow⟩
    · exact Or.inl (Or.inr (Or.inr (Or.inr ⟨rows, by rwa [hresults'], hrow⟩)))

/-- A legible row of a player is sent to it as it was stored. -/
theorem onPrivateChat_readRow (h : s.logins.Named) {player : ChatPlayer} {row : ChatRow}
    (hplayer : s.logins.manager.getChatPlayer row.msg.szRecverId = some player)
    (htakes : s.Takes player sending) (hlegible : row.msg.Legible) :
    s.onPrivateChat player sending row.serial (readRow row) =
      [⟨row.serial, row.msg, row.msg.szRecverId⟩] := by
  obtain ⟨hsender, hrecver, hcontent⟩ := hlegible
  have hends : (readRow row).szSenderId.Terminated := by
    rw [CharArray.Terminated, readRow, CharArray.chars_zero_copyIn hsender.2.le]
    exact List.mem_append_right _ (List.mem_replicate.mpr ⟨by omega, rfl⟩)
  have htext : cString (readRow row).szSenderId.chars = row.msg.szSenderId := by
    have hcopy := CharArray.cString_copyIn hsender.1 hsender.2 []
    rwa [List.append_nil] at hcopy
  rw [onPrivateChat_of_takes h hplayer htakes hends hrecver.1 hrecver.2, htext]
  simp only [readRow, (cString_eq_self_iff _).mpr hcontent]

/-- Rows that come back are sent to the player that has logged in for them. -/
theorem Kept.onResult (h : Kept escape columns s) {result : ChatResult}
    {results : List ChatResult} (hresults : s.results = result :: results)
    {sending : Nat → Sending} (hgood : s.FindsReader sending (some result)) :
    Kept escape columns { s.onResult sending result with results := results } := by
  have hread : ∀ id rows, .unread id rows ∈ results → ∀ row ∈ rows, row.msg.szRecverId = id :=
    fun id rows hin => h.read id rows (by rw [hresults]; exact List.mem_cons_of_mem result hin)
  cases result with
  | chat =>
    refine ⟨h.named, h.alive, h.exact, fun a ha => ?_, hread⟩
    obtain hnext | ⟨rows, hc, -⟩ := (h.accounted a ha).next { s with results := results }
      hresults (List.Subset.refl _) rfl rfl rfl
    · exact hnext
    · cases hc
  | unread szPlayerId rows =>
    cases hfound : s.logins.manager.getChatPlayer szPlayerId with
    | none =>
      obtain rfl : rows = [] := by
        by_contra hrows
        obtain ⟨player, hsome, -⟩ := hgood hrows
        rw [hfound] at hsome
        cases hsome
      simp only [PrivateChats.onResult, hfound]
      refine ⟨h.named, rfl, h.exact, fun a ha => ?_, hread⟩
      obtain hnext | ⟨rows, hc, hrow⟩ := (h.accounted a ha).next
        { s with results := results, crashed := false } hresults (List.Subset.refl _) rfl rfl rfl
      · exact hnext
      · obtain ⟨-, rfl⟩ := ChatResult.unread.inj hc
        exact absurd hrow List.not_mem_nil
    | some player =>
      simp only [PrivateChats.onResult, hfound]
      refine ⟨h.named, h.alive, h.exact, fun a ha => ?_, hread⟩
      obtain hnext | ⟨rows', hc, hrow⟩ := (h.accounted a ha).next
        { s with
          sent := s.sent ++ rows.zipIdx.flatMap fun row =>
            s.onPrivateChat player (sending row.2) row.1.serial (readRow row.1)
          results := results } hresults (List.subset_append_left _ _) rfl rfl rfl
      · exact hnext
      · obtain ⟨rfl, rfl⟩ := ChatResult.unread.inj hc
        obtain ⟨player', hsome, htakes⟩ := hgood (List.ne_nil_of_mem hrow)
        obtain rfl : player = player' := Option.some.inj (hfound.symm.trans hsome)
        obtain ⟨i, hi, hget⟩ := List.getElem_of_mem hrow
        have hin : (⟨some a.1, a.2, false⟩, i) ∈ rows.zipIdx := by
          rw [List.mem_zipIdx_iff_getElem?, List.getElem?_eq_getElem hi, hget]
        obtain ⟨htakes, hlegible⟩ := htakes _ hin
        refine Or.inl (List.mem_append_right _ (List.mem_flatMap.mpr ⟨_, hin, ?_⟩))
        rw [onPrivateChat_readRow h.named hfound htakes hlegible]
        exact List.mem_singleton_self _

theorem Kept.step (h : Kept escape columns s) (hescape : Escapes escape) {l : Label}
    (hgood : InTime escape columns s l) (hstep : s.step escape columns l = some s') :
    Kept escape columns s' := by
  rw [PrivateChats.step.eq_def, if_neg (by simp [h.alive])] at hstep
  cases l with
  | logins l =>
    obtain ⟨logins, hlogins, rfl⟩ := Option.map_eq_some_iff.mp hstep
    refine ⟨h.named.step hlogins, h.alive, fun query hquery => ?_, fun a ha => ?_, h.read⟩
    · rcases List.mem_append.mp hquery with hquery | hquery
      · exact h.exact query hquery
      · exact exact_of_carried hescape (hgood query hquery)
    · exact (h.accounted a ha).mono (List.Subset.refl _) rfl (List.subset_append_left _ _) rfl
  | privateChat pSession szRecverId behind eChatType szContent dwTimeStamp remote sending =>
    simp only at hstep
    split at hstep
    · cases hstep
    · rename_i player hplayer
      obtain rfl := Option.some.inj hstep
      exact h.onRequest hescape (hgood player hplayer)
  | chatToChat refChat behind sending =>
    obtain rfl := Option.some.inj hstep
    exact h.onChatToChatPrivateChat hescape hgood.1 hgood.2.1 hgood.2.2
  | query other =>
    cases hquerys : s.querys with
    | nil => simp [hquerys] at hstep
    | cons query querys =>
      simp only [hquerys] at hstep
      obtain rfl := Option.some.inj hstep
      exact h.onQuery hquerys other
  | result sending =>
    cases hresults : s.results with
    | nil => simp [hresults] at hstep
    | cons result results =>
      simp only [hresults] at hstep
      obtain rfl := Option.some.inj hstep
      rw [InTime, hresults] at hgood
      exact h.onResult hresults hgood

def taken : Sending := ⟨[], true⟩

end PrivateChats

end ChatServer
