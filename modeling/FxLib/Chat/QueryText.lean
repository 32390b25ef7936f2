import FxLib.Lib.SqlText
import FxLib.Meta.ChatDefine

/-!
# The texts of the chat queries

The constructors of the queries that carry what players send. Each writes its text into a static
array with `sprintf`; two of them escape the content of a message into another first.
-/

namespace ChatServer

open SqlText Text

/-- A static array, and the text that has been written into it. -/
structure CharBuf where
  size : Nat
  text : List UInt8

/-- There is room for the text and the NUL behind it. -/
def CharBuf.Fits (buf : CharBuf) : Prop := buf.text.length < buf.size

instance : DecidablePred CharBuf.Fits := fun _ => inferInstanceAs (Decidable (_ < _))

/-- What the constructor of a query writes. -/
structure QueryText where
  szContentEacape : Option CharBuf
  /-- The size of `szTemp`. -/
  size : Nat
  /-- The format with its arguments: the strings are those between its quotes. -/
  format : Statement

namespace QueryText

def szTemp (q : QueryText) : CharBuf := ⟨q.size, q.format.text⟩

/-- `m_strQuery`. -/
def strQuery (q : QueryText) : List UInt8 := cString q.szTemp.text

/-- All that is written fits, and the server reads each string between the quotes of the format as
one of `strings`. -/
structure Safe (q : QueryText) (strings : List (List UInt8)) : Prop where
  temp : q.szTemp.Fits
  escape : ∀ buf ∈ q.szContentEacape, buf.Fits
  strings : Says q.strQuery (q.format.fields.map Field.body) strings

instance (q : QueryText) (strings : List (List UInt8)) : Decidable (q.Safe strings) :=
  decidable_of_iff (q.szTemp.Fits ∧ (∀ buf ∈ q.szContentEacape, buf.Fits) ∧
      Says q.strQuery (q.format.fields.map Field.body) strings)
    ⟨fun ⟨htemp, hescape, hstrings⟩ => ⟨htemp, hescape, hstrings⟩,
      fun h => ⟨h.temp, h.escape, h.strings⟩⟩

end QueryText

/-- The bytes of a string literal. -/
def bytes (text : String) : List UInt8 := text.toUTF8.toList

section

variable (escape : List UInt8 → List UInt8)

/-- What `mysql_escape_string` writes is a C string, and says between quotes what it was given. -/
structure Escapes : Prop where
  value : ∀ text, value (escape text) = some text
  zero_not_mem : ∀ text, 0 ∉ escape text

/-- It escapes the content, and prints the content itself. -/
def dbGroupChatQuery (refChat : StChatNotifyChatGroupChat) : QueryText where
  szContentEacape := some ⟨2048 * 3 + 1, escape refChat.szContent⟩
  size := 2048 * 3 + 1
  format :=
    { head := bytes "INSERT INTO group_chat_" ++ printInt refChat.dwGroupId ++
        bytes " (`sender_id`, `chat_type`, `content`, `send_time`) VALUES("
      fields := [
        ⟨cString refChat.szSenderId, bytes ", " ++ printInt refChat.eChatType ++ bytes ", "⟩,
        ⟨cString refChat.szContent, bytes ", " ++ printInt refChat.dwSendTime ++ bytes ");"⟩] }

/-- The ids are printed from their arrays; the recipient's lies behind the sender's, and `behind`
behind both. -/
def dbChatQuery (refChat : StChatSendChatPrivateChat) (behind : List UInt8) (bReaded : Bool) :
    QueryText where
  szContentEacape := some ⟨2048 * 3 + 1, escape refChat.szContent⟩
  size := 2048 * 3 + 1
  format :=
    { head := bytes "INSERT INTO private_chat (`sender_id`, `recver_id`, `chat_type`, " ++
        bytes "`content`, `send_time`, `readed`) VALUES("
      fields := [
        ⟨cString (refChat.szSenderId.chars ++ (refChat.szRecverId.chars ++ behind)), bytes ", "⟩,
        ⟨cString (refChat.szRecverId.chars ++ behind),
          bytes ", " ++ printUInt refChat.eChatType ++ bytes ", "⟩,
        ⟨cString (escape refChat.szContent), bytes ", " ++ printUInt refChat.dwTimeStamp ++
          bytes ", " ++ printUInt (if bReaded then 1 else 0) ++ bytes ")"⟩] }

end

def dbInviteGroupMemberQuery (dwGroupId : UInt32) (szPlayer : List UInt8) (dwJoinTime : UInt32) :
    QueryText where
  szContentEacape := none
  size := 512
  format :=
    { head := bytes "INSERT INTO `group_member_" ++ printInt dwGroupId ++ bytes "` VALUES ("
      fields := [⟨cString szPlayer, bytes ", 1, " ++ printInt dwJoinTime ++ bytes ") ;"⟩] }

def dbLeaveGroupQuery (dwGroupId : UInt32) (szPlayer : List UInt8) : QueryText where
  szContentEacape := none
  size := 512
  format :=
    { head := bytes "DELETE FROM `group_member_" ++ printInt dwGroupId ++
        bytes "` WHERE `player_id` = "
      fields := [⟨cString szPlayer, bytes ";"⟩] }

/-- It asks for the messages of the player, and marks them, in two statements. -/
def dbUnreadChatQuery (szPlayerId : List UInt8) : QueryText where
  szContentEacape := none
  size := 512
  format :=
    { head := bytes "SELECT * FROM private_chat WHERE `readed` = 0 AND `recver_id` = "
      fields := [
        ⟨cString szPlayerId,
          bytes ";UPDATE private_chat SET `readed` = 1 WHERE recver_id = "⟩,
        ⟨cString szPlayerId, bytes ";"⟩] }

/-- The queries that carry strings of players. -/
inductive SqlQuery where
  | groupChat (refChat : StChatNotifyChatGroupChat)
  | chat (refChat : StChatSendChatPrivateChat) (behind : List UInt8) (bReaded : Bool)
  | inviteGroupMember (dwGroupId : UInt32) (szPlayer : List UInt8) (dwJoinTime : UInt32)
  | leaveGroup (dwGroupId : UInt32) (szPlayer : List UInt8)

namespace SqlQuery

variable (escape : List UInt8 → List UInt8)

def text : SqlQuery → QueryText
  | groupChat refChat => dbGroupChatQuery escape refChat
  | chat refChat behind bReaded => dbChatQuery escape refChat behind bReaded
  | inviteGroupMember dwGroupId szPlayer dwJoinTime =>
    dbInviteGroupMemberQuery dwGroupId szPlayer dwJoinTime
  | leaveGroup dwGroupId szPlayer => dbLeaveGroupQuery dwGroupId szPlayer

/-- The strings that it is to carry; an id that fills its array has no NUL. -/
def strings : SqlQuery → List (List UInt8)
  | groupChat refChat => [refChat.szSenderId, refChat.szContent]
  | chat refChat _ _ =>
    [cString refChat.szSenderId.chars, cString refChat.szRecverId.chars, refChat.szContent]
  | inviteGroupMember _ szPlayer _ => [szPlayer]
  | leaveGroup _ szPlayer => [szPlayer]

end SqlQuery

/-! ### Ids in their arrays -/

/-- A string that stands for itself between quotes. -/
def Verbatim (text : List UInt8) : Prop := 0 ∉ text ∧ Plain text

instance : DecidablePred Verbatim := fun _ => inferInstanceAs (Decidable (_ ∧ _))

theorem Verbatim.cString_eq {text : List UInt8} (h : Verbatim text) : cString text = text :=
  (cString_eq_self_iff text).mpr h.1

theorem cString_id {n : Nat} {pStr : CharArray n} {follow : List UInt8}
    (h : pStr.Terminated ∨ cString follow = []) :
    cString (pStr.chars ++ follow) = cString pStr.chars := by
  by_cases hmem : pStr.Terminated
  · exact cString_append_of_mem hmem follow
  · rw [cString_append_of_not_mem hmem, h.resolve_left hmem, List.append_nil,
      (cString_eq_self_iff _).mpr hmem]

/-- An id says itself if it ends in its array, or if nothing follows there. Else what follows up to
the next NUL is taken up by the quotes and backslashes at the end of the id. -/
theorem value_id_iff {n : Nat} (pStr : CharArray n) (follow : List UInt8) :
    value (cString (pStr.chars ++ follow)) = some (cString pStr.chars) ↔
      Plain (cString pStr.chars) ∧ (pStr.Terminated ∨ cString follow = []) ∨
        ¬ pStr.Terminated ∧ Echo pStr.chars (cString follow) := by
  by_cases h : pStr.Terminated
  · simp [cString_append_of_mem h, value_self_iff, h]
  · rw [cString_append_of_not_mem h, (cString_eq_self_iff _).mpr h, value_follow_iff]
    simp [h, and_comm]

/-- The ids of a private message stand for themselves. -/
structure IdsVerbatim (refChat : StChatSendChatPrivateChat) (behind : List UInt8) : Prop where
  sender : Plain (cString refChat.szSenderId.chars)
  senderEnds : refChat.szSenderId.Terminated ∨ cString (refChat.szRecverId.chars ++ behind) = []
  recver : Plain (cString refChat.szRecverId.chars) ∧
      (refChat.szRecverId.Terminated ∨ cString behind = []) ∨
    ¬ refChat.szRecverId.Terminated ∧ Echo refChat.szRecverId.chars (cString behind)

theorem idsVerbatim_iff_of_terminated {refChat : StChatSendChatPrivateChat}
    (h : refChat.Terminated) (behind : List UInt8) : IdsVerbatim refChat behind ↔
      Plain (cString refChat.szSenderId.chars) ∧ Plain (cString refChat.szRecverId.chars) := by
  constructor
  · intro hids
    exact ⟨hids.sender, (hids.recver.resolve_right fun hopen => hopen.1 h.2).1⟩
  · rintro ⟨hsender, hrecver⟩
    exact ⟨hsender, .inl h.1, .inl ⟨hrecver, .inl h.2⟩⟩

/-- A sender's id that fills its array has the recipient's behind it, which is as long if it can be
taken up, and then too long for that. -/
theorem value_ids_iff (refChat : StChatSendChatPrivateChat) (behind : List UInt8) :
    value (cString (refChat.szSenderId.chars ++ (refChat.szRecverId.chars ++ behind))) =
          some (cString refChat.szSenderId.chars) ∧
        value (cString (refChat.szRecverId.chars ++ behind)) =
          some (cString refChat.szRecverId.chars) ↔
      IdsVerbatim refChat behind := by
  constructor
  · rintro ⟨hsender, hrecver⟩
    rcases (value_id_iff _ _).mp hsender with ⟨hplain, hends⟩ | ⟨hopen, hecho⟩
    · exact ⟨hplain, hends, (value_id_iff _ _).mp hrecver⟩
    · exfalso
      have hmarks := hecho.marks_follow
      have hne := hecho.follow_ne_nil
      rcases (value_id_iff _ _).mp hrecver with ⟨hplain, hends⟩ | ⟨hopen', hecho'⟩
      · -- What follows is the recipient's id alone, and plain.
        rw [cString_id hends] at hmarks hne
        exact hne (hplain.eq_nil_of_marks hmarks)
      · have hlen := (value_length hsender).2
        have hbehind := List.length_pos_iff.mpr hecho'.follow_ne_nil
        have hsize := refChat.szSenderId.size
        have hsize' := refChat.szRecverId.size
        rw [cString_append_of_not_mem hopen, cString_append_of_not_mem hopen',
          (cString_eq_self_iff _).mpr hopen] at hlen
        simp only [List.length_append] at hlen
        omega
  · rintro ⟨hplain, hends, hrecver⟩
    exact ⟨(value_id_iff _ _).mpr (.inl ⟨hplain, hends⟩), (value_id_iff _ _).mpr hrecver⟩

/-! ### The formats -/

theorem leads_comma : Leads .code .code (bytes ", ") 2 := by decide +kernel

theorem head_comma (rest : List UInt8) :
    (bytes ", " ++ rest).head?.any (· ≠ 39) = true := head_append (by decide +kernel) rest

/-- A format goes on behind a string with a comma, a number and more of its own. -/
theorem leads_number {text after : List UInt8} {k n : Nat} (htext : Leads .code .code text k)
    (hafter : Leads .code .code after n) (number : UInt32) :
    Leads .code .code (text ++ printInt number ++ after) (k + (printInt number).length + n) :=
  (htext.append (leads_printInt (.inl rfl) number)).append hafter

theorem groupChat_closed (escape : List UInt8 → List UInt8)
    (refChat : StChatNotifyChatGroupChat) :
    (dbGroupChatQuery escape refChat).format.Closed
      (94 + (printInt refChat.dwGroupId).length + (cString refChat.szSenderId).length +
        (printInt refChat.eChatType).length + (cString refChat.szContent).length +
        (printInt refChat.dwSendTime).length) := by
  have hinsert : Leads .code .code (bytes "INSERT INTO group_chat_") 23 := by decide +kernel
  have hvalues : Leads .code .code
      (bytes " (`sender_id`, `chat_type`, `content`, `send_time`) VALUES(") 59 := by
    decide +kernel
  have hend : Leads .code .code (bytes ");") 2 := by decide +kernel
  refine ⟨_, _, leads_number hinsert hvalues _,
    .cons (leads_number leads_comma leads_comma _) ?_ (zero_not_mem_cString _) <|
    .cons (leads_number leads_comma hend _) ?_ (zero_not_mem_cString _) .nil, ?_⟩
  · rw [List.append_assoc]
    exact head_comma _
  · rw [List.append_assoc]
    exact head_comma _
  · dsimp only
    omega

theorem chat_closed (escape : List UInt8 → List UInt8)
    (refChat : StChatSendChatPrivateChat) (behind : List UInt8) (bReaded : Bool) :
    (dbChatQuery escape refChat behind bReaded).format.Closed
      (124 + (cString (refChat.szSenderId.chars ++ (refChat.szRecverId.chars ++ behind))).length +
        (cString (refChat.szRecverId.chars ++ behind)).length +
        (printUInt refChat.eChatType).length + (cString (escape refChat.szContent)).length +
        (printUInt refChat.dwTimeStamp).length) := by
  have hinsert : Leads .code .code
      (bytes "INSERT INTO private_chat (`sender_id`, `recver_id`, `chat_type`, ") 65 := by
    decide +kernel
  have hvalues : Leads .code .code (bytes "`content`, `send_time`, `readed`) VALUES(") 41 := by
    decide +kernel
  have hend : Leads .code .code (bytes ")") 1 := by decide +kernel
  have hreaded : (printUInt (if bReaded then 1 else 0)).length = 1 := by
    cases bReaded <;> decide +kernel
  have hcomma : (bytes ", ").head?.any (· ≠ 39) = true := by decide +kernel
  have hnumber := fun n => leads_printUInt (.inl rfl) n
  refine ⟨_, _, hinsert.append hvalues, .cons leads_comma hcomma (zero_not_mem_cString _) <|
    .cons ((leads_comma.append (hnumber _)).append leads_comma) ?_ (zero_not_mem_cString _) <|
    .cons ((((leads_comma.append (hnumber _)).append leads_comma).append (hnumber _)).append hend)
      ?_ (zero_not_mem_cString _) .nil, ?_⟩
  · rw [List.append_assoc]
    exact head_comma _
  · simp only [List.append_assoc]
    exact head_comma _
  · dsimp only
    omega

/-- The name of a table of members. -/
theorem leads_member {text after : List UInt8} {k n : Nat} (htext : Leads .code .name text k)
    (hafter : Leads .name .code after n) (dwGroupId : UInt32) :
    Leads .code .code (text ++ printInt dwGroupId ++ after)
      (k + (printInt dwGroupId).length + n) :=
  (htext.append (leads_printInt (.inr rfl) dwGroupId)).append hafter

theorem inviteGroupMember_closed (dwGroupId : UInt32) (szPlayer : List UInt8)
    (dwJoinTime : UInt32) :
    (dbInviteGroupMemberQuery dwGroupId szPlayer dwJoinTime).format.Closed
      (46 + (printInt dwGroupId).length + (printInt dwJoinTime).length +
        (cString szPlayer).length) := by
  have hinsert : Leads .code .name (bytes "INSERT INTO `group_member_") 26 := by decide +kernel
  have hvalues : Leads .name .code (bytes "` VALUES (") 10 := by decide +kernel
  have hpower : Leads .code .code (bytes ", 1, ") 5 := by decide +kernel
  have hend : Leads .code .code (bytes ") ;") 3 := by decide +kernel
  refine ⟨_, _, leads_member hinsert hvalues _,
    .cons (leads_number hpower hend _) ?_ (zero_not_mem_cString _) .nil, ?_⟩
  · rw [List.append_assoc]
    exact head_append (by decide +kernel) _
  · dsimp only
    omega

theorem leaveGroup_closed (dwGroupId : UInt32) (szPlayer : List UInt8) :
    (dbLeaveGroupQuery dwGroupId szPlayer).format.Closed
      (51 + (printInt dwGroupId).length + (cString szPlayer).length) := by
  have hdelete : Leads .code .name (bytes "DELETE FROM `group_member_") 26 := by decide +kernel
  have hwhere : Leads .name .code (bytes "` WHERE `player_id` = ") 22 := by decide +kernel
  have hend : Leads .code .code (bytes ";") 1 := by decide +kernel
  have hhead : (bytes ";").head?.any (· ≠ 39) = true := by decide +kernel
  refine ⟨_, _, leads_member hdelete hwhere _,
    .cons hend hhead (zero_not_mem_cString _) .nil, ?_⟩
  dsimp only
  omega

theorem unreadChat_closed (szPlayerId : List UInt8) :
    (dbUnreadChatQuery szPlayerId).format.Closed (125 + 2 * (cString szPlayerId).length) := by
  have hselect : Leads .code .code
      (bytes "SELECT * FROM private_chat WHERE `readed` = 0 AND `recver_id` = ") 64 := by
    decide +kernel
  have hupdate : Leads .code .code
      (bytes ";UPDATE private_chat SET `readed` = 1 WHERE recver_id = ") 56 := by
    decide +kernel
  have hend : Leads .code .code (bytes ";") 1 := by decide +kernel
  have hhead : (bytes ";UPDATE private_chat SET `readed` = 1 WHERE recver_id = ").head?.any
      (· ≠ 39) = true := by
    decide +kernel
  have hhead' : (bytes ";").head?.any (· ≠ 39) = true := by decide +kernel
  refine ⟨_, _, hselect, .cons hupdate hhead (zero_not_mem_cString _) <|
    .cons hend hhead' (zero_not_mem_cString _) .nil, ?_⟩
  dsimp only
  omega

/-! ### Which texts are safe -/

theorem QueryText.safe_iff {q : QueryText} {n : Nat} (h : q.format.Closed n)
    (strings : List (List UInt8)) :
    q.Safe strings ↔ q.format.fields.map (value ·.body) = strings.map some ∧ n < q.size ∧
      ∀ buf ∈ q.szContentEacape, buf.Fits := by
  have hstr : q.strQuery = q.format.text := (cString_eq_self_iff _).mpr h.zero_not_mem
  have hfits : q.szTemp.Fits ↔ n < q.size := by rw [← h.length]; rfl
  rw [← h.strings_iff, ← hfits, ← hstr]
  exact ⟨fun hsafe => ⟨hsafe.strings, hsafe.temp, hsafe.escape⟩,
    fun ⟨hstrings, htemp, hescape⟩ => ⟨htemp, hescape, hstrings⟩⟩

namespace SqlQuery

/-- The strings that are printed as they are stand for themselves, and there is room. -/
def Harmless (escape : List UInt8 → List UInt8) : SqlQuery → Prop
  | groupChat refChat =>
    Verbatim refChat.szSenderId ∧ Verbatim refChat.szContent ∧
      (escape refChat.szContent).length ≤ 6144 ∧
      94 + (printInt refChat.dwGroupId).length + refChat.szSenderId.length +
        (printInt refChat.eChatType).length + refChat.szContent.length +
        (printInt refChat.dwSendTime).length ≤ 6144
  | chat refChat behind _ =>
    IdsVerbatim refChat behind ∧
      124 + (cString refChat.szSenderId.chars).length +
        (cString (refChat.szRecverId.chars ++ behind)).length +
        (printUInt refChat.eChatType).length + (escape refChat.szContent).length +
        (printUInt refChat.dwTimeStamp).length ≤ 6144
  | inviteGroupMember dwGroupId szPlayer dwJoinTime =>
    Verbatim szPlayer ∧
      46 + (printInt dwGroupId).length + (printInt dwJoinTime).length + szPlayer.length ≤ 511
  | leaveGroup dwGroupId szPlayer =>
    Verbatim szPlayer ∧ 51 + (printInt dwGroupId).length + szPlayer.length ≤ 511

/-- A query with one string in it. -/
theorem safe_one_iff {q : QueryText} {szPlayer after : List UInt8} {n : Nat}
    (hfields : q.format.fields = [⟨cString szPlayer, after⟩]) (hnone : q.szContentEacape = none)
    (h : q.format.Closed (n + (cString szPlayer).length)) :
    q.Safe [szPlayer] ↔ Verbatim szPlayer ∧ n + szPlayer.length < q.size := by
  rw [QueryText.safe_iff h, hfields, hnone]
  constructor
  · rintro ⟨hvalue, hlen, -⟩
    have hverbatim : Verbatim szPlayer := (value_cString_iff _).mp (List.cons.inj hvalue).1
    rw [hverbatim.cString_eq] at hlen
    exact ⟨hverbatim, hlen⟩
  · rintro ⟨hverbatim, hlen⟩
    have hvalue := (value_cString_iff _).mpr hverbatim
    refine ⟨by simp [hvalue], ?_, by simp⟩
    rwa [hverbatim.cString_eq]

theorem safe_one_iff_fits {q : QueryText} {szPlayer after : List UInt8} {n : Nat}
    (hfields : q.format.fields = [⟨cString szPlayer, after⟩]) (hnone : q.szContentEacape = none)
    (h : q.format.Closed (n + (cString szPlayer).length)) :
    q.Safe [szPlayer] ↔ Verbatim szPlayer ∧ q.szTemp.Fits := by
  rw [safe_one_iff hfields hnone h]
  refine and_congr_right fun hverbatim => ?_
  have hlen := h.length
  rw [hverbatim.cString_eq] at hlen
  rw [CharBuf.Fits, QueryText.szTemp, hlen]

/-- An id that is shorter than its array fits twice. -/
theorem unreadChat_safe {szPlayerId : List UInt8} (h : Verbatim szPlayerId)
    (hlt : szPlayerId.length < idLenth) :
    (dbUnreadChatQuery szPlayerId).Safe [szPlayerId, szPlayerId] := by
  have hvalue := (value_cString_iff _).mpr h
  rw [QueryText.safe_iff (unreadChat_closed szPlayerId), h.cString_eq]
  refine ⟨by simp [dbUnreadChatQuery, hvalue], ?_, fun _ hbuf => nomatch hbuf⟩
  have hsize : (dbUnreadChatQuery szPlayerId).size = 512 := rfl
  rw [idLenth] at hlt
  omega

theorem groupChat_safe_iff (escape : List UInt8 → List UInt8)
    (refChat : StChatNotifyChatGroupChat) :
    (dbGroupChatQuery escape refChat).Safe [refChat.szSenderId, refChat.szContent] ↔
      (groupChat refChat).Harmless escape := by
  rw [QueryText.safe_iff (groupChat_closed escape refChat)]
  constructor
  · rintro ⟨hvalues, hlen, hescape⟩
    obtain ⟨hsender, hcontent⟩ := List.cons.inj hvalues
    have hsender : Verbatim refChat.szSenderId := (value_cString_iff _).mp hsender
    have hcontent : Verbatim refChat.szContent :=
      (value_cString_iff _).mp (List.cons.inj hcontent).1
    rw [hsender.cString_eq, hcontent.cString_eq] at hlen
    exact ⟨hsender, hcontent, Nat.lt_succ_iff.mp (hescape _ rfl), Nat.lt_succ_iff.mp hlen⟩
  · rintro ⟨hsender, hcontent, hescape, hlen⟩
    have hsays := (value_cString_iff _).mpr hsender
    have hsays' := (value_cString_iff _).mpr hcontent
    refine ⟨by simp [dbGroupChatQuery, hsays, hsays'], ?_, fun buf hbuf => ?_⟩
    · rw [hsender.cString_eq, hcontent.cString_eq]
      exact Nat.lt_succ_iff.mpr hlen
    · obtain rfl := Option.some.inj hbuf
      exact Nat.lt_succ_iff.mpr hescape

theorem chat_safe_iff {escape : List UInt8 → List UInt8} (hescape : Escapes escape)
    (refChat : StChatSendChatPrivateChat) (behind : List UInt8) (bReaded : Bool) :
    (dbChatQuery escape refChat behind bReaded).Safe
        [cString refChat.szSenderId.chars, cString refChat.szRecverId.chars, refChat.szContent] ↔
      (chat refChat behind bReaded).Harmless escape := by
  have hcontent : cString (escape refChat.szContent) = escape refChat.szContent :=
    (cString_eq_self_iff _).mpr (hescape.zero_not_mem _)
  have hvalue : value (cString (escape refChat.szContent)) = some refChat.szContent := by
    rw [hcontent]
    exact hescape.value _
  rw [QueryText.safe_iff (chat_closed escape refChat behind bReaded), hcontent]
  constructor
  · rintro ⟨hvalues, hlen, -⟩
    obtain ⟨hsender, hrest⟩ := List.cons.inj hvalues
    have hids := (value_ids_iff refChat behind).mp ⟨hsender, (List.cons.inj hrest).1⟩
    rw [cString_id hids.senderEnds] at hlen
    exact ⟨hids, Nat.lt_succ_iff.mp hlen⟩
  · rintro ⟨hids, hlen⟩
    obtain ⟨hsender, hrecver⟩ := (value_ids_iff refChat behind).mpr hids
    refine ⟨by simp [dbChatQuery, hsender, hrecver, hvalue], ?_, fun buf hbuf => ?_⟩
    · rw [cString_id hids.senderEnds]
      exact Nat.lt_succ_iff.mpr hlen
    · obtain rfl := Option.some.inj hbuf
      have hroom : (escape refChat.szContent).length < 6145 := by omega
      exact hroom

/-- Every query is safe exactly if it is harmless. -/
theorem safe_iff_harmless {escape : List UInt8 → List UInt8} (hescape : Escapes escape)
    (q : SqlQuery) : (q.text escape).Safe q.strings ↔ q.Harmless escape := by
  cases q with
  | groupChat refChat => exact groupChat_safe_iff escape refChat
  | chat refChat behind bReaded => exact chat_safe_iff hescape refChat behind bReaded
  | inviteGroupMember dwGroupId szPlayer dwJoinTime =>
    exact (safe_one_iff rfl rfl (inviteGroupMember_closed dwGroupId szPlayer dwJoinTime)).trans
      (and_congr_right fun _ => Nat.lt_succ_iff)
  | leaveGroup dwGroupId szPlayer =>
    exact (safe_one_iff rfl rfl (leaveGroup_closed dwGroupId szPlayer)).trans
      (and_congr_right fun _ => Nat.lt_succ_iff)

def mysqlEscape (text : List UInt8) : List UInt8 := text.flatMap SqlText.escape

theorem escapes_mysqlEscape : Escapes mysqlEscape where
  value := value_flatMap_escape
  zero_not_mem text h := by
    obtain ⟨c, -, hc⟩ := List.mem_flatMap.mp h
    exact zero_not_mem_escape c hc

def hello : StChatNotifyChatGroupChat := ⟨7, bytes "bob", 1, bytes "hello", 1700000000⟩

theorem safe_iff_harmless_hello :
    ((groupChat hello).text mysqlEscape).Safe (groupChat hello).strings :=
  (safe_iff_harmless escapes_mysqlEscape (groupChat hello)).mpr
    ⟨⟨by decide +kernel, by decide +kernel⟩, ⟨by decide +kernel, by decide +kernel⟩,
      by decide +kernel, by decide +kernel⟩

/-- A group is told that something is somebody's. -/
def bobs : StChatNotifyChatGroupChat := ⟨7, bytes "bob", 1, bytes "bob's", 1700000000⟩

/-- The content has been escaped, but is printed as it came. -/
theorem not_safe_of_quote : Escapes mysqlEscape ∧
    ¬ ((groupChat bobs).text mysqlEscape).Safe (groupChat bobs).strings := by
  refine ⟨escapes_mysqlEscape, fun h => ?_⟩
  have hcontent := ((groupChat_safe_iff mysqlEscape bobs).mp h).2.1.2
  have hquote : ¬ Plain bobs.szContent := by decide +kernel
  exact hquote hcontent

end SqlQuery

end ChatServer
