import FxLib.Chat.ChatGroup
import FxLib.Meta.ChatDefine

/-!
# The way of a group message

The server of a group hands its message to the members of its own hash indices, and for each other
hash index sends it with the list of the members to the server under that index.
-/

namespace ChatServer

open CNetStream Codec

/-- `Protocol::CHAT_NOTIFY_CHAT_GROUP_MEMBER_CHAT`. -/
def chatNotifyChatGroupMemberChat : UInt32 := 10006

/-- `Protocol::CHAT_NOTIFY_PLAYER_GROUP_CHAT`. -/
def chatNotifyPlayerGroupChat : UInt32 := 35004

/-- `g_dwChatPlayerBuffLen` and `g_dwChatServerSessionBuffLen`. -/
def buffLen : Nat := 64 * 1024

/-- `GetRecvSize` of a session between two servers. -/
def recvSize : Nat := 64 * 1024

/-- `GetHeaderLength` of its `BinaryDataHeader`. -/
def headerLength : Nat := 8

/-- What goes to `Send`: what has been written to the start of a static buffer. -/
def packet (pieces : List (List UInt8)) : List UInt8 :=
  let oStream : WriteStream := ⟨fun _ => 0, 0, buffLen, by decide⟩
  oStream.produced (WriteStream.writeAll pieces oStream)

def playerPieces (oChat : StChatNotifyPlayerGroupChat) : List (List UInt8) :=
  intPiece chatNotifyPlayerGroupChat :: oChat.pieces

def memberPieces (oMemberChat : StChatNotifyChatGroupMemberChat) : List (List UInt8) :=
  intPiece chatNotifyChatGroupMemberChat :: oMemberChat.pieces

/-- The chat servers as they are when the message goes out. A session of a player is taken up with
whether its connection takes the packet, one of another server with where it leads and whether its
connection takes the packet of a hash index. -/
structure ChatServers where
  chatServerNum : Nat
  manager : Nat → ChatPlayerManager
  playerTakes : Nat → Nat → Bool
  mapSessionIpPort : Nat → Nat → Option Nat
  farEnd : Nat → Nat → Nat
  serverTakes : Nat → Nat → UInt8 → Bool

/-- A packet that a player's session has taken. -/
structure PlayerSend where
  serverId : Nat
  szPlayerId : PlayerId
  pSession : Nat
  packet : List UInt8
  deriving DecidableEq

/-- A packet that the session of another server has taken. -/
structure MemberSend where
  oMemberChat : StChatNotifyChatGroupMemberChat
  packet : List UInt8

/-- What has come of a message: which server has looked for which member, and the packets. -/
structure FanOut where
  handed : List (Nat × PlayerId)
  servers : List MemberSend
  players : List PlayerSend

namespace ChatServers

def checkHashIndex (s : ChatServers) (i dwHashIndex : Nat) : Bool :=
  dwHashIndex ∈ hashIndices s.chatServerNum i

/-- `GetChatPlayer` of a member, and `ChatPlayer::OnGroupChat`. -/
def onGroupChatPlayer (s : ChatServers) (i : Nat) (oChat : StChatNotifyPlayerGroupChat)
    (szPlayerId : PlayerId) : List PlayerSend :=
  match (s.manager i).getChatPlayer szPlayerId with
  | none => []
  | some player =>
    if s.playerTakes i player.pSession then
      [⟨i, szPlayerId, player.pSession, packet (playerPieces oChat)⟩]
    else []

variable (o : HostOrder)

/-- `OnChatToChatGroupMemberChat`: which members it looks for, and the packets to them. -/
def onChatToChatGroupMemberChat (s : ChatServers) (j : Nat) (pBuf : List UInt8) :
    List PlayerId × List PlayerSend :=
  match StChatNotifyChatGroupMemberChat.read o (ofBytes pBuf) with
  | none => ([], [])
  | some (m, _) => (m.vecPlayerIds, m.vecPlayerIds.flatMap (s.onGroupChatPlayer j m.oChat))

/-- `ChatServerSession::OnRecv`, as far as this message goes. -/
def onRecv (s : ChatServers) (j : Nat) (pBuf : List UInt8) : List PlayerId × List PlayerSend :=
  match readUInt32 o (ofBytes pBuf) with
  | none => ([], [])
  | some (eProrocol, _) =>
    if eProrocol = chatNotifyChatGroupMemberChat then
      s.onChatToChatGroupMemberChat o j (pBuf.drop 4)
    else ([], [])

/-- `__ProcRecv` at the other end: the packet with its header goes to `OnRecv` if it has room in the
buffer of the session, else the connection is closed. -/
def procRecv (s : ChatServers) (j : Nat) (pBuf : List UInt8) : List PlayerId × List PlayerSend :=
  if recvSize < headerLength + pBuf.length then ([], []) else s.onRecv o j pBuf

/-- `ChatServerSession::OnGroupMemberChat`, and what the server at the other end does. -/
def onGroupMemberChat (s : ChatServers) (i session : Nat) (dwHash : UInt8)
    (m : StChatNotifyChatGroupMemberChat) : FanOut :=
  if s.serverTakes i session dwHash then
    let j := s.farEnd i session
    let result := s.procRecv o j (packet (memberPieces m))
    ⟨result.1.map (j, ·), [⟨m, packet (memberPieces m)⟩], result.2⟩
  else ⟨[], [], []⟩

/-- One round of the loop of `ChatGroup::OnGroupChat`. -/
def onBucket (s : ChatServers) (i : Nat) (oChat : StChatNotifyPlayerGroupChat)
    (it : UInt8 × OrderedMap PlayerId ChatGroupMember) : FanOut :=
  if s.checkHashIndex i it.1.toNat then
    ⟨it.2.keys.map (i, ·), [], it.2.keys.flatMap (s.onGroupChatPlayer i oChat)⟩
  else
    match s.mapSessionIpPort i (hashToIndex (o.bytes 4 it.1.toNat)).toNat with
    | none => ⟨[], [], []⟩
    | some session => s.onGroupMemberChat o i session it.1 ⟨it.2.keys, oChat⟩

/-- `ChatGroup::OnGroupChat` on the server `i`. -/
def onGroupChat (s : ChatServers) (i : Nat) (g : ChatGroup) (oChat : StChatNotifyPlayerGroupChat) :
    FanOut :=
  let rounds := g.mapChatGroupMembers.entries.map (s.onBucket o i oChat)
  ⟨rounds.flatMap FanOut.handed, rounds.flatMap FanOut.servers, rounds.flatMap FanOut.players⟩

/-- What a player's client reads from a packet. -/
def readPlayer : ReadM (UInt32 × StChatNotifyPlayerGroupChat) := do
  let eProtocol ← readUInt32 o
  let oChat ← StChatNotifyChatGroupChat.read o
  return (eProtocol, oChat)

/-- What a chat server reads from a packet. -/
def readMember : ReadM (UInt32 × StChatNotifyChatGroupMemberChat) := do
  let eProtocol ← readUInt32 o
  let oMemberChat ← StChatNotifyChatGroupMemberChat.read o
  return (eProtocol, oMemberChat)

/-- The server of a player's hash index. -/
def owner (s : ChatServers) (szPlayerId : PlayerId) : Nat :=
  (hashToIndex szPlayerId).toNat % s.chatServerNum

/-- Each member is handed once to the server of its hash index and to no other, and if it is online
there, its session takes one packet; and every packet that is sent has its whole message in it. -/
structure FansOut (s : ChatServers) (g : ChatGroup) (oChat : StChatNotifyPlayerGroupChat)
    (out : FanOut) : Prop where
  handed : ∀ serverId szPlayerId, out.handed.count (serverId, szPlayerId) =
    if (g.getChatGroupMember szPlayerId).isSome ∧ serverId = s.owner szPlayerId then 1 else 0
  online : ∀ szPlayerId player, (g.getChatGroupMember szPlayerId).isSome →
    (s.manager (s.owner szPlayerId)).getChatPlayer szPlayerId = some player →
    ∃ bytes, out.players.filter (fun r => r.szPlayerId = szPlayerId) =
      [⟨s.owner szPlayerId, szPlayerId, player.pSession, bytes⟩]
  servers : ∀ r ∈ out.servers,
    Decodes content (readMember o) r.packet (chatNotifyChatGroupMemberChat, r.oMemberChat)
  players : ∀ r ∈ out.players,
    Decodes content (readPlayer o) r.packet (chatNotifyPlayerGroupChat, oChat)

/-- The message fits the static buffer, and its strings their lengths. -/
def FitsPlayer (oChat : StChatNotifyPlayerGroupChat) : Prop :=
  Brief oChat.strings ∧ (playerPieces oChat).flatten.length ≤ buffLen

def FitsMember (m : StChatNotifyChatGroupMemberChat) : Prop :=
  Brief m.strings ∧ (memberPieces m).flatten.length ≤ buffLen

/-- It fits the buffer at the other end as well. -/
def IsReceived (m : StChatNotifyChatGroupMemberChat) : Prop :=
  FitsMember m ∧ headerLength + (memberPieces m).flatten.length ≤ recvSize

/-- If the player is online its session takes the message, and the message fits. -/
def ReachesPlayer (s : ChatServers) (i : Nat) (oChat : StChatNotifyPlayerGroupChat)
    (szPlayerId : PlayerId) : Prop :=
  ∀ player, (s.manager i).getChatPlayer szPlayerId = some player →
    s.playerTakes i player.pSession = true ∧ FitsPlayer oChat

/-- The condition on one hash index of the group: where it is another server's, the session under it
leads there and takes the message, and the message with all members fits both buffers. -/
def Reaches (s : ChatServers) (i : Nat) (oChat : StChatNotifyPlayerGroupChat)
    (it : UInt8 × OrderedMap PlayerId ChatGroupMember) : Prop :=
  if s.checkHashIndex i it.1.toNat then ∀ id ∈ it.2.keys, s.ReachesPlayer i oChat id
  else if it.2.keys = [] then
    ∀ session, s.mapSessionIpPort i it.1.toNat = some session →
      s.serverTakes i session it.1 = true → FitsMember ⟨[], oChat⟩
  else
    ∃ session, s.mapSessionIpPort i it.1.toNat = some session ∧
      s.serverTakes i session it.1 = true ∧
      s.farEnd i session = it.1.toNat % s.chatServerNum ∧ IsReceived ⟨it.2.keys, oChat⟩ ∧
      ∀ id ∈ it.2.keys, s.ReachesPlayer (it.1.toNat % s.chatServerNum) oChat id

/-! ### Packets -/

theorem packet_eq (pieces : List (List UInt8)) : packet pieces = fit buffLen pieces :=
  WriteStream.produced_writeAll pieces _

variable {o} {s : ChatServers} {i : Nat} {oChat : StChatNotifyPlayerGroupChat}
  {m : StChatNotifyChatGroupMemberChat}

theorem decodes_player (oChat : StChatNotifyPlayerGroupChat) :
    Decodes content (readPlayer o) (playerPieces oChat).flatten
      (chatNotifyPlayerGroupChat, oChat.wire) :=
  (decodes_readUInt32 o _).bind ((oChat.decodes_pieces o).map _)

/-- A player's packet has its whole message in it if and only if the message fits. -/
theorem decodes_packet_player : Decodes content (readPlayer o) (packet (playerPieces oChat))
    (chatNotifyPlayerGroupChat, oChat) ↔ FitsPlayer oChat := by
  rw [packet_eq, decodes_fit_iff (decodes_player oChat) fun bytes => ⟨_, content_ofBytes bytes⟩,
    FitsPlayer, ← oChat.wire_eq_iff, and_comm]
  simp

theorem decodes_packet_member : Decodes content (readMember o) (packet (memberPieces m))
    (chatNotifyChatGroupMemberChat, m) ↔ FitsMember m := by
  have hshort : m.vecPlayerIds.length < 4294967296 → (Decodes content (readMember o)
      (packet (memberPieces m)) (chatNotifyChatGroupMemberChat, m) ↔ FitsMember m) := by
    intro hlen
    rw [packet_eq, decodes_fit_iff ((decodes_readUInt32 o _).bind ((m.decodes_pieces o hlen).map _))
      fun bytes => ⟨_, content_ofBytes bytes⟩, FitsMember, ← m.wire_eq_iff, and_comm]
    simp [memberPieces, intPiece]
  constructor
  · intro h
    obtain ⟨s', hread, -⟩ := h (ofBytes (packet (memberPieces m))) []
      (by rw [content_ofBytes, List.append_nil])
    obtain ⟨⟨eProtocol, s₁⟩, -, hrest⟩ := Option.bind_eq_some_iff.mp hread
    obtain ⟨⟨m', s₂⟩, hm, hlast⟩ := Option.bind_eq_some_iff.mp hrest
    obtain ⟨hpair, -⟩ := Prod.mk.inj (Option.some.inj hlast)
    obtain ⟨-, rfl⟩ := Prod.mk.inj hpair
    exact (hshort (StChatNotifyChatGroupMemberChat.length_lt_of_read o hm)).mp h
  · intro h
    refine (hshort ?_).mpr h
    have hle := m.length_le
    have hfits := h.2
    rw [memberPieces, List.flatten_cons, List.length_append] at hfits
    rw [buffLen] at hfits
    omega

/-- A server reads the message it has been sent. -/
theorem onRecv_of_fits (h : FitsMember m) (j : Nat) :
    s.onRecv o j (packet (memberPieces m)) =
      (m.vecPlayerIds, m.vecPlayerIds.flatMap (s.onGroupChatPlayer j m.oChat)) := by
  have hpacket : packet (memberPieces m) =
      intPiece chatNotifyChatGroupMemberChat ++ m.pieces.flatten := by
    rw [packet_eq, fit_of_le h.2, memberPieces, List.flatten_cons]
  have hlen : m.vecPlayerIds.length < 4294967296 := by
    have hle := m.length_le
    have hfits := h.2
    rw [memberPieces, List.flatten_cons, List.length_append, buffLen] at hfits
    omega
  obtain ⟨s₁, hint, -⟩ := decodes_readUInt32 o chatNotifyChatGroupMemberChat
    (ofBytes (packet (memberPieces m))) m.pieces.flatten (by rw [content_ofBytes, hpacket]; rfl)
  obtain ⟨s₂, hread, -⟩ := m.decodes_pieces o hlen (ofBytes m.pieces.flatten) []
    (by rw [content_ofBytes, List.append_nil])
  rw [m.wire_eq_iff.mpr h.1] at hread
  have hdrop : (packet (memberPieces m)).drop 4 = m.pieces.flatten := by
    rw [hpacket, List.drop_left' (by simp [intPiece])]
  simp only [onRecv, hint, if_true, onChatToChatGroupMemberChat, hdrop, hread]

/-- What goes to `Send` if it fits is as long as what has been written. -/
theorem length_packet (h : FitsMember m) :
    (packet (memberPieces m)).length = (memberPieces m).flatten.length := by
  rw [packet_eq, fit_of_le h.2]

theorem procRecv_of_isReceived (h : IsReceived m) (j : Nat) :
    s.procRecv o j (packet (memberPieces m)) =
      (m.vecPlayerIds, m.vecPlayerIds.flatMap (s.onGroupChatPlayer j m.oChat)) := by
  rw [procRecv, length_packet h.1, if_neg (Nat.not_lt.mpr h.2), onRecv_of_fits h.1]

/-- A packet that is whole is received, or closes the connection. -/
theorem procRecv_cases (h : FitsMember m) (s : ChatServers) (o : HostOrder) (j : Nat) :
    s.procRecv o j (packet (memberPieces m)) = ([], []) ∨ IsReceived m := by
  by_cases hroom : recvSize < headerLength + (memberPieces m).flatten.length
  · rw [procRecv, length_packet h, if_pos hroom]
    exact .inl rfl
  · exact .inr ⟨h, Nat.not_lt.mp hroom⟩

/-! ### Hash indices -/

/-- The hash index of a hash index. -/
theorem hashToIndex_bytes (o : HostOrder) (dwHash : UInt8) :
    hashToIndex (o.bytes 4 dwHash.toNat) = dwHash := by
  have hlt := dwHash.toNat_lt
  have hbytes : ByteOrder.bytes 4 dwHash.toNat = [0, 0, 0, dwHash] := by
    have hdiv : ∀ k, dwHash.toNat / 256 ^ (k + 1) = 0 := fun k =>
      Nat.div_eq_of_lt (hlt.trans_le (by simpa using Nat.le_self_pow (by omega) 256))
    simp only [ByteOrder.bytes, hdiv, pow_zero, Nat.div_one, UInt8.ofNat_toNat]
    rfl
  cases o with
  | little =>
    rw [HostOrder.bytes, hbytes]
    simp [hashToIndex]
  | big =>
    rw [HostOrder.bytes, hbytes]
    simp [hashToIndex]

/-! ### One hash index -/

/-- The packet that a member should get. -/
def expected (s : ChatServers) (oChat : StChatNotifyPlayerGroupChat) (szPlayerId : PlayerId) :
    List PlayerSend :=
  match (s.manager (s.owner szPlayerId)).getChatPlayer szPlayerId with
  | none => []
  | some player =>
    [⟨s.owner szPlayerId, szPlayerId, player.pSession, packet (playerPieces oChat)⟩]

theorem onGroupChatPlayer_of_reaches {szPlayerId : PlayerId}
    (h : s.ReachesPlayer (s.owner szPlayerId) oChat szPlayerId) :
    s.onGroupChatPlayer (s.owner szPlayerId) oChat szPlayerId = s.expected oChat szPlayerId := by
  rw [onGroupChatPlayer, expected]
  cases hplayer : (s.manager (s.owner szPlayerId)).getChatPlayer szPlayerId with
  | none => rfl
  | some player => simp only [(h player hplayer).1, if_true]

theorem flatMap_onGroupChatPlayer {ids : List PlayerId} {j : Nat}
    (howner : ∀ id ∈ ids, s.owner id = j) (h : ∀ id ∈ ids, s.ReachesPlayer j oChat id) :
    ids.flatMap (s.onGroupChatPlayer j oChat) = ids.flatMap (s.expected oChat) := by
  refine List.flatMap_congr fun id hid => ?_
  have hreaches := h id hid
  rw [← howner id hid] at hreaches ⊢
  exact onGroupChatPlayer_of_reaches hreaches

variable {g : ChatGroup} {it : UInt8 × OrderedMap PlayerId ChatGroupMember}

theorem owner_of_mem (hit : it ∈ g.mapChatGroupMembers.entries) {id : PlayerId}
    (hid : id ∈ it.2.keys) : s.owner id = it.1.toNat % s.chatServerNum := by
  rw [owner, ChatGroup.hashed_entry hit hid]

theorem mod_of_checkHashIndex {dwHash : UInt8} (h : s.checkHashIndex i dwHash.toNat = true) :
    dwHash.toNat % s.chatServerNum = i := by
  simp only [checkHashIndex, decide_eq_true_eq, mem_hashIndices] at h
  exact h.2

/-- What comes of one round of the loop where its hash index is reached. -/
structure RoundOut (o : HostOrder) (s : ChatServers) (oChat : StChatNotifyPlayerGroupChat)
    (ids : List PlayerId) (out : FanOut) : Prop where
  handed : out.handed = ids.map fun id => (s.owner id, id)
  players : out.players = ids.flatMap (s.expected oChat)
  servers : ∀ r ∈ out.servers,
    Decodes content (readMember o) r.packet (chatNotifyChatGroupMemberChat, r.oMemberChat)

theorem roundOut_of_reaches (hit : it ∈ g.mapChatGroupMembers.entries)
    (h : s.Reaches i oChat it) : RoundOut o s oChat it.2.keys (s.onBucket o i oChat it) := by
  have howner : ∀ id ∈ it.2.keys, s.owner id = it.1.toNat % s.chatServerNum :=
    fun id hid => owner_of_mem hit hid
  rw [Reaches] at h
  rw [onBucket]
  by_cases hlocal : s.checkHashIndex i it.1.toNat = true
  · rw [if_pos hlocal] at h ⊢
    rw [mod_of_checkHashIndex hlocal] at howner
    refine ⟨?_, flatMap_onGroupChatPlayer howner h, fun r hr => absurd hr List.not_mem_nil⟩
    exact List.map_congr_left fun id hid => by rw [howner id hid]
  · rw [if_neg hlocal] at h ⊢
    rw [hashToIndex_bytes]
    by_cases hempty : it.2.keys = []
    · rw [if_pos hempty] at h
      rw [hempty]
      cases hsession : s.mapSessionIpPort i it.1.toNat with
      | none => exact ⟨rfl, rfl, fun r hr => absurd hr List.not_mem_nil⟩
      | some session =>
        simp only [onGroupMemberChat]
        split_ifs with htakes
        · have hfits := h session hsession htakes
          have hnone : s.procRecv o (s.farEnd i session) (packet (memberPieces ⟨[], oChat⟩)) =
              ([], []) := by
            rcases procRecv_cases hfits s o (s.farEnd i session) with hclosed | hreceived
            · exact hclosed
            · exact procRecv_of_isReceived hreceived _
          rw [hnone]
          refine ⟨rfl, rfl, fun r hr => ?_⟩
          obtain rfl := List.mem_singleton.mp hr
          exact decodes_packet_member.mpr hfits
        · exact ⟨rfl, rfl, fun r hr => absurd hr List.not_mem_nil⟩
    · rw [if_neg hempty] at h
      obtain ⟨session, hsession, htakes, hfar, hreceived, hreaches⟩ := h
      simp only [hsession, onGroupMemberChat, htakes, if_true, hfar,
        procRecv_of_isReceived hreceived]
      refine ⟨?_, flatMap_onGroupChatPlayer howner hreaches, fun r hr => ?_⟩
      · exact List.map_congr_left fun id hid => by rw [howner id hid]
      · obtain rfl := List.mem_singleton.mp hr
        exact decodes_packet_member.mpr hreceived.1

theorem reachesPlayer_of_reaches (hit : it ∈ g.mapChatGroupMembers.entries)
    (h : s.Reaches i oChat it) {id : PlayerId} (hid : id ∈ it.2.keys) :
    s.ReachesPlayer (s.owner id) oChat id := by
  rw [owner_of_mem hit hid]
  rw [Reaches] at h
  by_cases hlocal : s.checkHashIndex i it.1.toNat = true
  · rw [if_pos hlocal] at h
    rw [mod_of_checkHashIndex hlocal]
    exact h id hid
  · rw [if_neg hlocal, if_neg (List.ne_nil_of_mem hid)] at h
    obtain ⟨session, -, -, -, -, hreaches⟩ := h
    exact hreaches id hid

/-! ### All hash indices -/

theorem filter_expected (id id' : PlayerId) :
    (s.expected oChat id').filter (fun r => r.szPlayerId = id) =
      if id' = id then s.expected oChat id' else [] := by
  rw [expected]
  split
  · split_ifs <;> rfl
  · rw [List.filter_singleton]
    simp

/-- Among the packets of distinct members those of one member are its own. -/
theorem filter_flatMap_expected {ids : List PlayerId} (hnodup : ids.Nodup) (id : PlayerId) :
    (ids.flatMap (s.expected oChat)).filter (fun r => r.szPlayerId = id) =
      if id ∈ ids then s.expected oChat id else [] := by
  induction ids with
  | nil => rfl
  | cons id' ids ih =>
    obtain ⟨hnot, hrest⟩ := List.nodup_cons.mp hnodup
    rw [List.flatMap_cons, List.filter_append, ih hrest, filter_expected]
    by_cases hid : id' = id
    · subst hid
      simp [hnot]
    · simp [hid, Ne.symm hid]

theorem fansOut_of_reaches (h : ∀ it ∈ g.mapChatGroupMembers.entries, s.Reaches i oChat it) :
    FansOut o s g oChat (s.onGroupChat o i g oChat) := by
  have hround : ∀ it ∈ g.mapChatGroupMembers.entries,
      RoundOut o s oChat it.2.keys (s.onBucket o i oChat it) :=
    fun it hit => roundOut_of_reaches hit (h it hit)
  have hhanded : (s.onGroupChat o i g oChat).handed =
      g.playerIds.map fun id => (s.owner id, id) := by
    simp only [onGroupChat, ChatGroup.playerIds, List.flatMap_map, List.map_flatMap]
    exact List.flatMap_congr fun it hit => (hround it hit).handed
  have hplayers : (s.onGroupChat o i g oChat).players =
      g.playerIds.flatMap (s.expected oChat) := by
    simp only [onGroupChat, ChatGroup.playerIds, List.flatMap_map, List.flatMap_assoc]
    exact List.flatMap_congr fun it hit => (hround it hit).players
  have hnodup := g.nodup_playerIds
  refine ⟨fun serverId id => ?_, fun id player hid hplayer => ?_, fun r hr => ?_, fun r hr => ?_⟩
  · rw [hhanded]
    split_ifs with hid
    · refine List.count_eq_one_of_mem (hnodup.map fun a b hab => (Prod.mk.inj hab).2) ?_
      exact List.mem_map.mpr ⟨id, ChatGroup.mem_playerIds.mpr hid.1, by rw [hid.2]⟩
    · refine List.count_eq_zero_of_not_mem fun hin => hid ?_
      obtain ⟨id', hid', hpair⟩ := List.mem_map.mp hin
      obtain ⟨rfl, rfl⟩ := Prod.mk.inj hpair
      exact ⟨ChatGroup.mem_playerIds.mp hid', rfl⟩
  · rw [hplayers, filter_flatMap_expected hnodup, if_pos (ChatGroup.mem_playerIds.mpr hid),
      expected]
    simp only [hplayer]
    exact ⟨_, rfl⟩
  · obtain ⟨out, hout, hr⟩ := List.mem_flatMap.mp hr
    obtain ⟨it, hit, rfl⟩ := List.mem_map.mp hout
    exact (hround it hit).servers r hr
  · rw [hplayers] at hr
    obtain ⟨id, hid, hr⟩ := List.mem_flatMap.mp hr
    obtain ⟨it, hit, hid⟩ := List.mem_flatMap.mp hid
    have hreaches := reachesPlayer_of_reaches hit (h it hit) hid
    rw [expected] at hr
    cases hplayer : (s.manager (s.owner id)).getChatPlayer id with
    | none => simp [hplayer] at hr
    | some player =>
      simp only [hplayer, List.mem_singleton] at hr
      rw [hr]
      exact decodes_packet_player.mpr (hreaches player hplayer).2

/-! ### The condition is needed -/

/-- A packet that has been taken is for a player that is online. -/
def Taken (s : ChatServers) (r : PlayerSend) : Prop :=
  ∃ player, (s.manager r.serverId).getChatPlayer r.szPlayerId = some player ∧
    s.playerTakes r.serverId player.pSession = true

theorem taken_onGroupChatPlayer {j : Nat} {oChat : StChatNotifyPlayerGroupChat} {id : PlayerId}
    {r : PlayerSend} (h : r ∈ s.onGroupChatPlayer j oChat id) :
    s.Taken r ∧ r.packet = packet (playerPieces oChat) := by
  rw [onGroupChatPlayer] at h
  cases hplayer : (s.manager j).getChatPlayer id with
  | none => simp [hplayer] at h
  | some player =>
    simp only [hplayer] at h
    split_ifs at h with htakes
    · obtain rfl := List.mem_singleton.mp h
      exact ⟨⟨player, hplayer, htakes⟩, rfl⟩
    · exact absurd h List.not_mem_nil

/-- A round of another server's hash index, taken apart. -/
theorem onBucket_remote (o : HostOrder) (oChat : StChatNotifyPlayerGroupChat)
    (hremote : ¬ s.checkHashIndex i it.1.toNat = true) :
    (s.onBucket o i oChat it = ⟨[], [], []⟩ ∧ ∀ session,
      s.mapSessionIpPort i it.1.toNat = some session → ¬ s.serverTakes i session it.1 = true) ∨
    ∃ session, s.mapSessionIpPort i it.1.toNat = some session ∧
      s.serverTakes i session it.1 = true ∧
      s.onBucket o i oChat it = s.onGroupMemberChat o i session it.1 ⟨it.2.keys, oChat⟩ ∧
      ⟨⟨it.2.keys, oChat⟩, packet (memberPieces ⟨it.2.keys, oChat⟩)⟩ ∈
        (s.onBucket o i oChat it).servers := by
  rw [onBucket, if_neg hremote, hashToIndex_bytes]
  cases hsession : s.mapSessionIpPort i it.1.toNat with
  | none => exact Or.inl ⟨rfl, fun _ hc => nomatch hc⟩
  | some session =>
    by_cases htakes : s.serverTakes i session it.1 = true
    · refine Or.inr ⟨session, rfl, htakes, rfl, ?_⟩
      simp [onGroupMemberChat, htakes]
    · refine Or.inl ⟨by simp [onGroupMemberChat, htakes], fun session' hsame => ?_⟩
      obtain rfl := Option.some.inj hsame
      exact htakes

namespace FansOut

variable (h : FansOut o s g oChat (s.onGroupChat o i g oChat))

include h

theorem fitsMember (hit : it ∈ g.mapChatGroupMembers.entries)
    (hin : ⟨⟨it.2.keys, oChat⟩, packet (memberPieces ⟨it.2.keys, oChat⟩)⟩ ∈
      (s.onBucket o i oChat it).servers) : FitsMember ⟨it.2.keys, oChat⟩ := by
  refine (decodes_packet_member (o := o)).mp (h.servers ⟨⟨it.2.keys, oChat⟩, _⟩ ?_)
  exact List.mem_flatMap.mpr ⟨_, List.mem_map_of_mem hit, hin⟩

/-- Who is handed on in a round is one of its members, and for another server there is a session. -/
theorem mem_handed (hit : it ∈ g.mapChatGroupMembers.entries) {j : Nat} {id : PlayerId}
    (hin : (j, id) ∈ (s.onBucket o i oChat it).handed) :
    id ∈ it.2.keys ∧ (s.checkHashIndex i it.1.toNat = true ∨ ∃ session,
      s.mapSessionIpPort i it.1.toNat = some session ∧ s.serverTakes i session it.1 = true ∧
      s.farEnd i session = j ∧ IsReceived ⟨it.2.keys, oChat⟩) := by
  by_cases hlocal : s.checkHashIndex i it.1.toNat = true
  · rw [onBucket, if_pos hlocal] at hin
    obtain ⟨id', hid, hpair⟩ := List.mem_map.mp hin
    obtain ⟨-, rfl⟩ := Prod.mk.inj hpair
    exact ⟨hid, Or.inl hlocal⟩
  · obtain ⟨hnone, -⟩ | ⟨session, hsession, htakes, hround, hsend⟩ :=
      onBucket_remote o oChat hlocal
    · rw [hnone] at hin
      exact absurd hin List.not_mem_nil
    · have hfits := h.fitsMember hit hsend
      rw [hround] at hin
      simp only [onGroupMemberChat, htakes, if_true] at hin
      rcases procRecv_cases hfits s o (s.farEnd i session) with hclosed | hreceived
      · rw [hclosed] at hin
        exact absurd hin List.not_mem_nil
      · rw [procRecv_of_isReceived hreceived] at hin
        obtain ⟨id', hid, hpair⟩ := List.mem_map.mp hin
        obtain ⟨rfl, rfl⟩ := Prod.mk.inj hpair
        exact ⟨hid, Or.inr ⟨session, hsession, htakes, rfl, hreceived⟩⟩

theorem taken {r : PlayerSend} (hr : r ∈ (s.onGroupChat o i g oChat).players) :
    s.Taken r ∧ r.packet = packet (playerPieces oChat) := by
  obtain ⟨out, hout, hr⟩ := List.mem_flatMap.mp hr
  obtain ⟨it, hit, rfl⟩ := List.mem_map.mp hout
  by_cases hlocal : s.checkHashIndex i it.1.toNat = true
  · rw [onBucket, if_pos hlocal] at hr
    obtain ⟨id, -, hr⟩ := List.mem_flatMap.mp hr
    exact taken_onGroupChatPlayer hr
  · obtain ⟨hnone, -⟩ | ⟨session, -, htakes, hround, hsend⟩ :=
      onBucket_remote o oChat hlocal
    · rw [hnone] at hr
      exact absurd hr List.not_mem_nil
    · rw [hround] at hr
      simp only [onGroupMemberChat, htakes, if_true] at hr
      rcases procRecv_cases (h.fitsMember hit hsend) s o (s.farEnd i session) with
        hclosed | hreceived
      · rw [hclosed] at hr
        exact absurd hr List.not_mem_nil
      · rw [procRecv_of_isReceived hreceived] at hr
        obtain ⟨id, -, hr⟩ := List.mem_flatMap.mp hr
        exact taken_onGroupChatPlayer hr

theorem reachesPlayer {id : PlayerId} (hid : id ∈ g.playerIds) :
    s.ReachesPlayer (s.owner id) oChat id := by
  intro player hplayer
  obtain ⟨bytes, hone⟩ := h.online id player (ChatGroup.mem_playerIds.mp hid) hplayer
  have hr : ⟨s.owner id, id, player.pSession, bytes⟩ ∈ (s.onGroupChat o i g oChat).players := by
    refine List.mem_of_mem_filter (p := fun r => r.szPlayerId = id) ?_
    rw [hone]
    exact List.mem_singleton_self _
  obtain ⟨⟨player', hplayer', htakes⟩, hpacket⟩ := h.taken hr
  obtain rfl : player = player' := Option.some.inj (hplayer.symm.trans hplayer')
  refine ⟨htakes, (decodes_packet_player (o := o)).mp ?_⟩
  rw [← hpacket]
  exact h.players _ hr

theorem reaches (hit : it ∈ g.mapChatGroupMembers.entries) : s.Reaches i oChat it := by
  have hplayers : ∀ id ∈ it.2.keys, s.ReachesPlayer (it.1.toNat % s.chatServerNum) oChat id := by
    intro id hid
    rw [← owner_of_mem hit hid]
    exact h.reachesPlayer (List.mem_flatMap.mpr ⟨it, hit, hid⟩)
  rw [Reaches]
  by_cases hlocal : s.checkHashIndex i it.1.toNat = true
  · rw [if_pos hlocal]
    rwa [mod_of_checkHashIndex hlocal] at hplayers
  · rw [if_neg hlocal]
    by_cases hempty : it.2.keys = []
    · rw [if_pos hempty]
      intro session hsession htakes
      obtain ⟨-, hnone⟩ | ⟨-, -, -, -, hsend⟩ := onBucket_remote o oChat hlocal
      · exact absurd htakes (hnone session hsession)
      · have hfits := h.fitsMember hit hsend
        rwa [hempty] at hfits
    · rw [if_neg hempty]
      obtain ⟨id, hid⟩ := List.exists_mem_of_ne_nil _ hempty
      have hcount := h.handed (s.owner id) id
      rw [if_pos ⟨ChatGroup.mem_playerIds.mp (List.mem_flatMap.mpr ⟨it, hit, hid⟩), rfl⟩] at hcount
      have hin : (s.owner id, id) ∈ (s.onGroupChat o i g oChat).handed :=
        List.count_pos_iff.mp (by omega)
      obtain ⟨out, hout, hin⟩ := List.mem_flatMap.mp hin
      obtain ⟨it', hit', rfl⟩ := List.mem_map.mp hout
      obtain ⟨hid', hway⟩ := h.mem_handed hit' hin
      obtain rfl : it' = it := ChatGroup.entry_unique hit' hit hid' hid
      obtain hc | ⟨session, hsession, htakes, hfar, hreceived⟩ := hway
      · exact absurd hc hlocal
      · exact ⟨session, hsession, htakes, by rw [hfar, owner_of_mem hit hid], hreceived, hplayers⟩

end FansOut

/-- A group message reaches all members once and whole if and only if each of their hash indices is
reached. -/
theorem fansOut_iff (o : HostOrder) (s : ChatServers) (i : Nat) (g : ChatGroup)
    (oChat : StChatNotifyPlayerGroupChat) :
    FansOut o s g oChat (s.onGroupChat o i g oChat) ↔
      ∀ it ∈ g.mapChatGroupMembers.entries, s.Reaches i oChat it :=
  ⟨fun h _ hit => h.reaches hit, fansOut_of_reaches⟩

/-! ### A large group -/

/-- 63 bytes, and the same hash index for all. -/
def longId (k : Nat) : PlayerId :=
  [UInt8.ofNat (48 + k / 32), UInt8.ofNat (79 - k / 32), UInt8.ofNat (48 + k % 32),
    UInt8.ofNat (79 - k % 32)] ++ List.replicate 59 97

def longRows : List ChatGroupMember := (List.range 1024).map fun k => ⟨longId k, 1, 0⟩

theorem longId_inj {k k' : Nat} (hk : k < 1024) (hk' : k' < 1024) (h : longId k = longId k') :
    k = k' := by
  simp only [longId, List.cons_append, List.cons.injEq] at h
  obtain ⟨hdiv, -, hmod, -⟩ := h
  have hdiv' := congrArg UInt8.toNat hdiv
  have hmod' := congrArg UInt8.toNat hmod
  simp only [UInt8.toNat_ofNat'] at hdiv' hmod'
  omega

theorem hashToIndex_longId {k : Nat} (hk : k < 1024) : hashToIndex (longId k) = 89 := by
  have hpair : ∀ x, x < 32 → UInt8.ofNat (48 + x) + UInt8.ofNat (79 - x) = 127 := by
    intro x hx
    rw [← UInt8.ofNat_add, show 48 + x + (79 - x) = 127 by omega]
    rfl
  have hdiv := hpair (k / 32) (by omega)
  have hmod := hpair (k % 32) (by omega)
  rw [longId, hashToIndex_append]
  have hhead : hashToIndex [UInt8.ofNat (48 + k / 32), UInt8.ofNat (79 - k / 32),
      UInt8.ofNat (48 + k % 32), UInt8.ofNat (79 - k % 32)] = 127 + 127 := by
    simp only [hashToIndex, List.foldl_cons, List.foldl_nil, UInt8.zero_add]
    rw [hdiv, UInt8.add_assoc, hmod]
  rw [hhead]
  decide +kernel

/-- Two servers with a session, and nobody online. -/
def twoServers : ChatServers where
  chatServerNum := 2
  manager _ := ⟨fun _ => none, fun _ => none⟩
  playerTakes _ _ := true
  mapSessionIpPort _ _ := some 0
  farEnd _ _ := 1
  serverTakes _ _ _ := true

theorem length_le_flatMap_stringBytes {n : Nat} {strs : List (List UInt8)}
    (h : ∀ str ∈ strs, n ≤ (stringBytes str).length) :
    n * strs.length ≤ (strs.flatMap stringBytes).length := by
  induction strs with
  | nil => simp
  | cons str strs ih =>
    have hstr := h str List.mem_cons_self
    have hstrs := ih fun str' hstr' => h str' (List.mem_cons_of_mem str hstr')
    rw [List.length_cons, List.flatMap_cons, List.length_append, Nat.mul_succ]
    omega

/-- The list of 1024 members does not fit the buffer, and the message is sent cut. -/
theorem not_fansOut_of_large_group :
    ∃ g, ChatGroup.onLoad (fun _ => none) 1 longRows 1 = some g ∧
      ¬ FansOut .little twoServers g ⟨1, [65], 1, [104, 105], 0⟩
        (twoServers.onGroupChat .little 0 g ⟨1, [65], 1, [104, 105], 0⟩) := by
  obtain ⟨g, hg, hmembers⟩ :=
    ChatGroup.exists_onLoad 1 (show longRows ≠ [] by simp [longRows])
  have hids : ∀ id, id ∈ g.playerIds ↔ ∃ k, k < 1024 ∧ longId k = id := by
    intro id
    rw [ChatGroup.mem_playerIds, hmembers]
    simp [longRows]
  -- All members stand under one hash index, which is the other server's.
  obtain ⟨it, hit, hfirst⟩ := List.mem_flatMap.mp ((hids (longId 0)).mpr ⟨0, by decide, rfl⟩)
  have hkey : it.1 = 89 := by
    rw [← ChatGroup.hashed_entry hit hfirst, hashToIndex_longId (by decide)]
  have hall : ∀ id ∈ (List.range 1024).map longId, id ∈ it.2.keys := by
    intro id hid
    obtain ⟨k, hk, rfl⟩ := List.mem_map.mp hid
    have hlt := List.mem_range.mp hk
    obtain ⟨it', hit', hin⟩ := List.mem_flatMap.mp ((hids (longId k)).mpr ⟨k, hlt, rfl⟩)
    have hkey' : it'.1 = it.1 := by
      rw [hkey, ← ChatGroup.hashed_entry hit' hin, hashToIndex_longId hlt]
    rwa [OrderedMap.entry_unique hit' hit hkey'] at hin
  have hmany : 1024 ≤ it.2.keys.length := by
    have hnodup : ((List.range 1024).map longId).Nodup :=
      List.nodup_range.map_on fun k hk k' hk' =>
        longId_inj (List.mem_range.mp hk) (List.mem_range.mp hk')
    have hle := (hnodup.subperm hall).length_le
    rwa [List.length_map, List.length_range] at hle
  have hbytes : 67 * it.2.keys.length ≤ (it.2.keys.flatMap stringBytes).length := by
    refine length_le_flatMap_stringBytes fun id hid => ?_
    obtain ⟨k, -, rfl⟩ := (hids id).mp (List.mem_flatMap.mpr ⟨it, hit, hid⟩)
    have hlen : (longId k).length = 63 := by simp [longId]
    rw [stringBytes, List.length_append, cut_length, hlen, ByteOrder.bytes_length]
  refine ⟨g, hg, fun h => ?_⟩
  have hreaches := h.reaches hit
  rw [Reaches, hkey, if_neg (by decide), if_neg (List.ne_nil_of_mem hfirst)] at hreaches
  obtain ⟨-, -, -, -, ⟨⟨-, hfits⟩, -⟩, -⟩ := hreaches
  rw [memberPieces, List.flatten_cons, StChatNotifyChatGroupMemberChat.flatten_pieces,
    List.length_append, List.length_append, List.length_append, buffLen] at hfits
  simp only at hfits
  omega

end ChatServers

end ChatServer
