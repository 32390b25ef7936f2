import FxLib.Chat.GroupMembers

/-!
# Invitations into a group

`ChatGroup::OnInviteMember` and the answer of `OnInviteMemberResult`, on the way from a player of
this chat server and on the way from another chat server. What the 64 KiB of a send buffer cut off
an answer is not followed.
-/

namespace ChatServer

/-! ### The players of this server -/

/-- Whoever is found has a hash index of this server. -/
def Logins.Local (s : Logins) : Prop :=
  ∀ szPlayerId player, s.manager.getChatPlayer szPlayerId = some player →
    (hashToIndex szPlayerId).toNat ∈ s.setHashIndex

namespace Logins

variable {s s' : Logins}

theorem Local.onLogin (h : s.Local) (pSession : Nat) (szId : PlayerId) (szSign : List UInt8) :
    (s.onLogin pSession szId szSign).Local := by
  rw [Logins.onLogin]
  split_ifs with hindex
  · rw [ChatPlayerManager.onPlayerLogin]
    cases s.manager.mapLoginSign szId with
    | none => exact h
    | some sign =>
      simp only
      split_ifs
      · exact h
      · intro szId' player hplayer
        by_cases hid : szId' = szId
        · subst hid
          exact hindex
        · simp only [ChatPlayerManager.getChatPlayer, Function.update_of_ne hid] at hplayer
          exact h szId' player hplayer
  · exact h

theorem Local.closeSession (h : s.Local) (pSession : Nat) : (s.closeSession pSession).Local := by
  rw [Logins.closeSession]
  split_ifs
  · exact h
  · exact h

theorem Local.onClose (h : s.Local) (pSession : Nat) : (s.onClose pSession).Local := by
  intro szId player hplayer
  simp only [Logins.onClose, ChatPlayerManager.getChatPlayer,
    ChatPlayerManager.onSessionClose] at hplayer
  by_cases hid : szId = (s.session pSession).szId
  · rw [hid, Function.update_self] at hplayer
    cases hplayer
  · rw [Function.update_of_ne hid] at hplayer
    exact h szId player hplayer

theorem Local.step (h : s.Local) {l : Label} (hstep : s.step l = some s') : s'.Local := by
  cases l with
  | loginSign szPlayerId =>
    obtain rfl := Option.some.inj hstep
    exact h
  | connect pSession =>
    rw [Logins.step] at hstep
    split_ifs at hstep
    obtain rfl := Option.some.inj hstep
    exact h
  | login pSession szId szSign =>
    rw [Logins.step] at hstep
    split_ifs at hstep
    obtain rfl := Option.some.inj hstep
    rw [Logins.onRecv]
    cases s.manager.getChatPlayer (s.session pSession).szId with
    | none => exact h.onLogin pSession szId szSign
    | some player => exact h.closeSession player.pSession
  | closing pSession =>
    obtain rfl := Option.some.inj hstep
    exact h.closeSession pSession
  | close pSession =>
    rw [Logins.step] at hstep
    split_ifs at hstep
    obtain rfl := Option.some.inj hstep
    exact h.onClose pSession

theorem local_start (setHashIndex : List Nat) : (start setHashIndex).Local :=
  fun _ _ h => nomatch h

/-- Only a player with a hash index of this server logs in. -/
theorem local_run (setHashIndex : List Nat) {labels : List Label}
    (hrun : Transition.run step (start setHashIndex) labels = some s) : s.Local :=
  Transition.invariant (fun _ _ _ h hstep => Local.step h hstep) (local_start setHashIndex) hrun

end Logins

/-- The part of a chat server that an invitation meets. -/
structure InviteServer where
  logins : Logins
  mapSessionIpPort : Nat → Option Nat
  isLocal : logins.Local

/-- Where an invitation comes from: a player who is found under his id, or the session of another
chat server. -/
inductive InvitePath where
  | player (pPlayer : ChatPlayer)
  | peer (pSession : Nat)
  deriving DecidableEq

inductive InviteAnswer where
  /-- `stCHAT_ACK_PLAYER_INVITE_GROUP_CHAT` to the session of a player. -/
  | player (pSession : Nat) (dwGroupId : Nat) (dwResult : ErrorCode) (szPlayerId : PlayerId)
  /-- `stCHAT_NOTIFY_CHAT_INVITE_ENTER_GROUP_CHAT_RESULT` to another chat server. -/
  | peer (pSession : Nat) (dwGroupId : Nat) (dwResult : ErrorCode) (szPlayerId szInviter : PlayerId)
  deriving DecidableEq

structure InviteOutcome where
  group : ChatGroup
  querys : List GroupQuery
  answers : List InviteAnswer

namespace InviteServer

def checkHashIndex (s : InviteServer) (dwIndex : Nat) : Bool := dwIndex ∈ s.logins.setHashIndex

/-- `ChatGroup::OnInviteMemberResult`. -/
def onInviteMemberResult (s : InviteServer) (g : ChatGroup) (eErrorCode : ErrorCode)
    (szInviter szPlayer : PlayerId) : List InviteAnswer :=
  let dwHash := (hashToIndex szInviter).toNat
  if s.checkHashIndex dwHash then
    match s.logins.manager.getChatPlayer szInviter with
    | none => []
    | some pPlayer => [.player pPlayer.pSession g.dwGroupId eErrorCode szPlayer]
  else
    match s.mapSessionIpPort dwHash with
    | none => []
    | some pSession => [.peer pSession g.dwGroupId eErrorCode szPlayer szInviter]

/-- `ChatGroup::OnInviteMember`; `none` where the power of an absent member is asked for. -/
def onInviteMember (s : InviteServer) (g : ChatGroup) (szInviter szPlayer : PlayerId)
    (dwJoinTime : UInt32) : Option InviteOutcome :=
  match g.getChatGroupMember szInviter with
  | none => none
  | some pManager =>
    let eErrorCode := GroupMembers.inviteError g pManager szPlayer
    if eErrorCode ≠ .none then
      some ⟨g, [], s.onInviteMemberResult g eErrorCode szInviter szPlayer⟩
    else some ⟨g, [.invite g.dwGroupId szPlayer szInviter dwJoinTime], []⟩

/-! ### What an invitation should do -/

/-- A player speaks for himself, another chat server for anybody. -/
def Supplies (s : InviteServer) (szInviter : PlayerId) : InvitePath → Prop
  | .player pPlayer => s.logins.manager.getChatPlayer szInviter = some pPlayer
  | .peer _ => True

/-- The answer to who has sent the invitation. -/
def answer (g : ChatGroup) (eErrorCode : ErrorCode) (szInviter szPlayer : PlayerId) :
    InvitePath → InviteAnswer
  | .player pPlayer => .player pPlayer.pSession g.dwGroupId eErrorCode szPlayer
  | .peer pSession => .peer pSession g.dwGroupId eErrorCode szPlayer szInviter

/-- Nothing changes at once. At most one query is added, and behind its result the player is in the
group once. Where none is added, an error is answered on the way back, and nothing else. -/
structure Handled (g : ChatGroup) (szInviter szPlayer : PlayerId) (path : InvitePath)
    (outcome : InviteOutcome) : Prop where
  unchanged : outcome.group = g
  added : outcome.querys.length ≤ 1
  once : ∀ query ∈ outcome.querys, ∀ (mapChatGroups : Nat → Option ChatGroup) (g' : ChatGroup),
    mapChatGroups g.dwGroupId = some g' →
      ∃ g'', (query.onResult .none mapChatGroups).2 g.dwGroupId = some g'' ∧
        g''.playerIds.count szPlayer = 1
  answered : outcome.querys = [] → ∃ eErrorCode, eErrorCode ≠ .none ∧
    outcome.answers = [answer g eErrorCode szInviter szPlayer path]

def Robust (s : InviteServer) (g : ChatGroup) (szInviter szPlayer : PlayerId) (dwJoinTime : UInt32)
    (path : InvitePath) : Prop :=
  ∃ outcome, s.onInviteMember g szInviter szPlayer dwJoinTime = some outcome ∧
    Handled g szInviter szPlayer path outcome

/-- The invited player is a member, or the inviter is no manager. -/
def Refused (g : ChatGroup) (szInviter szPlayer : PlayerId) : Prop :=
  (g.getChatGroupMember szPlayer).isSome ∨
    ∀ pManager ∈ g.getChatGroupMember szInviter, pManager.checkPower ecpManager = false

/-- The other chat server has the hash index of the inviter. -/
def Answers (s : InviteServer) (szInviter : PlayerId) : InvitePath → Prop
  | .player _ => True
  | .peer pSession => s.checkHashIndex (hashToIndex szInviter).toNat = false ∧
    s.mapSessionIpPort (hashToIndex szInviter).toNat = some pSession

/-- The inviter is a member. An invitation that is refused comes from him, or from the chat server
that has his hash index. -/
def Proper (s : InviteServer) (g : ChatGroup) (szInviter szPlayer : PlayerId) (path : InvitePath) :
    Prop :=
  (g.getChatGroupMember szInviter).isSome ∧
    (Refused g szInviter szPlayer → s.Answers szInviter path)

variable {s : InviteServer} {g : ChatGroup} {szInviter szPlayer : PlayerId} {path : InvitePath}

theorem inviteError_iff {pManager : ChatGroupMember}
    (hmanager : g.getChatGroupMember szInviter = some pManager) :
    GroupMembers.inviteError g pManager szPlayer ≠ .none ↔ Refused g szInviter szPlayer := by
  rw [GroupMembers.inviteError, Refused, hmanager]
  by_cases hpower : pManager.checkPower ecpManager
  · by_cases hmember : (g.getChatGroupMember szPlayer).isSome
    · simp [hpower, hmember]
    · simp [hpower, hmember]
  · simp [hpower]

/-- The answer goes out on the way back where that way leads to the inviter. -/
theorem onInviteMemberResult_of_answers (hsupplies : s.Supplies szInviter path)
    (hanswers : s.Answers szInviter path) (eErrorCode : ErrorCode) :
    s.onInviteMemberResult g eErrorCode szInviter szPlayer =
      [answer g eErrorCode szInviter szPlayer path] := by
  cases path with
  | player pPlayer =>
    have hfound : s.logins.manager.getChatPlayer szInviter = some pPlayer := hsupplies
    have hlocal : s.checkHashIndex (hashToIndex szInviter).toNat = true :=
      decide_eq_true (s.isLocal szInviter pPlayer hfound)
    simp only [onInviteMemberResult, if_pos hlocal, hfound, answer]
  | peer pSession =>
    obtain ⟨hlocal, hsession⟩ := hanswers
    simp only [onInviteMemberResult, hlocal, hsession, answer]
    rfl

theorem answers_of_onInviteMemberResult {eErrorCode eErrorCode' : ErrorCode}
    (h : s.onInviteMemberResult g eErrorCode szInviter szPlayer =
      [answer g eErrorCode' szInviter szPlayer path]) : s.Answers szInviter path := by
  cases path with
  | player pPlayer => trivial
  | peer pSession =>
    simp only [onInviteMemberResult, answer] at h
    by_cases hlocal : s.checkHashIndex (hashToIndex szInviter).toNat = true
    · rw [if_pos hlocal] at h
      cases hplayer : s.logins.manager.getChatPlayer szInviter with
      | none => simp [hplayer] at h
      | some pPlayer => simp [hplayer] at h
    · rw [if_neg hlocal] at h
      refine ⟨Bool.eq_false_iff.mpr hlocal, ?_⟩
      cases hsession : s.mapSessionIpPort (hashToIndex szInviter).toNat with
      | none => simp [hsession] at h
      | some pSession' =>
        simp only [hsession, List.cons.injEq, InviteAnswer.peer.injEq] at h
        rw [h.1.1]

/-- The result of the query brings the player in once. -/
theorem count_onResult (dwGroupId : Nat) (szInviter szPlayer : PlayerId) (dwJoinTime : UInt32)
    {mapChatGroups : Nat → Option ChatGroup} (hgroup : mapChatGroups dwGroupId = some g) :
    ∃ g', ((GroupQuery.invite dwGroupId szPlayer szInviter dwJoinTime).onResult .none
        mapChatGroups).2 dwGroupId = some g' ∧ g'.playerIds.count szPlayer = 1 := by
  refine ⟨g.setMember szPlayer ⟨szPlayer, 1, dwJoinTime⟩, ?_, ?_⟩
  · simp [GroupQuery.onResult, hgroup]
  · refine List.count_eq_one_of_mem (ChatGroup.nodup_playerIds _) ?_
    rw [ChatGroup.mem_playerIds, ChatGroup.getChatGroupMember_setMember, if_pos rfl]
    rfl

/-- Behind the pointer to the inviter, only the way back of an error is left. -/
theorem robust_iff_answers {pManager : ChatGroupMember}
    (hmanager : g.getChatGroupMember szInviter = some pManager)
    (hsupplies : s.Supplies szInviter path) (dwJoinTime : UInt32) :
    s.Robust g szInviter szPlayer dwJoinTime path ↔
      (Refused g szInviter szPlayer → s.Answers szInviter path) := by
  rw [Robust, onInviteMember, hmanager]
  by_cases hrefused : Refused g szInviter szPlayer
  · have herror := (inviteError_iff hmanager).mpr hrefused
    simp only [if_pos herror]
    constructor
    · rintro ⟨outcome, ⟨⟩, hhandled⟩ -
      obtain ⟨eErrorCode, -, hanswers⟩ := hhandled.answered rfl
      exact answers_of_onInviteMemberResult hanswers
    · intro hanswers
      refine ⟨_, rfl, rfl, by simp, by simp, fun _ => ⟨_, herror, ?_⟩⟩
      exact onInviteMemberResult_of_answers hsupplies (hanswers hrefused) _
  · have herror := mt (inviteError_iff hmanager).mp hrefused
    simp only [if_neg herror]
    refine iff_of_true ⟨_, rfl, rfl, by simp, ?_, by simp⟩ fun h => absurd h hrefused
    intro query hquery mapChatGroups g' hgroup
    rw [List.mem_singleton.mp hquery]
    exact count_onResult g.dwGroupId szInviter szPlayer dwJoinTime hgroup

/-- An invitation is robust exactly where the inviter is a member of the group and an error finds
its way back to him. -/
theorem robust_iff_proper (hsupplies : s.Supplies szInviter path) (dwJoinTime : UInt32) :
    s.Robust g szInviter szPlayer dwJoinTime path ↔ s.Proper g szInviter szPlayer path := by
  rw [Proper]
  cases hmanager : g.getChatGroupMember szInviter with
  | none =>
    refine iff_of_false ?_ (by simp)
    rintro ⟨outcome, hsome, -⟩
    rw [onInviteMember, hmanager] at hsome
    contradiction
  | some pManager =>
    rw [robust_iff_answers hmanager hsupplies]
    simp

/-- A server with one hash index and no player; the session of another one has the next. -/
def emptyServer : InviteServer where
  logins := Logins.start [65]
  mapSessionIpPort dwHashIndex := if dwHashIndex = 66 then some 7 else none
  isLocal := Logins.local_start [65]

/-- `[66]` is the manager. -/
def managedGroup : ChatGroup :=
  (ChatGroup.new.setMember [66] ⟨[66], ecpManager, 0⟩).setMember [67] ⟨[67], 1, 0⟩

theorem robust_iff_proper_peer :
    emptyServer.Robust managedGroup [66] [67] 0 (.peer 7) ↔
      emptyServer.Proper managedGroup [66] [67] (.peer 7) := by
  have hsupplies : emptyServer.Supplies [66] (.peer 7) := trivial
  exact robust_iff_proper hsupplies 0

/-- Another chat server sends an inviter who is not in the group. -/
theorem not_robust_of_stranger :
    emptyServer.Supplies [68] (.peer 7) ∧
      ¬ emptyServer.Robust managedGroup [68] [69] 0 (.peer 7) := by
  refine ⟨trivial, ?_⟩
  rintro ⟨outcome, hsome, -⟩
  have hnone : managedGroup.getChatGroupMember [68] = none := by decide +kernel
  rw [onInviteMember, hnone] at hsome
  contradiction

end InviteServer

end ChatServer
