import Mathlib.Data.List.Lex
import FxLib.Chat.ChatPlayerManager
import FxLib.Lib.OrderedMap

/-!
# Chat groups

`ChatGroup` of the chat server: its members stand in a map of maps, under the hash index of their
id, which is an `unsigned char`, and there under the id.
-/

namespace ChatServer

/-- `Protocol::EErrorCode`. -/
inductive ErrorCode where
  | none
  | permissionDenied
  | alreadyInChatGroup
  | notInChatGroup
  | dataError
  deriving DecidableEq

/-- `ECHatPower::ECP_MANAGER`. -/
def ecpManager : UInt32 := (1 : UInt32) <<< 29

structure ChatGroupMember where
  szPlayerId : PlayerId
  dwPower : UInt32
  dwJoinTime : UInt32
  deriving DecidableEq

def ChatGroupMember.checkPower (member : ChatGroupMember) (ePower : UInt32) : Bool :=
  member.dwPower &&& ePower ≠ 0

structure ChatGroup where
  mapChatGroupMembers : OrderedMap UInt8 (OrderedMap PlayerId ChatGroupMember)
  dwGroupId : Nat
  hashed : ∀ dwHash members, mapChatGroupMembers.find dwHash = some members →
    ∀ szPlayerId ∈ members.keys, hashToIndex szPlayerId = dwHash

namespace ChatGroup

/-- The constructor. -/
def new : ChatGroup := ⟨OrderedMap.empty, 0, fun _ _ h => nomatch h⟩

def getChatGroupMember (g : ChatGroup) (szPlayerId : PlayerId) : Option ChatGroupMember :=
  (g.mapChatGroupMembers.find (hashToIndex szPlayerId)).bind (·.find szPlayerId)

/-- `m_mapChatGroupMembers[dwHash]`. -/
def members (g : ChatGroup) (dwHash : UInt8) : OrderedMap PlayerId ChatGroupMember :=
  (g.mapChatGroupMembers.find dwHash).getD OrderedMap.empty

theorem hashed_members (g : ChatGroup) (dwHash : UInt8) :
    ∀ szPlayerId ∈ (g.members dwHash).keys, hashToIndex szPlayerId = dwHash := by
  rw [members]
  cases hfind : g.mapChatGroupMembers.find dwHash with
  | none => exact fun _ hid => absurd hid List.not_mem_nil
  | some members => exact g.hashed dwHash members hfind

def setMembers (g : ChatGroup) (dwHash : UInt8) (members : OrderedMap PlayerId ChatGroupMember)
    (h : ∀ szPlayerId ∈ members.keys, hashToIndex szPlayerId = dwHash) : ChatGroup where
  mapChatGroupMembers := g.mapChatGroupMembers.set dwHash members
  dwGroupId := g.dwGroupId
  hashed dwHash' members' hfind := by
    rw [OrderedMap.find_set] at hfind
    split_ifs at hfind with heq
    · obtain rfl := Option.some.inj hfind
      exact heq ▸ h
    · exact g.hashed dwHash' members' hfind

/-- `m_mapChatGroupMembers[HashToIndex(id)][id] = member`. -/
def setMember (g : ChatGroup) (szPlayerId : PlayerId) (member : ChatGroupMember) : ChatGroup :=
  let dwHash := hashToIndex szPlayerId
  g.setMembers dwHash ((g.members dwHash).set szPlayerId member) fun id hid => by
    rw [OrderedMap.mem_keys, OrderedMap.find_set] at hid
    split_ifs at hid with heq
    · rw [heq]
    · exact g.hashed_members dwHash id (OrderedMap.mem_keys.mpr hid)

/-- The map of the hash index stays, also when it is empty. -/
def removeChatMember (g : ChatGroup) (szPlayer : PlayerId) : ErrorCode × ChatGroup :=
  let dwHash := hashToIndex szPlayer
  match g.mapChatGroupMembers.find dwHash with
  | none => (.notInChatGroup, g)
  | some members =>
    match members.find szPlayer with
    | none => (.notInChatGroup, g)
    | some _ =>
      (.none, g.setMembers dwHash ((g.members dwHash).erase szPlayer) fun id hid => by
        rw [OrderedMap.mem_keys, OrderedMap.find_erase] at hid
        split_ifs at hid
        · cases hid
        · exact g.hashed_members dwHash id (OrderedMap.mem_keys.mpr hid))

/-- `DBLoadGroupQuery::OnResult`: a group without rows does not come in. -/
def onLoad (mapChatGroups : Nat → Option ChatGroup) (dwGroupId : Nat)
    (rows : List ChatGroupMember) : Nat → Option ChatGroup :=
  let g := rows.foldl (fun g row => some ((g.getD new).setMember row.szPlayerId row))
    (mapChatGroups dwGroupId)
  Function.update mapChatGroups dwGroupId (g.map fun g => { g with dwGroupId := dwGroupId })

variable {g : ChatGroup} {szPlayerId : PlayerId} {member : ChatGroupMember}

theorem getChatGroupMember_eq (g : ChatGroup) (szPlayerId : PlayerId) :
    g.getChatGroupMember szPlayerId =
      (g.members (hashToIndex szPlayerId)).find szPlayerId := by
  rw [getChatGroupMember, members]
  cases g.mapChatGroupMembers.find (hashToIndex szPlayerId) with
  | none => rfl
  | some members => rfl

theorem members_setMembers (g : ChatGroup) {dwHash : UInt8}
    {members : OrderedMap PlayerId ChatGroupMember}
    (h : ∀ szPlayerId ∈ members.keys, hashToIndex szPlayerId = dwHash) (dwHash' : UInt8) :
    (g.setMembers dwHash members h).members dwHash' =
      if dwHash' = dwHash then members else g.members dwHash' := by
  rw [ChatGroup.members, setMembers, OrderedMap.find_set]
  split_ifs
  · rfl
  · rfl

theorem getChatGroupMember_setMember (g : ChatGroup) (szPlayerId : PlayerId)
    (member : ChatGroupMember) (id : PlayerId) :
    (g.setMember szPlayerId member).getChatGroupMember id =
      if id = szPlayerId then some member else g.getChatGroupMember id := by
  rw [getChatGroupMember_eq, getChatGroupMember_eq, setMember, members_setMembers]
  by_cases hhash : hashToIndex id = hashToIndex szPlayerId
  · rw [if_pos hhash, OrderedMap.find_set, hhash]
  · have hid : id ≠ szPlayerId := fun hc => hhash (by rw [hc])
    rw [if_neg hhash, if_neg hid]

theorem removeChatMember_of_none (h : g.getChatGroupMember szPlayerId = none) :
    g.removeChatMember szPlayerId = (.notInChatGroup, g) := by
  rw [getChatGroupMember] at h
  rw [removeChatMember]
  cases hmembers : g.mapChatGroupMembers.find (hashToIndex szPlayerId) with
  | none => rfl
  | some members =>
    rw [hmembers, Option.bind_some] at h
    simp only [h]

theorem removeChatMember_of_some (h : g.getChatGroupMember szPlayerId = some member) :
    (g.removeChatMember szPlayerId).1 = .none ∧
      ∀ id, (g.removeChatMember szPlayerId).2.getChatGroupMember id =
        if id = szPlayerId then none else g.getChatGroupMember id := by
  rw [getChatGroupMember] at h
  obtain ⟨members, hmembers, hfind⟩ := Option.bind_eq_some_iff.mp h
  simp only [removeChatMember, hmembers, hfind, true_and]
  intro id
  rw [getChatGroupMember_eq, getChatGroupMember_eq, members_setMembers]
  by_cases hhash : hashToIndex id = hashToIndex szPlayerId
  · rw [if_pos hhash, OrderedMap.find_erase, hhash]
  · have hid : id ≠ szPlayerId := fun hc => hhash (by rw [hc])
    rw [if_neg hhash, if_neg hid]

/-- After removal the player is out, and all others are as they were. -/
theorem isSome_removeChatMember (g : ChatGroup) (szPlayerId id : PlayerId) :
    ((g.removeChatMember szPlayerId).2.getChatGroupMember id).isSome ↔
      id ≠ szPlayerId ∧ (g.getChatGroupMember id).isSome := by
  cases h : g.getChatGroupMember szPlayerId with
  | none =>
    rw [removeChatMember_of_none h]
    refine ⟨fun hid => ⟨?_, hid⟩, And.right⟩
    rintro rfl
    simp [h] at hid
  | some member =>
    rw [(removeChatMember_of_some h).2 id]
    split_ifs with hid
    · simp [hid]
    · simp [hid]

/-- The ids of all members, in the order of the two maps. -/
def playerIds (g : ChatGroup) : List PlayerId :=
  g.mapChatGroupMembers.entries.flatMap fun it => it.2.keys

theorem hashed_entry {it : UInt8 × OrderedMap PlayerId ChatGroupMember}
    (h : it ∈ g.mapChatGroupMembers.entries) (hid : szPlayerId ∈ it.2.keys) :
    hashToIndex szPlayerId = it.1 :=
  g.hashed it.1 it.2 (OrderedMap.find_eq_some_iff.mpr h) szPlayerId hid

/-- A member stands under one hash index. -/
theorem entry_unique {it it' : UInt8 × OrderedMap PlayerId ChatGroupMember}
    (h : it ∈ g.mapChatGroupMembers.entries) (h' : it' ∈ g.mapChatGroupMembers.entries)
    (hid : szPlayerId ∈ it.2.keys) (hid' : szPlayerId ∈ it'.2.keys) : it = it' :=
  OrderedMap.entry_unique h h' (by rw [← hashed_entry h hid, hashed_entry h' hid'])

theorem mem_playerIds :
    szPlayerId ∈ g.playerIds ↔ (g.getChatGroupMember szPlayerId).isSome := by
  rw [playerIds, List.mem_flatMap]
  constructor
  · rintro ⟨it, hit, hid⟩
    have hfind : g.mapChatGroupMembers.find (hashToIndex szPlayerId) = some it.2 := by
      rw [hashed_entry hit hid]
      exact OrderedMap.find_eq_some_iff.mpr hit
    rw [getChatGroupMember, hfind, Option.bind_some]
    exact OrderedMap.mem_keys.mp hid
  · intro h
    obtain ⟨member, hmember⟩ := Option.isSome_iff_exists.mp h
    obtain ⟨members, hmembers, hfind⟩ := Option.bind_eq_some_iff.mp hmember
    exact ⟨_, OrderedMap.find_eq_some_iff.mp hmembers, OrderedMap.mem_keys.mpr (by simp [hfind])⟩

/-- A player stands in a group once. -/
theorem nodup_playerIds (g : ChatGroup) : g.playerIds.Nodup := by
  rw [playerIds, List.nodup_flatMap]
  refine ⟨fun it _ => it.2.nodup_keys, ?_⟩
  refine g.mapChatGroupMembers.sorted.imp_of_mem fun {a b} ha hb hlt => ?_
  intro id hida hidb
  rw [← hashed_entry ha hida, hashed_entry hb hidb] at hlt
  exact lt_irrefl _ hlt

theorem foldl_setMember (rows : List ChatGroupMember) (g : ChatGroup) :
    ∃ g', rows.foldl (fun g row => some ((g.getD new).setMember row.szPlayerId row)) (some g) =
        some g' ∧
      ∀ id, (g'.getChatGroupMember id).isSome ↔
        id ∈ rows.map ChatGroupMember.szPlayerId ∨ (g.getChatGroupMember id).isSome := by
  induction rows generalizing g with
  | nil => exact ⟨g, rfl, by simp⟩
  | cons row rows ih =>
    obtain ⟨g', hg', hmembers⟩ := ih (g.setMember row.szPlayerId row)
    refine ⟨g', hg', fun id => ?_⟩
    rw [hmembers, getChatGroupMember_setMember, List.map_cons, List.mem_cons]
    split_ifs with hid
    · simp [hid]
    · simp [hid]

/-- The members of a group that has been loaded are those of the rows. -/
theorem exists_onLoad (dwGroupId : Nat) {rows : List ChatGroupMember} (h : rows ≠ []) :
    ∃ g, onLoad (fun _ => none) dwGroupId rows dwGroupId = some g ∧
      ∀ id, (g.getChatGroupMember id).isSome ↔ id ∈ rows.map ChatGroupMember.szPlayerId := by
  cases rows with
  | nil => exact absurd rfl h
  | cons row rows =>
    obtain ⟨g, hg, hmembers⟩ := foldl_setMember rows (new.setMember row.szPlayerId row)
    have hload : onLoad (fun _ => none) dwGroupId (row :: rows) dwGroupId =
        some { g with dwGroupId := dwGroupId } := by
      simp only [onLoad, List.foldl_cons, Option.getD_none, hg, Function.update_self,
        Option.map_some]
    have hnew : ∀ id, new.getChatGroupMember id = none := fun _ => rfl
    refine ⟨_, hload, fun id => (hmembers id).trans ?_⟩
    rw [getChatGroupMember_setMember, hnew, List.map_cons, List.mem_cons, or_comm]
    split_ifs with hid
    · simp [hid]
    · simp [hid]

theorem isSome_onLoad {dwGroupId : Nat} {rows : List ChatGroupMember}
    (h : (onLoad (fun _ => none) dwGroupId rows dwGroupId).isSome) (id : PlayerId) :
    (∃ g, onLoad (fun _ => none) dwGroupId rows dwGroupId = some g ∧
      (g.getChatGroupMember id).isSome) ↔ id ∈ rows.map ChatGroupMember.szPlayerId := by
  have hrows : rows ≠ [] := by
    rintro rfl
    simp [onLoad] at h
  obtain ⟨g, hg, hmembers⟩ := exists_onLoad dwGroupId hrows
  rw [hg, ← hmembers id]
  exact ⟨fun ⟨g', hg', hid⟩ => Option.some.inj hg' ▸ hid, fun hid => ⟨g, rfl, hid⟩⟩

end ChatGroup

end ChatServer
