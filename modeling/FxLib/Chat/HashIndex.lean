import FxLib.Meta.ChatDefine
import Mathlib.Data.List.Basic
import Mathlib.Data.UInt

/-!
# Hash indices

`HashToIndex` of `utility.cpp`, and the set of hash indices of a chat server: those that are
`dwIndex` modulo the number of chat servers.
-/

namespace ChatServer

/-- `ChatConstant::g_dwHashGen`. -/
def dwHashGen : Nat := 256

def hashToIndex (pData : List UInt8) : UInt8 :=
  pData.foldl (fun btHash c => btHash + c) 0

theorem foldl_add (pData : List UInt8) (btHash : UInt8) :
    pData.foldl (fun btHash c => btHash + c) btHash = btHash + hashToIndex pData := by
  induction pData generalizing btHash with
  | nil => simp [hashToIndex]
  | cons c pData ih =>
    rw [hashToIndex, List.foldl_cons, List.foldl_cons, ih, ih, UInt8.zero_add, UInt8.add_assoc]

theorem hashToIndex_append (pData pData' : List UInt8) :
    hashToIndex (pData ++ pData') = hashToIndex pData + hashToIndex pData' := by
  rw [hashToIndex, List.foldl_append, foldl_add]
  rfl

/-- The NULs behind an identifier do not count. -/
theorem hashToIndex_zeros (n : Nat) : hashToIndex (List.replicate n 0) = 0 := by
  induction n with
  | zero => rfl
  | succ n ih => rw [List.replicate_succ, hashToIndex, List.foldl_cons, foldl_add, ih]; rfl

/-- What `SetHashIndex` inserts, the same in the manager and in every chat server. -/
def hashIndices (chatServerNum dwIndex : Nat) : List Nat :=
  (List.range dwHashGen).filter (· % chatServerNum = dwIndex)

theorem mem_hashIndices {chatServerNum dwIndex i : Nat} :
    i ∈ hashIndices chatServerNum dwIndex ↔ i < 256 ∧ i % chatServerNum = dwIndex := by
  simp [hashIndices, dwHashGen]

/-! ### The hash index of an identifier -/

/-- `ChatSession::OnLogin` goes by `strlen`, which leaves an array without a NUL: `behind` are
`szSign` and what follows it. -/
def loginIndex (szId : CharArray idLenth) (behind : List UInt8) : UInt8 :=
  hashToIndex (cString (szId.chars ++ behind))

/-- `ChatPlayer::OnPrivateChat` and `OnChatToChatPrivateChat` go by `IDLENTH`. -/
def privateChatIndex (szRecverId : CharArray idLenth) : UInt8 := hashToIndex szRecverId.chars

/-- `GameSession`, `GMSession` and `ChatGroup` go by the size of a string. -/
def stringIndex (szPlayerId : List UInt8) : UInt8 := hashToIndex szPlayerId

/-- All calls agree on the hash index of an identifier. -/
def SameIndex (szId : CharArray idLenth) (behind : List UInt8) : Prop :=
  loginIndex szId behind = stringIndex (cString szId.chars) ∧
    privateChatIndex szId = stringIndex (cString szId.chars)

/-- The bytes behind the identifier add up to zero: those in its array, and where it fills the
array those up to the next NUL. -/
def AddsNothing (szId : CharArray idLenth) (behind : List UInt8) : Prop :=
  hashToIndex (szId.chars.drop (cString szId.chars).length) = 0 ∧
    (¬ szId.Terminated → hashToIndex (cString behind) = 0)

theorem hashToIndex_append_eq_iff (pData pData' : List UInt8) :
    hashToIndex (pData ++ pData') = hashToIndex pData ↔ hashToIndex pData' = 0 := by
  rw [hashToIndex_append]
  exact add_eq_left

theorem sameIndex_iff (szId : CharArray idLenth) (behind : List UInt8) :
    SameIndex szId behind ↔ AddsNothing szId behind := by
  have hprefix : cString szId.chars <+: szId.chars := List.takeWhile_prefix _
  have hsplit : cString szId.chars ++ szId.chars.drop (cString szId.chars).length = szId.chars :=
    List.prefix_iff_eq_append.mp hprefix
  rw [SameIndex, and_comm]
  refine and_congr ?_ ?_
  · rw [privateChatIndex, stringIndex]
    conv_lhs => lhs; rw [← hsplit]
    exact hashToIndex_append_eq_iff _ _
  · by_cases hnul : szId.Terminated
    · simp [loginIndex, stringIndex, cString_append_of_mem hnul, hnul]
    · have hfull : cString szId.chars = szId.chars := (cString_eq_self_iff _).mpr hnul
      rw [loginIndex, stringIndex, cString_append_of_not_mem hnul, hfull,
        hashToIndex_append_eq_iff]
      simp [hnul]

/-- A string that is shorter than the array has a NUL behind it when `ReadString` has read it. -/
theorem addsNothing_copyIn {text : List UInt8} (hnul : 0 ∉ text) (hlt : text.length < idLenth)
    (behind : List UInt8) : AddsNothing ((CharArray.zero idLenth).copyIn text) behind := by
  have hends : cString ((CharArray.zero idLenth).copyIn text).chars = text := by
    have hcopy := CharArray.cString_copyIn hnul hlt []
    rwa [List.append_nil] at hcopy
  have hzeros := CharArray.chars_zero_copyIn hlt.le
  refine ⟨?_, fun hnone => absurd ?_ hnone⟩
  · rw [hends, hzeros, List.drop_left, hashToIndex_zeros]
  · rw [CharArray.Terminated, hzeros]
    exact List.mem_append_right _ (List.mem_replicate.mpr ⟨by omega, rfl⟩)

end ChatServer
