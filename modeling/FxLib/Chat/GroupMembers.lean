import FxLib.Chat.ChatGroup
import FxLib.Chat.QueryText
import FxLib.Database.DBConnection
import FxLib.Lib.Transition

/-!
# Members of groups and their rows

Players are invited into the groups of a chat server and leave them, from this server or from
another one. Each request becomes a query; the one thread of the database client executes the
queries in their order, and the main thread takes their results in the same order. What a query does
is what the server reads in its text.
-/

namespace ChatServer

structure MemberRow where
  power : UInt32
  joinTime : UInt32
  deriving DecidableEq

/-- The tables `group_member_<id>`, whose primary key is `player_id`. -/
abbrev MemberTables := Nat → OrderedMap PlayerId MemberRow

/-- The fields of a row as `DBLoadGroupQuery` reads them. -/
def MemberRow.member (szPlayerId : PlayerId) (row : MemberRow) : ChatGroupMember :=
  ⟨szPlayerId, row.power, row.joinTime⟩

inductive GroupQuery where
  /-- `DBInviteGroupMemberQuery`. -/
  | invite (dwGroupId : Nat) (szPlayer szInviter : PlayerId) (dwJoinTime : UInt32)
  /-- `DBLeaveGroupQuery`. -/
  | leave (dwGroupId : Nat) (szPlayer : PlayerId)
  deriving DecidableEq

/-- An answer to a player. -/
inductive GroupAck where
  | invite (eErrorCode : ErrorCode) (szInviter szPlayer : PlayerId)
  | leave (eErrorCode : ErrorCode) (szPlayer : PlayerId)
  deriving DecidableEq

namespace GroupQuery

def dwGroupId : GroupQuery → Nat
  | .invite dwGroupId .. | .leave dwGroupId _ => dwGroupId

def szPlayer : GroupQuery → PlayerId
  | .invite _ szPlayer _ _ | .leave _ szPlayer => szPlayer

/-- What the constructor writes. -/
def text : GroupQuery → QueryText
  | .invite dwGroupId szPlayer _ dwJoinTime =>
    dbInviteGroupMemberQuery (UInt32.ofNat dwGroupId) szPlayer dwJoinTime
  | .leave dwGroupId szPlayer => dbLeaveGroupQuery (UInt32.ofNat dwGroupId) szPlayer

theorem safe_text_iff (query : GroupQuery) :
    query.text.Safe [query.szPlayer] ↔ Verbatim query.szPlayer ∧ query.text.szTemp.Fits := by
  cases query with
  | invite dwGroupId szPlayer szInviter dwJoinTime =>
    exact SqlQuery.safe_one_iff_fits rfl rfl (inviteGroupMember_closed _ szPlayer dwJoinTime)
  | leave dwGroupId szPlayer =>
    exact SqlQuery.safe_one_iff_fits rfl rfl (leaveGroup_closed _ szPlayer)

instance (query : GroupQuery) : Decidable (query.text.Safe [query.szPlayer]) :=
  decidable_of_iff _ query.safe_text_iff.symm

/-- The statement with the id as it is meant. -/
def meant : GroupQuery → Statement MemberTables
  | .invite dwGroupId szPlayer _ dwJoinTime => fun tables =>
    match (tables dwGroupId).find szPlayer with
    | some _ => (none, tables)
    | none => (some 1, Function.update tables dwGroupId
        ((tables dwGroupId).set szPlayer ⟨1, dwJoinTime⟩))
  | .leave dwGroupId szPlayer => fun tables =>
    match (tables dwGroupId).find szPlayer with
    | some _ => (some 1, Function.update tables dwGroupId ((tables dwGroupId).erase szPlayer))
    | none => (some 0, tables)

/-- `m_strQuery`, which does something else, `other`, where the server reads another text or the
column `player_id` does not keep the id. -/
def strQuery (keeps : PlayerId → Bool) (other : Statement MemberTables) (query : GroupQuery) :
    Statement MemberTables :=
  if query.text.Safe [query.szPlayer] ∧ keeps query.szPlayer then query.meant else other

/-- What `OnQuery` leaves in `m_eErrorCode`. -/
def onQuery (nRet : Int) : GroupQuery → ErrorCode
  | .invite .. => .none
  | .leave .. => if nRet ≠ FxMySQLConnection.success then .dataError else .none

def onResult (eErrorCode : ErrorCode) (mapChatGroups : Nat → Option ChatGroup) :
    GroupQuery → List GroupAck × (Nat → Option ChatGroup)
  | .invite dwGroupId szPlayer szInviter dwJoinTime =>
    match mapChatGroups dwGroupId with
    | none => ([], mapChatGroups)
    | some g => ([.invite .none szInviter szPlayer], Function.update mapChatGroups dwGroupId
        (some (g.setMember szPlayer ⟨szPlayer, 1, dwJoinTime⟩)))
  | .leave dwGroupId szPlayer =>
    match mapChatGroups dwGroupId with
    | none => ([], mapChatGroups)
    | some g =>
      if eErrorCode ≠ .none then ([.leave eErrorCode szPlayer], mapChatGroups)
      else
        let (eErrorCode, g) := g.removeChatMember szPlayer
        ([.leave eErrorCode szPlayer], Function.update mapChatGroups dwGroupId (some g))

end GroupQuery

/-- A query behind `OnQuery`. -/
structure GroupResult where
  query : GroupQuery
  eErrorCode : ErrorCode
  nRet : Int
  deriving DecidableEq

structure GroupMembers where
  mapChatGroups : Nat → Option ChatGroup
  tables : MemberTables
  querys : List GroupQuery
  results : List GroupResult
  acks : List GroupAck

namespace GroupMembers

inductive Label where
  /-- `GetSecond` at the request is a part of the label. -/
  | invite (dwGroupId : UInt32) (szInviter szPlayer : PlayerId) (dwJoinTime : UInt32)
  | leave (dwGroupId : UInt32) (szPlayer : PlayerId)
  /-- The client executes the first query; `other` is what the server does if it reads something
  else. -/
  | query (answers : FxMySQLConnection.Answers) (other : Statement MemberTables)
  /-- The main thread takes the first result. -/
  | result

/-- The groups that the chat server owns have been loaded from the tables. -/
def start (owned : Nat → Bool) (tables : MemberTables) : GroupMembers where
  mapChatGroups dwGroupId :=
    if owned dwGroupId then
      ChatGroup.onLoad (fun _ => none) dwGroupId
        ((tables dwGroupId).entries.map fun e => e.2.member e.1) dwGroupId
    else none
  tables := tables
  querys := []
  results := []
  acks := []

/-- The checks of `OnInviteMember`; the second may replace what the first has found. -/
def inviteError (g : ChatGroup) (manager : ChatGroupMember) (szPlayer : PlayerId) : ErrorCode :=
  let eErrorCode : ErrorCode :=
    if (g.getChatGroupMember szPlayer).isSome then .alreadyInChatGroup else .none
  if manager.checkPower ecpManager then eErrorCode else .permissionDenied

/-- `ChatGroup::OnInviteMember`, with no step where the inviter is not in the group: its power is
read behind a null pointer. -/
def onInviteMember (s : GroupMembers) (g : ChatGroup) (dwGroupId : Nat)
    (szInviter szPlayer : PlayerId) (dwJoinTime : UInt32) : Option GroupMembers :=
  match g.getChatGroupMember szInviter with
  | none => none
  | some manager =>
    if inviteError g manager szPlayer ≠ .none then
      some { s with
        acks := s.acks ++ [.invite (inviteError g manager szPlayer) szInviter szPlayer] }
    else
      some { s with querys := s.querys ++ [.invite dwGroupId szPlayer szInviter dwJoinTime] }

/-- `ChatGroup::OnLeaveGroupChat`. -/
def onLeaveGroupChat (s : GroupMembers) (g : ChatGroup) (dwGroupId : Nat) (szPlayer : PlayerId) :
    GroupMembers :=
  match g.getChatGroupMember szPlayer with
  | none => { s with acks := s.acks ++ [.leave .notInChatGroup szPlayer] }
  | some _ => { s with querys := s.querys ++ [.leave dwGroupId szPlayer] }

/-- `keeps` are the ids that `varchar(64) COLLATE utf8_bin` keeps as they are, and tells from each
other: of at most 64 characters, the last not a space. -/
def step (keeps : PlayerId → Bool) (s : GroupMembers) : Label → Option GroupMembers
  | .invite dwGroupId szInviter szPlayer dwJoinTime =>
    match s.mapChatGroups dwGroupId.toNat with
    | none => some s
    | some g => s.onInviteMember g dwGroupId.toNat szInviter szPlayer dwJoinTime
  | .leave dwGroupId szPlayer =>
    match s.mapChatGroups dwGroupId.toNat with
    | none => some s
    | some g => some (s.onLeaveGroupChat g dwGroupId.toNat szPlayer)
  | .query answers other =>
    match s.querys with
    | [] => none
    | query :: querys =>
      let (nRet, tables) := FxMySQLConnection.query answers (query.strQuery keeps other) s.tables
      some { s with
        tables := tables
        querys := querys
        results := s.results ++ [⟨query, query.onQuery nRet, nRet⟩] }
  | .result =>
    match s.results with
    | [] => none
    | r :: results =>
      let (acks, mapChatGroups) := r.query.onResult r.eErrorCode s.mapChatGroups
      some { s with mapChatGroups := mapChatGroups, results := results, acks := s.acks ++ acks }

/-- The player is in the member map of the group. -/
def IsMember (mapChatGroups : Nat → Option ChatGroup) (dwGroupId : Nat) (szPlayer : PlayerId) :
    Prop :=
  ∃ g, mapChatGroups dwGroupId = some g ∧ (g.getChatGroupMember szPlayer).isSome

def SameMembers (mapChatGroups mapChatGroups' : Nat → Option ChatGroup) : Prop :=
  ∀ dwGroupId szPlayer,
    IsMember mapChatGroups' dwGroupId szPlayer ↔ IsMember mapChatGroups dwGroupId szPlayer

/-- In every group that is loaded the members are those with a row. -/
def Agree (mapChatGroups : Nat → Option ChatGroup) (tables : MemberTables) : Prop :=
  ∀ dwGroupId, (mapChatGroups dwGroupId).isSome → ∀ szPlayer,
    IsMember mapChatGroups dwGroupId szPlayer ↔ ((tables dwGroupId).find szPlayer).isSome

/-- The step takes the result of a query that has not failed. -/
def Succeeds (s : GroupMembers) : Label → Prop
  | .result => ∃ r ∈ s.results.head?, 0 ≤ r.nRet
  | _ => False

end GroupMembers

open GroupMembers FxMySQLConnection

/-- An invitation gets its row from a statement whose answer comes back, or finds it there; where a
row is there to be deleted, the statement is not executed at all, or twice with the first answer
lost. -/
def GroupQuery.Served (answers : Answers) (tables : MemberTables) : GroupQuery → Prop
  | .invite dwGroupId szPlayer _ _ =>
    ((tables dwGroupId).find szPlayer).isSome ∨ answers.RunsOnce
  | .leave dwGroupId szPlayer =>
    (tables dwGroupId).find szPlayer = none ∨ answers.NeverRuns ∨ answers.RunsTwice

/-- The condition on the execution of a query. If its statement is executed at all, the id in it
stands for itself and the column keeps it. -/
def GroupQuery.InOrder (keeps : PlayerId → Bool) (answers : Answers) (tables : MemberTables)
    (query : GroupQuery) : Prop :=
  (answers.NeverRuns ∨ Verbatim query.szPlayer ∧ keeps query.szPlayer = true) ∧
    query.Served answers tables

instance (answers : Answers) (tables : MemberTables) :
    (query : GroupQuery) → Decidable (query.Served answers tables)
  | .invite .. | .leave .. => inferInstanceAs (Decidable (_ ∨ _))

instance (keeps : PlayerId → Bool) (answers : Answers) (tables : MemberTables)
    (query : GroupQuery) : Decidable (query.InOrder keeps answers tables) :=
  inferInstanceAs (Decidable (_ ∧ _))

namespace GroupMembers

/-- The statements of the pending queries fit the array that they are written into. -/
def Fits (s : GroupMembers) : Prop := ∀ query ∈ s.querys, query.text.szTemp.Fits

instance : DecidablePred Fits := fun s =>
  inferInstanceAs (Decidable (∀ query ∈ s.querys, query.text.szTemp.Fits))

/-- A query is executed in order, and the statement of a request fits. -/
def InOrder (keeps : PlayerId → Bool) (s : GroupMembers) : Label → Prop
  | .invite dwGroupId szInviter szPlayer dwJoinTime =>
    ∀ s' ∈ s.step keeps (.invite dwGroupId szInviter szPlayer dwJoinTime), s'.Fits
  | .leave dwGroupId szPlayer => ∀ s' ∈ s.step keeps (.leave dwGroupId szPlayer), s'.Fits
  | .query answers _ => ∀ query ∈ s.querys.head?, query.InOrder keeps answers s.tables
  | .result => True

instance (keeps : PlayerId → Bool) (s : GroupMembers) : (l : Label) → Decidable (InOrder keeps s l)
  | .query .. => inferInstanceAs (Decidable (∀ query ∈ s.querys.head?, _))
  | .invite .. | .leave .. => inferInstanceAs (Decidable (∀ s' ∈ s.step keeps _, s'.Fits))
  | .result => inferInstanceAs (Decidable True)

section

variable (keeps : PlayerId → Bool)

/-- The tables before and after the query whose result is `r`. -/
def Executed (tables : MemberTables) (r : GroupResult) (tables' : MemberTables) : Prop :=
  ∃ answers other, r.query.text.szTemp.Fits ∧ r.query.InOrder keeps answers tables ∧
    FxMySQLConnection.query answers (r.query.strQuery keeps other) tables = (r.nRet, tables') ∧
    r.eErrorCode = r.query.onQuery r.nRet

/-- The tables before and after the queries of a list of results. -/
def Leads : MemberTables → List GroupResult → MemberTables → Prop
  | tables, [], tables' => tables = tables'
  | tables, r :: results, tables'' =>
    ∃ tables', Executed keeps tables r tables' ∧ Leads tables' results tables''

/-- The groups agree with the tables from before the results that are to come. -/
structure Kept (s : GroupMembers) : Prop where
  fits : s.Fits
  led : ∃ tables, Agree s.mapChatGroups tables ∧ Leads keeps tables s.results s.tables

end

variable {keeps : PlayerId → Bool} {s s' : GroupMembers} {mapChatGroups : Nat → Option ChatGroup}
  {tables tables' tables'' : MemberTables} {r : GroupResult} {dwGroupId : Nat}
  {szPlayer szInviter : PlayerId} {dwJoinTime : UInt32} {eErrorCode : ErrorCode} {nRet : Int}

theorem Leads.concat {results : List GroupResult} (h : Leads keeps tables results tables')
    (hr : Executed keeps tables' r tables'') : Leads keeps tables (results ++ [r]) tables'' := by
  induction results generalizing tables with
  | nil =>
    obtain rfl : tables = tables' := h
    exact ⟨tables'', hr, rfl⟩
  | cons r₀ results ih =>
    obtain ⟨tables₀, hr₀, hrest⟩ := h
    exact ⟨tables₀, hr₀, ih hrest⟩

/-- A statement that fits, with an id that stands for itself and is kept, does what it is meant
to. -/
theorem strQuery_eq_meant {query : GroupQuery} (hfits : query.text.szTemp.Fits)
    (hcarried : Verbatim query.szPlayer ∧ keeps query.szPlayer = true)
    (other : Statement MemberTables) : query.strQuery keeps other = query.meant :=
  if_pos ⟨query.safe_text_iff.mpr ⟨hcarried.1, hfits⟩, hcarried.2⟩

/-- What is executed at all does what it is meant to. -/
theorem Executed.cases (h : Executed keeps tables r tables') :
    ∃ answers, r.query.Served answers tables ∧
      (answers.NeverRuns ∧ r.nRet < 0 ∧ tables' = tables ∨
        FxMySQLConnection.query answers r.query.meant tables = (r.nRet, tables')) := by
  obtain ⟨answers, other, hfits, ⟨hrun, hserved⟩, hquery, -⟩ := h
  refine ⟨answers, hserved, ?_⟩
  obtain hnever | hcarried := hrun
  · have hnone := query_of_neverRuns hnever (r.query.strQuery keeps other) tables
    rw [hquery] at hnone
    exact Or.inl ⟨hnever, hnone⟩
  · rw [strQuery_eq_meant hfits hcarried] at hquery
    exact Or.inr hquery

/-- A row more changes nothing where it is there. -/
theorem rows_of_found (hrow : ((tables dwGroupId).find szPlayer).isSome) (dwGroupId' : Nat)
    (id : PlayerId) : ((tables dwGroupId').find id).isSome ↔
      (dwGroupId' = dwGroupId ∧ id = szPlayer) ∨ ((tables dwGroupId').find id).isSome := by
  refine ⟨Or.inr, ?_⟩
  rintro (⟨rfl, rfl⟩ | hid)
  · exact hrow
  · exact hid

/-- An invitation in order leaves a row, and one that has failed has found it. -/
theorem Executed.invite
    (h : Executed keeps tables
      ⟨.invite dwGroupId szPlayer szInviter dwJoinTime, eErrorCode, nRet⟩ tables') :
    (∀ dwGroupId' id, ((tables' dwGroupId').find id).isSome ↔
      (dwGroupId' = dwGroupId ∧ id = szPlayer) ∨ ((tables dwGroupId').find id).isSome) ∧
    (nRet < 0 → ((tables dwGroupId).find szPlayer).isSome) := by
  obtain ⟨answers, hserved, ⟨hnever, -, rfl⟩ | hquery⟩ := h.cases
  · have hrow := hserved.resolve_right hnever.not_runsOnce
    exact ⟨rows_of_found hrow, fun _ => hrow⟩
  · cases hfind : (tables dwGroupId).find szPlayer with
    | some row =>
      have hsame : ((GroupQuery.invite dwGroupId szPlayer szInviter dwJoinTime).meant tables).2 =
          tables := by
        simp only [GroupQuery.meant, hfind]
      obtain rfl : tables = tables' := by
        rw [← query_of_unchanged answers hsame, hquery]
      exact ⟨rows_of_found (by simp [hfind]), fun _ => rfl⟩
    | none =>
      have honce : answers.RunsOnce := hserved.resolve_left (by simp [hfind])
      rw [query_of_runsOnce honce] at hquery
      simp only [GroupQuery.meant, hfind, FxMySQLConnection.answer, Option.elim] at hquery
      obtain ⟨rfl, rfl⟩ := Prod.mk.inj hquery
      refine ⟨fun dwGroupId' id => ?_, fun hneg => absurd hneg (by decide)⟩
      by_cases hgroup : dwGroupId' = dwGroupId
      · subst hgroup
        rw [Function.update_self, OrderedMap.find_set]
        split_ifs with hid
        · simp [hid]
        · simp [hid]
      · simp [hgroup]

/-- What a leave in order does to the tables, and what it answers. -/
theorem Executed.leave_cases
    (h : Executed keeps tables ⟨.leave dwGroupId szPlayer, eErrorCode, nRet⟩ tables') :
    ((tables dwGroupId).find szPlayer = none ∧ tables' = tables) ∨
    (nRet < 0 ∧ tables' = tables) ∨
    (nRet = FxMySQLConnection.success ∧
      tables' = Function.update tables dwGroupId ((tables dwGroupId).erase szPlayer)) := by
  obtain ⟨answers, hserved, ⟨-, hneg, hsame⟩ | hquery⟩ := h.cases
  · exact Or.inr (Or.inl ⟨hneg, hsame⟩)
  · have herased : ((tables dwGroupId).erase szPlayer).find szPlayer = none := by
      rw [OrderedMap.find_erase, if_pos rfl]
    cases hfind : (tables dwGroupId).find szPlayer with
    | none =>
      have hsame : ((GroupQuery.leave dwGroupId szPlayer).meant tables).2 = tables := by
        simp only [GroupQuery.meant, hfind]
      exact Or.inl ⟨rfl, by rw [← query_of_unchanged answers hsame, hquery]⟩
    | some row =>
      obtain hno | hnever | htwice := hserved
      · rw [hfind] at hno
        cases hno
      · have hneg := query_of_neverRuns hnever (GroupQuery.leave dwGroupId szPlayer).meant tables
        rw [hquery] at hneg
        exact Or.inr (Or.inl hneg)
      · rw [query_of_runsTwice htwice] at hquery
        simp only [GroupQuery.meant, hfind, Function.update_self, herased,
          FxMySQLConnection.answer, Option.elim] at hquery
        obtain ⟨rfl, rfl⟩ := Prod.mk.inj hquery
        exact Or.inr (Or.inr ⟨rfl, rfl⟩)

/-- A leave in order has no row left where it leaves no error, and deletes nothing otherwise. -/
theorem Executed.leave
    (h : Executed keeps tables ⟨.leave dwGroupId szPlayer, eErrorCode, nRet⟩ tables') :
    (eErrorCode = .none ∧ 0 ≤ nRet ∧ ∀ dwGroupId' id, ((tables' dwGroupId').find id).isSome ↔
      ¬ (dwGroupId' = dwGroupId ∧ id = szPlayer) ∧ ((tables dwGroupId').find id).isSome) ∨
    (eErrorCode ≠ .none ∧ tables' = tables) := by
  have hcode : eErrorCode = if nRet ≠ FxMySQLConnection.success then .dataError else .none := by
    obtain ⟨-, -, -, -, -, hcode⟩ := h
    exact hcode
  by_cases hret : nRet = FxMySQLConnection.success
  · rw [if_neg (not_not.mpr hret)] at hcode
    refine Or.inl ⟨hcode, hret ▸ le_refl (0 : Int), fun dwGroupId' id => ?_⟩
    obtain ⟨hfind, rfl⟩ | ⟨hneg, -⟩ | ⟨-, rfl⟩ := h.leave_cases
    · refine ⟨fun hid => ⟨?_, hid⟩, And.right⟩
      rintro ⟨rfl, rfl⟩
      simp [hfind] at hid
    · rw [hret] at hneg
      exact absurd hneg (lt_irrefl 0)
    · by_cases hgroup : dwGroupId' = dwGroupId
      · subst hgroup
        rw [Function.update_self, OrderedMap.find_erase]
        split_ifs with hid
        · simp [hid]
        · simp [hid]
      · simp [hgroup]
  · rw [if_pos hret] at hcode
    refine Or.inr ⟨by simp [hcode], ?_⟩
    obtain ⟨-, rfl⟩ | ⟨-, rfl⟩ | ⟨hzero, -⟩ := h.leave_cases
    · rfl
    · rfl
    · exact absurd hzero hret

theorem isSome_onResult (r : GroupResult) (mapChatGroups : Nat → Option ChatGroup)
    (dwGroupId : Nat) :
    ((r.query.onResult r.eErrorCode mapChatGroups).2 dwGroupId).isSome =
      (mapChatGroups dwGroupId).isSome := by
  obtain ⟨query, eErrorCode, nRet⟩ := r
  cases query with
  | invite id szPlayer szInviter dwJoinTime =>
    simp only [GroupQuery.onResult]
    cases hg : mapChatGroups id with
    | none => rfl
    | some g =>
      by_cases hid : dwGroupId = id
      · subst hid
        simp [hg]
      · simp [hid]
  | leave id szPlayer =>
    simp only [GroupQuery.onResult]
    cases hg : mapChatGroups id with
    | none => rfl
    | some g =>
      simp only
      split_ifs
      · rfl
      · by_cases hid : dwGroupId = id
        · subst hid
          simp [hg]
        · simp [hid]

theorem isMember_update {g : ChatGroup} (dwGroupId' : Nat) (id : PlayerId) :
    IsMember (Function.update mapChatGroups dwGroupId (some g)) dwGroupId' id ↔
      (dwGroupId' = dwGroupId ∧ (g.getChatGroupMember id).isSome) ∨
      (dwGroupId' ≠ dwGroupId ∧ IsMember mapChatGroups dwGroupId' id) := by
  by_cases hgroup : dwGroupId' = dwGroupId
  · subst hgroup
    simp [IsMember]
  · simp [IsMember, hgroup]

/-- The result of an invitation puts the player in, whatever has come of the query. -/
theorem isMember_onResult_invite (hgroup : (mapChatGroups dwGroupId).isSome)
    (dwGroupId' : Nat) (id : PlayerId) :
    IsMember ((GroupQuery.invite dwGroupId szPlayer szInviter dwJoinTime).onResult eErrorCode
        mapChatGroups).2 dwGroupId' id ↔
      (dwGroupId' = dwGroupId ∧ id = szPlayer) ∨ IsMember mapChatGroups dwGroupId' id := by
  obtain ⟨g, hg⟩ := Option.isSome_iff_exists.mp hgroup
  simp only [GroupQuery.onResult, hg]
  rw [isMember_update, ChatGroup.getChatGroupMember_setMember]
  by_cases hid : dwGroupId' = dwGroupId
  · subst hid
    split_ifs with hplayer
    · simp [hplayer]
    · simp [hplayer, IsMember, hg]
  · simp [hid]

/-- The result of a leave without an error takes the player out. -/
theorem isMember_onResult_leave (hgroup : (mapChatGroups dwGroupId).isSome)
    (dwGroupId' : Nat) (id : PlayerId) :
    IsMember ((GroupQuery.leave dwGroupId szPlayer).onResult .none mapChatGroups).2
        dwGroupId' id ↔
      ¬ (dwGroupId' = dwGroupId ∧ id = szPlayer) ∧ IsMember mapChatGroups dwGroupId' id := by
  obtain ⟨g, hg⟩ := Option.isSome_iff_exists.mp hgroup
  simp only [GroupQuery.onResult, hg, ne_eq, not_true_eq_false, if_false]
  rw [isMember_update, ChatGroup.isSome_removeChatMember]
  by_cases hid : dwGroupId' = dwGroupId
  · subst hid
    simp [IsMember, hg]
  · simp [hid]

theorem onResult_leave_of_error (h : eErrorCode ≠ .none) :
    ((GroupQuery.leave dwGroupId szPlayer).onResult eErrorCode mapChatGroups).2 =
      mapChatGroups := by
  simp only [GroupQuery.onResult]
  cases mapChatGroups dwGroupId with
  | none => rfl
  | some g => simp only [if_pos h]

theorem onResult_of_none {query : GroupQuery} (h : mapChatGroups query.dwGroupId = none) :
    (query.onResult eErrorCode mapChatGroups).2 = mapChatGroups := by
  cases query with
  | invite id szPlayer szInviter dwJoinTime =>
    have hid : mapChatGroups id = none := h
    simp only [GroupQuery.onResult, hid]
  | leave id szPlayer =>
    have hid : mapChatGroups id = none := h
    simp only [GroupQuery.onResult, hid]

/-- Where the groups agree with the tables before a query in order, they agree after its result with
the tables after it. -/
theorem Agree.onResult (h : Agree mapChatGroups tables) (hr : Executed keeps tables r tables') :
    Agree (r.query.onResult r.eErrorCode mapChatGroups).2 tables' := by
  intro dwGroupId' hsome id
  rw [isSome_onResult] at hsome
  have hrow := h dwGroupId' hsome id
  obtain ⟨query, eErrorCode, nRet⟩ := r
  cases query with
  | invite dwGroupId szPlayer szInviter dwJoinTime =>
    rw [hr.invite.1 dwGroupId' id, ← hrow]
    cases hg : mapChatGroups dwGroupId with
    | none =>
      have hne : dwGroupId' ≠ dwGroupId := by
        rintro rfl
        simp [hg] at hsome
      rw [onResult_of_none hg]
      simp [hne]
    | some g => exact isMember_onResult_invite (by simp [hg]) dwGroupId' id
  | leave dwGroupId szPlayer =>
    obtain ⟨rfl, -, hrows⟩ | ⟨herror, rfl⟩ := hr.leave
    · rw [hrows dwGroupId' id, ← hrow]
      cases hg : mapChatGroups dwGroupId with
      | none =>
        have hne : dwGroupId' ≠ dwGroupId := by
          rintro rfl
          simp [hg] at hsome
        rw [onResult_of_none hg]
        simp [hne]
      | some g => exact isMember_onResult_leave (by simp [hg]) dwGroupId' id
    · rwa [onResult_leave_of_error herror]

/-- The result of a failed query in order leaves all members as they are. -/
theorem Agree.sameMembers (h : Agree mapChatGroups tables) (hr : Executed keeps tables r tables')
    (hfailed : r.nRet < 0) :
    SameMembers mapChatGroups (r.query.onResult r.eErrorCode mapChatGroups).2 := by
  obtain ⟨query, eErrorCode, nRet⟩ := r
  cases query with
  | invite dwGroupId szPlayer szInviter dwJoinTime =>
    intro dwGroupId' id
    cases hg : mapChatGroups dwGroupId with
    | none => rw [onResult_of_none hg]
    | some g =>
      rw [isMember_onResult_invite (by simp [hg]) dwGroupId' id]
      refine ⟨?_, Or.inr⟩
      rintro (⟨rfl, rfl⟩ | hmember)
      · exact (h dwGroupId' (by simp [hg]) id).mpr (hr.invite.2 hfailed)
      · exact hmember
  | leave dwGroupId szPlayer =>
    obtain ⟨-, hret, -⟩ | ⟨herror, -⟩ := hr.leave
    · exact absurd hfailed (not_lt.mpr hret)
    · rw [onResult_leave_of_error herror]
      exact fun _ _ => Iff.rfl

theorem kept_start (owned : Nat → Bool) (tables : MemberTables) :
    Kept keeps (start owned tables) := by
  refine ⟨fun _ hquery => absurd hquery List.not_mem_nil, tables,
    fun dwGroupId hsome szPlayer => ?_, rfl⟩
  have hload : (start owned tables).mapChatGroups dwGroupId =
      ChatGroup.onLoad (fun _ => none) dwGroupId
        ((tables dwGroupId).entries.map fun e => e.2.member e.1) dwGroupId := by
    simp only [start] at hsome ⊢
    split_ifs at hsome ⊢
    · rfl
    · cases hsome
  rw [hload] at hsome
  rw [IsMember, hload, ← OrderedMap.mem_keys]
  have hkeys : (tables dwGroupId).keys =
      ((tables dwGroupId).entries.map fun e => e.2.member e.1).map ChatGroupMember.szPlayerId := by
    simp [OrderedMap.keys, MemberRow.member, Function.comp_def]
  rw [hkeys]
  exact ChatGroup.isSome_onLoad hsome szPlayer

/-- A request leaves the groups, the tables and the results as they are. -/
theorem request_same {l : Label} (hstep : s.step keeps l = some s')
    (hl : (∃ dwGroupId szInviter szPlayer dwJoinTime,
      l = .invite dwGroupId szInviter szPlayer dwJoinTime) ∨
      ∃ dwGroupId szPlayer, l = .leave dwGroupId szPlayer) :
    s'.mapChatGroups = s.mapChatGroups ∧ s'.tables = s.tables ∧ s'.results = s.results := by
  obtain ⟨dwGroupId, szInviter, szPlayer, dwJoinTime, rfl⟩ | ⟨dwGroupId, szPlayer, rfl⟩ := hl
  · rw [GroupMembers.step] at hstep
    cases hg : s.mapChatGroups dwGroupId.toNat with
    | none =>
      simp only [hg] at hstep
      obtain rfl := Option.some.inj hstep
      exact ⟨rfl, rfl, rfl⟩
    | some g =>
      simp only [hg, onInviteMember] at hstep
      cases hmanager : g.getChatGroupMember szInviter with
      | none => simp [hmanager] at hstep
      | some manager =>
        simp only [hmanager] at hstep
        split at hstep
        · obtain rfl := Option.some.inj hstep
          exact ⟨rfl, rfl, rfl⟩
        · obtain rfl := Option.some.inj hstep
          exact ⟨rfl, rfl, rfl⟩
  · rw [GroupMembers.step] at hstep
    cases hg : s.mapChatGroups dwGroupId.toNat with
    | none =>
      simp only [hg] at hstep
      obtain rfl := Option.some.inj hstep
      exact ⟨rfl, rfl, rfl⟩
    | some g =>
      simp only [hg, onLeaveGroupChat] at hstep
      obtain rfl := Option.some.inj hstep
      cases g.getChatGroupMember szPlayer with
      | none => exact ⟨rfl, rfl, rfl⟩
      | some member => exact ⟨rfl, rfl, rfl⟩

theorem Kept.step (h : Kept keeps s) {l : Label} (horder : InOrder keeps s l)
    (hstep : s.step keeps l = some s') : Kept keeps s' := by
  obtain ⟨hfits, tables, hagree, hleads⟩ := h
  cases l with
  | invite dwGroupId szInviter szPlayer dwJoinTime =>
    obtain ⟨hgroups, htables, hresults⟩ := request_same hstep (Or.inl ⟨_, _, _, _, rfl⟩)
    exact ⟨horder s' hstep, tables, by rwa [hgroups], by rwa [htables, hresults]⟩
  | leave dwGroupId szPlayer =>
    obtain ⟨hgroups, htables, hresults⟩ := request_same hstep (Or.inr ⟨_, _, rfl⟩)
    exact ⟨horder s' hstep, tables, by rwa [hgroups], by rwa [htables, hresults]⟩
  | query answers other =>
    rw [GroupMembers.step] at hstep
    cases hquerys : s.querys with
    | nil => simp [hquerys] at hstep
    | cons query querys =>
      simp only [hquerys] at hstep
      obtain rfl := Option.some.inj hstep
      rw [Fits, hquerys] at hfits
      obtain ⟨hfit, hrest⟩ := List.forall_mem_cons.mp hfits
      exact ⟨hrest, tables, hagree,
        hleads.concat ⟨answers, other, hfit, horder query (by simp [hquerys]), rfl, rfl⟩⟩
  | result =>
    rw [GroupMembers.step] at hstep
    cases hresults : s.results with
    | nil => simp [hresults] at hstep
    | cons r results =>
      simp only [hresults] at hstep
      obtain rfl := Option.some.inj hstep
      rw [hresults] at hleads
      obtain ⟨tables', hr, hrest⟩ := hleads
      exact ⟨hfits, tables', hagree.onResult hr, hrest⟩

/-- Only the result of a query that has not failed changes who is a member. -/
theorem Kept.sameMembers (h : Kept keeps s) {l : Label} (hfails : ¬ Succeeds s l)
    (hstep : s.step keeps l = some s') : SameMembers s.mapChatGroups s'.mapChatGroups := by
  obtain ⟨-, tables, hagree, hleads⟩ := h
  cases l with
  | invite dwGroupId szInviter szPlayer dwJoinTime =>
    rw [(request_same hstep (Or.inl ⟨_, _, _, _, rfl⟩)).1]
    exact fun _ _ => Iff.rfl
  | leave dwGroupId szPlayer =>
    rw [(request_same hstep (Or.inr ⟨_, _, rfl⟩)).1]
    exact fun _ _ => Iff.rfl
  | query answers other =>
    rw [GroupMembers.step] at hstep
    cases hquerys : s.querys with
    | nil => simp [hquerys] at hstep
    | cons query querys =>
      simp only [hquerys] at hstep
      obtain rfl := Option.some.inj hstep
      exact fun _ _ => Iff.rfl
  | result =>
    rw [GroupMembers.step] at hstep
    cases hresults : s.results with
    | nil => simp [hresults] at hstep
    | cons r results =>
      simp only [hresults] at hstep
      obtain rfl := Option.some.inj hstep
      rw [hresults] at hleads
      obtain ⟨tables', hr, -⟩ := hleads
      refine hagree.sameMembers hr ?_
      by_contra hret
      exact hfails ⟨r, by simp [hresults], not_lt.mp hret⟩

/-- In every run whose queries are in order the members agree with the rows once no query is
pending, and no failed query changes them. -/
theorem agree_of_inOrder (keeps : PlayerId → Bool) (owned : Nat → Bool) (tables : MemberTables)
    (labels : List Label)
    (horder : Transition.Always (step keeps) (InOrder keeps) (start owned tables) labels) :
    (∀ s, Transition.run (step keeps) (start owned tables) labels = some s → s.querys = [] →
      s.results = [] → Agree s.mapChatGroups s.tables) ∧
    Transition.Always (step keeps) (fun s l => ∀ s', s.step keeps l = some s' → ¬ Succeeds s l →
      SameMembers s.mapChatGroups s'.mapChatGroups) (start owned tables) labels := by
  constructor
  · intro s hrun _ hresults
    obtain ⟨-, tables', hagree, hleads⟩ := Transition.invariant_of_always
      (fun s l s' h horder hstep => h.step horder hstep) (kept_start owned tables) horder hrun
    rw [hresults] at hleads
    obtain rfl : tables' = s.tables := hleads
    exact hagree
  · refine Transition.Always.imp (Kept keeps) (fun s l h _ s' hstep hfails =>
      h.sameMembers hfails hstep)
      (fun s l s' h horder hstep => h.step horder hstep) (kept_start owned tables) horder

/-- One group with its owner and one more member. -/
def ownerAndOne : MemberTables := fun _ =>
  (OrderedMap.empty.set [65] ⟨1610612737, 0⟩).set [66] ⟨1, 0⟩

def answered : Answers := ⟨true, .answered, true, .answered⟩

/-- What the column keeps of ids with one byte for each character. -/
def keepsText (szPlayer : PlayerId) : Bool :=
  szPlayer.length ≤ 64 ∧ szPlayer.getLast? ≠ some 32

/-- A member is invited and leaves again, and the first answer to each statement is lost. -/
def invitedAndLeft : List Label :=
  [.invite 1 [65] [67] 5, .query ⟨true, .lost false, true, .answered⟩ (none, ·), .result,
    .leave 1 [67], .query ⟨true, .lost true, true, .answered⟩ (none, ·), .result]

theorem agree_of_inOrder_lost :
    (∀ s, Transition.run (step keepsText) (start (fun _ => true) ownerAndOne) invitedAndLeft =
      some s → s.querys = [] → s.results = [] → Agree s.mapChatGroups s.tables) ∧
    Transition.Always (step keepsText) (fun s l => ∀ s', s.step keepsText l = some s' →
      ¬ Succeeds s l → SameMembers s.mapChatGroups s'.mapChatGroups)
      (start (fun _ => true) ownerAndOne) invitedAndLeft :=
  agree_of_inOrder keepsText (fun _ => true) ownerAndOne invitedAndLeft (by decide +kernel)

/-- A member leaves, and the statement that deletes its row has an answer; a player is invited, and
the statement that would insert its row fails. -/
theorem not_agree_of_leave :
    (∃ labels s, Transition.run (step keepsText) (start (fun _ => true) ownerAndOne) labels =
      some s ∧ s.querys = [] ∧ s.results = [] ∧ ¬ Agree s.mapChatGroups s.tables) ∧
    ∃ labels s s', Transition.run (step keepsText) (start (fun _ => true) ownerAndOne) labels =
      some s ∧ s.step keepsText .result = some s' ∧ ¬ Succeeds s .result ∧
      ¬ SameMembers s.mapChatGroups s'.mapChatGroups := by
  constructor
  · have hview : (Transition.run (step keepsText) (start (fun _ => true) ownerAndOne)
        [.leave 1 [66], .query answered (none, ·), .result]).map (fun s => (s.querys, s.results,
          (s.mapChatGroups 1).bind (·.getChatGroupMember [66]), (s.tables 1).find [66])) =
        some ([], [], some ⟨[66], 1, 0⟩, none) := by
      decide +kernel
    obtain ⟨s, hrun, hs⟩ := Option.map_eq_some_iff.mp hview
    simp only [Prod.mk.injEq] at hs
    obtain ⟨hquerys, hresults, hmember, hrow⟩ := hs
    refine ⟨_, s, hrun, hquerys, hresults, fun hagree => ?_⟩
    obtain ⟨g, hg, hmember⟩ := Option.bind_eq_some_iff.mp hmember
    have hin := (hagree 1 (by simp [hg]) [66]).mp ⟨g, hg, by simp [hmember]⟩
    simp [hrow] at hin
  · have hview : (Transition.run (step keepsText) (start (fun _ => true) ownerAndOne)
        [.invite 1 [65] [67] 5, .query ⟨false, .answered, false, .answered⟩ (none, ·)]).map
        (fun s =>
          (s.results.head?.map (·.nRet), (s.mapChatGroups 1).bind (·.getChatGroupMember [67]),
            ((s.step keepsText .result).bind (·.mapChatGroups 1)).bind
              (·.getChatGroupMember [67]))) =
        some (some (-2), none, some ⟨[67], 1, 5⟩) := by
      decide +kernel
    obtain ⟨s, hrun, hs⟩ := Option.map_eq_some_iff.mp hview
    simp only [Prod.mk.injEq] at hs
    obtain ⟨hresults, hout, hin⟩ := hs
    obtain ⟨g, hg, hin⟩ := Option.bind_eq_some_iff.mp hin
    obtain ⟨s', hstep, hg⟩ := Option.bind_eq_some_iff.mp hg
    refine ⟨_, s, s', hrun, hstep, ?_, fun hsame => ?_⟩
    · rintro ⟨r, hr, hret⟩
      simp only [Option.mem_def] at hr
      simp only [hr, Option.map_some, Option.some.injEq] at hresults
      rw [hresults] at hret
      exact absurd hret (by decide)
    · obtain ⟨g₀, hg₀, hmember⟩ := (hsame 1 [67]).mp ⟨g, hg, by simp [hin]⟩
      simp only [hg₀, Option.bind_some] at hout
      simp [hout] at hmember

end GroupMembers

end ChatServer
