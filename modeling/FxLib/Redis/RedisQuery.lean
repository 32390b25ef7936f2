import FxLib.Lib.Custody
import FxLib.Lib.Text
import FxLib.Meta.DynamicPoolEx
import FxLib.Redis.RedisConnection

/-!
# The queries that hold a reader

`FxRedisModule::QueryDirect` with the pooled `FxRedisReader` objects. A query is its number, and
`querys` says which reader its `m_pReader` names; the number of a query that is done is not used
again. What the allocator and the client library give is part of the label of a step.
-/

open MachineInt

namespace RedisReply

/-- `GetValue(std::string&)`; a reply that was read is freed. -/
def getString (reply : Option RedisReply) (refszValue : List UInt8) :
    Bool × List UInt8 × Option RedisReply :=
  match reply with
  | some (.string str) => (true, str, none)
  | reply => (false, refszValue, reply)

/-- The text of an element, empty where it is none. -/
def element : RedisReply → List UInt8
  | .string str => str
  | _ => []

/-- `GetValue(std::vector<std::string>&)`. -/
def getStrings (reply : Option RedisReply) (refvecszValue : List (List UInt8)) :
    Bool × List (List UInt8) × Option RedisReply :=
  match reply with
  | some (.array elements) => (true, refvecszValue ++ elements.map element, none)
  | reply => (false, refvecszValue, reply)

/-- `GetValue(long long&)`. -/
def getInteger (reply : Option RedisReply) (refqwValue : Int) : Bool × Int × Option RedisReply :=
  match reply with
  | some (.integer n) => (true, n, none)
  | reply => (false, refqwValue, reply)

end RedisReply

/-- `RedisGetPlayerData`, `RedisGetServerId` and `RedisTeamId`. -/
inductive RedisQueryKind where
  | getPlayerData
  | getServerId
  | teamId
  deriving DecidableEq

/-- What the query has for its caller behind `OnResult`. -/
inductive RedisResult where
  | playerData (szName szHeadImg : List UInt8) (dwSex : Nat)
  | serverId (dwServerId : Int)
  | teamId (qwTeamId : Int)

/-- `OnResult` on the reply of the reader; `none` where an element is not there. -/
def RedisQueryKind.read : RedisQueryKind → Option RedisReply →
    Option (RedisResult × Option RedisReply)
  | .getPlayerData, reply => do
    let (_, vec_szServerId, reply) := RedisReply.getStrings reply []
    let szName ← vec_szServerId[0]?
    let szHeadImg ← vec_szServerId[1]?
    let szSex ← vec_szServerId[2]?
    return (.playerData (cString szName) (cString szHeadImg) (toUInt32 (Text.atoi (cString szSex))),
      reply)
  | .getServerId, reply =>
    let (_, szServerId, reply) := RedisReply.getString reply []
    some (.serverId (Text.atoi (cString szServerId)), reply)
  | .teamId, reply =>
    let (_, qwTeamId, reply) := RedisReply.getInteger reply 0
    some (.teamId qwTeamId, reply)

/-- `log` says what the queries have done with the readers. -/
structure FxRedisModule where
  connection : FxRedisConnection
  readerPool : TDynamicPoolEx
  reply : Nat → Option RedisReply
  querys : Nat → Option Nat
  serial : Nat
  log : List (Custody.Act Nat Nat)

namespace FxRedisModule

/-- Behind `Init`. -/
def start : FxRedisModule :=
  ⟨.new, (TDynamicPoolEx.start 1000 1000 0).pool, fun _ => none, fun _ => none, 0, []⟩

/-- The pointer of the query `i` names `o`. -/
def hold (i o : Nat) (readerPool : TDynamicPoolEx) (s : FxRedisModule) : FxRedisModule :=
  { s with
    readerPool := readerPool
    querys := Function.update s.querys i (some o)
    log := s.log ++ [.take i o] }

/-- `FetchReader` for the query `i`; `bNew` says whether `new` gives more readers. -/
def fetchReader (i : Nat) (bNew : Bool) (s : FxRedisModule) :
    Option (Option Nat × FxRedisModule) :=
  if s.readerPool.listFree = [] ∧ bNew = false then some (none, s)
  else
    match s.readerPool.fetchObj with
    | none => none
    | some (none, readerPool) => some (none, { s with readerPool := readerPool })
    | some (some o, readerPool) => some (some o, s.hold i o readerPool)

/-- `FxRedisQuery::Query(pszCMD, ppReader)`. -/
def query (i : Nat) (bNew : Bool) (answers : RedisAnswers) (s : FxRedisModule) :
    Option (Int × FxRedisModule) :=
  if s.querys i ≠ none then some (-1, s)
  else
    match s.fetchReader i bNew with
    | none => none
    | some (none, s) => some (-1, s)
    | some (some o, s) => do
      let (nRetCode, reply, connection) ← s.connection.queryReader answers (s.reply o)
      return (nRetCode, { s with
        connection := connection, reply := Function.update s.reply o reply })

/-- `m_pReader->GetValue`. -/
def onResult (kind : RedisQueryKind) (i : Nat) (s : FxRedisModule) :
    Option (RedisResult × FxRedisModule) :=
  match s.querys i with
  | none => none
  | some o => do
    let (result, reply) ← kind.read (s.reply o)
    return (result, { s with
      reply := Function.update s.reply o reply, log := s.log ++ [.use i (some o)] })

def drop (i o : Nat) (readerPool : TDynamicPoolEx) (s : FxRedisModule) : FxRedisModule :=
  { s with
    readerPool := readerPool
    reply := Function.update s.reply o none
    querys := Function.update s.querys i none
    log := s.log ++ [.release i (some o)] }

/-- `m_pReader->Release()`, and the query is gone. -/
def release (i : Nat) (s : FxRedisModule) : Option FxRedisModule :=
  match s.querys i with
  | none => none
  | some o => (s.readerPool.releaseObj (some o)).map (s.drop i o ·)

/-- The constructor of a query. -/
def newQuery (s : FxRedisModule) : FxRedisModule := { s with serial := s.serial + 1 }

/-- `OnQuery`, `OnResult` and `Release`; what `Query` returns is not asked for. -/
def queryDirect (kind : RedisQueryKind) (bNew : Bool) (answers : RedisAnswers)
    (s : FxRedisModule) : Option (RedisResult × FxRedisModule) := do
  let (_, s') ← s.newQuery.query s.serial bNew answers
  let (result, s') ← s'.onResult kind s.serial
  let s' ← s'.release s.serial
  return (result, s')

/-- The other queries hold their readers from a `fetch` to a `release`. -/
inductive Label where
  | queryDirect (kind : RedisQueryKind) (bNew : Bool) (answers : RedisAnswers)
  | fetch (bNew : Bool) (reply : Option RedisReply)
  | release (i : Nat)
  | connection (l : FxRedisConnection.Call)

def step (s : FxRedisModule) : Label → Option FxRedisModule
  | .queryDirect kind bNew answers => (s.queryDirect kind bNew answers).map (·.2)
  | .fetch bNew reply =>
    (s.newQuery.fetchReader s.serial bNew).map fun
      | (none, s) => s
      | (some o, s) => { s with reply := Function.update s.reply o reply }
  | .release i => s.release i
  | .connection l => (s.connection.step l).map fun connection => { s with connection := connection }

/-- A reader is free, or `new` gives more. -/
def HasReader (s : FxRedisModule) (bNew : Bool) : Prop :=
  s.readerPool.listFree ≠ [] ∨ bNew = true

/-- The command reaches Redis, which answers an array of at least three elements. -/
def AnswersArray (c : FxRedisConnection) (answers : RedisAnswers) : Prop :=
  c.Reaches answers ∧
    ∃ elements, answers.command = some (.array elements) ∧ 3 ≤ elements.length

/-- There is a reader, the connection meets no null pointer, and for the player data Redis answers
at least three elements. -/
def Answered (s : FxRedisModule) : Label → Prop
  | .queryDirect kind bNew answers =>
    s.HasReader bNew ∧ s.connection.Connects answers ∧
      (kind = .getPlayerData → AnswersArray s.connection answers)
  | _ => True

/-- The readers were used and released by who held them, the query `i` holds none any more, and the
pool has every reader that nobody holds. -/
def Returned (s : FxRedisModule) (i : Nat) : Prop :=
  ∃ held, Custody.holders s.log = some held ∧ (∀ o, held o ≠ some i) ∧
    ∀ o < s.readerPool.allocated, held o = none → o ∈ s.readerPool.listFree

/-- `QueryDirect` comes to its end, and the reader is back. -/
def Robust (s : FxRedisModule) : Label → Prop
  | .queryDirect kind bNew answers =>
    ∃ result s', s.queryDirect kind bNew answers = some (result, s') ∧ s'.Returned s.serial
  | _ => True

/-- Between the steps, `out` is handed out. -/
structure Kept (s : FxRedisModule) (held : Nat → Option Nat) (out : List Nat) : Prop where
  sound : s.readerPool.Sound out
  counts : TDynamicPoolEx.SameCounts start.readerPool s.readerPool
  holders : Custody.holders s.log = some held
  taken : ∀ o, o ∈ out ↔ held o ≠ none
  querys : ∀ i o, s.querys i = some o ↔ held o = some i
  reply : ∀ o, o ∉ out → s.reply o = none
  fresh : ∀ i, s.serial ≤ i → s.querys i = none

variable {s s' : FxRedisModule} {held : Nat → Option Nat} {out : List Nat} {i o : Nat} {bNew : Bool}
  {answers : RedisAnswers}

theorem kept_start : start.Kept (fun _ => none) [] := by
  constructor
  · exact (TDynamicPoolEx.kept_start (by decide) (by decide)).sound
  · exact ⟨rfl, rfl, rfl⟩
  · rfl
  · simp
  · simp [start]
  · intro o _
    rfl
  · intro i _
    rfl

theorem start_counts : start.readerPool.maxCount = 0 ∧ start.readerPool.growCount = 1000 ∧
    start.readerPool.locks = true := by
  refine ⟨?_, ?_, ?_⟩ <;> rfl

theorem Kept.held_none (h : s.Kept held out) (ho : o ∉ out) : held o = none := by
  by_contra hne
  exact ho ((h.taken o).mpr hne)

theorem Kept.querys_ne (h : s.Kept held out) {j : Nat} (hi : s.querys i = some o) (hne : j ≠ i) :
    s.querys j ≠ some o := by
  intro hj
  have hsame := ((h.querys i o).mp hi).symm.trans ((h.querys j o).mp hj)
  exact hne (Option.some.inj hsame).symm

theorem Kept.hold (h : s.Kept held out) {readerPool : TDynamicPoolEx} (hi : s.querys i = none)
    (hlt : i < s.serial) (hout : o ∉ out) (hsound : readerPool.Sound (o :: out))
    (hcounts : TDynamicPoolEx.SameCounts s.readerPool readerPool) :
    (s.hold i o readerPool).Kept (Function.update held o (some i)) (o :: out) := by
  constructor
  · exact hsound
  · exact h.counts.trans hcounts
  · exact Custody.holders_take h.holders (h.held_none hout)
  · intro o'
    by_cases heq : o' = o
    · simp [heq]
    · simp [heq, h.taken]
  · intro j o'
    simp only [FxRedisModule.hold]
    by_cases hj : j = i
    · subst hj
      by_cases heq : o' = o
      · simp [heq]
      · have hne : held o' ≠ some j := fun hc => by simp [(h.querys j o').mpr hc] at hi
        simp [Function.update_of_ne heq, hne, Ne.symm heq]
    · by_cases heq : o' = o
      · subst heq
        have hne : s.querys j ≠ some o' := fun hc => by
          simpa [(h.querys j o').mp hc] using h.held_none hout
        simp [Function.update_of_ne hj, hne, Ne.symm hj]
      · simp only [Function.update_of_ne hj, Function.update_of_ne heq]
        exact h.querys j o'
  · intro o' ho'
    exact h.reply o' fun hc => ho' (List.mem_cons_of_mem o hc)
  · intro j hj
    have hne : j ≠ i := Nat.ne_of_gt (Nat.lt_of_lt_of_le hlt hj)
    simp only [FxRedisModule.hold, Function.update_of_ne hne]
    exact h.fresh j hj

theorem fetchReader_none (hreader : ¬ s.HasReader bNew) :
    s.fetchReader i bNew = some (none, s) := by
  obtain ⟨hempty, hnew⟩ := not_or.mp hreader
  rw [FxRedisModule.fetchReader, if_pos ⟨not_not.mp hempty, by simpa using hnew⟩]

/-- A query that holds nothing fetches a reader that nobody holds, and whose reply is `NULL`. -/
theorem Kept.fetchReader (h : s.Kept held out) (hi : s.querys i = none) (hlt : i < s.serial)
    (hreader : s.HasReader bNew) :
    ∃ o readerPool, s.fetchReader i bNew = some (some o, s.hold i o readerPool) ∧
      s.reply o = none ∧ (s.hold i o readerPool).Kept (Function.update held o (some i))
        (o :: out) := by
  obtain ⟨hmax, hgrow, hlocks⟩ := start_counts
  obtain ⟨o, readerPool, hfetch, hout, hsound, hcounts⟩ := h.sound.fetchObj_object
    (h.counts.maxCount.trans hmax) (by rw [h.counts.growCount, hgrow]; decide)
    (h.counts.locks.trans hlocks)
  have hnot : ¬ (s.readerPool.listFree = [] ∧ bNew = false) := by
    rintro ⟨hempty, hnew⟩
    rcases hreader with hne | htrue
    · exact hne hempty
    · simp [hnew] at htrue
  refine ⟨o, readerPool, ?_, h.reply o hout, h.hold hi hlt hout hsound hcounts⟩
  rw [FxRedisModule.fetchReader, if_neg hnot, hfetch]

theorem Kept.drop (h : s.Kept held out) (hi : s.querys i = some o) :
    (s.drop i o (s.readerPool.putBack o)).Kept (Function.update held o none) (out.erase o) := by
  have hheld : held o = some i := (h.querys i o).mp hi
  have hout : o ∈ out := (h.taken o).mpr (by simp [hheld])
  have hlt : o < s.readerPool.allocated :=
    (h.sound.covers o).mp (List.mem_append_right _ hout)
  have hnodup : out.Nodup := (List.nodup_append.mp h.sound.nodup).2.1
  have hmem : ∀ o', o' ∈ out.erase o ↔ o' ≠ o ∧ o' ∈ out := fun o' => hnodup.mem_erase_iff
  constructor
  · exact h.sound.putBack hlt
  · exact h.counts.trans (s.readerPool.putBack_counts o).1
  · exact Custody.holders_release h.holders hheld
  · intro o'
    by_cases heq : o' = o
    · simp [heq, hmem]
    · simp [hmem, heq, h.taken]
  · intro j o'
    simp only [FxRedisModule.drop]
    by_cases hj : j = i
    · subst hj
      by_cases heq : o' = o
      · simp [heq]
      · have hne : held o' ≠ some j := fun hc => by
          have hsame := hi.symm.trans ((h.querys j o').mpr hc)
          exact heq (Option.some.inj hsame).symm
        simp [Function.update_of_ne heq, hne]
    · by_cases heq : o' = o
      · subst heq
        simp [Function.update_of_ne hj, h.querys_ne hi hj]
      · simp only [Function.update_of_ne hj, Function.update_of_ne heq]
        exact h.querys j o'
  · intro o' ho'
    simp only [FxRedisModule.drop]
    by_cases heq : o' = o
    · simp [heq]
    · simp only [Function.update_of_ne heq]
      exact h.reply o' fun hc => ho' ((hmem o').mpr ⟨heq, hc⟩)
  · intro j hj
    simp only [FxRedisModule.drop]
    by_cases heq : j = i
    · simp [heq]
    · simp only [Function.update_of_ne heq]
      exact h.fresh j hj

/-- `Release` of the reader that the query holds. -/
theorem Kept.release (h : s.Kept held out) (hi : s.querys i = some o) :
    s.release i = some (s.drop i o (s.readerPool.putBack o)) := by
  have hlocks : s.readerPool.locks = true := h.counts.locks.trans start_counts.2.2
  simp [FxRedisModule.release, hi, TDynamicPoolEx.releaseObj, hlocks]

theorem Kept.newQuery (h : s.Kept held out) : s.newQuery.Kept held out :=
  ⟨h.sound, h.counts, h.holders, h.taken, h.querys, h.reply,
    fun i hi => h.fresh i (Nat.le_of_succ_le hi)⟩

/-- What becomes of the reply of a reader that is handed out is open. -/
theorem Kept.answer (h : s.Kept held out) (ho : o ∈ out) (connection : FxRedisConnection)
    (reply : Option RedisReply) :
    Kept { s with connection := connection, reply := Function.update s.reply o reply } held
      out := by
  refine ⟨h.sound, h.counts, h.holders, h.taken, h.querys, fun o' ho' => ?_, h.fresh⟩
  have hne : o' ≠ o := fun hc => ho' (hc ▸ ho)
  simp only [Function.update_of_ne hne]
  exact h.reply o' ho'

theorem Kept.use (h : s.Kept held out) (hi : s.querys i = some o) (reply : Option RedisReply) :
    Kept { s with
      reply := Function.update s.reply o reply, log := s.log ++ [.use i (some o)] } held out := by
  have hheld : held o = some i := (h.querys i o).mp hi
  have hanswer := h.answer ((h.taken o).mpr (by simp [hheld])) s.connection reply
  exact ⟨h.sound, h.counts, Custody.holders_use h.holders hheld, h.taken, h.querys, hanswer.reply,
    h.fresh⟩

/-- A query that holds no reader has brought back what it held. -/
theorem Kept.returned (h : s.Kept held out) (hi : s.querys i = none) : s.Returned i := by
  refine ⟨held, h.holders, fun o ho => ?_, fun o ho hheld => ?_⟩
  · rw [(h.querys i o).mpr ho] at hi
    cases hi
  · rcases List.mem_append.mp ((h.sound.covers o).mpr ho) with hfree | hout
    · exact hfree
    · exact absurd hheld ((h.taken o).mp hout)

/-- Only the player data asks for elements, and for three. -/
theorem read_isSome_iff (kind : RedisQueryKind) (reply : Option RedisReply) :
    (∃ r, kind.read reply = some r) ↔
      (kind = .getPlayerData →
        ∃ elements, reply = some (.array elements) ∧ 3 ≤ elements.length) := by
  cases kind with
  | getServerId => exact iff_of_true ⟨_, rfl⟩ (by simp)
  | teamId => exact iff_of_true ⟨_, rfl⟩ (by simp)
  | getPlayerData =>
    simp only [RedisQueryKind.read, forall_const]
    rcases reply with _ | ⟨_ | elements | _ | _ | _ | _⟩
    case some.array =>
      match elements with
      | [] => simp [RedisReply.getStrings]
      | [a] => simp [RedisReply.getStrings]
      | [a, b] => simp [RedisReply.getStrings]
      | a :: b :: c :: rest => simp [RedisReply.getStrings]
    all_goals simp [RedisReply.getStrings]

/-- Without a reader `OnResult` goes through a null pointer. -/
theorem Kept.queryDirect_none (h : s.Kept held out) (kind : RedisQueryKind)
    (hreader : ¬ s.HasReader bNew) : s.queryDirect kind bNew answers = none := by
  have hi : s.newQuery.querys s.serial = none := h.fresh s.serial le_rfl
  have hfetch : s.newQuery.fetchReader s.serial bNew = some (none, s.newQuery) :=
    fetchReader_none hreader
  rw [queryDirect, query, if_neg (not_not.mpr hi), hfetch]
  simp [onResult, hi]

/-- With a reader, all hangs on what `OnResult` reads of the reply. -/
theorem Kept.queryDirect_some (h : s.Kept held out) (kind : RedisQueryKind)
    (hreader : s.HasReader bNew) {nRetCode : Int} {reply reply' : Option RedisReply}
    {connection : FxRedisConnection} {result : RedisResult}
    (hquery : s.connection.queryReader answers none = some (nRetCode, reply, connection))
    (hread : kind.read reply = some (result, reply')) :
    ∃ s', s.queryDirect kind bNew answers = some (result, s') ∧ s'.querys s.serial = none ∧
      ∃ held' out', s'.Kept held' out' := by
  have hi : s.newQuery.querys s.serial = none := h.fresh s.serial le_rfl
  obtain ⟨o, readerPool, hfetch, hreply, hhold⟩ :=
    h.newQuery.fetchReader hi (Nat.lt_succ_self _) hreader
  have hquerys : (s.newQuery.hold s.serial o readerPool).querys s.serial = some o :=
    Function.update_self ..
  have huse := (hhold.answer List.mem_cons_self connection reply).use hquerys reply'
  refine ⟨_, ?_, Function.update_self .., _, _, huse.drop hquerys⟩
  rw [FxRedisModule.queryDirect, query, if_neg (not_not.mpr hi), hfetch]
  have hreply' : (s.newQuery.hold s.serial o readerPool).reply o = none := hreply
  have hquery' : (s.newQuery.hold s.serial o readerPool).connection.queryReader answers none =
      some (nRetCode, reply, connection) := hquery
  simp only [hreply', hquery', Option.bind_eq_bind, Option.bind_some, Option.pure_def, onResult,
    hquerys, Function.update_self, hread, huse.release hquerys]

theorem Kept.queryDirect_read_none (h : s.Kept held out) (kind : RedisQueryKind)
    (hreader : s.HasReader bNew)
    (hread : ∀ nRetCode reply connection,
      s.connection.queryReader answers none = some (nRetCode, reply, connection) →
        kind.read reply = none) :
    s.queryDirect kind bNew answers = none := by
  have hi : s.newQuery.querys s.serial = none := h.fresh s.serial le_rfl
  obtain ⟨o, readerPool, hfetch, hreply, -⟩ :=
    h.newQuery.fetchReader hi (Nat.lt_succ_self _) hreader
  have hquerys : (s.newQuery.hold s.serial o readerPool).querys s.serial = some o :=
    Function.update_self ..
  have hreply' : (s.newQuery.hold s.serial o readerPool).reply o = none := hreply
  rw [FxRedisModule.queryDirect, query, if_neg (not_not.mpr hi), hfetch]
  simp only [hreply']
  cases hquery : (s.newQuery.hold s.serial o readerPool).connection.queryReader answers none with
  | none => rfl
  | some r =>
    obtain ⟨nRetCode, reply, connection⟩ := r
    simp only [Option.bind_eq_bind, Option.bind_some, Option.pure_def, onResult, hquerys,
      Function.update_self, hread nRetCode reply connection hquery, Option.bind_none]

/-- The connection answers what `OnResult` can read. -/
theorem answered_iff (kind : RedisQueryKind) :
    s.Answered (.queryDirect kind bNew answers) ↔
      s.HasReader bNew ∧ ∃ nRetCode reply connection r,
        s.connection.queryReader answers none = some (nRetCode, reply, connection) ∧
          kind.read reply = some r := by
  refine and_congr_right fun _ => ?_
  by_cases hconnects : s.connection.Connects answers
  · obtain ⟨⟨nRetCode, reply, connection⟩, hquery⟩ := Option.ne_none_iff_exists'.mp
      (mt (FxRedisConnection.queryReader_none_iff none).mp (not_not.mpr hconnects))
    obtain ⟨hreaches, hnot⟩ := FxRedisConnection.queryReader_reply hquery
    have hread := read_isSome_iff kind reply
    have harray : AnswersArray s.connection answers ↔
        ∃ elements, reply = some (.array elements) ∧ 3 ≤ elements.length := by
      rw [AnswersArray]
      by_cases hc : s.connection.Reaches answers
      · rw [hreaches hc]
        simp only [hc, true_and, Option.filter_eq_some_iff]
        refine exists_congr fun elements => and_congr_left fun _ => ?_
        simp [RedisReply.isError]
      · simp [hnot hc, hc]
    rw [harray, ← hread]
    constructor
    · rintro ⟨-, r, hr⟩
      exact ⟨nRetCode, reply, connection, r, hquery, hr⟩
    · rintro ⟨nRetCode', reply', connection', r, hquery', hr⟩
      obtain ⟨-, hrest⟩ := Prod.mk.inj (Option.some.inj (hquery.symm.trans hquery'))
      obtain ⟨rfl, -⟩ := Prod.mk.inj hrest
      exact ⟨hconnects, r, hr⟩
  · have hquery := (FxRedisConnection.queryReader_none_iff none).mpr hconnects
    simp [hconnects, hquery]

/-- One query in a kept state. -/
theorem Kept.robust_iff (h : s.Kept held out) (l : Label) : s.Robust l ↔ s.Answered l := by
  cases l with
  | fetch bNew reply => exact Iff.rfl
  | release i => exact Iff.rfl
  | connection l => exact Iff.rfl
  | queryDirect kind bNew answers =>
    rw [answered_iff]
    constructor
    · rintro ⟨result, s', hdirect, -⟩
      by_contra hnot
      have hnone : s.queryDirect kind bNew answers = none := by
        by_cases hreader : s.HasReader bNew
        · refine h.queryDirect_read_none kind hreader fun nRetCode reply connection hquery => ?_
          by_contra hread
          obtain ⟨r, hr⟩ := Option.ne_none_iff_exists'.mp hread
          exact hnot ⟨hreader, nRetCode, reply, connection, r, hquery, hr⟩
        · exact h.queryDirect_none kind hreader
      rw [hnone] at hdirect
      cases hdirect
    · rintro ⟨hreader, nRetCode, reply, connection, ⟨result, reply'⟩, hquery, hread⟩
      obtain ⟨s', hdirect, hi, held', out', hkept⟩ :=
        h.queryDirect_some kind hreader hquery hread
      exact ⟨result, s', hdirect, hkept.returned hi⟩

theorem Kept.step (h : s.Kept held out) {l : Label} (hrobust : s.Robust l)
    (hstep : s.step l = some s') : ∃ held' out', s'.Kept held' out' := by
  cases l with
  | queryDirect kind bNew answers =>
    obtain ⟨hreader, nRetCode, reply, connection, ⟨result, reply'⟩, hquery, hread⟩ :=
      (answered_iff kind).mp ((h.robust_iff _).mp hrobust)
    obtain ⟨s'', hdirect, -, hkept⟩ := h.queryDirect_some kind hreader hquery hread
    simp only [FxRedisModule.step, hdirect, Option.map_some, Option.some.injEq] at hstep
    exact hstep ▸ hkept
  | fetch bNew reply =>
    have hi : s.newQuery.querys s.serial = none := h.fresh s.serial le_rfl
    by_cases hreader : s.HasReader bNew
    · obtain ⟨o, readerPool, hfetch, -, hhold⟩ :=
        h.newQuery.fetchReader hi (Nat.lt_succ_self _) hreader
      simp only [FxRedisModule.step, hfetch, Option.map_some, Option.some.injEq] at hstep
      exact ⟨_, _, hstep ▸ hhold.answer List.mem_cons_self s.connection reply⟩
    · have hfetch : s.newQuery.fetchReader s.serial bNew = some (none, s.newQuery) :=
        fetchReader_none hreader
      simp only [FxRedisModule.step, hfetch, Option.map_some, Option.some.injEq] at hstep
      exact ⟨held, out, hstep ▸ h.newQuery⟩
  | release i =>
    cases hi : s.querys i with
    | none => simp [FxRedisModule.step, FxRedisModule.release, hi] at hstep
    | some o =>
      rw [FxRedisModule.step, h.release hi] at hstep
      exact ⟨_, _, Option.some.inj hstep ▸ h.drop hi⟩
  | connection l =>
    obtain ⟨connection, -, rfl⟩ := Option.map_eq_some_iff.mp hstep
    exact ⟨held, out, h.sound, h.counts, h.holders, h.taken, h.querys, h.reply, h.fresh⟩

/-- In the runs behind `Init`, every query of the three comes to its end and brings its reader back
if and only if each has a reader, its connection meets no null pointer, and the player data gets at
least three elements. -/
theorem always_robust_iff (ls : List Label) :
    Transition.Always step Robust start ls ↔ Transition.Always step Answered start ls := by
  refine Transition.always_iff (fun s => ∃ held out, s.Kept held out) ?_ ?_
    ⟨_, _, kept_start⟩
  · rintro s l ⟨held, out, h⟩
    exact h.robust_iff l
  · rintro s l s' ⟨held, out, h⟩ hrobust hstep
    exact h.step hrobust hstep

/-- Redis cannot be reached, and the vector that the player data is taken from stays empty. -/
theorem not_always_robust_of_unreached :
    ¬ ∀ ls, Transition.Always step Robust start ls := by
  intro hall
  have hrobust := (hall [.queryDirect .getPlayerData true ⟨some true, none, none⟩]).1
  obtain ⟨-, -, harray⟩ := (kept_start.robust_iff _).mp hrobust
  obtain ⟨hreaches | hreaches, -⟩ := harray rfl
  · exact hreaches rfl
  · cases hreaches

end FxRedisModule
