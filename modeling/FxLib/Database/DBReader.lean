import Mathlib.Logic.Function.Basic
import FxLib.Lib.Custody
import FxLib.Meta.DynamicPoolEx

/-!
# Readers of queries

The pooled `FxMySQLReader` objects of `Database/dbreader.cpp`: `FxMySqlClient::Query` fetches one
for a query, and the query classes of the chat server release it. `OnQuery` runs in the thread of
the one client that they name, `OnResult` and `Release` in the main thread.
-/

/-- The query classes of the chat server. -/
inductive DBQueryKind where
  | unreadChat
  | loadGroup
  | loadGroups
  | createGroup
  | chat
  | groupChat
  | inviteGroupMember
  | leaveGroup
  deriving DecidableEq

/-- The class has an `m_pReader`. -/
def DBQueryKind.reads : DBQueryKind → Bool
  | .unreadChat | .loadGroup | .loadGroups | .createGroup => true
  | .chat | .groupChat | .inviteGroupMember | .leaveGroup => false

/-- What `FxMySQLConnection::Query` answers with a reader. -/
inductive ConnResult where
  | errUnknown
  | errConn
  | noResult
  | hasResult
  deriving DecidableEq

/-- What `FxMySqlClient::Query` answers with a reader. -/
inductive DBResult where
  | errReader
  | disconnect
  | conn (code : ConnResult)
  deriving DecidableEq

namespace DBReaders

inductive Stage where
  | added
  | inQuery
  | queried
  | inResult
  deriving DecidableEq

structure Query where
  kind : DBQueryKind
  stage : Stage
  pReader : Option Nat

/-- The thread of the client. -/
inductive ThreadPc where
  | idle
  /-- Before `m_poMySqlConn->Query`. -/
  | connQuery (i : Nat)
  /-- Behind `FxMySqlClient::Query`. -/
  | returned (i : Nat) (code : DBResult)
  deriving DecidableEq

end DBReaders

/-- `log` says what the queries have done with the readers. -/
structure DBReaders where
  readerPool : TDynamicPoolEx
  dbOK : Bool
  /-- The queries that are not deleted. -/
  querys : Nat → Option DBReaders.Query
  serial : Nat
  thread : DBReaders.ThreadPc
  main : Option Nat
  log : List (Custody.Act Nat Nat)

namespace DBReaders

inductive Label where
  | addQuery (kind : DBQueryKind)
  /-- `OnQuery`, up to the answer of `FetchReader`. -/
  | onQuery (i : Nat)
  | connQuery (code : ConnResult)
  /-- The rest of `OnQuery`. -/
  | test
  | reconnect
  /-- `OnResult`, up to the first `GetNextRecord`. -/
  | onResult (i : Nat)
  | getNextRecord
  | release
  deriving DecidableEq

def start : DBReaders :=
  ⟨(TDynamicPoolEx.start 1000 100 0).pool, true, fun _ => none, 0, .idle, none, []⟩

def setQuery (s : DBReaders) (i : Nat) (q : Option Query) : DBReaders :=
  { s with querys := Function.update s.querys i q }

/-- `m_pReader->GetNextRecord()`. -/
def useReader (s : DBReaders) (i : Nat) (q : Query) : DBReaders :=
  { s with log := s.log ++ [.use i q.pReader] }

/-- `m_pReader->Release()`; nothing but the entry when the pointer is NULL. -/
def releaseReader (s : DBReaders) (i : Nat) (q : Query) : DBReaders :=
  { s with
    readerPool := (s.readerPool.releaseObj q.pReader).getD s.readerPool
    log := s.log ++ [.release i q.pReader] }

/-- `FxMySqlClient::Query` up to the answer of `FetchReader`. -/
def clientQuery (s : DBReaders) (i : Nat) (q : Query) : Option DBReaders :=
  if q.pReader ≠ none then
    some { s.setQuery i (some q) with thread := .returned i .errReader }
  else if s.dbOK = false then
    some { s.setQuery i (some { q with pReader := none }) with thread := .returned i .disconnect }
  else
    match s.readerPool.fetchObj with
    | none => none
    | some (none, pool) =>
      some { s.setQuery i (some q) with readerPool := pool, thread := .returned i .errReader }
    | some (some poReader, pool) =>
      some { s.setQuery i (some { q with pReader := some poReader }) with
        readerPool := pool, thread := .connQuery i, log := s.log ++ [.take i poReader] }

def step (s : DBReaders) : Label → Option DBReaders
  | .addQuery kind =>
    some { s.setQuery s.serial (some ⟨kind, .added, none⟩) with serial := s.serial + 1 }
  | .onQuery i =>
    match s.thread, s.querys i with
    | .idle, some q =>
      if q.stage ≠ .added then none
      else if q.kind.reads then s.clientQuery i { q with stage := .inQuery }
      else some (s.setQuery i (some { q with stage := .queried }))
    | _, _ => none
  | .connQuery code =>
    match s.thread with
    | .connQuery i =>
      (s.querys i).map fun q =>
        { s.useReader i q with
          dbOK := s.dbOK && !decide (code = .errConn), thread := .returned i (.conn code) }
    | _ => none
  | .test =>
    match s.thread with
    | .returned i code =>
      (s.querys i).map fun q =>
        let s' := if code ≠ .conn .hasResult then s.releaseReader i q else s
        { s'.setQuery i (some { q with stage := .queried }) with thread := .idle }
    | _ => none
  | .reconnect => if s.thread = .idle then some { s with dbOK := true } else none
  | .onResult i =>
    match s.main, s.querys i with
    | none, some q =>
      if q.stage ≠ .queried then none
      else
        let s' := if q.kind.reads then s.useReader i q else s
        some { s'.setQuery i (some { q with stage := .inResult }) with main := some i }
    | _, _ => none
  | .getNextRecord =>
    s.main.bind fun i =>
      (s.querys i).map fun q => if q.kind.reads then s.useReader i q else s
  | .release =>
    s.main.bind fun i =>
      (s.querys i).map fun q =>
        let s' := if q.kind.reads then s.releaseReader i q else s
        { s'.setQuery i none with main := none }

/-- The condition on a step: the `FxMySqlClient::Query` of a query with a reader has a result. -/
def HasResult (s : DBReaders) : Label → Prop
  | .onQuery i => ∀ q ∈ s.querys i, q.kind.reads = true → s.dbOK = true
  | .connQuery code => code = .hasResult
  | _ => True

/-- The reader that a query points at. -/
def reader (s : DBReaders) (i : Nat) : Option Nat := (s.querys i).bind (·.pReader)

/-- Every reader is used by one query at a time, is not used through NULL or after its release, and
goes back once: what is not back belongs to a query whose `Release` is still to come. -/
def Exclusive (s : DBReaders) : Prop :=
  ∃ held, Custody.holders s.log = some held ∧ ∀ r i, held r = some i → s.reader i = some r

/-- What the readers of the queries, the pool and the log say of each other. -/
structure Custodian (s : DBReaders) (out : List Nat) (held : Nat → Option Nat) : Prop where
  sound : s.readerPool.Sound out
  holders : Custody.holders s.log = some held
  out : ∀ r, r ∈ out ↔ held r ≠ none
  owner : ∀ r i, held r = some i ↔ s.reader i = some r
  growCount : s.readerPool.growCount ≠ 0
  maxCount : s.readerPool.maxCount = 0
  locks : s.readerPool.locks = true

/-- The pointer of a query at its stage. -/
structure Query.Ok (q : Query) : Prop where
  added : q.stage = .added → q.pReader = none
  unread : q.kind.reads = false → q.pReader = none
  read : q.kind.reads = true → q.stage ≠ .added → q.pReader ≠ none
  inQuery : q.stage = .inQuery → q.kind.reads = true

/-- Where the threads and the queries stand. -/
structure Staged (s : DBReaders) : Prop where
  ok : ∀ i, ∀ q ∈ s.querys i, q.Ok
  fresh : ∀ i, s.serial ≤ i → s.querys i = none
  connQuery : ∀ i, s.thread = .connQuery i → ∃ q ∈ s.querys i, q.stage = .inQuery
  returned : ∀ i code, s.thread = .returned i code →
    code = .conn .hasResult ∧ ∃ q ∈ s.querys i, q.stage = .inQuery
  inResult : ∀ i, s.main = some i → ∃ q ∈ s.querys i, q.stage = .inResult

structure Kept (s : DBReaders) : Prop where
  custody : ∃ out held, Custodian s out held
  staged : Staged s

variable {s s' : DBReaders} {i r : Nat} {q q' : Query} {out : List Nat} {held : Nat → Option Nat}

theorem kept_start : Kept start := by
  have hpool : TDynamicPoolEx.Kept (TDynamicPoolEx.start 1000 100 0) :=
    TDynamicPoolEx.kept_start (by decide) (by decide)
  have hcounts : TDynamicPoolEx.SameCounts
      { TDynamicPoolEx.new with maxCount := 0, growCount := 100, locks := true }
      (TDynamicPoolEx.start 1000 100 0).pool := by
    rw [TDynamicPoolEx.start, TDynamicPoolEx.init, if_neg (by decide)]
    exact TDynamicPoolEx.allocT_counts _ _
  refine ⟨⟨[], fun _ => none, hpool.sound, rfl, by simp, by simp [reader, start], ?_, ?_, ?_⟩,
    by simp [start], by simp [start], by simp [start], by simp [start], by simp [start]⟩
  · exact hcounts.growCount ▸ by decide
  · exact hcounts.maxCount
  · exact hcounts.locks

theorem Kept.exclusive (h : Kept s) : Exclusive s := by
  obtain ⟨out, held, hc⟩ := h.custody
  exact ⟨held, hc.holders, fun r i => (hc.owner r i).mp⟩

/-! ### The steps -/

theorem reader_setQuery (s : DBReaders) (i : Nat) (q : Option Query) (j : Nat) :
    (s.setQuery i q).reader j = if j = i then q.bind (·.pReader) else s.reader j := by
  by_cases hj : j = i
  · subst hj
    simp [reader, setQuery]
  · simp [reader, setQuery, hj]

/-- A query goes on and keeps its pointer. -/
theorem Custodian.setQuery (h : Custodian s out held) (hq : q.pReader = s.reader i) :
    Custodian (s.setQuery i (some q)) out held := by
  refine ⟨h.sound, h.holders, h.out, fun r j => ?_, h.growCount, h.maxCount, h.locks⟩
  rw [h.owner r j, reader_setQuery]
  split_ifs with hj
  · rw [hj, Option.bind_some, hq]
  · exact Iff.rfl

theorem Custodian.of_eq (h : Custodian s out held) (hpool : s'.readerPool = s.readerPool)
    (hlog : s'.log = s.log) (hquerys : s'.querys = s.querys) : Custodian s' out held := by
  refine ⟨hpool ▸ h.sound, hlog ▸ h.holders, h.out, fun r j => ?_, hpool ▸ h.growCount,
    hpool ▸ h.maxCount, hpool ▸ h.locks⟩
  rw [h.owner, reader, reader, hquerys]

/-- The query uses the reader that it points at. -/
theorem Custodian.useReader (h : Custodian s out held) (hq : s.querys i = some q)
    (hr : q.pReader ≠ none) : Custodian (s.useReader i q) out held := by
  obtain ⟨r, hr⟩ := Option.ne_none_iff_exists'.mp hr
  have hheld : held r = some i := (h.owner r i).mpr (by rw [reader, hq, Option.bind_some, hr])
  refine ⟨h.sound, ?_, h.out, h.owner, h.growCount, h.maxCount, h.locks⟩
  simp only [DBReaders.useReader, hr]
  exact Custody.holders_use h.holders hheld

/-- The query releases the reader that it points at, and is deleted. -/
theorem Custodian.releaseReader (h : Custodian s out held) (hq : s.querys i = some q)
    (hr : q.pReader ≠ none) :
    ∃ out' held', Custodian ((s.releaseReader i q).setQuery i none) out' held' := by
  obtain ⟨r, hr⟩ := Option.ne_none_iff_exists'.mp hr
  have howner : s.reader i = some r := by
    rw [reader, hq, Option.bind_some, hr]
  have hheld : held r = some i := (h.owner r i).mpr howner
  have hout : r ∈ out := (h.out r).mpr (by simp [hheld])
  have halloc : r < s.readerPool.allocated :=
    (h.sound.covers r).mp (List.mem_append_right _ hout)
  have hpool : (s.readerPool.releaseObj q.pReader).getD s.readerPool = s.readerPool.putBack r := by
    simp [hr, TDynamicPoolEx.releaseObj, h.locks]
  have hcounts := (s.readerPool.putBack_counts r).1
  have hnodup : out.Nodup := (List.nodup_append.mp h.sound.nodup).2.1
  refine ⟨out.erase r, Function.update held r none, ?_, ?_, fun r' => ?_, fun r' j => ?_, ?_, ?_,
    ?_⟩
  · simp only [DBReaders.releaseReader, DBReaders.setQuery, hpool]
    exact h.sound.putBack halloc
  · simp only [DBReaders.releaseReader, DBReaders.setQuery, hr]
    exact Custody.holders_release h.holders hheld
  · by_cases hr' : r' = r
    · subst hr'
      simp [hnodup.mem_erase_iff]
    · rw [Function.update_of_ne hr', List.mem_erase_of_ne hr']
      exact h.out r'
  · rw [reader_setQuery]
    by_cases hr' : r' = r
    · subst hr'
      rw [Function.update_self]
      split_ifs with hj
      · simp
      · constructor
        · intro hc
          cases hc
        · intro hc
          rw [← Option.some.inj (hheld.symm.trans ((h.owner r' j).mpr hc))] at hj
          exact absurd rfl hj
    · rw [Function.update_of_ne hr', h.owner r' j]
      split_ifs with hj
      · subst hj
        rw [howner]
        simp [Ne.symm hr']
      · exact Iff.rfl
  all_goals simp only [DBReaders.releaseReader, DBReaders.setQuery, hpool]
  · rw [hcounts.growCount]
    exact h.growCount
  · rw [hcounts.maxCount]
    exact h.maxCount
  · rw [hcounts.locks]
    exact h.locks

/-- The query gets a reader. -/
theorem Custodian.take (h : Custodian s out held) (hq : s.reader i = none) {o : Nat}
    {pool : TDynamicPoolEx} (ho : o ∉ out) (hsound : pool.Sound (o :: out))
    (hcounts : TDynamicPoolEx.SameCounts s.readerPool pool) (hr : q.pReader = some o) :
    Custodian { s.setQuery i (some q) with
      readerPool := pool, thread := .connQuery i, log := s.log ++ [.take i o] } (o :: out)
      (Function.update held o (some i)) := by
  have hfree : held o = none := not_not.mp fun hc => ho ((h.out o).mpr hc)
  refine ⟨hsound, Custody.holders_take h.holders hfree, fun r => ?_, fun r j => ?_, ?_, ?_, ?_⟩
  · by_cases hro : r = o
    · subst hro
      simp
    · rw [Function.update_of_ne hro, List.mem_cons, h.out r]
      simp [hro]
  · change _ ↔ (s.setQuery i (some q)).reader j = some r
    rw [reader_setQuery, Option.bind_some, hr]
    by_cases hro : r = o
    · subst hro
      rw [Function.update_self]
      split_ifs with hj
      · simp [hj]
      · rw [← h.owner, hfree]
        simp [Ne.symm hj]
    · rw [Function.update_of_ne hro, h.owner]
      split_ifs with hj
      · subst hj
        simp [hq, Ne.symm hro]
      · exact Iff.rfl
  · rw [hcounts.growCount]
    exact h.growCount
  · rw [hcounts.maxCount]
    exact h.maxCount
  · rw [hcounts.locks]
    exact h.locks

/-- A query comes, goes on, or goes; nobody else's place depends on it. -/
theorem Staged.setQuery (h : Staged s) {next : Option Query} (hok : ∀ q ∈ next, q.Ok)
    (hfresh : i < s.serial)
    (hthread : ∀ code, s.thread = .connQuery i ∨ s.thread = .returned i code →
      ∃ q ∈ next, q.stage = .inQuery)
    (hmain : s.main = some i → ∃ q ∈ next, q.stage = .inResult) :
    Staged (s.setQuery i next) := by
  have hself : (s.setQuery i next).querys i = next := by simp [DBReaders.setQuery]
  have hother : ∀ j, j ≠ i → (s.setQuery i next).querys j = s.querys j := by
    intro j hj
    simp [DBReaders.setQuery, hj]
  refine ⟨fun j q hq => ?_, fun j hj => ?_, fun j ht => ?_, fun j code ht => ⟨?_, ?_⟩,
    fun j hm => ?_⟩
  · by_cases hj : j = i
    · subst hj
      exact hok q (hself ▸ hq)
    · exact h.ok j q (hother j hj ▸ hq)
  · have hj' : s.serial ≤ j := hj
    rw [hother j (by omega)]
    exact h.fresh j hj
  · by_cases hj : j = i
    · subst hj
      rw [hself]
      exact hthread .errReader (Or.inl ht)
    · rw [hother j hj]
      exact h.connQuery j ht
  · exact (h.returned j code ht).1
  · by_cases hj : j = i
    · subst hj
      rw [hself]
      exact hthread code (Or.inr ht)
    · rw [hother j hj]
      exact (h.returned j code ht).2
  · by_cases hj : j = i
    · subst hj
      rw [hself]
      exact hmain hm
    · rw [hother j hj]
      exact h.inResult j hm

theorem Staged.of_eq (h : Staged s) (hquerys : s'.querys = s.querys)
    (hserial : s'.serial = s.serial) (hthread : s'.thread = s.thread)
    (hmain : s'.main = s.main) : Staged s' := by
  refine ⟨?_, ?_, ?_, ?_, ?_⟩
  · rw [hquerys]; exact h.ok
  · rw [hquerys, hserial]; exact h.fresh
  · rw [hquerys, hthread]; exact h.connQuery
  · rw [hquerys, hthread]; exact h.returned
  · rw [hquerys, hmain]; exact h.inResult

/-- The thread leaves its query. -/
theorem Staged.idle (h : Staged s) : Staged { s with thread := .idle } :=
  ⟨h.ok, h.fresh, by simp, by simp, h.inResult⟩

/-- The main thread leaves its query. -/
theorem Staged.leave (h : Staged s) : Staged { s with main := none } :=
  ⟨h.ok, h.fresh, h.connQuery, h.returned, by simp⟩

theorem Staged.lt (h : Staged s) (hq : s.querys i = some q) : i < s.serial := by
  by_contra hle
  rw [h.fresh i (by omega)] at hq
  cases hq

/-- A query that stands elsewhere is not the one of the thread. -/
theorem Staged.not_thread (h : Staged s) (hq : s.querys i = some q) (hstage : q.stage ≠ .inQuery)
    (code : DBResult) : ¬ (s.thread = .connQuery i ∨ s.thread = .returned i code) := by
  rintro (ht | ht)
  · obtain ⟨q', hq', hs⟩ := h.connQuery i ht
    obtain rfl := Option.some.inj (hq.symm.trans hq')
    exact hstage hs
  · obtain ⟨-, q', hq', hs⟩ := h.returned i code ht
    obtain rfl := Option.some.inj (hq.symm.trans hq')
    exact hstage hs

theorem Staged.not_main (h : Staged s) (hq : s.querys i = some q) (hstage : q.stage ≠ .inResult) :
    s.main ≠ some i := by
  intro hm
  obtain ⟨q', hq', hs⟩ := h.inResult i hm
  obtain rfl := Option.some.inj (hq.symm.trans hq')
  exact hstage hs

theorem Kept.addQuery (h : Kept s) (kind : DBQueryKind) :
    Kept { s.setQuery s.serial (some ⟨kind, .added, none⟩) with serial := s.serial + 1 } := by
  have hnone := h.staged.fresh s.serial le_rfl
  obtain ⟨out, held, hc⟩ := h.custody
  have hreader : s.reader s.serial = none := by
    rw [reader, hnone, Option.bind_none]
  have hgrown : Staged { s with serial := s.serial + 1 } :=
    ⟨h.staged.ok, fun i hi => h.staged.fresh i (Nat.le_of_succ_le hi), h.staged.connQuery,
      h.staged.returned, h.staged.inResult⟩
  refine ⟨⟨out, held, (hc.setQuery hreader.symm).of_eq rfl rfl rfl⟩,
    (hgrown.setQuery (i := s.serial) ?_ (Nat.lt_succ_self _) ?_ ?_).of_eq rfl rfl rfl rfl⟩
  · intro q hq
    obtain rfl := Option.some.inj hq
    exact ⟨fun _ => rfl, fun _ => rfl, fun _ hne => absurd rfl hne, fun hc => nomatch hc⟩
  · rintro code (ht | ht)
    · obtain ⟨q, hq, -⟩ := h.staged.connQuery _ ht
      rw [hnone] at hq
      cases hq
    · obtain ⟨-, q, hq, -⟩ := h.staged.returned _ _ ht
      rw [hnone] at hq
      cases hq
  · intro hm
    obtain ⟨q, hq, -⟩ := h.staged.inResult _ hm
    rw [hnone] at hq
    cases hq

/-- The thread takes up a query. -/
theorem Staged.enter (h : Staged s) (hin : ∃ q ∈ s.querys i, q.stage = .inQuery) :
    Staged { s with thread := .connQuery i } := by
  refine ⟨h.ok, h.fresh, fun j ht => ?_, by simp, h.inResult⟩
  obtain rfl := ThreadPc.connQuery.inj ht
  exact hin

theorem Kept.onQuery (h : Kept s) (hgood : ∀ q ∈ s.querys i, q.kind.reads = true → s.dbOK = true)
    (hstep : s.step (.onQuery i) = some s') : Kept s' := by
  obtain ⟨out, held, hc⟩ := h.custody
  rw [DBReaders.step] at hstep
  split at hstep
  · next q hthread hq =>
    have hok := h.staged.ok i q hq
    have hnone : ∀ code, ¬ (s.thread = .connQuery i ∨ s.thread = .returned i code) := by
      simp [hthread]
    split_ifs at hstep with hstage hreads
    · rw [not_not] at hstage
      have hreader : s.reader i = none := by
        rw [reader, hq, Option.bind_some, hok.added hstage]
      have hmain := h.staged.not_main hq (by simp [hstage])
      obtain ⟨o, pool, hfetch, ho, hsound, hcounts⟩ :=
        hc.sound.fetchObj_object hc.maxCount hc.growCount hc.locks
      rw [clientQuery, if_neg (by simp [hok.added hstage]), if_neg (by simp [hgood q hq hreads]),
        hfetch] at hstep
      obtain rfl := Option.some.inj hstep
      refine ⟨⟨_, _, hc.take hreader ho hsound hcounts rfl⟩, ?_⟩
      have htaken : Staged (s.setQuery i (some ⟨q.kind, .inQuery, some o⟩)) := by
        refine h.staged.setQuery ?_ (h.staged.lt hq) (fun code ht => absurd ht (hnone code))
          fun hm => absurd hm hmain
        intro q' hq'
        obtain rfl := Option.some.inj hq'
        exact ⟨(fun hc => nomatch hc), (fun hc => absurd hreads (by simp [hc])),
          (fun _ _ hc => nomatch hc), fun _ => hreads⟩
      exact (htaken.enter ⟨⟨q.kind, .inQuery, some o⟩, by simp [DBReaders.setQuery], rfl⟩).of_eq
        rfl rfl rfl rfl
    · rw [not_not] at hstage
      obtain rfl := Option.some.inj hstep
      have hreads' : q.kind.reads = false := by simpa using hreads
      refine ⟨⟨out, held, hc.setQuery (by simp [reader, hq])⟩, h.staged.setQuery ?_
        (h.staged.lt hq) (fun code ht => absurd ht (hnone code))
        fun hm => absurd hm (h.staged.not_main hq (by simp [hstage]))⟩
      intro q' hq'
      obtain rfl := Option.some.inj hq'
      exact ⟨(fun hc => nomatch hc), hok.unread, (fun hc => absurd hc hreads),
        fun hc => nomatch hc⟩
  · cases hstep

theorem Kept.connQuery (h : Kept s) {code : ConnResult} (hgood : code = .hasResult)
    (hstep : s.step (.connQuery code) = some s') : Kept s' := by
  obtain ⟨out, held, hc⟩ := h.custody
  rw [DBReaders.step] at hstep
  split at hstep
  · next i hthread =>
    obtain ⟨q, hq, hstage⟩ := h.staged.connQuery i hthread
    rw [show s.querys i = some q from hq, Option.map_some] at hstep
    obtain rfl := Option.some.inj hstep
    have hok := h.staged.ok i q hq
    have hr : q.pReader ≠ none := hok.read (hok.inQuery hstage) (by simp [hstage])
    refine ⟨⟨out, held, (hc.useReader hq hr).of_eq rfl rfl rfl⟩, h.staged.ok, h.staged.fresh,
      by simp, fun j code' ht => ?_, h.staged.inResult⟩
    obtain ⟨rfl, rfl⟩ := ThreadPc.returned.inj ht
    exact ⟨by rw [hgood], q, hq, hstage⟩
  · cases hstep

theorem Kept.test (h : Kept s) (hstep : s.step .test = some s') : Kept s' := by
  obtain ⟨out, held, hc⟩ := h.custody
  rw [DBReaders.step] at hstep
  split at hstep
  · next i code hthread =>
    obtain ⟨hcode, q, hq, hstage⟩ := h.staged.returned i code hthread
    rw [show s.querys i = some q from hq, Option.map_some] at hstep
    simp only [hcode, ne_eq, not_true_eq_false, if_false] at hstep
    obtain rfl := Option.some.inj hstep
    have hok := h.staged.ok i q hq
    have hr : q.pReader ≠ none := hok.read (hok.inQuery hstage) (by simp [hstage])
    have hreader : s.reader i = q.pReader := by
      rw [reader, show s.querys i = some q from hq, Option.bind_some]
    refine ⟨⟨out, held, (hc.setQuery (q := { q with stage := .queried }) hreader.symm).of_eq
      rfl rfl rfl⟩, (h.staged.idle.setQuery (i := i) ?_ (h.staged.lt hq) (by simp) ?_).of_eq
        rfl rfl rfl rfl⟩
    · intro q' hq'
      obtain rfl := Option.some.inj hq'
      exact ⟨(fun hc => nomatch hc), hok.unread, (fun _ _ => hr), fun hc => nomatch hc⟩
    · exact fun hm => absurd hm (h.staged.not_main hq (by simp [hstage]))
  · cases hstep

/-- The main thread takes up a query. -/
theorem Staged.begin (h : Staged s) (hin : ∃ q ∈ s.querys i, q.stage = .inResult) :
    Staged { s with main := some i } := by
  refine ⟨h.ok, h.fresh, h.connQuery, h.returned, fun j hm => ?_⟩
  obtain rfl := Option.some.inj hm
  exact hin

theorem Kept.onResult (h : Kept s) (hstep : s.step (.onResult i) = some s') : Kept s' := by
  obtain ⟨out, held, hc⟩ := h.custody
  rw [DBReaders.step] at hstep
  split at hstep
  · next q hmain hq =>
    have hok := h.staged.ok i q hq
    have hreader : s.reader i = q.pReader := by
      rw [reader, hq, Option.bind_some]
    have hstaged (hstage : q.stage = .queried) :
        Staged { s.setQuery i (some { q with stage := .inResult }) with main := some i } := by
      refine (h.staged.setQuery ?_ (h.staged.lt hq) (fun code ht => ?_) (by simp [hmain])).begin
        ⟨{ q with stage := .inResult }, by simp [DBReaders.setQuery], rfl⟩
      · intro q' hq'
        obtain rfl := Option.some.inj hq'
        exact ⟨(fun hc => nomatch hc), hok.unread, (fun hr _ => hok.read hr (by simp [hstage])),
          fun hc => nomatch hc⟩
      · exact absurd ht (h.staged.not_thread hq (by simp [hstage]) code)
    split_ifs at hstep with hstage hreads
    · rw [not_not] at hstage
      obtain rfl := Option.some.inj hstep
      have hc₁ := (hc.useReader hq (hok.read hreads (by simp [hstage]))).setQuery (i := i)
        (q := { q with stage := .inResult }) (show _ = (s.useReader i q).reader i from hreader.symm)
      exact ⟨⟨out, held, hc₁.of_eq rfl rfl rfl⟩, (hstaged hstage).of_eq rfl rfl rfl rfl⟩
    · rw [not_not] at hstage
      obtain rfl := Option.some.inj hstep
      have hc₁ := hc.setQuery (i := i) (q := { q with stage := .inResult }) hreader.symm
      exact ⟨⟨out, held, hc₁.of_eq rfl rfl rfl⟩, (hstaged hstage).of_eq rfl rfl rfl rfl⟩
  · cases hstep

theorem Kept.getNextRecord (h : Kept s) (hstep : s.step .getNextRecord = some s') : Kept s' := by
  obtain ⟨out, held, hc⟩ := h.custody
  obtain ⟨i, hmain, hstep⟩ := Option.bind_eq_some_iff.mp hstep
  obtain ⟨q, hq, rfl⟩ := Option.map_eq_some_iff.mp hstep
  obtain ⟨q', hq', hstage⟩ := h.staged.inResult i hmain
  obtain rfl := Option.some.inj (hq.symm.trans hq')
  split_ifs with hreads
  · have hr := (h.staged.ok i q hq).read hreads (by simp [hstage])
    exact ⟨⟨out, held, hc.useReader hq hr⟩, h.staged.of_eq rfl rfl rfl rfl⟩
  · exact h

theorem Kept.release (h : Kept s) (hstep : s.step .release = some s') : Kept s' := by
  obtain ⟨out, held, hc⟩ := h.custody
  obtain ⟨i, hmain, hstep⟩ := Option.bind_eq_some_iff.mp hstep
  obtain ⟨q, hq, rfl⟩ := Option.map_eq_some_iff.mp hstep
  obtain ⟨q', hq', hstage⟩ := h.staged.inResult i hmain
  obtain rfl := Option.some.inj (hq.symm.trans hq')
  have hok := h.staged.ok i q hq
  have hstaged : Staged ({ s with main := none }.setQuery i none) :=
    h.staged.leave.setQuery (by simp) (h.staged.lt hq)
      (fun code ht => absurd ht (h.staged.not_thread hq (by simp [hstage]) code)) (by simp)
  by_cases hreads : q.kind.reads = true
  · obtain ⟨out', held', hc'⟩ := hc.releaseReader hq (hok.read hreads (by simp [hstage]))
    simp only [hreads, if_true]
    exact ⟨⟨out', held', hc'.of_eq rfl rfl rfl⟩, hstaged.of_eq rfl rfl rfl rfl⟩
  · simp only [hreads]
    have hnone : s.reader i = none := by
      rw [reader, hq, Option.bind_some, hok.unread (by simpa using hreads)]
    refine ⟨⟨out, held, hc.sound, hc.holders, hc.out, fun r j => ?_, hc.growCount, hc.maxCount,
      hc.locks⟩, hstaged.of_eq rfl rfl rfl rfl⟩
    change _ ↔ (s.setQuery i none).reader j = some r
    rw [hc.owner, reader_setQuery]
    split_ifs with hj
    · rw [hj, hnone]
      exact Iff.rfl
    · exact Iff.rfl

theorem Kept.step (h : Kept s) {l : Label} (hgood : HasResult s l) (hstep : s.step l = some s') :
    Kept s' := by
  cases l with
  | addQuery kind =>
    obtain rfl := Option.some.inj hstep
    exact h.addQuery kind
  | onQuery i => exact h.onQuery hgood hstep
  | connQuery code => exact h.connQuery hgood hstep
  | test => exact h.test hstep
  | reconnect =>
    rw [DBReaders.step] at hstep
    split_ifs at hstep
    obtain rfl := Option.some.inj hstep
    obtain ⟨out, held, hc⟩ := h.custody
    exact ⟨⟨out, held, hc.of_eq rfl rfl rfl⟩, h.staged.of_eq rfl rfl rfl rfl⟩
  | onResult i => exact h.onResult hstep
  | getNextRecord => exact h.getNextRecord hstep
  | release => exact h.release hstep

/-- Any order of the sections of the two threads, any queries. -/
theorem readers_exclusive {labels : List Label}
    (hgood : Transition.Always step HasResult start labels)
    (hrun : Transition.run step start labels = some s) : Exclusive s :=
  (Transition.invariant_of_always (fun _ _ _ h hgood hstep => Kept.step h hgood hstep) kept_start
    hgood hrun).exclusive

instance (s : DBReaders) : (l : Label) → Decidable (HasResult s l)
  | .onQuery i =>
    match hq : s.querys i with
    | none => isTrue (by simp [HasResult, hq])
    | some q =>
      decidable_of_iff (q.kind.reads = true → s.dbOK = true) (by simp [HasResult, hq])
  | .connQuery _ => inferInstanceAs (Decidable (_ = _))
  | .addQuery _ | .test | .reconnect | .onResult _ | .getNextRecord | .release =>
    inferInstanceAs (Decidable True)

/-- Two queries with readers, the second one fetches while the first one is read. -/
theorem readers_exclusive_two :
    ∃ s, Transition.run step start [.addQuery .unreadChat, .addQuery .loadGroups, .onQuery 0,
        .connQuery .hasResult, .test, .onResult 0, .onQuery 1, .getNextRecord,
        .connQuery .hasResult, .release, .test] = some s ∧ Exclusive s := by
  obtain ⟨s, hrun⟩ : ∃ s, Transition.run step start [.addQuery .unreadChat, .addQuery .loadGroups,
      .onQuery 0, .connQuery .hasResult, .test, .onResult 0, .onQuery 1, .getNextRecord,
      .connQuery .hasResult, .release, .test] = some s :=
    Option.isSome_iff_exists.mp (by decide +kernel)
  exact ⟨s, hrun, readers_exclusive (by decide +kernel) hrun⟩

/-- A player without unread messages logs in: the reader goes back in `OnQuery`, and `OnResult`
reads it. -/
theorem not_exclusive_of_noResult :
    ∃ s, Transition.run step start [.addQuery .unreadChat, .onQuery 0, .connQuery .noResult, .test,
        .onResult 0] = some s ∧ ¬ Exclusive s := by
  obtain ⟨s, hrun, hs⟩ := Option.map_eq_some_iff.mp (show (Transition.run step start
      [.addQuery .unreadChat, .onQuery 0, .connQuery .noResult, .test, .onResult 0]).map
      (fun s => (Custody.holders s.log).isNone) = some true by decide +kernel)
  refine ⟨s, hrun, ?_⟩
  rintro ⟨held, hheld, -⟩
  rw [hheld] at hs
  cases hs

end DBReaders
