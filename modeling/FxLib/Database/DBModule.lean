import Mathlib.Data.List.Sort
import Mathlib.Logic.Function.Basic
import FxLib.Database.DBClient
import FxLib.Lib.Lifecycle
import FxLib.Lib.Transition

/-!
# The database module

`FxDBModule` of `Database/dbmodule.cpp` with the threads of its clients. `OnResult` may call the
module again, as it runs in the main thread; `Open` and `Uninit` are not called from there.
-/

namespace FxDBModule

/-- A call that the main thread is in. -/
inductive Frame where
  | run (dwCount : Nat)
  /-- `__CallBackResult`, before the call of `OnResult` or inside it. -/
  | callBack (poQuery : DBQuery) (called : Bool)
  /-- `Close` in `WaitFor`. -/
  | close (dwDBId : Nat)
  /-- `Uninit` in its loop, with what the iterator has before it. -/
  | uninit (ids : List Nat)
  | clearResult
  deriving DecidableEq

end FxDBModule

structure FxDBModule where
  resultList : List DBQuery
  /-- The keys of `m_mapDBClient` in their order. -/
  dbIds : List Nat
  mapDBClient : Nat → Option FxMySqlClient
  /-- The main thread, the innermost call first. -/
  stack : List FxDBModule.Frame
  serial : Nat
  log : List (Stage × DBQuery)

namespace FxDBModule

open FxMySqlClient Lifecycle

inductive Label where
  /-- A section of the thread of a client. -/
  | thread (dwDBId : Nat) (nNow : Int) (good : Bool)
  | open (dwDBId : Nat) (connects : Bool)
  /-- `AddQuery` of NULL, or of a new query with this `GetDBId`. -/
  | addQuery (poQuery : Option Nat)
  | run (dwCount : Nat)
  | close (dwDBId : Nat)
  | uninit
  /-- The main thread goes on in the call it is in. -/
  | main
  deriving DecidableEq

def start : FxDBModule := ⟨[], [], fun _ => none, [], 0, []⟩

def setClient (s : FxDBModule) (dwDBId : Nat) (c : Option FxMySqlClient) : FxDBModule :=
  { s with mapDBClient := Function.update s.mapDBClient dwDBId c }

/-- The main thread runs code that may call the module. -/
def Calling (s : FxDBModule) : Prop :=
  match s.stack with
  | [] => True
  | .callBack _ true :: _ => True
  | _ => False

instance (s : FxDBModule) : Decidable s.Calling := by
  unfold Calling
  split <;> infer_instance

def apply (s : FxDBModule) (dwDBId : Nat) (c : FxMySqlClient) : Effect → FxDBModule
  | .silent => s.setClient dwDBId (some c)
  | .onQuery poQuery =>
    { s.setClient dwDBId (some c) with log := s.log ++ [(.queried, poQuery)] }
  | .addResult poQuery =>
    { s.setClient dwDBId (some c) with resultList := s.resultList ++ [poQuery] }

def addQuery (s : FxDBModule) : Option Nat → FxDBModule
  | none => s
  | some dwDBId =>
    match s.mapDBClient dwDBId with
    | none => s
    | some c =>
      let poQuery : DBQuery := ⟨dwDBId, s.serial⟩
      { s.setClient dwDBId (some (c.addQuery poQuery)) with
        serial := s.serial + 1, log := s.log ++ [(.accepted, poQuery)] }

def «open» (s : FxDBModule) (dwDBId : Nat) (connects : Bool) : FxDBModule :=
  match s.mapDBClient dwDBId with
  | some _ => s
  | none =>
    if connects then
      { s.setClient dwDBId (some started) with dbIds := s.dbIds.orderedInsert (· ≤ ·) dwDBId }
    else s

def close (s : FxDBModule) (dwDBId : Nat) : FxDBModule :=
  match s.mapDBClient dwDBId with
  | none => s
  | some c =>
    { s.setClient dwDBId (some { c with terminate := true }) with
      stack := .close dwDBId :: s.stack }

/-- `__CallBackResult` up to the call of `OnResult`; the loops end when there is no result. -/
def takeResult (s : FxDBModule) (rest here : List Frame) : FxDBModule :=
  match s.resultList with
  | [] => { s with stack := rest }
  | poQuery :: resultList =>
    { s with resultList := resultList, stack := .callBack poQuery false :: here }

/-- The next section of the main thread; `none` when it is outside the module, or waits. -/
def main (s : FxDBModule) : Option FxDBModule :=
  match s.stack with
  | [] => none
  | .run 0 :: rest => some { s with stack := rest }
  | .run (dwCount + 1) :: rest => some (s.takeResult rest (.run dwCount :: rest))
  | .callBack poQuery false :: rest =>
    some { s with stack := .callBack poQuery true :: rest, log := s.log ++ [(.answered, poQuery)] }
  | .callBack poQuery true :: rest =>
    some { s with stack := rest, log := s.log ++ [(.released, poQuery)] }
  | .close dwDBId :: rest =>
    match s.mapDBClient dwDBId with
    | none => some { s with stack := rest }
    | some c =>
      if c.pc = .done then
        some { s.setClient dwDBId none with dbIds := s.dbIds.erase dwDBId, stack := rest }
      else none
  | .uninit [] :: rest =>
    some { s with mapDBClient := fun _ => none, dbIds := [], stack := .clearResult :: rest }
  | .uninit (dwDBId :: ids) :: rest =>
    match s.mapDBClient dwDBId with
    | none => some { s with stack := .uninit ids :: rest }
    | some c =>
      if c.terminate = false then
        some (s.setClient dwDBId (some { c with terminate := true }))
      else if c.pc = .done then some { s with stack := .uninit ids :: rest }
      else none
  | .clearResult :: rest => some (s.takeResult rest (.clearResult :: rest))

def step (s : FxDBModule) : Label → Option FxDBModule
  | .thread dwDBId nNow good =>
    match s.mapDBClient dwDBId with
    | none => none
    | some c => (c.thrdFunc nNow good).map fun next => s.apply dwDBId next.1 next.2
  | .open dwDBId connects => if s.stack = [] then some (s.open dwDBId connects) else none
  | .addQuery poQuery => if s.Calling then some (s.addQuery poQuery) else none
  | .run dwCount => if s.Calling then some { s with stack := .run dwCount :: s.stack } else none
  | .close dwDBId => if s.Calling then some (s.close dwDBId) else none
  | .uninit => if s.stack = [] then some { s with stack := [.uninit s.dbIds] } else none
  | .main => s.main

end FxDBModule

/-! ### The books -/

namespace FxDBModule

open FxMySqlClient Lifecycle

def pending (s : FxDBModule) (dwDBId : Nat) : List DBQuery :=
  match s.mapDBClient dwDBId with
  | none => []
  | some c => c.pending

def leaving (s : FxDBModule) (dwDBId : Nat) : List DBQuery :=
  match s.mapDBClient dwDBId with
  | none => []
  | some c => c.leaving

/-- Taken from the results, before `OnResult`. -/
def taken : List Frame → List DBQuery
  | .callBack poQuery false :: _ => [poQuery]
  | _ => []

/-- In `OnResult`, before `Release`. -/
def answering (stack : List Frame) : List DBQuery :=
  stack.filterMap fun
    | .callBack poQuery true => some poQuery
    | _ => none

/-- The queries of one database, in the order in which they have reached the stage. -/
def ofDB (dwDBId : Nat) (querys : List DBQuery) : List DBQuery := querys.filter (·.dwDBId = dwDBId)

@[simp] theorem ofDB_append (dwDBId : Nat) (querys querys' : List DBQuery) :
    ofDB dwDBId (querys ++ querys') = ofDB dwDBId querys ++ ofDB dwDBId querys' :=
  List.filter_append _ _

@[simp] theorem ofDB_nil (dwDBId : Nat) : ofDB dwDBId [] = [] := rfl

theorem ofDB_self (poQuery : DBQuery) : ofDB poQuery.dwDBId [poQuery] = [poQuery] := by
  simp [ofDB]

theorem ofDB_of_ne {poQuery : DBQuery} {dwDBId : Nat} (h : poQuery.dwDBId ≠ dwDBId) :
    ofDB dwDBId [poQuery] = [] := by
  simp [ofDB, h]

/-- Every query stands in one place. -/
structure Books (s : FxDBModule) : Prop where
  accepted : ∀ dwDBId, ofDB dwDBId (reached .accepted s.log) =
    ofDB dwDBId (reached .queried s.log) ++ s.pending dwDBId
  queried : ∀ dwDBId, ofDB dwDBId (reached .queried s.log) =
    ofDB dwDBId (reached .answered s.log ++ taken s.stack ++ s.resultList) ++ s.leaving dwDBId
  answered : (reached .answered s.log).Perm (reached .released s.log ++ answering s.stack)
  serials : ∀ poQuery ∈ reached .accepted s.log, poQuery.serial < s.serial
  lawful : Lawful Stage.before s.log

variable {s s' : FxDBModule} {dwDBId : Nat} {c c' : FxMySqlClient} {effect : Effect}
variable {poQuery : DBQuery}

theorem books_start : Books start :=
  ⟨fun _ => rfl, fun _ => rfl, List.Perm.refl _, fun _ h => absurd h List.not_mem_nil, lawful_nil⟩

/-- A step that moves no query. -/
theorem Books.same (h : Books s) (hlog : s'.log = s.log) (hresult : s'.resultList = s.resultList)
    (hserial : s'.serial = s.serial) (hpending : ∀ i, s'.pending i = s.pending i)
    (hleaving : ∀ i, s'.leaving i = s.leaving i) (htaken : taken s'.stack = taken s.stack)
    (hanswering : answering s'.stack = answering s.stack) : Books s' := by
  refine ⟨fun i => ?_, fun i => ?_, ?_, ?_, hlog ▸ h.lawful⟩
  · rw [hlog, hpending]
    exact h.accepted i
  · rw [hlog, hresult, hleaving, htaken]
    exact h.queried i
  · rw [hlog, hanswering]
    exact h.answered
  · rw [hlog, hserial]
    exact h.serials

theorem pending_setClient (s : FxDBModule) (dwDBId : Nat) (c : FxMySqlClient) (i : Nat) :
    (s.setClient dwDBId (some c)).pending i = if i = dwDBId then c.pending else s.pending i := by
  by_cases hi : i = dwDBId
  · subst hi
    simp [pending, setClient]
  · simp [pending, setClient, hi]

theorem leaving_setClient (s : FxDBModule) (dwDBId : Nat) (c : FxMySqlClient) (i : Nat) :
    (s.setClient dwDBId (some c)).leaving i = if i = dwDBId then c.leaving else s.leaving i := by
  by_cases hi : i = dwDBId
  · subst hi
    simp [leaving, setClient]
  · simp [leaving, setClient, hi]

/-- A client changes and keeps its queries. -/
theorem Books.setClient (h : Books s) (hpending : c.pending = s.pending dwDBId)
    (hleaving : c.leaving = s.leaving dwDBId) : Books (s.setClient dwDBId (some c)) := by
  refine h.same rfl rfl rfl (fun i => ?_) (fun i => ?_) rfl rfl
  · rw [pending_setClient]
    split_ifs with hi
    · rw [hi, hpending]
    · rfl
  · rw [leaving_setClient]
    split_ifs with hi
    · rw [hi, hleaving]
    · rfl

theorem Books.owner (h : Books s) (hq : poQuery ∈ s.pending dwDBId) : poQuery.dwDBId = dwDBId := by
  have hmem : poQuery ∈ ofDB dwDBId (reached .accepted s.log) := by
    rw [h.accepted]
    exact List.mem_append_right _ hq
  exact of_decide_eq_true (List.mem_filter.mp hmem).2

theorem Books.owner_leaving (h : Books s) (hq : poQuery ∈ s.leaving dwDBId) :
    poQuery.dwDBId = dwDBId := by
  have hmem : poQuery ∈ ofDB dwDBId (reached .queried s.log) := by
    rw [h.queried]
    exact List.mem_append_right _ hq
  exact of_decide_eq_true (List.mem_filter.mp hmem).2

theorem mem_ofDB (querys : List DBQuery) :
    poQuery ∈ ofDB poQuery.dwDBId querys ↔ poQuery ∈ querys := by
  simp [ofDB]

theorem nodup_ofDB (dwDBId : Nat) {querys : List DBQuery} (h : querys.Nodup) :
    (ofDB dwDBId querys).Nodup :=
  h.filter _

/-- The section in which `OnQuery` runs. -/
theorem Books.onQuery (h : Books s) (hc : s.mapDBClient dwDBId = some c)
    (hmoves : (Effect.onQuery poQuery).Moves c c') :
    Books (s.apply dwDBId c' (.onQuery poQuery)) := by
  obtain ⟨hpend, hleave, hleave'⟩ := hmoves
  have hpending : s.pending dwDBId = poQuery :: c'.pending := by
    simp [pending, hc, hpend]
  have hleaving : s.leaving dwDBId = [] := by
    simp [leaving, hc, hleave]
  obtain rfl := h.owner (hpending ▸ List.mem_cons_self)
  have haccepted := h.accepted poQuery.dwDBId
  rw [hpending] at haccepted
  refine ⟨fun i => ?_, fun i => ?_, ?_, ?_, h.lawful.concat ⟨fun hin => ?_, fun st hst => ?_⟩⟩
  · simp only [apply, reached_concat, reduceCtorEq, if_false, if_true, ofDB_append]
    change _ = _ ++ (s.setClient _ _).pending i
    rw [pending_setClient]
    split_ifs with hi
    · subst hi
      rw [haccepted, ofDB_self, List.append_assoc]
      rfl
    · rw [ofDB_of_ne (Ne.symm hi), List.append_nil]
      exact h.accepted i
  · simp only [apply, reached_concat, reduceCtorEq, if_false, if_true]
    change _ = _ ++ (s.setClient _ _).leaving i
    rw [leaving_setClient, ofDB_append i _ [poQuery]]
    split_ifs with hi
    · subst hi
      rw [h.queried, hleaving, hleave', ofDB_self, List.append_nil]
      rfl
    · rw [ofDB_of_ne (Ne.symm hi), List.append_nil]
      exact h.queried i
  · simp only [apply, reached_concat, reduceCtorEq, if_false]
    exact h.answered
  · simp only [apply, reached_concat, reduceCtorEq, if_false]
    exact h.serials
  · have hnodup := nodup_ofDB poQuery.dwDBId (h.lawful.nodup .accepted)
    rw [haccepted] at hnodup
    exact (List.nodup_append.mp hnodup).2.2 poQuery ((mem_ofDB _).mpr hin) poQuery
      List.mem_cons_self rfl
  · obtain rfl := Option.some.inj hst
    rw [← mem_ofDB, haccepted]
    exact List.mem_append_right _ List.mem_cons_self

/-- The section in which the query goes to the results. -/
theorem Books.addResult (h : Books s) (hc : s.mapDBClient dwDBId = some c)
    (hmoves : (Effect.addResult poQuery).Moves c c') :
    Books (s.apply dwDBId c' (.addResult poQuery)) := by
  obtain ⟨hpend, hleave, hleave'⟩ := hmoves
  have hleaving : s.leaving dwDBId = [poQuery] := by
    simp [leaving, hc, hleave]
  obtain rfl := h.owner_leaving (hleaving ▸ List.mem_cons_self)
  refine ⟨fun i => ?_, fun i => ?_, h.answered, h.serials, h.lawful⟩
  · change _ = _ ++ (s.setClient _ _).pending i
    rw [pending_setClient]
    split_ifs with hi
    · subst hi
      rw [hpend]
      have haccepted := h.accepted poQuery.dwDBId
      rwa [pending, hc] at haccepted
    · exact h.accepted i
  · have hq := h.queried i
    change _ = ofDB i (_ ++ (s.resultList ++ [poQuery])) ++ (s.setClient _ _).leaving i
    rw [leaving_setClient, ← List.append_assoc, ofDB_append i _ [poQuery]]
    split_ifs with hi
    · subst hi
      rw [hleave', ofDB_self, List.append_nil, ← hleaving]
      exact hq
    · rw [ofDB_of_ne (Ne.symm hi), List.append_nil]
      exact hq

theorem Books.addQuery (h : Books s) (poQuery : Option Nat) : Books (s.addQuery poQuery) := by
  cases poQuery with
  | none => exact h
  | some dwDBId =>
    cases hc : s.mapDBClient dwDBId with
    | none => simpa [FxDBModule.addQuery, hc] using h
    | some c =>
      simp only [FxDBModule.addQuery, hc]
      have hpending : s.pending dwDBId = c.pending := by
        simp [pending, hc]
      have hleaving : (c.addQuery ⟨dwDBId, s.serial⟩).leaving = s.leaving dwDBId := by
        simp [leaving, hc, FxMySqlClient.leaving, FxMySqlClient.addQuery]
      refine ⟨fun i => ?_, fun i => ?_, ?_, ?_, h.lawful.concat ⟨fun hin => ?_, fun st hst => ?_⟩⟩
      · simp only [reached_concat, reduceCtorEq, if_false, if_true, ofDB_append]
        change _ = _ ++ (s.setClient _ _).pending i
        rw [pending_setClient, h.accepted i, List.append_assoc]
        split_ifs with hi
        · subst hi
          rw [pending_addQuery, hpending, ofDB_self ⟨i, s.serial⟩]
        · rw [ofDB_of_ne (Ne.symm hi), List.append_nil]
      · simp only [reached_concat, reduceCtorEq, if_false]
        change _ = _ ++ (s.setClient _ _).leaving i
        rw [leaving_setClient]
        split_ifs with hi
        · subst hi
          rw [hleaving]
          exact h.queried i
        · exact h.queried i
      · simp only [reached_concat, reduceCtorEq, if_false]
        exact h.answered
      · simp only [reached_concat, if_true]
        intro q hq
        rcases List.mem_append.mp hq with hq | hq
        · exact Nat.lt_succ_of_lt (h.serials q hq)
        · rw [List.mem_singleton.mp hq]
          exact Nat.lt_succ_self _
      · exact Nat.lt_irrefl _ (h.serials _ hin)
      · cases hst

/-- A result leaves the list, or the loop ends. -/
theorem Books.takeResult (h : Books s) {rest here : List Frame} (htaken : taken s.stack = [])
    (hrest : taken rest = [] ∧ answering rest = answering s.stack)
    (hhere : answering here = answering s.stack) : Books (s.takeResult rest here) := by
  rw [FxDBModule.takeResult]
  cases hres : s.resultList with
  | nil =>
    exact h.same rfl hres.symm rfl (fun _ => rfl) (fun _ => rfl) (hrest.1.trans htaken.symm)
      hrest.2
  | cons poQuery resultList =>
    refine ⟨h.accepted, fun i => ?_, ?_, h.serials, h.lawful⟩
    · have hq := h.queried i
      rw [htaken, hres, List.append_nil] at hq
      rw [taken, List.append_assoc]
      exact hq
    · change List.Perm _ (_ ++ answering here)
      rw [hhere]
      exact h.answered

/-- `OnResult` is called. -/
theorem Books.onResult (h : Books s) {rest : List Frame}
    (hstack : s.stack = .callBack poQuery false :: rest) :
    Books { s with stack := .callBack poQuery true :: rest,
                   log := s.log ++ [(.answered, poQuery)] } := by
  have hqueried := h.queried poQuery.dwDBId
  rw [hstack] at hqueried
  refine ⟨fun i => ?_, fun i => ?_, ?_, ?_, h.lawful.concat ⟨fun hin => ?_, fun st hst => ?_⟩⟩
  · simp only [reached_concat, reduceCtorEq, if_false]
    exact h.accepted i
  · have hq := h.queried i
    rw [hstack] at hq
    simp only [reached_concat, reduceCtorEq, if_false, if_true, taken, List.append_nil] at hq ⊢
    exact hq
  · simp only [reached_concat, reduceCtorEq, if_false, if_true]
    have hanswered := h.answered
    rw [hstack] at hanswered
    exact (hanswered.append_right [poQuery]).trans (by
      rw [List.append_assoc]
      exact (List.perm_append_singleton _ _).append_left _)
  · simp only [reached_concat, reduceCtorEq, if_false]
    exact h.serials
  · have hnodup := nodup_ofDB poQuery.dwDBId (h.lawful.nodup .queried)
    rw [hqueried, taken, ofDB_append, ofDB_append, ofDB_self] at hnodup
    refine (List.nodup_append.mp (List.nodup_append.mp (List.nodup_append.mp hnodup).1).1).2.2
      poQuery ((mem_ofDB _).mpr hin) poQuery (by simp) rfl
  · obtain rfl := Option.some.inj hst
    rw [← mem_ofDB, hqueried, taken, ofDB_append, ofDB_append, ofDB_self]
    simp

/-- The query is released. -/
theorem Books.release (h : Books s) {rest : List Frame}
    (hstack : s.stack = .callBack poQuery true :: rest) (hrest : taken rest = []) :
    Books { s with stack := rest, log := s.log ++ [(.released, poQuery)] } := by
  have hanswered := h.answered
  simp only [hstack, answering, List.filterMap_cons] at hanswered
  have hin : poQuery ∈ reached .answered s.log :=
    hanswered.mem_iff.mpr (List.mem_append_right _ List.mem_cons_self)
  refine ⟨fun i => ?_, fun i => ?_, ?_, ?_, h.lawful.concat ⟨fun hrel => ?_, fun st hst => ?_⟩⟩
  · simp only [reached_concat, reduceCtorEq, if_false]
    exact h.accepted i
  · have hq := h.queried i
    rw [hstack] at hq
    simp only [reached_concat, reduceCtorEq, if_false, hrest]
    exact hq
  · simp only [reached_concat, reduceCtorEq, if_false, if_true]
    rw [List.append_assoc]
    exact hanswered
  · simp only [reached_concat, reduceCtorEq, if_false]
    exact h.serials
  · have hnodup := hanswered.nodup_iff.mp (h.lawful.nodup .answered)
    exact (List.nodup_append.mp hnodup).2.2 poQuery hrel poQuery List.mem_cons_self rfl
  · obtain rfl := Option.some.inj hst
    exact hin

/-! ### Who may do what -/

/-- The call may have called what is above it. -/
def Frame.Waits : Frame → Prop
  | .run _ | .callBack _ true | .clearResult => True
  | _ => False

def Frame.Bottom : Frame → Prop
  | .uninit _ | .clearResult => True
  | _ => False

/-- The call is the one that has told the client to stop. -/
def Frame.Stops (dwDBId : Nat) : Frame → Prop
  | .close id => id = dwDBId
  | .uninit _ => True
  | _ => False

def Stacked : List Frame → Prop
  | [] => True
  | f :: rest => (∀ g ∈ rest, g.Waits) ∧ (f.Bottom → rest = []) ∧ Stacked rest

structure Control (s : FxDBModule) : Prop where
  sound : ∀ i c, s.mapDBClient i = some c → c.Sound
  keys : ∀ i c, s.mapDBClient i = some c → i ∈ s.dbIds
  stacked : Stacked s.stack
  stopping : ∀ i c, s.mapDBClient i = some c → c.terminate = true →
    ∃ f ∈ s.stack.head?, Frame.Stops i f
  closing : ∀ i rest, s.stack = .close i :: rest →
    ∃ c, s.mapDBClient i = some c ∧ c.terminate = true
  uninit : ∀ ids rest, s.stack = .uninit ids :: rest →
    ∀ i c, s.mapDBClient i = some c → i ∈ ids ∨ c.pc = .done
  cleared : .clearResult ∈ s.stack → ∀ i, s.mapDBClient i = none

theorem control_start : Control start := by
  constructor <;> simp [start, Stacked]

theorem taken_of_waits {rest : List Frame} (h : ∀ g ∈ rest, g.Waits) : taken rest = [] := by
  cases rest with
  | nil => rfl
  | cons g rest =>
    have hg := h g List.mem_cons_self
    cases g with
    | callBack poQuery called =>
      cases called with
      | false => exact hg.elim
      | true => rfl
    | run | close | uninit | clearResult => rfl

theorem Calling.waits (hcall : s.Calling) (h : Stacked s.stack) : ∀ g ∈ s.stack, g.Waits := by
  rw [Calling] at hcall
  split at hcall
  · next hs => rw [hs]; exact fun g hg => absurd hg List.not_mem_nil
  · next hs =>
    rw [hs] at h ⊢
    intro g hg
    rcases List.mem_cons.mp hg with rfl | hg
    · trivial
    · exact h.1 g hg
  · exact hcall.elim

/-- The innermost call of the main thread stops no client. -/
def Quiet (stack : List Frame) : Prop := ∀ f ∈ stack.head?, ∀ i, ¬ Frame.Stops i f

theorem quiet_of_waits {stack : List Frame} (h : ∀ g ∈ stack, g.Waits) : Quiet stack := by
  intro f hf i hstops
  have hw := h f (List.mem_of_mem_head? hf)
  cases f with
  | run | clearResult => exact hstops
  | callBack poQuery called => exact hstops
  | close | uninit => exact hw

theorem quiet_callBack (poQuery : DBQuery) (called : Bool) (rest : List Frame) :
    Quiet (.callBack poQuery called :: rest) := by
  simp [Quiet, Frame.Stops]

/-- Then no client has been told to stop. -/
theorem Control.running (h : Control s) (hquiet : Quiet s.stack)
    (hc : s.mapDBClient dwDBId = some c) : c.terminate = false := by
  by_contra hterm
  obtain ⟨f, hf, hstops⟩ := h.stopping dwDBId c hc (by simpa using hterm)
  exact hquiet f hf dwDBId hstops

theorem client_cases {i : Nat} {d : FxMySqlClient}
    (h : (s.setClient dwDBId (some c')).mapDBClient i = some d) :
    (i = dwDBId ∧ d = c') ∨ s.mapDBClient i = some d := by
  by_cases hi : i = dwDBId
  · subst hi
    simp only [FxDBModule.setClient, Function.update_self, Option.some.injEq] at h
    exact Or.inl ⟨rfl, h.symm⟩
  · simp only [FxDBModule.setClient, Function.update_of_ne hi] at h
    exact Or.inr h

/-- A client changes and the main thread does not move. -/
theorem Control.setClient (h : Control s) (hc : s.mapDBClient dwDBId = some c)
    (hsound : c'.Sound)
    (hstopping : c'.terminate = true → ∃ f ∈ s.stack.head?, Frame.Stops dwDBId f)
    (hterm : c.terminate = true → c'.terminate = true) (hdone : c.pc = .done → c'.pc = .done) :
    Control (s.setClient dwDBId (some c')) := by
  refine ⟨fun i d hd => ?_, fun i d hd => ?_, h.stacked, fun i d hd ht => ?_, fun i rest hs => ?_,
    fun ids rest hs i d hd => ?_, fun hclear i => ?_⟩
  · rcases client_cases hd with ⟨rfl, rfl⟩ | hd
    · exact hsound
    · exact h.sound i d hd
  · rcases client_cases hd with ⟨rfl, rfl⟩ | hd
    · exact h.keys i c hc
    · exact h.keys i d hd
  · rcases client_cases hd with ⟨rfl, rfl⟩ | hd
    · exact hstopping ht
    · exact h.stopping i d hd ht
  · obtain ⟨d, hd, ht⟩ := h.closing i rest hs
    by_cases hi : i = dwDBId
    · subst hi
      obtain rfl := Option.some.inj (hc.symm.trans hd)
      exact ⟨c', by simp [FxDBModule.setClient], hterm ht⟩
    · exact ⟨d, by simpa [FxDBModule.setClient, hi] using hd, ht⟩
  · rcases client_cases hd with ⟨rfl, rfl⟩ | hd
    · exact (h.uninit ids rest hs i c hc).imp_right hdone
    · exact h.uninit ids rest hs i d hd
  · rw [h.cleared hclear dwDBId] at hc
    cases hc

/-- The main thread goes into or out of a call that stops no client. -/
theorem Control.goto (h : Control s) (hquiet : Quiet s.stack) (hstacked : Stacked s'.stack)
    (hquiet' : Quiet s'.stack) (hclear : .clearResult ∈ s'.stack → .clearResult ∈ s.stack)
    (hmap : s'.mapDBClient = s.mapDBClient) (hids : s'.dbIds = s.dbIds) : Control s' := by
  refine ⟨?_, ?_, hstacked, fun i c hc ht => ?_, fun i rest hs => ?_, fun ids rest hs => ?_,
    fun hc => ?_⟩
  · rw [hmap]
    exact h.sound
  · rw [hmap, hids]
    exact h.keys
  · rw [hmap] at hc
    rw [h.running hquiet hc] at ht
    cases ht
  · exact absurd rfl (hquiet' (.close i) (by simp [hs]) i)
  · exact absurd trivial (hquiet' (.uninit ids) (by simp [hs]) 0)
  · rw [hmap]
    exact h.cleared (hclear hc)

theorem Control.of_eq (h : Control s) (hmap : s'.mapDBClient = s.mapDBClient)
    (hids : s'.dbIds = s.dbIds) (hstack : s'.stack = s.stack) : Control s' := by
  refine ⟨?_, ?_, ?_, ?_, ?_, ?_, ?_⟩
  · rw [hmap]; exact h.sound
  · rw [hmap, hids]; exact h.keys
  · rw [hstack]; exact h.stacked
  · rw [hmap, hstack]; exact h.stopping
  · rw [hmap, hstack]; exact h.closing
  · rw [hmap, hstack]; exact h.uninit
  · rw [hmap, hstack]; exact h.cleared

theorem Stacked.push {stack : List Frame} {f : Frame} (h : Stacked stack)
    (hwaits : ∀ g ∈ stack, g.Waits) (hf : ¬ f.Bottom) : Stacked (f :: stack) :=
  ⟨hwaits, fun hb => absurd hb hf, h⟩

/-! ### One step -/

structure Kept (s : FxDBModule) : Prop where
  books : Books s
  control : Control s

theorem Kept.thread (h : Kept s) {nNow : Int} {good : Bool} (hc : s.mapDBClient dwDBId = some c)
    (hstep : c.thrdFunc nNow good = some (c', effect)) : Kept (s.apply dwDBId c' effect) := by
  have hturn := turn hstep
  have hcontrol : Control (s.setClient dwDBId (some c')) := by
    refine h.control.setClient hc (hturn.sound (h.control.sound dwDBId c hc)) (fun ht => ?_)
      (fun ht => hturn.terminate.trans ht) (fun hpc => ?_)
    · exact h.control.stopping dwDBId c hc (hturn.terminate ▸ ht)
    · rw [thrdFunc, hpc] at hstep
      cases hstep
  have hmoves := hturn.moves
  cases effect with
  | silent =>
    refine ⟨h.books.setClient ?_ ?_, hcontrol⟩
    · rw [hmoves.1, pending, hc]
    · rw [hmoves.2, leaving, hc]
  | onQuery poQuery => exact ⟨h.books.onQuery hc hmoves, hcontrol.of_eq rfl rfl rfl⟩
  | addResult poQuery => exact ⟨h.books.addResult hc hmoves, hcontrol.of_eq rfl rfl rfl⟩

theorem Kept.open (h : Kept s) (hstack : s.stack = []) (connects : Bool) :
    Kept (s.open dwDBId connects) := by
  rw [FxDBModule.open]
  cases hc : s.mapDBClient dwDBId with
  | some c => exact h
  | none =>
    cases connects with
    | false => exact h
    | true =>
      have hbooks : Books (s.setClient dwDBId (some started)) := by
        refine h.books.setClient ?_ ?_
        · simp [started, FxMySqlClient.pending, pending, hc]
        · simp [started, FxMySqlClient.leaving, leaving, hc]
      refine ⟨hbooks.same rfl rfl rfl (fun _ => rfl) (fun _ => rfl) rfl rfl, ?_⟩
      refine ⟨fun i d hd => ?_, fun i d hd => ?_, h.control.stacked, fun i d hd ht => ?_,
        fun i rest hs => ?_, fun ids rest hs => ?_, fun hclear => ?_⟩
      · rcases client_cases hd with ⟨rfl, rfl⟩ | hd
        · exact sound_started
        · exact h.control.sound i d hd
      · rw [if_pos rfl, List.mem_orderedInsert]
        rcases client_cases hd with ⟨rfl, rfl⟩ | hd
        · exact Or.inl rfl
        · exact Or.inr (h.control.keys i d hd)
      · rcases client_cases hd with ⟨rfl, rfl⟩ | hd
        · cases ht
        · exact h.control.stopping i d hd ht
      · exact absurd (hstack.symm.trans hs) (List.cons_ne_nil _ _).symm
      · exact absurd (hstack.symm.trans hs) (List.cons_ne_nil _ _).symm
      · change Frame.clearResult ∈ s.stack at hclear
        rw [hstack] at hclear
        cases hclear

theorem Kept.addQuery (h : Kept s) (hcall : s.Calling) (poQuery : Option Nat) :
    Kept (s.addQuery poQuery) := by
  refine ⟨h.books.addQuery poQuery, ?_⟩
  cases poQuery with
  | none => exact h.control
  | some dwDBId =>
    rw [FxDBModule.addQuery]
    cases hc : s.mapDBClient dwDBId with
    | none => exact h.control
    | some c =>
      have hterm := h.control.running (quiet_of_waits (hcall.waits h.control.stacked)) hc
      refine Control.of_eq (h.control.setClient hc
        ((h.control.sound dwDBId c hc).addQuery hterm ⟨dwDBId, s.serial⟩) (fun ht => ?_) id id)
        rfl rfl rfl
      rw [FxMySqlClient.addQuery, hterm] at ht
      cases ht

/-- `Run` is called. -/
theorem Kept.run (h : Kept s) (hcall : s.Calling) (dwCount : Nat) :
    Kept { s with stack := .run dwCount :: s.stack } := by
  have hwaits := hcall.waits h.control.stacked
  refine ⟨h.books.same rfl rfl rfl (fun _ => rfl) (fun _ => rfl) (taken_of_waits hwaits).symm rfl,
    h.control.goto (quiet_of_waits hwaits) (h.control.stacked.push hwaits id) ?_ ?_ rfl rfl⟩
  · simp [Quiet, Frame.Stops]
  · simp

/-- A client is told to stop. -/
theorem Kept.stop (h : Kept s) (hc : s.mapDBClient dwDBId = some c)
    (hstops : ∃ f ∈ s.stack.head?, Frame.Stops dwDBId f) :
    Kept (s.setClient dwDBId (some { c with terminate := true })) := by
  refine ⟨h.books.setClient ?_ ?_, h.control.setClient hc (h.control.sound dwDBId c hc).stop
    (fun _ => hstops) (fun _ => rfl) id⟩
  · rw [pending, hc]
    rfl
  · rw [leaving, hc]
    rfl

theorem Kept.close (h : Kept s) (hcall : s.Calling) : Kept (s.close dwDBId) := by
  rw [FxDBModule.close]
  cases hc : s.mapDBClient dwDBId with
  | none => exact h
  | some c =>
    have hwaits := hcall.waits h.control.stacked
    have hterm : ∀ {i d}, s.mapDBClient i = some d → d.terminate = false :=
      h.control.running (quiet_of_waits hwaits)
    have hbooks : Books (s.setClient dwDBId (some { c with terminate := true })) :=
      h.books.setClient (by rw [pending, hc]; rfl) (by rw [leaving, hc]; rfl)
    refine ⟨hbooks.same rfl rfl rfl (fun _ => rfl) (fun _ => rfl) (taken_of_waits hwaits).symm rfl,
      fun i d hd => ?_, fun i d hd => ?_, h.control.stacked.push hwaits id, fun i d hd ht => ?_,
      fun i rest hs => ?_, fun ids rest hs => ?_, fun hclear i => ?_⟩
    · rcases client_cases hd with ⟨rfl, rfl⟩ | hd
      · exact (h.control.sound i c hc).stop
      · exact h.control.sound i d hd
    · rcases client_cases hd with ⟨rfl, rfl⟩ | hd
      · exact h.control.keys i c hc
      · exact h.control.keys i d hd
    · rcases client_cases hd with ⟨rfl, rfl⟩ | hd
      · exact ⟨.close i, rfl, rfl⟩
      · rw [hterm hd] at ht
        cases ht
    · obtain ⟨hi, -⟩ := List.cons.inj hs
      obtain rfl := Frame.close.inj hi
      exact ⟨{ c with terminate := true }, by simp [FxDBModule.setClient], rfl⟩
    · cases (List.cons.inj hs).1
    · have hin : .clearResult ∈ s.stack := by simpa using hclear
      rw [h.control.cleared hin dwDBId] at hc
      cases hc

/-- `Uninit` is called. -/
theorem Kept.uninit (h : Kept s) (hstack : s.stack = []) :
    Kept { s with stack := [.uninit s.dbIds] } := by
  refine ⟨h.books.same rfl rfl rfl (fun _ => rfl) (fun _ => rfl) (by rw [hstack]; rfl)
    (by rw [hstack]; rfl), h.control.sound, h.control.keys, by simp [Stacked],
    fun i d hd ht => ⟨.uninit s.dbIds, rfl, trivial⟩, fun i rest hs => ?_, fun ids rest hs => ?_,
    fun hclear => ?_⟩
  · cases (List.cons.inj hs).1
  · obtain rfl := Frame.uninit.inj (List.cons.inj hs).1
    exact fun i d hd => Or.inl (h.control.keys i d hd)
  · simp at hclear

/-- The main thread leaves a call or goes on with `OnResult`. -/
theorem Kept.goto (h : Kept s) (hbooks : Books s') (hquiet : Quiet s.stack)
    (hstacked : Stacked s'.stack) (hquiet' : Quiet s'.stack)
    (hclear : .clearResult ∈ s'.stack → .clearResult ∈ s.stack)
    (hmap : s'.mapDBClient = s.mapDBClient) (hids : s'.dbIds = s.dbIds) : Kept s' :=
  ⟨hbooks, h.control.goto hquiet hstacked hquiet' hclear hmap hids⟩

/-- The loops around `__CallBackResult`. -/
theorem Kept.takeResult (h : Kept s) {f g : Frame} {rest : List Frame}
    (hstack : s.stack = f :: rest) (hf : f.Waits) (hg : g.Waits)
    (hclear : g = .clearResult → f = .clearResult)
    (hbottom : g.Bottom → f.Bottom) (htaken : taken (f :: rest) = [])
    (hfan : answering (f :: rest) = answering rest)
    (hgan : answering (g :: rest) = answering rest) :
    Kept (s.takeResult rest (g :: rest)) := by
  have hstacked := h.control.stacked
  rw [hstack] at hstacked
  obtain ⟨hwaits, hlast, hrest⟩ := hstacked
  have hquiet : Quiet s.stack := by
    rw [hstack]
    exact quiet_of_waits (List.forall_mem_cons.mpr ⟨hf, hwaits⟩)
  have hbooks : Books (s.takeResult rest (g :: rest)) := by
    refine h.books.takeResult (by rw [hstack, htaken]) ⟨taken_of_waits hwaits, ?_⟩ ?_
    · rw [hstack, hfan]
    · rw [hstack, hfan, hgan]
  refine h.goto hbooks hquiet ?_ ?_ ?_ ?_ ?_
  · rw [FxDBModule.takeResult]
    split
    · exact hrest
    · exact ⟨List.forall_mem_cons.mpr ⟨hg, hwaits⟩, False.elim, hwaits,
        fun hb => hlast (hbottom hb), hrest⟩
  · rw [FxDBModule.takeResult]
    split
    · exact quiet_of_waits hwaits
    · exact quiet_callBack _ _ _
  · rw [FxDBModule.takeResult, hstack]
    split
    · exact List.mem_cons_of_mem f
    · intro hin
      rcases List.mem_cons.mp hin with hc | hin
      · cases hc
      · rcases List.mem_cons.mp hin with hc | hin
        · exact hclear hc.symm ▸ List.mem_cons_self
        · exact List.mem_cons_of_mem f hin
  · rw [FxDBModule.takeResult]
    split <;> rfl
  · rw [FxDBModule.takeResult]
    split <;> rfl

/-- `Close` deletes the client, whose thread has ended. -/
theorem Kept.closed (h : Kept s) {rest : List Frame} (hstack : s.stack = .close dwDBId :: rest)
    (hc : s.mapDBClient dwDBId = some c) (hdone : c.pc = .done) :
    Kept { s.setClient dwDBId none with dbIds := s.dbIds.erase dwDBId, stack := rest } := by
  obtain ⟨hp, hl⟩ := (h.control.sound dwDBId c hc).pending_done hdone
  have hstacked := h.control.stacked
  rw [hstack] at hstacked
  obtain ⟨hwaits, hlast, hrest⟩ := hstacked
  have hcases : ∀ {i d}, (s.setClient dwDBId none).mapDBClient i = some d →
      i ≠ dwDBId ∧ s.mapDBClient i = some d := by
    intro i d hd
    by_cases hi : i = dwDBId
    · subst hi
      simp [FxDBModule.setClient] at hd
    · exact ⟨hi, by simpa [FxDBModule.setClient, hi] using hd⟩
  refine ⟨h.books.same rfl rfl rfl (fun i => ?_) (fun i => ?_) ?_ ?_, fun i d hd => ?_,
    fun i d hd => ?_, hrest, fun i d hd ht => ?_, fun i rest' hs => ?_, fun ids rest' hs => ?_,
    fun hclear i => ?_⟩
  · by_cases hi : i = dwDBId
    · subst hi
      simp [pending, FxDBModule.setClient, hc, hp]
    · simp [pending, FxDBModule.setClient, hi]
  · by_cases hi : i = dwDBId
    · subst hi
      simp [leaving, FxDBModule.setClient, hc, hl]
    · simp [leaving, FxDBModule.setClient, hi]
  · rw [hstack]
    exact taken_of_waits hwaits
  · rw [hstack]
    rfl
  · exact h.control.sound i d (hcases hd).2
  · exact (List.mem_erase_of_ne (hcases hd).1).mpr (h.control.keys i d (hcases hd).2)
  · obtain ⟨hi, hd⟩ := hcases hd
    obtain ⟨f, hf, hstops⟩ := h.control.stopping i d hd ht
    rw [hstack] at hf
    obtain rfl := Option.some.inj hf
    exact absurd hstops.symm hi
  · obtain rfl : rest = .close i :: rest' := hs
    exact (hwaits (.close i) List.mem_cons_self).elim
  · obtain rfl : rest = .uninit ids :: rest' := hs
    exact (hwaits (.uninit ids) List.mem_cons_self).elim
  · have hin : .clearResult ∈ s.stack := hstack ▸ List.mem_cons_of_mem _ hclear
    rw [h.control.cleared hin dwDBId] at hc
    cases hc

/-- `Uninit` goes to the next client, as the thread of the first one has ended. -/
theorem Kept.advance (h : Kept s) {ids : List Nat} {rest : List Frame}
    (hstack : s.stack = .uninit (dwDBId :: ids) :: rest)
    (hdone : ∀ c, s.mapDBClient dwDBId = some c → c.pc = .done) :
    Kept { s with stack := .uninit ids :: rest } := by
  have hstacked := h.control.stacked
  rw [hstack] at hstacked
  refine ⟨h.books.same rfl rfl rfl (fun _ => rfl) (fun _ => rfl) (by rw [hstack]; rfl)
    (by rw [hstack]; rfl), h.control.sound, h.control.keys, hstacked, fun i d hd ht => ?_,
    fun i rest' hs => ?_, fun ids' rest' hs i d hd => ?_, fun hclear i => ?_⟩
  · exact ⟨.uninit ids, rfl, trivial⟩
  · cases (List.cons.inj hs).1
  · obtain rfl := Frame.uninit.inj (List.cons.inj hs).1
    rcases h.control.uninit _ _ hstack i d hd with hin | hd'
    · rcases List.mem_cons.mp hin with rfl | hin
      · exact Or.inr (hdone d hd)
      · exact Or.inl hin
    · exact Or.inr hd'
  · refine h.control.cleared ?_ i
    rw [hstack]
    rcases List.mem_cons.mp hclear with hc | hin
    · cases hc
    · exact List.mem_cons_of_mem _ hin

/-- `Uninit` goes to the results, as the threads of all clients have ended. -/
theorem Kept.clear (h : Kept s) {rest : List Frame} (hstack : s.stack = .uninit [] :: rest) :
    Kept { s with mapDBClient := fun _ => none, dbIds := [], stack := .clearResult :: rest } := by
  have hstacked := h.control.stacked
  rw [hstack] at hstacked
  have hempty : ∀ i, s.pending i = [] ∧ s.leaving i = [] := by
    intro i
    cases hc : s.mapDBClient i with
    | none => simp [pending, leaving, hc]
    | some c =>
      have hpc := (h.control.uninit _ _ hstack i c hc).resolve_left List.not_mem_nil
      simpa [pending, leaving, hc] using (h.control.sound i c hc).pending_done hpc
  refine ⟨h.books.same rfl rfl rfl (fun i => (hempty i).1.symm) (fun i => (hempty i).2.symm)
    (by rw [hstack]; rfl) (by rw [hstack]; rfl), ?_⟩
  constructor
  case stacked => exact hstacked
  all_goals simp

theorem Kept.main (h : Kept s) (hstep : s.main = some s') : Kept s' := by
  rw [FxDBModule.main] at hstep
  have hstacked := h.control.stacked
  cases hstack : s.stack with
  | nil => simp [hstack] at hstep
  | cons f rest =>
    rw [hstack] at hstacked
    obtain ⟨hwaits, hlast, hrest⟩ := hstacked
    cases f with
    | run dwCount =>
      cases dwCount with
      | zero =>
        simp only [hstack] at hstep
        obtain rfl := Option.some.inj hstep
        refine h.goto (h.books.same rfl rfl rfl (fun _ => rfl) (fun _ => rfl) ?_ ?_) ?_ hrest
          (quiet_of_waits hwaits) ?_ rfl rfl
        · rw [hstack]
          exact taken_of_waits hwaits
        · rw [hstack]
          rfl
        · rw [hstack]
          exact quiet_of_waits (List.forall_mem_cons.mpr ⟨trivial, hwaits⟩)
        · rw [hstack]
          exact List.mem_cons_of_mem _
      | succ dwCount =>
        simp only [hstack] at hstep
        obtain rfl := Option.some.inj hstep
        exact h.takeResult hstack trivial trivial (by simp) id rfl rfl rfl
    | callBack poQuery called =>
      cases called with
      | false =>
        simp only [hstack] at hstep
        obtain rfl := Option.some.inj hstep
        refine h.goto (h.books.onResult hstack) ?_ ⟨hwaits, False.elim, hrest⟩
          (quiet_callBack _ _ _) ?_ rfl rfl
        · rw [hstack]
          exact quiet_callBack _ _ _
        · rw [hstack]
          simp
      | true =>
        simp only [hstack] at hstep
        obtain rfl := Option.some.inj hstep
        refine h.goto (h.books.release hstack (taken_of_waits hwaits)) ?_ hrest
          (quiet_of_waits hwaits) ?_ rfl rfl
        · rw [hstack]
          exact quiet_callBack _ _ _
        · rw [hstack]
          exact List.mem_cons_of_mem _
    | close dwDBId =>
      obtain ⟨c, hc, -⟩ := h.control.closing dwDBId rest hstack
      simp only [hstack, hc] at hstep
      split_ifs at hstep with hdone
      obtain rfl := Option.some.inj hstep
      exact h.closed hstack hc hdone
    | uninit ids =>
      cases ids with
      | nil =>
        simp only [hstack] at hstep
        obtain rfl := Option.some.inj hstep
        exact h.clear hstack
      | cons dwDBId ids =>
        cases hc : s.mapDBClient dwDBId with
        | none =>
          simp only [hstack, hc] at hstep
          obtain rfl := Option.some.inj hstep
          exact h.advance hstack (by simp [hc])
        | some c =>
          simp only [hstack, hc] at hstep
          split_ifs at hstep with hterm hdone
          · obtain rfl := Option.some.inj hstep
            exact h.stop hc ⟨.uninit (dwDBId :: ids), by rw [hstack]; rfl, trivial⟩
          · obtain rfl := Option.some.inj hstep
            refine h.advance hstack fun d hd => ?_
            rwa [← Option.some.inj (hc.symm.trans hd)]
    | clearResult =>
      simp only [hstack] at hstep
      obtain rfl := Option.some.inj hstep
      exact h.takeResult hstack trivial trivial (fun _ => rfl) (fun _ => trivial) rfl rfl rfl

theorem Kept.step (h : Kept s) {l : Label} (hstep : s.step l = some s') : Kept s' := by
  cases l with
  | thread dwDBId nNow good =>
    rw [FxDBModule.step] at hstep
    cases hc : s.mapDBClient dwDBId with
    | none => simp [hc] at hstep
    | some c =>
      simp only [hc, Option.map_eq_some_iff] at hstep
      obtain ⟨⟨c', effect⟩, hnext, rfl⟩ := hstep
      exact h.thread hc hnext
  | «open» dwDBId connects =>
    rw [FxDBModule.step] at hstep
    split_ifs at hstep with hstack
    obtain rfl := Option.some.inj hstep
    exact h.open hstack connects
  | addQuery poQuery =>
    rw [FxDBModule.step] at hstep
    split_ifs at hstep with hcall
    obtain rfl := Option.some.inj hstep
    exact h.addQuery hcall poQuery
  | run dwCount =>
    rw [FxDBModule.step] at hstep
    split_ifs at hstep with hcall
    obtain rfl := Option.some.inj hstep
    exact h.run hcall dwCount
  | close dwDBId =>
    rw [FxDBModule.step] at hstep
    split_ifs at hstep with hcall
    obtain rfl := Option.some.inj hstep
    exact h.close hcall
  | uninit =>
    rw [FxDBModule.step] at hstep
    split_ifs at hstep with hstack
    obtain rfl := Option.some.inj hstep
    exact h.uninit hstack
  | main => exact h.main hstep

theorem kept_run {labels : List Label} (hrun : Transition.run step start labels = some s) :
    Kept s :=
  Transition.invariant (fun _ _ _ h hstep => Kept.step h hstep) ⟨books_start, control_start⟩ hrun

/-- Nothing is left when no client, no result and no call is left. -/
theorem Books.released (h : Books s) (hclients : ∀ i, s.mapDBClient i = none)
    (hresults : s.resultList = []) (hstack : s.stack = []) :
    ∀ poQuery ∈ reached .accepted s.log, poQuery ∈ reached .released s.log := by
  intro poQuery hin
  have haccepted := h.accepted poQuery.dwDBId
  have hqueried := h.queried poQuery.dwDBId
  simp only [pending, hclients, List.append_nil] at haccepted
  simp only [leaving, hclients, hresults, hstack, taken, List.append_nil] at hqueried
  rw [← mem_ofDB, haccepted, hqueried, mem_ofDB] at hin
  have hanswered := h.answered.mem_iff.mp hin
  rw [hstack] at hanswered
  simpa [answering] using hanswered

end FxDBModule
