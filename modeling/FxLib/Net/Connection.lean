import Mathlib.Data.List.Basic

/-!
# FxConnection

The connection of `Net/connection.cpp` stands between a socket and the session
of the application. Every operation is guarded by `m_nConnStat`; what it calls on
the session and on the socket is returned as a list of effects, in order.
-/

inductive EConnStat where
  | none
  | conn
  | ok
  | associate
  | closing
  deriving DecidableEq

inductive ESocketType where
  | none
  | commonTcp
  | webSocket
  | udp
  | http
  deriving DecidableEq

/-- The virtual functions of `FxSession` that the connection calls. -/
inductive Callback where
  | init
  | onConnect
  | onClose
  | onRecv (dwLen : Nat)
  | onError (dwErrorNo : Nat)
  | release
  deriving DecidableEq

inductive SockCall where
  | connect
  | close
  | postClose
  deriving DecidableEq

inductive Effect where
  | session (call : Callback)
  | sock (call : SockCall)
  deriving DecidableEq

/-- A socket is known by its id; `session` says whether one is attached. -/
structure FxConnection where
  id : Nat
  connStat : EConnStat
  sock : Option Nat
  session : Bool
  reconnectOpt : Bool
  sockType : ESocketType
  deriving DecidableEq

namespace FxConnection

/-- A connection as the pool hands it out, with the application's settings. -/
def new (session reconnectOpt : Bool) (sockType : ESocketType) (sock : Option Nat) :
    FxConnection :=
  ⟨sock.getD 0, .none, sock, session, reconnectOpt, sockType⟩

def close (c : FxConnection) : FxConnection × List Effect :=
  if c.sock = none then (c, [])
  else if c.connStat ≠ .ok then (c, [])
  else ({ c with connStat := .closing }, [.sock .postClose])

def onConnect (c : FxConnection) : FxConnection × List Effect :=
  if .associate ≠ c.connStat then (c, [])
  else
    let c := { c with connStat := .ok }
    if c.session = false then (c, [])
    else (c, [.session .init, .session .onConnect])

def onAssociate (c : FxConnection) : FxConnection × List Effect :=
  if .none ≠ c.connStat ∧ .conn ≠ c.connStat then (c, [])
  else ({ c with connStat := .associate }, [])

def onClose (c : FxConnection) : FxConnection × List Effect :=
  if c.connStat = .none then
    (c, if c.session then [.session .release] else [])
  else if c.session = false then (c, [])
  else
    let greeting :=
      if .associate = c.connStat then [.session .init, .session .onConnect] else []
    ({ c with connStat := .none }, greeting ++ [.session .onClose, .session .release])

def onRecv (c : FxConnection) (dwLen : Nat) : FxConnection × List Effect :=
  if c.session = false then (c, [])
  else if c.connStat ≠ .ok then (c, [])
  else (c, [.session (.onRecv dwLen)])

def onError (c : FxConnection) (dwErrorNo : Nat) : FxConnection × List Effect :=
  if c.session = false then (c, [])
  else if c.connStat ≠ .ok then (c, [])
  else (c, [.session (.onError dwErrorNo)])

def onConnError (c : FxConnection) (dwErrorNo : Nat) : FxConnection × List Effect :=
  if c.session = false then (c, [])
  else
    (c, .session (.onError dwErrorNo) ::
      if c.reconnectOpt ∧ c.sock ≠ none then [.sock .connect] else [])

/-- `created` is what the socket manager hands out, `hSock` what `Connect` returns;
`none` is `NULL` and `INVALID_SOCKET`. -/
def reconnect (c : FxConnection) (created hSock : Option Nat) :
    Option Nat × FxConnection × List Effect :=
  match c.sock with
  | some _ => (none, { c with connStat := .closing }, [.sock .close])
  | none =>
    let c := { c with connStat := .conn }
    let poSock :=
      match c.sockType with
      | .commonTcp | .udp => created
      | .none | .webSocket | .http => none
    match poSock with
    | none => (none, c, [])
    | some sockId =>
      let c := { c with sock := some sockId, id := sockId }
      let c := if hSock = none then { c with connStat := .conn } else c
      (hSock, c, [.sock .connect])

def onSocketDestroy (c : FxConnection) : FxConnection := { c with sock := none }

end FxConnection

/-! ### Runs -/

/-- What the sockets and the application can do to a connection. A socket goes away
with `OnSocketDestroy` and `OnClose`, one after the other. -/
inductive ConnOp where
  | onAssociate
  | onConnect
  | onRecv (dwLen : Nat)
  | onError (dwErrorNo : Nat)
  | onConnError (dwErrorNo : Nat)
  | close
  | reconnect (created hSock : Option Nat)
  | socketDestroy

namespace ConnOp

def run (op : ConnOp) (c : FxConnection) : FxConnection × List Effect :=
  match op with
  | .onAssociate => c.onAssociate
  | .onConnect => c.onConnect
  | .onRecv dwLen => c.onRecv dwLen
  | .onError dwErrorNo => c.onError dwErrorNo
  | .onConnError dwErrorNo => c.onConnError dwErrorNo
  | .close => c.close
  | .reconnect created hSock => (c.reconnect created hSock).2
  | .socketDestroy => c.onSocketDestroy.onClose

/-- Only an attached socket reports events; the application may act at any time. -/
def Admissible (c : FxConnection) : ConnOp → Prop
  | .close | .reconnect _ _ => True
  | .onAssociate | .onConnect | .onRecv _ | .onError _ | .onConnError _ | .socketDestroy =>
    c.sock ≠ none

instance (c : FxConnection) : (op : ConnOp) → Decidable (Admissible c op)
  | .close | .reconnect _ _ => inferInstanceAs (Decidable True)
  | .onAssociate | .onConnect | .onRecv _ | .onError _ | .onConnError _ | .socketDestroy =>
    inferInstanceAs (Decidable (c.sock ≠ none))

def AdmissibleAll : FxConnection → List ConnOp → Prop
  | _, [] => True
  | c, op :: ops => op.Admissible c ∧ AdmissibleAll (op.run c).1 ops

instance decidableAdmissibleAll :
    (c : FxConnection) → (ops : List ConnOp) → Decidable (AdmissibleAll c ops)
  | _, [] => inferInstanceAs (Decidable True)
  | c, op :: ops =>
    have := decidableAdmissibleAll (op.run c).1 ops
    inferInstanceAs (Decidable (op.Admissible c ∧ AdmissibleAll (op.run c).1 ops))

def final : FxConnection → List ConnOp → FxConnection
  | c, [] => c
  | c, op :: ops => final (op.run c).1 ops

/-- What one operation calls on the session. -/
def calls (op : ConnOp) (c : FxConnection) : List Callback :=
  (op.run c).2.filterMap fun
    | .session call => some call
    | .sock _ => none

/-- What the run calls on the session. -/
def callbacks : FxConnection → List ConnOp → List Callback
  | _, [] => []
  | c, op :: ops => op.calls c ++ callbacks (op.run c).1 ops

end ConnOp

/-! ### The session's protocol -/

/-- One callback, seen from a session that is or is not between an `OnConnect` and the
next `OnClose`. `none` is a breach of the protocol. -/
def sessionStep : Bool → Callback → Option Bool
  | false, .onConnect => some true
  | true, .onClose => some false
  | true, .onRecv _ => some true
  | connected, .onError _ | connected, .init | connected, .release => some connected
  | true, .onConnect | false, .onClose | false, .onRecv _ => none

/-- `OnRecv` only inside, `OnConnect` and `OnClose` strictly in turn. -/
def sessionRun (connected : Bool) (calls : List Callback) : Option Bool :=
  calls.foldlM sessionStep connected

theorem sessionRun_append (connected : Bool) (xs ys : List Callback) :
    sessionRun connected (xs ++ ys) = (sessionRun connected xs).bind (sessionRun · ys) := by
  simp only [sessionRun, List.foldlM_append]
  rfl

/-- In an accepted sequence every `OnConnect` has its `OnClose`, except a last one when
the session is still connected. -/
theorem sessionRun_count {calls : List Callback} {connected last : Bool}
    (h : sessionRun connected calls = some last) :
    calls.count .onConnect + connected.toNat = calls.count .onClose + last.toNat := by
  induction calls generalizing connected with
  | nil =>
    obtain rfl : connected = last := by simpa [sessionRun] using h
    simp
  | cons call calls ih =>
    simp only [sessionRun, List.foldlM_cons] at h
    cases hs : sessionStep connected call with
    | none => simp [hs] at h
    | some next =>
      have hrest : sessionRun next calls = some last := by simpa [hs, sessionRun] using h
      have hcount := ih hrest
      cases connected <;> cases call <;>
        simp [sessionStep] at hs <;> subst hs <;> simp at hcount ⊢ <;> omega

/-- The callbacks of a run keep the protocol, and a connection back in `CONN_NONE` has
closed what it opened. -/
def KeepsProtocol (c : FxConnection) (ops : List ConnOp) : Prop :=
  ∃ connected, sessionRun false (ConnOp.callbacks c ops) = some connected ∧
    ((ConnOp.final c ops).connStat = .none → connected = false)

theorem KeepsProtocol.balanced {c : FxConnection} {ops : List ConnOp} (h : KeepsProtocol c ops)
    (hnone : (ConnOp.final c ops).connStat = .none) :
    (ConnOp.callbacks c ops).count .onConnect = (ConnOp.callbacks c ops).count .onClose := by
  obtain ⟨connected, hrun, hclosed⟩ := h
  have hcount := sessionRun_count hrun
  rw [hclosed hnone] at hcount
  simpa using hcount

/-! ### Where the sockets may go away -/

/-- The last state before `CONN_CLOSING`, or the state itself. -/
def before (last : EConnStat) (c : FxConnection) : EConnStat :=
  if c.connStat = .closing then last else c.connStat

/-- No socket is destroyed in `CONN_CONN`, nor in a `CONN_CLOSING` that was entered from
another state than `CONN_OK`. -/
def Clean (last : EConnStat) (c : FxConnection) : ConnOp → Prop
  | .socketDestroy => c.connStat ≠ .conn ∧ (c.connStat = .closing → last = .ok)
  | _ => True

instance (last : EConnStat) (c : FxConnection) : (op : ConnOp) → Decidable (Clean last c op)
  | .socketDestroy =>
    inferInstanceAs (Decidable (c.connStat ≠ .conn ∧ (c.connStat = .closing → last = .ok)))
  | .onAssociate | .onConnect | .onRecv _ | .onError _ | .onConnError _ | .close
  | .reconnect _ _ => inferInstanceAs (Decidable True)

def DestroysCleanly : EConnStat → FxConnection → List ConnOp → Prop
  | _, _, [] => True
  | last, c, op :: ops =>
    Clean last c op ∧ DestroysCleanly (before last (op.run c).1) (op.run c).1 ops

instance decidableDestroysCleanly : (last : EConnStat) → (c : FxConnection) →
    (ops : List ConnOp) → Decidable (DestroysCleanly last c ops)
  | _, _, [] => inferInstanceAs (Decidable True)
  | last, c, op :: ops =>
    have := decidableDestroysCleanly (before last (op.run c).1) (op.run c).1 ops
    inferInstanceAs (Decidable (Clean last c op ∧
      DestroysCleanly (before last (op.run c).1) (op.run c).1 ops))

/-- The session is connected in `CONN_OK` and in the `CONN_CLOSING` that follows it, and
every state past the connecting ones has a socket. -/
structure InStep (last : EConnStat) (connected : Bool) (c : FxConnection) : Prop where
  session : c.session = true
  connected_iff : connected = true ↔ c.connStat = .ok ∨ (c.connStat = .closing ∧ last = .ok)
  last : c.connStat ≠ .closing → last = c.connStat
  sock : c.sock = none → c.connStat = .none ∨ c.connStat = .conn

namespace InStep

variable {last : EConnStat} {connected : Bool} {c : FxConnection}

theorem new (reconnectOpt : Bool) (sockType : ESocketType) (sock : Option Nat) :
    InStep .none false (FxConnection.new true reconnectOpt sockType sock) := by
  refine ⟨rfl, ?_, fun _ => rfl, fun _ => Or.inl rfl⟩
  simp [FxConnection.new]

theorem before_eq (h : InStep last connected c) : before last c = last := by
  simp only [before]
  split
  · rfl
  · rename_i hc
    exact (h.last hc).symm

/-- Moving to a state other than `CONN_CLOSING`. -/
theorem enter (h : InStep last connected c) {stat : EConnStat} (hstat : stat ≠ .closing)
    {connected' : Bool} (hconn : connected' = true ↔ stat = .ok)
    (hsock : c.sock = none → stat = .none ∨ stat = .conn) :
    InStep (before last { c with connStat := stat }) connected' { c with connStat := stat } := by
  have hb : before last { c with connStat := stat } = stat := if_neg hstat
  rw [hb]
  exact ⟨h.session, by simpa [hstat] using hconn, fun _ => rfl, hsock⟩

/-- Moving to `CONN_CLOSING`: it is remembered where from. -/
theorem enterClosing (h : InStep last connected c) (hsock : c.sock ≠ none) :
    InStep (before last { c with connStat := .closing }) connected
      { c with connStat := .closing } := by
  have hb : before last { c with connStat := .closing } = last := if_pos rfl
  rw [hb]
  refine ⟨h.session, ?_, fun hc => absurd rfl hc, fun hn => absurd hn hsock⟩
  rw [h.connected_iff]
  by_cases hc : c.connStat = .closing
  · simp [hc]
  · simp [hc, h.last hc]

/-- Callbacks that leave the session as it is. -/
theorem stay (h : InStep last connected c) {calls : List Callback}
    (hcalls : sessionRun connected calls = some connected) :
    ∃ next, sessionRun connected calls = some next ∧ InStep (before last c) next c :=
  ⟨connected, hcalls, by rwa [h.before_eq]⟩

theorem closed (h : InStep last connected c)
    (hc : ¬ (c.connStat = .ok ∨ (c.connStat = .closing ∧ last = .ok))) : connected = false :=
  Bool.eq_false_iff.mpr fun ht => hc (h.connected_iff.mp ht)

/-- Where `OnSocketDestroy` and `OnClose` lead from any state. -/
theorem destroyed (h : InStep last connected c) :
    (ConnOp.run .socketDestroy c).1 = { c with sock := none, connStat := .none } := by
  have hsession := h.session
  simp only [ConnOp.run, FxConnection.onSocketDestroy, FxConnection.onClose, hsession]
  by_cases hn : c.connStat = .none
  · rw [if_pos hn]
    simp [hn]
  · rw [if_neg hn]
    rfl

theorem calls_socketDestroy (h : InStep last connected c) :
    ConnOp.calls .socketDestroy c =
      match c.connStat with
      | .none => [.release]
      | .associate => [.init, .onConnect, .onClose, .release]
      | .conn | .ok | .closing => [.onClose, .release] := by
  have hsession := h.session
  cases hstat : c.connStat <;>
    simp [ConnOp.calls, ConnOp.run, FxConnection.onSocketDestroy, FxConnection.onClose, hstat,
      hsession]

theorem step_socketDestroy (h : InStep last connected c)
    (hclean : Clean last c .socketDestroy) :
    ∃ next, sessionRun connected (ConnOp.calls .socketDestroy c) = some next ∧
      InStep (before last (ConnOp.run .socketDestroy c).1) next
        (ConnOp.run .socketDestroy c).1 := by
  obtain ⟨hnot, hclosing⟩ := hclean
  refine ⟨false, ?_, ?_⟩
  · rw [h.calls_socketDestroy]
    cases hstat : c.connStat with
    | none =>
      rw [h.closed (by simp [hstat])]
      rfl
    | conn => exact absurd hstat hnot
    | ok =>
      rw [h.connected_iff.mpr (Or.inl hstat)]
      rfl
    | associate =>
      rw [h.closed (by simp [hstat])]
      rfl
    | closing =>
      rw [h.connected_iff.mpr (Or.inr ⟨hstat, hclosing hstat⟩)]
      rfl
  · rw [h.destroyed]
    exact ⟨h.session, by simp, fun _ => rfl, fun _ => Or.inl rfl⟩

/-- A socket that goes away where it should not makes the connection call `OnClose` on a
session that has no `OnConnect`. -/
theorem breach_socketDestroy (h : InStep last connected c)
    (hclean : ¬ Clean last c .socketDestroy) :
    sessionRun connected (ConnOp.calls .socketDestroy c) = none := by
  have hcase : c.connStat = .conn ∨ (c.connStat = .closing ∧ last ≠ .ok) := by
    by_contra hc
    exact hclean ⟨fun he => hc (Or.inl he), fun he => by_contra fun hl => hc (Or.inr ⟨he, hl⟩)⟩
  rw [h.calls_socketDestroy]
  rcases hcase with hstat | ⟨hstat, hlast⟩
  · rw [h.closed (by simp [hstat]), hstat]
    rfl
  · rw [h.closed (by simp [hstat, hlast]), hstat]
    rfl

theorem step_onConnect (h : InStep last connected c) (hsock : c.sock ≠ none) :
    ∃ next, sessionRun connected (ConnOp.calls .onConnect c) = some next ∧
      InStep (before last (ConnOp.run .onConnect c).1) next (ConnOp.run .onConnect c).1 := by
  by_cases hstat : c.connStat = .associate
  · have hrun : ConnOp.run .onConnect c =
        ({ c with connStat := .ok }, [.session .init, .session .onConnect]) := by
      simp [ConnOp.run, FxConnection.onConnect, hstat, h.session]
    rw [ConnOp.calls, hrun, h.closed (by simp [hstat])]
    exact ⟨true, rfl, h.enter (by simp) (by simp) fun hn => absurd hn hsock⟩
  · have hrun : ConnOp.run .onConnect c = (c, []) := if_pos fun he => hstat he.symm
    rw [ConnOp.calls, hrun]
    exact h.stay rfl

theorem step_onAssociate (h : InStep last connected c) (hsock : c.sock ≠ none) :
    ∃ next, sessionRun connected (ConnOp.calls .onAssociate c) = some next ∧
      InStep (before last (ConnOp.run .onAssociate c).1) next (ConnOp.run .onAssociate c).1 := by
  by_cases hstat : c.connStat = .none ∨ c.connStat = .conn
  · have hrun : ConnOp.run .onAssociate c = ({ c with connStat := .associate }, []) :=
      if_neg fun ⟨hn, hc⟩ => hstat.elim (fun he => hn he.symm) (fun he => hc he.symm)
    have hclosed : connected = false := h.closed (by rcases hstat with he | he <;> simp [he])
    rw [ConnOp.calls, hrun, hclosed]
    exact ⟨false, rfl, h.enter (by simp) (by simp) fun hn => absurd hn hsock⟩
  · have hrun : ConnOp.run .onAssociate c = (c, []) :=
      if_pos ⟨fun he => hstat (Or.inl he.symm), fun he => hstat (Or.inr he.symm)⟩
    rw [ConnOp.calls, hrun]
    exact h.stay rfl

theorem step_close (h : InStep last connected c) :
    ∃ next, sessionRun connected (ConnOp.calls .close c) = some next ∧
      InStep (before last (ConnOp.run .close c).1) next (ConnOp.run .close c).1 := by
  by_cases hopen : c.sock ≠ none ∧ c.connStat = .ok
  · have hrun : ConnOp.run .close c = ({ c with connStat := .closing }, [.sock .postClose]) := by
      simp [ConnOp.run, FxConnection.close, hopen.1, hopen.2]
    rw [ConnOp.calls, hrun]
    exact ⟨connected, rfl, h.enterClosing hopen.1⟩
  · have hrun : ConnOp.run .close c = (c, []) := by
      simp only [ConnOp.run, FxConnection.close]
      split_ifs <;> first | rfl | simp_all
    rw [ConnOp.calls, hrun]
    exact h.stay rfl

theorem step_onRecv (h : InStep last connected c) (dwLen : Nat) :
    ∃ next, sessionRun connected (ConnOp.calls (.onRecv dwLen) c) = some next ∧
      InStep (before last (ConnOp.run (.onRecv dwLen) c).1) next
        (ConnOp.run (.onRecv dwLen) c).1 := by
  by_cases hstat : c.connStat = .ok
  · have hrun : ConnOp.run (.onRecv dwLen) c = (c, [.session (.onRecv dwLen)]) := by
      simp [ConnOp.run, FxConnection.onRecv, hstat, h.session]
    rw [ConnOp.calls, hrun, h.connected_iff.mpr (Or.inl hstat)]
    refine ⟨true, rfl, ?_⟩
    rw [h.before_eq, ← h.connected_iff.mpr (Or.inl hstat)]
    exact h
  · have hrun : ConnOp.run (.onRecv dwLen) c = (c, []) := by
      simp [ConnOp.run, FxConnection.onRecv, hstat]
    rw [ConnOp.calls, hrun]
    exact h.stay rfl

/-- Errors are told in every state and change nothing. -/
theorem step_error (h : InStep last connected c) {op : ConnOp}
    (hop : (∃ e, op = .onError e) ∨ ∃ e, op = .onConnError e) :
    ∃ next, sessionRun connected (op.calls c) = some next ∧
      InStep (before last (op.run c).1) next (op.run c).1 := by
  have hone : ∀ e, sessionRun connected [.onError e] = some connected := fun e => by
    cases connected <;> rfl
  rcases hop with ⟨e, rfl⟩ | ⟨e, rfl⟩
  · by_cases hstat : c.connStat = .ok
    · have hrun : ConnOp.run (.onError e) c = (c, [.session (.onError e)]) := by
        simp [ConnOp.run, FxConnection.onError, hstat, h.session]
      rw [ConnOp.calls, hrun]
      exact h.stay (hone e)
    · have hrun : ConnOp.run (.onError e) c = (c, []) := by
        simp [ConnOp.run, FxConnection.onError, hstat]
      rw [ConnOp.calls, hrun]
      exact h.stay rfl
  · have hstate : (ConnOp.run (.onConnError e) c).1 = c := by
      simp [ConnOp.run, FxConnection.onConnError, h.session]
    have hcalls : ConnOp.calls (.onConnError e) c = [.onError e] := by
      simp only [ConnOp.calls, ConnOp.run, FxConnection.onConnError, h.session]
      split_ifs <;> simp_all
    rw [hstate, hcalls]
    exact h.stay (hone e)

theorem step_reconnect (h : InStep last connected c) (created hSock : Option Nat) :
    ∃ next, sessionRun connected (ConnOp.calls (.reconnect created hSock) c) = some next ∧
      InStep (before last (ConnOp.run (.reconnect created hSock) c).1) next
        (ConnOp.run (.reconnect created hSock) c).1 := by
  cases hsock : c.sock with
  | some sockId =>
    have hrun : ConnOp.run (.reconnect created hSock) c =
        ({ c with connStat := .closing }, [.sock .close]) := by
      simp [ConnOp.run, FxConnection.reconnect, hsock]
    rw [ConnOp.calls, hrun]
    exact ⟨connected, rfl, h.enterClosing (by simp [hsock])⟩
  | none =>
    have hidle := h.sock hsock
    have hclosed : connected = false := h.closed (by rcases hidle with he | he <;> simp [he])
    have hcalls : ConnOp.calls (.reconnect created hSock) c = [] := by
      simp only [ConnOp.calls, ConnOp.run, FxConnection.reconnect, hsock]
      split <;> simp
    have hstat : (ConnOp.run (.reconnect created hSock) c).1.connStat = .conn := by
      simp only [ConnOp.run, FxConnection.reconnect, hsock]
      split
      · rfl
      · split_ifs <;> rfl
    have hsession : (ConnOp.run (.reconnect created hSock) c).1.session = true := by
      rw [← h.session]
      simp only [ConnOp.run, FxConnection.reconnect, hsock]
      split
      · rfl
      · split_ifs <;> rfl
    rw [hcalls, hclosed]
    refine ⟨false, rfl, hsession, ?_, fun _ => ?_, fun _ => Or.inr hstat⟩
    · simp [hstat]
    · simp [before, hstat]

/-- One clean operation. -/
theorem step (h : InStep last connected c) {op : ConnOp} (hadm : op.Admissible c)
    (hclean : Clean last c op) :
    ∃ next, sessionRun connected (op.calls c) = some next ∧
      InStep (before last (op.run c).1) next (op.run c).1 := by
  cases op with
  | onAssociate => exact h.step_onAssociate hadm
  | onConnect => exact h.step_onConnect hadm
  | onRecv dwLen => exact h.step_onRecv dwLen
  | onError e => exact h.step_error (Or.inl ⟨e, rfl⟩)
  | onConnError e => exact h.step_error (Or.inr ⟨e, rfl⟩)
  | close => exact h.step_close
  | reconnect created hSock => exact h.step_reconnect created hSock
  | socketDestroy => exact h.step_socketDestroy hclean

theorem breach (h : InStep last connected c) {op : ConnOp} (hclean : ¬ Clean last c op) :
    sessionRun connected (op.calls c) = none := by
  cases op with
  | socketDestroy => exact h.breach_socketDestroy hclean
  | _ => exact absurd trivial hclean

/-- A run is accepted exactly when its sockets go away where they should. -/
theorem run_iff {ops : List ConnOp} (h : InStep last connected c)
    (hadm : ConnOp.AdmissibleAll c ops) :
    (∃ next, sessionRun connected (ConnOp.callbacks c ops) = some next ∧
      ((ConnOp.final c ops).connStat = .none → next = false)) ↔ DestroysCleanly last c ops := by
  induction ops generalizing last connected c with
  | nil =>
    refine ⟨fun _ => trivial, fun _ => ⟨connected, rfl, fun hn => ?_⟩⟩
    have hn : c.connStat = .none := hn
    exact h.closed (by simp [hn])
  | cons op ops ih =>
    rw [ConnOp.callbacks, sessionRun_append]
    by_cases hclean : Clean last c op
    · obtain ⟨next, hrun, hnext⟩ := h.step hadm.1 hclean
      rw [hrun, Option.bind_some]
      exact (ih hnext hadm.2).trans ⟨fun hrest => ⟨hclean, hrest⟩, fun hall => hall.2⟩
    · rw [h.breach hclean]
      simp [DestroysCleanly, hclean]

end InStep

/-- The session's protocol is kept exactly by the runs that destroy no socket in
`CONN_CONN` and none in a `CONN_CLOSING` that `Reconnect` entered before the session was
connected. -/
theorem keepsProtocol_iff (reconnectOpt : Bool) (sockType : ESocketType) (sock : Option Nat)
    {ops : List ConnOp}
    (hadm : ConnOp.AdmissibleAll (FxConnection.new true reconnectOpt sockType sock) ops) :
    KeepsProtocol (FxConnection.new true reconnectOpt sockType sock) ops ↔
      DestroysCleanly .none (FxConnection.new true reconnectOpt sockType sock) ops :=
  (InStep.new reconnectOpt sockType sock).run_iff hadm

/-- An accepted connection that reconnects once after its socket is gone. -/
def acceptedOps : List ConnOp :=
  [.onAssociate, .onConnect, .onRecv 5, .close, .socketDestroy, .reconnect (some 2) (some 7),
    .onAssociate, .socketDestroy]

theorem keepsProtocol_accepted :
    KeepsProtocol (FxConnection.new true false .commonTcp (some 1)) acceptedOps :=
  (keepsProtocol_iff false .commonTcp (some 1) (by decide)).mpr (by decide)

/-- A connect attempt that fails: the session gets `OnClose` without an `OnConnect`. -/
theorem onClose_without_onConnect :
    ConnOp.AdmissibleAll (FxConnection.new true false .commonTcp none)
        [.reconnect (some 1) none, .socketDestroy] ∧
      ConnOp.callbacks (FxConnection.new true false .commonTcp none)
        [.reconnect (some 1) none, .socketDestroy] = [.onClose, .release] ∧
      ¬ KeepsProtocol (FxConnection.new true false .commonTcp none)
        [.reconnect (some 1) none, .socketDestroy] := by
  refine ⟨⟨trivial, by decide, trivial⟩, by decide, ?_⟩
  rintro ⟨connected, hrun, _⟩
  exact absurd hrun (by cases connected <;> decide)
