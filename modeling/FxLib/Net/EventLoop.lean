import FxLib.Net.EventQueue
import FxLib.Net.TcpFraming

/-!
# The main thread at the event queue

`FxNetModule::Run` pops an event and calls the handler of its socket; `PushNetEvent` of a socket
repeats `PushBack` until it is accepted, on whichever thread it is called. The calls of
`PushNetEvent` that a handler makes are the list `remaining`; between two of them the main
thread does nothing that the queue can see.
-/

open MachineInt

structure SSockNetEvent where
  poSock : Option Nat
  oEvent : SNetEvent
  deriving DecidableEq

/-! ### What the handlers push -/

/-- How `FxTCPConnectSock::Connect` ends. `FetchIoThread` never answers NULL. -/
inductive ConnectResult where
  | refused
  | noSocket (errno : Nat)
  /-- `AddEvent` has reported and closed before `Connect` reports and closes once more. -/
  | noEvent (errno errno' : Nat)
  | failed (errno : Nat)
  | started

def ConnectResult.pushes : ConnectResult → List SNetEvent
  | .refused => []
  | .noSocket errno => [⟨.error, errno⟩]
  | .noEvent errno errno' => [⟨.error, errno⟩, ⟨.terminate, 0⟩, ⟨.error, errno'⟩]
  | .failed errno => [⟨.associate, 0⟩, ⟨.connErr, errno⟩, ⟨.terminate, 0⟩]
  | .started => [⟨.associate, 0⟩]

/-- What a session may ask of a socket in a callback. -/
inductive ApiCall where
  /-- `failed` when there is no header, the frame exceeds the ring, or the events cannot be set. -/
  | send (failed : Bool)
  /-- `PostClose`, which goes to the delay list of the IO thread. -/
  | postClose
  /-- `live` when `Close` gets past its two tests. -/
  | close (live : Bool)
  | connect (result : ConnectResult)

def ApiCall.pushes : ApiCall → List SNetEvent
  | .send failed => if failed then [⟨.error, toUInt32 netSendOverflow⟩] else []
  | .postClose => []
  | .close live => if live then [⟨.terminate, 0⟩] else []
  | .connect result => result.pushes

namespace RecvSock

variable {η : Type} (procRecv : RecvSock η → FxConnection → Nat → RecvSock η)

/-- The events that `ProcEvent` itself pushes. -/
def ownPushes (s : RecvSock η) (e : SNetEvent) : List SNetEvent :=
  (s.procEvent procRecv e).announced.drop s.announced.length

/-- `ProcEvent` calls the session. -/
def callsSession (s : RecvSock η) (e : SNetEvent) : Bool :=
  match e.eType, s.connection with
  | .recv, _ => s.received.length < (s.procEvent procRecv e).received.length
  | .establish, some c => s.sockId = c.id ∧ c.onConnect.2 ≠ []
  | .connErr, some c => s.sockId = c.id ∧ (c.onConnError e.dwValue).2 ≠ []
  | .error, some c => s.sockId = c.id ∧ (c.onError e.dwValue).2 ≠ []
  | .release, some c => s.sockId = c.id ∧ c.onSocketDestroy.onClose.2 ≠ []
  | _, _ => false

/-- All events that the main thread pushes while it handles `e`, in order. -/
def handlerPushes (s : RecvSock η) (e : SNetEvent) (calls : List (Nat × ApiCall)) :
    List SSockNetEvent :=
  (s.ownPushes procRecv e).map (⟨some s.sockId, ·⟩) ++
    if s.callsSession procRecv e then
      calls.flatMap fun call => call.2.pushes.map (⟨some call.1, ·⟩)
    else []

end RecvSock

/-! ### The loop -/

structure EventLoop where
  queue : TEventQueue.Machine SSockNetEvent
  /-- What the handler has still to push. -/
  remaining : List SSockNetEvent
  /-- The thread inside `PushBack` is the main thread. -/
  mine : Bool

namespace EventLoop

inductive Op (η : Type) where
  /-- An IO thread tries `PushBack` once. -/
  | ioPush (oSockEvent : SSockNetEvent)
  /-- The thread inside `PushBack` goes on. -/
  | producer
  | popFront
  /-- `PopFront` goes on. Behind it `Run` calls the handler, which finds the socket as `poSock`
  and whose session makes the calls `calls`. -/
  | consumer (poSock : RecvSock η) (calls : List (Nat × ApiCall))
  /-- The handler tries `PushBack` once. -/
  | mainPush

section Step

variable {η : Type} (procRecv : RecvSock η → FxConnection → Nat → RecvSock η)

/-- What the handler of the popped event pushes; `Run` stops at an event without a socket. -/
def started (q : TEventQueue.Machine SSockNetEvent) (poSock : RecvSock η)
    (calls : List (Nat × ApiCall)) : List SSockNetEvent :=
  match q.slot with
  | none => []
  | some (a, _) =>
    match (q.queue.poArrayT a).poSock with
    | none => []
    | some _ => poSock.handlerPushes procRecv (q.queue.poArrayT a).oEvent calls

def step (s : EventLoop) : Op η → Option EventLoop
  | .ioPush oSockEvent =>
    (TEventQueue.step s.queue (.pushBack oSockEvent)).map fun q => { s with queue := q }
  | .producer =>
    (TEventQueue.step s.queue .producer).map fun q =>
      { s with queue := q
               mine := match q.producer with | .idle => false | _ => s.mine }
  | .popFront =>
    if s.remaining ≠ [] ∨ s.mine then none
    else (TEventQueue.step s.queue .popFront).map fun q => { s with queue := q }
  | .consumer poSock calls =>
    (TEventQueue.step s.queue .consumer).map fun q =>
      { s with queue := q
               remaining := if q.consumer = .idle then started procRecv q poSock calls
                            else s.remaining }
  | .mainPush =>
    match s.remaining with
    | [] => none
    | oSockEvent :: remaining =>
      (TEventQueue.step s.queue (.pushBack oSockEvent)).map fun q =>
        match q.producer with
        | .idle => { s with queue := q }
        | _ => ⟨q, remaining, true⟩

end Step

def start (nMax : Int) (poArrayT : Int → SSockNetEvent) : EventLoop :=
  ⟨TEventQueue.start (TEventQueue.init nMax poArrayT), [], false⟩

/-- The main thread stands before a `PushBack` of a handler, and the queue is full. -/
def Spinning (s : EventLoop) : Prop :=
  s.remaining ≠ [] ∧ s.queue.producer = .idle ∧ s.queue.queue.isFull = true

end EventLoop

namespace TEventQueue

variable {T : Type}

/-- An event has passed the test of `PushBack` and does not count yet. -/
def Producer.pending : Producer T → Int
  | .copying _ | .advancing _ => 1
  | .idle | .wrapping => 0

/-- How many more events the queue takes. -/
def Machine.room (s : Machine T) : Int :=
  s.queue.nSize - 1 - s.queue.used - s.producer.pending

end TEventQueue

namespace EventLoop

section

variable {η : Type} (procRecv : RecvSock η → FxConnection → Nat → RecvSock η)

/-- The condition on a step: a handler starts only when the queue takes all events it is going
to push, and an IO thread leaves a place for each that it has still to push. -/
def LeavesRoom (s : EventLoop) : Op η → Prop
  | .ioPush _ => s.remaining ≠ [] → (s.remaining.length : Int) < s.queue.room
  | .consumer poSock calls =>
    ∀ q ∈ TEventQueue.step s.queue .consumer, q.consumer = .idle →
      started procRecv q poSock calls ≠ [] →
      ((started procRecv q poSock calls).length : Int) ≤ q.room
  | .producer | .popFront | .mainPush => True

instance decidableLeavesRoom (s : EventLoop) : (op : Op η) → Decidable (s.LeavesRoom procRecv op)
  | .ioPush _ => inferInstanceAs (Decidable (_ → _))
  | .consumer _ _ => inferInstanceAs (Decidable (∀ q ∈ _, _))
  | .producer => inferInstanceAs (Decidable True)
  | .popFront => inferInstanceAs (Decidable True)
  | .mainPush => inferInstanceAs (Decidable True)

end

/-- What every such step keeps. -/
structure Roomy (s : EventLoop) : Prop where
  standing : TEventQueue.Standing s.queue
  idle : s.remaining ≠ [] → s.queue.consumer = .idle
  room : s.remaining ≠ [] → (s.remaining.length : Int) ≤ s.queue.room

/-! ### The steps of the queue -/

section Room

open TEventQueue

variable {q q' : Machine SSockNetEvent}

/-- A try of `PushBack` takes a place or changes nothing. -/
theorem pushBack_cases {oSockEvent : SSockNetEvent}
    (hstep : TEventQueue.step q (.pushBack oSockEvent) = some q') :
    q.producer = .idle ∧
      ((q.queue.isFull = true ∧ q' = q) ∨
        (q.queue.isFull = false ∧ q' = { q with producer := .copying oSockEvent })) := by
  simp only [TEventQueue.step] at hstep
  split at hstep
  case h_2 => cases hstep
  case h_1 hidle =>
    refine ⟨hidle, ?_⟩
    cases hstep
    cases hfull : q.queue.isFull with
    | true => exact Or.inl ⟨rfl, by simp⟩
    | false => exact Or.inr ⟨rfl, by simp⟩

theorem room_copying (q : Machine SSockNetEvent) (hidle : q.producer = .idle)
    (oSockEvent : SSockNetEvent) :
    Machine.room { q with producer := .copying oSockEvent } = q.room - 1 := by
  simp [Machine.room, Producer.pending, hidle]

/-- A place once taken is only used. -/
theorem room_producer (h : Standing q) (hstep : TEventQueue.step q .producer = some q') :
    q.room ≤ q'.room ∧ q'.consumer = q.consumer := by
  have hbounds := h.used_bounds
  cases hp : q.producer with
  | idle => simp [TEventQueue.step, hp] at hstep
  | copying ot =>
    simp only [TEventQueue.step, hp, Option.some.injEq] at hstep
    subst hstep
    simp [Machine.room, Producer.pending, used, hp]
  | advancing ot =>
    have hin := h.in_lt (by simp [hp])
    have hnonneg := h.in_nonneg
    have hfits := h.size_fits
    have hused := h.used_advance hin
    simp only [TEventQueue.step, hp, Option.some.injEq] at hstep
    rw [add32_of_fits ⟨by omega, by omega⟩] at hstep
    subst hstep
    simp only [Machine.room, Producer.pending, hp, hused, and_true]
    split_ifs <;> omega
  | wrapping =>
    simp only [TEventQueue.step, hp, Option.some.injEq] at hstep
    subst hstep
    simp [Machine.room, Producer.pending, used, hp, home_wrap h.in_le h.size_pos]

/-- With a place left the queue is not full. -/
theorem not_full_of_room (h : Standing q) (hidle : q.producer = .idle) (hroom : 0 < q.room) :
    q.queue.isFull = false := by
  have hin := h.in_lt (by simp [hidle])
  have hfull := h.isFull_iff hin
  simp only [Machine.room, Producer.pending, hidle] at hroom
  rw [Bool.eq_false_iff, ne_eq, hfull]
  omega

end Room

/-! ### The steps of the loop -/

variable {η : Type} {procRecv : RecvSock η → FxConnection → Nat → RecvSock η} {s s' : EventLoop}

theorem Roomy.ioPush (h : s.Roomy) {oSockEvent : SSockNetEvent}
    (hroom : s.LeavesRoom procRecv (.ioPush oSockEvent))
    (hstep : s.step procRecv (.ioPush oSockEvent) = some s') : s'.Roomy := by
  obtain ⟨q, hq, rfl⟩ := Option.map_eq_some_iff.mp hstep
  have hstanding := h.standing.step hq
  obtain ⟨hidle, ⟨-, rfl⟩ | ⟨-, rfl⟩⟩ := pushBack_cases hq
  · exact h
  · refine ⟨hstanding, h.idle, fun hne => ?_⟩
    have hplaces := hroom hne
    simp only
    rw [room_copying s.queue hidle]
    omega

theorem Roomy.producer (h : s.Roomy) (hstep : s.step procRecv .producer = some s') :
    s'.Roomy := by
  obtain ⟨q, hq, rfl⟩ := Option.map_eq_some_iff.mp hstep
  obtain ⟨hroom, hconsumer⟩ := room_producer h.standing hq
  exact ⟨h.standing.step hq, fun hne => hconsumer.trans (h.idle hne),
    fun hne => (h.room hne).trans hroom⟩

theorem Roomy.popFront (h : s.Roomy) (hstep : s.step procRecv .popFront = some s') :
    s'.Roomy := by
  simp only [step] at hstep
  split at hstep
  · cases hstep
  · rename_i hfree
    obtain ⟨q, hq, rfl⟩ := Option.map_eq_some_iff.mp hstep
    have hnil : s.remaining = [] := by
      by_contra hne
      exact hfree (Or.inl hne)
    exact ⟨h.standing.step hq, fun hne => absurd hnil hne, fun hne => absurd hnil hne⟩

theorem Roomy.consumer (h : s.Roomy) {poSock : RecvSock η} {calls : List (Nat × ApiCall)}
    (hroom : s.LeavesRoom procRecv (.consumer poSock calls))
    (hstep : s.step procRecv (.consumer poSock calls) = some s') : s'.Roomy := by
  obtain ⟨q, hq, rfl⟩ := Option.map_eq_some_iff.mp hstep
  have hnil : s.remaining = [] := by
    by_contra hne
    simp [TEventQueue.step, h.idle hne] at hq
  refine ⟨h.standing.step hq, fun hne => ?_, fun hne => ?_⟩
  · by_contra hbusy
    simp only [if_neg hbusy] at hne
    exact hne hnil
  · by_cases hidle : q.consumer = .idle
    · simp only [if_pos hidle] at hne ⊢
      exact hroom q hq hidle hne
    · simp only [if_neg hidle] at hne
      exact absurd hnil hne

theorem Roomy.mainPush (h : s.Roomy) (hstep : s.step procRecv .mainPush = some s') :
    s'.Roomy := by
  simp only [step] at hstep
  split at hstep
  case h_1 => cases hstep
  case h_2 oSockEvent rest hremaining =>
    obtain ⟨q, hq, rfl⟩ := Option.map_eq_some_iff.mp hstep
    have hstanding := h.standing.step hq
    have hroom := h.room (by simp [hremaining])
    obtain ⟨hidle, ⟨-, rfl⟩ | ⟨-, rfl⟩⟩ := pushBack_cases hq
    · rw [hidle]
      exact h
    · refine ⟨hstanding, fun _ => h.idle (by simp [hremaining]), fun _ => ?_⟩
      rw [hremaining, List.length_cons] at hroom
      push_cast at hroom
      simp only
      rw [room_copying s.queue hidle]
      omega

theorem Roomy.step (h : s.Roomy) {op : Op η} (hroom : s.LeavesRoom procRecv op)
    (hstep : s.step procRecv op = some s') : s'.Roomy := by
  cases op with
  | ioPush oSockEvent => exact h.ioPush hroom hstep
  | producer => exact h.producer hstep
  | popFront => exact h.popFront hstep
  | consumer poSock calls => exact h.consumer hroom hstep
  | mainPush => exact h.mainPush hstep

theorem Roomy.not_spinning (h : s.Roomy) : ¬ s.Spinning := by
  rintro ⟨hne, hidle, hfull⟩
  have hroom := h.room hne
  have hpos := List.length_pos_iff.mpr hne
  rw [not_full_of_room h.standing hidle (by omega)] at hfull
  cases hfull

/-- In no run that keeps to the condition does the main thread wait on the queue it drains. -/
theorem never_spins {nMax : Int} (hpos : 0 < nMax) (hfits : Fits32 nMax)
    {poArrayT : Int → SSockNetEvent} {ops : List (Op η)}
    (hroom : Transition.Always (step procRecv) (LeavesRoom procRecv) (start nMax poArrayT) ops)
    (hrun : Transition.run (step procRecv) (start nMax poArrayT) ops = some s) :
    ¬ s.Spinning := by
  have hstart : (start nMax poArrayT).Roomy :=
    ⟨TEventQueue.standing_start hpos hfits poArrayT, fun _ => rfl, by simp [start]⟩
  exact (Transition.invariant_of_always (fun _ _ _ h hr hs => h.step hr hs) hstart hroom
    hrun).not_spinning

/-- A handler's push that is accepted takes one place. -/
theorem mainPush_accepted (h : TEventQueue.Standing s.queue) (hidle : s.queue.producer = .idle)
    {oSockEvent : SSockNetEvent} {rest : List SSockNetEvent}
    (hremaining : s.remaining = oSockEvent :: rest) (hroom : 0 < s.queue.room) :
    ∃ s', Transition.run (step procRecv) s [.mainPush, .producer, .producer, .producer] = some s' ∧
      TEventQueue.Standing s'.queue ∧ s'.queue.producer = .idle ∧ s'.remaining = rest ∧
      s'.queue.queue.nSize = s.queue.queue.nSize ∧ s'.queue.room = s.queue.room - 1 := by
  have hfull := not_full_of_room h hidle hroom
  have hin := h.in_lt (by simp [hidle])
  have hused := h.used_advance hin
  have hbounds := h.used_bounds
  obtain ⟨⟨hpos, hfits, hin₀, hin', hout₀, hout'⟩, -, hout⟩ := h
  have hadd : add32 s.queue.queue.nInCursor 1 = s.queue.queue.nInCursor + 1 :=
    add32_of_fits ⟨by omega, by omega⟩
  let q : TEventQueue SSockNetEvent :=
    { s.queue.queue with
      poArrayT := Function.update s.queue.queue.poArrayT s.queue.queue.nInCursor oSockEvent
      nInCursor := if s.queue.queue.nInCursor + 1 ≥ s.queue.queue.nSize then 0
        else s.queue.queue.nInCursor + 1 }
  refine ⟨⟨⟨q, .idle, s.queue.consumer, s.queue.slot, s.queue.accepted ++ [oSockEvent],
      s.queue.popped⟩, rest, false⟩,
    by simp [Transition.run, step, TEventQueue.step, hremaining, hidle, hfull, hadd, q],
    ⟨⟨hpos, hfits, ?_, ?_, hout₀, hout'⟩, fun _ => ?_, hout⟩, rfl, rfl, rfl, ?_⟩
  · simp only [q]
    split_ifs <;> omega
  · simp only [q]
    split_ifs <;> omega
  · simp only [q]
    split_ifs <;> omega
  · simp only [TEventQueue.Machine.room, TEventQueue.Producer.pending, hidle, q] at hroom ⊢
    rw [if_neg (by omega)] at hused
    have hnext : s.queue.queue.nInCursor + 1 ≤ s.queue.queue.nSize := by omega
    have hwrap := TEventQueue.home_wrap hnext hpos
    simp only [TEventQueue.used, hwrap] at hused ⊢
    omega

/-- The condition is exact: once a handler has more to push than the queue takes, the main
thread's own steps bring it to a full queue. -/
theorem spins_without_room (h : TEventQueue.Standing s.queue)
    (hsize : s.queue.queue.nSize ≤ 1073741824) (hidle : s.queue.producer = .idle)
    (hroom : s.queue.room < s.remaining.length) :
    ∃ ops s', Transition.run (step procRecv) s ops = some s' ∧ s'.Spinning := by
  have hin := h.in_lt (by simp [hidle])
  have hbounds := h.used_bounds
  have hplaces : s.queue.room = s.queue.queue.nSize - 1 - s.queue.queue.used := by
    simp [TEventQueue.Machine.room, TEventQueue.Producer.pending, hidle]
  induction hrem : s.remaining generalizing s with
  | nil =>
    rw [hrem, List.length_nil] at hroom
    omega
  | cons oSockEvent rest ih =>
    by_cases hfull : s.queue.queue.isFull = true
    · exact ⟨[], s, rfl, by simp [hrem], hidle, hfull⟩
    · rw [h.isFull_iff hin] at hfull
      obtain ⟨m, hm, hstanding, hidle', hrest, hsame, hless⟩ :=
        mainPush_accepted h hidle hrem (by omega)
      rw [hrem, List.length_cons] at hroom
      push_cast at hroom
      obtain ⟨ops, s', hrun, hspin⟩ := ih hstanding (by omega) hidle' (by rw [hrest]; omega)
        (hstanding.in_lt (by simp [hidle'])) hstanding.used_bounds
        (by simp [TEventQueue.Machine.room, TEventQueue.Producer.pending, hidle']) hrest
      refine ⟨[.mainPush, .producer, .producer, .producer] ++ ops, s', ?_, hspin⟩
      rw [Transition.run_append, hm]
      exact hrun

/-- A socket of the IO thread has been closed and its `NETEVT_TERMINATE` has been popped, while
another socket receives. -/
def closingSteps : List (Op BinaryDataHeader) :=
  let poSock := (RecvSock.accepted ⟨fun _ => 0, []⟩ 16 64).close
  [.ioPush ⟨some poSock.sockId, ⟨.terminate, 0⟩⟩, .producer, .producer, .producer, .popFront,
    .consumer poSock [], .consumer poSock [], .ioPush ⟨some 9, ⟨.recv, 12⟩⟩, .producer, .producer,
    .producer]

theorem never_spins_closing :
    ∃ s, Transition.run (step FxTCPConnectSock.procRecv)
      (start 3 fun _ => ⟨none, ⟨.release, 0⟩⟩) closingSteps = some s ∧
      s.remaining = [⟨some 1, ⟨.release, 0⟩⟩] ∧ ¬ s.Spinning := by
  obtain ⟨s, hrun, hrem⟩ : ∃ s, Transition.run (step FxTCPConnectSock.procRecv)
      (start 3 fun _ => ⟨none, ⟨.release, 0⟩⟩) closingSteps = some s ∧
      s.remaining = [⟨some 1, ⟨.release, 0⟩⟩] := ⟨_, rfl, rfl⟩
  exact ⟨s, hrun, hrem, never_spins (by decide) (by decide) (by decide) hrun⟩

/-- The other socket's event takes the place that `PopFront` has freed, and `__ProcTerminate`
waits in `PushNetEvent` for the main thread itself. -/
theorem terminate_spins :
    ∃ s, Transition.run (step FxTCPConnectSock.procRecv)
      (start 2 fun _ => ⟨none, ⟨.release, 0⟩⟩) closingSteps = some s ∧ s.Spinning :=
  ⟨_, rfl, List.cons_ne_nil _ _, rfl, rfl⟩

end EventLoop
