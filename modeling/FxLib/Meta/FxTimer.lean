import Mathlib.Data.Rat.Floor
import FxLib.Lib.MachineInt
import FxLib.Lib.Period
import FxLib.Meta.LimiterQueue

/-!
# The timer handler

`FxTimerHandler` of `common/fxtimer.cpp`. The clock is an exact rational. Every function that adds
an event gives a time to `PushEvent` of the queue and returns whether that gave it a slot, which it
always does.
-/

structure FxTimerHandler where
  /-- The base class `TLimiterQueue<double>`; its multimap is the queue 0. -/
  queue : Timers Rat
  qwSecond : Rat
  qwDeltaTime : Rat
  dwDayTimeStart : UInt32
  /-- The static variable of `__Refresh`. -/
  s_qwSecond : Rat

namespace FxTimerHandler

open MachineInt

/-- `time` is what `GetTimeOfDay` returns and `t` what `time` does; `diff` is the difference of the
two `mktime`s, the second one of the local time. -/
def new (time : Rat) (t diff : Int) : FxTimerHandler :=
  let dwTimeZone := diff.tdiv 3600
  { queue := Timers.start
    qwSecond := time
    qwDeltaTime := 0
    dwDayTimeStart := UInt32.ofInt (t - (t - dwTimeZone * 3600).tmod 86400)
    s_qwSecond := 0 }

def getSecond (h : FxTimerHandler) : UInt32 := UInt32.ofInt ⌊h.qwSecond⌋

def pushEvent (h : FxTimerHandler) (c : Rat) (pEvent : Nat) : Option FxTimerHandler :=
  (h.queue.step (.pushEvent 0 c pEvent)).map fun queue => { h with queue := queue }

/-! ### The times that events are added for -/

def addTimer (h : FxTimerHandler) (dSecond : Rat) : Rat := h.qwSecond + dSecond

def addSecondTimer (h : FxTimerHandler) (dwSecond : UInt32) : UInt32 :=
  h.getSecond - h.getSecond % dwSecond + dwSecond

def addMinuteTimer (h : FxTimerHandler) (dwMinute : UInt32) : UInt32 :=
  h.getSecond - h.getSecond % (dwMinute * 60) + dwMinute * 60

def addHourTimer (h : FxTimerHandler) (dwHour : UInt32) : UInt32 :=
  let dwH1 := (h.getSecond - h.dwDayTimeStart) / 3600
  h.dwDayTimeStart + (dwH1 - dwH1 % dwHour + dwHour) * 3600

def addDayHourTimer (h : FxTimerHandler) (dwHour : UInt32) : UInt32 :=
  let dwTime := h.dwDayTimeStart + dwHour * 3600
  if dwTime ≤ h.getSecond then dwTime + 86400 else dwTime

/-- A call of one of the four. -/
inductive Call where
  | second (dwSecond : UInt32)
  | minute (dwMinute : UInt32)
  | hour (dwHour : UInt32)
  | dayHour (dwHour : UInt32)
  deriving DecidableEq

def timeOf (h : FxTimerHandler) : Call → UInt32
  | .second dwSecond => h.addSecondTimer dwSecond
  | .minute dwMinute => h.addMinuteTimer dwMinute
  | .hour dwHour => h.addHourTimer dwHour
  | .dayHour dwHour => h.addDayHourTimer dwHour

/-! ### The refresh -/

/-- `(int)(1 / m_qwDeltaTime)`; `other` is what the conversion gives for a quotient that is no
`int`. -/
def maxNum (qwDeltaTime : Rat) (other : Int) : Int :=
  let quotient := (1 / qwDeltaTime).num.tdiv (1 / qwDeltaTime).den
  if qwDeltaTime ≠ 0 ∧ Fits32 quotient then quotient else other

/-- `__Refresh` as far as the call of `Proc`. -/
def refresh (h : FxTimerHandler) (time : Rat) (other : Int) : Option FxTimerHandler :=
  let h := { h with s_qwSecond := time, qwDeltaTime := time - h.qwSecond }
  (h.queue.step (.proc 0 (maxNum h.qwDeltaTime other) h.qwSecond)).map fun queue =>
    { h with queue := queue }

/-- What follows the call of `Proc`. -/
def endRefresh (h : FxTimerHandler) : FxTimerHandler :=
  if UInt32.ofInt ⌊h.s_qwSecond⌋ = h.getSecond then { h with qwSecond := h.s_qwSecond }
  else
    let h := { h with qwSecond := h.s_qwSecond }
    let s_dwTime := ⌊h.qwSecond⌋
    if s_dwTime - h.dwDayTimeStart.toNat ≥ 86400 then
      { h with dwDayTimeStart := h.dwDayTimeStart + 86400 }
    else h

/-- The calls of the program and, while `Proc` is in progress, of the events that it fires. -/
inductive Op where
  | addTimer (dSecond : Rat) (pEvent : Nat)
  | add (call : Call) (pEvent : Nat)
  /-- `~CEventBase`. -/
  | destroy (event : Nat)
  | refresh (time : Rat) (other : Int)
  /-- The next iteration of `Proc`; behind the last one `__Refresh` comes to its end. -/
  | next

def step (h : FxTimerHandler) : Op → Option FxTimerHandler
  | .addTimer dSecond pEvent => h.pushEvent (h.addTimer dSecond) pEvent
  | .add call pEvent => h.pushEvent (h.timeOf call).toNat pEvent
  | .destroy event => (h.queue.step (.destroy event)).map fun queue => { h with queue := queue }
  | .refresh time other => h.refresh time other
  | .next => (h.queue.step .next).map fun queue =>
      let h := { h with queue := queue }
      if queue.proc.isNone then h.endRefresh else h

/-! ### What the calls are for -/

namespace Call

/-- In seconds. -/
def period : Call → Int
  | .second dwSecond => dwSecond.toNat
  | .minute dwMinute => 60 * dwMinute.toNat
  | .hour dwHour => 3600 * dwHour.toNat
  | .dayHour _ => 86400

/-- Where the periods are counted from. -/
def origin (h : FxTimerHandler) : Call → Int
  | .second _ | .minute _ => 0
  | .hour _ => h.dwDayTimeStart.toNat
  | .dayHour dwHour => h.dwDayTimeStart.toNat + 3600 * dwHour.toNat

/-- The next instant of the period, which is to be an `unsigned int`. -/
def next (h : FxTimerHandler) (call : Call) : Int :=
  Period.next (call.origin h) call.period ⌊h.qwSecond⌋

/-- A period of one at least, an hour of the day, and an instant that fits. -/
def Admissible (h : FxTimerHandler) (call : Call) : Prop :=
  match call with
  | .second _ | .minute _ | .hour _ => 0 < call.period ∧ call.next h < 4294967296
  | .dayHour dwHour => dwHour.toNat < 24

instance (h : FxTimerHandler) : (call : Call) → Decidable (call.Admissible h)
  | .second _ | .minute _ | .hour _ => inferInstanceAs (Decidable (_ ∧ _))
  | .dayHour _ => inferInstanceAs (Decidable (_ < _))

end Call

/-- The clock stands in the day that begins at `m_dwDayTimeStart`. -/
def InDay (h : FxTimerHandler) : Prop :=
  h.dwDayTimeStart.toNat ≤ h.qwSecond ∧ h.qwSecond < h.dwDayTimeStart.toNat + 86400

instance (h : FxTimerHandler) : Decidable h.InDay := inferInstanceAs (Decidable (_ ∧ _))

/-- Two days before the end of the `unsigned int`s. -/
def limit : Rat := 4294967296 - 2 * 86400

variable {h h' : FxTimerHandler}

theorem toNat_ofInt {x : Int} (hx : 0 ≤ x) (hlt : x < 4294967296) :
    ((UInt32.ofInt x).toNat : Int) = x := by
  rw [UInt32.ofInt, UInt32.toNat_ofNat']
  omega

/-! ### The time of a call -/

theorem InDay.floor (hday : h.InDay) :
    h.dwDayTimeStart.toNat ≤ ⌊h.qwSecond⌋ ∧ ⌊h.qwSecond⌋ < h.dwDayTimeStart.toNat + 86400 := by
  refine ⟨Int.le_floor.mpr ?_, Int.floor_lt.mpr ?_⟩
  · rw [Int.cast_natCast]
    exact hday.1
  · push_cast
    exact hday.2

theorem floor_limit (hlimit : h.qwSecond < limit) : ⌊h.qwSecond⌋ < 4294794496 := by
  refine Int.floor_lt.mpr (hlimit.trans_eq ?_)
  norm_num [limit]

theorem toNat_getSecond (hday : h.InDay) (hlimit : h.qwSecond < limit) :
    (h.getSecond.toNat : Int) = ⌊h.qwSecond⌋ := by
  have hfloor := hday.floor
  have hlt := floor_limit hlimit
  exact toNat_ofInt (by omega) (by omega)

theorem addSecondTimer_eq {dwSecond : UInt32} {now : Int} (hnow : (h.getSecond.toNat : Int) = now)
    (hfits : Period.next 0 dwSecond.toNat now < 4294967296) :
    ((h.addSecondTimer dwSecond).toNat : Int) = Period.next 0 dwSecond.toNat now := by
  have hmod := Nat.mod_le h.getSecond.toNat dwSecond.toNat
  have hle : h.getSecond % dwSecond ≤ h.getSecond := by
    rwa [UInt32.le_iff_toNat_le, UInt32.toNat_mod]
  rw [← Period.next_eq_emod] at hfits ⊢
  rw [addSecondTimer, UInt32.toNat_add, UInt32.toNat_sub_of_le _ _ hle, UInt32.toNat_mod]
  subst hnow
  rw [sub_zero] at hfits ⊢
  omega

/-- In minutes it is the same with sixty times the number. -/
theorem addMinuteTimer_eq {dwMinute : UInt32} {now : Int}
    (hnow : (h.getSecond.toNat : Int) = now) (hpos : 0 < dwMinute.toNat)
    (hfits : Period.next 0 (60 * dwMinute.toNat) now < 4294967296) :
    ((h.addMinuteTimer dwMinute).toNat : Int) = Period.next 0 (60 * dwMinute.toNat) now := by
  have hle : 0 + 60 * (dwMinute.toNat : Int) ≤ Period.next 0 (60 * dwMinute.toNat) now :=
    Period.period_le_next (by omega) (by omega)
  have hmul : ((dwMinute * 60).toNat : Int) = 60 * dwMinute.toNat := by
    rw [UInt32.toNat_mul, show (60 : UInt32).toNat = 60 from rfl]
    omega
  have hsame : h.addMinuteTimer dwMinute = h.addSecondTimer (dwMinute * 60) := rfl
  rw [← hmul] at hfits ⊢
  rw [hsame]
  exact addSecondTimer_eq hnow hfits

theorem addHourTimer_eq {dwHour : UInt32} {now : Int} (hnow : (h.getSecond.toNat : Int) = now)
    (hday : h.dwDayTimeStart ≤ h.getSecond)
    (hfits : Period.next h.dwDayTimeStart.toNat (3600 * dwHour.toNat) now < 4294967296) :
    ((h.addHourTimer dwHour).toNat : Int) =
      Period.next h.dwDayTimeStart.toNat (3600 * dwHour.toNat) now := by
  have hquot : ((h.getSecond - h.dwDayTimeStart) / 3600).toNat =
      (h.getSecond.toNat - h.dwDayTimeStart.toNat) / 3600 := by
    rw [UInt32.toNat_div, UInt32.toNat_sub_of_le _ _ hday]
    rfl
  have hle : h.dwDayTimeStart.toNat ≤ h.getSecond.toNat := UInt32.le_iff_toNat_le.mp hday
  -- the hours since the day start, and what is left of them
  generalize hq : (h.getSecond - h.dwDayTimeStart) / 3600 = dwH1 at hquot
  have hunit : (now - h.dwDayTimeStart.toNat) / 3600 = (dwH1.toNat : Int) := by
    rw [hquot]
    omega
  have hmod := Nat.mod_le dwH1.toNat dwHour.toNat
  have hrest : dwH1 % dwHour ≤ dwH1 := by
    rwa [UInt32.le_iff_toNat_le, UInt32.toNat_mod]
  rw [← Period.next_eq_unit (by decide), hunit] at hfits ⊢
  rw [addHourTimer, hq, UInt32.toNat_add, UInt32.toNat_mul, UInt32.toNat_add,
    UInt32.toNat_sub_of_le _ _ hrest, UInt32.toNat_mod, show (3600 : UInt32).toNat = 3600 from rfl]
  omega

theorem addDayHourTimer_eq {dwHour : UInt32} (hday : h.InDay) (hlimit : h.qwSecond < limit)
    (hhour : dwHour.toNat < 24) :
    ((h.addDayHourTimer dwHour).toNat : Int) =
      Period.next (h.dwDayTimeStart.toNat + 3600 * dwHour.toNat) 86400 ⌊h.qwSecond⌋ := by
  have hfloor := hday.floor
  have hlt := floor_limit hlimit
  have hnow := toNat_getSecond hday hlimit
  have htime : (h.dwDayTimeStart + dwHour * 3600).toNat =
      h.dwDayTimeStart.toNat + 3600 * dwHour.toNat := by
    rw [UInt32.toNat_add, UInt32.toNat_mul, show (3600 : UInt32).toNat = 3600 from rfl]
    omega
  rw [addDayHourTimer]
  simp only [UInt32.le_iff_toNat_le, htime]
  symm
  split_ifs with hpast
  · have hnext : (h.dwDayTimeStart + dwHour * 3600 + 86400).toNat =
        h.dwDayTimeStart.toNat + 3600 * dwHour.toNat + 86400 := by
      rw [UInt32.toNat_add, htime, show (86400 : UInt32).toNat = 86400 from rfl]
      omega
    rw [hnext]
    exact Period.next_eq (by omega) (by omega) ⟨1, by omega⟩
  · rw [htime]
    exact Period.next_eq (by omega) (by omega) ⟨0, by omega⟩

theorem timeOf_eq_next (hday : h.InDay) (hlimit : h.qwSecond < limit) {call : Call}
    (hcall : call.Admissible h) : ((h.timeOf call).toNat : Int) = call.next h := by
  have hnow := toNat_getSecond hday hlimit
  have hfloor := hday.floor
  cases call with
  | second dwSecond => exact addSecondTimer_eq hnow hcall.2
  | minute dwMinute =>
    have hpos : 0 < 60 * (dwMinute.toNat : Int) := hcall.1
    exact addMinuteTimer_eq hnow (by omega) hcall.2
  | hour dwHour =>
    refine addHourTimer_eq hnow ?_ hcall.2
    rw [UInt32.le_iff_toNat_le]
    omega
  | dayHour dwHour => exact addDayHourTimer_eq hday hlimit hcall

theorem Call.Admissible.period_pos {call : Call} (hcall : call.Admissible h) : 0 < call.period := by
  cases call with
  | second | minute | hour => exact hcall.1
  | dayHour => exact show (0 : Int) < 86400 by decide

/-- Every call gives the first instant of its period behind the current second. -/
theorem timeOf_isLeast (hday : h.InDay) (hlimit : h.qwSecond < limit) {call : Call}
    (hcall : call.Admissible h) :
    IsLeast (Period.Behind (call.origin h) call.period ⌊h.qwSecond⌋) (h.timeOf call).toNat := by
  rw [timeOf_eq_next hday hlimit hcall]
  exact Period.isLeast_next hcall.period_pos

/-! ### The clock -/

/-- The clock does not go back, moves on by less than a day and stays below the limit. -/
def Steady (h : FxTimerHandler) : Op → Prop
  | .refresh time _ => h.qwSecond ≤ time ∧ time < h.qwSecond + 86400 ∧ time < limit
  | .addTimer _ _ | .add _ _ | .destroy _ | .next => True

instance (h : FxTimerHandler) : (op : Op) → Decidable (h.Steady op)
  | .refresh _ _ => inferInstanceAs (Decidable (_ ∧ _))
  | .addTimer _ _ | .add _ _ | .destroy _ | .next => inferInstanceAs (Decidable True)

/-- What every refresh keeps, and what is known of the one in progress. -/
structure Kept (h : FxTimerHandler) : Prop where
  day : h.InDay
  below : h.qwSecond < limit
  proc : ∀ p ∈ h.queue.proc, p.queue = 0 ∧ p.now = h.qwSecond ∧ h.qwSecond ≤ h.s_qwSecond ∧
    h.s_qwSecond < h.qwSecond + 86400 ∧ h.s_qwSecond < limit

theorem InDay.endRefresh (hday : h.InDay) (hlimit : h.qwSecond < limit)
    (hforth : h.qwSecond ≤ h.s_qwSecond) (hgap : h.s_qwSecond < h.qwSecond + 86400)
    (hbelow : h.s_qwSecond < limit) : h.endRefresh.InDay := by
  obtain ⟨hstart, hend⟩ := hday
  have hfloor := InDay.floor ⟨hstart, hend⟩
  have hmono : ⌊h.qwSecond⌋ ≤ ⌊h.s_qwSecond⌋ := Int.floor_mono hforth
  have hlt := floor_limit (h := { h with qwSecond := h.s_qwSecond }) hbelow
  simp only at hlt
  simp only [FxTimerHandler.endRefresh]
  split_ifs with hsame hnext
  · -- within one second, which ends before the day does
    have hsecond : ⌊h.s_qwSecond⌋ = ⌊h.qwSecond⌋ := by
      rw [← toNat_ofInt (x := ⌊h.s_qwSecond⌋) (by omega) (by omega), hsame]
      exact toNat_getSecond ⟨hstart, hend⟩ hlimit
    refine ⟨hstart.trans hforth, ?_⟩
    have hbefore : ⌊h.s_qwSecond⌋ < ((h.dwDayTimeStart.toNat + 86400 : Nat) : Int) := by omega
    simpa using Int.floor_lt.mp hbefore
  · have hday : ((h.dwDayTimeStart + 86400).toNat : Rat) = h.dwDayTimeStart.toNat + 86400 := by
      rw [UInt32.toNat_add, show (86400 : UInt32).toNat = 86400 from rfl, Nat.mod_eq_of_lt]
      · exact Nat.cast_add _ _
      · omega
    have hafter : ((h.dwDayTimeStart.toNat + 86400 : Nat) : Int) ≤ ⌊h.s_qwSecond⌋ := by omega
    refine ⟨?_, ?_⟩
    · rw [hday]
      simpa using Int.le_floor.mp hafter
    · rw [hday]
      linarith
  · refine ⟨hstart.trans hforth, ?_⟩
    have hbefore : ⌊h.s_qwSecond⌋ < ((h.dwDayTimeStart.toNat + 86400 : Nat) : Int) := by omega
    simpa using Int.floor_lt.mp hbefore

theorem endRefresh_same (h : FxTimerHandler) :
    h.endRefresh.queue = h.queue ∧ h.endRefresh.qwSecond = h.s_qwSecond := by
  simp only [endRefresh]
  split_ifs <;> exact ⟨rfl, rfl⟩

/-- An iteration of `Proc` leaves the call in progress as it is, or ends it. -/
theorem proc_iterate {K : Type} [LinearOrder K] (s : Timers K) (p : ProcCall K) :
    ∀ p' ∈ (s.iterate p).proc, p'.queue = p.queue ∧ p'.now = p.now := by
  intro p' hp'
  rcases s.iterate_cases p with ⟨he, -⟩ | ⟨he, -⟩ | ⟨entry, rest, pCB, he, -⟩ <;> rw [he] at hp'
  · cases hp'
  · cases hp'
    exact ⟨rfl, rfl⟩
  · cases hp'
    exact ⟨rfl, rfl⟩

theorem Kept.step (hkept : h.Kept) {op : Op} (hop : h.Steady op) (hstep : h.step op = some h') :
    h'.Kept := by
  -- a push and a destructor change neither the clock nor which call of `Proc` is in progress
  have hpush : ∀ c pEvent, h.pushEvent c pEvent = some h' → h'.Kept := by
    intro c pEvent hpush
    obtain ⟨queue, hqueue, rfl⟩ := Option.map_eq_some_iff.mp hpush
    simp only [Timers.step] at hqueue
    split_ifs at hqueue
    cases hqueue
    refine ⟨hkept.day, hkept.below, fun p' hp' => ?_⟩
    obtain ⟨p, hp, rfl⟩ := Option.map_eq_some_iff.mp hp'
    exact hkept.proc p hp
  cases op with
  | addTimer dSecond pEvent => exact hpush _ _ hstep
  | add call pEvent => exact hpush _ _ hstep
  | destroy event =>
    obtain ⟨queue, hqueue, rfl⟩ := Option.map_eq_some_iff.mp hstep
    simp only [Timers.step] at hqueue
    split_ifs at hqueue
    cases hqueue
    exact ⟨hkept.day, hkept.below, hkept.proc⟩
  | refresh time other =>
    obtain ⟨hforth, hgap, hbelow⟩ := hop
    obtain ⟨queue, hqueue, rfl⟩ := Option.map_eq_some_iff.mp hstep
    simp only [Timers.step] at hqueue
    split_ifs at hqueue
    cases hqueue
    refine ⟨hkept.day, hkept.below, ?_⟩
    rintro p ⟨⟩
    exact ⟨rfl, rfl, hforth, hgap, hbelow⟩
  | next =>
    obtain ⟨queue, hqueue, rfl⟩ := Option.map_eq_some_iff.mp hstep
    obtain ⟨p, hp, rfl⟩ := Option.map_eq_some_iff.mp hqueue
    obtain ⟨hzero, hnow, hforth, hgap, hbelow⟩ := hkept.proc p hp
    simp only
    split_ifs with hend
    · obtain ⟨hqueue, hclock⟩ := endRefresh_same { h with queue := h.queue.iterate p }
      refine ⟨InDay.endRefresh hkept.day hkept.below hforth hgap hbelow, ?_, ?_⟩
      · rw [hclock]
        exact hbelow
      · rw [hqueue, Option.isNone_iff_eq_none.mp hend]
        rintro p' ⟨⟩
    · refine ⟨hkept.day, hkept.below, fun p' hp' => ?_⟩
      obtain ⟨hqueue, hnow'⟩ := proc_iterate h.queue p p' hp'
      exact ⟨hqueue.trans hzero, hnow'.trans hnow, hforth, hgap, hbelow⟩

/-! ### An event that arms itself again -/

/-- Nothing but `call` adds the event, and only while it is not in the queue: once, and then again
whenever it has fired. -/
def Rearms (call : Call) (event : Nat) (h : FxTimerHandler) : Op → Prop
  | .add call' pEvent => pEvent = event →
      call' = call ∧ call.Admissible h ∧ ∀ entry ∈ h.queue.events 0, entry.second ≠ some event
  | .addTimer _ pEvent => pEvent ≠ event
  | .destroy _ | .refresh _ _ | .next => True

instance (call : Call) (event : Nat) (h : FxTimerHandler) :
    (op : Op) → Decidable (Rearms call event h op)
  | .add _ _ => inferInstanceAs (Decidable (_ → _))
  | .addTimer _ _ => inferInstanceAs (Decidable (_ ≠ _))
  | .destroy _ | .refresh _ _ | .next => inferInstanceAs (Decidable True)

/-- The instants that the event is added for. -/
def scheduled (event : Nat) (h : FxTimerHandler) : Op → List Nat
  | .add call pEvent => if pEvent = event then [(h.timeOf call).toNat] else []
  | .addTimer _ _ | .destroy _ | .refresh _ _ | .next => []

/-- The instants so far grow, and each is over or still in the queue. -/
structure Armed (event : Nat) (h : FxTimerHandler) (instants : List Nat) : Prop where
  kept : h.Kept
  owned : h.queue.Owned
  sorted : instants.Pairwise (· < ·)
  waits : h.queue.alive event = true → ∀ instant ∈ instants, (instant : Rat) ≤ h.qwSecond ∨
    ∃ entry ∈ h.queue.events 0, entry.second = some event ∧ entry.first = instant

variable {event : Nat} {instants : List Nat}

theorem owned_step (howned : h.queue.Owned) {op : Op} (hstep : h.step op = some h') :
    h'.queue.Owned := by
  cases op with
  | addTimer | add | destroy | refresh =>
    obtain ⟨queue, hqueue, rfl⟩ := Option.map_eq_some_iff.mp hstep
    exact howned.step hqueue
  | next =>
    obtain ⟨queue, hqueue, rfl⟩ := Option.map_eq_some_iff.mp hstep
    simp only
    split_ifs
    · rw [(endRefresh_same _).1]
      exact howned.step hqueue
    · exact howned.step hqueue

/-- A push of another event. -/
theorem Armed.pushEvent (harmed : h.Armed event instants) {c : Rat} {pEvent : Nat}
    (hkept : h'.Kept) (howned : h'.queue.Owned) (hstep : h.pushEvent c pEvent = some h') :
    h'.Armed event instants := by
  refine ⟨hkept, howned, harmed.sorted, ?_⟩
  obtain ⟨queue, hqueue, rfl⟩ := Option.map_eq_some_iff.mp hstep
  simp only [Timers.step] at hqueue
  split_ifs at hqueue
  cases hqueue
  intro halive instant hinstant
  refine (harmed.waits halive instant hinstant).imp_right ?_
  rintro ⟨entry, hentry, hwaits⟩
  exact ⟨entry, (Timers.mem_pushEvent h.queue 0 c pEvent 0 entry).mpr (Or.inr hentry), hwaits⟩

/-- The event itself: what it was added for before is over. -/
theorem Armed.add (harmed : h.Armed event instants) {call : Call} (hkept : h'.Kept)
    (howned : h'.queue.Owned) (hcall : call.Admissible h)
    (hidle : ∀ entry ∈ h.queue.events 0, entry.second ≠ some event)
    (hstep : h.pushEvent (h.timeOf call).toNat event = some h') :
    h'.Armed event (instants ++ [(h.timeOf call).toNat]) := by
  obtain ⟨hlt, -⟩ := (timeOf_isLeast harmed.kept.day harmed.kept.below hcall).1
  obtain ⟨queue, hqueue, rfl⟩ := Option.map_eq_some_iff.mp hstep
  simp only [Timers.step] at hqueue
  split_ifs at hqueue with halive
  cases hqueue
  have hover : ∀ instant ∈ instants, (instant : Rat) ≤ h.qwSecond := by
    intro instant hinstant
    rcases harmed.waits halive instant hinstant with hle | ⟨entry, hentry, hsecond, -⟩
    · exact hle
    · exact absurd hsecond (hidle entry hentry)
  refine ⟨hkept, howned, ?_, fun _ instant hinstant => ?_⟩
  · refine List.pairwise_append.mpr ⟨harmed.sorted, List.pairwise_singleton _ _, ?_⟩
    intro instant hinstant last hlast
    have hle : (instant : Int) ≤ ⌊h.qwSecond⌋ :=
      Int.le_floor.mpr (by exact_mod_cast hover instant hinstant)
    rw [List.mem_singleton.mp hlast]
    omega
  · rcases List.mem_append.mp hinstant with hold | hnew
    · exact Or.inl (hover instant hold)
    · rw [List.mem_singleton.mp hnew]
      exact Or.inr ⟨_, (Timers.mem_pushEvent h.queue 0 _ event 0 _).mpr (Or.inl ⟨rfl, rfl⟩),
        rfl, rfl⟩

/-- An entry leaves the queue when its instant is over. -/
theorem Armed.iterate (harmed : h.Armed event instants) {p : ProcCall Rat}
    (hp : h.queue.proc = some p) (halive : (h.queue.iterate p).alive event = true) :
    ∀ instant ∈ instants, (instant : Rat) ≤ h.qwSecond ∨ ∃ entry ∈ (h.queue.iterate p).events 0,
      entry.second = some event ∧ entry.first = instant := by
  obtain ⟨hzero, hnow, -⟩ := harmed.kept.proc p hp
  intro instant hinstant
  rcases h.queue.iterate_cases p with
    ⟨he, -⟩ | ⟨he, -⟩ | ⟨first, rest, pCB, he, -, hevents, hdue, -⟩ <;> rw [he] at halive ⊢
  · exact harmed.waits halive instant hinstant
  · exact harmed.waits halive instant hinstant
  · rcases harmed.waits halive instant hinstant with hover | ⟨entry, hentry, hsecond, hfirst⟩
    · exact Or.inl hover
    · rw [← hzero, hevents] at hentry
      rcases List.mem_cons.mp hentry with rfl | hrest
      · rw [hfirst, hnow] at hdue
        exact Or.inl hdue
      · refine Or.inr ⟨entry, ?_, hsecond, hfirst⟩
        simpa [Timers.fire, hzero] using hrest

theorem Armed.step (harmed : h.Armed event instants) {call : Call} {op : Op}
    (hop : h.Steady op ∧ Rearms call event h op) (hstep : h.step op = some h') :
    h'.Armed event (instants ++ scheduled event h op) := by
  have hkept := harmed.kept.step hop.1 hstep
  have howned := owned_step harmed.owned hstep
  cases op with
  | addTimer dSecond pEvent =>
    rw [scheduled, List.append_nil]
    exact harmed.pushEvent hkept howned hstep
  | add call' pEvent =>
    rw [scheduled]
    split_ifs with he
    · obtain ⟨rfl, hcall, hidle⟩ := hop.2 he
      subst he
      exact harmed.add hkept howned hcall hidle hstep
    · rw [List.append_nil]
      exact harmed.pushEvent hkept howned hstep
  | destroy event' =>
    rw [scheduled, List.append_nil]
    obtain ⟨queue, hqueue, rfl⟩ := Option.map_eq_some_iff.mp hstep
    refine ⟨hkept, howned, harmed.sorted, ?_⟩
    simp only [Timers.step] at hqueue
    split_ifs at hqueue
    cases hqueue
    intro halive instant hinstant
    by_cases he : event = event'
    · subst he
      simp [Timers.destroy] at halive
    · have hlive : h.queue.alive event = true := by
        simpa [Timers.destroy, Function.update_of_ne he] using halive
      refine (harmed.waits hlive instant hinstant).imp_right ?_
      rintro ⟨entry, hentry, hsecond, hfirst⟩
      have hclear := harmed.owned.clear_of_ne hentry hsecond he
      exact ⟨entry, List.mem_map.mpr ⟨entry, hentry, hclear⟩, hsecond, hfirst⟩
  | refresh time other =>
    rw [scheduled, List.append_nil]
    obtain ⟨queue, hqueue, rfl⟩ := Option.map_eq_some_iff.mp hstep
    refine ⟨hkept, howned, harmed.sorted, ?_⟩
    simp only [Timers.step] at hqueue
    split_ifs at hqueue
    cases hqueue
    exact harmed.waits
  | next =>
    rw [scheduled, List.append_nil]
    obtain ⟨queue, hqueue, rfl⟩ := Option.map_eq_some_iff.mp hstep
    obtain ⟨p, hp, rfl⟩ := Option.map_eq_some_iff.mp hqueue
    obtain ⟨-, -, hforth, -⟩ := harmed.kept.proc p hp
    simp only at hkept howned ⊢
    split_ifs at hkept howned ⊢ with hend
    · obtain ⟨hqueue, hclock⟩ := endRefresh_same { h with queue := h.queue.iterate p }
      refine ⟨hkept, howned, harmed.sorted, ?_⟩
      rw [hqueue, hclock]
      exact fun halive instant hinstant =>
        (harmed.iterate hp halive instant hinstant).imp_left fun hover => hover.trans hforth
    · exact ⟨hkept, howned, harmed.sorted, fun halive => harmed.iterate hp halive⟩

/-! ### Runs -/

/-- Behind any run that ends with a refresh in the day of `m_dwDayTimeStart`, as long as the clock
moves on by less than a day at a time: the clock stays in the day, every call adds its event for the
first instant of the period behind the current second, and an event that arms itself again is added
once at most for each instant. -/
theorem periodic_timers_aligned {time : Rat} {now diff : Int} {before ops : List Op}
    (hbefore : Transition.run step (new time now diff) before = some h)
    (hproc : h.queue.proc = none) (hday : h.InDay) (hlimit : h.qwSecond < limit)
    (hops : Transition.Always step Steady h ops) (hrun : Transition.run step h ops = some h') :
    h'.InDay ∧
    (∀ call pEvent, call.Admissible h' → h'.queue.alive pEvent = true → ∃ instant : Nat,
      IsLeast (Period.Behind (call.origin h') call.period ⌊h'.qwSecond⌋) instant ∧
        h'.step (.add call pEvent) =
          some { h' with queue := h'.queue.pushEvent 0 instant pEvent }) ∧
    ∀ call event, Transition.Always step (Rearms call event) h ops →
      ∀ instant, (Transition.outputs step (scheduled event) h ops).count instant ≤ 1 := by
  have hkept : h.Kept := ⟨hday, hlimit, by rw [hproc]; rintro p ⟨⟩⟩
  have hafter : h'.Kept :=
    Transition.invariant_of_always (fun _ _ _ hk hop hstep => hk.step hop hstep) hkept hops hrun
  have howned : h.queue.Owned :=
    Transition.invariant (fun _ _ _ ho hstep => owned_step ho hstep) Timers.owned_start hbefore
  refine ⟨hafter.day, fun call pEvent hcall halive => ?_, fun call event hrearms instant => ?_⟩
  · refine ⟨_, timeOf_isLeast hafter.day hafter.below hcall, ?_⟩
    simp [FxTimerHandler.step, pushEvent, Timers.step, halive]
  · have hstart : h.Armed event [] := ⟨hkept, howned, List.Pairwise.nil, by simp⟩
    have harmed := Transition.invariant_outputs (fun _ _ _ _ ha hop hstep => ha.step hop hstep)
      hstart (hops.and hrearms) hrun
    rw [List.nil_append] at harmed
    exact List.nodup_iff_count_le_one.mp (harmed.sorted.imp ne_of_lt) instant

/-- An event of every ten seconds, and another one at two o'clock; the day ends in between. -/
def dayOps : List Op :=
  [.add (.second 10) 0, .add (.dayHour 2) 1, .refresh (90020 + 1 / 2) 0, .next,
    .refresh (90020 + 3 / 5) 0, .next, .add (.second 10) 0, .next,
    .refresh 176020 0, .next, .refresh (176020 + 1 / 4) 0, .next, .add (.second 10) 0, .next]

theorem periodic_timers_aligned_day :
    ∃ h', Transition.run step (new 90010 90010 0) dayOps = some h' ∧
      h'.dwDayTimeStart = 172800 ∧ h'.InDay ∧
      Transition.outputs step (scheduled 0) (new 90010 90010 0) dayOps = [90020, 90030, 176030] ∧
      ∀ instant, (Transition.outputs step (scheduled 0) (new 90010 90010 0) dayOps).count
        instant ≤ 1 := by
  have hfacts : (Transition.run step (new 90010 90010 0) dayOps).any (fun h' =>
      h'.dwDayTimeStart = 172800) = true := by decide +kernel
  obtain ⟨h', hrun, hday⟩ := (Option.any_eq_true _ _).mp hfacts
  have hnew : Transition.run step (new 90010 90010 0) [] = some (new 90010 90010 0) := rfl
  obtain ⟨hinday, -, honce⟩ := periodic_timers_aligned hnew rfl (by decide +kernel)
    (by decide +kernel) (by decide +kernel) hrun
  exact ⟨h', hrun, of_decide_eq_true hday, hinday, by decide +kernel,
    honce (.second 10) 0 (by decide +kernel)⟩

end FxTimerHandler
