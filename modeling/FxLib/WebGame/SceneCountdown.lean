import FxLib.WebGame.ScenePhases

/-!
# The countdown of a game

Two timers that `Run` polls tell the players how many seconds are left. On a clock that skips no
second the preparation keeps to a timetable: every fifth second, and at last each one. The timer of
the countdown is set by the first call behind the preparation. If that call comes a second late the
timer stays behind, until a second in which `Run` is called twice, and one number is told again.
-/

open MachineInt

namespace WebGame

namespace SceneRun

/-! ### The timetable -/

/-- The players are told how many of the `prepare` seconds are left, for the first time when five of
them are over. -/
def Due (prepare elapsed : Nat) : Prop :=
  5 ≤ elapsed ∧ (5 ∣ elapsed ∨ prepare ≤ elapsed - elapsed % 5 + 5)

instance (prepare elapsed : Nat) : Decidable (Due prepare elapsed) :=
  inferInstanceAs (Decidable (_ ∧ _))

/-- What they have been told by then. -/
def prepareTimes (prepare elapsed : Nat) : List Nat :=
  ((List.range (elapsed + 1)).filter (Due prepare ·)).map (prepare - ·)

/-- They count down: no number but the highest is left out, and one at most comes twice. -/
structure ReadyTimes (ready elapsed : Nat) (lefts : List Nat) : Prop where
  sorted : lefts.Pairwise (· ≥ ·)
  bounds : ∀ left ∈ lefts, left < ready ∧ ready ≤ left + elapsed
  all : ∀ left, left + 2 ≤ ready → ready ≤ left + elapsed → left ∈ lefts
  length_le : lefts.length ≤ elapsed

/-- Where the timer of the preparation is set after the second `elapsed`. -/
def next (prepare elapsed : Nat) : Nat := if prepare ≤ elapsed + 5 then elapsed + 1 else elapsed + 5

/-- The first second after `elapsed` that is due. -/
def IsNext (prepare elapsed n : Nat) : Prop := IsLeast {d | Due prepare d ∧ elapsed < d} n

variable {prepare ready elapsed n : Nat} {lefts lefts' : List Nat}

theorem isNext_five (prepare : Nat) : IsNext prepare 0 5 := by
  refine ⟨⟨⟨le_rfl, .inl ⟨1, rfl⟩⟩, by omega⟩, ?_⟩
  rintro d ⟨hdue, -⟩
  exact hdue.1

theorem isNext_next (hdue : Due prepare elapsed) :
    IsNext prepare elapsed (next prepare elapsed) := by
  obtain ⟨hfive, hwhen⟩ := hdue
  rw [next]
  split_ifs with hlast
  · refine ⟨⟨⟨by omega, ?_⟩, by omega⟩, fun d hd => hd.2⟩
    by_cases hdvd : 5 ∣ elapsed + 1
    · exact .inl hdvd
    · exact .inr (by omega)
  · have hdvd : 5 ∣ elapsed := by
      rcases hwhen with hdvd | hle
      · exact hdvd
      · omega
    refine ⟨⟨⟨by omega, .inl (by omega)⟩, by omega⟩, ?_⟩
    rintro d ⟨⟨-, hd⟩, hlt⟩
    by_contra hnot
    omega

theorem prepareTimes_succ (prepare elapsed : Nat) : prepareTimes prepare (elapsed + 1) =
    prepareTimes prepare elapsed ++
      if Due prepare (elapsed + 1) then [prepare - (elapsed + 1)] else [] := by
  rw [prepareTimes, List.range_succ, List.filter_append, List.map_append, prepareTimes]
  split_ifs with hdue
  · simp [hdue]
  · simp [hdue]

/-- A second later the timer has run off if and only if that second is due. -/
theorem IsNext.due_iff (h : IsNext prepare elapsed n) :
    n ≤ elapsed + 1 ↔ Due prepare (elapsed + 1) := by
  obtain ⟨⟨hdue, hlt⟩, hleast⟩ := h
  constructor
  · intro hle
    obtain rfl : n = elapsed + 1 := by omega
    exact hdue
  · intro hdue'
    exact hleast ⟨hdue', Nat.lt_succ_self elapsed⟩

theorem IsNext.eq_of_le (h : IsNext prepare elapsed n) (hle : n ≤ elapsed + 1) :
    n = elapsed + 1 := by
  have hlt := h.1.2
  omega

theorem IsNext.skip (h : IsNext prepare elapsed n) (hlt : elapsed + 1 < n) :
    IsNext prepare (elapsed + 1) n := by
  refine ⟨⟨h.1.1, hlt⟩, fun d hd => h.2 ⟨hd.1, ?_⟩⟩
  have := hd.2
  omega

theorem readyTimes_nil (ready : Nat) : ReadyTimes ready 1 [] := by
  refine ⟨.nil, fun _ hleft => absurd hleft List.not_mem_nil, ?_, by simp⟩
  intro left hle hge
  omega

theorem ReadyTimes.push (h : ReadyTimes ready elapsed lefts) {elapsed' : Nat}
    (hle : elapsed ≤ elapsed') (hle' : elapsed' ≤ elapsed + 1) (hpos : 0 < elapsed')
    (hready : elapsed' ≤ ready) (hlength : lefts.length < elapsed') :
    ReadyTimes ready elapsed' (lefts ++ [ready - elapsed']) := by
  refine ⟨List.pairwise_append.mpr ⟨h.sorted, List.pairwise_singleton _ _, ?_⟩, ?_, ?_, ?_⟩
  · intro left hleft left' hleft'
    have hbound := (h.bounds left hleft).2
    rw [List.mem_singleton.mp hleft']
    omega
  · intro left hleft
    rcases List.mem_append.mp hleft with hold | hnew
    · have hbound := h.bounds left hold
      omega
    · rw [List.mem_singleton.mp hnew]
      omega
  · intro left htwo hge
    rw [List.mem_append, List.mem_singleton]
    by_cases hold : ready ≤ left + elapsed
    · exact .inl (h.all left htwo hold)
    · exact .inr (by omega)
  · rw [List.length_append, List.length_singleton]
    exact hlength

/-! ### The timers -/

variable {s s' : SceneRun} {start dwSecond : Nat}

structure Configured (start prepare ready : Nat) (s : SceneRun) : Prop where
  startTime : s.dwGameStartTime = start
  prepareTime : s.dwPrepareTime = prepare
  readyTime : s.dwGameReadyTime = ready

theorem Configured.setTimers (h : Configured start prepare ready s) (dwSecond : Nat)
    (prepareNotify readyNotify : Option Nat) :
    Configured start prepare ready (s.setTimers dwSecond prepareNotify readyNotify) :=
  ⟨h.startTime, h.prepareTime, h.readyTime⟩

theorem Configured.tells (h : Configured start prepare ready s) (eSceneState : EGameSceneState)
    {ns : List SceneNotify} (htells : Tells { s with eSceneState := eSceneState } s' ns) :
    Configured start prepare ready s' := by
  rw [htells.rest]
  exact ⟨h.startTime, h.prepareTime, h.readyTime⟩

/-- There is a countdown, and nothing wraps. -/
structure Small (start prepare ready : Nat) : Prop where
  pos : 0 < ready
  left : prepare + ready < 2147483647
  clock : start + prepare + ready + 7 < 4294967296

theorem preparing_eq (h : Configured start prepare ready s) (hsmall : Small start prepare ready)
    (hle : start ≤ dwSecond) (hsecond : dwSecond ≤ start + prepare + 1) (hfive : 5 ≤ n)
    (hnotify : s.prepareNotify.getD (start + 5) = start + n) :
    (s.setTimers dwSecond s.prepareNotify s.readyNotify).preparing =
      if start + prepare < dwSecond then
        (s.setTimers dwSecond (some (start + n)) s.readyNotify).changeState .gameReady
      else if start + n ≤ dwSecond then
        (s.setTimers dwSecond (some (start + next prepare n)) s.readyNotify).notifyPlayer
          (.prepareTime (start + prepare - dwSecond))
      else s.setTimers dwSecond (some (start + n)) s.readyNotify := by
  obtain ⟨rfl, rfl, rfl⟩ := h
  obtain ⟨-, hleft, hclock⟩ := hsmall
  have hfirst : toUInt32 ((s.dwGameStartTime : Int) + 5) = s.dwGameStartTime + 5 := by
    unfold toUInt32
    omega
  have hwrap : wrap32 ((s.dwGameStartTime : Int) + s.dwPrepareTime - dwSecond) =
      s.dwGameStartTime + s.dwPrepareTime - dwSecond := wrap32_of_fits ⟨by omega, by omega⟩
  simp only [preparing, SceneRun.setTimers, hfirst, hnotify, hwrap, notifyPlayer_prepareNotify]
  by_cases hover : s.dwGameStartTime + s.dwPrepareTime < dwSecond
  · rw [if_pos hover, if_pos (by omega)]
  rw [if_neg hover, if_neg (by omega)]
  by_cases hdue : s.dwGameStartTime + n ≤ dwSecond
  · have hlast : toUInt32 ((s.dwGameStartTime : Int) + s.dwPrepareTime - 5) =
        s.dwGameStartTime + s.dwPrepareTime - 5 := by
      unfold toUInt32
      omega
    have hone : toUInt32 (((s.dwGameStartTime + n : Nat) : Int) + 1) =
        s.dwGameStartTime + (n + 1) := by
      unfold toUInt32
      omega
    have hmore : toUInt32 (((s.dwGameStartTime + n : Nat) : Int) + 5) =
        s.dwGameStartTime + (n + 5) := by
      unfold toUInt32
      omega
    have htold : ((s.dwGameStartTime : Int) + s.dwPrepareTime - dwSecond).toNat =
        s.dwGameStartTime + s.dwPrepareTime - dwSecond := by omega
    rw [if_pos hdue, if_pos hdue]
    simp only [dwGameStartTime_notifyPlayer, dwPrepareTime_notifyPlayer, hlast, hone, hmore, htold,
      next]
    by_cases hlast' : s.dwPrepareTime ≤ n + 5
    · rw [if_pos (by omega), if_pos hlast']
    · rw [if_neg (by omega), if_neg hlast']
  · rw [if_neg hdue, if_neg hdue]

theorem gameReady_eq (h : Configured start prepare ready s) (hsmall : Small start prepare ready)
    (hle : start ≤ dwSecond) (hsecond : dwSecond ≤ start + prepare + ready + 1)
    (hnotify : s.readyNotify.getD (start + prepare + 1) = start + prepare + 1 + n)
    (hn : n ≤ ready + 1) :
    (s.setTimers dwSecond s.prepareNotify s.readyNotify).gameReady =
      if start + prepare + ready < dwSecond then
        (s.setTimers dwSecond s.prepareNotify
          (some (start + prepare + 1 + n))).changeState .gaming
      else if start + prepare + 1 + n ≤ dwSecond then
        (s.setTimers dwSecond s.prepareNotify (some (start + prepare + 1 + (n + 1)))).notifyPlayer
          (.gameReadyTime (start + prepare + ready - dwSecond))
      else s.setTimers dwSecond s.prepareNotify (some (start + prepare + 1 + n)) := by
  obtain ⟨rfl, rfl, rfl⟩ := h
  obtain ⟨-, hleft, hclock⟩ := hsmall
  have hfirst : toUInt32 ((s.dwGameStartTime : Int) + s.dwPrepareTime + 1) =
      s.dwGameStartTime + s.dwPrepareTime + 1 := by
    unfold toUInt32
    omega
  have hwrap : wrap32 ((s.dwGameStartTime : Int) + s.dwPrepareTime + s.dwGameReadyTime -
      dwSecond) = s.dwGameStartTime + s.dwPrepareTime + s.dwGameReadyTime - dwSecond :=
    wrap32_of_fits ⟨by omega, by omega⟩
  have hone : toUInt32 (((s.dwGameStartTime + s.dwPrepareTime + 1 + n : Nat) : Int) + 1) =
      s.dwGameStartTime + s.dwPrepareTime + 1 + (n + 1) := by
    unfold toUInt32
    omega
  have htold : ((s.dwGameStartTime : Int) + s.dwPrepareTime + s.dwGameReadyTime -
      dwSecond).toNat = s.dwGameStartTime + s.dwPrepareTime + s.dwGameReadyTime - dwSecond := by
    omega
  simp only [gameReady, SceneRun.setTimers, hfirst, hnotify, hwrap, hone, htold,
    notifyPlayer_readyNotify]
  by_cases hover : s.dwGameStartTime + s.dwPrepareTime + s.dwGameReadyTime < dwSecond
  · rw [if_pos hover, if_pos (by omega)]
  · rw [if_neg hover, if_neg (by omega)]

/-! ### Runs -/

/-- The clock does not go back and skips no second. -/
def Steady (s : SceneRun) : Label → Prop
  | .run dwSecond => s.dwSecond ≤ dwSecond ∧ dwSecond ≤ s.dwSecond + 1
  | .connect | .enter .. | .close _ => True

instance (s : SceneRun) : (l : Label) → Decidable (s.Steady l)
  | .run _ => inferInstanceAs (Decidable (_ ∧ _))
  | .connect => inferInstanceAs (Decidable True)
  | .enter .. => inferInstanceAs (Decidable True)
  | .close _ => inferInstanceAs (Decidable True)

/-- The timers beside what has been told. -/
inductive Timely (start prepare ready : Nat) (s : SceneRun) : List Nat → List Nat → Prop
  | prepare (elapsed n : Nat) (state : s.eSceneState = .prepare)
      (second : s.dwSecond = start + elapsed) (le : elapsed ≤ prepare)
      (notify : s.prepareNotify.getD (start + 5) = start + n) (isNext : IsNext prepare elapsed n)
      (fresh : s.readyNotify = none) :
      Timely start prepare ready s (prepareTimes prepare elapsed) []
  | gameReady (elapsed : Nat) (lefts' : List Nat) (state : s.eSceneState = .gameReady)
      (second : s.dwSecond = start + prepare + elapsed) (pos : 0 < elapsed) (le : elapsed ≤ ready)
      (notify : s.readyNotify.getD (start + prepare + 1) = start + prepare + 1 + lefts'.length)
      (lag : elapsed ≤ lefts'.length + 1) (times : ReadyTimes ready elapsed lefts') :
      Timely start prepare ready s (prepareTimes prepare prepare) lefts'
  | gaming (lefts' : List Nat) (state : s.eSceneState = .gaming)
      (second : start + prepare + ready < s.dwSecond) (times : ReadyTimes ready ready lefts') :
      Timely start prepare ready s (prepareTimes prepare prepare) lefts'

variable {qwRoles : List PlayerId}

/-- What every run keeps. -/
structure OnSchedule (qwRoles : List PlayerId) (start prepare ready : Nat) (s : SceneRun)
    (lefts lefts' : List Nat) : Prop where
  course : OnCourse qwRoles s lefts lefts'
  configured : Configured start prepare ready s
  timely : Timely start prepare ready s lefts lefts'

theorem onSchedule_preparing (hcourse : OnCourse qwRoles s (prepareTimes prepare elapsed) [])
    (hconfigured : Configured start prepare ready s) (hsmall : Small start prepare ready)
    (hstate : s.eSceneState = .prepare)
    (hsecond : dwSecond = start + elapsed ∨ dwSecond = start + (elapsed + 1))
    (hle : elapsed ≤ prepare) (hnotify : s.prepareNotify.getD (start + 5) = start + n)
    (hnext : IsNext prepare elapsed n) (hfresh : s.readyNotify = none) :
    ∃ lefts lefts', OnSchedule qwRoles start prepare ready
      (s.setTimers dwSecond s.prepareNotify s.readyNotify).preparing lefts lefts' := by
  have hlt := hnext.1.2
  have hset := fun prepareNotify => hconfigured.setTimers dwSecond prepareNotify s.readyNotify
  have hkeep : ∀ prepareNotify, OnCourse qwRoles
      (s.setTimers dwSecond prepareNotify s.readyNotify) (prepareTimes prepare elapsed) [] :=
    fun _ => hcourse.keep rfl rfl rfl
  rw [preparing_eq hconfigured hsmall (by omega) (by omega) hnext.1.1.1 hnotify]
  rcases hsecond with rfl | rfl
  · rw [if_neg (by omega), if_neg (by omega)]
    exact ⟨_, _, hkeep _, hset _, .prepare elapsed n hstate rfl hle rfl hnext hfresh⟩
  by_cases hover : start + prepare < start + (elapsed + 1)
  · obtain rfl : elapsed = prepare := by omega
    rw [if_pos hover]
    have htells := changeState_gameReady
      (s.setTimers (start + (elapsed + 1)) (some (start + n)) s.readyNotify)
    refine ⟨_, _, (hkeep _).gameReady hstate htells, (hset _).tells _ htells, ?_⟩
    rw [htells.rest]
    exact .gameReady 1 [] rfl (Nat.add_assoc ..).symm Nat.one_pos hsmall.pos
      (by simp [setTimers, hfresh]) le_rfl (readyTimes_nil ready)
  rw [if_neg hover]
  have htimes := prepareTimes_succ prepare elapsed
  by_cases hdue : n ≤ elapsed + 1
  · -- the timer has run off in the second that is due
    obtain rfl := hnext.eq_of_le hdue
    rw [if_pos (hnext.due_iff.mp le_rfl)] at htimes
    have hleft : start + prepare - (start + (elapsed + 1)) = prepare - (elapsed + 1) := by omega
    have htells := notifyPlayer_tells (s.setTimers (start + (elapsed + 1))
      (some (start + next prepare (elapsed + 1))) s.readyNotify)
      (.prepareTime (prepare - (elapsed + 1)))
    have htold := (hkeep (some (start + next prepare (elapsed + 1)))).prepareTime hstate htells
    rw [← htimes] at htold
    rw [if_pos le_rfl, hleft]
    refine ⟨_, _, htold, (hset _).tells s.eSceneState htells, ?_⟩
    rw [htells.rest]
    exact .prepare (elapsed + 1) (next prepare (elapsed + 1)) hstate rfl (by omega) rfl
      (isNext_next hnext.1.1) hfresh
  · rw [if_neg (fun hd => hdue (hnext.due_iff.mpr hd)), List.append_nil] at htimes
    have hsame := hkeep (some (start + n))
    rw [← htimes] at hsame
    rw [if_neg (by omega)]
    exact ⟨_, _, hsame, hset _, .prepare (elapsed + 1) n hstate rfl (by omega) rfl
      (hnext.skip (by omega)) hfresh⟩

theorem onSchedule_gameReady (hcourse : OnCourse qwRoles s (prepareTimes prepare prepare) lefts')
    (hconfigured : Configured start prepare ready s) (hsmall : Small start prepare ready)
    (hstate : s.eSceneState = .gameReady) {elapsed' : Nat}
    (hle : elapsed ≤ elapsed') (hle' : elapsed' ≤ elapsed + 1) (hpos : 0 < elapsed)
    (hmax : elapsed ≤ ready)
    (hnotify : s.readyNotify.getD (start + prepare + 1) = start + prepare + 1 + lefts'.length)
    (hlag : elapsed ≤ lefts'.length + 1) (htimes : ReadyTimes ready elapsed lefts') :
    ∃ lefts lefts', OnSchedule qwRoles start prepare ready
      (s.setTimers (start + prepare + elapsed') s.prepareNotify s.readyNotify).gameReady
      lefts lefts' := by
  have hlength := htimes.length_le
  have hset := hconfigured.setTimers (start + prepare + elapsed') s.prepareNotify
  have hkeep : ∀ readyNotify, OnCourse qwRoles
      (s.setTimers (start + prepare + elapsed') s.prepareNotify readyNotify)
      (prepareTimes prepare prepare) lefts' := fun _ => hcourse.keep rfl rfl rfl
  rw [gameReady_eq hconfigured hsmall (by omega) (by omega) hnotify (by omega)]
  by_cases hover : start + prepare + ready < start + prepare + elapsed'
  · have htells := changeState_gaming (s.setTimers (start + prepare + elapsed') s.prepareNotify
      (some (start + prepare + 1 + lefts'.length)))
    rw [if_pos hover]
    refine ⟨_, _, (hkeep _).gaming hstate htells, (hset _).tells _ htells, ?_⟩
    obtain rfl : elapsed = ready := by omega
    rw [htells.rest]
    exact .gaming lefts' rfl hover htimes
  rw [if_neg hover]
  by_cases hdue : lefts'.length < elapsed'
  · have hleft : start + prepare + ready - (start + prepare + elapsed') = ready - elapsed' := by
      omega
    have hmore : (lefts' ++ [ready - elapsed']).length = lefts'.length + 1 := List.length_append
    have htells := notifyPlayer_tells (s.setTimers (start + prepare + elapsed') s.prepareNotify
      (some (start + prepare + 1 + (lefts'.length + 1)))) (.gameReadyTime (ready - elapsed'))
    rw [if_pos (by omega), hleft]
    refine ⟨_, _, (hkeep _).gameReadyTime hstate htells,
      (hset _).tells s.eSceneState htells, ?_⟩
    rw [htells.rest]
    refine .gameReady elapsed' _ hstate rfl (by omega) (by omega) ?_ (by omega)
      (htimes.push hle hle' (by omega) (by omega) hdue)
    rw [hmore]
    rfl
  · obtain rfl : elapsed' = elapsed := by omega
    rw [if_neg (by omega)]
    exact ⟨_, _, hkeep _, hset _, .gameReady elapsed' lefts' hstate rfl hpos hmax rfl hlag htimes⟩

theorem OnSchedule.run (h : OnSchedule qwRoles start prepare ready s lefts lefts')
    (hsmall : Small start prepare ready) (hle : s.dwSecond ≤ dwSecond)
    (hle' : dwSecond ≤ s.dwSecond + 1) :
    ∃ lefts lefts', OnSchedule qwRoles start prepare ready (s.run dwSecond) lefts lefts' := by
  obtain ⟨hcourse, hconfigured, htimely⟩ := h
  cases htimely with
  | prepare elapsed n state second le notify isNext fresh =>
    have hrun : s.run dwSecond =
        (s.setTimers dwSecond s.prepareNotify s.readyNotify).preparing := by
      simp only [SceneRun.run, setTimers, state]
    rw [hrun]
    exact onSchedule_preparing hcourse hconfigured hsmall state (by omega) le notify isNext fresh
  | gameReady elapsed lefts' state second pos le notify lag times =>
    obtain ⟨elapsed', rfl⟩ : ∃ elapsed', dwSecond = start + prepare + elapsed' :=
      ⟨dwSecond - (start + prepare), by omega⟩
    have hrun : s.run (start + prepare + elapsed') =
        (s.setTimers (start + prepare + elapsed') s.prepareNotify s.readyNotify).gameReady := by
      simp only [SceneRun.run, setTimers, state]
    rw [hrun]
    exact onSchedule_gameReady hcourse hconfigured hsmall state (by omega) (by omega) pos le notify
      lag times
  | gaming lefts' state second times =>
    have hrun : s.run dwSecond = s.setTimers dwSecond s.prepareNotify s.readyNotify := by
      simp only [SceneRun.run, setTimers, state]
    rw [hrun]
    exact ⟨_, _, hcourse.keep rfl rfl rfl, hconfigured.setTimers _ _ _,
      .gaming lefts' state (lt_of_lt_of_le second hle) times⟩

/-- Players that enter and leave do not touch the timers. -/
theorem OnSchedule.step (h : OnSchedule qwRoles start prepare ready s lefts lefts')
    (hsmall : Small start prepare ready) {l : Label} (hsteady : s.Steady l)
    (hstep : s.step l = some s') :
    ∃ lefts lefts', OnSchedule qwRoles start prepare ready s' lefts lefts' := by
  have hkeep : (∀ dwSecond, l ≠ .run dwSecond) → s'.dwSecond = s.dwSecond →
      s'.prepareNotify = s.prepareNotify → s'.readyNotify = s.readyNotify →
      s'.eSceneState = s.eSceneState → Configured start prepare ready s' →
      OnSchedule qwRoles start prepare ready s' lefts lefts' := by
    intro hl hsecond hprepare hready hstate hconfigured
    refine ⟨h.course.ofSession hl hstep, hconfigured, ?_⟩
    have htimely := h.timely
    cases htimely with
    | prepare elapsed n state second le notify isNext fresh =>
      exact .prepare elapsed n (hstate.trans state) (hsecond.trans second) le
        (by rw [hprepare]; exact notify) isNext (hready.trans fresh)
    | gameReady elapsed lefts' state second pos le notify lag times =>
      exact .gameReady elapsed lefts' (hstate.trans state) (hsecond.trans second) pos le
        (by rw [hready]; exact notify) lag times
    | gaming lefts' state second times =>
      exact .gaming lefts' (hstate.trans state) (by rw [hsecond]; exact second) times
  cases l with
  | run dwSecond =>
    simp only [SceneRun.step] at hstep
    split_ifs at hstep
    cases hstep
    exact h.run hsmall hsteady.1 hsteady.2
  | connect | close session =>
    have hstep' := hstep
    obtain ⟨scene, -, rfl⟩ := Option.map_eq_some_iff.mp hstep'
    obtain ⟨hstart, hprepare, hready⟩ := h.configured
    exact ⟨_, _, hkeep (by simp) rfl rfl rfl rfl ⟨hstart, hprepare, hready⟩⟩
  | enter session p =>
    have hstep' := hstep
    obtain ⟨scene, -, rfl⟩ := Option.map_eq_some_iff.mp hstep'
    obtain ⟨hstart, hprepare, hready⟩ := h.configured
    rw [onPlayerRequestGameEnter_rest] at hkeep ⊢
    exact ⟨_, _, hkeep (by simp) rfl rfl rfl rfl ⟨hstart, hprepare, hready⟩⟩

/-- Where the scene is at a second, and what the players have been told by then. -/
inductive OnTime (ids : List PlayerId) (start prepare ready dwSecond : Nat) :
    EGameSceneState → List SceneNotify → Prop
  | prepare (le : dwSecond ≤ start + prepare) :
      OnTime ids start prepare ready dwSecond .prepare
        (course ids (prepareTimes prepare (dwSecond - start)) [] .prepare)
  | gameReady (lefts' : List Nat) (lt : start + prepare < dwSecond)
      (le : dwSecond ≤ start + prepare + ready)
      (times : ReadyTimes ready (dwSecond - (start + prepare)) lefts') :
      OnTime ids start prepare ready dwSecond .gameReady
        (course ids (prepareTimes prepare prepare) lefts' .gameReady)
  | gaming (lefts' : List Nat) (lt : start + prepare + ready < dwSecond)
      (times : ReadyTimes ready ready lefts') :
      OnTime ids start prepare ready dwSecond .gaming
        (course ids (prepareTimes prepare prepare) lefts' .gaming)

/-- Behind the information about the scene that a session got when it entered, its inbox has what
the players have been told since, each message once or more often. -/
def Hears (told : List SceneNotify) (c : SceneSession) : Prop :=
  c.enteredAt ≤ told.length ∧ ∃ before eSceneState messages,
    c.inbox = before ++ .gameSceneInfo eSceneState :: messages ∧
      Repeats (told.drop c.enteredAt) (messages.filterMap notification)

theorem Knows.hears {c : SceneSession} (h : s.Knows c) : Hears s.notified c := by
  obtain ⟨hle, before, eSceneState, messages, hinbox, hinformed⟩ := h
  exact ⟨hle, before, eSceneState, messages, hinbox, hinformed.since⟩

section Runs

variable {dwSecond dwPrepareTime dwGameReadyTime : Nat} {takes : Nat → Bool} {ls : List Label}

/-- What the scene tells keeps to the timetable, whoever comes and goes. -/
theorem on_time (hsmall : Small dwSecond dwPrepareTime dwGameReadyTime)
    (hsteady : Transition.Always step Steady
      (init qwRoles dwSecond dwPrepareTime dwGameReadyTime takes) ls)
    (hrun : Transition.run step (init qwRoles dwSecond dwPrepareTime dwGameReadyTime takes) ls =
      some s) :
    OnTime (playerIds qwRoles) dwSecond dwPrepareTime dwGameReadyTime s.dwSecond s.eSceneState
      s.notified := by
  have hinit : OnSchedule qwRoles dwSecond dwPrepareTime dwGameReadyTime
      (init qwRoles dwSecond dwPrepareTime dwGameReadyTime takes)
      (prepareTimes dwPrepareTime 0) [] := by
    have hcourse := onCourse_init qwRoles dwSecond dwPrepareTime dwGameReadyTime takes
    rw [init, changeState, (notifyPlayer_tells _ _).rest] at hcourse ⊢
    exact ⟨hcourse, ⟨rfl, rfl, rfl⟩,
      .prepare 0 5 rfl rfl (Nat.zero_le _) rfl (isNext_five _) rfl⟩
  have hstep : ∀ s l s', (∃ lefts lefts',
      OnSchedule qwRoles dwSecond dwPrepareTime dwGameReadyTime s lefts lefts') → Steady s l →
      step s l = some s' → ∃ lefts lefts',
        OnSchedule qwRoles dwSecond dwPrepareTime dwGameReadyTime s' lefts lefts' := by
    rintro s l s' ⟨lefts, lefts', h⟩ hl hs
    exact h.step hsmall hl hs
  obtain ⟨lefts, lefts', h⟩ :=
    Transition.invariant_of_always hstep ⟨_, _, hinit⟩ hsteady hrun
  obtain ⟨⟨-, -, hnotified⟩, -, htimely⟩ := h
  rw [hnotified]
  cases htimely with
  | prepare elapsed n state second le notify isNext fresh =>
    obtain rfl : s.dwSecond - dwSecond = elapsed := by omega
    rw [state]
    exact .prepare (by omega)
  | gameReady elapsed lefts' state second pos le notify lag times =>
    obtain rfl : s.dwSecond - (dwSecond + dwPrepareTime) = elapsed := by omega
    rw [state]
    exact .gameReady lefts' (by omega) (by omega) times
  | gaming lefts' state second times =>
    rw [state]
    exact .gaming lefts' second times

/-- On a clock that skips no second the scene keeps to its timetable, and every player hears it from
when it entered on, if its connection takes what it is sent. -/
theorem counts_down (hsmall : Small dwSecond dwPrepareTime dwGameReadyTime)
    (hsteady : Transition.Always step Steady
      (init qwRoles dwSecond dwPrepareTime dwGameReadyTime takes) ls)
    (hown : Transition.Always step Own
      (init qwRoles dwSecond dwPrepareTime dwGameReadyTime takes) ls)
    (hrun : Transition.run step (init qwRoles dwSecond dwPrepareTime dwGameReadyTime takes) ls =
      some s) :
    ∃ told, OnTime (playerIds qwRoles) dwSecond dwPrepareTime dwGameReadyTime s.dwSecond
        s.eSceneState told ∧
      ∀ p session, s.scene.getPlayer p = some (some session) →
        (s.sessions session).missed = false → Hears told (s.sessions session) := by
  refine ⟨s.notified, on_time hsmall hsteady hrun, fun p session hp hmissed => ?_⟩
  exact ((all_know hown hrun).2 p session hp hmissed).hears

end Runs

/-- `Run` is called once in the first second of the countdown, and in the third twice. -/
def lateCountdown : List Label :=
  [.run 100, .connect, .run 101, .enter 0 7, .run 102, .run 103, .run 104, .run 105, .run 105,
    .run 106, .run 107, .run 108, .run 109, .run 110, .run 110, .run 111, .run 112]

/-- What the player has got by then, who entered when the preparation alone had been told. -/
def lateInbox : List SceneMessage :=
  [.ackPlayerEnter .none, .gameConfig, .gameSceneInfo .prepare, .notify (.prepareTime 2),
    .notify (.prepareTime 1), .notify (.prepareTime 0), .notify (.gameState .gameReady),
    .notify (.gameReadyTime 2), .notify (.gameReadyTime 1), .notify (.gameReadyTime 1),
    .notify (.gameReadyTime 0), .notify (.gameState .gaming), .notify (.gameInitTetris 7),
    .notify (.gameInitTetris 9)]

theorem counts_down_late :
    ∃ s, Transition.run step (init [7, 0, 9] 100 7 4 fun _ => true) lateCountdown = some s ∧
      s.scene.getPlayer 7 = some (some 0) ∧ s.sessions 0 = ⟨lateInbox, 1, false⟩ ∧
      ∃ told, OnTime (playerIds [7, 0, 9]) 100 7 4 s.dwSecond s.eSceneState told ∧
        ∀ p session, s.scene.getPlayer p = some (some session) →
          (s.sessions session).missed = false → Hears told (s.sessions session) := by
  have hview : (Transition.run step (init [7, 0, 9] 100 7 4 fun _ => true) lateCountdown).map
      (fun s => (s.scene.getPlayer 7, s.sessions 0)) =
        some (some (some 0), ⟨lateInbox, 1, false⟩) := by
    decide +kernel
  obtain ⟨s, hrun, hs⟩ := Option.map_eq_some_iff.mp hview
  obtain ⟨hplayer, hsession⟩ := Prod.mk.inj hs
  exact ⟨s, hrun, hplayer, hsession,
    counts_down ⟨by omega, by omega, by omega⟩ (by decide +kernel) (by decide +kernel) hrun⟩

end SceneRun

end WebGame
