import Mathlib.Data.List.Nodup
import Mathlib.Logic.Function.Basic
import Mathlib.Order.Nat
import FxLib.Lib.Multimap
import FxLib.Lib.Transition

/-!
# Timer queues

`TLimiterQueue` and `CEventBase` of `meta_header/limiter_queue.h`. The nodes of all multimaps are
numbered in the order of the pushes, so a number is the address of a node. `CheckEvent` compares
with the clock of the handler, which is what it was when the call of `Proc` began. A `Tick` may
push and destroy events; these are steps of their own between two iterations of `Proc`.
-/

structure Entry (K : Type) where
  first : K
  second : Option Nat
  /-- The address of the node, and the event it was made for. -/
  node : Nat
  event : Nat

/-- `*m_ppCallBack = NULL`. -/
def Entry.clear {K : Type} (pp : Option Nat) (entry : Entry K) : Entry K :=
  if pp = some entry.node then { entry with second := none } else entry

namespace Entry

variable {K : Type} {pp : Option Nat} {entry : Entry K}

@[simp] theorem clear_first : (entry.clear pp).first = entry.first := by
  unfold clear
  split_ifs <;> rfl

@[simp] theorem clear_node : (entry.clear pp).node = entry.node := by
  unfold clear
  split_ifs <;> rfl

@[simp] theorem clear_event : (entry.clear pp).event = entry.event := by
  unfold clear
  split_ifs <;> rfl

theorem clear_some {event : Nat} (h : (entry.clear pp).second = some event) :
    entry.second = some event ∧ pp ≠ some entry.node := by
  unfold clear at h
  split_ifs at h with hpp
  exact ⟨h, hpp⟩

theorem clear_none (h : (entry.clear pp).second = none) :
    entry.second = none ∨ pp = some entry.node := by
  unfold clear at h
  split_ifs at h with hpp
  · exact Or.inr hpp
  · exact Or.inl h

end Entry

/-- A call of `Proc`. -/
structure ProcCall (K : Type) where
  queue : Nat
  now : K
  /-- `dwMaxNum - i`. -/
  remaining : Nat
  /-- `dwMaxNum` is not below the size the queue had, and what has been pushed since was not due. -/
  covers : Bool

/-- An entry whose event has been called. -/
structure Fire (K : Type) where
  entry : Entry K
  now : K
  /-- The number of pushes before. -/
  stamp : Nat
  /-- The event object still existed. -/
  alive : Bool

structure Timers (K : Type) where
  /-- `m_mmapEvents` of each queue. -/
  events : Nat → List (Entry K)
  /-- `m_ppCallBack` of each event. -/
  ppCallBack : Nat → Option Nat
  alive : Nat → Bool
  nodes : Nat
  proc : Option (ProcCall K)
  /-- The fires of the last call of `Proc`, and its `dwMaxNum`. -/
  fired : List (Fire K)
  asked : Nat
  /-- The nodes of all fires. -/
  firedNodes : List Nat
  /-- The pushes of an event that have not fired, in order, and whether it has fired since the
  last of them. -/
  pushed : Nat → List Nat
  firedSince : Nat → Bool

inductive TimerOp (K : Type) where
  | pushEvent (queue : Nat) (c : K) (pCallBack : Nat)
  /-- `~CEventBase`. -/
  | destroy (event : Nat)
  | proc (queue : Nat) (dwMaxNum : Int) (now : K)
  /-- The next iteration of the `Proc` in progress. -/
  | next

namespace Timers

variable {K : Type} [LinearOrder K]

def start : Timers K :=
  ⟨fun _ => [], fun _ => none, fun _ => true, 0, none, [], 0, [], fun _ => [], fun _ => true⟩

def pushEvent (s : Timers K) (queue : Nat) (c : K) (pCallBack : Nat) : Timers K :=
  { s with
    events := Function.update s.events queue
      (Multimap.insertUpper Entry.first ⟨c, some pCallBack, s.nodes, pCallBack⟩ (s.events queue))
    ppCallBack := Function.update s.ppCallBack pCallBack (some s.nodes)
    nodes := s.nodes + 1
    proc := s.proc.map fun p =>
      { p with covers := p.covers && (decide (p.queue ≠ queue) || decide (p.now < c)) }
    pushed := Function.update s.pushed pCallBack (s.pushed pCallBack ++ [s.nodes])
    firedSince := Function.update s.firedSince pCallBack false }

def destroy (s : Timers K) (event : Nat) : Timers K :=
  { s with
    events := fun queue => (s.events queue).map (Entry.clear (s.ppCallBack event))
    alive := Function.update s.alive event false }

/-- `erase(begin())`, `SetPP(NULL)`, `Tick`. -/
def fire (s : Timers K) (p : ProcCall K) (entry : Entry K) (rest : List (Entry K))
    (pCB : Nat) : Timers K :=
  { s with
    events := Function.update s.events p.queue rest
    ppCallBack := Function.update s.ppCallBack pCB none
    proc := some { p with remaining := p.remaining - 1 }
    fired := s.fired ++ [⟨entry, p.now, s.nodes, s.alive pCB⟩]
    firedNodes := s.firedNodes ++ [entry.node]
    pushed := Function.update s.pushed pCB ((s.pushed pCB).erase entry.node)
    firedSince := Function.update s.firedSince pCB true }

/-- One iteration. An entry without an event stays where it is. -/
def iterate (s : Timers K) (p : ProcCall K) : Timers K :=
  if p.remaining = 0 then { s with proc := none }
  else
    match s.events p.queue with
    | [] => { s with proc := none }
    | entry :: rest =>
      if entry.first ≤ p.now then
        match entry.second with
        | none => { s with proc := some { p with remaining := p.remaining - 1 } }
        | some pCB => s.fire p entry rest pCB
      else { s with proc := none }

/-- `none` where a destroyed event is used, and where `Proc` is not in progress or already is. -/
def step (s : Timers K) : TimerOp K → Option (Timers K)
  | .pushEvent queue c pCallBack =>
    if s.alive pCallBack then some (s.pushEvent queue c pCallBack) else none
  | .destroy event => if s.alive event then some (s.destroy event) else none
  | .proc queue dwMaxNum now =>
    if s.proc.isSome then none
    else some { s with
      proc := some ⟨queue, now, dwMaxNum.toNat, decide ((s.events queue).length ≤ dwMaxNum)⟩
      fired := [], asked := dwMaxNum.toNat }
  | .next => s.proc.map s.iterate

/-! ### The two conditions -/

/-- An event is destroyed when it is queued nowhere, or queued once and not called since. -/
def Unshared (s : Timers K) : TimerOp K → Prop
  | .destroy event =>
    s.alive event = true →
      s.pushed event = [] ∨ ((s.pushed event).length = 1 ∧ s.firedSince event = false)
  | .pushEvent _ _ _ | .proc _ _ _ | .next => True

/-- No due entry of an existing event waits behind the entry of a destroyed one. -/
def Unblocked (s : Timers K) : TimerOp K → Prop
  | .next =>
    ∀ p ∈ s.proc, ∀ entry ∈ (s.events p.queue).head?, entry.second = none →
      entry.first ≤ p.now → ∀ entry' ∈ s.events p.queue, entry'.first ≤ p.now → entry'.second = none
  | .pushEvent _ _ _ | .destroy _ | .proc _ _ _ => True

/-! ### Entries and events -/

/-- No entry refers to a destroyed event. -/
def NoDangling (s : Timers K) : Prop :=
  ∀ queue, ∀ entry ∈ s.events queue, ∀ event, entry.second = some event → s.alive event = true

structure Sound (s : Timers K) : Prop where
  ordered : ∀ queue,
    (s.events queue).Pairwise (Multimap.Before Entry.first fun x y => x.node < y.node)
  fresh : ∀ queue, ∀ entry ∈ s.events queue, entry.node < s.nodes
  distinct : ∀ queue queue' entry entry', entry ∈ s.events queue → entry' ∈ s.events queue' →
    entry.node = entry'.node → queue = queue' ∧ entry = entry'
  holds : ∀ queue, ∀ entry ∈ s.events queue, ∀ event, entry.second = some event →
    event = entry.event ∧ s.alive event = true
  cleared : ∀ queue, ∀ entry ∈ s.events queue, entry.second = none → s.alive entry.event = false
  pushed : ∀ event node, node ∈ s.pushed event ↔
    ∃ queue, ∃ entry ∈ s.events queue, entry.event = event ∧ entry.node = node
  pushed_nodup : ∀ event, (s.pushed event).Nodup
  ppCallBack : ∀ event, s.alive event = true →
    s.ppCallBack event = if s.firedSince event then none else (s.pushed event).getLast?
  fired_nodup : s.firedNodes.Nodup
  fired_gone : ∀ node ∈ s.firedNodes,
    node < s.nodes ∧ ∀ queue, ∀ entry ∈ s.events queue, entry.node ≠ node

variable {s s' : Timers K}

theorem sound_start : (start : Timers K).Sound := by
  constructor <;> simp [start]

/-- What no entry and no event depends on. -/
theorem Sound.withProc (h : s.Sound) (proc : Option (ProcCall K)) (fired : List (Fire K))
    (asked : Nat) : Sound { s with proc := proc, fired := fired, asked := asked } :=
  ⟨h.ordered, h.fresh, h.distinct, h.holds, h.cleared, h.pushed, h.pushed_nodup, h.ppCallBack,
    h.fired_nodup, h.fired_gone⟩

theorem Sound.noDangling (h : s.Sound) : s.NoDangling :=
  fun queue entry hmem event hsecond => (h.holds queue entry hmem event hsecond).2

theorem Sound.node_lt (h : s.Sound) {event node : Nat} (hmem : node ∈ s.pushed event) :
    node < s.nodes := by
  obtain ⟨queue, entry, hentry, -, rfl⟩ := (h.pushed event node).mp hmem
  exact h.fresh queue entry hentry

/-- The entry of a node that an event has been pushed to. -/
theorem Sound.event_eq (h : s.Sound) {queue event : Nat} {entry : Entry K}
    (hentry : entry ∈ s.events queue) (hmem : entry.node ∈ s.pushed event) :
    entry.event = event := by
  obtain ⟨queue', entry', hentry', hevent, hnode⟩ := (h.pushed event entry.node).mp hmem
  obtain ⟨-, rfl⟩ := h.distinct queue' queue entry' entry hentry' hentry hnode
  exact hevent

/-! #### PushEvent -/

theorem mem_pushEvent (s : Timers K) (queue : Nat) (c : K) (pCallBack queue' : Nat)
    (entry : Entry K) :
    entry ∈ (s.pushEvent queue c pCallBack).events queue' ↔
      (queue' = queue ∧ entry = ⟨c, some pCallBack, s.nodes, pCallBack⟩) ∨
        entry ∈ s.events queue' := by
  simp only [pushEvent]
  by_cases hq : queue' = queue
  · subst hq
    rw [Function.update_self, Multimap.mem_insertUpper]
    simp
  · rw [Function.update_of_ne hq]
    simp [hq]

theorem Sound.pushEvent (h : s.Sound) (queue : Nat) (c : K) {pCallBack : Nat}
    (halive : s.alive pCallBack = true) : (s.pushEvent queue c pCallBack).Sound := by
  have hmem := mem_pushEvent s queue c pCallBack
  constructor
  · intro queue'
    by_cases hq : queue' = queue
    · subst hq
      simp only [Timers.pushEvent, Function.update_self]
      exact Multimap.pairwise_insertUpper (h.ordered queue') fun y hy => h.fresh queue' y hy
    · simp only [Timers.pushEvent, Function.update_of_ne hq]
      exact h.ordered queue'
  · intro queue' entry hentry
    rcases (hmem queue' entry).mp hentry with ⟨-, rfl⟩ | hold
    · exact Nat.lt_succ_self _
    · exact Nat.lt_succ_of_lt (h.fresh queue' entry hold)
  · intro queue₁ queue₂ entry₁ entry₂ h₁ h₂ hnode
    rcases (hmem queue₁ entry₁).mp h₁ with ⟨rfl, rfl⟩ | hold₁ <;>
      rcases (hmem queue₂ entry₂).mp h₂ with ⟨rfl, rfl⟩ | hold₂
    · exact ⟨rfl, rfl⟩
    · exact absurd hnode (h.fresh queue₂ entry₂ hold₂).ne'
    · exact absurd hnode (h.fresh queue₁ entry₁ hold₁).ne
    · exact h.distinct queue₁ queue₂ entry₁ entry₂ hold₁ hold₂ hnode
  · intro queue' entry hentry event hsecond
    rcases (hmem queue' entry).mp hentry with ⟨-, rfl⟩ | hold
    · obtain rfl := Option.some.inj hsecond
      exact ⟨rfl, halive⟩
    · exact h.holds queue' entry hold event hsecond
  · intro queue' entry hentry hsecond
    rcases (hmem queue' entry).mp hentry with ⟨-, rfl⟩ | hold
    · cases hsecond
    · exact h.cleared queue' entry hold hsecond
  · intro event node
    have hold := h.pushed event node
    simp only [hmem]
    simp only [Timers.pushEvent]
    by_cases he : event = pCallBack
    · subst he
      rw [Function.update_self, List.mem_append, hold, List.mem_singleton]
      constructor
      · rintro (⟨queue', entry, hentry, hevent, hnode⟩ | rfl)
        · exact ⟨queue', entry, Or.inr hentry, hevent, hnode⟩
        · exact ⟨queue, _, Or.inl ⟨rfl, rfl⟩, rfl, rfl⟩
      · rintro ⟨queue', entry, ⟨-, rfl⟩ | hentry, hevent, hnode⟩
        · exact Or.inr hnode.symm
        · exact Or.inl ⟨queue', entry, hentry, hevent, hnode⟩
    · rw [Function.update_of_ne he, hold]
      constructor
      · rintro ⟨queue', entry, hentry, hevent, hnode⟩
        exact ⟨queue', entry, Or.inr hentry, hevent, hnode⟩
      · rintro ⟨queue', entry, ⟨-, rfl⟩ | hentry, hevent, hnode⟩
        · exact absurd hevent.symm he
        · exact ⟨queue', entry, hentry, hevent, hnode⟩
  · intro event
    simp only [Timers.pushEvent]
    by_cases he : event = pCallBack
    · subst he
      rw [Function.update_self, List.nodup_append]
      refine ⟨h.pushed_nodup event, List.nodup_singleton _, fun node hnode node' hnode' => ?_⟩
      rw [List.mem_singleton.mp hnode']
      exact (h.node_lt hnode).ne
    · rw [Function.update_of_ne he]
      exact h.pushed_nodup event
  · intro event hlive
    by_cases he : event = pCallBack
    · subst he
      simp [Timers.pushEvent]
    · simpa [Timers.pushEvent, Function.update_of_ne he] using h.ppCallBack event hlive
  · exact h.fired_nodup
  · intro node hnode
    obtain ⟨hlt, hgone⟩ := h.fired_gone node hnode
    refine ⟨Nat.lt_succ_of_lt hlt, fun queue' entry hentry => ?_⟩
    rcases (hmem queue' entry).mp hentry with ⟨-, rfl⟩ | hold
    · exact hlt.ne'
    · exact hgone queue' entry hold

/-! #### The destructor -/

/-- The slot that an existing event remembers is one it has been pushed to. -/
theorem Sound.pp_mem (h : s.Sound) {event node : Nat} (halive : s.alive event = true)
    (hpp : s.ppCallBack event = some node) : node ∈ s.pushed event := by
  rw [h.ppCallBack event halive] at hpp
  split_ifs at hpp
  exact List.mem_of_getLast? hpp

theorem Sound.destroy (h : s.Sound) {event : Nat} (halive : s.alive event = true)
    (hunshared : Unshared s (.destroy event)) : (s.destroy event).Sound := by
  have hmem : ∀ queue entry', entry' ∈ (s.destroy event).events queue →
      ∃ entry ∈ s.events queue, entry.clear (s.ppCallBack event) = entry' :=
    fun queue entry' => List.mem_map.mp
  have hlive : ∀ event', event' ≠ event → (s.destroy event).alive event' = s.alive event' :=
    fun event' hne => Function.update_of_ne hne _ _
  constructor
  · intro queue
    refine List.pairwise_map.mpr ((h.ordered queue).imp fun hbefore => ?_)
    simpa [Multimap.Before] using hbefore
  · intro queue entry' hentry'
    obtain ⟨entry, hentry, rfl⟩ := hmem queue entry' hentry'
    rw [Entry.clear_node]
    exact h.fresh queue entry hentry
  · intro queue₁ queue₂ entry₁' entry₂' h₁ h₂ hnode
    obtain ⟨entry₁, hold₁, rfl⟩ := hmem queue₁ entry₁' h₁
    obtain ⟨entry₂, hold₂, rfl⟩ := hmem queue₂ entry₂' h₂
    rw [Entry.clear_node, Entry.clear_node] at hnode
    obtain ⟨rfl, rfl⟩ := h.distinct queue₁ queue₂ entry₁ entry₂ hold₁ hold₂ hnode
    exact ⟨rfl, rfl⟩
  · intro queue entry' hentry' event' hsecond
    obtain ⟨entry, hentry, rfl⟩ := hmem queue entry' hentry'
    obtain ⟨hsecond, hpp⟩ := Entry.clear_some hsecond
    obtain ⟨rfl, hlive'⟩ := h.holds queue entry hentry event' hsecond
    refine ⟨Entry.clear_event.symm, ?_⟩
    by_cases he : entry.event = event
    · -- the one entry of the event is the one it remembers
      exfalso
      have hnode := (h.pushed event entry.node).mpr ⟨queue, entry, hentry, he, rfl⟩
      rcases hunshared halive with hnil | ⟨hone, hsince⟩
      · rw [hnil] at hnode
        cases hnode
      · obtain ⟨node, hnodes⟩ := List.length_eq_one_iff.mp hone
        rw [hnodes, List.mem_singleton] at hnode
        refine hpp ?_
        rw [h.ppCallBack event halive, hsince, hnodes, hnode]
        rfl
    · rw [hlive _ he]
      exact hlive'
  · intro queue entry' hentry' hsecond
    obtain ⟨entry, hentry, rfl⟩ := hmem queue entry' hentry'
    rw [Entry.clear_event]
    by_cases he : entry.event = event
    · rw [he]
      exact Function.update_self _ _ _
    · rw [hlive _ he]
      rcases Entry.clear_none hsecond with hnone | hpp
      · exact h.cleared queue entry hentry hnone
      · exact absurd (h.event_eq hentry (h.pp_mem halive hpp)) he
  · intro event' node
    rw [show (s.destroy event).pushed = s.pushed from rfl, h.pushed event' node]
    constructor
    · rintro ⟨queue, entry, hentry, hevent, hnode⟩
      exact ⟨queue, _, List.mem_map_of_mem hentry, by simpa using hevent, by simpa using hnode⟩
    · rintro ⟨queue, entry', hentry', hevent, hnode⟩
      obtain ⟨entry, hentry, rfl⟩ := hmem queue entry' hentry'
      exact ⟨queue, entry, hentry, by simpa using hevent, by simpa using hnode⟩
  · exact h.pushed_nodup
  · intro event' hlive'
    by_cases he : event' = event
    · subst he
      simp [Timers.destroy] at hlive'
    · rw [hlive event' he] at hlive'
      exact h.ppCallBack event' hlive'
  · exact h.fired_nodup
  · intro node hnode
    obtain ⟨hlt, hgone⟩ := h.fired_gone node hnode
    refine ⟨hlt, fun queue entry' hentry' => ?_⟩
    obtain ⟨entry, hentry, rfl⟩ := hmem queue entry' hentry'
    rw [Entry.clear_node]
    exact hgone queue entry hentry

/-! #### Proc -/

theorem mem_fire (h : s.Sound) {p : ProcCall K} {entry : Entry K} {rest : List (Entry K)}
    (hevents : s.events p.queue = entry :: rest) (pCB queue : Nat) (entry' : Entry K) :
    entry' ∈ (s.fire p entry rest pCB).events queue ↔
      entry' ∈ s.events queue ∧ entry'.node ≠ entry.node := by
  have hhead : entry ∈ s.events p.queue := by simp [hevents]
  simp only [fire]
  by_cases hq : queue = p.queue
  · subst hq
    rw [Function.update_self, hevents, List.mem_cons]
    have hordered := h.ordered p.queue
    rw [hevents] at hordered
    constructor
    · intro hrest
      refine ⟨Or.inr hrest, fun hnode => ?_⟩
      obtain ⟨-, rfl⟩ :=
        h.distinct p.queue p.queue entry' entry (by simp [hevents, hrest]) hhead hnode
      rcases (List.pairwise_cons.mp hordered).1 entry' hrest with hlt | ⟨-, hlt⟩
      · exact lt_irrefl _ hlt
      · exact lt_irrefl _ hlt
    · rintro ⟨rfl | hrest, hne⟩
      · exact absurd rfl hne
      · exact hrest
  · rw [Function.update_of_ne hq]
    refine ⟨fun hentry => ⟨hentry, fun hnode => ?_⟩, And.left⟩
    exact hq (h.distinct queue p.queue entry' entry hentry hhead hnode).1

theorem Sound.fire (h : s.Sound) {p : ProcCall K} {entry : Entry K} {rest : List (Entry K)}
    {pCB : Nat} (hevents : s.events p.queue = entry :: rest) (hsecond : entry.second = some pCB) :
    (s.fire p entry rest pCB).Sound := by
  have hhead : entry ∈ s.events p.queue := by simp [hevents]
  obtain ⟨rfl, halive⟩ := h.holds p.queue entry hhead pCB hsecond
  have hmem := mem_fire h hevents entry.event
  constructor
  · intro queue
    by_cases hq : queue = p.queue
    · subst hq
      have hordered := h.ordered p.queue
      rw [hevents] at hordered
      simpa [Timers.fire] using (List.pairwise_cons.mp hordered).2
    · simpa [Timers.fire, Function.update_of_ne hq] using h.ordered queue
  · exact fun queue entry' hentry => h.fresh queue entry' ((hmem queue entry').mp hentry).1
  · exact fun queue₁ queue₂ entry₁ entry₂ h₁ h₂ => h.distinct queue₁ queue₂ entry₁ entry₂
      ((hmem queue₁ entry₁).mp h₁).1 ((hmem queue₂ entry₂).mp h₂).1
  · exact fun queue entry' hentry => h.holds queue entry' ((hmem queue entry').mp hentry).1
  · exact fun queue entry' hentry => h.cleared queue entry' ((hmem queue entry').mp hentry).1
  · intro event node
    simp only [hmem]
    simp only [Timers.fire]
    by_cases he : event = entry.event
    · subst he
      rw [Function.update_self, (h.pushed_nodup _).mem_erase_iff, h.pushed]
      constructor
      · rintro ⟨hne, queue, entry', hentry, hevent, rfl⟩
        exact ⟨queue, entry', ⟨hentry, hne⟩, hevent, rfl⟩
      · rintro ⟨queue, entry', ⟨hentry, hne⟩, hevent, rfl⟩
        exact ⟨hne, queue, entry', hentry, hevent, rfl⟩
    · rw [Function.update_of_ne he, h.pushed]
      constructor
      · rintro ⟨queue, entry', hentry, hevent, rfl⟩
        refine ⟨queue, entry', ⟨hentry, fun hnode => he ?_⟩, hevent, rfl⟩
        obtain ⟨-, rfl⟩ := h.distinct queue p.queue entry' entry hentry hhead hnode
        exact hevent.symm
      · rintro ⟨queue, entry', ⟨hentry, -⟩, hevent, rfl⟩
        exact ⟨queue, entry', hentry, hevent, rfl⟩
  · intro event
    simp only [Timers.fire]
    by_cases he : event = entry.event
    · subst he
      rw [Function.update_self]
      exact (h.pushed_nodup _).erase _
    · rw [Function.update_of_ne he]
      exact h.pushed_nodup event
  · intro event hlive
    by_cases he : event = entry.event
    · subst he
      simp [Timers.fire]
    · simpa [Timers.fire, Function.update_of_ne he] using h.ppCallBack event hlive
  · rw [show (s.fire p entry rest entry.event).firedNodes = s.firedNodes ++ [entry.node] from rfl,
      List.nodup_append]
    refine ⟨h.fired_nodup, List.nodup_singleton _, fun node hnode node' hnode' => ?_⟩
    rw [List.mem_singleton.mp hnode']
    exact fun heq => (h.fired_gone node hnode).2 p.queue entry hhead heq.symm
  · intro node hnode
    rcases List.mem_append.mp hnode with hold | hnew
    · obtain ⟨hlt, hgone⟩ := h.fired_gone node hold
      exact ⟨hlt, fun queue entry' hentry => hgone queue entry' ((hmem queue entry').mp hentry).1⟩
    · rw [List.mem_singleton.mp hnew]
      exact ⟨h.fresh p.queue entry hhead, fun queue entry' hentry =>
        ((hmem queue entry').mp hentry).2⟩

/-- What an iteration of `Proc` comes to. -/
theorem iterate_cases (s : Timers K) (p : ProcCall K) :
    (s.iterate p = { s with proc := none } ∧
        (p.remaining = 0 ∨ s.events p.queue = [] ∨
          ∃ entry rest, s.events p.queue = entry :: rest ∧ p.now < entry.first)) ∨
      (s.iterate p = { s with proc := some { p with remaining := p.remaining - 1 } } ∧
        p.remaining ≠ 0 ∧ ∃ entry rest, s.events p.queue = entry :: rest ∧
          entry.first ≤ p.now ∧ entry.second = none) ∨
      ∃ entry rest pCB, s.iterate p = s.fire p entry rest pCB ∧ p.remaining ≠ 0 ∧
        s.events p.queue = entry :: rest ∧ entry.first ≤ p.now ∧ entry.second = some pCB := by
  unfold iterate
  by_cases hzero : p.remaining = 0
  · rw [if_pos hzero]
    exact Or.inl ⟨rfl, Or.inl hzero⟩
  · rw [if_neg hzero]
    cases hevents : s.events p.queue with
    | nil => exact Or.inl ⟨rfl, Or.inr (Or.inl rfl)⟩
    | cons entry rest =>
      dsimp only
      by_cases hdue : entry.first ≤ p.now
      · rw [if_pos hdue]
        cases hsecond : entry.second with
        | none => exact Or.inr (Or.inl ⟨rfl, hzero, entry, rest, rfl, hdue, hsecond⟩)
        | some pCB =>
          exact Or.inr (Or.inr ⟨entry, rest, pCB, rfl, hzero, rfl, hdue, hsecond⟩)
      · rw [if_neg hdue]
        exact Or.inl ⟨rfl, Or.inr (Or.inr ⟨entry, rest, rfl, not_le.mp hdue⟩)⟩

theorem Sound.iterate (h : s.Sound) (p : ProcCall K) : (s.iterate p).Sound := by
  rcases iterate_cases s p with ⟨he, -⟩ | ⟨he, -⟩ | ⟨entry, rest, pCB, he, -, hevents, -, hsecond⟩
  · rw [he]
    exact h.withProc _ _ _
  · rw [he]
    exact h.withProc _ _ _
  · rw [he]
    exact h.fire hevents hsecond

theorem Sound.step (h : s.Sound) {op : TimerOp K} (hunshared : Unshared s op)
    (hstep : s.step op = some s') : s'.Sound := by
  cases op with
  | pushEvent queue c pCallBack =>
    simp only [Timers.step] at hstep
    split_ifs at hstep with halive
    cases hstep
    exact h.pushEvent queue c halive
  | destroy event =>
    simp only [Timers.step] at hstep
    split_ifs at hstep with halive
    cases hstep
    exact h.destroy halive hunshared
  | proc queue dwMaxNum now =>
    simp only [Timers.step] at hstep
    split_ifs at hstep
    cases hstep
    exact h.withProc _ _ _
  | next =>
    obtain ⟨p, -, rfl⟩ := Option.map_eq_some_iff.mp hstep
    exact h.iterate p

/-- A destructor that leaves no entry behind is one the condition allows. -/
theorem Sound.unshared_of_noDangling (h : s.Sound) {event : Nat}
    (hnone : s.alive event = true → (s.destroy event).NoDangling) :
    Unshared s (.destroy event) := by
  intro halive
  have hnone := hnone halive
  have hslot : ∀ node ∈ s.pushed event, s.ppCallBack event = some node := by
    intro node hnode
    obtain ⟨queue, entry, hentry, rfl, rfl⟩ := (h.pushed event node).mp hnode
    by_contra hpp
    cases hsecond : entry.second with
    | none =>
      rw [h.cleared queue entry hentry hsecond] at halive
      cases halive
    | some event' =>
      obtain ⟨rfl, -⟩ := h.holds queue entry hentry event' hsecond
      have hkept : entry ∈ (s.destroy entry.event).events queue :=
        List.mem_map.mpr ⟨entry, hentry, if_neg hpp⟩
      have hlive := hnone queue entry hkept entry.event hsecond
      simp [Timers.destroy] at hlive
  cases hpushed : s.pushed event with
  | nil => exact Or.inl rfl
  | cons node nodes =>
    have hnode := hslot node (by simp [hpushed])
    have hnil : nodes = [] := by
      refine List.eq_nil_iff_forall_not_mem.mpr fun node' hmem => ?_
      have hnode' := hslot node' (by simp [hpushed, hmem])
      have hnodup := h.pushed_nodup event
      rw [hpushed, List.nodup_cons] at hnodup
      rw [hnode, Option.some.injEq] at hnode'
      exact hnodup.1 (hnode' ▸ hmem)
    refine Or.inr ⟨by rw [hnil]; rfl, ?_⟩
    rw [h.ppCallBack event halive] at hnode
    by_contra hsince
    rw [if_pos (by simpa using hsince)] at hnode
    cases hnode

/-- No entry of any queue refers to a destroyed event after any step of a run, if and only if the
run destroys events only when they are queued nowhere, or once and not called since. -/
theorem no_dangling_iff (ops : List (TimerOp K)) :
    Transition.Always step (fun s op => ∀ s', s.step op = some s' → s'.NoDangling) start ops ↔
      Transition.Always step Unshared start ops := by
  refine (Transition.always_iff _ (fun s op h => ⟨fun hgood s' hs => ?_, fun hgood => ?_⟩)
    (fun s op s' h hgood hs => h.step hgood hs) sound_start).symm
  · exact (h.step hgood hs).noDangling
  · cases op with
    | destroy event => exact h.unshared_of_noDangling fun halive => hgood _ (if_pos halive)
    | _ => trivial

/-- An event is pushed twice, called once and destroyed: its second entry still refers to it. -/
theorem dangling_after_second_push :
    ∃ s : Timers Nat, Transition.run step start
        [.pushEvent 0 1 7, .pushEvent 0 5 7, .proc 0 9 1, .next, .next, .destroy 7] = some s ∧
      s.alive 7 = false ∧ ∃ entry ∈ s.events 0, entry.second = some 7 :=
  ⟨_, rfl, rfl, ⟨5, some 7, 1, 7⟩, List.mem_singleton.mpr rfl, rfl⟩

/-! ### What every run keeps -/

/-- An entry refers to the event it was made for or to none, and what an event remembers is a node
of its own. -/
structure Owned (s : Timers K) : Prop where
  event : ∀ queue, ∀ entry ∈ s.events queue, ∀ event, entry.second = some event →
    entry.event = event
  fresh : ∀ queue, ∀ entry ∈ s.events queue, entry.node < s.nodes
  remembered : ∀ event node, s.ppCallBack event = some node → node < s.nodes ∧
    ∀ queue, ∀ entry ∈ s.events queue, entry.node = node → entry.event = event

omit [LinearOrder K] in
theorem owned_start : (start : Timers K).Owned := by
  constructor <;> simp [start]

theorem Owned.pushEvent (h : s.Owned) (queue : Nat) (c : K) (pCallBack : Nat) :
    (s.pushEvent queue c pCallBack).Owned := by
  have hmem := mem_pushEvent s queue c pCallBack
  constructor
  · intro queue' entry hentry event hsecond
    rcases (hmem queue' entry).mp hentry with ⟨-, rfl⟩ | hold
    · exact Option.some.inj hsecond
    · exact h.event queue' entry hold event hsecond
  · intro queue' entry hentry
    rcases (hmem queue' entry).mp hentry with ⟨-, rfl⟩ | hold
    · exact Nat.lt_succ_self _
    · exact Nat.lt_succ_of_lt (h.fresh queue' entry hold)
  · intro event node hpp
    by_cases he : event = pCallBack
    · subst he
      obtain rfl : s.nodes = node := by simpa [Timers.pushEvent] using hpp
      refine ⟨Nat.lt_succ_self _, fun queue' entry hentry hnode => ?_⟩
      rcases (hmem queue' entry).mp hentry with ⟨-, rfl⟩ | hold
      · rfl
      · exact absurd hnode (h.fresh queue' entry hold).ne
    · have hpp' : s.ppCallBack event = some node := by
        simpa [Timers.pushEvent, Function.update_of_ne he] using hpp
      obtain ⟨hlt, hevent⟩ := h.remembered event node hpp'
      refine ⟨Nat.lt_succ_of_lt hlt, fun queue' entry hentry hnode => ?_⟩
      rcases (hmem queue' entry).mp hentry with ⟨-, rfl⟩ | hold
      · exact absurd hnode hlt.ne'
      · exact hevent queue' entry hold hnode

omit [LinearOrder K] in
theorem Owned.destroy (h : s.Owned) (event : Nat) : (s.destroy event).Owned := by
  constructor
  · intro queue entry' hentry' event' hsecond
    obtain ⟨entry, hentry, rfl⟩ := List.mem_map.mp hentry'
    rw [Entry.clear_event]
    exact h.event queue entry hentry event' (Entry.clear_some hsecond).1
  · intro queue entry' hentry'
    obtain ⟨entry, hentry, rfl⟩ := List.mem_map.mp hentry'
    rw [Entry.clear_node]
    exact h.fresh queue entry hentry
  · intro event' node hpp
    obtain ⟨hlt, hevent⟩ := h.remembered event' node hpp
    refine ⟨hlt, fun queue entry' hentry' hnode => ?_⟩
    obtain ⟨entry, hentry, rfl⟩ := List.mem_map.mp hentry'
    rw [Entry.clear_node] at hnode
    rw [Entry.clear_event]
    exact hevent queue entry hentry hnode

omit [LinearOrder K] in
/-- An entry of another event is not cleared. -/
theorem Owned.clear_of_ne (h : s.Owned) {queue event event' : Nat} {entry : Entry K}
    (hentry : entry ∈ s.events queue) (hsecond : entry.second = some event) (hne : event ≠ event') :
    entry.clear (s.ppCallBack event') = entry := by
  refine if_neg fun hpp => hne ?_
  rw [← h.event queue entry hentry event hsecond]
  exact (h.remembered event' entry.node hpp).2 queue entry hentry rfl

omit [LinearOrder K] in
/-- What stays of a queue whose first entry has been called. -/
theorem mem_of_fire {p : ProcCall K} {entry : Entry K} {rest : List (Entry K)} {pCB queue : Nat}
    {entry' : Entry K} (hevents : s.events p.queue = entry :: rest)
    (hentry' : entry' ∈ (s.fire p entry rest pCB).events queue) : entry' ∈ s.events queue := by
  simp only [Timers.fire] at hentry'
  by_cases hq : queue = p.queue
  · subst hq
    rw [Function.update_self] at hentry'
    rw [hevents]
    exact List.mem_cons_of_mem _ hentry'
  · rwa [Function.update_of_ne hq] at hentry'

theorem Owned.iterate (h : s.Owned) (p : ProcCall K) : (s.iterate p).Owned := by
  rcases iterate_cases s p with ⟨he, -⟩ | ⟨he, -⟩ | ⟨entry, rest, pCB, he, -, hevents, -⟩ <;>
    rw [he]
  · exact ⟨h.event, h.fresh, h.remembered⟩
  · exact ⟨h.event, h.fresh, h.remembered⟩
  · have hold : ∀ queue, ∀ entry' ∈ (s.fire p entry rest pCB).events queue,
        entry' ∈ s.events queue := fun _ _ => mem_of_fire hevents
    refine ⟨fun queue entry' hentry' => h.event queue entry' (hold queue entry' hentry'),
      fun queue entry' hentry' => h.fresh queue entry' (hold queue entry' hentry'), ?_⟩
    intro event node hpp
    have hpp' : s.ppCallBack event = some node := by
      by_cases hcalled : event = pCB
      · subst hcalled
        simp [Timers.fire] at hpp
      · simpa [Timers.fire, Function.update_of_ne hcalled] using hpp
    obtain ⟨hlt, hevent⟩ := h.remembered event node hpp'
    exact ⟨hlt, fun queue entry' hentry' => hevent queue entry' (hold queue entry' hentry')⟩

theorem Owned.step (h : s.Owned) {op : TimerOp K} (hstep : s.step op = some s') : s'.Owned := by
  cases op with
  | pushEvent queue c pCallBack =>
    simp only [Timers.step] at hstep
    split_ifs at hstep
    cases hstep
    exact h.pushEvent queue c pCallBack
  | destroy event =>
    simp only [Timers.step] at hstep
    split_ifs at hstep
    cases hstep
    exact h.destroy event
  | proc queue dwMaxNum now =>
    simp only [Timers.step] at hstep
    split_ifs at hstep
    cases hstep
    exact ⟨h.event, h.fresh, h.remembered⟩
  | next =>
    obtain ⟨p, -, rfl⟩ := Option.map_eq_some_iff.mp hstep
    exact h.iterate p

/-! ### Calls of Proc -/

/-- An entry of an existing event whose key has been reached. -/
def Waiting (now : K) (entry : Entry K) : Bool :=
  decide (entry.first ≤ now) && entry.second.isSome

/-- `f` before `g`: the order of the queue, unless `g` was pushed behind `f`'s call. -/
def Follows (f g : Fire K) : Prop :=
  f.stamp ≤ g.entry.node ∨
    Multimap.Before Entry.first (fun x y : Entry K => x.node < y.node) f.entry g.entry

structure Serves (s : Timers K) : Prop where
  due : ∀ f ∈ s.fired, f.entry.first ≤ f.now
  alive : ∀ f ∈ s.fired, f.alive = true
  stamp : ∀ f ∈ s.fired, f.entry.node < f.stamp ∧ f.stamp ≤ s.nodes
  order : s.fired.Pairwise Follows
  many : s.fired.length + (s.proc.elim 0 ProcCall.remaining) ≤ s.asked
  ahead : ∀ p ∈ s.proc, ∀ f ∈ s.fired, ∀ entry ∈ s.events p.queue, entry.node < f.stamp →
    Multimap.Before Entry.first (fun x y : Entry K => x.node < y.node) f.entry entry
  covers : ∀ p ∈ s.proc, p.covers = true →
    (s.events p.queue).countP (Waiting p.now) ≤ p.remaining

theorem serves_start : (start : Timers K).Serves := by
  constructor <;> simp [start]

theorem Serves.pushEvent (h : s.Serves) (queue : Nat) (c : K) (pCallBack : Nat) :
    (s.pushEvent queue c pCallBack).Serves := by
  refine ⟨h.due, h.alive, fun f hf => ⟨(h.stamp f hf).1, Nat.le_succ_of_le (h.stamp f hf).2⟩,
    h.order, ?_, ?_, ?_⟩
  · have hmany := h.many
    cases hproc : s.proc <;> simpa [Timers.pushEvent, hproc] using hmany
  · intro p' hp' f hf entry hentry hlt
    obtain ⟨p, hp, rfl⟩ := Option.map_eq_some_iff.mp hp'
    rcases (mem_pushEvent s queue c pCallBack p.queue entry).mp hentry with ⟨-, rfl⟩ | hold
    · exact absurd hlt (h.stamp f hf).2.not_gt
    · exact h.ahead p hp f hf entry hold hlt
  · intro p' hp' hcovers
    obtain ⟨p, hp, rfl⟩ := Option.map_eq_some_iff.mp hp'
    simp only [Bool.and_eq_true, Bool.or_eq_true, decide_eq_true_eq] at hcovers
    obtain ⟨hcovers, hlater⟩ := hcovers
    have hcount := h.covers p hp hcovers
    by_cases hq : p.queue = queue
    · rcases hlater with hne | hlt
      · exact absurd hq hne
      · have hnot : Waiting p.now ⟨c, some pCallBack, s.nodes, pCallBack⟩ = false := by
          simp [Waiting, hlt]
        subst hq
        simp only [Timers.pushEvent, Function.update_self]
        rw [(Multimap.perm_insertUpper _ _ _).countP_eq, List.countP_cons, hnot]
        simpa using hcount
    · simpa [Timers.pushEvent, Function.update_of_ne hq] using hcount

theorem waiting_of_clear {now : K} {pp : Option Nat} {entry : Entry K}
    (h : Waiting now (entry.clear pp) = true) : Waiting now entry = true := by
  simp only [Waiting, Entry.clear_first, Bool.and_eq_true, Option.isSome_iff_exists] at h ⊢
  obtain ⟨hdue, event, hsecond⟩ := h
  exact ⟨hdue, event, (Entry.clear_some hsecond).1⟩

theorem Serves.destroy (h : s.Serves) (event : Nat) : (s.destroy event).Serves := by
  refine ⟨h.due, h.alive, h.stamp, h.order, h.many, ?_, ?_⟩
  · intro p hp f hf entry' hentry' hlt
    obtain ⟨entry, hentry, rfl⟩ := List.mem_map.mp hentry'
    have hbefore := h.ahead p hp f hf entry hentry (by simpa using hlt)
    simpa [Multimap.Before] using hbefore
  · intro p hp hcovers
    refine le_trans ?_ (h.covers p hp hcovers)
    simp only [Timers.destroy, List.countP_map]
    exact List.countP_mono_left fun entry _ hwaiting => waiting_of_clear hwaiting

theorem serves_proc (s : Timers K) (queue : Nat) (dwMaxNum : Int) (now : K) :
    Serves { s with
      proc := some ⟨queue, now, dwMaxNum.toNat, decide ((s.events queue).length ≤ dwMaxNum)⟩
      fired := [], asked := dwMaxNum.toNat } := by
  refine ⟨by simp, by simp, by simp, List.Pairwise.nil, by simp, by simp, ?_⟩
  rintro p ⟨⟩ hcovers
  have hsize := of_decide_eq_true hcovers
  have hle := List.countP_le_length (p := Waiting now) (l := s.events queue)
  simp only
  omega

/-- A call that ends has no more to do. -/
theorem Serves.stop (h : s.Serves) : Serves { s with proc := none } := by
  refine ⟨h.due, h.alive, h.stamp, h.order, ?_, by simp, by simp⟩
  have hmany := h.many
  simp only [Option.elim_none]
  omega

/-- Behind an entry of a destroyed event nothing waits, as the condition says. -/
theorem Serves.skip (h : s.Serves) {p : ProcCall K} (hp : s.proc = some p)
    (hnone : ∀ entry ∈ s.events p.queue, Waiting p.now entry = false) :
    Serves { s with proc := some { p with remaining := p.remaining - 1 } } := by
  have hmany := h.many
  rw [hp] at hmany
  refine ⟨h.due, h.alive, h.stamp, h.order, ?_, ?_, ?_⟩
  · simp only [Option.elim_some] at hmany ⊢
    omega
  · rintro p' ⟨⟩
    exact h.ahead p hp
  · rintro p' ⟨⟩ -
    rw [List.countP_eq_zero.mpr fun entry hentry => by simp [hnone entry hentry]]
    exact Nat.zero_le _

theorem Serves.fire (h : s.Serves) (hs : s.Sound) {p : ProcCall K} {entry : Entry K}
    {rest : List (Entry K)} {pCB : Nat} (hp : s.proc = some p) (hremaining : p.remaining ≠ 0)
    (hevents : s.events p.queue = entry :: rest) (hdue : entry.first ≤ p.now)
    (hsecond : entry.second = some pCB) : (s.fire p entry rest pCB).Serves := by
  have hhead : entry ∈ s.events p.queue := by simp [hevents]
  have halive := (hs.holds p.queue entry hhead pCB hsecond).2
  have hordered := hs.ordered p.queue
  rw [hevents] at hordered
  have hmany := h.many
  rw [hp, Option.elim_some] at hmany
  have hnew : ∀ f ∈ (s.fire p entry rest pCB).fired,
      f ∈ s.fired ∨ f = ⟨entry, p.now, s.nodes, s.alive pCB⟩ := fun f hf => by
    simpa [Timers.fire] using hf
  constructor
  · intro f hf
    rcases hnew f hf with hold | rfl
    · exact h.due f hold
    · exact hdue
  · intro f hf
    rcases hnew f hf with hold | rfl
    · exact h.alive f hold
    · exact halive
  · intro f hf
    rcases hnew f hf with hold | rfl
    · exact h.stamp f hold
    · exact ⟨hs.fresh p.queue entry hhead, le_rfl⟩
  · refine List.pairwise_append.mpr ⟨h.order, List.pairwise_singleton _ _, fun f hf g hg => ?_⟩
    rw [List.mem_singleton.mp hg]
    rcases Nat.lt_or_ge entry.node f.stamp with hlt | hge
    · exact Or.inr (h.ahead p hp f hf entry hhead hlt)
    · exact Or.inl hge
  · simp only [Timers.fire, Option.elim_some, List.length_append, List.length_singleton]
    omega
  · rintro p' ⟨⟩ f hf entry' hentry' hlt
    obtain ⟨hmem, hne⟩ := (mem_fire hs hevents pCB p.queue entry').mp hentry'
    rcases hnew f hf with hold | rfl
    · exact h.ahead p hp f hold entry' hmem hlt
    · refine (List.pairwise_cons.mp hordered).1 entry' ?_
      rw [hevents] at hmem
      rcases List.mem_cons.mp hmem with rfl | hrest
      · exact absurd rfl hne
      · exact hrest
  · rintro p' ⟨⟩ hcovers
    have hcount := h.covers p hp hcovers
    rw [hevents, List.countP_cons, if_pos (by simp [Waiting, hdue, hsecond])] at hcount
    simp only [Timers.fire, Function.update_self]
    omega

theorem Serves.step (h : s.Serves) (hs : s.Sound) {op : TimerOp K} (hunblocked : Unblocked s op)
    (hstep : s.step op = some s') : s'.Serves := by
  cases op with
  | pushEvent queue c pCallBack =>
    simp only [Timers.step] at hstep
    split_ifs at hstep
    cases hstep
    exact h.pushEvent queue c pCallBack
  | destroy event =>
    simp only [Timers.step] at hstep
    split_ifs at hstep
    cases hstep
    exact h.destroy event
  | proc queue dwMaxNum now =>
    simp only [Timers.step] at hstep
    split_ifs at hstep
    cases hstep
    exact serves_proc s queue dwMaxNum now
  | next =>
    obtain ⟨p, hp, rfl⟩ := Option.map_eq_some_iff.mp hstep
    rcases iterate_cases s p with ⟨he, -⟩ | ⟨he, -, entry, rest, hevents, hdue, hsecond⟩ |
      ⟨entry, rest, pCB, he, hremaining, hevents, hdue, hsecond⟩
    · rw [he]
      exact h.stop
    · rw [he]
      refine h.skip hp fun entry' hentry' => ?_
      have hnone := hunblocked p hp entry (by simp [hevents]) hsecond hdue entry' hentry'
      by_cases hdue' : entry'.first ≤ p.now
      · simp [Waiting, hnone hdue']
      · simp [Waiting, hdue']
    · rw [he]
      exact h.fire hs hp hremaining hevents hdue hsecond

/-- When a call ends that asked for enough, no existing event waits whose key has been reached. -/
theorem Serves.progress (h : s.Serves) (hs : s.Sound) {p : ProcCall K} (hp : s.proc = some p)
    (hcovers : p.covers = true) (hend : (s.iterate p).proc = none) :
    ∀ entry ∈ (s.iterate p).events p.queue, entry.first ≤ p.now →
      (s.iterate p).alive entry.event = false := by
  rcases iterate_cases s p with ⟨he, hwhy⟩ | ⟨he, -⟩ | ⟨_, _, _, he, -⟩
  · rw [he]
    intro entry hentry hdue
    refine hs.cleared p.queue entry hentry ?_
    rcases hwhy with hzero | hnil | ⟨first, rest, hevents, hlt⟩
    · have hcount := h.covers p hp hcovers
      rw [hzero, Nat.le_zero, List.countP_eq_zero] at hcount
      simpa [Waiting, hdue] using hcount entry hentry
    · simp [hnil] at hentry
    · have hordered := hs.ordered p.queue
      simp only [hevents] at hordered hentry
      exact absurd hdue (Multimap.lt_of_head hordered hlt hentry).not_ge
  · rw [he] at hend
    cases hend
  · rw [he] at hend
    cases hend

/-- Where a run that keeps to the conditions has got. -/
structure Delivered (s : Timers K) : Prop where
  /-- A call of `Proc` fires due entries, each the first of those in the queue. -/
  due : ∀ f ∈ s.fired, f.entry.first ≤ f.now
  order : s.fired.Pairwise Follows
  /-- Unless a `Tick` has pushed a smaller key than has been fired, keys do not decrease, and
  entries of one key fire in the order of their pushes. -/
  sorted : (∀ f ∈ s.fired, ∀ g ∈ s.fired, f.stamp ≤ g.entry.node →
      f.entry.first ≤ g.entry.first) →
    s.fired.Pairwise fun f g =>
      Multimap.Before Entry.first (fun x y : Entry K => x.node < y.node) f.entry g.entry
  many : s.fired.length ≤ s.asked
  /-- Each push fires once at most, and only while its event exists. -/
  once : s.firedNodes.Nodup
  alive : ∀ f ∈ s.fired, f.alive = true
  /-- At the end of a call that asked for enough. -/
  progress : ∀ p s', s.proc = some p → p.covers = true → s.step .next = some s' →
    s'.proc = none → ∀ entry ∈ s'.events p.queue, entry.first ≤ p.now →
      s'.alive entry.event = false

theorem Serves.delivered (h : s.Serves) (hs : s.Sound) : s.Delivered where
  due := h.due
  order := h.order
  sorted := by
    intro hlater
    refine h.order.imp_of_mem fun {f g} hf hg hfollows => ?_
    rcases hfollows with hbehind | hbefore
    · rcases (hlater f hf g hg hbehind).lt_or_eq with hlt | heq
      · exact Or.inl hlt
      · exact Or.inr ⟨heq, (h.stamp f hf).1.trans_le hbehind⟩
    · exact hbefore
  many := (Nat.le_add_right _ _).trans h.many
  once := hs.fired_nodup
  alive := h.alive
  progress := by
    intro p s' hp hcovers hstep hend
    obtain ⟨p', hp', rfl⟩ := Option.map_eq_some_iff.mp hstep
    obtain rfl := Option.some.inj (hp.symm.trans hp')
    exact h.progress hs hp hcovers hend

theorem proc_delivers {ops : List (TimerOp K)}
    (hops : Transition.Always step (fun s op => Unshared s op ∧ Unblocked s op) start ops)
    (hrun : Transition.run step start ops = some s) : s.Delivered := by
  have hstep : ∀ (s : Timers K) op s', s.Sound ∧ s.Serves → Unshared s op ∧ Unblocked s op →
      step s op = some s' → s'.Sound ∧ s'.Serves :=
    fun _ _ _ h hop hstep => ⟨h.1.step hop.1 hstep, h.2.step h.1 hop.2 hstep⟩
  have hkept := Transition.invariant_of_always hstep ⟨sound_start, serves_start⟩ hops hrun
  exact hkept.2.delivered hkept.1

instance (s : Timers K) : (op : TimerOp K) → Decidable (Unshared s op)
  | .destroy _ => inferInstanceAs (Decidable (_ → _))
  | .pushEvent _ _ _ => inferInstanceAs (Decidable True)
  | .proc _ _ _ => inferInstanceAs (Decidable True)
  | .next => inferInstanceAs (Decidable True)

instance (s : Timers K) : (op : TimerOp K) → Decidable (Unblocked s op)
  | .next => inferInstanceAs (Decidable (∀ p ∈ s.proc, ∀ entry ∈ (s.events p.queue).head?, _))
  | .pushEvent _ _ _ => inferInstanceAs (Decidable True)
  | .destroy _ => inferInstanceAs (Decidable True)
  | .proc _ _ _ => inferInstanceAs (Decidable True)

/-- Two events of one key, one destroyed behind them, and one pushed by the first `Tick`. -/
def tickSteps : List (TimerOp Nat) :=
  [.pushEvent 0 3 0, .pushEvent 0 2 1, .pushEvent 0 2 2, .pushEvent 0 8 3, .destroy 3,
    .proc 0 4 5, .next, .pushEvent 0 6 1, .next, .next, .next]

theorem proc_delivers_ticks :
    ∃ s, Transition.run step start tickSteps = some s ∧ s.firedNodes = [1, 2, 0] ∧
      s.Delivered := by
  obtain ⟨s, hrun, hnodes⟩ : ∃ s : Timers Nat, Transition.run step start tickSteps = some s ∧
      s.firedNodes = [1, 2, 0] := ⟨_, rfl, rfl⟩
  exact ⟨s, hrun, hnodes, proc_delivers (by decide) hrun⟩

/-- The entry of a destroyed event stays at the front, and the due entry behind it is not
reached by any number of iterations. -/
theorem blocked_by_destroyed :
    ∃ s : Timers Nat, Transition.run step start
        [.pushEvent 0 1 0, .pushEvent 0 2 1, .destroy 0, .proc 0 2 9, .next, .next] = some s ∧
      (∃ p s', s.proc = some p ∧ p.covers = true ∧ s.step .next = some s' ∧ s'.proc = none ∧
        ∃ entry ∈ s'.events p.queue, entry.first ≤ p.now ∧ s'.alive entry.event = true) :=
  ⟨_, rfl, _, _, rfl, rfl, rfl, rfl, ⟨2, some 1, 1, 1⟩,
    List.mem_cons_of_mem _ (List.mem_singleton.mpr rfl), by decide, rfl⟩

end Timers
