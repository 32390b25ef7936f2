import FxLib.Lib.Replica
import FxLib.WebGame.PlayerBinding
import FxLib.WebGame.TetrisData

/-!
# The other clients replay the server

What a request does to the Tetris of a player on the server goes out to the other clients, which do
it again in their `TetrisData` of that player. A block that drops by itself while its player is
away is a request like any other. `NotifyPlayer` sends one copy of a message for each role that a
session has entered as, and does not look at what `Send` answers.
-/

namespace WebGame

namespace Observer

open Replica (Link Label)

/-- A request with the scene that it finds, and what the observer's connection answers to the calls
of `Send` that come of it. -/
structure Command where
  request : TetrisRequest
  rand : Rand
  scene : GameScene
  takes : Nat → Bool

section Notifications

variable (qwPlayerId : PlayerId) (session : Nat)

/-- The sessions that a message about the player is sent to. -/
def receivers (scene : GameScene) : TetrisSent → List Nat
  | .notifyPlayer _ => scene.notifyPlayer
  | .notifyPlayerExcept _ => scene.notifyPlayerExcept qwPlayerId

/-- What `Send` is called with on the session. -/
def sends (scene : GameScene) (sent : List TetrisSent) : List TetrisNotify :=
  sent.flatMap fun m =>
    ((receivers qwPlayerId scene m).filter (· = session)).map fun _ => m.toOther

/-- What its connection takes of that: nobody looks at what `Send` answers. -/
def taken (scene : GameScene) (takes : Nat → Bool) (sent : List TetrisSent) :
    List TetrisNotify :=
  ((sends qwPlayerId session scene sent).zipIdx.filter fun m => takes m.2).map Prod.fst

/-- The server, with the messages that the observer gets. -/
def serve (server : TetrisBase) (c : Command) : TetrisBase × List TetrisNotify :=
  ((server.onRequest c.request c.rand).1,
    taken qwPlayerId session c.scene c.takes (server.onRequest c.request c.rand).2)

abbrev step := Replica.step (serve qwPlayerId session) TetrisData.onNotify

/-- `Init` has been called and its message is on its way to a client that has `d`. -/
def start (scene : GameScene) (takes : Nat → Bool) (rand rand' : Rand) (d : TetrisData) :
    Link TetrisBase TetrisData TetrisNotify :=
  ⟨(TetrisBase.init rand rand').1, d,
    taken qwPlayerId session scene takes (TetrisBase.init rand rand').2⟩

/-- The session belongs to one role of the scene, which is not the player's, and its connection
takes what it is sent. -/
structure Once (scene : GameScene) (takes : Nat → Bool) : Prop where
  everybody : scene.notifyPlayer.count session = 1
  others : (scene.notifyPlayerExcept qwPlayerId).count session = 1
  takes : ∀ n, takes n = true

/-- Each message of the requests reaches the observer once. -/
def ReachedOnce (labels : List (Label Command)) : Prop :=
  ∀ c, .command c ∈ labels → Once qwPlayerId session c.scene c.takes

end Notifications

/-- Every cell of the block has its colour on the board already. -/
def Settled (s : TetrisBase) : Prop :=
  ∀ u ∈ units, g_dwTetrisTable.blockInfo s.oCurrentTetris u.1 u.2 ≠ 0 →
    s.dwTetrisPools.get (s.oCurrentTetris.dwPosY - tetrisUnit + u.1)
      (s.oCurrentTetris.dwPosX + u.2) = s.oCurrentTetris.dwTetrisColor

instance (s : TetrisBase) : Decidable (Settled s) := inferInstanceAs (Decidable (∀ u ∈ units, _))

/-- A player that dies leaves nothing new on the board. -/
def Lives (l : Link TetrisBase TetrisData TetrisNotify) : Label Command → Prop
  | .command c => c.request = .move .down → l.primary.Dies → Settled l.primary
  | .deliver => True

instance (l : Link TetrisBase TetrisData TetrisNotify) :
    (label : Label Command) → Decidable (Lives l label)
  | .command _ => inferInstanceAs (Decidable (_ → _ → _))
  | .deliver => inferInstanceAs (Decidable True)

variable {s : TetrisBase} {rand : Rand}

/-! ### What is mirrored -/

theorem get_of_hits (pool : TetrisPool) {t : Tetris} {i : Fin rowNum} {j : Fin columnNum}
    {u : Nat × Nat} (hits : TetrisPool.Hits g_dwTetrisTable t i j u) :
    pool.get (t.dwPosY - tetrisUnit + u.1) (t.dwPosX + u.2) = pool i j := by
  rw [← hits.2.1, ← hits.2.2, TetrisPool.get_fin]

/-- To lock the block changes nothing if and only if the board has it already. -/
theorem locked_eq_iff (hfits : s.Fits) : s.locked = s.dwTetrisPools ↔ Settled s := by
  constructor
  · intro heq u hu hne
    obtain ⟨⟨hrow, hrow'⟩, hcol, hcol'⟩ := hfits.current.inside u hu hne
    have hits : TetrisPool.Hits g_dwTetrisTable s.oCurrentTetris
        ⟨(s.oCurrentTetris.dwPosY - tetrisUnit + u.1).toNat, (Int.toNat_lt hrow).mpr hrow'⟩
        ⟨(s.oCurrentTetris.dwPosX + u.2).toNat, (Int.toNat_lt hcol).mpr hcol'⟩ u :=
      ⟨hne, Int.toNat_of_nonneg hrow, Int.toNat_of_nonneg hcol⟩
    rw [get_of_hits _ hits, ← heq, TetrisBase.locked, TetrisPool.lock_apply, if_pos ⟨u, hu, hits⟩]
  · intro hsettled
    funext i j
    rw [TetrisBase.locked, TetrisPool.lock_apply]
    by_cases hcovered : ∃ u ∈ units, TetrisPool.Hits g_dwTetrisTable s.oCurrentTetris i j u
    · rw [if_pos hcovered]
      obtain ⟨u, hu, hits⟩ := hcovered
      rw [← get_of_hits s.dwTetrisPools hits]
      exact (hsettled u hu hits.1).symm
    · rw [if_neg hcovered]

variable {qwPlayerId : PlayerId} {session : Nat} {scene : GameScene} {takes : Nat → Bool}

/-- One role means one call of `Send` for each message, and each is taken. -/
theorem taken_of_once (h : Once qwPlayerId session scene takes) (sent : List TetrisSent) :
    taken qwPlayerId session scene takes sent = sent.map TetrisSent.toOther := by
  have hone : ∀ m, (receivers qwPlayerId scene m).filter (· = session) = [session] := by
    intro m
    have hcount : (receivers qwPlayerId scene m).count session = 1 := by
      cases m with
      | notifyPlayer msg => exact h.everybody
      | notifyPlayerExcept msg => exact h.others
    rw [List.filter_eq, hcount]
    rfl
  have hsends : sends qwPlayerId session scene sent = sent.map TetrisSent.toOther := by
    rw [sends, List.map_eq_flatMap]
    refine List.flatMap_congr fun m _ => ?_
    rw [hone m]
    rfl
  rw [taken, hsends]
  simp [h.takes]

abbrev Mirrors (qwPlayerId : PlayerId) (session : Nat) :=
  Replica.Mirrors (serve qwPlayerId session) TetrisData.onNotify TetrisBase.view

theorem serve_of_once {c : Command} (h : Once qwPlayerId session c.scene c.takes)
    (s : TetrisBase) : serve qwPlayerId session s c =
      ((s.onRequest c.request c.rand).1, (s.onRequest c.request c.rand).2.map TetrisSent.toOther) :=
  congrArg (Prod.mk _) (taken_of_once h _)

theorem mirrors_of_lives {c : Command} (honce : Once qwPlayerId session c.scene c.takes)
    (h : ¬(c.request = .move .down ∧ s.Dies)) : Mirrors qwPlayerId session s c := by
  rw [Mirrors, Replica.Mirrors, serve_of_once honce]
  cases s.served c.request c.rand with
  | refused hserver =>
    rw [hserver]
    rfl
  | moved s' hserver hclient =>
    rw [hserver, Replica.Current]
    have hcopy := s.view.onNotify_notify c.request
    rw [hclient] at hcopy
    exact hcopy
  | died hrequest hdies => exact absurd ⟨hrequest, hdies⟩ h
  | locked _ hserver hclient =>
    rw [hserver, Replica.Current]
    have hcopy := s.view.onNotify_notify c.request
    rw [hclient] at hcopy
    simp only [List.map_cons, List.map_nil, List.foldl_cons, List.foldl_nil, TetrisSent.toOther]
    rw [hcopy]
    rfl

/-- The death of a player goes out without what it did to the board. -/
theorem mirrors_of_dies {c : Command} (honce : Once qwPlayerId session c.scene c.takes)
    (hfits : s.Fits) (hdown : c.request = .move .down) (h : s.Dies) :
    Mirrors qwPlayerId session s c ↔ Settled s := by
  rw [Mirrors, Replica.Mirrors, serve_of_once honce, hdown]
  have hserver : s.onRequest (.move .down) c.rand =
      ({ s with dwTetrisPools := s.locked }, [.notifyPlayer .dead]) :=
    (if_neg (by simp [h.1])).trans (if_pos h.2)
  rw [hserver, ← locked_eq_iff hfits]
  constructor
  · intro hcopy
    exact (congrArg TetrisData.dwTetrisPool hcopy).symm
  · intro heq
    rw [heq]
    rfl

theorem mirrors_iff (hfits : s.Fits) {c : Command}
    (honce : Once qwPlayerId session c.scene c.takes) : Mirrors qwPlayerId session s c ↔
      (c.request = .move .down → s.Dies → Settled s) := by
  by_cases h : c.request = .move .down ∧ s.Dies
  · rw [mirrors_of_dies honce hfits h.1 h.2]
    exact ⟨fun hsettled _ _ => hsettled, fun hall => hall h.1 h.2⟩
  · exact iff_of_true (mirrors_of_lives honce h) fun hrequest hdies => absurd ⟨hrequest, hdies⟩ h

/-! ### Runs -/

theorem start_current_iff (h : Once qwPlayerId session scene takes) (rand rand' : Rand)
    (d : TetrisData) :
    (start qwPlayerId session scene takes rand rand' d).Current TetrisData.onNotify
        TetrisBase.view ↔ d.oCurrentTetris.isSome = true ∧ d.oNextTetris.isSome = true := by
  rw [start, taken_of_once h]
  exact TetrisBase.sync_eq_view_iff.trans (and_iff_right rfl)

theorem fits_step (l : Link TetrisBase TetrisData TetrisNotify) (label : Label Command)
    (l' : Link TetrisBase TetrisData TetrisNotify) (h : l.primary.Fits)
    (hstep : step qwPlayerId session l label = some l') : l'.primary.Fits := by
  cases label with
  | command c =>
    obtain rfl := Option.some.inj hstep
    exact h.onRequest c.request c.rand
  | deliver =>
    rw [step, Replica.step] at hstep
    cases hflight : l.flight with
    | nil => simp [hflight] at hstep
    | cons m flight =>
      simp only [hflight, Option.some.injEq] at hstep
      subst hstep
      exact h

/-- In every state of the run and whatever comes then, the copy is what the server has when nothing
is on its way. -/
def Replays (qwPlayerId : PlayerId) (session : Nat) (l : Link TetrisBase TetrisData TetrisNotify)
    (labels : List (Label Command)) : Prop :=
  ∀ labels' m, labels' <+: labels →
    Transition.run (step qwPlayerId session) l labels' = some m →
    ∀ k m', Transition.run (step qwPlayerId session) m (List.replicate k .deliver) = some m' →
      m'.flight = [] → m'.copy = m'.primary.view

theorem replays_iff_current {l : Link TetrisBase TetrisData TetrisNotify}
    {labels : List (Label Command)} : Replays qwPlayerId session l labels ↔
      ∀ labels' m, labels' <+: labels →
        Transition.run (step qwPlayerId session) l labels' = some m →
          m.Current TetrisData.onNotify TetrisBase.view := by
  refine forall_congr' fun labels' => forall_congr' fun m => ?_
  exact imp_congr_right fun _ => imp_congr_right fun _ =>
    (Replica.current_iff_delivered (serve qwPlayerId session)).symm

/-- Whether every request of a run is mirrored is a matter of the deaths alone. -/
theorem always_good_iff_lives {l : Link TetrisBase TetrisData TetrisNotify}
    {labels : List (Label Command)} (honce : ReachedOnce qwPlayerId session labels)
    (hfits : l.primary.Fits) :
    Transition.Always (step qwPlayerId session)
        (Replica.Good (serve qwPlayerId session) TetrisData.onNotify TetrisBase.view) l labels ↔
      Transition.Always (step qwPlayerId session) Lives l labels := by
  have hiff : ∀ (l : Link TetrisBase TetrisData TetrisNotify) (label : Label Command),
      l.primary.Fits → (∀ c, label = .command c → Once qwPlayerId session c.scene c.takes) →
        (Replica.Good (serve qwPlayerId session) TetrisData.onNotify TetrisBase.view l label ↔
          Lives l label) := by
    intro l label hfits honce
    cases label with
    | command c => exact mirrors_iff hfits (honce c rfl)
    | deliver => exact Iff.rfl
  have hlabels : ∀ label ∈ labels, ∀ c, label = .command c →
      Once qwPlayerId session c.scene c.takes := by
    rintro _ hlabel c rfl
    exact honce c hlabel
  exact Transition.always_iff_of_labels (fun l => l.primary.Fits) hiff
    (fun l label l' hl _ hstep => fits_step l label l' hl hstep) hlabels hfits

/-- An observer that is reached once by every message replays the server if and only if it has the
two blocks when `Init` comes and the player does not die with something new on the board. -/
theorem replays_iff_lives {rand rand' : Rand} {d : TetrisData} {labels : List (Label Command)}
    {l : Link TetrisBase TetrisData TetrisNotify} (hinit : Once qwPlayerId session scene takes)
    (honce : ReachedOnce qwPlayerId session labels)
    (hrun : Transition.run (step qwPlayerId session)
      (start qwPlayerId session scene takes rand rand' d) labels = some l) :
    Replays qwPlayerId session (start qwPlayerId session scene takes rand rand' d) labels ↔
      (d.oCurrentTetris.isSome = true ∧ d.oNextTetris.isSome = true) ∧
        Transition.Always (step qwPlayerId session) Lives
          (start qwPlayerId session scene takes rand rand' d) labels := by
  rw [replays_iff_current, ← start_current_iff hinit rand rand' d,
    ← always_good_iff_lives honce (TetrisBase.fits_init rand rand')]
  constructor
  · intro hall
    have hstart := hall [] _ List.nil_prefix rfl
    exact ⟨hstart, (Replica.current_iff_mirrors hstart hrun).mp hall⟩
  · rintro ⟨hstart, halways⟩
    exact (Replica.current_iff_mirrors hstart hrun).mpr halways

/-- Players 7 and 9, each with a session of its own. -/
def two : GameScene :=
  { GameScene.init [7, 9] with
    mapPlayers := fun p => if p = 7 then some (some 0) else if p = 9 then some (some 1) else none }

theorem once_two : Once 7 1 two fun _ => true :=
  ⟨by decide +kernel, by decide +kernel, fun _ => rfl⟩

def long : Rand := ⟨0, 0, 0⟩

/-- A request of player 7, whose messages all arrive. -/
def request (request : TetrisRequest) : Command := ⟨request, long, two, fun _ => true⟩

theorem replays_iff_lives_left :
    Replays 7 1 (start 7 1 two (fun _ => true) long long TetrisData.new)
        [.deliver, .command (request (.move .left))] ↔
      (TetrisData.new.oCurrentTetris.isSome = true ∧ TetrisData.new.oNextTetris.isSome = true) ∧
        Transition.Always (step 7 1) Lives
          (start 7 1 two (fun _ => true) long long TetrisData.new)
          [.deliver, .command (request (.move .left))] := by
  refine replays_iff_lives once_two ?_ rfl
  intro c hc
  obtain rfl : c = request (.move .left) := by simpa using hc
  exact once_two

/-! ### A game with nothing but long blocks -/

/-- With `k` of them on top of each other, and the next one down to the row `dwPosY`. -/
def tower (k dwPosY : Nat) : TetrisBase :=
  ⟨fun i j => if j.val = 5 ∧ 22 ≤ i.val + 4 * k then 0xFF000000 else 0,
    { newTetris long with dwPosY := dwPosY }, newTetris long⟩

def drop (s : TetrisBase) (n : Nat) : TetrisBase :=
  (Replica.applyAll (serve 7 1) s (List.replicate n (request (.move .down)))).1

theorem drop_succ (s : TetrisBase) (n : Nat) : drop s (n + 1) = ((drop s n).downTetris long).1 := by
  rw [drop, List.replicate_succ', Replica.applyAll_concat]
  rfl

theorem drop_add (s : TetrisBase) (m n : Nat) : drop s (m + n) = drop (drop s m) n := by
  induction n with
  | zero => rfl
  | succ n ih => rw [← Nat.add_assoc, drop_succ, drop_succ, ih]

theorem drop_fall {k n : Nat} (hk : k < 5) (hn : 4 * k + n ≤ 18) :
    drop (tower k 4) n = tower k (4 + n) := by
  have hfree : ∀ k < 5, ∀ n < 18, 4 * k + n < 18 →
      (tower k (4 + n)).checkDownTetris = false := by decide +kernel
  induction n with
  | zero => rfl
  | succ n ih =>
    rw [drop_succ, ih (by omega)]
    exact congrArg Prod.fst (if_pos (hfree k hk n (by omega) (by omega)))

theorem drop_land {k : Nat} (hk : k < 5) :
    ((tower k (22 - 4 * k)).downTetris long).1 = tower (k + 1) 4 := by
  have hlands : ∀ k < 5, (tower k (22 - 4 * k)).checkDownTetris = true ∧
      ¬ (tower k (22 - 4 * k)).oCurrentTetris.dwPosY ≤ tetrisUnit ∧
        (∀ i j, (tower k (22 - 4 * k)).locked i j = (tower (k + 1) 4).dwTetrisPools i j) ∧
          (tower (k + 1) 4).dwTetrisPools.checkErase = none := by decide +kernel
  obtain ⟨hlock, hpos, hlocked, hnone⟩ := hlands k hk
  have hboard : (tower k (22 - 4 * k)).locked = (tower (k + 1) 4).dwTetrisPools :=
    funext fun i => funext fun j => hlocked i j
  have hlands : ((tower k (22 - 4 * k)).downTetris long).1 =
      ⟨(tower k (22 - 4 * k)).locked.eraseRows, newTetris long, newTetris long⟩ :=
    congrArg Prod.fst ((if_neg (by simp [hlock])).trans (if_neg hpos))
  rw [hlands, hboard, TetrisPool.eraseRows_of_none hnone]
  rfl

/-- The fifth block comes to lie in the row 6, and the sixth one cannot move. -/
theorem drop_tower : drop (tower 0 4) 55 = tower 5 4 := by
  have hnext : ∀ k < 5, drop (tower k 4) (19 - 4 * k) = tower (k + 1) 4 := by
    intro k hk
    have hsplit : 19 - 4 * k = (18 - 4 * k) + 1 := by omega
    rw [hsplit, drop_succ, drop_fall hk (by omega), show 4 + (18 - 4 * k) = 22 - 4 * k by omega]
    exact drop_land hk
  rw [show 55 = 19 + 15 + 11 + 7 + 3 by rfl, drop_add, drop_add, drop_add, drop_add,
    show drop (tower 0 4) 19 = tower 1 4 from hnext 0 (by decide),
    show drop (tower 1 4) 15 = tower 2 4 from hnext 1 (by decide),
    show drop (tower 2 4) 11 = tower 3 4 from hnext 2 (by decide),
    show drop (tower 3 4) 7 = tower 4 4 from hnext 3 (by decide)]
  exact hnext 4 (by decide)

theorem init_long : (TetrisBase.init long long).1 = tower 0 4 := by
  have hempty : (fun _ _ => 0 : TetrisPool) = (tower 0 4).dwTetrisPools := by
    funext i j
    have hrow : (i : Nat) < 22 := i.isLt
    exact (if_neg (by omega)).symm
  rw [TetrisBase.init, hempty]
  rfl

theorem dies_tower : (tower 5 4).Dies ∧ ¬ Settled (tower 5 4) := by decide +kernel

theorem fits_tower (k : Nat) : (tower k 4).Fits :=
  ⟨TetrisBase.newTetris_fits long, TetrisBase.newTetris_fits long⟩

/-- Five long blocks on top of each other, and a sixth one on which the player dies. -/
theorem not_replays_of_death :
    ¬ ∀ (rand rand' : Rand) (labels : List (Label Command))
      (l : Link TetrisBase TetrisData TetrisNotify), ReachedOnce 7 1 labels →
      Transition.run (step 7 1) (start 7 1 two (fun _ => true) rand rand' TetrisData.new) labels =
        some l → l.flight = [] → l.copy = l.primary.view := by
  intro hall
  have hcurrent : ∀ labels l, ReachedOnce 7 1 labels →
      Transition.run (step 7 1) (start 7 1 two (fun _ => true) long long TetrisData.new) labels =
        some l → l.Current TetrisData.onNotify TetrisBase.view := by
    intro labels l honce hl
    refine (Replica.current_iff_delivered (serve 7 1)).mpr fun k m hm => ?_
    refine hall long long (labels ++ List.replicate k .deliver) m ?_ ?_
    · intro c hc
      rcases List.mem_append.mp hc with hold | hnew
      · exact honce c hold
      · cases List.eq_of_mem_replicate hnew
    · rw [Transition.run_append, hl]
      exact hm
  have hreached : ∀ n, ReachedOnce 7 1
      ((List.replicate n (request (.move .down))).map Label.command) := by
    intro n c hc
    obtain ⟨c', hc', hcc'⟩ := List.mem_map.mp hc
    obtain rfl := Label.command.inj hcc'
    rw [List.eq_of_mem_replicate hc']
    exact once_two
  -- the state after 55 drops, and the one after the drop in which the player dies
  have hrun := Replica.run_command (serve 7 1) TetrisData.onNotify
    (start 7 1 two (fun _ => true) long long TetrisData.new)
    (List.replicate 55 (request (.move .down)))
  have hprimary : (Replica.applyAll (serve 7 1)
      (start 7 1 two (fun _ => true) long long TetrisData.new).primary
      (List.replicate 55 (request (.move .down)))).1 = tower 5 4 := by
    rw [← drop_tower, ← init_long]
    rfl
  rw [hprimary] at hrun
  have hbefore := hcurrent _ _ (hreached 55) hrun
  have hafter := hcurrent _ _ (hreached 56) (by
    rw [List.replicate_succ', List.map_append, Transition.run_append, hrun]
    rfl)
  have hmirrors : Mirrors 7 1 (tower 5 4) (request (.move .down)) :=
    (Replica.Current.apply_iff hbefore).mp hafter
  exact dies_tower.2
    ((mirrors_of_dies once_two (fits_tower 5) rfl dies_tower.1).mp hmirrors)

end Observer

end WebGame
