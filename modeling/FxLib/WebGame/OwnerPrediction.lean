import FxLib.Lib.Replica
import FxLib.WebGame.TetrisData

/-!
# The client of a player runs ahead of the server

A player's own client executes an operation at once and requests it from the server. After a block
has been locked it waits until the server says which block comes next. The requests are on their
way in one direction, the messages about the player's own Tetris in the other, both in order.
-/

namespace WebGame

structure Owner where
  client : TetrisData
  server : TetrisBase
  requests : List TetrisRequest
  notifies : List TetrisNotify

namespace Owner

inductive Label where
  | operate (request : TetrisRequest)
  | process (rand : Rand)
  | deliver

def step (s : Owner) : Label → Option Owner
  | .operate request =>
    let (client, sent) := UserTetrisData.operate s.client request
    some { s with client := client, requests := s.requests ++ sent.toList }
  | .process rand =>
    match s.requests with
    | [] => none
    | request :: requests =>
      let (server, sent) := s.server.onRequest request rand
      some { s with
        server := server
        requests := requests
        notifies := s.notifies ++ sent.filterMap TetrisSent.toOwner }
  | .deliver =>
    match s.notifies with
    | [] => none
    | msg :: notifies =>
      let (client, sent) := UserTetrisData.onNotify s.client msg
      some { s with
        client := client
        requests := s.requests ++ sent.toList
        notifies := notifies }

/-- The client and the server have the same state, and nothing is on its way. -/
def start (server : TetrisBase) : Owner := ⟨server.view, server, [], []⟩

/-- The server, with the messages that its own player gets. -/
def serve (server : TetrisBase) (c : TetrisRequest × Rand) : TetrisBase × List TetrisNotify :=
  ((server.onRequest c.1 c.2).1, (server.onRequest c.1 c.2).2.filterMap TetrisSent.toOwner)

/-- What the server will be after the requests on their way, `cs` being these with the results that
`rand` will have. -/
def after (s : Owner) (cs : List (TetrisRequest × Rand)) : TetrisBase :=
  (Replica.applyAll serve s.server cs).1

/-- The client agrees with the server when nothing is on its way; until then it is what the server
will be, but for a next block that it waits for; and while it waits it does nothing. -/
structure Agrees (s : Owner) : Prop where
  quiet : s.requests = [] → s.notifies = [] → s.client = s.server.view
  ahead : ∀ cs : List (TetrisRequest × Rand), cs.map Prod.fst = s.requests →
    s.client.dwTetrisPool = (s.after cs).dwTetrisPools ∧
      s.client.oCurrentTetris = some (s.after cs).oCurrentTetris ∧
        (s.client.oNextTetris = none ∨ s.client.oNextTetris = some (s.after cs).oNextTetris)
  waits : s.client.oNextTetris = none → ∀ request, s.step (.operate request) = some s
  inRange : s.server.Fits ∧ ∀ t, s.client.oCurrentTetris = some t → t.Fits s_dwTetrisTable

/-- The next blocks that messages bring. -/
def nexts (mail : List TetrisNotify) : List TetrisInfo :=
  mail.filterMap fun
    | .nextTetris nextTetris => some nextTetris
    | _ => none

/-- The client next to the server as it will be, with the messages that there will be for it. -/
inductive Ahead (d : TetrisData) (s : TetrisBase) (mail : List TetrisNotify) : Prop
  | level (hmail : nexts mail = []) (hclient : d = s.view)
  | waiting (t : TetrisInfo) (hmail : nexts mail = [t]) (hnext : .init t = s.oNextTetris)
      (hclient : d = ⟨s.dwTetrisPools, some s.oCurrentTetris, none⟩)

/-- `NotifyPlayer` sends nothing else to a player after `Init`. -/
def Plain (msg : TetrisNotify) : Prop := msg = .dead ∨ ∃ t, msg = .nextTetris t

structure Kept (s : Owner) : Prop where
  ahead : ∀ cs : List (TetrisRequest × Rand), cs.map Prod.fst = s.requests →
    Ahead s.client (s.after cs) (s.notifies ++ (Replica.applyAll serve s.server cs).2)
  plain : ∀ msg ∈ s.notifies, Plain msg
  fits : s.server.Fits

variable {s s' : Owner} {server : TetrisBase} {cs : List (TetrisRequest × Rand)}

theorem kept_start (hfits : server.Fits) : Kept (start server) := by
  constructor
  · intro cs hcs
    obtain rfl := List.map_eq_nil_iff.mp hcs
    exact .level rfl rfl
  · intro msg hmsg
    cases hmsg
  · exact hfits

theorem nexts_append (l l' : List TetrisNotify) : nexts (l ++ l') = nexts l ++ nexts l' :=
  List.filterMap_append

theorem plain_serve (server : TetrisBase) (c : TetrisRequest × Rand) :
    ∀ msg ∈ (serve server c).2, Plain msg := by
  intro msg hmsg
  rw [serve] at hmsg
  cases server.served c.1 c.2 with
  | refused hserver =>
    rw [hserver] at hmsg
    cases hmsg
  | moved s' hserver =>
    rw [hserver] at hmsg
    cases hmsg
  | died _ _ hserver =>
    rw [hserver] at hmsg
    exact .inl (List.mem_singleton.mp hmsg)
  | locked _ hserver =>
    rw [hserver] at hmsg
    exact .inr ⟨_, List.mem_singleton.mp hmsg⟩

theorem fits_applyAll (hfits : server.Fits) (cs : List (TetrisRequest × Rand)) :
    (Replica.applyAll serve server cs).1.Fits := by
  induction cs generalizing server with
  | nil => exact hfits
  | cons c cs ih => exact ih (hfits.onRequest c.1 c.2)

/-- An operation of a client that is ahead of the server as the server will serve it. -/
theorem Ahead.operate {d d' : TetrisData} {mail : List TetrisNotify} (h : Ahead d server mail)
    {request : TetrisRequest} {sent : Option TetrisRequest}
    (hop : UserTetrisData.operate d request = (d', sent)) (rand : Rand) :
    (sent = none ∧ d' = d) ∨ (sent = some request ∧
      Ahead d' (serve server (request, rand)).1 (mail ++ (serve server (request, rand)).2)) := by
  cases h with
  | waiting t hmail hnext hclient =>
    rw [UserTetrisData.operate_of_waiting (by rw [hclient])] at hop
    obtain ⟨rfl, rfl⟩ := Prod.mk.inj hop
    exact .inl ⟨rfl, rfl⟩
  | level hmail hclient =>
    subst hclient
    rw [serve]
    cases server.served request rand with
    | refused hserver hdone =>
      rw [TetrisBase.operate_view_of_refused hdone] at hop
      obtain ⟨rfl, rfl⟩ := Prod.mk.inj hop
      exact .inl ⟨rfl, rfl⟩
    | moved s' hserver hdone =>
      rw [TetrisBase.operate_view_of_done hdone] at hop
      obtain ⟨rfl, rfl⟩ := Prod.mk.inj hop
      rw [hserver]
      refine .inr ⟨rfl, .level ?_ rfl⟩
      rw [nexts_append, hmail]
      rfl
    | died _ _ hserver hdone =>
      rw [TetrisBase.operate_view_of_done hdone] at hop
      obtain ⟨rfl, rfl⟩ := Prod.mk.inj hop
      rw [hserver]
      refine .inr ⟨rfl, .level ?_ rfl⟩
      rw [nexts_append, hmail]
      rfl
    | locked _ hserver hdone =>
      rw [TetrisBase.operate_view_of_done hdone] at hop
      obtain ⟨rfl, rfl⟩ := Prod.mk.inj hop
      rw [hserver]
      refine .inr ⟨rfl, .waiting (newTetris rand).fillTetris ?_ rfl rfl⟩
      rw [nexts_append, hmail]
      rfl

theorem Kept.operate (h : Kept s) {request : TetrisRequest}
    (hstep : s.step (.operate request) = some s') : Kept s' := by
  rw [Owner.step] at hstep
  obtain ⟨d', sent, hop⟩ : ∃ d' sent, UserTetrisData.operate s.client request = (d', sent) :=
    ⟨_, _, rfl⟩
  rw [hop] at hstep
  obtain rfl := Option.some.inj hstep
  refine ⟨fun cs' hcs' => ?_, h.plain, h.fits⟩
  cases sent with
  | none =>
    have hcs : cs'.map Prod.fst = s.requests := by simpa using hcs'
    rcases (h.ahead cs' hcs).operate hop ⟨0, 0, 0⟩ with ⟨-, rfl⟩ | ⟨hsent, -⟩
    · exact h.ahead cs' hcs
    · cases hsent
  | some sent =>
    -- the last of the requests is the new one
    obtain ⟨cs, c, rfl, hcs, hc⟩ : ∃ cs c, cs' = cs ++ [c] ∧ cs.map Prod.fst = s.requests ∧
        c.1 = sent := by
      obtain ⟨cs, last, rfl, hcs, hlast⟩ := List.map_eq_append_iff.mp hcs'
      obtain ⟨c, rfl, hc⟩ := List.map_eq_singleton_iff.mp hlast
      exact ⟨cs, c, rfl, hcs, hc⟩
    rcases (h.ahead cs hcs).operate hop c.2 with ⟨hsent, -⟩ | ⟨hsent, hahead⟩
    · cases hsent
    · obtain rfl := Option.some.inj hsent
      rw [after, Replica.applyAll_concat, ← List.append_assoc]
      rw [← hc] at hahead
      exact hahead

theorem Kept.process (h : Kept s) {rand : Rand} (hstep : s.step (.process rand) = some s') :
    Kept s' := by
  rw [Owner.step] at hstep
  cases hrequests : s.requests with
  | nil => simp [hrequests] at hstep
  | cons request requests =>
    simp only [hrequests, Option.some.injEq] at hstep
    subst hstep
    constructor
    · intro cs hcs
      have hahead := h.ahead ((request, rand) :: cs) (by
        rw [List.map_cons, hrequests]
        exact congrArg _ hcs)
      rw [after, Replica.applyAll, ← List.append_assoc] at hahead
      exact hahead
    · intro msg hmsg
      rcases List.mem_append.mp hmsg with hmsg | hmsg
      · exact h.plain msg hmsg
      · exact plain_serve s.server (request, rand) msg hmsg
    · exact h.fits.onRequest request rand

/-- A message takes the client on to what was ahead of it. -/
theorem Ahead.onNotify {d : TetrisData} {msg : TetrisNotify} {mail : List TetrisNotify}
    (h : Ahead d server (msg :: mail)) (hplain : Plain msg) :
    (UserTetrisData.onNotify d msg).2 = none ∧
      Ahead (UserTetrisData.onNotify d msg).1 server mail := by
  rcases hplain with rfl | ⟨t, rfl⟩
  · refine ⟨rfl, ?_⟩
    cases h with
    | level hmail hclient => exact .level hmail hclient
    | waiting t hmail hnext hclient => exact .waiting t hmail hnext hclient
  · refine ⟨rfl, ?_⟩
    cases h with
    | level hmail hclient => cases hmail
    | waiting t' hmail hnext hclient =>
      obtain ⟨rfl, hrest⟩ := List.cons.inj hmail
      refine .level hrest ?_
      rw [hclient, TetrisBase.view, ← hnext]
      rfl

theorem Kept.deliver (h : Kept s) (hstep : s.step .deliver = some s') : Kept s' := by
  rw [Owner.step] at hstep
  cases hnotifies : s.notifies with
  | nil => simp [hnotifies] at hstep
  | cons msg notifies =>
    simp only [hnotifies, Option.some.injEq] at hstep
    have hplain := h.plain msg (by rw [hnotifies]; exact List.mem_cons_self)
    have hsent : (UserTetrisData.onNotify s.client msg).2 = none := by
      rcases hplain with rfl | ⟨t, rfl⟩
      · rfl
      · rfl
    subst hstep
    constructor
    · intro cs hcs
      rw [hsent, Option.toList_none, List.append_nil] at hcs
      have hahead := h.ahead cs hcs
      rw [hnotifies] at hahead
      exact (hahead.onNotify hplain).2
    · intro msg' hmsg'
      exact h.plain msg' (by rw [hnotifies]; exact List.mem_cons_of_mem _ hmsg')
    · exact h.fits

theorem Kept.step (h : Kept s) {l : Label} (hstep : s.step l = some s') : Kept s' := by
  cases l with
  | operate request => exact h.operate hstep
  | process rand => exact h.process hstep
  | deliver => exact h.deliver hstep

theorem Kept.agrees (h : Kept s) : s.Agrees := by
  constructor
  · intro hrequests hnotifies
    have hahead := h.ahead [] (by rw [hrequests]; rfl)
    rw [hnotifies] at hahead
    cases hahead with
    | level _ hclient => exact hclient
    | waiting t hmail => cases hmail
  · intro cs hcs
    cases h.ahead cs hcs with
    | level _ hclient =>
      rw [hclient]
      exact ⟨rfl, rfl, .inr rfl⟩
    | waiting t _ _ hclient =>
      rw [hclient]
      exact ⟨rfl, rfl, .inl rfl⟩
  · intro hwaiting request
    rw [Owner.step, UserTetrisData.operate_of_waiting hwaiting]
    simp
  · refine ⟨h.fits, fun t ht => ?_⟩
    -- any results of `rand` will do
    have hcs : (s.requests.map fun request => (request, Rand.mk 0 0 0)).map Prod.fst =
        s.requests := by
      rw [List.map_map]
      exact List.map_id _
    have hfits := fits_applyAll h.fits (s.requests.map fun request => (request, Rand.mk 0 0 0))
    cases h.ahead _ hcs with
    | level _ hclient =>
      rw [hclient] at ht
      obtain rfl := Option.some.inj ht
      exact hfits.current
    | waiting t _ _ hclient =>
      rw [hclient] at ht
      obtain rfl := Option.some.inj ht
      exact hfits.current

/-- The client of a player agrees with the server in every run. -/
theorem prediction_agrees (hfits : server.Fits) {l : List Label}
    (hrun : Transition.run step (start server) l = some s) : s.Agrees :=
  (Transition.invariant (fun _ _ _ h hstep => h.step hstep) (kept_start hfits) hrun).agrees

/-- A new game, in which the first block goes one to the left and the server has followed. -/
theorem prediction_agrees_left :
    ∃ s, Transition.run step (start (TetrisBase.init ⟨0, 0, 0⟩ ⟨1, 0, 1⟩).1)
      [.operate (.move .left), .process ⟨0, 0, 0⟩] = some s ∧ s.Agrees := by
  have h : (Transition.run step (start (TetrisBase.init ⟨0, 0, 0⟩ ⟨1, 0, 1⟩).1)
      [.operate (.move .left), .process ⟨0, 0, 0⟩]).isSome = true := by decide +kernel
  obtain ⟨s, hs⟩ := Option.isSome_iff_exists.mp h
  exact ⟨s, hs, prediction_agrees (TetrisBase.fits_init ⟨0, 0, 0⟩ ⟨1, 0, 1⟩) hs⟩

end Owner

end WebGame
