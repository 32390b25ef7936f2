import FxLib.Lib.Slots
import FxLib.Lib.Transition
import FxLib.WebGame.Team

/-!
# The slots of a team

`CTeam` stores who stands where twice: in the array of the slots and in the record of each player.
`ChangeSlot` takes the slot as the client has sent it.
-/

namespace WebGame

namespace CTeam

/-- `m_pPlayerSlots[dwSlotId]`. There is no test of the bound: past the array stands whatever the
memory holds there, which is `behind`. -/
def slotWord (t : CTeam) (behind : PlayerId) (dwSlotId : Nat) : PlayerId :=
  t.pPlayerSlots.getD dwSlotId behind

/-- `ChangeSlot`. What a write past the array destroys is not followed. -/
def changeSlot (t : CTeam) (behind : PlayerId) (qwPlayerId : PlayerId) (dwSlotId : Nat) :
    EErrorCode × CTeam :=
  match t.getTeamRoleData qwPlayerId with
  | none => (.cannotFindPlayer, t)
  | some role =>
    if t.slotWord behind dwSlotId ≠ 0 then (.teamSlotHasPlayer, t)
    else
      (.none, { t with
        pPlayerSlots := (t.pPlayerSlots.set dwSlotId qwPlayerId).set role.dwSlotId 0
        mapPlayers := t.mapPlayers.map fun role =>
          if role.qwPlayerId = qwPlayerId then { role with dwSlotId := dwSlotId } else role })

/-- The slot that the record of a player names. -/
def slotOf (t : CTeam) (qwPlayerId : PlayerId) : Option Nat :=
  (t.getTeamRoleData qwPlayerId).map (·.dwSlotId)

structure Represented (t : CTeam) : Prop where
  slot_iff : Slots.Agree 0 t.pPlayerSlots t.slotOf
  in_range : ∀ role ∈ t.mapPlayers, role.dwSlotId < maxClientNum
  at_most : t.mapPlayers.length ≤ maxClientNum
  leader : t.mapPlayers ≠ [] → t.Has t.qwLeader

structure Sound (t : CTeam) : Prop extends t.Represented where
  slots : t.pPlayerSlots.length = maxClientNum
  nonzero : ¬ t.Has 0

inductive Request where
  | insertIntoTeam (qwPlayerId : PlayerId)
  | kickPlayer (qwPlayerId : PlayerId)
  | changeSlot (qwPlayerId : PlayerId) (dwSlotId : Nat) (behind : PlayerId)
  deriving DecidableEq

/-- Nobody has the id 0. -/
def step (t : CTeam) : Request → Option CTeam
  | .insertIntoTeam qwPlayerId =>
    if qwPlayerId = 0 then none else some (t.insertIntoTeam qwPlayerId).2
  | .kickPlayer qwPlayerId => some (t.kickPlayer qwPlayerId).2
  | .changeSlot qwPlayerId dwSlotId behind => some (t.changeSlot behind qwPlayerId dwSlotId).2

/-- No member goes to a slot that is not there, and a team that has been emptied has no leader but
the player who comes into it. -/
def InBounds (t : CTeam) : Request → Prop
  | .insertIntoTeam qwPlayerId =>
    t.mapPlayers = [] → t.qwLeader = 0 ∨ t.qwLeader = qwPlayerId
  | .kickPlayer _ => True
  | .changeSlot qwPlayerId dwSlotId behind =>
    (t.getTeamRoleData qwPlayerId).isSome → dwSlotId < maxClientNum ∨ behind ≠ 0

instance (t : CTeam) : (r : Request) → Decidable (t.InBounds r)
  | .insertIntoTeam _ => inferInstanceAs (Decidable (_ → _))
  | .kickPlayer _ => inferInstanceAs (Decidable True)
  | .changeSlot .. => inferInstanceAs (Decidable (_ → _))

variable {t : CTeam} {p q : PlayerId} {i : Nat}

theorem has_iff_slotOf : t.Has p ↔ (t.slotOf p).isSome := by
  rw [has_iff_getTeamRoleData, slotOf, Option.isSome_map]

theorem getTeamRoleData_mem {role : TeamRoleData} (h : t.getTeamRoleData p = some role) :
    role ∈ t.mapPlayers ∧ role.qwPlayerId = p :=
  ⟨List.mem_of_find?_eq_some h, by simpa using List.find?_some h⟩

/-- What `InsertIntoTeam` does: nothing, or the player goes to the first slot that is 0. -/
theorem insertIntoTeam_cases (t : CTeam) (p : PlayerId) :
    (t.insertIntoTeam p).2 = t ∧ ((t.insertIntoTeam p).1 = false) ∨
      t.mapPlayers.length < maxClientNum ∧ t.slotOf p = none ∧
        t.pPlayerSlots[t.freeSlot]? = some 0 ∧
        t.insertIntoTeam p = (true, { t with
          pPlayerSlots := t.pPlayerSlots.set t.freeSlot p
          mapPlayers := t.mapPlayers ++ [⟨p, t.freeSlot, 0⟩]
          qwLeader := if t.qwLeader = 0 then p else t.qwLeader }) := by
  rw [insertIntoTeam]
  by_cases hfull : t.mapPlayers.length ≥ maxClientNum
  · rw [if_pos hfull]
    exact .inl ⟨rfl, rfl⟩
  by_cases hhas : (t.getTeamRoleData p).isSome
  · rw [if_neg hfull, if_pos hhas]
    exact .inl ⟨rfl, rfl⟩
  by_cases hfree : t.freeSlot < t.pPlayerSlots.length
  · rw [if_neg hfull, if_neg hhas, if_pos hfree]
    refine .inr ⟨Nat.not_le.mp hfull, ?_, ?_, rfl⟩
    · simpa [slotOf] using hhas
    · have hzero : t.pPlayerSlots[t.freeSlot] = 0 :=
        of_decide_eq_true (List.findIdx_getElem (w := hfree))
      rw [List.getElem?_eq_getElem hfree, hzero]
  · rw [if_neg hfull, if_neg hhas, if_neg hfree]
    exact .inl ⟨rfl, rfl⟩

theorem kickPlayer_cases (t : CTeam) (p : PlayerId) :
    t.getTeamRoleData p = none ∧ t.kickPlayer p = (false, t) ∨
      ∃ role, t.getTeamRoleData p = some role ∧
        t.kickPlayer p = (true, { t with
          pPlayerSlots := t.pPlayerSlots.set role.dwSlotId 0
          mapPlayers := t.mapPlayers.filter (·.qwPlayerId ≠ p)
          qwLeader := ((t.pPlayerSlots.set role.dwSlotId 0).find? (· ≠ 0)).getD t.qwLeader }) := by
  rw [kickPlayer]
  cases h : t.getTeamRoleData p with
  | none => exact .inl ⟨rfl, rfl⟩
  | some role => exact .inr ⟨role, rfl, rfl⟩

theorem changeSlot_cases (t : CTeam) (behind p : PlayerId) (i : Nat) :
    (t.changeSlot behind p i).2 = t ∨
      ∃ role, t.getTeamRoleData p = some role ∧ t.slotWord behind i = 0 ∧
        (t.changeSlot behind p i).2 = { t with
          pPlayerSlots := (t.pPlayerSlots.set i p).set role.dwSlotId 0
          mapPlayers := t.mapPlayers.map fun role =>
            if role.qwPlayerId = p then { role with dwSlotId := i } else role } := by
  rw [changeSlot]
  cases h : t.getTeamRoleData p with
  | none => exact .inl rfl
  | some role =>
    simp only
    split_ifs with hword
    · exact .inl rfl
    · exact .inr ⟨role, rfl, not_not.mp hword, rfl⟩

/-! ### What each request does to the records -/

theorem slotOf_insert (h : t.slotOf p = none) {t' : CTeam}
    (hplayers : t'.mapPlayers = t.mapPlayers ++ [⟨p, i, 0⟩]) :
    t'.slotOf = fun q => if q = p then some i else t.slotOf q := by
  have hnone : t.mapPlayers.find? (·.qwPlayerId = p) = none := by
    simpa [slotOf, getTeamRoleData] using h
  funext q
  rw [slotOf, getTeamRoleData, hplayers, List.find?_append]
  by_cases hq : q = p
  · subst hq
    rw [hnone]
    simp
  · have hne : p ≠ q := Ne.symm hq
    simp [hq, hne, slotOf, getTeamRoleData]

theorem slotOf_kick {t' : CTeam}
    (hplayers : t'.mapPlayers = t.mapPlayers.filter (·.qwPlayerId ≠ p)) :
    t'.slotOf = fun q => if q = p then none else t.slotOf q := by
  funext q
  rw [slotOf, getTeamRoleData, hplayers, List.find?_filter]
  by_cases hq : q = p
  · subst hq
    simp
  · rw [if_neg hq, slotOf, getTeamRoleData]
    congr 2
    funext role
    by_cases hrole : role.qwPlayerId = q
    · simp [hrole, hq]
    · simp [hrole]

theorem slotOf_change {role : TeamRoleData} (hrole : t.getTeamRoleData p = some role) {t' : CTeam}
    (hplayers : t'.mapPlayers = t.mapPlayers.map fun role =>
      if role.qwPlayerId = p then { role with dwSlotId := i } else role) :
    t'.slotOf = fun q => if q = p then some i else t.slotOf q := by
  have hid : ∀ role : TeamRoleData,
      (if role.qwPlayerId = p then { role with dwSlotId := i } else role).qwPlayerId =
        role.qwPlayerId := by
    intro role
    split_ifs
    · rfl
    · rfl
  funext q
  rw [slotOf, getTeamRoleData, hplayers, List.find?_map]
  simp only [Function.comp_def, hid]
  by_cases hq : q = p
  · subst hq
    rw [getTeamRoleData] at hrole
    rw [hrole, if_pos rfl]
    simp [(getTeamRoleData_mem (t := t) hrole).2]
  · rw [if_neg hq, slotOf, getTeamRoleData, Option.map_map]
    cases hfind : t.mapPlayers.find? (·.qwPlayerId = q) with
    | none => rfl
    | some found =>
      have hne : found.qwPlayerId ≠ p := by
        rw [(getTeamRoleData_mem (t := t) hfind).2]
        exact hq
      simp [hne]

theorem has_changeSlot (behind : PlayerId) : (t.changeSlot behind p i).2.Has q ↔ t.Has q := by
  rcases t.changeSlot_cases behind p i with hsame | ⟨role, hrole, -, hchange⟩
  · rw [hsame]
  · rw [has_iff_slotOf, hchange, slotOf_change hrole rfl, has_iff_slotOf]
    by_cases hqp : q = p
    · simp [hqp, slotOf, hrole]
    · simp [hqp]

/-! ### The invariant -/

theorem sound_new (qwTeamId : TeamId) : (new qwTeamId).Sound where
  slot_iff i p hp := by
    have hnone : (new qwTeamId).slotOf p = none := rfl
    rw [hnone]
    constructor
    · intro h
      have hzero : p = 0 := (List.mem_replicate.mp (List.mem_of_getElem? h)).2
      exact absurd hzero hp
    · intro h
      cases h
  in_range := by
    intro role h
    cases h
  at_most := Nat.zero_le _
  leader h := absurd rfl h
  slots := List.length_replicate
  nonzero := not_has_new qwTeamId 0

theorem Sound.ne_zero (h : t.Sound) (hp : t.Has p) : p ≠ 0 := by
  rintro rfl
  exact h.nonzero hp

theorem Sound.insertIntoTeam (h : t.Sound) (hp : p ≠ 0)
    (hempty : t.mapPlayers = [] → t.qwLeader = 0 ∨ t.qwLeader = p) :
    (t.insertIntoTeam p).2.Sound := by
  rcases t.insertIntoTeam_cases p with ⟨hsame, -⟩ | ⟨hroom, hnone, hfree, hinsert⟩
  · rw [hsame]
    exact h
  have hhas : ∀ q, (t.insertIntoTeam p).2.Has q ↔ t.Has q ∨ q = p := fun q =>
    has_insertIntoTeam (by rw [hinsert])
  rw [hinsert] at hhas ⊢
  constructor
  · constructor
    · rw [slotOf_insert hnone rfl]
      exact h.slot_iff.occupy hfree hnone
    · intro role hrole
      rcases List.mem_append.mp hrole with hrole | hrole
      · exact h.in_range role hrole
      · rw [List.mem_singleton.mp hrole, ← h.slots]
        exact (List.getElem?_eq_some_iff.mp hfree).1
    · rw [List.length_append, List.length_singleton]
      exact hroom
    · intro _
      rw [hhas]
      by_cases hzero : t.qwLeader = 0
      · simp [hzero]
      · simp only [hzero, if_false]
        by_cases hnil : t.mapPlayers = []
        · exact .inr ((hempty hnil).resolve_left hzero)
        · exact .inl (h.leader hnil)
  · rw [List.length_set, h.slots]
  · rw [hhas]
    rintro (hzero | hzero)
    · exact h.nonzero hzero
    · exact hp hzero.symm

/-- Whoever has been kicked, the first player of the slots leads the others. -/
theorem Sound.kickPlayer (h : t.Sound) : (t.kickPlayer p).2.Sound := by
  rcases t.kickPlayer_cases p with ⟨-, hkick⟩ | ⟨role, hrole, hkick⟩
  · rw [hkick]
    exact h
  have hhas : ∀ q, (t.kickPlayer p).2.Has q ↔ t.Has q ∧ q ≠ p := fun q => has_kickPlayer
  have hplace : t.slotOf p = some role.dwSlotId := by rw [slotOf, hrole, Option.map_some]
  have hp := h.ne_zero (has_iff_slotOf.mpr (by rw [hplace]; rfl))
  have hslots := h.slot_iff.vacate ((h.slot_iff _ p hp).mpr hplace) hplace
  rw [hkick] at hhas ⊢
  constructor
  · constructor
    · rw [slotOf_kick rfl]
      exact hslots
    · intro role' hrole'
      exact h.in_range role' (List.mem_filter.mp hrole').1
    · exact Nat.le_trans (List.length_filter_le _ _) h.at_most
    · intro hne
      obtain ⟨role', hrole'⟩ := List.exists_mem_of_ne_nil _ hne
      have hq : t.Has role'.qwPlayerId ∧ role'.qwPlayerId ≠ p :=
        (hhas _).mp ⟨role', hrole', rfl⟩
      obtain ⟨i, hi⟩ := Option.isSome_iff_exists.mp (has_iff_slotOf.mp hq.1)
      have hsome := hslots.find_isSome (h.ne_zero hq.1) (by rw [if_neg hq.2, hi])
      obtain ⟨q, hfind⟩ := Option.isSome_iff_exists.mp hsome
      obtain ⟨j, hj⟩ := hslots.place_of_find hfind
      rw [hhas]
      simp only [hfind, Option.getD_some]
      by_cases hqp : q = p
      · simp [hqp] at hj
      · rw [if_neg hqp] at hj
        exact ⟨has_iff_slotOf.mpr (by rw [hj]; rfl), hqp⟩
  · rw [List.length_set, h.slots]
  · rw [hhas]
    exact fun hzero => h.nonzero hzero.1

theorem Sound.changeSlot (h : t.Sound) {behind : PlayerId}
    (hbound : (t.getTeamRoleData p).isSome → i < maxClientNum ∨ behind ≠ 0) :
    (t.changeSlot behind p i).2.Sound := by
  rcases t.changeSlot_cases behind p i with hsame | ⟨role, hrole, hword, hchange⟩
  · rw [hsame]
    exact h
  have hplace : t.slotOf p = some role.dwSlotId := by rw [slotOf, hrole, Option.map_some]
  have hp := h.ne_zero (has_iff_slotOf.mpr (by rw [hplace]; rfl))
  have hi : i < t.pPlayerSlots.length := by
    by_contra hge
    have hbehind : behind = 0 := by
      simpa [slotWord, List.getElem?_eq_none (Nat.not_lt.mp hge)] using hword
    rw [h.slots] at hge
    exact (hbound (by rw [hrole]; rfl)).elim hge (absurd hbehind)
  have hfree : t.pPlayerSlots[i]? = some 0 := by
    have hzero : t.pPlayerSlots[i] = 0 := by simpa [slotWord, hi] using hword
    rw [List.getElem?_eq_getElem hi, hzero]
  have hhas : ∀ q, (t.changeSlot behind p i).2.Has q ↔ t.Has q := fun q => has_changeSlot behind
  rw [hchange] at hhas ⊢
  constructor
  · constructor
    · rw [slotOf_change hrole rfl]
      exact h.slot_iff.move hp hfree hplace
    · intro role' hrole'
      obtain ⟨before, hbefore, rfl⟩ := List.mem_map.mp hrole'
      split_ifs
      · rw [← h.slots]
        exact hi
      · exact h.in_range before hbefore
    · rw [List.length_map]
      exact h.at_most
    · intro hne
      rw [hhas]
      apply h.leader
      intro hnil
      exact hne (by rw [hnil]; rfl)
  · rw [List.length_set, List.length_set, h.slots]
  · rw [hhas]
    exact h.nonzero

theorem Sound.step {t' : CTeam} {r : Request} (h : t.Sound) (hin : t.InBounds r)
    (hstep : t.step r = some t') : t'.Sound := by
  cases r with
  | insertIntoTeam p =>
    simp only [CTeam.step] at hstep
    split_ifs at hstep with hp
    cases hstep
    exact h.insertIntoTeam hp hin
  | kickPlayer p =>
    cases hstep
    exact h.kickPlayer
  | changeSlot p i behind =>
    cases hstep
    exact h.changeSlot hin

/-- Into a team without players everybody can come. -/
theorem Sound.insert_of_empty (h : t.Sound) (hempty : t.mapPlayers = []) (p : PlayerId) :
    (t.insertIntoTeam p).1 = true := by
  have hnone : ∀ q, ¬ t.Has q := by
    rintro q ⟨role, hrole, -⟩
    rw [hempty] at hrole
    cases hrole
  have hlt : 0 < t.pPlayerSlots.length := by
    rw [h.slots]
    decide
  have hzero : t.pPlayerSlots[0] = 0 := by
    by_contra hne
    have hplace := (h.slot_iff 0 _ hne).mp (List.getElem?_eq_getElem hlt)
    exact hnone _ (has_iff_slotOf.mpr (by rw [hplace]; rfl))
  have hfree : t.freeSlot < t.pPlayerSlots.length :=
    List.findIdx_lt_length_of_exists ⟨_, List.getElem_mem hlt, decide_eq_true hzero⟩
  have hget : (t.getTeamRoleData p).isSome = false := by simp [getTeamRoleData, hempty]
  rw [CTeam.insertIntoTeam, if_neg (by simp [hempty, maxClientNum]), if_neg (by simp [hget]),
    if_pos hfree]

/-- A step out of bounds shows in the team. -/
theorem Sound.inBounds {t' : CTeam} {r : Request} (h : t.Sound) (hstep : t.step r = some t')
    (hrep : t'.Represented) : t.InBounds r := by
  cases r with
  | kickPlayer p => trivial
  | insertIntoTeam p =>
    intro hempty
    simp only [CTeam.step] at hstep
    split_ifs at hstep with hp
    cases hstep
    have hinsert := h.insert_of_empty hempty p
    rcases t.insertIntoTeam_cases p with ⟨-, hfail⟩ | ⟨-, -, -, hnew⟩
    · rw [hfail] at hinsert
      cases hinsert
    by_cases hzero : t.qwLeader = 0
    · exact .inl hzero
    · have hleader := (has_insertIntoTeam hinsert).mp (hrep.leader (by simp [hnew]))
      rw [hnew] at hleader
      simp only [hzero, if_false] at hleader
      refine .inr (hleader.resolve_left ?_)
      rintro ⟨role, hrole, -⟩
      rw [hempty] at hrole
      cases hrole
  | changeSlot p i behind =>
    intro hsome
    cases hstep
    by_contra hout
    obtain ⟨hge, hbehind⟩ := not_or.mp hout
    obtain ⟨role, hrole⟩ := Option.isSome_iff_exists.mp hsome
    have hword : t.slotWord behind i = 0 := by
      have hlen : t.pPlayerSlots.length ≤ i := by
        rw [h.slots]
        exact Nat.not_lt.mp hge
      simpa [slotWord, List.getElem?_eq_none hlen] using hbehind
    obtain ⟨hmem, hid⟩ := getTeamRoleData_mem hrole
    apply hge
    apply hrep.in_range { role with dwSlotId := i }
    rw [CTeam.changeSlot, hrole]
    simp only [hword, ne_eq, not_true_eq_false, if_false]
    exact List.mem_map.mpr ⟨role, hmem, by rw [if_pos hid]⟩

/-- The slots and the records of a team say the same all along if and only if no request is out of
bounds. -/
theorem represented_iff_inBounds {qwTeamId : TeamId} {requests : List Request} {t : CTeam}
    (hrun : Transition.run step (new qwTeamId) requests = some t) :
    (∀ before t', before <+: requests →
        Transition.run step (new qwTeamId) before = some t' → t'.Represented) ↔
      Transition.Always step InBounds (new qwTeamId) requests :=
  Transition.forall_reached_iff_always (fun _ h => h.toRepresented)
    (fun _ _ _ h hin hstep => h.step hin hstep) (fun _ _ _ h hstep hrep => h.inBounds hstep hrep)
    (sound_new qwTeamId) hrun

/-- Player 7 goes to slot 3, 8 comes, and 7 is kicked. -/
def inSlots : List Request :=
  [.insertIntoTeam 7, .changeSlot 7 3 0, .insertIntoTeam 8, .kickPlayer 7]

theorem represented_iff_inBounds_two :
    Transition.Always step InBounds (new 5) inSlots ∧
      ∀ before t', before <+: inSlots → Transition.run step (new 5) before = some t' →
        t'.Represented :=
  have hin : Transition.Always step InBounds (new 5) inSlots := by decide
  ⟨hin, (represented_iff_inBounds (t := (((((new 5).insertIntoTeam 7).2.changeSlot 0 7
    3).2.insertIntoTeam 8).2.kickPlayer 7).2) (by decide)).mpr hin⟩

/-- The only player of a team asks for slot 20, and the memory behind the slots holds a 0 there. -/
theorem not_represented_of_wide_slot :
    ¬ ∀ (qwTeamId : TeamId) (requests : List Request) (t : CTeam),
      Transition.run step (new qwTeamId) requests = some t → t.Represented := by
  intro h
  have hlast := h 5 [.insertIntoTeam 7, .changeSlot 7 20 0] _ rfl
  exact absurd (hlast.in_range ⟨7, 20, 0⟩ (by decide)) (by decide)

end CTeam

end WebGame
