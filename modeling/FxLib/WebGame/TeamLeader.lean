import FxLib.WebGame.TeamSlots

/-!
# The leader of a team

Who leads behind `KickPlayer` is decided by the order of the slots. Here any id may come, 0 among
them: the slot of a player with the id 0 reads as free.
-/

namespace WebGame

namespace CTeam

/-- The requests of a run, each change to a slot that is there. -/
def stepValid (t : CTeam) : Request → Option CTeam
  | .insertIntoTeam qwPlayerId => some (t.insertIntoTeam qwPlayerId).2
  | .kickPlayer qwPlayerId => some (t.kickPlayer qwPlayerId).2
  | .changeSlot qwPlayerId dwSlotId behind =>
    if dwSlotId < maxClientNum then some (t.changeSlot behind qwPlayerId dwSlotId).2 else none

/-- A kick of another member keeps the leader and the slots of the others; a kick of the leader
makes a leader of one who stays, if there is one. -/
def KeepsLeader (t : CTeam) : Request → Prop
  | .kickPlayer p => t.Has p →
    (p ≠ t.qwLeader → (t.kickPlayer p).2.qwLeader = t.qwLeader ∧
      ∀ q, q ≠ p → t.Has q → (t.kickPlayer p).2.slotOf q = t.slotOf q ∧
        ∀ j : Nat, t.pPlayerSlots[j]? = some q → (t.kickPlayer p).2.pPlayerSlots[j]? = some q) ∧
    (p = t.qwLeader → (∃ q, q ≠ p ∧ t.Has q) →
      (t.kickPlayer p).2.Has (t.kickPlayer p).2.qwLeader)
  | _ => True

/-- For a member who does not lead: the first of the other slots that is occupied, if there is one,
is the leader's, and nobody else stands on the member's. For the leader: where others are in the
team, another slot is occupied. -/
def FirstLeads (t : CTeam) : Request → Prop
  | .kickPlayer p => ∀ i, t.slotOf p = some i →
    (p ≠ t.qwLeader → (∀ q, Slots.FirstOther 0 t.pPlayerSlots i q → q = t.qwLeader) ∧
      ∀ q, t.pPlayerSlots[i]? = some q → q = 0 ∨ q = p) ∧
    (p = t.qwLeader → (∃ q, q ≠ p ∧ t.Has q) →
      ∃ q, Slots.FirstOther 0 t.pPlayerSlots i q)
  | _ => True

/-- Whoever stands on a slot has it in his record. -/
def Placed (t : CTeam) : Prop :=
  ∀ (i : Nat) q, t.pPlayerSlots[i]? = some q → q ≠ 0 → t.slotOf q = some i

variable {t t' : CTeam} {p q : PlayerId} {i : Nat}

theorem placed_new (qwTeamId : TeamId) : (new qwTeamId).Placed := by
  intro i q hq hne
  exact absurd (List.mem_replicate.mp (List.mem_of_getElem? hq)).2 hne

theorem Placed.insertIntoTeam (h : t.Placed) (p : PlayerId) : (t.insertIntoTeam p).2.Placed := by
  rcases t.insertIntoTeam_cases p with ⟨hsame, -⟩ | ⟨-, hnone, hfree, hinsert⟩
  · rw [hsame]
    exact h
  · rw [hinsert]
    intro j q hq hne
    rw [slotOf_insert hnone rfl]
    by_cases hj : j = t.freeSlot
    · subst hj
      rw [List.getElem?_set_self (List.getElem?_eq_some_iff.mp hfree).1] at hq
      simp [Option.some.inj hq]
    · rw [List.getElem?_set_ne (Ne.symm hj)] at hq
      have hplace := h j q hq hne
      have hqp : q ≠ p := by
        rintro rfl
        simp [hnone] at hplace
      simp [hqp, hplace]

theorem Placed.kickPlayer (h : t.Placed) (p : PlayerId) : (t.kickPlayer p).2.Placed := by
  rcases t.kickPlayer_cases p with ⟨-, hkick⟩ | ⟨role, hrole, hkick⟩
  · rw [hkick]
    exact h
  · have hslot : t.slotOf p = some role.dwSlotId := by rw [slotOf, hrole, Option.map_some]
    rw [hkick]
    intro j q hq hne
    rw [slotOf_kick rfl]
    have hj : j ≠ role.dwSlotId := by
      rintro rfl
      obtain ⟨hlt, hget⟩ := List.getElem?_eq_some_iff.mp hq
      rw [List.getElem_set_self] at hget
      exact hne hget.symm
    rw [List.getElem?_set_ne (Ne.symm hj)] at hq
    have hplace := h j q hq hne
    have hqp : q ≠ p := by
      rintro rfl
      exact hj (Option.some.inj (hplace.symm.trans hslot))
    simp [hqp, hplace]

theorem Placed.changeSlot (h : t.Placed) (behind p : PlayerId) (i : Nat) :
    (t.changeSlot behind p i).2.Placed := by
  rcases t.changeSlot_cases behind p i with hsame | ⟨role, hrole, -, hchange⟩
  · rw [hsame]
    exact h
  · have hslot : t.slotOf p = some role.dwSlotId := by rw [slotOf, hrole, Option.map_some]
    rw [hchange]
    intro j q hq hne
    rw [slotOf_change hrole rfl]
    have hj : j ≠ role.dwSlotId := by
      rintro rfl
      obtain ⟨hlt, hget⟩ := List.getElem?_eq_some_iff.mp hq
      rw [List.getElem_set_self] at hget
      exact hne hget.symm
    rw [List.getElem?_set_ne (Ne.symm hj)] at hq
    by_cases hji : j = i
    · subst hji
      obtain ⟨hlt, hget⟩ := List.getElem?_eq_some_iff.mp hq
      rw [List.getElem_set_self] at hget
      simp [hget]
    · rw [List.getElem?_set_ne (Ne.symm hji)] at hq
      have hplace := h j q hq hne
      have hqp : q ≠ p := by
        rintro rfl
        exact hj (Option.some.inj (hplace.symm.trans hslot))
      simp [hqp, hplace]

theorem Placed.step {r : Request} (h : t.Placed) (hstep : t.stepValid r = some t') : t'.Placed := by
  cases r with
  | insertIntoTeam p =>
    obtain rfl := Option.some.inj hstep
    exact h.insertIntoTeam p
  | kickPlayer p =>
    obtain rfl := Option.some.inj hstep
    exact h.kickPlayer p
  | changeSlot p i behind =>
    rw [stepValid] at hstep
    split_ifs at hstep
    obtain rfl := Option.some.inj hstep
    exact h.changeSlot behind p i

/-! ### One kick -/

variable {role : TeamRoleData}

/-- The leader behind a kick is the first on another slot, and the same where there is none. -/
theorem kickPlayer_qwLeader (hrole : t.getTeamRoleData p = some role) :
    (∀ q, Slots.FirstOther 0 t.pPlayerSlots role.dwSlotId q →
        (t.kickPlayer p).2.qwLeader = q) ∧
      ((¬ ∃ q, Slots.FirstOther 0 t.pPlayerSlots role.dwSlotId q) →
        (t.kickPlayer p).2.qwLeader = t.qwLeader) := by
  rw [CTeam.kickPlayer, hrole]
  simp only [← Slots.find_set_blank_iff]
  constructor
  · intro q hq
    rw [hq, Option.getD_some]
  · intro hnone
    cases hfind : (t.pPlayerSlots.set role.dwSlotId 0).find? (· ≠ 0) with
    | none => rfl
    | some q => exact absurd ⟨q, hfind⟩ hnone

theorem kickPlayer_pPlayerSlots (hrole : t.getTeamRoleData p = some role) :
    (t.kickPlayer p).2.pPlayerSlots = t.pPlayerSlots.set role.dwSlotId 0 := by
  rw [CTeam.kickPlayer, hrole]

theorem slotOf_kickPlayer (hq : q ≠ p) : (t.kickPlayer p).2.slotOf q = t.slotOf q := by
  rcases t.kickPlayer_cases p with ⟨-, hkick⟩ | ⟨role, -, hkick⟩
  · rw [hkick]
  · rw [hkick, slotOf_kick rfl]
    exact if_neg hq

theorem qwLeader_kept_iff (hrole : t.getTeamRoleData p = some role) :
    (t.kickPlayer p).2.qwLeader = t.qwLeader ↔
      ∀ q, Slots.FirstOther 0 t.pPlayerSlots role.dwSlotId q → q = t.qwLeader := by
  obtain ⟨hfirst, hnone⟩ := kickPlayer_qwLeader hrole
  constructor
  · intro hsame q hq
    rw [← hfirst q hq, hsame]
  · intro hall
    by_cases hsome : ∃ q, Slots.FirstOther 0 t.pPlayerSlots role.dwSlotId q
    · obtain ⟨q, hq⟩ := hsome
      rw [hfirst q hq, hall q hq]
    · exact hnone hsome

/-- The others keep their slots where nobody else stands on the slot of the one who goes. -/
theorem Placed.slots_kept_iff (h : t.Placed) (hrole : t.getTeamRoleData p = some role) :
    (∀ q, q ≠ p → t.Has q → (t.kickPlayer p).2.slotOf q = t.slotOf q ∧
        ∀ j : Nat, t.pPlayerSlots[j]? = some q → (t.kickPlayer p).2.pPlayerSlots[j]? = some q) ↔
      ∀ q, t.pPlayerSlots[role.dwSlotId]? = some q → q = 0 ∨ q = p := by
  rw [kickPlayer_pPlayerSlots hrole]
  constructor
  · intro hall q hq
    by_contra hother
    obtain ⟨hzero, hqp⟩ := not_or.mp hother
    have hhas : t.Has q := has_iff_slotOf.mpr (by rw [h _ q hq hzero]; rfl)
    have hstill := (hall q hqp hhas).2 _ hq
    rw [List.getElem?_set_self (List.getElem?_eq_some_iff.mp hq).1] at hstill
    exact hzero (Option.some.inj hstill).symm
  · intro hslot q hqp _
    refine ⟨slotOf_kickPlayer hqp, fun j hj => ?_⟩
    by_cases heq : j = role.dwSlotId
    · subst heq
      rw [List.getElem?_set_self (List.getElem?_eq_some_iff.mp hj).1]
      rw [(hslot q hj).resolve_right hqp]
    · rw [List.getElem?_set_ne (Ne.symm heq), hj]

/-- Behind a kick of the leader a member leads where another slot is occupied. -/
theorem Placed.has_leader_iff (h : t.Placed) (hrole : t.getTeamRoleData p = some role)
    (hleader : p = t.qwLeader) :
    (t.kickPlayer p).2.Has (t.kickPlayer p).2.qwLeader ↔
      ∃ q, Slots.FirstOther 0 t.pPlayerSlots role.dwSlotId q := by
  obtain ⟨hfirst, hnone⟩ := kickPlayer_qwLeader hrole
  constructor
  · intro hhas
    by_contra hno
    rw [hnone hno, ← hleader] at hhas
    exact (has_kickPlayer.mp hhas).2 rfl
  · rintro ⟨q, hq⟩
    have hlead := hfirst q hq
    obtain ⟨hzero, j, hj, hget, -⟩ := hq
    have hslots : (t.kickPlayer p).2.pPlayerSlots[j]? = some q := by
      rw [kickPlayer_pPlayerSlots hrole, List.getElem?_set_ne (Ne.symm hj), hget]
    rw [hlead, has_iff_slotOf, h.kickPlayer p j q hslots hzero]
    rfl

/-- The kick does what it should exactly where the leader stands first. -/
theorem Placed.keepsLeader_iff (h : t.Placed) (r : Request) : t.KeepsLeader r ↔ t.FirstLeads r := by
  cases r with
  | insertIntoTeam p => exact Iff.rfl
  | changeSlot p i behind => exact Iff.rfl
  | kickPlayer p =>
    cases hrole : t.getTeamRoleData p with
    | none =>
      have hslot : t.slotOf p = none := by rw [slotOf, hrole, Option.map_none]
      refine iff_of_true (fun hhas => ?_) fun i hi => ?_
      · rw [has_iff_slotOf, hslot] at hhas
        cases hhas
      · rw [hslot] at hi
        cases hi
    | some role =>
      have hslot : t.slotOf p = some role.dwSlotId := by rw [slotOf, hrole, Option.map_some]
      have hhas : t.Has p := has_iff_slotOf.mpr (by rw [hslot]; rfl)
      rw [KeepsLeader, FirstLeads, hslot, qwLeader_kept_iff hrole, h.slots_kept_iff hrole]
      constructor
      · rintro hkeeps i ⟨⟩
        obtain ⟨hother, hself⟩ := hkeeps hhas
        exact ⟨hother, fun hleader hq => (h.has_leader_iff hrole hleader).mp (hself hleader hq)⟩
      · intro hfirst _
        obtain ⟨hother, hself⟩ := hfirst _ rfl
        exact ⟨hother, fun hleader hq => (h.has_leader_iff hrole hleader).mpr (hself hleader hq)⟩

/-! ### Runs -/

/-- In the runs from a new team, all kicks leave the leadership where it belongs if and only if at
every kick the leader stands first. -/
theorem always_keepsLeader_iff (qwTeamId : TeamId) (requests : List Request) :
    Transition.Always stepValid KeepsLeader (new qwTeamId) requests ↔
      Transition.Always stepValid FirstLeads (new qwTeamId) requests :=
  Transition.always_iff Placed (fun _ r h => h.keepsLeader_iff r)
    (fun _ _ _ h _ hstep => h.step hstep) (placed_new qwTeamId)

/-- The leader 7 goes to the last of the slots, and 9 is kicked: 8 leads. -/
theorem not_always_keepsLeader_of_change :
    ¬ ∀ qwTeamId requests, Transition.Always stepValid KeepsLeader (new qwTeamId) requests := by
  intro hall
  have hrun := hall 5 [.insertIntoTeam 7, .insertIntoTeam 8, .insertIntoTeam 9,
    .changeSlot 7 3 0, .kickPlayer 9]
  have hkick := ((((hrun.next rfl).next rfl).next rfl).next rfl).1
  obtain ⟨hleader, -⟩ := (hkick ⟨⟨9, 2, 0⟩, by decide, rfl⟩).1 (by decide)
  exact absurd hleader (by decide)

end CTeam

end WebGame
