import Mathlib.Data.List.Basic
import FxLib.WebGame.Player

/-!
# One player's team

What the login servers, the team servers and the messages between them know about a single player,
and the invariant that keeps the two sides in step: an invariant of the player's own record, its
memberships and its mail.
-/

namespace WebGame

inductive Message where
  | request (msg : LoginRequestTeam)
  | answer (msg : TeamAckLogin)
  /-- `LoginRequestLoginInviteTeam` -/
  | inviteTeam (qwInviteId qwInviteeId : PlayerId)
  /-- `LoginAckLoginInviteTeam` -/
  | ackInviteTeam (qwInviteId qwInviteeId : PlayerId)
  deriving DecidableEq

structure Envelope where
  src : ServerId
  dst : ServerId
  msg : Message
  deriving DecidableEq

namespace Message

def about : Message → Option PlayerId
  | .request msg => msg.about
  | .answer msg => msg.about
  | .inviteTeam .. => none
  | .ackInviteTeam .. => none

/-- The messages by which the player comes into a team. -/
def adds (p : PlayerId) : Message → Bool
  | .request (.makeTeam q _) => p = q
  | .request (.enterTeam q _) => p = q
  | .answer (.makeTeam _ q _) => p = q
  | .answer (.enterTeam _ q _) => p = q
  | _ => false

/-- The request to make a team, or the answer to it. -/
def makes (p : PlayerId) : Message → Bool
  | .request (.makeTeam q _) => p = q
  | .answer (.makeTeam _ q _) => p = q
  | _ => false

/-- The id of the team that the message asks for. -/
def makeId : Message → Option TeamId
  | .request (.makeTeam _ qwTeamId) => some qwTeamId
  | _ => none

theorem adds_of_makes {p : PlayerId} {m : Message} (h : m.makes p = true) : m.adds p = true := by
  cases m with
  | request msg =>
    cases msg with
    | makeTeam => exact h
    | kickPlayer | gameStart | enterTeam | playerLeave => cases h
  | answer msg =>
    cases msg with
    | makeTeam => exact h
    | kickPlayer | gameStart | enterTeam | playerLeave | teamInfo => cases h
  | inviteTeam | ackInviteTeam => cases h

end Message

/-- The login server at one end of a message to or from a team server. -/
def Envelope.client (e : Envelope) : ServerId :=
  match e.msg with
  | .answer _ => e.dst
  | _ => e.src

structure View where
  player : ServerId → Option Player
  member : ServerId → TeamId → Prop
  mail : List Envelope

namespace View

variable (p : PlayerId) (v : View)

/-- The player is on its way out of the team `t` of the server `j`. -/
def Erasing (j : ServerId) (t : TeamId) : Prop :=
  ∃ i, ⟨i, j, .request (.kickPlayer p t)⟩ ∈ v.mail ∨ ⟨i, j, .request (.playerLeave p t)⟩ ∈ v.mail

/-- The answer that the player is in the team `t` of `j` is on its way to `i`. -/
def Joined (i j : ServerId) (t : TeamId) : Prop :=
  ⟨j, i, .answer (.makeTeam .none p t)⟩ ∈ v.mail ∨
    ⟨j, i, .answer (.enterTeam .none p t)⟩ ∈ v.mail

/-- The record `pl` of the player at the login server `i` fits what else is known of it. -/
structure Fits (i : ServerId) (pl : Player) : Prop where
  named : pl.qwPyayerId = p
  home : ∀ e ∈ v.mail, e.msg.adds p = true → e.client = i ∧ pl.qwTeamId = 0
  joined : ∀ j t, v.Joined p i j t → v.member j t
  held : ∀ j t, v.member j t →
    pl.qwTeamId = t ∧ pl.dwTeamServerId = j ∨ v.Erasing p j t ∨ ∃ k, v.Joined p k j t
  recorded : pl.qwTeamId ≠ 0 → v.member pl.dwTeamServerId pl.qwTeamId ∨
    ⟨i, pl.dwTeamServerId, .request (.playerLeave p pl.qwTeamId)⟩ ∈ v.mail ∨
      ∃ r, ⟨pl.dwTeamServerId, i, .answer (.playerLeave r p)⟩ ∈ v.mail
  kicked : pl.qwTeamId ≠ 0 → ∀ e ∈ v.mail,
    (∀ t, e.msg ≠ .request (.kickPlayer p t)) ∧ ∀ r, e.msg ≠ .answer (.kickPlayer r p)
  leaving : pl.qwTeamId ≠ 0 → ∀ k j t, ⟨k, j, .request (.playerLeave p t)⟩ ∈ v.mail →
    k = i ∧ j = pl.dwTeamServerId ∧ t = pl.qwTeamId
  left : pl.qwTeamId ≠ 0 → ∀ k j r, ⟨j, k, .answer (.playerLeave r p)⟩ ∈ v.mail →
    ¬ v.member pl.dwTeamServerId pl.qwTeamId
  completed : pl.qwTeamId ≠ 0 → pl.eState = .teamCompleted
  idle : pl.qwTeamId = 0 → pl.dwTeamServerId = 0 ∧
    (pl.eState = .idle ∨ pl.eState = .makeTeam ∧ ∃ e ∈ v.mail, e.msg.makes p = true)

structure Kept : Prop where
  once : ∀ i j pl pl', v.player i = some pl → v.player j = some pl' → i = j
  pos : ∀ j t, v.member j t → t ≠ 0
  /-- A message that adds the player to a team is the only one about it. -/
  alone : ∀ e ∈ v.mail, e.msg.adds p = true → v.mail = [e]
  fits : ∀ i pl, v.player i = some pl → v.Fits p i pl

/-- The login server's record of the player is its membership, and its state fits. -/
structure Agrees : Prop where
  member : ∀ i pl, v.player i = some pl → ∀ j t,
    v.member j t ↔ t ≠ 0 ∧ pl.qwTeamId = t ∧ pl.dwTeamServerId = j
  noServer : ∀ i pl, v.player i = some pl → pl.qwTeamId = 0 → pl.dwTeamServerId = 0
  completed : ∀ i pl, v.player i = some pl → (pl.eState = .teamCompleted ↔ pl.qwTeamId ≠ 0)
  idle : ∀ i pl, v.player i = some pl → (pl.eState = .idle ↔ pl.qwTeamId = 0)

variable {p : PlayerId} {v : View}

theorem Kept.agrees (h : Kept p v) (hmail : v.mail = []) : Agrees v := by
  have hidle : ∀ i pl, v.player i = some pl → pl.qwTeamId = 0 → pl.eState = .idle := by
    intro i pl hpl hzero
    rcases ((h.fits i pl hpl).idle hzero).2 with hidle | ⟨-, e, he, -⟩
    · exact hidle
    · rw [hmail] at he
      cases he
  refine ⟨fun i pl hpl j t => ⟨fun hmem => ?_, ?_⟩, fun i pl hpl hzero => ?_,
    fun i pl hpl => ⟨fun hc hzero => ?_, (h.fits i pl hpl).completed⟩,
    fun i pl hpl => ⟨fun hc => ?_, hidle i pl hpl⟩⟩
  · rcases (h.fits i pl hpl).held j t hmem with hrec | ⟨k, hk⟩ | ⟨k, hk⟩
    · exact ⟨h.pos j t hmem, hrec⟩
    · simp [hmail] at hk
    · simp [Joined, hmail] at hk
  · rintro ⟨hpos, rfl, rfl⟩
    rcases (h.fits i pl hpl).recorded hpos with hmem | hleave | ⟨r, hack⟩
    · exact hmem
    · simp [hmail] at hleave
    · simp [hmail] at hack
  · exact ((h.fits i pl hpl).idle hzero).1
  · rw [hidle i pl hpl hzero] at hc
    cases hc
  · by_contra hne
    rw [(h.fits i pl hpl).completed hne] at hc
    cases hc

/-- The record at `i` is changed; nobody is online elsewhere. -/
theorem Kept.setPlayer {player : ServerId → Option Player} {member : ServerId → TeamId → Prop}
    {mail : List Envelope} {i : ServerId} {pl : Player}
    (hoff : ∀ j, j ≠ i → player j = none) (hpos : ∀ j t, member j t → t ≠ 0)
    (halone : ∀ e ∈ mail, e.msg.adds p = true → mail = [e])
    (hfits : (⟨Function.update player i (some pl), member, mail⟩ : View).Fits p i pl) :
    Kept p ⟨Function.update player i (some pl), member, mail⟩ := by
  have hwho : ∀ k pl', Function.update player i (some pl) k = some pl' → k = i ∧ pl' = pl := by
    intro k pl' hk
    by_cases hki : k = i
    · subst hki
      rw [Function.update_self] at hk
      exact ⟨rfl, (Option.some.inj hk).symm⟩
    · rw [Function.update_of_ne hki, hoff k hki] at hk
      cases hk
  refine ⟨fun k j pl₁ pl₂ hk hj => (hwho k pl₁ hk).1.trans (hwho j pl₂ hj).1.symm, hpos, halone,
    fun k pl' hk => ?_⟩
  obtain ⟨rfl, rfl⟩ := hwho k pl' hk
  exact hfits

theorem Kept.off (h : Kept p v) {i : ServerId} {pl : Player} (hpl : v.player i = some pl)
    {j : ServerId} (hj : j ≠ i) : v.player j = none := by
  cases hother : v.player j with
  | none => rfl
  | some pl' => exact absurd (h.once j i pl' pl hother hpl) hj

theorem Joined.mail {i j : ServerId} {t : TeamId} (h : v.Joined p i j t) :
    ∃ e ∈ v.mail, e.msg.adds p = true := by
  rcases h with hm | hm
  · exact ⟨_, hm, by simp [Message.adds]⟩
  · exact ⟨_, hm, by simp [Message.adds]⟩

/-- Somebody who is offline comes online; every team it is in, it is on its way out of. -/
theorem Kept.login (h : Kept p v) {i : ServerId} {pl : Player} (hname : pl.qwPyayerId = p)
    (hfresh : pl.eState = .idle ∧ pl.qwTeamId = 0 ∧ pl.dwTeamServerId = 0)
    (hoff : ∀ j, j ≠ i → v.player j = none) (hadds : ∀ e ∈ v.mail, e.msg.adds p = false)
    (hleft : ∀ j t, v.member j t → v.Erasing p j t) :
    Kept p ⟨Function.update v.player i (some pl), v.member, v.mail⟩ := by
  have hno : ∀ e ∈ v.mail, e.msg.adds p ≠ true := fun e he => by simp [hadds e he]
  have hzero : ¬ pl.qwTeamId ≠ 0 := not_not.mpr hfresh.2.1
  refine Kept.setPlayer hoff h.pos h.alone ⟨hname, fun e he hadd => absurd hadd (hno e he),
    fun j t hm => ?_, fun j t hm => .inr (.inl (hleft j t hm)), (absurd · hzero),
    (absurd · hzero), (absurd · hzero), (absurd · hzero), (absurd · hzero),
    fun _ => ⟨hfresh.2.2, .inl hfresh.1⟩⟩
  obtain ⟨e, he, hadd⟩ := hm.mail
  exact absurd hadd (hno e he)

/-- A player that is online logs in once more and keeps its team. -/
theorem Kept.relogin (h : Kept p v) {i : ServerId} {pl pl' : Player} (hpl : v.player i = some pl)
    (hname : pl'.qwPyayerId = p) (hstate : pl'.eState = pl.eState)
    (hteam : pl'.qwTeamId = pl.qwTeamId) (hserver : pl'.dwTeamServerId = pl.dwTeamServerId) :
    Kept p ⟨Function.update v.player i (some pl'), v.member, v.mail⟩ := by
  obtain ⟨-, hhome, hjoined, hheld, hrec, hkick, hleaving, hleft, hcomp, hidle⟩ := h.fits i pl hpl
  rw [← hteam, ← hserver] at hrec hleft
  rw [← hstate, ← hteam] at hcomp
  rw [← hstate, ← hteam, ← hserver] at hidle
  rw [← hteam] at hkick
  refine Kept.setPlayer (fun j hj => h.off hpl hj) h.pos h.alone ⟨hname, ?_, hjoined, ?_, hrec,
    hkick, ?_, hleft, hcomp, hidle⟩
  · rw [hteam]
    exact hhome
  · rw [hteam, hserver]
    exact hheld
  · rw [hteam, hserver]
    exact hleaving

/-- The player goes offline; a kick is sent only for somebody in a team. -/
theorem Kept.close (h : Kept p v) {i : ServerId} {pl : Player} (hpl : v.player i = some pl)
    {mail : List Envelope} (hkick : pl.qwTeamId = 0 → mail = [])
    (hadds : ∀ e ∈ mail, e.msg.adds p = false) :
    Kept p ⟨Function.update v.player i none, v.member, v.mail ++ mail⟩ := by
  have hnone : ∀ k pl', Function.update v.player i none k ≠ some pl' := by
    intro k pl' hk
    by_cases hki : k = i
    · simp [hki] at hk
    · rw [Function.update_of_ne hki, h.off hpl hki] at hk
      cases hk
  refine ⟨fun k j pl₁ pl₂ hk => absurd hk (hnone k pl₁), h.pos, fun e he hadd => ?_,
    fun k pl' hk => absurd hk (hnone k pl')⟩
  rcases List.mem_append.mp he with he | he
  · rw [hkick ((h.fits i pl hpl).home e he hadd).2, List.append_nil]
    exact h.alone e he hadd
  · simp [hadds e he] at hadd

/-- A player of no team, with nothing on the way, asks to be in one. -/
theorem Kept.ask (h : Kept p v) {i : ServerId} {pl pl' : Player} (hpl : v.player i = some pl)
    (hmail : v.mail = []) (hzero : pl.qwTeamId = 0) {e : Envelope} (hclient : e.client = i)
    (hno : ∀ k j t, ¬ (⟨v.player, v.member, [e]⟩ : View).Joined p k j t)
    (hname : pl'.qwPyayerId = pl.qwPyayerId) (hteam : pl'.qwTeamId = pl.qwTeamId)
    (hserver : pl'.dwTeamServerId = pl.dwTeamServerId)
    (hstate : pl'.eState = .idle ∨ pl'.eState = .makeTeam ∧ e.msg.makes p = true) :
    Kept p ⟨Function.update v.player i (some pl'), v.member, [e]⟩ := by
  have hfits := h.fits i pl hpl
  have hzero' : ¬ pl'.qwTeamId ≠ 0 := by
    rw [hteam]
    exact not_not.mpr hzero
  have hnobody : ∀ j t, ¬ v.member j t := by
    intro j t hm
    rcases hfits.held j t hm with ⟨ht, -⟩ | ⟨k, hk⟩ | ⟨k, hk⟩
    · exact h.pos j t hm (ht ▸ hzero)
    · simp [hmail] at hk
    · simp [Joined, hmail] at hk
  refine Kept.setPlayer (fun j hj => h.off hpl hj) h.pos
    (fun e' he' _ => by rw [List.mem_singleton.mp he'])
    ⟨hname.trans hfits.named, fun e' he' _ => ?_, fun j t hm => absurd hm (hno i j t),
      fun j t hm => absurd hm (hnobody j t), (absurd · hzero'), (absurd · hzero'),
      (absurd · hzero'), (absurd · hzero'), (absurd · hzero'), fun _ => ⟨?_, ?_⟩⟩
  · rw [List.mem_singleton.mp he', hteam]
    exact ⟨hclient, hzero⟩
  · rw [hserver]
    exact (hfits.idle hzero).1
  · rcases hstate with hidle | ⟨hmake, hmakes⟩
    · exact .inl hidle
    · exact .inr ⟨hmake, e, List.mem_singleton_self e, hmakes⟩

/-- A player asks to leave its team. -/
theorem Kept.leave (h : Kept p v) {i : ServerId} {pl : Player} (hpl : v.player i = some pl)
    (hne : pl.qwTeamId ≠ 0) :
    Kept p ⟨v.player, v.member,
      v.mail ++ [⟨i, pl.dwTeamServerId, .request (.playerLeave p pl.qwTeamId)⟩]⟩ := by
  have hnone : ∀ e ∈ v.mail, e.msg.adds p ≠ true := fun e he hadd =>
    hne ((h.fits i pl hpl).home e he hadd).2
  refine ⟨h.once, h.pos, fun e he hadd => ?_, fun k pl' hk => ?_⟩
  · rcases List.mem_append.mp he with he | he
    · exact absurd hadd (hnone e he)
    · rw [List.mem_singleton.mp he] at hadd
      cases hadd
  · obtain rfl := h.once k i pl' pl hk hpl
    obtain rfl := Option.some.inj (hk.symm.trans hpl)
    obtain ⟨hname, hhome, hjoined, hheld, hrec, hkick, hleaving, hleft, hcomp, hidle⟩ :=
      h.fits k pl' hk
    refine ⟨hname, fun e he hadd => ?_, fun j t hm => hjoined j t ?_, fun j t hm => ?_,
      fun _ => .inr (.inl (by simp)), fun _ e he => ?_, fun _ k' j t hm => ?_,
      fun _ k' j r hm => hleft hne k' j r (by simpa using hm), hcomp, fun hz => absurd hz hne⟩
    · rcases List.mem_append.mp he with he | he
      · exact hhome e he hadd
      · rw [List.mem_singleton.mp he] at hadd
        cases hadd
    · simpa [Joined] using hm
    · rcases hheld j t hm with hrec | ⟨k', hk'⟩ | ⟨k', hk'⟩
      · exact .inl hrec
      · refine .inr (.inl ⟨k', ?_⟩)
        rcases hk' with hk' | hk'
        · exact .inl (List.mem_append_left _ hk')
        · exact .inr (List.mem_append_left _ hk')
      · exact .inr (.inr ⟨k', by simpa [Joined] using hk'⟩)
    · rcases List.mem_append.mp he with he | he
      · exact hkick hne e he
      · rw [List.mem_singleton.mp he]
        exact ⟨by simp, by simp⟩
    · rcases List.mem_append.mp hm with hm | hm
      · exact hleaving hne k' j t hm
      · obtain ⟨rfl, rfl, ht⟩ := by simpa using hm
        exact ⟨rfl, rfl, ht⟩

theorem Erasing.mail {j : ServerId} {t : TeamId} (h : v.Erasing p j t) :
    ∃ e ∈ v.mail, e.msg.adds p = false := by
  obtain ⟨i, hm | hm⟩ := h
  · exact ⟨_, hm, rfl⟩
  · exact ⟨_, hm, rfl⟩

/-- While somebody is on the way into a team, nothing takes it out of one. -/
theorem Kept.not_erasing (h : Kept p v) {e : Envelope} (he : e ∈ v.mail)
    (hadd : e.msg.adds p = true) (j : ServerId) (t : TeamId) : ¬ v.Erasing p j t := by
  intro herase
  obtain ⟨e', he', hno⟩ := herase.mail
  rw [h.alone e he hadd, List.mem_singleton] at he'
  rw [he', hadd] at hno
  cases hno

/-- Somebody who is on the way into a team is in none but that of which the answer tells. -/
theorem Kept.joined_of_member (h : Kept p v) {e : Envelope} (he : e ∈ v.mail)
    (hadd : e.msg.adds p = true) {i : ServerId} {pl : Player} (hpl : v.player i = some pl)
    {j : ServerId} {t : TeamId} (hm : v.member j t) : ∃ k, v.Joined p k j t := by
  have hfits := h.fits i pl hpl
  rcases hfits.held j t hm with ⟨ht, -⟩ | herase | hjoined
  · exact absurd (ht ▸ (hfits.home e he hadd).2) (h.pos j t hm)
  · exact absurd herase (h.not_erasing he hadd j t)
  · exact hjoined

/-- A team server lets the player in, or does not, and answers. -/
theorem Kept.letIn (h : Kept p v) {e ack : Envelope} {member : ServerId → TeamId → Prop}
    {ok : Prop} {j₀ : ServerId} {t₀ : TeamId} (hmail : v.mail = [e])
    (hadd : e.msg.adds p = true) (hreq : ∀ k j t, ¬ v.Joined p k j t)
    (hmember : ∀ j t, member j t ↔ v.member j t ∨ ok ∧ j = j₀ ∧ t = t₀) (hpos : ok → t₀ ≠ 0)
    (hclient : ack.client = e.client)
    (hmakes : e.msg.makes p = true → ack.msg.makes p = true)
    (hjoined : ∀ k j t, (⟨v.player, member, [ack]⟩ : View).Joined p k j t ↔
      ok ∧ k = e.client ∧ j = j₀ ∧ t = t₀) :
    Kept p ⟨v.player, member, [ack]⟩ := by
  have he : e ∈ v.mail := by simp [hmail]
  refine ⟨h.once, fun j t hm => ?_, fun e' he' _ => by rw [List.mem_singleton.mp he'],
    fun i pl hpl => ?_⟩
  · rcases (hmember j t).mp hm with hm | ⟨hok, -, rfl⟩
    · exact h.pos j t hm
    · exact hpos hok
  · have hfits := h.fits i pl hpl
    obtain ⟨hi, hzero⟩ := hfits.home e he hadd
    have hzero' : ¬ pl.qwTeamId ≠ 0 := not_not.mpr hzero
    refine ⟨hfits.named, fun e' he' _ => ?_, fun j t hm => ?_, fun j t hm => ?_,
      (absurd · hzero'), (absurd · hzero'), (absurd · hzero'), (absurd · hzero'),
      (absurd · hzero'), fun _ => ⟨(hfits.idle hzero).1, ?_⟩⟩
    · rw [List.mem_singleton.mp he', hclient]
      exact ⟨hi, hzero⟩
    · obtain ⟨hok, -, rfl, rfl⟩ := (hjoined i j t).mp hm
      exact (hmember j t).mpr (.inr ⟨hok, rfl, rfl⟩)
    · rcases (hmember j t).mp hm with hold | ⟨hok, rfl, rfl⟩
      · obtain ⟨k, hk⟩ := h.joined_of_member he hadd hpl hold
        exact absurd hk (hreq k j t)
      · exact .inr (.inr ⟨e.client, (hjoined _ _ _).mpr ⟨hok, rfl, rfl, rfl⟩⟩)
    · rcases (hfits.idle hzero).2 with hidle | ⟨hmake, e', he', hmakes'⟩
      · exact .inl hidle
      · rw [hmail, List.mem_singleton] at he'
        exact .inr ⟨hmake, ack, List.mem_singleton_self ack, hmakes (he' ▸ hmakes')⟩

/-- The answer arrives, and nobody is online there or the record becomes what it says. -/
theorem Kept.settle_off (h : Kept p v) {e : Envelope} (hmail : v.mail = [e])
    (hadd : e.msg.adds p = true) (hoff : v.player e.client = none) :
    Kept p ⟨v.player, v.member, []⟩ := by
  refine ⟨h.once, h.pos, (fun e' he' => nomatch he'), fun i pl hpl => ?_⟩
  obtain ⟨rfl, -⟩ := (h.fits i pl hpl).home e (by simp [hmail]) hadd
  rw [hoff] at hpl
  cases hpl

theorem Kept.settle (h : Kept p v) {e : Envelope} (hmail : v.mail = [e])
    (hadd : e.msg.adds p = true) {pl pl' : Player} (hpl : v.player e.client = some pl)
    (hname : pl'.qwPyayerId = pl.qwPyayerId)
    (hteam : (∀ k j t, v.Joined p k j t ↔ k = e.client ∧ j = pl'.dwTeamServerId ∧
          t = pl'.qwTeamId) ∧ pl'.eState = .teamCompleted ∨
      (∀ k j t, ¬ v.Joined p k j t) ∧ pl'.qwTeamId = 0 ∧ pl'.dwTeamServerId = 0 ∧
          pl'.eState = .idle) :
    Kept p ⟨Function.update v.player e.client (some pl'), v.member, []⟩ := by
  have he : e ∈ v.mail := by simp [hmail]
  have hfits := h.fits e.client pl hpl
  refine Kept.setPlayer (fun j hj => h.off hpl hj) h.pos (fun e' he' => nomatch he') ?_
  rcases hteam with ⟨hjoined, hcomp⟩ | ⟨hnone, hzero, hserver, hidle⟩
  · have hmem : v.member pl'.dwTeamServerId pl'.qwTeamId :=
      hfits.joined _ _ ((hjoined _ _ _).mpr ⟨rfl, rfl, rfl⟩)
    refine ⟨hname.trans hfits.named, (fun e' he' => nomatch he'), fun j t hm => ?_,
      fun j t hm => ?_, fun _ => .inl hmem, (fun _ e' he' => nomatch he'), fun _ k j t hm => ?_,
      fun _ k j r hm => ?_, fun _ => hcomp, fun hz => absurd hz (h.pos _ _ hmem)⟩
    · simp [Joined] at hm
    · obtain ⟨k, hk⟩ := h.joined_of_member he hadd hpl hm
      obtain ⟨-, rfl, rfl⟩ := (hjoined k j t).mp hk
      exact .inl ⟨rfl, rfl⟩
    · cases hm
    · cases hm
  · refine ⟨hname.trans hfits.named, (fun e' he' => nomatch he'), fun j t hm => ?_,
      fun j t hm => ?_, (absurd hzero ·), (absurd hzero ·), (absurd hzero ·), (absurd hzero ·),
      (absurd hzero ·), fun _ => ⟨hserver, .inl hidle⟩⟩
    · simp [Joined] at hm
    · obtain ⟨k, hk⟩ := h.joined_of_member he hadd hpl hm
      exact absurd hk (hnone k j t)

/-- While something takes the player out of a team, nothing brings it into one. -/
theorem Kept.no_adds (h : Kept p v) {e : Envelope} (he : e ∈ v.mail)
    (hadd : e.msg.adds p = false) : ∀ e' ∈ v.mail, e'.msg.adds p = false := by
  intro e' he'
  by_contra hne
  have hone := h.alone e' he' (by simpa using hne)
  rw [hone, List.mem_singleton] at he
  rw [he] at hadd
  exact hne hadd

theorem Fits.idle_of_no_adds {i : ServerId} {pl : Player} (h : v.Fits p i pl)
    (hno : ∀ e ∈ v.mail, e.msg.adds p = false) (hzero : pl.qwTeamId = 0) :
    pl.dwTeamServerId = 0 ∧ pl.eState = .idle := by
  obtain ⟨hserver, hidle | ⟨-, e, he, hmakes⟩⟩ := h.idle hzero
  · exact ⟨hserver, hidle⟩
  · have hadd := Message.adds_of_makes hmakes
    rw [hno e he] at hadd
    cases hadd

/-- A team server takes the player out of the team `t₀`, and answers a kick or a leave. -/
theorem Kept.erase (h : Kept p v) {pre post : List Envelope} {i₀ j₀ : ServerId} {t₀ : TeamId}
    {e ack : Envelope} (hmail : v.mail = pre ++ e :: post)
    (hkind : e = ⟨i₀, j₀, .request (.kickPlayer p t₀)⟩ ∧
        (∃ r, ack = ⟨j₀, i₀, .answer (.kickPlayer r p)⟩) ∨
      e = ⟨i₀, j₀, .request (.playerLeave p t₀)⟩ ∧
        ∃ r, ack = ⟨j₀, i₀, .answer (.playerLeave r p)⟩)
    {member : ServerId → TeamId → Prop}
    (hmember : ∀ j t, member j t ↔ v.member j t ∧ ¬ (j = j₀ ∧ t = t₀)) :
    Kept p ⟨v.player, member, pre ++ post ++ [ack]⟩ := by
  have hadd : e.msg.adds p = false ∧ ack.msg.adds p = false := by
    rcases hkind with ⟨rfl, r, rfl⟩ | ⟨rfl, r, rfl⟩
    · exact ⟨rfl, rfl⟩
    · exact ⟨rfl, rfl⟩
  have he : e ∈ v.mail := by simp [hmail]
  have hno := h.no_adds he hadd.1
  have hold : ∀ e' ∈ v.mail, e' = e ∨ e' ∈ pre ++ post ++ [ack] := by
    intro e' he'
    rw [hmail] at he'
    simp only [List.mem_append, List.mem_cons] at he' ⊢
    tauto
  have hnew : ∀ e' ∈ pre ++ post ++ [ack], e' ∈ v.mail ∨ e' = ack := by
    intro e' he'
    rw [hmail]
    simp only [List.mem_append, List.mem_cons, List.not_mem_nil, or_false] at he' ⊢
    tauto
  have hno' : ∀ e' ∈ pre ++ post ++ [ack], e'.msg.adds p ≠ true := by
    intro e' he'
    rcases hnew e' he' with he' | rfl
    · simp [hno e' he']
    · simp [hadd.2]
  refine ⟨h.once, fun j t hm => h.pos j t ((hmember j t).mp hm).1,
    fun e' he' hadd' => absurd hadd' (hno' e' he'), fun i pl hpl => ?_⟩
  have hfits := h.fits i pl hpl
  have hleave : pl.qwTeamId ≠ 0 → e = ⟨i₀, j₀, .request (.playerLeave p t₀)⟩ ∧
      ∃ r, ack = ⟨j₀, i₀, .answer (.playerLeave r p)⟩ := by
    intro hne
    rcases hkind with ⟨rfl, -⟩ | hleave
    · exact absurd rfl ((hfits.kicked hne _ he).1 t₀)
    · exact hleave
  have hown : pl.qwTeamId ≠ 0 → i₀ = i ∧ j₀ = pl.dwTeamServerId ∧ t₀ = pl.qwTeamId := by
    intro hne
    have hmem := he
    rw [(hleave hne).1] at hmem
    exact hfits.leaving hne i₀ j₀ t₀ hmem
  refine ⟨hfits.named, fun e' he' hadd' => absurd hadd' (hno' e' he'), fun j t hm => ?_,
    fun j t hm => ?_, fun hne => ?_, fun hne e' he' => ?_, fun hne k j t hm => ?_,
    fun hne k j r hm => ?_, hfits.completed, fun hzero => ?_⟩
  · obtain ⟨e', he', hadd'⟩ := hm.mail
    exact absurd hadd' (hno' e' he')
  · obtain ⟨hm, hother⟩ := (hmember j t).mp hm
    rcases hfits.held j t hm with hrec | ⟨k, hk⟩ | ⟨k, hk⟩
    · exact .inl hrec
    · refine .inr (.inl ⟨k, ?_⟩)
      rcases hk with hk | hk
      · refine .inl ((hold _ hk).resolve_left ?_)
        rintro rfl
        simp at hkind
        exact hother ⟨hkind.1.2.1, hkind.1.2.2⟩
      · refine .inr ((hold _ hk).resolve_left ?_)
        rintro rfl
        simp at hkind
        exact hother ⟨hkind.1.2.1, hkind.1.2.2⟩
    · obtain ⟨e', he', hadd'⟩ := hk.mail
      simp [hno e' he'] at hadd'
  · obtain ⟨rfl, rfl, rfl⟩ := hown hne
    obtain ⟨-, r, rfl⟩ := hleave hne
    exact .inr (.inr ⟨r, by simp⟩)
  · rcases hnew e' he' with he' | rfl
    · exact hfits.kicked hne e' he'
    · obtain ⟨-, r, hack⟩ := hleave hne
      rw [hack]
      exact ⟨by simp, by simp⟩
  · rcases hnew _ hm with hm | hm
    · exact hfits.leaving hne k j t hm
    · obtain ⟨-, r, hack⟩ := hleave hne
      rw [hack] at hm
      simp at hm
  · obtain ⟨-, rfl, rfl⟩ := hown hne
    exact fun hm' => ((hmember _ _).mp hm').2 ⟨rfl, rfl⟩
  · obtain ⟨hserver, hidle⟩ := hfits.idle_of_no_adds hno hzero
    exact ⟨hserver, .inl hidle⟩

/-- The answer to a leave arrives. -/
theorem Kept.settle_leave (h : Kept p v) {pre post : List Envelope} {i j₀ : ServerId}
    {r : EErrorCode} (hmail : v.mail = pre ++ ⟨j₀, i, .answer (.playerLeave r p)⟩ :: post)
    {pl pl' : Player} (hpl : v.player i = some pl) (hname : pl'.qwPyayerId = pl.qwPyayerId)
    (hzero : pl'.qwTeamId = 0) (hserver : pl'.dwTeamServerId = 0) (hidle : pl'.eState = .idle) :
    Kept p ⟨Function.update v.player i (some pl'), v.member, pre ++ post⟩ := by
  have he : (⟨j₀, i, .answer (.playerLeave r p)⟩ : Envelope) ∈ v.mail := by simp [hmail]
  have hno := h.no_adds he rfl
  have hsub : ∀ e' ∈ pre ++ post, e' ∈ v.mail := by
    intro e' he'
    rw [hmail]
    simp only [List.mem_append, List.mem_cons] at he' ⊢
    tauto
  have hno' : ∀ e' ∈ pre ++ post, e'.msg.adds p ≠ true := fun e' he' => by
    simp [hno e' (hsub e' he')]
  have hfits := h.fits i pl hpl
  refine Kept.setPlayer (fun j hj => h.off hpl hj) h.pos
    (fun e' he' hadd' => absurd hadd' (hno' e' he')) ⟨hname.trans hfits.named,
      fun e' he' hadd' => absurd hadd' (hno' e' he'), fun j t hm => ?_, fun j t hm => ?_,
      (absurd hzero ·), (absurd hzero ·), (absurd hzero ·), (absurd hzero ·), (absurd hzero ·),
      fun _ => ⟨hserver, .inl hidle⟩⟩
  · obtain ⟨e', he', hadd'⟩ := hm.mail
    exact absurd hadd' (hno' e' he')
  · rcases hfits.held j t hm with ⟨rfl, rfl⟩ | ⟨k, hk⟩ | ⟨k, hk⟩
    · exact absurd hm (hfits.left (h.pos _ _ hm) i j₀ r he)
    · refine .inr (.inl ⟨k, ?_⟩)
      rw [hmail] at hk
      simpa using hk
    · obtain ⟨e', he', hadd'⟩ := hk.mail
      simp [hno e' he'] at hadd'

/-- The answer to a kick changes nothing, and nor does one to a leave when nobody is there. -/
theorem Kept.drop (h : Kept p v) {pre post : List Envelope} {i j₀ : ServerId}
    {a : TeamAckLogin} (hmail : v.mail = pre ++ ⟨j₀, i, .answer a⟩ :: post)
    (hkind : (∃ r, a = .kickPlayer r p) ∨ (∃ r, a = .playerLeave r p) ∧ v.player i = none) :
    Kept p ⟨v.player, v.member, pre ++ post⟩ := by
  have hadd : (Message.answer a).adds p = false := by
    rcases hkind with ⟨r, rfl⟩ | ⟨⟨r, rfl⟩, -⟩
    · rfl
    · rfl
  have he : (⟨j₀, i, .answer a⟩ : Envelope) ∈ v.mail := by simp [hmail]
  have hno := h.no_adds he hadd
  have hsub : ∀ e' ∈ pre ++ post, e' ∈ v.mail := by
    intro e' he'
    rw [hmail]
    simp only [List.mem_append, List.mem_cons] at he' ⊢
    tauto
  have hno' : ∀ e' ∈ pre ++ post, e'.msg.adds p ≠ true := fun e' he' => by
    simp [hno e' (hsub e' he')]
  refine ⟨h.once, h.pos, fun e' he' hadd' => absurd hadd' (hno' e' he'), fun k pl hpl => ?_⟩
  have hfits := h.fits k pl hpl
  refine ⟨hfits.named, fun e' he' hadd' => absurd hadd' (hno' e' he'), fun j t hm => ?_,
    fun j t hm => ?_, fun hne => ?_, fun hne e' he' => hfits.kicked hne e' (hsub e' he'),
    fun hne k' j t hm => hfits.leaving hne k' j t (hsub _ hm),
    fun hne k' j r hm => hfits.left hne k' j r (hsub _ hm), hfits.completed, fun hzero => ?_⟩
  · obtain ⟨e', he', hadd'⟩ := hm.mail
    exact absurd hadd' (hno' e' he')
  · rcases hfits.held j t hm with hrec | ⟨k', hk⟩ | ⟨k', hk⟩
    · exact .inl hrec
    · refine .inr (.inl ⟨k', ?_⟩)
      rw [hmail] at hk
      simpa using hk
    · obtain ⟨e', he', hadd'⟩ := hk.mail
      simp [hno e' he'] at hadd'
  · rcases hfits.recorded hne with hm | hm | ⟨r, hm⟩
    · exact .inl hm
    · rw [hmail] at hm
      exact .inr (.inl (by simpa using hm))
    · refine .inr (.inr ⟨r, ?_⟩)
      rw [hmail, List.mem_append, List.mem_cons] at hm
      rcases hm with hm | hm | hm
      · exact List.mem_append_left _ hm
      · obtain ⟨rfl, rfl, rfl⟩ := by simpa using hm
        rcases hkind with ⟨r', hr⟩ | ⟨-, hoff⟩
        · cases hr
        · rw [hoff] at hpl
          cases hpl
      · exact List.mem_append_right _ hm
  · obtain ⟨hserver, hidle⟩ := hfits.idle_of_no_adds hno hzero
    exact ⟨hserver, .inl hidle⟩

/-- A team goes away, and whoever is online and was in it is leaving it. -/
theorem Kept.release (h : Kept p v) {j₀ : ServerId} {t₀ : TeamId}
    {member : ServerId → TeamId → Prop}
    (hmember : ∀ j t, member j t ↔ v.member j t ∧ ¬ (j = j₀ ∧ t = t₀))
    (hleft : ∀ i pl, v.player i = some pl → v.member j₀ t₀ → v.Erasing p j₀ t₀) :
    Kept p ⟨v.player, member, v.mail⟩ := by
  refine ⟨h.once, fun j t hm => h.pos j t ((hmember j t).mp hm).1, h.alone, fun i pl hpl => ?_⟩
  have hfits := h.fits i pl hpl
  refine ⟨hfits.named, hfits.home, fun j t hm => ?_,
    fun j t hm => hfits.held j t ((hmember j t).mp hm).1, fun hne => ?_, hfits.kicked,
    hfits.leaving, fun hne k j r hm hm' => hfits.left hne k j r hm ((hmember _ _).mp hm').1,
    hfits.completed, hfits.idle⟩
  · refine (hmember j t).mpr ⟨hfits.joined j t hm, ?_⟩
    rintro ⟨rfl, rfl⟩
    obtain ⟨e, he, hadd⟩ := Joined.mail hm
    exact h.not_erasing he hadd j t (hleft i pl hpl (hfits.joined j t hm))
  · rcases hfits.recorded hne with hm | hm
    · by_cases hsame : pl.dwTeamServerId = j₀ ∧ pl.qwTeamId = t₀
      · obtain ⟨rfl, rfl⟩ := hsame
        obtain ⟨k, hk | hk⟩ := hleft i pl hpl hm
        · exact absurd rfl ((hfits.kicked hne _ hk).1 pl.qwTeamId)
        · obtain ⟨rfl, -, -⟩ := hfits.leaving hne k _ _ hk
          exact .inr (.inl hk)
      · exact .inl ((hmember _ _).mpr ⟨hm, hsame⟩)
    · exact .inr hm

end View

end WebGame
