import FxLib.Lib.Channel
import FxLib.Net.SendPipeline
import FxLib.Net.TcpFraming

/-!
# A TCP connection from end to end

`FxTCPConnectSock` on both sides: the send pipeline of one socket, the receive pipeline of the
other, and the stream of the kernel between them.
-/

/-! ### What is pushed -/

namespace SendPipeline

/-- The payload of a call of `Send`. -/
def called : PipelineStep → List (List UInt8)
  | .sendCall _ pData => [pData]
  | _ => []

/-- `Send` with a `BinaryDataHeader`. -/
def WithHeader : PipelineStep → Prop
  | .sendCall header pData =>
    header = some (BinaryDataHeader.buildSendPkgHeader pData.length)
  | _ => True

instance : (l : PipelineStep) → Decidable (WithHeader l)
  | .sendCall _ _ => inferInstanceAs (Decidable (_ = _))
  | .sendStep | .postSendFree _ | .onSend | .postSend | .kernelSend _ | .discard | .changeEvent _
  | .onConnect | .close => inferInstanceAs (Decidable True)

/-- The payload that `Send` is at work on. -/
inductive Current : MainPc → List (List UInt8) → Prop
  | idle : Current .idle []
  | postSendFree : Current .postSendFree []
  | isEmpty (pData : List UInt8) :
      Current (.isEmpty (some (BinaryDataHeader.buildSendPkgHeader pData.length)) pData) [pData]
  | clear (pData : List UInt8) :
      Current (.clear (some (BinaryDataHeader.buildSendPkgHeader pData.length)) pData) [pData]
  | push (pData : List UInt8) (nSendCount : Nat) :
      Current (.push (FxTCPConnectSock.encode pData).1 nSendCount) [pData]

/-- The longest frame of a ring. -/
def Short (payload : List UInt8) : Prop := 8 + payload.length ≤ 1073741824

/-- Of the payloads that `Send` was called with, `payloads` have been pushed. -/
structure Pushes (s : SendPipeline) (payloads calls : List (List UInt8)) : Prop where
  calls : ∃ front current, calls = front ++ current ∧ payloads.Sublist front ∧
    Current s.main current
  pushed : s.pushed = payloads.flatMap fun payload => (FxTCPConnectSock.encode payload).1
  short : ∀ payload ∈ payloads, Short payload

variable {s s' : SendPipeline} {payloads calls : List (List UInt8)}

theorem Pushes.keep (h : s.Pushes payloads calls) (hmain : s'.main = s.main)
    (hpushed : s'.pushed = s.pushed) : s'.Pushes payloads calls := by
  obtain ⟨front, current, hcalls, hsub, hcurrent⟩ := h.calls
  exact ⟨⟨front, current, hcalls, hsub, by rwa [hmain]⟩, by rw [hpushed, h.pushed], h.short⟩

/-- The IO thread leaves the main thread and what it has pushed alone. -/
structure LeavesMain (s s' : SendPipeline) : Prop where
  main : s'.main = s.main
  pushed : s'.pushed = s.pushed
  sent : s.sent <+: s'.sent

theorem leavesMain_self (s : SendPipeline) : s.LeavesMain s := ⟨rfl, rfl, List.prefix_rfl⟩

theorem leavesMain_doClose (s : SendPipeline) : s.LeavesMain s.doClose :=
  ⟨s.doClose_main, s.doClose_pushed, s.doClose_sent.symm ▸ List.prefix_rfl⟩

theorem leavesMain_sendFailed (s : SendPipeline) : s.LeavesMain s.sendFailed :=
  ⟨s.doClose_main, s.doClose_pushed, s.leavesMain_doClose.sent⟩

theorem leavesMain_onSend (hstep : s.onSend = some s') : s.LeavesMain s' := by
  simp only [onSend] at hstep
  split_ifs at hstep
  · exact Option.some.inj hstep ▸ s.leavesMain_self
  · exact Option.some.inj hstep ▸ ⟨rfl, rfl, List.prefix_rfl⟩

theorem leavesMain_postSend (hstep : s.postSend = some s') : s.LeavesMain s' := by
  simp only [postSend] at hstep
  split at hstep
  · cases hstep
  · split at hstep
    · exact Option.some.inj hstep ▸ s.leavesMain_sendFailed
    · split at hstep
      · exact Option.some.inj hstep ▸ ⟨rfl, rfl, List.prefix_rfl⟩
      · split at hstep
        · exact Option.some.inj hstep ▸ ⟨rfl, rfl, List.prefix_rfl⟩
        · split_ifs at hstep <;> exact Option.some.inj hstep ▸ ⟨rfl, rfl, List.prefix_rfl⟩

theorem leavesMain_kernelSend {r : SendRet} (hstep : s.kernelSend r = some s') :
    s.LeavesMain s' := by
  simp only [kernelSend] at hstep
  have hfailed := ({ s with sending := false } : SendPipeline).leavesMain_sendFailed
  split at hstep
  · split at hstep
    · exact Option.some.inj hstep ▸ ⟨rfl, rfl, List.prefix_rfl⟩
    · exact Option.some.inj hstep ▸ ⟨hfailed.main, hfailed.pushed, hfailed.sent⟩
    · split_ifs at hstep
      · exact Option.some.inj hstep ▸ ⟨hfailed.main, hfailed.pushed, hfailed.sent⟩
      · exact Option.some.inj hstep ▸ ⟨rfl, rfl, List.prefix_append _ _⟩
  · cases hstep

theorem leavesMain_discard (hstep : s.discard = some s') : s.LeavesMain s' := by
  simp only [discard] at hstep
  split at hstep
  · exact Option.some.inj hstep ▸ ⟨rfl, rfl, List.prefix_rfl⟩
  · cases hstep

theorem leavesMain_changeEvent {ok : Bool} (hstep : s.changeEvent ok = some s') :
    s.LeavesMain s' := by
  simp only [changeEvent] at hstep
  have hfailed := ({ s with sending := false } : SendPipeline).leavesMain_sendFailed
  split at hstep
  · split_ifs at hstep
    · exact Option.some.inj hstep ▸ ⟨rfl, rfl, List.prefix_rfl⟩
    · exact Option.some.inj hstep ▸ s.leavesMain_sendFailed
  · split_ifs at hstep
    · exact Option.some.inj hstep ▸ ⟨rfl, rfl, List.prefix_rfl⟩
    · exact Option.some.inj hstep ▸ s.leavesMain_sendFailed
  · split_ifs at hstep
    · exact Option.some.inj hstep ▸ ⟨rfl, rfl, List.prefix_rfl⟩
    · exact Option.some.inj hstep ▸ ⟨hfailed.main, hfailed.pushed, hfailed.sent⟩
  · cases hstep

theorem leavesMain_onConnect (hstep : s.onConnect = some s') : s.LeavesMain s' := by
  simp only [onConnect] at hstep
  split_ifs at hstep
  exact Option.some.inj hstep ▸ ⟨rfl, rfl, List.prefix_rfl⟩

theorem leavesMain_close (hstep : s.close = some s') : s.LeavesMain s' := by
  simp only [close] at hstep
  split_ifs at hstep
  exact Option.some.inj hstep ▸ s.leavesMain_doClose

theorem current_buildFrame (s : SendPipeline) (pData : List UInt8) :
    s.buildFrame (some (BinaryDataHeader.buildSendPkgHeader pData.length)) pData = .idle ∨
      Current (s.buildFrame (some (BinaryDataHeader.buildSendPkgHeader pData.length)) pData)
        [pData] := by
  simp only [buildFrame]
  split_ifs
  · exact .inl rfl
  · exact .inr (.push pData 0)

/-- A call that goes on, or comes to its end without a push. -/
theorem Pushes.drop {pData : List UInt8} {front : List (List UInt8)}
    (h : s.Pushes payloads calls) (hsub : payloads.Sublist front) (hpushed : s'.pushed = s.pushed)
    (hmain : s'.main = .idle ∨ Current s'.main [pData]) :
    s'.Pushes payloads (front ++ [pData]) := by
  have hframes := hpushed.trans h.pushed
  rcases hmain with hmain | hcurrent
  · refine ⟨⟨front ++ [pData], [], by simp, hsub.trans (List.sublist_append_left _ _), ?_⟩,
      hframes, h.short⟩
    rw [hmain]
    exact .idle
  · exact ⟨⟨front, [pData], rfl, hsub, hcurrent⟩, hframes, h.short⟩

/-- What the ring takes is no longer than the ring. -/
theorem short_of_pushBuff {q : List UInt8} (hrep : s.sendBuf.Rep q)
    (hsmall : s.sendBuf.totalLen ≤ 1073741824) {pData : List UInt8}
    (hok : (s.sendBuf.pushBuff (FxTCPConnectSock.encode pData).1
      (FxTCPConnectSock.encode pData).1.length).1 = true) : Short pData := by
  have hroom : ¬ s.sendBuf.freeLen < (FxTCPConnectSock.encode pData).1.length := fun hfull => by
    rw [FxLoopBuff.pushBuff_refused _ (Or.inr hfull)] at hok
    cases hok
  have hfree := hrep.free
  rw [FxTCPConnectSock.encode_length] at hroom
  rw [Short]
  omega

theorem Pushes.sendStep {done q : List UInt8} (h : s.Pushes payloads calls)
    (hcarries : s.Carries done q) (hstep : s.sendStep = some s') :
    ∃ payloads', s'.Pushes payloads' calls := by
  obtain ⟨front, current, rfl, hsub, hcurrent⟩ := h.calls
  simp only [SendPipeline.sendStep] at hstep
  generalize hmain : s.main = pc at hcurrent
  cases hcurrent with
  | idle | postSendFree => simp [hmain] at hstep
  | isEmpty pData =>
    simp only [hmain] at hstep
    split_ifs at hstep
    all_goals obtain rfl := Option.some.inj hstep
    · exact ⟨payloads, h.drop hsub rfl (.inr (.clear pData))⟩
    · exact ⟨payloads, h.drop hsub rfl (s.current_buildFrame pData)⟩
  | clear pData =>
    simp only [hmain] at hstep
    obtain rfl := Option.some.inj hstep
    exact ⟨payloads, h.drop hsub rfl (s.current_buildFrame pData)⟩
  | push pData nSendCount =>
    simp only [hmain] at hstep
    split_ifs at hstep with hok
    all_goals obtain rfl := Option.some.inj hstep
    · have hshort := short_of_pushBuff hcarries.rep hcarries.small hok
      refine ⟨payloads ++ [pData], ⟨front ++ [pData], [], by simp,
        hsub.append (List.Sublist.refl _), .postSendFree⟩, ?_, fun payload hmem => ?_⟩
      · simp [h.pushed]
      · rcases List.mem_append.mp hmem with hmem | hmem
        · exact h.short payload hmem
        · exact List.mem_singleton.mp hmem ▸ hshort
    · exact ⟨payloads, h.drop hsub rfl (.inl rfl)⟩
    · exact ⟨payloads, h.drop hsub rfl (.inr (.push pData _))⟩

theorem Pushes.step {done q : List UInt8} (h : s.Pushes payloads calls)
    (hcarries : s.Carries done q) {l : PipelineStep} (hl : WithHeader l)
    (hstep : l.apply s = some s') : ∃ payloads', s'.Pushes payloads' (calls ++ called l) := by
  have hkeep : s.LeavesMain s' → s'.Pushes payloads (calls ++ []) := fun hleaves => by
    rw [List.append_nil]
    exact h.keep hleaves.main hleaves.pushed
  cases l with
  | sendCall header pData =>
    obtain rfl := hl
    change s.sendCall _ pData = some s' at hstep
    obtain ⟨front, current, rfl, hsub, hcurrent⟩ := h.calls
    simp only [sendCall] at hstep
    split_ifs at hstep with hidle hconnected
    all_goals
      have hmain : s.main = .idle := not_not.mp hidle
      rw [hmain] at hcurrent
      cases hcurrent
      obtain rfl := Option.some.inj hstep
      rw [List.append_nil] at h ⊢
    · exact ⟨payloads, h.drop hsub rfl (.inl hmain)⟩
    · exact ⟨payloads, h.drop hsub rfl (.inr (.isEmpty pData))⟩
  | sendStep =>
    obtain ⟨payloads', h'⟩ := h.sendStep hcarries hstep
    exact ⟨payloads', by simpa [called] using h'⟩
  | postSendFree ok =>
    change s.postSendFree ok = some s' at hstep
    obtain ⟨front, current, rfl, hsub, hcurrent⟩ := h.calls
    simp only [postSendFree] at hstep
    split_ifs at hstep with hmain
    all_goals
      rw [not_not.mp hmain] at hcurrent
      cases hcurrent
      obtain rfl := Option.some.inj hstep
      exact ⟨payloads, ⟨front, [], by simp [called], hsub, .idle⟩, h.pushed, h.short⟩
  | onSend => exact ⟨payloads, hkeep (leavesMain_onSend hstep)⟩
  | postSend => exact ⟨payloads, hkeep (leavesMain_postSend hstep)⟩
  | kernelSend r => exact ⟨payloads, hkeep (leavesMain_kernelSend hstep)⟩
  | discard => exact ⟨payloads, hkeep (leavesMain_discard hstep)⟩
  | changeEvent ok => exact ⟨payloads, hkeep (leavesMain_changeEvent hstep)⟩
  | onConnect => exact ⟨payloads, hkeep (leavesMain_onConnect hstep)⟩
  | close => exact ⟨payloads, hkeep (leavesMain_close hstep)⟩

/-- After a run with headers the frames of some of the payloads have been pushed, in the order of
the calls and each at most once, and the kernel has got the first bytes of them. -/
theorem pushes_of_run {b sendBuf : FxLoopBuff} {cap : Nat} {realloc : Option Mem}
    {state : ESocketState} {sendLinger armed : Bool} {steps : List PipelineStep} (hpos : 0 < cap)
    (hcap : cap ≤ 1073741824) (hinit : b.init cap realloc = (true, sendBuf))
    (hheader : ∀ l ∈ steps, WithHeader l)
    (hrun : Transition.run PipelineStep.apply (.start state sendBuf sendLinger armed) steps
      = some s) :
    ∃ payloads : List (List UInt8), payloads.Sublist (steps.flatMap called) ∧
      s.pushed = payloads.flatMap (fun payload => (FxTCPConnectSock.encode payload).1) ∧
        (∀ payload ∈ payloads, Short payload) ∧ s.sent <+: s.pushed := by
  have hcarries := (start_carries state sendLinger armed hpos hcap hinit).1
  have hstart : (SendPipeline.start state sendBuf sendLinger armed).Pushes [] [] :=
    ⟨⟨[], [], rfl, List.Sublist.refl _, .idle⟩, rfl, by simp⟩
  have hstep : ∀ (s : SendPipeline) (l : PipelineStep) (s' : SendPipeline) calls,
      ((∃ done q, s.Carries done q) ∧ ∃ payloads, s.Pushes payloads calls) → WithHeader l →
        PipelineStep.apply s l = some s' →
          (∃ done q, s'.Carries done q) ∧ ∃ payloads, s'.Pushes payloads (calls ++ called l) :=
    fun s l s' calls ⟨⟨done, q, hcarries⟩, payloads, h⟩ hl hs' =>
      ⟨hcarries.step hs', h.step hcarries hl hs'⟩
  obtain ⟨⟨done, q, hcarries⟩, payloads, h⟩ := Transition.invariant_outputs hstep
    ⟨⟨[], [], hcarries⟩, [], hstart⟩ (Transition.always_of_forall hheader _) hrun
  rw [Transition.outputs_of_label called hrun, List.nil_append] at h
  obtain ⟨front, current, hcalls, hsub, -⟩ := h.calls
  rw [hcalls]
  exact ⟨payloads, hsub.trans (List.sublist_append_left front current), h.pushed, h.short,
    hcarries.prefix_pushed⟩

/-! ### What is handed to the kernel -/

/-- Only `send` itself changes what has been handed to the kernel. -/
theorem sent_grows (s : SendPipeline) (l : PipelineStep) (s' : SendPipeline)
    (hstep : PipelineStep.apply s l = some s') : s.sent <+: s'.sent := by
  cases l with
  | sendCall header pData =>
    change s.sendCall header pData = some s' at hstep
    simp only [sendCall] at hstep
    split_ifs at hstep <;> exact Option.some.inj hstep ▸ List.prefix_rfl
  | sendStep =>
    change s.sendStep = some s' at hstep
    simp only [SendPipeline.sendStep] at hstep
    split at hstep
    · cases hstep
    · cases hstep
    · split_ifs at hstep <;> exact Option.some.inj hstep ▸ List.prefix_rfl
    · exact Option.some.inj hstep ▸ List.prefix_rfl
    · split_ifs at hstep <;> exact Option.some.inj hstep ▸ List.prefix_rfl
  | postSendFree ok =>
    change s.postSendFree ok = some s' at hstep
    simp only [postSendFree] at hstep
    split_ifs at hstep <;> exact Option.some.inj hstep ▸ List.prefix_rfl
  | onSend => exact (leavesMain_onSend hstep).sent
  | postSend => exact (leavesMain_postSend hstep).sent
  | kernelSend r => exact (leavesMain_kernelSend hstep).sent
  | discard => exact (leavesMain_discard hstep).sent
  | changeEvent ok => exact (leavesMain_changeEvent hstep).sent
  | onConnect => exact (leavesMain_onConnect hstep).sent
  | close => exact (leavesMain_close hstep).sent

end SendPipeline

/-! ### The receiver on the stream -/

namespace FxTCPConnectSock

open RecvSock

/-- The bytes that a step of the receiver is given. -/
def reads : Op → List UInt8
  | .onRecv _ (.data bytes) _ => bytes
  | .onRecv _ (.error _) _ | .main | .delayClose => []

/-- The kernel gives some bytes or has none yet. -/
def Undisturbed : Op → Prop
  | .onRecv _ (.data bytes) _ => bytes ≠ []
  | .onRecv _ (.error errno) _ => (RecvRet.error errno).Transient
  | .main | .delayClose => True

instance : (op : Op) → Decidable (Undisturbed op)
  | .onRecv _ (.data bytes) _ => inferInstanceAs (Decidable (bytes ≠ []))
  | .onRecv _ (.error errno) _ => inferInstanceAs (Decidable (RecvRet.error errno).Transient)
  | .main | .delayClose => inferInstanceAs (Decidable True)

def frame (payload : List UInt8) : List UInt8 := (encode payload).1

theorem wire_encode (payloads : List (List UInt8)) :
    Framing.wire (payloads.map encode) (payloads.map encode).length = payloads.flatMap frame := by
  rw [Framing.wire, List.take_length, List.map_map, List.flatMap]
  rfl

/-- The receiver is connected and has got the first of `payloads`. -/
structure Receives (payloads : List (List UInt8)) (t : Sock) : Prop where
  state : t.state = .establish
  received : t.received <+: payloads
  drained : t.taken = payloads.flatMap frame → t.events = [] → t.received = payloads

variable {payloads : List (List UInt8)} {t₀ t : Sock} {ops : List Op}

theorem encode_pos (payloads : List (List UInt8)) : ∀ f ∈ payloads.map encode, 0 < f.1.length := by
  intro f hf
  obtain ⟨payload, -, rfl⟩ := List.mem_map.mp hf
  rw [encode_length]
  omega

theorem between_fresh (hfresh : Fresh t₀) (hfit : ∀ x ∈ payloads, 8 + x.length ≤ t₀.sessionSize) :
    Between (payloads.map encode) edges t₀ [] [] 0 0 := by
  refine hfresh.between fun f hf => ?_
  obtain ⟨payload, hmem, rfl⟩ := List.mem_map.mp hf
  rw [encode_length]
  exact hfit payload hmem

/-- A run that starts with a fresh socket follows the stream, whatever `recv` reports. -/
theorem follows_of_run (hfresh : Fresh t₀) (hshort : ∀ x ∈ payloads, SendPipeline.Short x)
    (hfit : ∀ x ∈ payloads, 8 + x.length ≤ t₀.sessionSize)
    (hops : Transition.Always step (Offers (payloads.map encode)) t₀ ops)
    (hrun : Transition.run step t₀ ops = some t) : Follows (payloads.map encode) edges t := by
  have hlen : ∀ x ∈ payloads, 8 + x.length < 2147483648 := fun x hx =>
    lt_of_le_of_lt (hshort x hx) (by decide)
  have hpos := encode_pos payloads
  have hstep : ∀ s op s', Follows (payloads.map encode) edges s →
      Offers (payloads.map encode) s op → step s op = some s' →
        Follows (payloads.map encode) edges s' :=
    fun s op s' h hop hs' => h.step ((hands hlen).side hpos) ((hands hlen).drains hpos)
      (fun _ _ _ _ _ _ _ h hloop => frameStep_onward hlen h hloop) hop
      (fun w => permits_edges s w op) hs'
  exact Transition.invariant_of_always hstep
    (Or.inl ⟨[], [], 0, 0, between_fresh hfresh hfit⟩) hops hrun

theorem receives_of_run (hfresh : Fresh t₀) (hshort : ∀ x ∈ payloads, SendPipeline.Short x)
    (hfit : ∀ x ∈ payloads, 8 + x.length ≤ t₀.sessionSize)
    (hops : Transition.Always step (Continues (payloads.map encode)) t₀ ops)
    (hrun : Transition.run step t₀ ops = some t) : Receives payloads t := by
  have hlen : ∀ x ∈ payloads, 8 + x.length < 2147483648 := fun x hx =>
    lt_of_le_of_lt (hshort x hx) (by decide)
  have hpos := encode_pos payloads
  have hstep : ∀ s op s', (∃ m w part k, Between (payloads.map encode) edges s m w part k) →
      Continues (payloads.map encode) s op → step s op = some s' →
      ∃ m w part k, Between (payloads.map encode) edges s' m w part k :=
    fun s op s' ⟨m, w, part, k, h⟩ hop hs' =>
      h.step ((hands hlen).side hpos) (fun _ _ _ _ _ _ _ h hloop => frameStep_onward hlen h hloop)
        hop (permits_edges s w op) hs'
  obtain ⟨m, w, part, k, hbetween⟩ := Transition.invariant_of_always hstep
    ⟨[], [], 0, 0, between_fresh hfresh hfit⟩ hops hrun
  obtain ⟨j, tail, h⟩ := hbetween.reassembled (fun w hw f hf hle => by
    have := hle.length_le
    have := (encode_wire hlen f hf).1
    have hw : w.length < 8 := hw
    omega) hpos
  have hreceived : t.received = payloads.take j := by
    rw [h.received, ← List.map_take, List.map_map]
    exact List.map_id _
  refine ⟨h.state, hreceived ▸ List.take_prefix j payloads, fun htaken hevents => ?_⟩
  have hall : k = (payloads.map encode).length :=
    h.complete (htaken.trans (wire_encode payloads).symm)
  rw [hreceived, h.drained hevents, hall, List.length_map, List.take_length]

/-- The receiver gets the first of `payloads`, also once it is closed; it stays connected and
misses none of them unless `recv` reports the end of the stream or an error. -/
def Delivered (payloads : List (List UInt8)) (ops : List Op) (t : Sock) : Prop :=
  t.received <+: payloads ∧ ((∀ op ∈ ops, Undisturbed op) → Receives payloads t)

/-- Whatever the sender is: what its kernel has taken is all that the receiver sees. -/
theorem delivered_of_channel {σ ι : Type*} {sender : σ → ι → Option σ} {sent : σ → List UInt8}
    (hgrows : ∀ s l s', sender s l = some s' → sent s <+: sent s') {s₀ s : σ}
    {ls : List (ι ⊕ Op)} (hfresh : Fresh t₀) (hshort : ∀ x ∈ payloads, SendPipeline.Short x)
    (hfit : ∀ x ∈ payloads, 8 + x.length ≤ t₀.sessionSize)
    (hrun : Transition.run (Channel.step sender sent step taken reads) (s₀, t₀) ls = some (s, t))
    (hsent : sent s <+: payloads.flatMap frame) :
    Delivered payloads (Channel.receiverSteps ls) t := by
  obtain ⟨-, hreceiver, halways⟩ := Channel.run_receiver hgrows hrun
  have hoffers : ∀ (t : Sock) op, taken t ++ reads op <+: sent s →
      Offers (payloads.map encode) t op := by
    intro t op hreads
    cases op with
    | onRecv fuel ret sched =>
      cases ret with
      | data bytes =>
        rw [Offers, wire_encode]
        exact hreads.trans hsent
      | error errno => trivial
    | main | delayClose => trivial
  refine ⟨?_, fun hls => receives_of_run hfresh hshort hfit ?_ hreceiver⟩
  · have hops := halways.imp (fun _ => True) (fun t op _ hreads => hoffers t op hreads)
      (fun _ _ _ _ _ _ => trivial) trivial
    have hreceived := (follows_of_run hfresh hshort hfit hops hreceiver).received
    rwa [List.map_map, show Prod.snd ∘ encode = id from rfl, List.map_id] at hreceived
  · refine ((Transition.always_of_forall hls t₀).and halways).imp (fun _ => True) ?_
      (fun _ _ _ _ _ _ => trivial) trivial
    rintro t op - ⟨hop, hreads⟩
    have hoffer := hoffers t op hreads
    cases op with
    | onRecv fuel ret sched =>
      cases ret with
      | data bytes => exact ⟨hop, hoffer⟩
      | error errno => exact hop
    | main | delayClose => trivial

/-! ### Both ends -/

/-- `FxTCPConnectSock` on both sides of the stream. -/
def channelStep : SendPipeline × Sock → PipelineStep ⊕ Op → Option (SendPipeline × Sock) :=
  Channel.step PipelineStep.apply SendPipeline.sent step taken reads

/-- However the four threads and the two kernels are interleaved: of the payloads that `Send` is
called with some are pushed, in the order of the calls and each at most once. Where their frames fit
the buffer of the session at the other end, it gets exactly these, in order; and as long as `recv`
reports no end and no error, the socket stays connected and all of them arrive. -/
theorem delivers_in_order {b sendBuf : FxLoopBuff} {cap : Nat} {realloc : Option Mem}
    {state : ESocketState} {sendLinger armed : Bool} {s : SendPipeline}
    {ls : List (PipelineStep ⊕ Op)} (hpos : 0 < cap) (hcap : cap ≤ 1073741824)
    (hinit : b.init cap realloc = (true, sendBuf)) (hfresh : Fresh t₀)
    (hheader : ∀ l ∈ Channel.senderSteps ls, SendPipeline.WithHeader l)
    (hrun : Transition.run channelStep (.start state sendBuf sendLinger armed, t₀) ls =
      some (s, t)) :
    ∃ payloads : List (List UInt8),
      payloads.Sublist ((Channel.senderSteps ls).flatMap SendPipeline.called) ∧
        s.pushed = payloads.flatMap frame ∧
          ((∀ x ∈ payloads, 8 + x.length ≤ t₀.sessionSize) →
            Delivered payloads (Channel.receiverSteps ls) t) := by
  obtain ⟨payloads, hsub, hpushed, hshort, hsent⟩ :=
    SendPipeline.pushes_of_run hpos hcap hinit hheader (Channel.run_sender hrun)
  exact ⟨payloads, hsub, hpushed, fun hfit => delivered_of_channel SendPipeline.sent_grows hfresh
    hshort hfit hrun (hpushed ▸ hsent)⟩

/-- A frame that the session has no room for closes the socket, and the next length that is queued
is popped from its bytes: the session gets what nobody has sent. -/
example : (Transition.run step (accepted ⟨fun _ => 0, []⟩ 64 16)
    [.onRecv 9 (.data (frame (List.replicate 9 7) ++ frame [5])) [], .main, .main, .main,
      .main]).map (·.received) = some [[7]] := by decide +kernel

/-- Two payloads; the kernel of the sender stops inside the second header, and the receiver is
given what is there before the rest is sent. -/
def twoPayloads : List (PipelineStep ⊕ Op) :=
  let send (pData : List UInt8) (calls : Nat) : List (PipelineStep ⊕ Op) :=
    .inl (.sendCall (some (BinaryDataHeader.buildSendPkgHeader pData.length)) pData) ::
      (List.replicate calls (.inl .sendStep) ++ [.inl (.postSendFree true)])
  let out (nRet : Int) : List (PipelineStep ⊕ Op) :=
    [.inl .onSend, .inl .postSend, .inl (.kernelSend (.count nRet)), .inl .discard,
      .inl (.changeEvent true)]
  send [1, 2] 3 ++ [.inr .main] ++ send [3] 2 ++ out 13 ++
    [.inr (.onRecv 9 (.data ((frame [1, 2]) ++ (frame [3]).take 3)) []), .inr .main, .inr .main,
      .inr (.onRecv 9 (.error 11) [])] ++ out 6 ++
    [.inr (.onRecv 9 (.data ((frame [3]).drop 3)) []), .inr .main]

theorem delivers_in_order_two : ∃ s t,
    Transition.run channelStep (.start .establish tcpSendBuf false true,
      accepted ⟨fun _ => 0, []⟩ 16 64) twoPayloads = some (s, t) ∧
    ∃ payloads : List (List UInt8),
      payloads.Sublist ((Channel.senderSteps twoPayloads).flatMap SendPipeline.called) ∧
        s.pushed = payloads.flatMap frame ∧ Receives payloads t := by
  have hsome : (Transition.run channelStep (.start .establish tcpSendBuf false true,
      accepted ⟨fun _ => 0, []⟩ 16 64) twoPayloads).isSome := by decide +kernel
  obtain ⟨⟨s, t⟩, hrun⟩ := Option.isSome_iff_exists.mp hsome
  have hinit : FxLoopBuff.new.init ((4194304 : Nat) : Int) (some fun _ => 0) =
      (true, tcpSendBuf) := rfl
  have hfresh := fresh_accepted (⟨fun _ => 0, []⟩ : BinaryDataHeader)
    (show (0 : Int) < 16 by omega) (by omega) 64
  obtain ⟨payloads, hsub, hpushed, hdelivered⟩ := delivers_in_order (by decide) (by decide) hinit
    hfresh (by decide +kernel) hrun
  have hcalls : ∀ x ∈ (Channel.senderSteps twoPayloads).flatMap SendPipeline.called,
      8 + x.length ≤ 64 := by decide +kernel
  have hreceives := (hdelivered fun x hx => hcalls x (hsub.subset hx)).2 (by decide +kernel)
  exact ⟨s, t, hrun, payloads, hsub, hpushed, hreceives⟩

end FxTCPConnectSock
