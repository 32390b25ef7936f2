import FxLib.Lib.Transition
import FxLib.Net.LoopBuffSpec
import FxLib.Net.NetEvent

/-!
# The TCP send pipeline

The main thread runs `FxTCPConnectSockBase::Send`: it pushes a frame into the send
ring and arms `EPOLLOUT` in `PostSendFree`. The IO thread runs `OnSend` and
`PostSend`: it hands the ring's first region to the kernel, discards what was
taken and sets the socket's events. Every call on the ring, on the kernel and on
the epoll instance is one step, and any step of one thread may come between two
steps of the other.
-/

/-- Where the main thread stands in `Send`. -/
inductive MainPc where
  | idle
  | isEmpty (header : Option (List UInt8)) (pData : List UInt8)
  | clear (header : Option (List UInt8)) (pData : List UInt8)
  | push (pTemData : List UInt8) (nSendCount : Nat)
  | postSendFree
  deriving DecidableEq

/-- Where the IO thread stands in `OnSend`, `PostSend` or `OnConnect`. -/
inductive IoPc where
  | idle
  | postSend
  | changeIn
  | send (pSendBuf nLen : Int)
  | discard (nRet : Int)
  | changeOut
  | onConnect
  deriving DecidableEq

/-- What the kernel's `send` answers. -/
inductive SendRet where
  | eagain
  | error
  | count (nRet : Int)

structure SendPipeline where
  state : ESocketState
  /-- `GetSock()` is a descriptor. -/
  sock : Bool
  sendBuf : FxLoopBuff
  sending : Bool
  sendLinger : Bool
  /-- `EPOLLOUT` is in the socket's event mask. -/
  armed : Bool
  main : MainPc
  io : IoPc
  /-- The bytes pushed into the send ring so far. -/
  pushed : List UInt8
  /-- The bytes handed to the kernel so far. -/
  sent : List UInt8

namespace SendPipeline

def isConnected (s : SendPipeline) : Bool := s.state = .establish

/-- `Close`, which leaves the epoll set as well. -/
def doClose (s : SendPipeline) : SendPipeline :=
  if s.state = .release ∨ s.state = .close then s
  else
    let s := if s.isConnected then { s with state := .close } else s
    if s.sock = false then s
    else { s with sock := false, armed := false }

/-! ### The main thread -/

/-- `Send` is called with the header that `BuildSendPkgHeader` gives, `none` where
there is no data header. -/
def sendCall (header : Option (List UInt8)) (pData : List UInt8) (s : SendPipeline) :
    Option SendPipeline :=
  if s.main ≠ .idle then none
  else if s.isConnected = false then some s
  else some { s with main := .isEmpty header pData }

/-- The header goes in front; a frame that can never fit closes the socket later. -/
def buildFrame (header : Option (List UInt8)) (pData : List UInt8) (s : SendPipeline) : MainPc :=
  match header with
  | none => .idle
  | some pDataHeaderBuff =>
    if s.sendBuf.getTotalLen < pData.length + pDataHeaderBuff.length then .idle
    else .push (pDataHeaderBuff ++ pData) 0

/-- The next ring call of `Send`. -/
def sendStep (s : SendPipeline) : Option SendPipeline :=
  match s.main with
  | .idle | .postSendFree => none
  | .isEmpty header pData =>
    if s.sendBuf.isEmpty then some { s with main := .clear header pData }
    else some { s with main := s.buildFrame header pData }
  | .clear header pData =>
    some { s with sendBuf := s.sendBuf.clear, main := s.buildFrame header pData }
  | .push pTemData nSendCount =>
    let (ok, sendBuf) := s.sendBuf.pushBuff pTemData pTemData.length
    if ok then
      some { s with sendBuf := sendBuf, pushed := s.pushed ++ pTemData, main := .postSendFree }
    else if s.sendLinger = false ∨ 30 < nSendCount + 1 then some { s with main := .idle }
    else some { s with main := .push pTemData (nSendCount + 1) }

/-- `ok` is what `epoll_ctl` answers; on failure `Send` only posts a close. -/
def postSendFree (ok : Bool) (s : SendPipeline) : Option SendPipeline :=
  if s.main ≠ .postSendFree then none
  else if s.isConnected = false then some { s with main := .idle }
  else if s.sock ∧ ok then some { s with armed := true, main := .idle }
  else some { s with main := .idle }

/-! ### The IO thread -/

def onSend (s : SendPipeline) : Option SendPipeline :=
  if s.io ≠ .idle then none
  else if s.isConnected = false then some s
  else some { s with sending := false, io := .postSend }

/-- A `PostSend` that returns `false`: `OnSend` closes the socket. -/
def sendFailed (s : SendPipeline) : SendPipeline :=
  { s.doClose with io := .idle }

/-- `PostSend` up to the answer of `GetOutCursorPtr`. -/
def postSend (s : SendPipeline) : Option SendPipeline :=
  if s.io ≠ .postSend then none
  else if s.isConnected = false then some s.sendFailed
  else if s.sending then some { s with io := .idle }
  else
    let r := s.sendBuf.getOutCursorPtr
    match r.ptr with
    | none => some { s with io := .changeIn }
    | some pSendBuf =>
      if 0 ≥ r.len then some { s with io := .changeIn }
      else
        some { s with sending := true
                      io := .send pSendBuf (if sndLowat < r.len then sndLowat else r.len) }

/-- `send` itself: the kernel takes at most what it was offered. -/
def kernelSend (r : SendRet) (s : SendPipeline) : Option SendPipeline :=
  match s.io with
  | .send pSendBuf nLen =>
    match r with
    | .eagain => some { s with io := .changeOut }
    | .error => some { s with sending := false }.sendFailed
    | .count nRet =>
      if nRet < 0 ∨ nLen < nRet then none
      else if 0 = nRet then some { s with sending := false }.sendFailed
      else
        some { s with sent := s.sent ++ s.sendBuf.copyOut (some pSendBuf) nRet
                      io := .discard nRet }
  | _ => none

def discard (s : SendPipeline) : Option SendPipeline :=
  match s.io with
  | .discard nRet => some { s with sendBuf := (s.sendBuf.discardBuff nRet).2, io := .changeOut }
  | _ => none

/-- `ChangeEvent` on the IO thread. -/
def changeEvent (ok : Bool) (s : SendPipeline) : Option SendPipeline :=
  match s.io with
  | .changeIn | .onConnect =>
    if s.sock ∧ ok then some { s with armed := false, io := .idle } else some s.sendFailed
  | .changeOut =>
    if s.sock ∧ ok then some { s with armed := true, io := .idle }
    else some { s with sending := false }.sendFailed
  | _ => none

/-- `OnConnect`: established first, the events are set afterwards. -/
def onConnect (s : SendPipeline) : Option SendPipeline :=
  if s.io ≠ .idle ∨ s.state ≠ .connect ∨ s.sock = false then none
  else some { s with state := .establish, io := .onConnect }

/-- Every other way the IO thread comes to close the socket. -/
def close (s : SendPipeline) : Option SendPipeline :=
  if s.io ≠ .idle then none else some s.doClose

end SendPipeline

/-! ### Runs -/

inductive PipelineStep where
  | sendCall (header : Option (List UInt8)) (pData : List UInt8)
  | sendStep
  | postSendFree (ok : Bool)
  | onSend
  | postSend
  | kernelSend (r : SendRet)
  | discard
  | changeEvent (ok : Bool)
  | onConnect
  | close

namespace PipelineStep

def apply (s : SendPipeline) : PipelineStep → Option SendPipeline
  | .sendCall header pData => s.sendCall header pData
  | .sendStep => s.sendStep
  | .postSendFree ok => s.postSendFree ok
  | .onSend => s.onSend
  | .postSend => s.postSend
  | .kernelSend r => s.kernelSend r
  | .discard => s.discard
  | .changeEvent ok => s.changeEvent ok
  | .onConnect => s.onConnect
  | .close => s.close

end PipelineStep

/-! ### The bytes -/

namespace SendPipeline

@[simp] theorem doClose_sendBuf (s : SendPipeline) : s.doClose.sendBuf = s.sendBuf := by
  simp only [doClose]
  split_ifs <;> rfl

@[simp] theorem doClose_pushed (s : SendPipeline) : s.doClose.pushed = s.pushed := by
  simp only [doClose]
  split_ifs <;> rfl

@[simp] theorem doClose_sent (s : SendPipeline) : s.doClose.sent = s.sent := by
  simp only [doClose]
  split_ifs <;> rfl

@[simp] theorem doClose_main (s : SendPipeline) : s.doClose.main = s.main := by
  simp only [doClose]
  split_ifs <;> rfl

@[simp] theorem doClose_io (s : SendPipeline) : s.doClose.io = s.io := by
  simp only [doClose]
  split_ifs <;> rfl

/-- A closed socket is not established. -/
theorem doClose_state (s : SendPipeline) : s.doClose.state ≠ .establish := by
  simp only [doClose, isConnected, decide_eq_true_eq]
  by_cases hdown : s.state = .release ∨ s.state = .close
  · rw [if_pos hdown]
    rcases hdown with he | he <;> simp [he]
  · rw [if_neg hdown]
    by_cases he : s.state = .establish
    · split_ifs <;> simp
    · split_ifs <;> exact he

end SendPipeline

/-- Bytes the kernel has and the ring still holds. -/
def IoPc.inFlight : IoPc → Nat
  | .discard nRet => nRet.toNat
  | _ => 0

/-- What the IO thread knows of the ring between two of its calls. -/
def IoPc.Offers (b : FxLoopBuff) (q : List UInt8) : IoPc → Prop
  | .send pSendBuf nLen =>
    pSendBuf = b.outCursor ∧ 0 < nLen ∧ nLen ≤ q.length ∧ b.outCursor + nLen ≤ b.totalLen
  | .discard nRet => 0 < nRet ∧ nRet ≤ q.length
  | _ => True

/-- The ring holds `q`, everything before it has been handed over and discarded. -/
structure SendPipeline.Carries (s : SendPipeline) (done q : List UInt8) : Prop where
  rep : s.sendBuf.Rep q
  small : s.sendBuf.totalLen ≤ 1073741824
  pushed : s.pushed = done ++ q
  sent : s.sent = done ++ q.take s.io.inFlight
  io : s.io.Offers s.sendBuf q
  clear : ∀ header pData, s.main = .clear header pData → q = []

namespace SendPipeline.Carries

variable {s s' : SendPipeline} {done q : List UInt8}

theorem prefix_pushed (h : s.Carries done q) : s.sent <+: s.pushed := by
  rw [h.sent, h.pushed]
  exact (List.prefix_append_right_inj done).mpr (List.take_prefix _ q)

/-- A step of the IO thread that leaves ring and counters alone. -/
theorem moveIo (h : s.Carries done q) (io : IoPc) (hflight : s.io.inFlight = 0)
    (hflight' : io.inFlight = 0) (hio : io.Offers s.sendBuf q) (sending armed : Bool) :
    ({ s with io := io, sending := sending, armed := armed } : SendPipeline).Carries done q := by
  refine ⟨h.rep, h.small, h.pushed, ?_, hio, h.clear⟩
  have hsent := h.sent
  rw [hflight] at hsent
  simpa [hflight'] using hsent

/-- A step of the main thread that leaves ring and counters alone. -/
theorem moveMain (h : s.Carries done q) {main : MainPc}
    (hclear : ∀ header pData, main = .clear header pData → q = []) (armed : Bool) :
    ({ s with main := main, armed := armed } : SendPipeline).Carries done q :=
  ⟨h.rep, h.small, h.pushed, h.sent, h.io, hclear⟩

theorem doClose (h : s.Carries done q) : s.doClose.Carries done q := by
  refine ⟨?_, ?_, ?_, ?_, ?_, ?_⟩
  · simpa using h.rep
  · simpa using h.small
  · simpa using h.pushed
  · simpa using h.sent
  · simpa using h.io
  · simpa using h.clear

theorem sendFailed (h : s.Carries done q) (hflight : s.io.inFlight = 0) :
    s.sendFailed.Carries done q := by
  have hflight' : s.doClose.io.inFlight = 0 := by simpa using hflight
  exact h.doClose.moveIo .idle hflight' rfl trivial s.doClose.sending s.doClose.armed

theorem buildFrame_ne_clear (s : SendPipeline) (header header' : Option (List UInt8))
    (pData pData' : List UInt8) : s.buildFrame header pData ≠ .clear header' pData' := by
  simp only [buildFrame]
  split
  · simp
  · split_ifs <;> simp

theorem step_sendStep (h : s.Carries done q) (hstep : s.sendStep = some s') :
    ∃ q', s'.Carries done q' := by
  simp only [sendStep] at hstep
  cases hmain : s.main with
  | idle => simp [hmain] at hstep
  | postSendFree => simp [hmain] at hstep
  | isEmpty header pData =>
    simp only [hmain] at hstep
    split at hstep
    · rename_i he
      obtain rfl := Option.some.inj hstep
      have hq := h.rep.isEmpty_iff.mp (by simpa [FxLoopBuff.isEmpty] using he)
      exact ⟨q, h.moveMain (fun _ _ _ => hq) _⟩
    · obtain rfl := Option.some.inj hstep
      exact ⟨q, h.moveMain (fun _ _ hc => absurd hc (buildFrame_ne_clear s _ _ _ _)) _⟩
  | clear header pData =>
    simp only [hmain] at hstep
    obtain rfl := Option.some.inj hstep
    obtain rfl := h.clear header pData hmain
    have he : s.sendBuf.isEmpty = true := by
      simpa [FxLoopBuff.isEmpty] using h.rep.isEmpty_iff.mpr rfl
    refine ⟨[], h.rep.clear he, h.small, h.pushed, by simpa using h.sent, ?_,
      fun _ _ hc => absurd hc (buildFrame_ne_clear s _ _ _ _)⟩
    have hio := h.io
    cases hpc : s.io with
    | send pSendBuf nLen =>
      simp only [hpc, IoPc.Offers, List.length_nil] at hio
      omega
    | discard nRet =>
      simp only [hpc, IoPc.Offers, List.length_nil] at hio
      omega
    | _ => trivial
  | push pTemData nSendCount =>
    simp only [hmain] at hstep
    have hsmall := h.small
    have hfree := h.rep.free
    have hin := h.rep.in_lt
    by_cases hfits : 0 < (pTemData.length : Int) ∧ (pTemData.length : Int) ≤ s.sendBuf.freeLen
    · obtain ⟨m, heq, hrep⟩ := h.rep.pushBuff hfits.1 (le_refl (pTemData.length : Int)) hfits.2
        ⟨by have := h.rep.in_nonneg; omega, by omega⟩
      rw [heq] at hstep
      simp only [if_true] at hstep
      obtain rfl := Option.some.inj hstep
      simp only [Int.toNat_natCast, List.take_length] at hrep heq ⊢
      refine ⟨q ++ pTemData, hrep, by simpa using hsmall, ?_, ?_, ?_, by simp⟩
      · simp [h.pushed]
      · have hio := h.io
        cases hpc : s.io with
        | discard nRet =>
          simp only [hpc, IoPc.Offers] at hio
          have hsent := h.sent
          simp only [hpc, IoPc.inFlight] at hsent ⊢
          rw [hsent, List.take_append_of_le_length (by omega)]
        | _ => simpa [hpc, IoPc.inFlight] using h.sent
      · have hio := h.io
        cases hpc : s.io with
        | send pSendBuf nLen =>
          simp only [hpc, IoPc.Offers] at hio ⊢
          simp only [List.length_append, FxLoopBuff.advanceIn_outCursor,
            FxLoopBuff.advanceIn_totalLen]
          omega
        | discard nRet =>
          simp only [hpc, IoPc.Offers] at hio ⊢
          simp only [List.length_append]
          omega
        | _ => trivial
    · rw [FxLoopBuff.pushBuff_refused pTemData (by omega)] at hstep
      simp only [Bool.false_eq_true, if_false] at hstep
      split at hstep
      · obtain rfl := Option.some.inj hstep
        exact ⟨q, h.moveMain (by simp) _⟩
      · obtain rfl := Option.some.inj hstep
        exact ⟨q, h.moveMain (by simp) _⟩

theorem step_postSend (h : s.Carries done q) (hstep : s.postSend = some s') :
    s'.Carries done q := by
  simp only [postSend] at hstep
  split at hstep
  · cases hstep
  rename_i hpc
  have hpc : s.io = .postSend := by simpa using hpc
  have hflight : s.io.inFlight = 0 := by rw [hpc]; rfl
  split at hstep
  · obtain rfl := Option.some.inj hstep
    exact h.sendFailed hflight
  split at hstep
  · obtain rfl := Option.some.inj hstep
    exact h.moveIo .idle hflight rfl trivial _ _
  by_cases hq : q = []
  · subst hq
    rw [FxLoopBuff.getOutCursorPtr_empty h.rep] at hstep
    obtain rfl := Option.some.inj hstep
    exact h.moveIo .changeIn hflight rfl trivial _ _
  · obtain ⟨n, hreg, hpos, hle, hend, _⟩ := FxLoopBuff.getOutCursorPtr_eq h.rep hq
    rw [hreg] at hstep
    simp only at hstep
    rw [if_neg (by omega)] at hstep
    obtain rfl := Option.some.inj hstep
    have hoffer : IoPc.Offers s.sendBuf q
        (.send s.sendBuf.outCursor (if sndLowat < (n : Int) then sndLowat else n)) := by
      simp only [IoPc.Offers, sndLowat, true_and]
      split_ifs <;> omega
    exact h.moveIo _ hflight rfl hoffer _ _

theorem step_kernelSend (h : s.Carries done q) {r : SendRet} (hstep : s.kernelSend r = some s') :
    s'.Carries done q := by
  simp only [kernelSend] at hstep
  cases hpc : s.io with
  | send pSendBuf nLen =>
    have hflight : s.io.inFlight = 0 := by rw [hpc]; rfl
    have hio := h.io
    rw [hpc] at hio
    have hoffer := hio
    obtain ⟨rfl, hpos, hlen, hend⟩ := hio
    simp only [hpc] at hstep
    cases r with
    | eagain =>
      obtain rfl := Option.some.inj hstep
      exact h.moveIo .changeOut hflight rfl trivial _ _
    | error =>
      obtain rfl := Option.some.inj hstep
      exact (h.moveIo (.send _ nLen) hflight rfl hoffer false s.armed).sendFailed rfl
    | count nRet =>
      simp only at hstep
      split at hstep
      · cases hstep
      split at hstep
      · obtain rfl := Option.some.inj hstep
        exact (h.moveIo (.send _ nLen) hflight rfl hoffer false s.armed).sendFailed rfl
      obtain rfl := Option.some.inj hstep
      refine ⟨h.rep, h.small, h.pushed, ?_, ?_, h.clear⟩
      · have hsent := h.sent
        simp only [hflight, List.take_zero, List.append_nil] at hsent
        simp only [hsent, FxLoopBuff.copyOut, IoPc.inFlight]
        rw [h.rep.read_out (by omega) (by omega)]
      · change 0 < nRet ∧ nRet ≤ (q.length : Int)
        omega
  | _ => simp [hpc] at hstep

theorem step_discard (h : s.Carries done q) (hstep : s.discard = some s') :
    ∃ done' q', s'.Carries done' q' := by
  simp only [discard] at hstep
  cases hpc : s.io with
  | discard nRet =>
    simp only [hpc] at hstep
    have hio := h.io
    rw [hpc] at hio
    obtain ⟨hpos, hle⟩ := hio
    have hsmall := h.small
    have hlen := h.rep.length_le
    have hout := h.rep.out_lt
    have hout0 := h.rep.out_nonneg
    rw [FxLoopBuff.discardBuff_eq h.rep hpos hle ⟨by omega, by omega⟩] at hstep
    obtain rfl := Option.some.inj hstep
    have hsent := h.sent
    simp only [hpc, IoPc.inFlight] at hsent
    refine ⟨done ++ q.take nRet.toNat, q.drop nRet.toNat, h.rep.advanceOut (by omega),
      by simpa using hsmall, ?_, ?_, trivial, ?_⟩
    · rw [List.append_assoc, List.take_append_drop]
      exact h.pushed
    · simpa [IoPc.inFlight] using hsent
    · intro header pData hmain
      rw [h.clear header pData hmain]
      simp
  | _ => simp [hpc] at hstep

theorem step_changeEvent (h : s.Carries done q) {ok : Bool}
    (hstep : s.changeEvent ok = some s') : s'.Carries done q := by
  simp only [changeEvent] at hstep
  cases hpc : s.io with
  | changeIn | onConnect =>
    have hflight : s.io.inFlight = 0 := by rw [hpc]; rfl
    simp only [hpc] at hstep
    split at hstep
    · obtain rfl := Option.some.inj hstep
      exact h.moveIo .idle hflight rfl trivial _ _
    · obtain rfl := Option.some.inj hstep
      exact h.sendFailed hflight
  | changeOut =>
    have hflight : s.io.inFlight = 0 := by rw [hpc]; rfl
    simp only [hpc] at hstep
    split at hstep
    · obtain rfl := Option.some.inj hstep
      exact h.moveIo .idle hflight rfl trivial _ _
    · obtain rfl := Option.some.inj hstep
      exact (h.moveIo .changeOut hflight rfl trivial false s.armed).sendFailed rfl
  | _ => simp [hpc] at hstep

/-- Every step of either thread keeps the account of the bytes. -/
theorem step (h : s.Carries done q) {l : PipelineStep} (hstep : l.apply s = some s') :
    ∃ done' q', s'.Carries done' q' := by
  cases l with
  | sendCall header pData =>
    change s.sendCall header pData = some s' at hstep
    simp only [sendCall] at hstep
    split_ifs at hstep
    · exact ⟨done, q, Option.some.inj hstep ▸ h⟩
    · obtain rfl := Option.some.inj hstep
      exact ⟨done, q, h.moveMain (by simp) s.armed⟩
  | sendStep =>
    obtain ⟨q', hq'⟩ := h.step_sendStep hstep
    exact ⟨done, q', hq'⟩
  | postSendFree ok =>
    change s.postSendFree ok = some s' at hstep
    simp only [postSendFree] at hstep
    split_ifs at hstep <;> obtain rfl := Option.some.inj hstep
    · exact ⟨done, q, h.moveMain (by simp) s.armed⟩
    · exact ⟨done, q, h.moveMain (by simp) true⟩
    · exact ⟨done, q, h.moveMain (by simp) s.armed⟩
  | onSend =>
    change s.onSend = some s' at hstep
    simp only [onSend] at hstep
    split_ifs at hstep with hpc
    · exact ⟨done, q, Option.some.inj hstep ▸ h⟩
    · obtain rfl := Option.some.inj hstep
      have hflight : s.io.inFlight = 0 := by
        rw [not_not.mp hpc]
        rfl
      exact ⟨done, q, h.moveIo .postSend hflight rfl trivial false s.armed⟩
  | postSend => exact ⟨done, q, h.step_postSend hstep⟩
  | kernelSend r => exact ⟨done, q, h.step_kernelSend hstep⟩
  | discard => exact h.step_discard hstep
  | changeEvent ok => exact ⟨done, q, h.step_changeEvent hstep⟩
  | onConnect =>
    change s.onConnect = some s' at hstep
    simp only [onConnect] at hstep
    split_ifs at hstep with hpc
    obtain rfl := Option.some.inj hstep
    have hflight : s.io.inFlight = 0 := by
      rw [not_not.mp fun hc => hpc (Or.inl hc)]
      rfl
    have hmove := h.moveIo .onConnect hflight rfl trivial s.sending s.armed
    exact ⟨done, q, hmove.1, hmove.2, hmove.3, hmove.4, hmove.5, hmove.6⟩
  | close =>
    change s.close = some s' at hstep
    simp only [close] at hstep
    split_ifs at hstep
    obtain rfl := Option.some.inj hstep
    exact ⟨done, q, h.doClose⟩

end SendPipeline.Carries

/-! ### The wake-ups -/

/-- The IO thread takes `EPOLLOUT` out of the mask only while the ring is still empty or the
main thread is about to arm it, and the main thread's arming succeeds. -/
def KeepsWake (s : SendPipeline) : PipelineStep → Prop
  | .changeEvent true =>
    s.io = .changeIn ∨ s.io = .onConnect → s.sendBuf.isEmpty = true ∨ s.main = .postSendFree
  | .postSendFree false => s.isConnected = false
  | _ => True

instance (s : SendPipeline) : (l : PipelineStep) → Decidable (KeepsWake s l)
  | .changeEvent true =>
    inferInstanceAs (Decidable (s.io = .changeIn ∨ s.io = .onConnect →
      s.sendBuf.isEmpty = true ∨ s.main = .postSendFree))
  | .postSendFree false => inferInstanceAs (Decidable (s.isConnected = false))
  | .changeEvent false | .postSendFree true | .sendCall _ _ | .sendStep | .onSend | .postSend
  | .kernelSend _ | .discard | .onConnect | .close => inferInstanceAs (Decidable True)

/-- An established socket with bytes in its ring is armed, unless the main thread is just
about to do that. -/
structure SendPipeline.Awake (s : SendPipeline) : Prop where
  fresh : s.state = .connect → s.sendBuf.isEmpty = true ∧ s.main = .idle
  sock : s.state = .establish → s.sock = true
  armed : s.state = .establish → s.sendBuf.isEmpty = false → s.main ≠ .postSendFree →
    s.armed = true

namespace SendPipeline.Awake

variable {s s' : SendPipeline} {done q : List UInt8}

/-- A step that changes neither the socket, nor its mask, nor whether the ring is empty. -/
theorem move (h : s.Awake) (hstate : s'.state = s.state) (hsock : s'.sock = s.sock)
    (hempty : s'.sendBuf.isEmpty = s.sendBuf.isEmpty) (harmed : s'.armed = s.armed)
    (hmain : s'.main = s.main ∨ (s.state ≠ .connect ∧ s.main ≠ .postSendFree)) : s'.Awake := by
  refine ⟨fun he => ?_, fun he => ?_, fun he hq hm => ?_⟩
  · have hfresh := h.fresh (hstate ▸ he)
    rcases hmain with hmain | ⟨hconn, _⟩
    · exact ⟨hempty ▸ hfresh.1, hmain ▸ hfresh.2⟩
    · exact absurd (hstate ▸ he) hconn
  · rw [hsock]
    exact h.sock (hstate ▸ he)
  · rw [harmed]
    refine h.armed (hstate ▸ he) (hempty ▸ hq) ?_
    rcases hmain with hmain | ⟨_, hmain⟩
    · rwa [hmain] at hm
    · exact hmain

/-- Inside `Send` the connection has been established before. -/
theorem not_connect (h : s.Awake) (hmain : s.main ≠ .idle) : s.state ≠ .connect :=
  fun he => hmain (h.fresh he).2

theorem doClose (h : s.Awake) (io : IoPc) : ({ s.doClose with io := io } : SendPipeline).Awake := by
  have hdown := s.doClose_state
  have hkeep : s.doClose.state = .connect → s.state = .connect := by
    simp only [SendPipeline.doClose, isConnected, decide_eq_true_eq]
    split_ifs <;> simp
  refine ⟨fun he => ?_, fun he => absurd he hdown, fun he => absurd he hdown⟩
  simpa using h.fresh (hkeep he)

theorem sendFailed (h : s.Awake) : s.sendFailed.Awake := h.doClose .idle

theorem step_sendStep (h : s.Awake) (hstep : s.sendStep = some s') : s'.Awake := by
  simp only [sendStep] at hstep
  cases hmain : s.main with
  | idle => simp [hmain] at hstep
  | postSendFree => simp [hmain] at hstep
  | isEmpty header pData =>
    have hconn := h.not_connect (by simp [hmain])
    simp only [hmain] at hstep
    split at hstep <;> obtain rfl := Option.some.inj hstep
    · exact h.move rfl rfl rfl rfl (Or.inr ⟨hconn, by simp [hmain]⟩)
    · exact h.move rfl rfl rfl rfl (Or.inr ⟨hconn, by simp [hmain]⟩)
  | clear header pData =>
    have hconn := h.not_connect (by simp [hmain])
    simp only [hmain] at hstep
    obtain rfl := Option.some.inj hstep
    exact h.move rfl rfl rfl rfl (Or.inr ⟨hconn, by simp [hmain]⟩)
  | push pTemData nSendCount =>
    have hconn := h.not_connect (by simp [hmain])
    simp only [hmain] at hstep
    split at hstep
    · obtain rfl := Option.some.inj hstep
      exact ⟨fun he => absurd he hconn, h.sock, fun _ _ hm => absurd rfl hm⟩
    split at hstep <;> obtain rfl := Option.some.inj hstep
    · exact h.move rfl rfl rfl rfl (Or.inr ⟨hconn, by simp [hmain]⟩)
    · exact h.move rfl rfl rfl rfl (Or.inr ⟨hconn, by simp [hmain]⟩)

/-- The ring cannot become non-empty by a discard. -/
theorem step_discard (h : s.Awake) (hc : s.Carries done q) (hstep : s.discard = some s') :
    s'.Awake := by
  simp only [discard] at hstep
  cases hpc : s.io with
  | discard nRet =>
    simp only [hpc] at hstep
    have hio := hc.io
    rw [hpc] at hio
    have hne : s.sendBuf.isEmpty = false := by
      have hfree := hc.rep.free
      simp only [IoPc.Offers] at hio
      simp only [FxLoopBuff.isEmpty, decide_eq_false_iff_not]
      omega
    obtain rfl := Option.some.inj hstep
    refine ⟨fun he => ?_, h.sock, fun he _ hm => h.armed he hne hm⟩
    have hfresh := (h.fresh he).1
    simp [hne] at hfresh
  | _ => simp [hpc] at hstep

/-- `ChangeEvent` with `EPOLLOUT`. -/
theorem arm (h : s.Awake) (io : IoPc) :
    ({ s with armed := true, io := io } : SendPipeline).Awake :=
  ⟨h.fresh, h.sock, fun _ _ _ => rfl⟩

/-- `ChangeEvent` without it, at a moment when nothing can be missed. -/
theorem disarm (h : s.Awake) (io : IoPc)
    (hkeep : s.sendBuf.isEmpty = true ∨ s.main = .postSendFree) :
    ({ s with armed := false, io := io } : SendPipeline).Awake := by
  refine ⟨h.fresh, h.sock, fun _ hq hm => ?_⟩
  rcases hkeep with he | he
  · have hq : s.sendBuf.isEmpty = false := hq
    simp [he] at hq
  · exact absurd he hm

theorem step_changeEvent (h : s.Awake) {ok : Bool} (hkeep : KeepsWake s (.changeEvent ok))
    (hstep : s.changeEvent ok = some s') : s'.Awake := by
  simp only [changeEvent] at hstep
  cases hpc : s.io with
  | changeIn =>
    simp only [hpc] at hstep
    split at hstep
    · rename_i hok
      obtain rfl := hok.2
      obtain rfl := Option.some.inj hstep
      exact h.disarm .idle (hkeep (Or.inl hpc))
    · obtain rfl := Option.some.inj hstep
      exact h.sendFailed
  | onConnect =>
    simp only [hpc] at hstep
    split at hstep
    · rename_i hok
      obtain rfl := hok.2
      obtain rfl := Option.some.inj hstep
      exact h.disarm .idle (hkeep (Or.inr hpc))
    · obtain rfl := Option.some.inj hstep
      exact h.sendFailed
  | changeOut =>
    simp only [hpc] at hstep
    split at hstep
    · obtain rfl := Option.some.inj hstep
      exact h.arm .idle
    · obtain rfl := Option.some.inj hstep
      have hmove : ({ s with sending := false, io := .changeOut } : SendPipeline).Awake :=
        h.move rfl rfl rfl rfl (Or.inl rfl)
      exact hmove.sendFailed
  | _ => simp [hpc] at hstep

theorem step_postSend (h : s.Awake) (hstep : s.postSend = some s') : s'.Awake := by
  simp only [postSend] at hstep
  split at hstep
  · cases hstep
  split at hstep
  · obtain rfl := Option.some.inj hstep
    exact h.sendFailed
  split at hstep
  · obtain rfl := Option.some.inj hstep
    exact h.move rfl rfl rfl rfl (Or.inl rfl)
  split at hstep
  · obtain rfl := Option.some.inj hstep
    exact h.move rfl rfl rfl rfl (Or.inl rfl)
  split at hstep <;> obtain rfl := Option.some.inj hstep
  · exact h.move rfl rfl rfl rfl (Or.inl rfl)
  · exact h.move rfl rfl rfl rfl (Or.inl rfl)

theorem step_kernelSend (h : s.Awake) {r : SendRet} (hstep : s.kernelSend r = some s') :
    s'.Awake := by
  simp only [kernelSend] at hstep
  cases hpc : s.io with
  | send pSendBuf nLen =>
    have hmove : ({ s with sending := false, io := .send pSendBuf nLen } : SendPipeline).Awake :=
      h.move rfl rfl rfl rfl (Or.inl rfl)
    simp only [hpc] at hstep
    cases r with
    | eagain =>
      obtain rfl := Option.some.inj hstep
      exact h.move rfl rfl rfl rfl (Or.inl rfl)
    | error =>
      obtain rfl := Option.some.inj hstep
      exact hmove.sendFailed
    | count nRet =>
      simp only at hstep
      split_ifs at hstep <;> obtain rfl := Option.some.inj hstep
      · exact hmove.sendFailed
      · exact h.move rfl rfl rfl rfl (Or.inl rfl)
  | _ => simp [hpc] at hstep

theorem step_postSendFree (h : s.Awake) {ok : Bool} (hkeep : KeepsWake s (.postSendFree ok))
    (hstep : s.postSendFree ok = some s') : s'.Awake := by
  simp only [postSendFree] at hstep
  split_ifs at hstep with hmain hconn hok
  all_goals obtain rfl := Option.some.inj hstep
  all_goals have hfresh : s.state ≠ .connect := h.not_connect (by rw [not_not.mp hmain]; simp)
  · have hdown : s.state ≠ .establish := by simpa [isConnected] using hconn
    exact ⟨fun he => absurd he hfresh, h.sock, fun he => absurd he hdown⟩
  · exact ⟨fun he => absurd he hfresh, h.sock, fun _ _ _ => rfl⟩
  · refine ⟨fun he => absurd he hfresh, h.sock, fun he => absurd ⟨h.sock he, ?_⟩ hok⟩
    cases ok with
    | true => rfl
    | false => exact absurd hkeep hconn

/-- One step that keeps the wake-ups. -/
theorem step (h : s.Awake) (hc : s.Carries done q) {l : PipelineStep} (hkeep : KeepsWake s l)
    (hstep : l.apply s = some s') : s'.Awake := by
  cases l with
  | sendCall header pData =>
    change s.sendCall header pData = some s' at hstep
    simp only [sendCall] at hstep
    split_ifs at hstep with hmain hconn
    · exact Option.some.inj hstep ▸ h
    · obtain rfl := Option.some.inj hstep
      have hstate : s.state = .establish := by simpa [isConnected] using hconn
      exact h.move rfl rfl rfl rfl
        (Or.inr ⟨by rw [hstate]; simp, by rw [not_not.mp hmain]; simp⟩)
  | sendStep => exact h.step_sendStep hstep
  | postSendFree ok => exact h.step_postSendFree hkeep hstep
  | onSend =>
    change s.onSend = some s' at hstep
    simp only [onSend] at hstep
    split_ifs at hstep
    · exact Option.some.inj hstep ▸ h
    · obtain rfl := Option.some.inj hstep
      exact h.move rfl rfl rfl rfl (Or.inl rfl)
  | postSend => exact h.step_postSend hstep
  | kernelSend r => exact h.step_kernelSend hstep
  | discard => exact h.step_discard hc hstep
  | changeEvent ok => exact h.step_changeEvent hkeep hstep
  | onConnect =>
    change s.onConnect = some s' at hstep
    simp only [onConnect] at hstep
    split_ifs at hstep with hpc
    push Not at hpc
    obtain rfl := Option.some.inj hstep
    refine ⟨fun he => by simp at he, fun _ => by simpa using hpc.2.2, fun _ hq => ?_⟩
    have hfresh := (h.fresh hpc.2.1).1
    have hq : s.sendBuf.isEmpty = false := hq
    simp [hq] at hfresh
  | close =>
    change s.close = some s' at hstep
    simp only [close] at hstep
    split_ifs at hstep
    obtain rfl := Option.some.inj hstep
    exact h.doClose s.doClose.io

end SendPipeline.Awake

/-! ### Nothing is stranded -/

/-- A socket on which nothing has been sent yet. -/
def SendPipeline.start (state : ESocketState) (sendBuf : FxLoopBuff) (sendLinger armed : Bool) :
    SendPipeline :=
  ⟨state, true, sendBuf, false, sendLinger, armed, .idle, .idle, [], []⟩

structure SendPipeline.NothingStranded (s : SendPipeline) : Prop where
  handed : s.sent <+: s.pushed
  armed : s.main = .idle → s.io = .idle → s.state = .establish → s.sendBuf.isEmpty = false →
    s.armed = true

section Runs

variable {b sendBuf : FxLoopBuff} {cap : Nat} {realloc : Option Mem} {state : ESocketState}
  {sendLinger armed : Bool} {steps : List PipelineStep} {s : SendPipeline}

theorem SendPipeline.start_carries (state : ESocketState) (sendLinger armed : Bool)
    (hpos : 0 < cap) (hcap : cap ≤ 1073741824) (hinit : b.init cap realloc = (true, sendBuf)) :
    (SendPipeline.start state sendBuf sendLinger armed).Carries [] [] ∧
      (SendPipeline.start state sendBuf sendLinger armed).Awake := by
  have hok : (b.init cap realloc).1 = true := by rw [hinit]
  obtain ⟨hrep, _, htotal⟩ := b.init_rep (by omega) ⟨by omega, by omega⟩ hok
  rw [hinit] at hrep htotal
  simp only at hrep htotal
  have hempty : sendBuf.isEmpty = true := by
    simpa [FxLoopBuff.isEmpty] using hrep.isEmpty_iff.mpr rfl
  constructor
  · refine ⟨hrep, ?_, rfl, rfl, trivial, by simp [start]⟩
    simp only [start]
    omega
  · refine ⟨fun _ => ⟨hempty, rfl⟩, fun _ => rfl, fun _ hq => ?_⟩
    have hq : sendBuf.isEmpty = false := hq
    simp [hempty] at hq

/-- In every run the kernel has a prefix of what was pushed; in every run that keeps the
wake-ups no pushed byte waits on a socket whose `EPOLLOUT` is off. -/
theorem send_nothingStranded (hpos : 0 < cap) (hcap : cap ≤ 1073741824)
    (hinit : b.init cap realloc = (true, sendBuf))
    (hrun : Transition.run PipelineStep.apply (.start state sendBuf sendLinger armed) steps
      = some s) :
    s.sent <+: s.pushed ∧
      (Transition.Always PipelineStep.apply KeepsWake (.start state sendBuf sendLinger armed)
        steps → s.NothingStranded) := by
  obtain ⟨hcarries, hawake⟩ :=
    SendPipeline.start_carries state sendLinger armed hpos hcap hinit
  have hbytes : ∀ (t : SendPipeline) (l : PipelineStep) (t' : SendPipeline),
      (∃ done q, t.Carries done q) → l.apply t = some t' → ∃ done q, t'.Carries done q := by
    rintro t l t' ⟨done, q, hc⟩ hstep
    exact hc.step hstep
  have hwakes : ∀ (t : SendPipeline) (l : PipelineStep) (t' : SendPipeline),
      ((∃ done q, t.Carries done q) ∧ t.Awake) → KeepsWake t l → l.apply t = some t' →
        (∃ done q, t'.Carries done q) ∧ t'.Awake := by
    rintro t l t' ⟨⟨done, q, hc⟩, ha⟩ hkeep hstep
    exact ⟨hc.step hstep, ha.step hc hkeep hstep⟩
  obtain ⟨done, q, hend⟩ := Transition.invariant hbytes ⟨[], [], hcarries⟩ hrun
  refine ⟨hend.prefix_pushed, fun hkeep => ⟨hend.prefix_pushed, fun hmain _ hstate hq => ?_⟩⟩
  have hawake' := (Transition.invariant_of_always hwakes ⟨⟨[], [], hcarries⟩, hawake⟩ hkeep hrun).2
  exact hawake'.armed hstate hq (by rw [hmain]; simp)

end Runs

/-- The send ring of a TCP socket, freshly initialised. -/
def tcpSendBuf : FxLoopBuff := ⟨4194304, 4194304, 0, 0, 0, some fun _ => 0, false, false⟩

/-- One frame is sent, the kernel takes three bytes, then the rest. -/
def sendAllSteps : List PipelineStep :=
  [.sendCall (some [0, 4]) [1, 2, 3, 4], .sendStep, .sendStep, .sendStep, .postSendFree true,
    .onSend, .postSend, .kernelSend (.count 4), .discard, .changeEvent true,
    .onSend, .postSend, .kernelSend (.count 2), .discard, .changeEvent true]

theorem send_nothingStranded_all :
    ∃ s, Transition.run PipelineStep.apply (.start .establish tcpSendBuf false true) sendAllSteps
        = some s ∧ s.NothingStranded := by
  have hinit : FxLoopBuff.new.init ((4194304 : Nat) : Int) (some fun _ => 0) =
      (true, tcpSendBuf) := rfl
  have hkeep : Transition.Always PipelineStep.apply KeepsWake
      (.start .establish tcpSendBuf false true) sendAllSteps := by decide
  obtain ⟨s, hrun⟩ : ∃ s, Transition.run PipelineStep.apply
      (.start .establish tcpSendBuf false true) sendAllSteps = some s := ⟨_, rfl⟩
  exact ⟨s, hrun, (send_nothingStranded (by decide) (by decide) hinit hrun).2 hkeep⟩

/-- The IO thread sees an empty ring; before it switches to `EPOLLIN` the main thread pushes
a frame and arms `EPOLLOUT`. -/
def lostWakeSteps : List PipelineStep :=
  [.onSend, .postSend, .sendCall (some [0, 1]) [7], .sendStep, .sendStep, .sendStep,
    .postSendFree true, .changeEvent true]

theorem send_lostWake :
    ∃ s, Transition.run PipelineStep.apply (.start .establish tcpSendBuf false true) lostWakeSteps
        = some s ∧ ¬ s.NothingStranded := by
  refine ⟨_, rfl, fun h => ?_⟩
  have harmed := h.armed rfl rfl rfl (by decide)
  exact absurd harmed (by decide)
