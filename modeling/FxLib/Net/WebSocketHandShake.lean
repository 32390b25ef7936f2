import FxLib.Lib.Text
import FxLib.Net.WebSocketFraming

/-!
# The handshake of a WebSocket

`FxWebSocketConnect` before its data phase. A part of the request text is marked in the ring as
if it had been parsed; what is copied and announced in the end is the last part alone.
-/

open MachineInt

/-! ### ResponseKey -/

namespace ResponseKey

def websocketGuid : List UInt8 := "258EAFA5-E914-47DA-95CA-C5AB0DC85B11".toUTF8.toList

def secWebSocketKey : List UInt8 := "Sec-WebSocket-Key".toUTF8.toList

/-- `find(": ")` and the two `substr`. -/
def splitHeader : List UInt8 → Option (List UInt8 × List UInt8)
  | 58 :: 32 :: value => some ([], value)
  | c :: cs => (splitHeader cs).map fun header => (c :: header.1, header.2)
  | [] => none

/-- `mapHeader[key] = value` for a line that ends as it should. An empty line has no last
character. -/
def addHeader (mapHeader : List UInt8 → List UInt8) (szHeader : List UInt8) :
    List UInt8 → List UInt8 :=
  if szHeader.getLast? ≠ some 13 then mapHeader
  else match splitHeader szHeader.dropLast with
    | none => mapHeader
    | some header => fun key => if key = header.1 then header.2 else mapHeader key

/-- `sha1Base64` is the digest of the key in network order, and its `base64_encode`. -/
def responseKey (sha1Base64 : List UInt8 → List UInt8) (szWebInfo : List UInt8) : List UInt8 :=
  match Text.lines szWebInfo with
  | [] => []
  | szRequest :: lines =>
    if szRequest.getLast? = some 13 then
      let mapHeader := (lines.takeWhile (· ≠ [13])).foldl addHeader fun _ => []
      sha1Base64 (mapHeader secWebSocketKey ++ websocketGuid)
    else []

/-- What follows the empty line is not read. -/
theorem responseKey_append (sha1Base64 : List UInt8 → List UInt8) {text : List UInt8}
    (h : [13, 10, 13, 10] <:+ text) (rest : List UInt8) :
    responseKey sha1Base64 (text ++ rest) = responseKey sha1Base64 text := by
  obtain ⟨front, rfl⟩ := h
  have hlines : ∀ rest, Text.lines (front ++ [13, 10, 13, 10] ++ rest) =
      Text.lines ((front ++ [13]) ++ [10]) ++ [13] :: Text.lines rest := by
    intro rest
    have hlast : Text.lines (13 :: 10 :: rest) = [13] :: Text.lines rest :=
      Text.lines_append [13] rest
    rw [← hlast, ← Text.lines_append]
    simp
  obtain ⟨szRequest, lines, hhead⟩ :=
    List.exists_cons_of_ne_nil (Text.lines_ne_nil (front ++ [13]))
  have hstop : ∀ later, (lines ++ [13] :: later).takeWhile (· ≠ [13]) =
      lines.takeWhile (· ≠ [13]) :=
    Text.takeWhile_append_cons (by simp) lines
  have hwhole := hlines []
  rw [List.append_nil] at hwhole
  rw [responseKey, responseKey, hlines rest, hwhole, hhead]
  simp only [List.cons_append, hstop]

end ResponseKey

/-! ### The socket -/

inductive EWebSocketHandShakeState where
  | request
  | response
  | connected
  deriving DecidableEq

/-- What `FxWebSocketConnect` adds to its base: the header object of the data phase, the state of
the handshake, and `m_szWebInfo` with the memory behind it. -/
structure HandShake where
  header : WebSocketDataHeader
  state : EWebSocketHandShakeState
  szWebInfo : List UInt8
  /-- `PushBuff` and `PostSendFree` take the answer. -/
  sends : Bool
  /-- What the calls of `recv` brought, what was copied to `m_szWebInfo`, and the answers. -/
  chunks : List (List UInt8)
  copied : List (List UInt8)
  answers : List (List UInt8)

namespace HandShake

abbrev Sock := RecvSock HandShake

/-- `sizeof(m_szWebInfo)`. -/
def webInfoSize : Nat := 1024

section

variable (exeName : List UInt8) (sha1Base64 : List UInt8 → List UInt8)

/-- The `sprintf` of `__ProcRecv`. -/
def response (szWebInfo : List UInt8) : List UInt8 :=
  "HTTP/1.1 101 Switching Protocols\r\n".toUTF8.toList
    ++ "Connection: Upgrade\r\nUpgrade: WebSocket\r\nServer: ".toUTF8.toList ++ exeName
    ++ "\r\nSec-WebSocket-Accept: ".toUTF8.toList
    ++ ResponseKey.responseKey sha1Base64 (cString szWebInfo) ++ "\r\n\r\n".toUTF8.toList

def answer (s : Sock) : Sock :=
  let h := s.header
  let s := { s with header := { h with
    answers := h.answers ++ [response exeName sha1Base64 h.szWebInfo] } }
  if h.sends = false then s.fail netSendOverflow
  else { s with header := { s.header with state := .connected } }

/-- The data phase knows its header object only. -/
def inDataPhase (f : FxWebSocketConnect.Sock → FxWebSocketConnect.Sock) (s : Sock) : Sock :=
  let t := f { s with header := s.header.header }
  { t with header := { s.header with header := t.header } }

/-- `__ProcRecv` behind its `PopBuff`. -/
def handOver (s : Sock) (c : FxConnection) (dwLen : Nat) : Sock :=
  if s.header.state = .response then answer exeName sha1Base64 s
  else inDataPhase (FxWebSocketConnect.handOver · c dwLen) s

/-- `__ProcRecv`, behind its test of the connection. -/
def procRecv : Sock → FxConnection → Nat → Sock := RecvSock.popAndHand (handOver exeName sha1Base64)

/-- A region that ends the request text is copied and announced. -/
def takeText (nLen : Int) (text : List UInt8) (s : Sock) : Sock :=
  let h := s.header
  { s with header := { h with
      state := .response
      szWebInfo := text ++ h.szWebInfo.drop text.length
      copied := h.copied ++ [text] } }.pushNetEvent .recv nLen

/-- `OnRecv` in the state `WSHSS_Request`. -/
def onRecv (ret : RecvRet) (s : Sock) : Sock :=
  if s.isConnected = false then s
  else
    match s.recvChunk (procRecv exeName sha1Base64) ret with
    | (none, s) => s
    | (some region, t) =>
      let t := { t with header := { t.header with
        chunks := t.header.chunks ++ [t.taken.drop s.taken.length] } }
      let pUseBuf := region.ptr.getD 0
      let t :=
        if region.len ≤ 4 then t
        else if Memory.read t.recvBuf.mem (pUseBuf + region.len - 4) 4 ≠ [13, 10, 13, 10] then t
        else takeText region.len (Memory.read t.recvBuf.mem pUseBuf region.len.toNat) t
      (t.costUsedBuff (procRecv exeName sha1Base64) region.len).2

/-- A call of `OnRecv` with the main thread's turns in it, or a step of the main thread. -/
inductive Op where
  | onRecv (ret : RecvRet) (sched : List Nat)
  | main

/-- Behind the request `OnRecv` is the one of the data phase. -/
def step (s : Sock) : Op → Option Sock
  | .onRecv ret sched =>
    if s.header.state = .request then some (onRecv exeName sha1Base64 ret { s with sched := sched })
    else none
  | .main => some (s.mainStep (procRecv exeName sha1Base64))

end

open RecvSock

variable {exeName : List UInt8} {sha1Base64 : List UInt8 → List UInt8} {s s' : Sock}
  {ret : RecvRet} {n : Nat} {T : List UInt8}

/-! ### Without a pending `NETEVT_RECV` -/

/-- A main thread that is never told of received bytes. -/
def idle : RecvSock.ProcRecv HandShake := fun s _ _ => s

/-- The session is there, and its buffer takes `n` bytes. -/
def Serving (n : Nat) (s : Sock) : Prop :=
  ∃ c, s.connection = some c ∧ c.id = s.sockId ∧ n ≤ s.getRecvSize c

structure Waiting (n : Nat) (s : Sock) : Prop where
  quiet : recvLens s.events = []
  serving : Serving n s
  popped : s.popped = []
  state : s.state = .establish

/-- What a handler does that neither pops nor pushes a `NETEVT_RECV`. -/
def noted (connection : Option FxConnection) (extra : List SNetEvent) (s : Sock) : Sock :=
  { s with connection := connection, events := s.events ++ extra
           announced := s.announced ++ extra }

/-- The other events change the connection at most. -/
theorem procEvent_quiet (procRecv : ProcRecv HandShake) (s : Sock) {e : SNetEvent}
    (he : e.eType ≠ .recv) : ∃ connection extra, procEvent procRecv s e = noted connection extra s ∧
      recvLens extra = [] ∧ ∀ n, Serving n s → Serving n (noted connection extra s) := by
  obtain ⟨eType, dwValue⟩ := e
  have hself : s = noted s.connection [] s := by simp [noted]
  have hsame : ∃ connection extra, s = noted connection extra s ∧ recvLens extra = [] ∧
      ∀ n, Serving n s → Serving n (noted connection extra s) :=
    ⟨s.connection, [], hself, rfl, fun n h => by rwa [← hself]⟩
  cases eType with
  | recv => exact absurd rfl he
  | establish =>
    simp only [procEvent, procEstablish]
    cases hc : s.connection with
    | none => exact hsame
    | some c =>
      by_cases hid : s.sockId ≠ c.id
      · simp only [if_pos hid]
        exact hsame
      · simp only [if_neg hid]
        refine ⟨some c.onConnect.1, [], by simp [noted], rfl, ?_⟩
        rintro n ⟨c', hc', hid', hsize⟩
        obtain rfl := Option.some.inj (hc.symm.trans hc')
        refine ⟨_, rfl, ?_, ?_⟩
        all_goals simp only [FxConnection.onConnect]; split_ifs <;> assumption
  | associate =>
    simp only [procEvent, procAssociate]
    cases hc : s.connection with
    | none => exact hsame
    | some c =>
      by_cases hid : s.sockId ≠ c.id
      · simp only [if_pos hid]
        exact hsame
      · simp only [if_neg hid]
        refine ⟨some c.onAssociate.1, [], by simp [noted], rfl, ?_⟩
        rintro n ⟨c', hc', hid', hsize⟩
        obtain rfl := Option.some.inj (hc.symm.trans hc')
        refine ⟨_, rfl, ?_, ?_⟩
        all_goals simp only [FxConnection.onAssociate]; split_ifs <;> assumption
  | terminate => exact ⟨s.connection, [⟨.release, 0⟩], rfl, rfl, fun _ h => h⟩
  | recvPackageError | connErr | error | release => exact hsame

theorem Waiting.mainStep (h : Waiting n s) (procRecv : ProcRecv HandShake) :
    mainStep procRecv s = mainStep idle s ∧ Waiting n (mainStep idle s) := by
  cases hev : s.events with
  | nil =>
    have hstep : ∀ procRecv : ProcRecv HandShake, RecvSock.mainStep procRecv s = s := fun _ => by
      simp only [RecvSock.mainStep, hev]
    rw [hstep, hstep]
    exact ⟨rfl, h⟩
  | cons e rest =>
    have hquiet := h.quiet
    rw [hev] at hquiet
    obtain ⟨he, hrest⟩ := quiet_cons hquiet
    obtain ⟨connection, extra, hproc, hextra, hserving⟩ :=
      procEvent_quiet idle { s with events := rest } he
    have hstep : RecvSock.mainStep idle s = noted connection extra { s with events := rest } := by
      simp only [RecvSock.mainStep, hev, hproc]
    refine ⟨?_, ?_⟩
    · simp only [RecvSock.mainStep, hev]
      cases htype : e.eType with
      | recv => exact absurd htype he
      | _ => simp only [procEvent, htype]
    · rw [hstep]
      exact ⟨by simp [noted, hrest, hextra], hserving n h.serving, h.popped, h.state⟩

theorem Waiting.side : MainSide idle (Waiting n) where
  pops := fun s _ n => Pops.refl s n
  main := fun _ _ _ _ h => (h.side.mainStep idle).2
  io := fun s s' hmain h => by
    rw [hmain]
    exact ⟨h.quiet, h.serving, h.popped, h.state⟩

theorem Waiting.yield (h : Waiting n s) (procRecv : ProcRecv HandShake) :
    s.yield procRecv = s.yield idle ∧ Waiting n (s.yield idle) := by
  have hsteps : ∀ (k : Nat) (t : Sock), Waiting n t →
      (RecvSock.mainStep procRecv)^[k] t = (RecvSock.mainStep idle)^[k] t ∧
        Waiting n ((RecvSock.mainStep idle)^[k] t) := by
    intro k
    induction k with
    | zero => exact fun t ht => ⟨rfl, ht⟩
    | succ k ih =>
      intro t ht
      obtain ⟨heq, hnext⟩ := ht.mainStep procRecv
      rw [Function.iterate_succ_apply, Function.iterate_succ_apply, heq]
      exact ih _ hnext
  simp only [RecvSock.yield]
  cases s.sched with
  | nil => exact ⟨rfl, h⟩
  | cons k sched => exact hsteps k _ ⟨h.quiet, h.serving, h.popped, h.state⟩

theorem Waiting.clearIfEmpty (h : Waiting n s) (procRecv : ProcRecv HandShake) :
    s.clearIfEmpty procRecv = s.clearIfEmpty idle ∧ Waiting n (s.clearIfEmpty idle) := by
  obtain ⟨heq, hw⟩ := h.yield procRecv
  obtain ⟨heq', hw'⟩ := hw.yield procRecv
  refine ⟨by simp only [RecvSock.clearIfEmpty, heq, heq'], ?_⟩
  simp only [RecvSock.clearIfEmpty]
  split
  · exact ⟨hw'.quiet, hw'.serving, hw'.popped, hw'.state⟩
  · exact hw

theorem Waiting.costBuff (h : Waiting n s) (procRecv : ProcRecv HandShake) (recvBuf : FxLoopBuff)
    (nLen : Int) :
    RecvSock.costBuff procRecv { s with recvBuf := recvBuf } nLen =
        RecvSock.costBuff idle { s with recvBuf := recvBuf } nLen ∧
      ∀ taken, Waiting n
        { RecvSock.costBuff idle { s with recvBuf := recvBuf } nLen with taken := taken } := by
  have hw : Waiting n { s with recvBuf := recvBuf } := ⟨h.quiet, h.serving, h.popped, h.state⟩
  obtain ⟨heq, hw'⟩ := hw.yield procRecv
  exact ⟨by simp only [RecvSock.costBuff, heq],
    fun _ => ⟨hw'.quiet, hw'.serving, hw'.popped, hw'.state⟩⟩

/-- Until something is announced, the main thread's `__ProcRecv` is not called. -/
theorem Waiting.recvChunk (h : Waiting n s) (procRecv : ProcRecv HandShake) :
    s.recvChunk procRecv ret = s.recvChunk idle ret := by
  obtain ⟨hclear, hw⟩ := h.clearIfEmpty procRecv
  obtain ⟨hin, hw'⟩ := hw.yield procRecv
  simp only [RecvSock.recvChunk, hclear, RecvSock.inCursorPtr, hin]
  cases ret with
  | error errno => rfl
  | data bytes =>
    obtain ⟨t, ht⟩ : ∃ t, RecvSock.yield idle (s.clearIfEmpty idle) = t := ⟨_, rfl⟩
    rw [ht] at hw'
    have hcost := fun recvBuf nLen => (hw'.costBuff procRecv recvBuf nLen).1
    have huse := fun recvBuf nLen taken =>
      (((hw'.costBuff procRecv recvBuf nLen).2 taken).yield procRecv).1
    simp only [ht, hcost, RecvSock.usedCursorPtr, huse]

/-! ### The request text -/

/-- A region that ends the request text for `OnRecv`. -/
def Ends (text : List UInt8) : Prop := 4 < text.length ∧ [13, 10, 13, 10] <:+ text

/-- Nothing that was received has ended the text: all of it is marked, and nothing is copied. -/
structure Requesting (n : Nat) (s : Sock) : Prop where
  state : s.header.state = .request
  ready : ∃ m, Ready (Waiting n) s m [] 0
  taken : s.taken = s.header.chunks.flatten
  pieces : ∀ c ∈ s.header.chunks, c ≠ [] ∧ ¬ Ends c
  copied : s.header.copied = []
  answers : s.header.answers = []

theorem suffix_iff {text : List UInt8} :
    text.drop (text.length - 4) = [13, 10, 13, 10] ↔ [13, 10, 13, 10] <:+ text := by
  rw [List.suffix_iff_eq_drop]
  exact eq_comm

/-- The bytes of a piece are marked although they have not been parsed. -/
theorem Requesting.mark {t : Sock} {m xs : List UInt8} (hholds : Holds (Waiting n) t m xs 0)
    (hframe : Parse.Frame t 0 0) (hne : xs ≠ []) (hstate : t.header.state = .request)
    (hpieces : ∀ c ∈ t.header.chunks, c ≠ [] ∧ ¬ Ends c)
    (htaken : t.taken = t.header.chunks.flatten) (hcopied : t.header.copied = [])
    (hanswers : t.header.answers = []) (procRecv : ProcRecv HandShake) :
    Requesting n (t.costUsedBuff procRecv xs.length).2 := by
  obtain ⟨m', s', hcost, hholds', hsame, _⟩ :=
    hholds.costUsedBuff Waiting.side (List.length_pos_iff.mpr hne) le_rfl
  have hidle : t.costUsedBuff procRecv xs.length = t.costUsedBuff idle xs.length := by
    simp only [RecvSock.costUsedBuff, (hholds.side.yield procRecv).1]
  rw [List.take_length, List.drop_length] at hholds'
  rw [hidle, hcost]
  refine ⟨by rw [hsame.header]; exact hstate, ⟨_, ⟨hholds'.rep, hholds'.marks, hholds'.small,
    hholds'.taken, ?_, hholds'.side⟩, ?_, ?_⟩, ?_, ?_, ?_, ?_⟩
  · have hpending := hholds'.pending
    simp only
    omega
  · exact fun _ => ⟨rfl, rfl⟩
  · rw [hsame.needData, hsame.packetLen]
    exact hframe.progress
  · rw [hsame.taken, hsame.header]
    exact htaken
  all_goals rw [hsame.header]
  · exact hpieces
  · exact hcopied
  · exact hanswers

/-- Pieces that are received mark the ring up to their end. -/
theorem Requesting.onRecv (h : Requesting n s) (hret : ¬ ret.Fatal) :
    Requesting n (onRecv exeName sha1Base64 ret s) ∨
    ∃ t text m, onRecv exeName sha1Base64 ret s =
        ((takeText text.length text t).costUsedBuff (procRecv exeName sha1Base64) text.length).2 ∧
      Ends text ∧ Holds (Waiting n) t m text 0 ∧
      t.header.chunks = s.header.chunks ++ [text] ∧ t.header.copied = [] ∧ t.header.answers = [] ∧
      t.taken = t.header.chunks.flatten := by
  obtain ⟨m, hready⟩ := h.ready
  have hwait := hready.holds.side
  have hchunk := hready.recvChunk Waiting.side ret fun bytes xs _ _ t recvBuf ht _ =>
    (⟨ht.quiet, ht.serving, ht.popped, ht.state⟩ :
      Waiting n { t with recvBuf := recvBuf, taken := t.taken ++ xs })
  have hconn : s.isConnected = true := by simp [isConnected, hwait.state]
  simp only [HandShake.onRecv, hconn, hwait.recvChunk, if_neg (show ¬ true = false by simp)]
  generalize s.recvChunk idle ret = answer at hchunk
  cases hchunk with
  | later m' s' ready same cursor =>
    refine Or.inl ⟨by rw [same.header]; exact h.state, ⟨m', ready⟩, ?_, ?_, ?_, ?_⟩
    · rw [same.taken, same.header]
      exact h.taken
    all_goals rw [same.header]
    · exact h.pieces
    · exact h.copied
    · exact h.answers
  | closed m' t dwValue fatal => exact absurd fatal hret
  | parse m' xs s' region k hne offered hpos scan hcut same =>
    -- everything before was marked, so the region is what has just been received
    obtain rfl : k = xs.length := by
      have hfits := scan.fits
      rw [List.nil_append] at hfits hcut
      by_contra hk
      exact absurd (hcut (by omega)).1 (by simp; omega)
    have hlen : region.len = xs.length := scan.len
    have hall : Memory.read s'.recvBuf.mem (region.ptr.getD 0) xs.length = xs := by
      have hread := scan.read hpos le_rfl
      simp only [Parse.parseBuf, Parse.start, Memory.read_at, Int.add_zero, List.nil_append,
        List.take_length] at hread
      exact hread
    have hchunk : s'.taken.drop s.taken.length = xs := by
      rw [same.taken]
      exact List.drop_left
    have htaken : s'.taken = (s.header.chunks ++ [xs]).flatten := by
      rw [same.taken]
      simp [h.taken]
    have hheader : s'.header = s.header := same.header
    have hholds : Holds (Waiting n) { s' with header := { s.header with
        chunks := s.header.chunks ++ [xs] } } m' xs 0 :=
      scan.holds.io Waiting.side rfl rfl
    have hmark : ¬ Ends xs → Requesting n (RecvSock.costUsedBuff (procRecv exeName sha1Base64)
        { s' with header := { s.header with chunks := s.header.chunks ++ [xs] } } xs.length).2 := by
      intro hends
      refine Requesting.mark hholds ?_ hne h.state ?_ htaken h.copied h.answers _
      · have hframe := scan.frame (by simp [Parse.start])
        exact ⟨fun _ => ⟨rfl, rfl⟩, hframe.progress⟩
      · intro c hc
        rcases List.mem_append.mp hc with hc | hc
        · exact h.pieces c hc
        · obtain rfl := List.mem_singleton.mp hc
          exact ⟨hne, hends⟩
    simp only [hheader, hchunk, hlen, Int.toNat_natCast, hall]
    by_cases hshort : (xs.length : Int) ≤ 4
    · rw [if_pos hshort]
      exact Or.inl (hmark fun hends => by have := hends.1; omega)
    · have hlast : Memory.read s'.recvBuf.mem (region.ptr.getD 0 + xs.length - 4) 4 =
          xs.drop (xs.length - 4) := by
        have hdrop := Memory.read_drop s'.recvBuf.mem (region.ptr.getD 0)
          (show xs.length - 4 ≤ xs.length by omega)
        rw [hall] at hdrop
        rw [hdrop]
        congr 1 <;> omega
      rw [if_neg hshort, hlast]
      by_cases hends : xs.drop (xs.length - 4) = [13, 10, 13, 10]
      · rw [if_neg (not_not.mpr hends)]
        exact Or.inr ⟨_, xs, m', rfl, ⟨by omega, suffix_iff.mp hends⟩, hholds, rfl,
          h.copied, h.answers, htaken⟩
      · rw [if_pos hends]
        exact Or.inl (hmark fun h' => hends (suffix_iff.mpr h'.2))

/-! ### Behind the request text -/

/-- What the main thread leaves alone, whatever it is told. -/
structure SameRecord (s s' : Sock) : Prop where
  taken : s'.taken = s.taken
  chunks : s'.header.chunks = s.header.chunks
  copied : s'.header.copied = s.header.copied
  state : s.header.state ≠ .request → s'.header.state ≠ .request
  sends : s'.header.sends = s.header.sends

theorem sameRecord_fail (s : Sock) (dwValue : Int) : SameRecord s (s.fail dwValue) := by
  have htaken : (s.fail dwValue).taken = s.taken := by
    rw [RecvSock.fail, close_same]
    rfl
  have hheader := fail_header s dwValue
  exact ⟨htaken, by rw [hheader], by rw [hheader], fun h => by rwa [hheader], by rw [hheader]⟩

section

variable (exeName : List UInt8) (sha1Base64 : List UInt8 → List UInt8)

theorem sameRecord_answer (s : Sock) : SameRecord s (answer exeName sha1Base64 s) := by
  simp only [answer]
  split
  · have hfail := sameRecord_fail { s with header := { s.header with
      answers := s.header.answers ++ [response exeName sha1Base64 s.header.szWebInfo] } }
      netSendOverflow
    exact ⟨hfail.taken, hfail.chunks, hfail.copied, hfail.state, hfail.sends⟩
  · exact ⟨rfl, rfl, rfl, fun _ => by simp, rfl⟩

theorem sameRecord_procRecv (s : Sock) (c : FxConnection) (dwLen : Nat) :
    SameRecord s (procRecv exeName sha1Base64 s c dwLen) := by
  rcases popAndHand_cases _ s c dwLen with hfail | hself | ⟨bytes, recvBuf, -, hproc⟩
  · rw [procRecv, hfail]
    exact sameRecord_fail s _
  · rw [procRecv, hself]
    exact ⟨rfl, rfl, rfl, id, rfl⟩
  · rw [procRecv, hproc, handOver]
    split
    · have hanswer := sameRecord_answer exeName sha1Base64
        { s with recvBuf := recvBuf, popped := s.popped ++ [bytes]
                 sessionBuf := Memory.write s.sessionBuf 0 bytes }
      exact ⟨hanswer.taken, hanswer.chunks, hanswer.copied, hanswer.state, hanswer.sends⟩
    · simp only [inDataPhase]
      rw [FxWebSocketConnect.handsOver_handOver]
      exact ⟨rfl, rfl, rfl, id, rfl⟩

theorem sameRecord_mainStep (s : Sock) :
    SameRecord s (mainStep (procRecv exeName sha1Base64) s) := by
  simp only [RecvSock.mainStep]
  cases s.events with
  | nil => exact ⟨rfl, rfl, rfl, id, rfl⟩
  | cons e rest =>
    by_cases he : e.eType = .recv
    · simp only [procEvent, he]
      split
      · exact ⟨rfl, rfl, rfl, id, rfl⟩
      · rename_i c hc
        have hrecord := sameRecord_procRecv exeName sha1Base64
          { s with events := rest } c e.dwValue
        exact ⟨hrecord.taken, hrecord.chunks, hrecord.copied, hrecord.state, hrecord.sends⟩
    · obtain ⟨connection, extra, hproc, -⟩ := procEvent_quiet (procRecv exeName sha1Base64)
        { s with events := rest } he
      simp only [hproc, noted]
      exact ⟨rfl, rfl, rfl, id, rfl⟩

theorem sameRecord_mainSteps (s : Sock) (k : Nat) :
    SameRecord s ((mainStep (procRecv exeName sha1Base64))^[k] s) := by
  induction k generalizing s with
  | zero => exact ⟨rfl, rfl, rfl, id, rfl⟩
  | succ k ih =>
    have hfirst := sameRecord_mainStep exeName sha1Base64 s
    have hrest := ih (mainStep (procRecv exeName sha1Base64) s)
    rw [Function.iterate_succ_apply]
    exact ⟨hrest.taken.trans hfirst.taken, hrest.chunks.trans hfirst.chunks,
      hrest.copied.trans hfirst.copied, fun h => hrest.state (hfirst.state h),
      hrest.sends.trans hfirst.sends⟩

theorem sameRecord_yield (s : Sock) : SameRecord s (s.yield (procRecv exeName sha1Base64)) := by
  simp only [RecvSock.yield]
  split
  · exact ⟨rfl, rfl, rfl, id, rfl⟩
  · rename_i k sched _
    have hrecord := sameRecord_mainSteps exeName sha1Base64 { s with sched := sched } k
    exact ⟨hrecord.taken, hrecord.chunks, hrecord.copied, hrecord.state, hrecord.sends⟩

theorem sameRecord_costUsedBuff (s : Sock) (nLen : Int) :
    SameRecord s (s.costUsedBuff (procRecv exeName sha1Base64) nLen).2 := by
  have hyield := sameRecord_yield exeName sha1Base64 s
  exact ⟨hyield.taken, hyield.chunks, hyield.copied, hyield.state, hyield.sends⟩

end

/-- The text is over, for `OnRecv`, with the last piece that was received. -/
structure Ended (s : Sock) : Prop where
  state : s.header.state ≠ .request
  pieces : ∃ front last, s.header.chunks = front ++ [last] ∧ (∀ c ∈ front, c ≠ []) ∧ Ends last ∧
    s.header.copied = [last]
  taken : s.taken = s.header.chunks.flatten

theorem Ended.record (h : Ended s) (hrecord : SameRecord s s') : Ended s' := by
  obtain ⟨front, last, hchunks, hfront, hends, hcopied⟩ := h.pieces
  refine ⟨hrecord.state h.state, ⟨front, last, ?_, hfront, hends, ?_⟩, ?_⟩
  · rw [hrecord.chunks, hchunks]
  · rw [hrecord.copied, hcopied]
  · rw [hrecord.taken, hrecord.chunks, h.taken]

/-! ### One piece -/

/-- The text `T` is announced and stands in the ring; `k` events are in front of it. -/
structure Pending (T : List UInt8) (k : Nat) (s : Sock) : Prop where
  events : ∃ pre post, s.events = pre ++ ⟨.recv, T.length⟩ :: post ∧ pre.length = k ∧
    recvLens pre = [] ∧ recvLens post = []
  serving : Serving T.length s
  popped : s.popped = []
  ring : s.recvBuf.Rep T
  small : s.recvBuf.totalLen ≤ 1073741824
  state : s.header.state = .response
  szWebInfo : ∃ behind, s.header.szWebInfo = T ++ behind
  answers : s.header.answers = []

/-- The text `T` is answered, and the data phase finds the ring empty. -/
structure Answered (exeName : List UInt8) (sha1Base64 : List UInt8 → List UInt8) (T : List UInt8)
    (s : Sock) : Prop where
  quiet : recvLens s.events = []
  popped : s.popped = [T]
  answers : s.header.answers = [response exeName sha1Base64 T]
  empty : s.recvBuf.Rep []
  state : s.header.sends = true → s.header.state = .connected

/-- The answer depends on the text alone. -/
theorem response_append (hT : [13, 10, 13, 10] <:+ T) (behind : List UInt8) :
    response exeName sha1Base64 (T ++ behind) = response exeName sha1Base64 T := by
  have hkey : ResponseKey.responseKey sha1Base64 (cString (T ++ behind)) =
      ResponseKey.responseKey sha1Base64 (cString T) := by
    by_cases hnul : (0 : UInt8) ∈ T
    · rw [cString_append_of_mem hnul]
    · have hwhole := cString_append_of_not_mem hnul []
      rw [List.append_nil] at hwhole
      rw [cString_append_of_not_mem hnul, hwhole, ResponseKey.responseKey_append sha1Base64 hT,
        ResponseKey.responseKey_append sha1Base64 hT]
  rw [response, response, hkey]

/-- The text is popped and answered. -/
theorem Pending.answer (h : Pending T 0 s) (hT : [13, 10, 13, 10] <:+ T) :
    Answered exeName sha1Base64 T (mainStep (procRecv exeName sha1Base64) s) := by
  obtain ⟨pre, post, hevents, hpre, -, hpost⟩ := h.events
  obtain rfl := List.eq_nil_of_length_eq_zero hpre
  obtain ⟨c, hc, hid, hsize⟩ := h.serving
  obtain ⟨behind, hinfo⟩ := h.szWebInfo
  have hfour := hT.length_le
  have hlen := h.ring.length_le
  have hsmall := h.small
  have hout := h.ring.out_lt
  have hout0 := h.ring.out_nonneg
  simp only [List.length_cons, List.length_nil] at hfour
  have hpop := FxLoopBuff.popBuff_eq h.ring (show (0 : Int) < T.length by omega) (by omega)
    ⟨by omega, by omega⟩
  have hempty := h.ring.advanceOut (le_refl T.length)
  rw [List.drop_length] at hempty
  rw [Int.toNat_natCast, List.take_length, ← toInt32_of_lt (show T.length < 2147483648 by omega)]
    at hpop
  have hproc := popAndHand_popped (handOver exeName sha1Base64) (s := { s with events := post }) hid
    hsize (by omega) hpop
  have hstep : mainStep (procRecv exeName sha1Base64) s = HandShake.answer exeName sha1Base64
      { s with events := post, recvBuf := s.recvBuf.advanceOut T.length, popped := s.popped ++ [T]
               sessionBuf := Memory.write s.sessionBuf 0 T } := by
    have hmain : mainStep (procRecv exeName sha1Base64) s =
        procRecv exeName sha1Base64 { s with events := post } c T.length := by
      simp only [RecvSock.mainStep, hevents, List.nil_append, procEvent, hc]
    rw [hmain, procRecv, hproc]
    exact if_pos h.state
  rw [hstep, HandShake.answer]
  simp only [hinfo, response_append hT, h.answers, h.popped, List.nil_append]
  split
  · rename_i hsends
    rw [fail_same]
    refine ⟨(lens_fail _ _).1.trans hpost, rfl, rfl, hempty, fun hc' => ?_⟩
    exact absurd (hsends.symm.trans hc') (by simp)
  · exact ⟨hpost, rfl, rfl, hempty, fun _ => rfl⟩

/-- A handler in front of the announcement changes nothing that matters. -/
theorem Pending.next {k : Nat} (h : Pending T (k + 1) s) :
    Pending T k (mainStep (procRecv exeName sha1Base64) s) := by
  obtain ⟨pre, post, hevents, hpre, hquiet, hpost⟩ := h.events
  obtain ⟨e, rest, rfl⟩ := List.exists_cons_of_length_eq_add_one hpre
  obtain ⟨he, hrest⟩ := quiet_cons hquiet
  obtain ⟨connection, extra, hproc, hextra, hserving⟩ :=
    procEvent_quiet (procRecv exeName sha1Base64)
      { s with events := rest ++ ⟨.recv, T.length⟩ :: post } he
  have hstep : mainStep (procRecv exeName sha1Base64) s =
      noted connection extra { s with events := rest ++ ⟨.recv, T.length⟩ :: post } := by
    simp only [RecvSock.mainStep, hevents, List.cons_append, hproc]
  rw [hstep]
  refine ⟨⟨rest, post ++ extra, ?_, by simpa using hpre, hrest, ?_⟩, hserving _ h.serving, h.popped,
    h.ring, h.small, h.state, h.szWebInfo, h.answers⟩
  · simp [noted]
  · rw [recvLens_append, hpost, hextra]
    rfl

theorem Answered.mainStep (h : Answered exeName sha1Base64 T s) :
    Answered exeName sha1Base64 T (mainStep (procRecv exeName sha1Base64) s) := by
  cases hev : s.events with
  | nil =>
    have hstep : RecvSock.mainStep (procRecv exeName sha1Base64) s = s := by
      simp only [RecvSock.mainStep, hev]
    rw [hstep]
    exact h
  | cons e rest =>
    have hquiet := h.quiet
    rw [hev] at hquiet
    obtain ⟨he, hrest⟩ := quiet_cons hquiet
    obtain ⟨connection, extra, hproc, hextra, -⟩ :=
      procEvent_quiet (procRecv exeName sha1Base64) { s with events := rest } he
    have hstep : RecvSock.mainStep (procRecv exeName sha1Base64) s =
        noted connection extra { s with events := rest } := by
      simp only [RecvSock.mainStep, hev, hproc]
    rw [hstep]
    exact ⟨by simp [noted, hrest, hextra], h.popped, h.answers, h.empty, h.state⟩

/-- The text is on its way to the main thread, or has been answered. -/
def Tracked (exeName : List UInt8) (sha1Base64 : List UInt8 → List UInt8) (T : List UInt8)
    (s : Sock) : Prop :=
  (∃ k, Pending T k s) ∨ Answered exeName sha1Base64 T s

theorem Tracked.mainStep (h : Tracked exeName sha1Base64 T s) (hT : [13, 10, 13, 10] <:+ T) :
    Tracked exeName sha1Base64 T (mainStep (procRecv exeName sha1Base64) s) := by
  rcases h with ⟨k, h⟩ | h
  · cases k with
    | zero => exact Or.inr (h.answer hT)
    | succ k => exact Or.inl ⟨k, h.next⟩
  · exact Or.inr h.mainStep

theorem Tracked.mainSteps (h : Tracked exeName sha1Base64 T s) (hT : [13, 10, 13, 10] <:+ T)
    (k : Nat) :
    Tracked exeName sha1Base64 T ((RecvSock.mainStep (procRecv exeName sha1Base64))^[k] s) := by
  induction k generalizing s with
  | zero => exact h
  | succ k ih => exact ih (h.mainStep hT)

/-- Whatever `CostUsedBuff` does to the mark, the bytes in the ring stay. -/
theorem rep_costUsedBuff {b : FxLoopBuff} {q : List UInt8} (h : b.Rep q) (nLen : Int) :
    (b.costUsedBuff nLen).2.Rep q ∧ (b.costUsedBuff nLen).2.totalLen = b.totalLen := by
  simp only [FxLoopBuff.costUsedBuff]
  split_ifs
  all_goals exact ⟨⟨h.1, h.2, h.3, h.4, h.5, h.6, h.7, h.8, h.9, h.10, h.11, h.12⟩, rfl⟩

/-- The main thread may be faster than the mark. -/
theorem Tracked.costUsedBuff (h : Tracked exeName sha1Base64 T s) (hT : [13, 10, 13, 10] <:+ T)
    (nLen : Int) :
    Tracked exeName sha1Base64 T (s.costUsedBuff (procRecv exeName sha1Base64) nLen).2 := by
  have hyield : Tracked exeName sha1Base64 T (s.yield (procRecv exeName sha1Base64)) := by
    simp only [RecvSock.yield]
    split
    · exact h
    · rename_i k sched _
      refine Tracked.mainSteps ?_ hT k
      rcases h with ⟨k, h⟩ | h
      · exact Or.inl ⟨k, h.1, h.2, h.3, h.4, h.5, h.6, h.7, h.8⟩
      · exact Or.inr ⟨h.1, h.2, h.3, h.4, h.5⟩
  simp only [RecvSock.costUsedBuff]
  rcases hyield with ⟨k, h⟩ | h
  · obtain ⟨hrep, htotal⟩ := rep_costUsedBuff h.ring nLen
    exact Or.inl ⟨k, h.events, h.serving, h.popped, hrep, htotal ▸ h.small, h.state, h.szWebInfo,
      h.answers⟩
  · exact Or.inr ⟨h.quiet, h.popped, h.answers, (rep_costUsedBuff h.empty nLen).1, h.state⟩

/-- The main thread gets to the announcement. -/
theorem Tracked.answered (h : Tracked exeName sha1Base64 T s) (hT : [13, 10, 13, 10] <:+ T) :
    ∃ k, Answered exeName sha1Base64 T
      ((RecvSock.mainStep (procRecv exeName sha1Base64))^[k] s) := by
  rcases h with ⟨k, h⟩ | h
  · induction k generalizing s with
    | zero => exact ⟨1, h.answer hT⟩
    | succ k ih =>
      obtain ⟨k', hk'⟩ := ih h.next
      exact ⟨k' + 1, hk'⟩
  · exact ⟨0, h⟩

/-! ### Runs -/

theorem Requesting.mainStep (h : Requesting n s) (procRecv : ProcRecv HandShake) :
    Requesting n (mainStep procRecv s) := by
  obtain ⟨m, hready⟩ := h.ready
  rw [(hready.holds.side.mainStep procRecv).1]
  obtain ⟨m', hholds, hio, -⟩ := hready.holds.mainStep Waiting.side
  refine ⟨by rw [hio.header]; exact h.state, ⟨m', hready.sameFrame hholds hio.frame⟩, ?_, ?_, ?_,
    ?_⟩
  · rw [hio.taken, hio.header]
    exact h.taken
  all_goals rw [hio.header]
  · exact h.pieces
  · exact h.copied
  · exact h.answers

/-- A fresh socket, whose session takes `n` bytes. -/
structure Begins (n : Nat) (s : Sock) : Prop where
  fresh : Fresh s
  size : n ≤ s.sessionSize
  state : s.header.state = .request
  chunks : s.header.chunks = []
  copied : s.header.copied = []
  answers : s.header.answers = []

theorem Begins.requesting (h : Begins n s) : Requesting n s where
  state := h.state
  ready := by
    obtain ⟨c, hc, hid, hsession, hgreets⟩ := h.fresh.connection
    have hserving : Serving n s := by
      refine ⟨c, hc, hid, ?_⟩
      rw [getRecvSize, if_pos hsession]
      exact h.size
    refine ⟨[], ⟨h.fresh.rep, h.fresh.marks, h.fresh.small, ?_, ?_, hgreets.no_lens, hserving,
      h.fresh.popped, h.fresh.state⟩, fun _ => ⟨rfl, rfl⟩, fun hc => absurd h.fresh.needData hc⟩
    · rw [h.fresh.taken, h.fresh.popped]
      rfl
    · rw [hgreets.no_lens]
      rfl
  taken := by rw [h.fresh.taken, h.chunks]; rfl
  pieces := by simp [h.chunks]
  copied := h.copied
  answers := h.answers

/-- `recv` brings bytes or is to be tried again later. -/
def Receives : Op → Prop
  | .onRecv ret _ => ¬ ret.Fatal
  | .main => True

instance : (op : Op) → Decidable (Receives op)
  | .onRecv _ _ => inferInstanceAs (Decidable (¬ _))
  | .main => inferInstanceAs (Decidable True)

/-- What every run keeps: the text `T` is followed only when it came in one piece. -/
def Kept (exeName : List UInt8) (sha1Base64 : List UInt8 → List UInt8) (T : List UInt8)
    (s : Sock) : Prop :=
  Requesting T.length s ∨
    Ended s ∧ (s.header.chunks = [T] → Tracked exeName sha1Base64 T s)

theorem takeText_header (nLen : Int) (text : List UInt8) (t : Sock) :
    (takeText nLen text t).header = { t.header with
      state := .response, szWebInfo := text ++ t.header.szWebInfo.drop text.length
      copied := t.header.copied ++ [text] } := rfl

theorem takeText_events (nLen : Int) (text : List UInt8) (t : Sock) :
    (takeText nLen text t).events = t.events ++ [⟨.recv, toUInt32 nLen⟩] := rfl

theorem pending_takeText {t : Sock} (hholds : Holds (Waiting T.length) t [] T 0)
    (hanswers : t.header.answers = []) : Pending T t.events.length (takeText T.length T t) := by
  have hlen := hholds.rep.length_le
  have hsmall := hholds.small
  have hcast : toUInt32 (T.length : Int) = T.length := by
    simp only [List.nil_append] at hlen
    simp only [toUInt32]
    omega
  refine ⟨⟨t.events, [], ?_, rfl, hholds.side.quiet, rfl⟩, hholds.side.serving, hholds.side.popped,
    hholds.rep, hsmall, ?_, ⟨t.header.szWebInfo.drop T.length, ?_⟩, ?_⟩
  · rw [takeText_events, hcast]
  · rw [takeText_header]
  · rw [takeText_header]
  · rw [takeText_header]
    exact hanswers

/-- The piece that ends the text is copied and announced. -/
theorem kept_takeText (hT : [13, 10, 13, 10] <:+ T) {t : Sock} {text m : List UInt8}
    {chunks : List (List UInt8)} (hpieces : ∀ c ∈ chunks, c ≠ []) (hends : Ends text)
    (hholds : Holds (Waiting T.length) t m text 0) (hchunks : t.header.chunks = chunks ++ [text])
    (hcopied : t.header.copied = []) (hanswers : t.header.answers = [])
    (htaken : t.taken = t.header.chunks.flatten) :
    Kept exeName sha1Base64 T
      ((takeText text.length text t).costUsedBuff (procRecv exeName sha1Base64) text.length).2 := by
  have hended : Ended (takeText text.length text t) := by
    refine ⟨?_, ⟨chunks, text, ?_, hpieces, hends, ?_⟩, ?_⟩
    all_goals rw [takeText_header]
    · simp
    · exact hchunks
    · rw [hcopied]
      rfl
    · exact htaken
  have hrecord := sameRecord_costUsedBuff exeName sha1Base64
    (takeText text.length text t) text.length
  refine Or.inr ⟨hended.record hrecord, fun hone => ?_⟩
  rw [hrecord.chunks, takeText_header] at hone
  obtain ⟨rfl, rfl⟩ : chunks = [] ∧ text = T := by
    have heq : chunks ++ [text] = [] ++ [T] := hchunks.symm.trans hone
    obtain ⟨hnil, hlast⟩ := List.append_inj' heq rfl
    exact ⟨hnil, List.singleton_inj.mp hlast⟩
  obtain rfl : m = [] := by
    have hall := hholds.taken
    rw [htaken, hchunks, hholds.side.popped] at hall
    simpa using hall
  exact Tracked.costUsedBuff (Or.inl ⟨_, pending_takeText hholds hanswers⟩) hT _

theorem Kept.step {op : Op} (h : Kept exeName sha1Base64 T s) (hT : [13, 10, 13, 10] <:+ T)
    (hop : Receives op) (hstep : step exeName sha1Base64 s op = some s') :
    Kept exeName sha1Base64 T s' := by
  cases op with
  | main =>
    obtain rfl := Option.some.inj hstep
    rcases h with h | ⟨h, htrack⟩
    · exact Or.inl (h.mainStep _)
    · have hrecord := sameRecord_mainStep exeName sha1Base64 s
      exact Or.inr ⟨h.record hrecord, fun hone =>
        (htrack (hrecord.chunks ▸ hone)).mainStep hT⟩
  | onRecv ret sched =>
    rcases h with h | ⟨h, -⟩
    · obtain rfl := Option.some.inj ((if_pos h.state).symm.trans hstep)
      have hsched : Requesting T.length { s with sched := sched } := by
        obtain ⟨m, hready⟩ := h.ready
        exact ⟨h.state, ⟨m, hready.holds.io Waiting.side rfl rfl, hready.frame.idle,
          hready.frame.progress⟩, h.taken, h.pieces, h.copied, h.answers⟩
      rcases hsched.onRecv hop with hnext | ⟨t, text, m, hnext, hends, hholds, hchunks, hcopied,
        hanswers, htaken⟩
      · exact Or.inl hnext
      · rw [hnext]
        exact kept_takeText hT (fun c hc => (h.pieces c hc).1) hends hholds hchunks hcopied hanswers
          htaken
    · exact absurd ((if_neg h.state).symm.trans hstep) (by simp)

/-- The data phase clears the ring before it receives: what comes next is popped first. -/
structure StartsAnew (s : Sock) : Prop where
  isEmpty : s.recvBuf.isEmpty = true
  rep : s.recvBuf.clear.Rep []
  marks : s.recvBuf.clear.Marks 0

theorem Answered.startsAnew (h : Answered exeName sha1Base64 T s) : StartsAnew s := by
  have hempty : s.recvBuf.isEmpty = true := by
    simpa [FxLoopBuff.isEmpty] using h.empty.isEmpty_iff.mpr rfl
  have hfree := h.empty.free
  exact ⟨hempty, h.empty.clear hempty, .clear (by omega) h.empty.total_pos⟩

/-- The handshake with the request text `T`: it is copied once and inside `m_szWebInfo`, popped as
it was sent and answered once, and the data phase begins with an empty ring. -/
structure Completed (exeName : List UInt8) (sha1Base64 : List UInt8 → List UInt8) (T : List UInt8)
    (s : Sock) : Prop where
  copied : s.header.copied = [T]
  bounded : T.length ≤ webInfoSize
  once : ∀ k, ((mainStep (procRecv exeName sha1Base64))^[k] s).popped <+: [T] ∧
    ((mainStep (procRecv exeName sha1Base64))^[k] s).header.answers <+:
      [response exeName sha1Base64 T]
  answered : ∃ k, Answered exeName sha1Base64 T ((mainStep (procRecv exeName sha1Base64))^[k] s) ∧
    StartsAnew ((mainStep (procRecv exeName sha1Base64))^[k] s)

theorem Tracked.completed (h : Tracked exeName sha1Base64 T s) (hT : [13, 10, 13, 10] <:+ T)
    (hcopied : s.header.copied = [T]) (hbounded : T.length ≤ webInfoSize) :
    Completed exeName sha1Base64 T s where
  copied := hcopied
  bounded := hbounded
  once := fun k => by
    rcases h.mainSteps hT k with ⟨k', hk⟩ | hk
    · rw [hk.popped, hk.answers]
      exact ⟨List.nil_prefix, List.nil_prefix⟩
    · rw [hk.popped, hk.answers]
      exact ⟨List.prefix_rfl, List.prefix_rfl⟩
  answered := by
    obtain ⟨k, hk⟩ := h.answered hT
    exact ⟨k, hk, hk.startsAnew⟩

/-- Over every run on the pieces of a request text, with transient errors and steps of the main
thread anywhere between and in the calls: the handshake is completed if and only if the text
comes in one piece that is longer than its last four bytes and fits `m_szWebInfo`. -/
theorem handshake_completed_iff (hT : [13, 10, 13, 10] <:+ T) {ops : List Op} {s₀ : Sock}
    (hbegin : Begins T.length s₀) (hops : ∀ op ∈ ops, Receives op)
    (hrun : Transition.run (step exeName sha1Base64) s₀ ops = some s) (htaken : s.taken <+: T) :
    Completed exeName sha1Base64 T s ↔
      s.header.chunks = [T] ∧ 4 < T.length ∧ T.length ≤ webInfoSize := by
  have hkept : Kept exeName sha1Base64 T s :=
    Transition.invariant_of_always (fun _ _ _ h hop hstep => h.step hT hop hstep)
      (Or.inl hbegin.requesting) (Transition.always_of_forall hops s₀) hrun
  constructor
  · intro h
    rcases hkept with hreq | ⟨hended, -⟩
    · have hcopied := h.copied
      rw [hreq.copied] at hcopied
      cases hcopied
    · obtain ⟨front, last, hchunks, hfront, hends, hcopied⟩ := hended.pieces
      obtain rfl : last = T := List.singleton_inj.mp (hcopied.symm.trans h.copied)
      have hlen := htaken.length_le
      rw [hended.taken, hchunks, List.flatten_append, List.length_append] at hlen
      have hnil : front = [] := by
        cases front with
        | nil => rfl
        | cons c front =>
          have hpos := List.length_pos_iff.mpr (hfront c List.mem_cons_self)
          simp only [List.flatten_cons, List.flatten_nil, List.append_nil,
            List.length_append] at hlen
          omega
      rw [hchunks, hnil]
      exact ⟨rfl, hends.1, h.bounded⟩
  · rintro ⟨hone, hlong, hbounded⟩
    rcases hkept with hreq | ⟨hended, htrack⟩
    · exact absurd ⟨hlong, hT⟩ (hreq.pieces T (by simp [hone])).2
    · obtain ⟨front, last, hchunks, -, -, hcopied⟩ := hended.pieces
      have hlast : front ++ [last] = [] ++ [T] := hchunks.symm.trans hone
      obtain rfl := List.singleton_inj.mp (List.append_inj' hlast rfl).2
      exact (htrack hone).completed hT hcopied hbounded

/-- Behind `Reset`. -/
def atRequest : HandShake :=
  ⟨FxWebSocketConnect.freshHeader, .request, List.replicate webInfoSize 0, true, [], [], []⟩

/-- A request without headers in one piece. -/
theorem handshake_completed_one_piece :
    ∃ s, Transition.run (step [] id) (accepted atRequest 16 16)
        [.main, .onRecv (.error eagain) [], .onRecv (.data [71, 13, 10, 13, 10]) [1]] = some s ∧
      Completed [] id [71, 13, 10, 13, 10] s := by
  have hbegin : Begins ([71, 13, 10, 13, 10] : List UInt8).length (accepted atRequest 16 16) :=
    ⟨fresh_accepted atRequest (show (0 : Int) < 16 by omega) (by omega) 16, by decide, rfl, rfl,
      rfl, rfl⟩
  have hpieces : (Transition.run (step [] id) (accepted atRequest 16 16)
      [.main, .onRecv (.error eagain) [], .onRecv (.data [71, 13, 10, 13, 10]) [1]]).map
      (fun s => (s.header.chunks, s.taken)) =
        some ([[71, 13, 10, 13, 10]], [71, 13, 10, 13, 10]) := by
    decide +kernel
  obtain ⟨s, hrun, hs⟩ := Option.map_eq_some_iff.mp hpieces
  simp only [Prod.mk.injEq] at hs
  refine ⟨s, hrun, (handshake_completed_iff (by decide) hbegin (by decide) hrun ?_).mpr
    ⟨hs.1, by decide, by decide⟩⟩
  exact hs.2 ▸ List.prefix_rfl

/-- A request cut behind its first line: its second piece alone is copied, and as many bytes as
that one has are popped from the front of the text. -/
theorem handshake_cut_once :
    ∃ s, Transition.run (step [] id) (accepted atRequest 16 16)
        [.onRecv (.data [71, 13, 10]) [], .onRecv (.data [75, 58, 32, 118, 13, 10, 13, 10]) [],
          .main, .main, .main] = some s ∧
      s.taken = [71, 13, 10, 75, 58, 32, 118, 13, 10, 13, 10] ∧
      s.header.copied = [[75, 58, 32, 118, 13, 10, 13, 10]] ∧
      s.popped = [[71, 13, 10, 75, 58, 32, 118, 13]] ∧
      ¬ Completed [] id [71, 13, 10, 75, 58, 32, 118, 13, 10, 13, 10] s := by
  have hstate : (Transition.run (step [] id) (accepted atRequest 16 16)
      [.onRecv (.data [71, 13, 10]) [], .onRecv (.data [75, 58, 32, 118, 13, 10, 13, 10]) [],
        .main, .main, .main]).map (fun s => (s.taken, s.header.copied, s.popped)) =
      some ([71, 13, 10, 75, 58, 32, 118, 13, 10, 13, 10], [[75, 58, 32, 118, 13, 10, 13, 10]],
        [[71, 13, 10, 75, 58, 32, 118, 13]]) := by
    decide +kernel
  obtain ⟨s, hrun, hs⟩ := Option.map_eq_some_iff.mp hstate
  simp only [Prod.mk.injEq] at hs
  refine ⟨s, hrun, hs.1, hs.2.1, hs.2.2, fun h => ?_⟩
  have hcopied := h.copied
  rw [hs.2.1] at hcopied
  exact absurd hcopied (by decide)

end HandShake
