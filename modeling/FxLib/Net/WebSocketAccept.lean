import FxLib.Meta.Base64
import FxLib.Meta.NetStream
import FxLib.Meta.SHA1
import FxLib.Net.ResponseKey

/-!
# The answer of a WebSocket

`ResponseKey` with the digest and the encoding that it calls, and the answer that a client is sent.
-/

namespace ResponseKey

open SecureHash

/-- From `SHA1 sha` on. `sha` is what lies on the stack there, and the text ends at its NUL. -/
def sha1Base64 (o : HostOrder) (sha : SHA1) (szServerKey : List UInt8) : List UInt8 :=
  let sha := (sha.reset.reset).shiftLeft szServerKey
  let x := sha.result.2.getD ⟨0, 0, 0, 0, 0⟩
  Base64.base64Encode ([x.a, x.b, x.c, x.d, x.e].flatMap fun w => o.bytes 4 (o.hton 4 w.toNat))

/-- The value that the client expects for its key. -/
def acceptValue (key : List UInt8) : List UInt8 :=
  Base64.base64Encode (digest (key ++ websocketGuid)).bytes

/-- On either kind of host the text that comes out is the digest's. -/
theorem sha1Base64_eq (o : HostOrder) (sha : SHA1) {text : List UInt8} (hnul : 0 ∉ text)
    (hfits : text.length < SHA1.Hash.limit) :
    sha1Base64 o sha text = Base64.base64Encode (digest text).bytes := by
  have htext : cString text = text := (cString_eq_self_iff text).mpr hnul
  have hcalls := (SHA1.represents_reset (s := sha.reset) fun _ _ => rfl).calls
    [.shiftLeft text, .result]
  have htaken : (SHA1.Hash.taking []).input text = .taking text := by
    cases text with
    | nil => rfl
    | cons c text =>
      rw [SHA1.Hash.input, if_pos (by simpa using hfits)]
      rfl
  have hdigest : ((sha.reset.reset).shiftLeft text).result.2 = some (digest text) := by
    have hsaid := hcalls.2
    simp only [SHA1.calls, SHA1.call, SHA1.Hash.calls, SHA1.Hash.call, htext, htaken] at hsaid
    simpa using hsaid
  rw [sha1Base64, hdigest]
  simp only [HostOrder.bytes_hton]
  rfl

/-! ### What a key is taken from -/

theorem sublist_of_mem_lines {line text : List UInt8} (h : line ∈ Text.lines text) :
    line.Sublist text := by
  induction text generalizing line with
  | nil => simp [Text.lines] at h
  | cons c cs ih =>
    rw [Text.lines] at h
    split_ifs at h with hend
    · rcases List.mem_cons.mp h with rfl | h
      · exact List.nil_sublist _
      · exact (ih h).cons c
    · cases hlines : Text.lines cs with
      | nil =>
        simp only [hlines, List.mem_singleton] at h
        rw [h]
        exact (List.nil_sublist cs).cons_cons c
      | cons first rest =>
        simp only [hlines, List.mem_cons] at h
        rw [hlines] at ih
        rcases h with rfl | h
        · exact (ih List.mem_cons_self).cons_cons c
        · exact (ih (List.mem_cons_of_mem first h)).cons c

theorem splitHeader_sublist {line : List UInt8} {header : List UInt8 × List UInt8}
    (h : splitHeader line = some header) : header.2.Sublist line := by
  induction line using splitHeader.induct generalizing header with
  | case1 value =>
    rw [splitHeader] at h
    obtain rfl := Option.some.inj h
    exact ((List.Sublist.refl value).cons 32).cons 58
  | case2 c cs hne ih =>
    rw [splitHeader] at h
    · obtain ⟨inner, hinner, rfl⟩ := Option.map_eq_some_iff.mp h
      exact (ih hinner).cons c
    · exact hne
  | case3 => simp [splitHeader] at h

theorem keyValue_sublist {line value : List UInt8} (h : keyValue line = some value) :
    value.Sublist line := by
  have hline : (if line.getLast? = some 13 then line.dropLast else line).Sublist line := by
    split_ifs
    · exact List.dropLast_sublist line
    · exact List.Sublist.refl line
  rw [keyValue] at h
  revert h hline
  generalize (if line.getLast? = some 13 then line.dropLast else line) = header
  intro h hline
  cases hsplit : splitHeader header with
  | none => simp [hsplit] at h
  | some pair =>
    simp only [hsplit] at h
    split_ifs at h
    obtain rfl := Option.some.inj h
    exact (splitHeader_sublist hsplit).trans hline

/-- The key stands in the text. -/
theorem lastKey_sublist {lines : List (List UInt8)} {text : List UInt8}
    (h : ∀ line ∈ lines, line ∈ Text.lines text) : (lastKey lines).Sublist text := by
  rw [lastKey]
  cases hlast : (lines.filterMap keyValue).getLast? with
  | none => exact List.nil_sublist text
  | some value =>
    obtain ⟨line, hline, hvalue⟩ := List.mem_filterMap.mp (List.mem_of_getLast? hlast)
    exact (keyValue_sublist hvalue).trans (sublist_of_mem_lines (h line hline))

/-- A regular request that `m_szWebInfo` can hold gets the value its client expects. -/
theorem Regular.accept {T : List UInt8} (h : Regular T) (hT : T.length ≤ HandShake.webInfoSize)
    (o : HostOrder) (sha : SHA1) :
    responseKey (sha1Base64 o sha) (cString T) = acceptValue (lastKey (headerLines T)) := by
  have hkey : (lastKey (headerLines T)).Sublist (cString T) := by
    rw [← h.key]
    refine lastKey_sublist fun line hline => ?_
    exact List.mem_of_mem_tail ((List.takeWhile_sublist _).mem (List.mem_of_mem_filter hline))
  have hnul : 0 ∉ lastKey (headerLines T) ++ websocketGuid := by
    rw [List.mem_append]
    rintro (hzero | hzero)
    · exact zero_not_mem_cString T (hkey.mem hzero)
    · exact absurd hzero (by decide +kernel)
  have hfits : (lastKey (headerLines T) ++ websocketGuid).length < SHA1.Hash.limit := by
    have hguid : websocketGuid.length = 36 := by decide +kernel
    have hle := hkey.length_le
    have htext : (cString T).length ≤ T.length := (List.takeWhile_sublist _).length_le
    rw [HandShake.webInfoSize] at hT
    rw [SHA1.Hash.limit, List.length_append, hguid]
    omega
  rw [responseKey_eq _ h.request, h.key, sha1Base64_eq o sha hnul hfits, acceptValue]

end ResponseKey

/-! ### The answer on the wire -/

namespace HandShake

open ResponseKey

variable {exeName T : List UInt8} {o : HostOrder} {sha : SHA1} {s : Sock}

/-- The answer that opens the connection for the client that sent the key. -/
def switchingProtocols (exeName key : List UInt8) : List UInt8 :=
  "HTTP/1.1 101 Switching Protocols\r\n".toUTF8.toList
    ++ "Connection: Upgrade\r\nUpgrade: WebSocket\r\nServer: ".toUTF8.toList ++ exeName
    ++ "\r\nSec-WebSocket-Accept: ".toUTF8.toList ++ acceptValue key ++ "\r\n\r\n".toUTF8.toList

/-! Whether the answer can be sent is not up to the handshake. -/

section

variable (exeName : List UInt8) (sha1Base64 : List UInt8 → List UInt8)

theorem sends_recvChunk (s : Sock) (ret : RecvRet) :
    (s.recvChunk (procRecv exeName sha1Base64) ret).2.header.sends = s.header.sends :=
  RecvSock.header_recvChunk (P := fun header => header.sends = s.header.sends)
    (fun t ht => (sameRecord_yield exeName sha1Base64 t).sends.trans ht) rfl ret

theorem sends_step {s s' : Sock} {op : Op} (hstep : step exeName sha1Base64 s op = some s') :
    s'.header.sends = s.header.sends := by
  cases op with
  | main =>
    obtain rfl := Option.some.inj hstep
    exact (sameRecord_mainStep exeName sha1Base64 s).sends
  | onRecv ret sched =>
    simp only [step] at hstep
    split_ifs at hstep
    obtain rfl := Option.some.inj hstep
    have hchunk := sends_recvChunk exeName sha1Base64 { s with sched := sched } ret
    simp only [onRecv]
    split_ifs
    · rfl
    · generalize RecvSock.recvChunk (procRecv exeName sha1Base64) ret _ = chunk at hchunk
      obtain ⟨region, t⟩ := chunk
      cases region with
      | none => exact hchunk
      | some region =>
        refine ((sameRecord_costUsedBuff exeName sha1Base64 _ _).sends).trans ?_
        split_ifs <;> exact hchunk

end

/-- A regular request that comes in one piece is answered once, with the value that belongs to its
last key, whatever the main thread does between and in the calls of `OnRecv`; and then the socket
is in the data phase. -/
theorem answered_with_accept (hregular : Regular T) (hT : [13, 10, 13, 10] <:+ T)
    (hfits : T.length ≤ webInfoSize) {ops : List Op} {s₀ : Sock} (hbegin : Begins T.length s₀)
    (hsends : s₀.header.sends = true) (hops : ∀ op ∈ ops, Receives op)
    (hrun : Transition.run (step exeName (sha1Base64 o sha)) s₀ ops = some s)
    (hone : s.header.chunks = [T]) (hlong : 4 < T.length) :
    (∃ k, ((RecvSock.mainStep (procRecv exeName (sha1Base64 o sha)))^[k] s).header.answers =
        [switchingProtocols exeName (lastKey (headerLines T))] ∧
      ((RecvSock.mainStep (procRecv exeName (sha1Base64 o sha)))^[k] s).header.state =
        .connected) ∧
    ∀ k, ((RecvSock.mainStep (procRecv exeName (sha1Base64 o sha)))^[k] s).header.answers <+:
      [switchingProtocols exeName (lastKey (headerLines T))] := by
  have hresponse : response exeName (sha1Base64 o sha) T =
      switchingProtocols exeName (lastKey (headerLines T)) := by
    rw [response, hregular.accept hfits, switchingProtocols]
  have hkept : Kept exeName (sha1Base64 o sha) T s :=
    Transition.invariant_of_always (fun _ _ _ h hop hstep => h.step hT hop hstep)
      (Or.inl hbegin.requesting) (Transition.always_of_forall hops s₀) hrun
  have hsent : s.header.sends = true :=
    Transition.invariant (fun t l t' (h : t.header.sends = true) hstep =>
      (sends_step exeName (sha1Base64 o sha) hstep).trans h) hsends hrun
  rcases hkept with hreq | ⟨hended, htrack⟩
  · exact absurd ⟨hlong, hT⟩ (hreq.pieces T (by simp [hone])).2
  · obtain ⟨front, last, hchunks, -, -, hcopied⟩ := hended.pieces
    have hlast : front ++ [last] = [] ++ [T] := hchunks.symm.trans hone
    obtain rfl := List.singleton_inj.mp (List.append_inj' hlast rfl).2
    have hcompleted := (htrack hone).completed hT hcopied hfits
    rw [← hresponse]
    constructor
    · obtain ⟨k, hk, -⟩ := hcompleted.answered
      exact ⟨k, hk.answers, hk.state ((sameRecord_mainSteps _ _ s k).sends.trans hsent)⟩
    · exact fun k => (hcompleted.once k).2

/-- The request of the specification's example. -/
def sampleRequest : List UInt8 :=
  "GET /chat HTTP/1.1\r\nSec-WebSocket-Key: dGhlIHNhbXBsZSBub25jZQ==\r\n\r\n".toUTF8.toList

def sampleKey : List UInt8 := "dGhlIHNhbXBsZSBub25jZQ==".toUTF8.toList

def noSHA1 : SHA1 := ⟨SecureHash.initial, 0, 0, fun _ => 0, 0, false, false⟩

theorem answered_with_accept_sample :
    ∃ s, Transition.run (step [] (sha1Base64 .little noSHA1)) (RecvSock.accepted atRequest 80 80)
        [.main, .onRecv (.error eagain) [], .onRecv (.data sampleRequest) [1]] = some s ∧
      ∃ k, ((RecvSock.mainStep (procRecv [] (sha1Base64 .little noSHA1)))^[k] s).header.answers =
          [switchingProtocols [] sampleKey] ∧
        ((RecvSock.mainStep (procRecv [] (sha1Base64 .little noSHA1)))^[k] s).header.state =
          .connected := by
  have hbegin : Begins sampleRequest.length (RecvSock.accepted atRequest 80 80) :=
    ⟨RecvSock.fresh_accepted atRequest (show (0 : Int) < 80 by omega) (by omega) 80,
      by decide +kernel, rfl, rfl, rfl, rfl⟩
  have hregular : Regular sampleRequest :=
    ⟨by decide +kernel, by decide +kernel, by decide +kernel⟩
  have hkey : lastKey (headerLines sampleRequest) = sampleKey := by decide +kernel
  have hpieces : (Transition.run (step [] (sha1Base64 .little noSHA1))
      (RecvSock.accepted atRequest 80 80)
      [.main, .onRecv (.error eagain) [], .onRecv (.data sampleRequest) [1]]).map
      (fun s => s.header.chunks) = some [sampleRequest] := by
    decide +kernel
  obtain ⟨s, hrun, hs⟩ := Option.map_eq_some_iff.mp hpieces
  refine ⟨s, hrun, ?_⟩
  rw [← hkey]
  exact (answered_with_accept hregular (by decide +kernel) (by decide +kernel) hbegin rfl
    (by decide +kernel) hrun hs (by decide +kernel)).1

/-- What the specification's client expects. -/
example : sha1Base64 .little noSHA1 (sampleKey ++ websocketGuid) =
    "s3pPLMBiTxaQ9kYGzzhZRbK+xOo=".toUTF8.toList := by
  decide +kernel

end HandShake
