import FxLib.Lib.Text
import Mathlib.Data.List.TakeWhile

/-!
# Requests over HTTP

`HttpHelp::parse_http_request`, which works in the buffer it is given: it writes a NUL behind each
part that it has found and keeps pointers to the parts. All pointers are distances from the
beginning of the buffer. What is left in the `HttpRequestInfo` of a request that is refused is not
followed.
-/

namespace HttpHelp

open Text

def isPrint (c : UInt8) : Bool := 32 ≤ c ∧ c ≤ 126

def isGraph (c : UInt8) : Bool := 33 ≤ c ∧ c ≤ 126

def isCntrl (c : UInt8) : Bool := c < 32 ∨ c = 127

/-- A `char*` into the buffer: the bytes before it, and those from it on. -/
structure CharPtr where
  before : List UInt8
  text : List UInt8
  deriving DecidableEq

namespace CharPtr

def mem (p : CharPtr) : List UInt8 := p.before ++ p.text

def pos (p : CharPtr) : Nat := p.before.length

/-- `*p`. -/
def char (p : CharPtr) : UInt8 := p.text.headD 0

/-- `while (good(*p)) p++`. -/
def advance (good : UInt8 → Bool) (p : CharPtr) : CharPtr :=
  ⟨p.before ++ p.text.takeWhile good, p.text.dropWhile good⟩

/-- `do { *p = 0; p++; } while (*p && isspace(*p))`. -/
def terminate (p : CharPtr) : CharPtr :=
  match p.text with
  | [] => p
  | _ :: text =>
    ⟨p.before ++ 0 :: (text.takeWhile isSpace).map (fun _ => 0), text.dropWhile isSpace⟩

end CharPtr

/-- The text that a pointer into the buffer points to. -/
def textAt (mem : List UInt8) (p : Nat) : List UInt8 := cString (mem.drop p)

structure HttpHeader where
  name : Nat
  value : Nat
  deriving DecidableEq

structure HttpRequestInfo where
  requestMethod : Nat
  requestUri : Nat
  queryString : Option Nat
  httpVersion : Nat
  httpHeaders : List HttpHeader
  contentLength : Option Int
  body : Option Nat
  deriving DecidableEq

/-- `g_sHttpMethods`. -/
def httpMethods : List (List UInt8) :=
  ["GET", "POST", "PUT", "DELETE", "HEAD", "OPTIONS", "CONNECT", "PATCH", "PROPFIND", "MKCOL",
    "REPORT"].map fun name => name.toUTF8.toList

def isValidHttpMethod (method : List UInt8) : Bool := method ∈ httpMethods

/-- `get_http_header_len` from the byte `i` of the buffer on. -/
def getHttpHeaderLen (i : Nat) : List UInt8 → Int
  | [] => 0
  | c :: text =>
    if c < 128 ∧ c ≠ 13 ∧ c ≠ 10 ∧ isPrint c = false then -1
    else if c = 10 ∧ text.head? = some 10 then i + 2
    else if c = 13 ∧ text.take 3 = [10, 13, 10] then i + 4
    else getHttpHeaderLen (i + 1) text

/-- `skip_to_end_of_word_and_terminate`. -/
def skipToEndOfWordAndTerminate (eol : Bool) (ppw : CharPtr) : Option CharPtr :=
  let ppw := ppw.advance isGraph
  if eol ∧ ppw.char ≠ 13 ∧ ppw.char ≠ 10 then none
  else if eol = false ∧ ppw.char ≠ 32 then none
  else
    let ppw := ppw.terminate
    if eol = false ∧ isGraph ppw.char = false then none else some ppw

def isBlank (c : UInt8) : Bool := c = 32

/-- The characters of a header's name. -/
def isName (c : UInt8) : Bool := c ≠ 58 ∧ 33 ≤ c ∧ c ≤ 126

/-- The characters of which `strcspn(dp, "\r\n")` is the number. -/
def isValue (c : UInt8) : Bool := c ≠ 0 ∧ c ≠ 13 ∧ c ≠ 10

/-- `parse_http_headers`, with the number of headers that there is still room for. -/
def parseHttpHeaders : Nat → CharPtr → Option (List HttpHeader × CharPtr)
  | 0, buf => some ([], buf)
  | left + 1, buf =>
    let dp := buf.advance isName
    if dp.pos = buf.pos then some ([], buf)
    else match dp.text with
      | 58 :: text =>
        let dp := (CharPtr.mk (dp.before ++ [0]) text).advance isBlank
        let header : HttpHeader := ⟨buf.pos, dp.pos⟩
        let line := dp.advance isValue
        match line.text with
        | 13 :: 10 :: text =>
          let buf : CharPtr := ⟨line.before ++ [0, 0], text⟩
          if buf.char = 13 then some ([header], buf)
          else (parseHttpHeaders left buf).map fun (headers, buf) => (header :: headers, buf)
        | _ => some ([header], dp)
      | _ => none

/-- `get_header`. -/
def getHeader (mem : List UInt8) (headers : List HttpHeader) (name : List UInt8) : Option Nat :=
  (headers.find? fun header => textAt mem header.name = name).map HttpHeader.value

/-- Where a `?` stands in the URI, a NUL takes its place and the query string begins behind it. -/
def cutQueryString (requestUri : Nat) (buf : CharPtr) : Option Nat × CharPtr :=
  match (textAt buf.mem requestUri).findIdx? (· = 63) with
  | none => (none, buf)
  | some i => (some (requestUri + i + 1), { buf with before := buf.before.set (requestUri + i) 0 })

/-- The first line of a request. -/
def parseRequestLine (buf : CharPtr) : Option (HttpRequestInfo × CharPtr) := do
  let requestMethod := buf.pos
  let buf ← skipToEndOfWordAndTerminate false buf
  if isValidHttpMethod (textAt buf.mem requestMethod) = false then none
  else
    let requestUri := buf.pos
    let buf ← skipToEndOfWordAndTerminate false buf
    let (queryString, buf) := cutQueryString requestUri buf
    let httpVersion := buf.pos
    let buf ← skipToEndOfWordAndTerminate true buf
    if (textAt buf.mem httpVersion).take 5 ≠ "HTTP/".toUTF8.toList then none
    else some (⟨requestMethod, requestUri, queryString, httpVersion + 5, [], none, none⟩, buf)

def contentLengthName : List UInt8 := "Content-Length".toUTF8.toList

/-- The headers of a request, and the body that they announce. -/
def parseFields (ri : HttpRequestInfo) (buf : CharPtr) : Option (HttpRequestInfo × CharPtr) := do
  let (headers, buf) ← parseHttpHeaders 64 buf
  let ri := { ri with httpHeaders := headers }
  match getHeader buf.mem headers contentLengthName with
  | none => return (ri, buf)
  | some cl =>
    let contentLength := strtoll (textAt buf.mem cl)
    let buf ← skipToEndOfWordAndTerminate true buf
    return ({ ri with contentLength := some contentLength, body := some (buf.pos + 1) }, buf)

/-- What a request that is accepted leaves: what is returned, the buffer and the pointers. -/
structure Parsed where
  length : Nat
  mem : List UInt8
  ri : HttpRequestInfo
  deriving DecidableEq

/-- `parse_http_request`. -/
def parseHttpRequest (buf : List UInt8) : Except Int Parsed :=
  let skipped := buf.takeWhile isSpace
  let text := buf.dropWhile isSpace
  if text = [] then .error 0
  else if isCntrl (text.headD 0) then .error (-1)
  else if getHttpHeaderLen 0 text ≤ 0 then .error (getHttpHeaderLen 0 text)
  else
    let requestLength := (getHttpHeaderLen 0 text).toNat
    let text := text.set (requestLength - 1) 0
    if text.headD 0 = 0 ∨ text.headD 0 = 13 ∨ text.headD 0 = 10 then .error (-1)
    else
      match parseRequestLine ⟨skipped, text⟩ >>= fun (ri, buf) => parseFields ri buf with
      | none => .error (-1)
      | some (ri, buf) => .ok ⟨requestLength + skipped.length, buf.mem, ri⟩

/-! ### The parts of a request -/

/-- The head of a request up to the last character of the empty line that ends it. -/
def headOf : List UInt8 → List UInt8
  | [] => []
  | c :: text =>
    if c = 10 ∧ text.head? = some 10 then [10]
    else if c = 13 ∧ text.take 3 = [10, 13, 10] then [13, 10, 13]
    else c :: headOf text

/-- What is left behind a word, the character that ends it and white space. -/
def behindWord (text : List UInt8) : List UInt8 :=
  ((text.dropWhile isGraph).drop 1).dropWhile isSpace

/-- The second word. -/
def uriOf (head : List UInt8) : List UInt8 := (behindWord head).takeWhile isGraph

/-- What follows the first line. -/
def fieldsOf (head : List UInt8) : List UInt8 := behindWord (behindWord (behindWord head))

/-- The names in the lines of the form `name: value`, and what follows those that end in CRLF: at
most `left` of them, and none behind a line that has another end, of which the value is left. -/
def headerLines : Nat → List UInt8 → List (List UInt8) × List UInt8
  | 0, text => ([], text)
  | left + 1, text =>
    match text.takeWhile isName, text.dropWhile isName with
    | c :: name, 58 :: text =>
      let value := text.dropWhile isBlank
      match value.dropWhile isValue with
      | 13 :: 10 :: rest =>
        if rest.head? = some 13 then ([c :: name], rest)
        else ((c :: name) :: (headerLines left rest).1, (headerLines left rest).2)
      | _ => ([c :: name], value)
    | _, _ => ([], text)

/-- The query string is what follows the first `?` of the second word, and the URI ends there. -/
def QueryLocated (uri mem : List UInt8) (requestUri : Nat) : Option Nat → Prop
  | none => 63 ∉ uri ∧ textAt mem requestUri = uri
  | some query => 63 ∉ textAt mem requestUri ∧
    uri = textAt mem requestUri ++ 63 :: textAt mem query

/-- What the pointers of a request should point to. -/
structure Located (buf : List UInt8) (r : Parsed) : Prop where
  length : r.length ≤ buf.length
  body : r.ri.contentLength.isSome → r.ri.body = some r.length
  query : QueryLocated (uriOf (headOf (buf.dropWhile isSpace))) r.mem r.ri.requestUri
    r.ri.queryString

/-- Where the lines that end in CRLF have a `Content-Length`, or the line behind them has, nothing
but one word and the end of a line follows them. -/
def Closed (buf : List UInt8) : Prop :=
  let fields := headerLines 64 (fieldsOf (headOf (buf.dropWhile isSpace)))
  contentLengthName ∈ fields.1 → behindWord fields.2 = []

/-! ### A pointer into the head -/

/-- The head goes on with `r` and ends with a NUL; the buffer has `length` bytes. -/
structure At (length : Nat) (r tail : List UInt8) (p : CharPtr) : Prop where
  text : p.text = r ++ 0 :: tail
  length : p.before.length + p.text.length = length

variable {n : Nat} {r tail : List UInt8} {p p' : CharPtr} {good : UInt8 → Bool}

theorem takeWhile_head (hzero : good 0 = false) (r tail : List UInt8) :
    (r ++ 0 :: tail).takeWhile good = r.takeWhile good := takeWhile_append_cons hzero r tail

theorem dropWhile_head (hzero : good 0 = false) (r tail : List UInt8) :
    (r ++ 0 :: tail).dropWhile good = r.dropWhile good ++ 0 :: tail := by
  induction r with
  | nil => simp [hzero]
  | cons c r ih =>
    simp only [List.cons_append, List.dropWhile_cons, ih]
    split_ifs <;> rfl

theorem At.advance (h : At n r tail p) (hzero : good 0 = false) :
    At n (r.dropWhile good) tail (p.advance good) ∧
      (p.advance good).before = p.before ++ r.takeWhile good := by
  have htext : (p.advance good).text = r.dropWhile good ++ 0 :: tail := by
    rw [CharPtr.advance, h.text, dropWhile_head hzero]
  refine ⟨⟨htext, ?_⟩, by rw [CharPtr.advance, h.text, takeWhile_head hzero]⟩
  have hlen := h.length
  have hsplit := congrArg List.length (List.takeWhile_append_dropWhile (p := good) (l := p.text))
  simp only [CharPtr.advance, List.length_append] at hsplit ⊢
  omega

/-- A step that goes over bytes and overwrites them. -/
theorem At.overwrite (old : List UInt8) {text : List UInt8} (h : At n (old ++ text) tail p)
    (new : List UInt8) (hlen : new.length = old.length) :
    At n text tail ⟨p.before ++ new, text ++ 0 :: tail⟩ := by
  refine ⟨rfl, ?_⟩
  have hall := h.length
  rw [h.text] at hall
  simp only [List.length_cons, List.length_append] at hall ⊢
  omega

theorem At.terminate {c : UInt8} {text : List UInt8} (h : At n (c :: text) tail p) :
    At n (text.dropWhile isSpace) tail p.terminate ∧
      ∃ z, p.terminate.before = p.before ++ 0 :: z := by
  have hzero : isSpace 0 = false := by decide
  have htext : p.terminate = ⟨p.before ++ 0 :: (text.takeWhile isSpace).map (fun _ => 0),
      text.dropWhile isSpace ++ 0 :: tail⟩ := by
    rw [CharPtr.terminate, h.text]
    simp only [List.cons_append, takeWhile_head hzero, dropWhile_head hzero]
  refine ⟨⟨by rw [htext], ?_⟩, _, by rw [htext]⟩
  have hlen := h.length
  have hsplit := congrArg List.length (List.takeWhile_append_dropWhile (p := isSpace) (l := text))
  rw [h.text] at hlen
  rw [htext]
  simp only [List.length_append, List.length_cons, List.length_map] at hsplit hlen ⊢
  omega

theorem At.char (h : At n r tail p) : p.char = r.headD 0 := by
  rw [CharPtr.char, h.text]
  cases r with
  | nil => rfl
  | cons c r => rfl

/-- Behind a word, a NUL has been written and the next word begins. -/
theorem At.skip (h : At n r tail p) {eol : Bool}
    (hskip : skipToEndOfWordAndTerminate eol p = some p') :
    At n (behindWord r) tail p' ∧ ∃ z, p'.before = p.before ++ (r.takeWhile isGraph ++ 0 :: z) := by
  have hzero : isGraph 0 = false := by decide
  obtain ⟨hword, hbefore⟩ := h.advance hzero
  simp only [skipToEndOfWordAndTerminate] at hskip
  cases hrest : r.dropWhile isGraph with
  | nil =>
    -- At the NUL that ends the head there is no end of a word.
    have hchar : (p.advance isGraph).char = 0 := by
      rw [hword.char, hrest]
      rfl
    rw [hchar] at hskip
    cases eol with
    | false => simp at hskip
    | true => simp at hskip
  | cons c text =>
    rw [hrest] at hword
    obtain ⟨hnext, z, hz⟩ := hword.terminate
    split_ifs at hskip
    obtain rfl := Option.some.inj hskip
    refine ⟨?_, z, ?_⟩
    · rw [behindWord, hrest]
      exact hnext
    · rw [hz, hbefore, List.append_assoc]

/-! ### Texts that pointers point to -/

/-- A text is what stands between its pointer and the NUL behind it. -/
theorem textAt_eq {before text rest : List UInt8} (hnul : 0 ∉ text) :
    textAt (before ++ (text ++ 0 :: rest)) before.length = text := by
  rw [textAt, List.drop_left, cString_eq hnul]

theorem not_mem_takeWhile (hzero : good 0 = false) (text : List UInt8) :
    0 ∉ text.takeWhile good := by
  intro hmem
  have htrue := List.mem_takeWhile_imp hmem
  rw [hzero] at htrue
  contradiction

/-- In front of a NUL, the end of a line is one of the head. -/
theorem crlf_of_head {text : List UInt8} (h : r ++ 0 :: tail = 13 :: 10 :: text) :
    ∃ rest, r = 13 :: 10 :: rest ∧ text = rest ++ 0 :: tail := by
  match r with
  | [] => simp at h
  | [c] => simp at h
  | c :: d :: rest =>
    simp only [List.cons_append, List.cons.injEq] at h
    obtain ⟨rfl, rfl, rfl⟩ := h
    exact ⟨rest, rfl, rfl⟩

theorem headerLines_named {left : Nat} {c : UInt8} {name text : List UInt8}
    (hword : r.takeWhile isName = c :: name) (hrest : r.dropWhile isName = 58 :: text) :
    headerLines (left + 1) r =
      match (text.dropWhile isBlank).dropWhile isValue with
      | 13 :: 10 :: rest =>
        if rest.head? = some 13 then ([c :: name], rest)
        else ((c :: name) :: (headerLines left rest).1, (headerLines left rest).2)
      | _ => ([c :: name], text.dropWhile isBlank) := by
  simp only [headerLines, hword, hrest]

/-- Behind the name and its colon, of which a NUL has been made. -/
theorem At.behindName {c : UInt8} {name text : List UInt8} (h : At n r tail p)
    (hword : r.takeWhile isName = c :: name) (hrest : r.dropWhile isName = 58 :: text) :
    At n (text.dropWhile isBlank) tail
        (CharPtr.advance isBlank ⟨(p.advance isName).before ++ [0], text ++ 0 :: tail⟩) ∧
      (CharPtr.advance isBlank ⟨(p.advance isName).before ++ [0], text ++ 0 :: tail⟩).before =
        p.before ++ (c :: name ++ 0 :: text.takeWhile isBlank) := by
  have hzero : isName 0 = false := by decide
  have hspace : isBlank 0 = false := by decide
  obtain ⟨hname, hbefore⟩ := h.advance hzero
  rw [hrest] at hname
  obtain ⟨hvalue, hbefore'⟩ := (At.overwrite [58] hname [0] rfl).advance hspace
  refine ⟨hvalue, ?_⟩
  rw [hbefore', hbefore, hword]
  simp

/-- Behind a value whose line ends in CRLF, of which two NULs have been made. -/
theorem At.behindLine {value text : List UInt8} (h : At n value tail p)
    (hcrlf : (p.advance isValue).text = 13 :: 10 :: text) :
    ∃ rest, value.dropWhile isValue = 13 :: 10 :: rest ∧
      At n rest tail ⟨(p.advance isValue).before ++ [0, 0], text⟩ ∧
      (rest.headD 0 = 13 ↔ rest.head? = some 13) ∧
      ∃ z, (p.advance isValue).before ++ [0, 0] = p.before ++ z := by
  have hend : isValue 0 = false := by decide
  obtain ⟨hline, hbefore⟩ := h.advance hend
  rw [hline.text] at hcrlf
  obtain ⟨rest, hrest, rfl⟩ := crlf_of_head hcrlf
  rw [hrest] at hline
  have hlast : rest.headD 0 = 13 ↔ rest.head? = some 13 := by
    cases rest with
    | nil => simp
    | cons c rest => simp
  refine ⟨rest, hrest, At.overwrite [13, 10] hline [0, 0] rfl, hlast,
    value.takeWhile isValue ++ [0, 0], ?_⟩
  rw [hbefore, List.append_assoc]

/-- A name stays where it is, before its NUL. -/
theorem textAt_name {name : List UInt8} (hnul : 0 ∉ name) (p : CharPtr) (z later : List UInt8) :
    textAt (p.before ++ (name ++ 0 :: z) ++ later) p.pos = name := by
  rw [List.append_assoc, List.append_assoc]
  exact textAt_eq hnul

/-- The headers that are found have the names of the lines, wherever the buffer goes on. -/
theorem At.headers {left : Nat} (h : At n r tail p) {headers : List HttpHeader}
    (hparse : parseHttpHeaders left p = some (headers, p')) :
    At n (headerLines left r).2 tail p' ∧ ∃ z, p'.before = p.before ++ z ∧
      ∀ later, headers.map (fun header => textAt (p'.before ++ later) header.name) =
        (headerLines left r).1 := by
  induction left generalizing p r headers with
  | zero =>
    obtain ⟨rfl, rfl⟩ := Prod.mk.inj (Option.some.inj hparse)
    exact ⟨h, [], by simp, fun _ => rfl⟩
  | succ left ih =>
    have hzero : isName 0 = false := by decide
    obtain ⟨hname, hbefore⟩ := h.advance hzero
    have hpos : (p.advance isName).pos = p.pos ↔ r.takeWhile isName = [] := by
      rw [CharPtr.pos, CharPtr.pos, hbefore, List.length_append, ← List.length_eq_zero_iff]
      omega
    rw [parseHttpHeaders] at hparse
    simp only [hpos, hname.text] at hparse
    cases hword : r.takeWhile isName with
    | nil =>
      rw [hword, if_pos rfl] at hparse
      obtain ⟨rfl, rfl⟩ := Prod.mk.inj (Option.some.inj hparse)
      rw [headerLines, hword]
      exact ⟨h, [], by simp, fun _ => rfl⟩
    | cons c name =>
      rw [if_neg (by simp [hword])] at hparse
      have hnul : 0 ∉ c :: name := hword ▸ not_mem_takeWhile hzero r
      cases hrest : r.dropWhile isName with
      | nil => simp [hrest] at hparse
      | cons d text =>
        by_cases hcolon : d = 58
        · subst hcolon
          simp only [hrest, List.cons_append] at hparse
          rw [headerLines_named hword hrest]
          obtain ⟨hvalue, hhead⟩ := h.behindName hword hrest
          generalize hdp : CharPtr.advance isBlank
            ⟨(p.advance isName).before ++ [0], text ++ 0 :: tail⟩ = dp at *
          split at hparse
          next text' hcrlf =>
            obtain ⟨rest, hrest', hbehind, hlast, z, hz⟩ := hvalue.behindLine hcrlf
            rw [hhead, List.append_assoc, List.append_assoc, List.cons_append] at hz
            rw [hrest']
            rw [hbehind.char] at hparse
            by_cases hempty : rest.head? = some 13
            · rw [if_pos (hlast.mpr hempty)] at hparse
              obtain ⟨rfl, rfl⟩ := Prod.mk.inj (Option.some.inj hparse)
              simp only [if_pos hempty]
              refine ⟨hbehind, _, hz, fun later => ?_⟩
              rw [hz]
              exact congrArg (fun text => [text]) (textAt_name hnul p _ later)
            · rw [if_neg (mt hlast.mp hempty)] at hparse
              obtain ⟨⟨headers', p''⟩, hrec, heq⟩ := Option.map_eq_some_iff.mp hparse
              obtain ⟨rfl, rfl⟩ := Prod.mk.inj heq
              obtain ⟨hat, z', hz', hnames⟩ := ih hbehind hrec
              simp only [if_neg hempty]
              refine ⟨hat, _, by rw [hz', hz, List.append_assoc], fun later => ?_⟩
              rw [List.map_cons, hnames, hz', hz, List.append_assoc]
              exact congrArg (· :: _) (textAt_name hnul p _ (z' ++ later))
          next hother =>
            obtain ⟨rfl, rfl⟩ := Prod.mk.inj (Option.some.inj hparse)
            split
            next rest hcrlf =>
              have hline := (hvalue.advance (by decide : isValue 0 = false)).1.text
              exact absurd (by rw [hline, hcrlf]; rfl) (hother (rest ++ 0 :: tail))
            · refine ⟨hvalue, _, hhead, fun later => ?_⟩
              rw [hhead, List.map_singleton]
              exact congrArg (fun text => [text]) (textAt_name hnul p _ later)
        · simp [hrest, hcolon] at hparse

/-! ### The first line -/

/-- A text at its first question mark. -/
theorem split_of_findIdx? {uri : List UInt8} {i : Nat} (h : uri.findIdx? (· = 63) = some i) :
    ∃ a b, uri = a ++ 63 :: b ∧ a.length = i ∧ 63 ∉ a := by
  obtain ⟨hi, hmark, hfirst⟩ := List.findIdx?_eq_some_iff_getElem.mp h
  refine ⟨uri.take i, uri.drop (i + 1), ?_, by simp; omega, ?_⟩
  · have hdrop := List.drop_eq_getElem_cons hi
    rw [of_decide_eq_true hmark] at hdrop
    rw [← hdrop, List.take_append_drop]
  · intro hmem
    obtain ⟨j, hj, hget⟩ := List.mem_take_iff_getElem.mp hmem
    exact hfirst j (by omega) (decide_eq_true hget)

theorem cutQueryString_spec (before : List UInt8) {uri : List UInt8} (hnul : 0 ∉ uri)
    (z text : List UInt8) :
    ∃ queryString before', cutQueryString before.length ⟨before ++ (uri ++ 0 :: z), text⟩ =
        (queryString, ⟨before', text⟩) ∧
      before'.length = (before ++ (uri ++ 0 :: z)).length ∧
      ∀ later, QueryLocated uri (before' ++ later) before.length queryString := by
  have huri : ∀ later, textAt (before ++ (uri ++ 0 :: z) ++ later) before.length = uri := by
    intro later
    rw [List.append_assoc, List.append_assoc]
    exact textAt_eq hnul
  rw [cutQueryString, CharPtr.mem, huri]
  cases hfind : uri.findIdx? (· = 63) with
  | none =>
    refine ⟨none, _, rfl, rfl, fun later => ⟨?_, huri later⟩⟩
    intro hmem
    simpa using List.findIdx?_eq_none_iff.mp hfind 63 hmem
  | some i =>
    obtain ⟨a, b, rfl, rfl, hfirst⟩ := split_of_findIdx? hfind
    obtain ⟨ha, hb⟩ := not_or.mp (mt List.mem_append.mpr hnul)
    have hset : (before ++ (a ++ 63 :: b ++ 0 :: z)).set (before.length + a.length) 0 =
        before ++ (a ++ 0 :: (b ++ 0 :: z)) := by
      simp
    refine ⟨_, _, rfl, by simp, fun later => ?_⟩
    have hbefore : textAt (before ++ (a ++ 0 :: (b ++ 0 :: z)) ++ later) before.length = a := by
      rw [List.append_assoc, List.append_assoc]
      exact textAt_eq ha
    have hbehind : textAt (before ++ (a ++ 0 :: (b ++ 0 :: z)) ++ later)
        (before.length + a.length + 1) = b := by
      have hpos : before.length + a.length + 1 = (before ++ (a ++ [0])).length := by simp; omega
      have hsame : before ++ (a ++ 0 :: (b ++ 0 :: z)) ++ later =
          before ++ (a ++ [0]) ++ (b ++ 0 :: (z ++ later)) := by simp
      rw [hpos, hsame]
      exact textAt_eq fun hc => hb (List.mem_cons_of_mem _ hc)
    rw [QueryLocated, hset, hbefore, hbehind]
    exact ⟨hfirst, rfl⟩

/-- Behind the first line the fields begin, and the query string stays where it is. -/
theorem At.requestLine (h : At n r tail p) {ri : HttpRequestInfo}
    (hparse : parseRequestLine p = some (ri, p')) :
    At n (fieldsOf r) tail p' ∧ ri.contentLength = none ∧
      ∀ later, QueryLocated (uriOf r) (p'.before ++ later) ri.requestUri ri.queryString := by
  simp only [parseRequestLine, Option.bind_eq_bind, Option.bind_eq_some_iff] at hparse
  obtain ⟨p₁, hskip₁, hparse⟩ := hparse
  split_ifs at hparse
  simp only [Option.bind_eq_some_iff] at hparse
  obtain ⟨p₂, hskip₂, p₃, hskip₃, hparse⟩ := hparse
  split_ifs at hparse
  obtain ⟨rfl, rfl⟩ := Prod.mk.inj (Option.some.inj hparse)
  obtain ⟨hat₁, z₁, hbefore₁⟩ := h.skip hskip₁
  obtain ⟨hat₂, z₂, hbefore₂⟩ := hat₁.skip hskip₂
  have hnul : 0 ∉ uriOf r := not_mem_takeWhile (by decide) _
  obtain ⟨queryString, before', hcut, hlen, hlocated⟩ :=
    cutQueryString_spec p₁.before hnul z₂ p₂.text
  rw [uriOf, ← hbefore₂] at hcut hlen
  change cutQueryString p₁.pos p₂ = _ at hcut
  rw [hcut] at hskip₃ ⊢
  have hat : At n (behindWord (behindWord r)) tail ⟨before', p₂.text⟩ :=
    ⟨hat₂.text, by rw [hlen]; exact hat₂.length⟩
  obtain ⟨hat₃, z₃, hbefore₃⟩ := hat.skip hskip₃
  refine ⟨hat₃, rfl, fun later => ?_⟩
  rw [hbefore₃, List.append_assoc]
  exact hlocated _

/-! ### The fields and the body -/

theorem isSome_getHeader (mem : List UInt8) (headers : List HttpHeader) (name : List UInt8) :
    (getHeader mem headers name).isSome ↔
      name ∈ headers.map fun header => textAt mem header.name := by
  simp [getHeader, List.find?_isSome]

/-- The length of a body is set where one of the names announces it, and then the body is what the
pointer has in front of it behind one more word. -/
theorem At.fields (h : At n r tail p) {ri ri' : HttpRequestInfo} (hnone : ri.contentLength = none)
    (hparse : parseFields ri p = some (ri', p')) :
    (ri'.requestUri = ri.requestUri ∧ ri'.queryString = ri.queryString) ∧
      (∃ z, p'.before = p.before ++ z) ∧
      (ri'.contentLength.isSome ↔ contentLengthName ∈ (headerLines 64 r).1) ∧
      (ri'.contentLength.isSome → ri'.body = some (p'.pos + 1) ∧
        At n (behindWord (headerLines 64 r).2) tail p') := by
  simp only [parseFields, Option.bind_eq_bind, Option.bind_eq_some_iff] at hparse
  obtain ⟨⟨headers, p₁⟩, hheaders, hparse⟩ := hparse
  obtain ⟨hat, z, hbefore, hnames⟩ := h.headers hheaders
  have hfound := isSome_getHeader p₁.mem headers contentLengthName
  rw [CharPtr.mem, hnames, ← CharPtr.mem] at hfound
  cases hget : getHeader p₁.mem headers contentLengthName with
  | none =>
    rw [hget] at hfound hparse
    obtain ⟨rfl, rfl⟩ := Prod.mk.inj (Option.some.inj hparse)
    refine ⟨⟨rfl, rfl⟩, ⟨z, hbefore⟩, ?_, ?_⟩
    · rw [← hfound, hnone]
      exact Iff.rfl
    · simp [hnone]
  | some cl =>
    rw [hget] at hfound hparse
    obtain ⟨p₂, hskip, hparse⟩ := Option.bind_eq_some_iff.mp hparse
    obtain ⟨rfl, rfl⟩ := Prod.mk.inj (Option.some.inj hparse)
    obtain ⟨hat₂, z₂, hbefore₂⟩ := hat.skip hskip
    refine ⟨⟨rfl, rfl⟩, ⟨_, by rw [hbefore₂, hbefore, List.append_assoc]⟩, ?_, fun _ => ⟨rfl, hat₂⟩⟩
    exact iff_of_true rfl (hfound.mp rfl)

/-! ### The head -/

theorem headOf_of_pos {i : Nat} {text : List UInt8} (hpos : 0 < getHttpHeaderLen i text) :
    ∃ c body, text = headOf text ++ c :: body ∧
      getHttpHeaderLen i text = i + ((headOf text).length + 1) := by
  induction text generalizing i with
  | nil => simp [getHttpHeaderLen] at hpos
  | cons c text ih =>
    rw [getHttpHeaderLen] at hpos ⊢
    rw [headOf]
    by_cases hbad : c < 128 ∧ c ≠ 13 ∧ c ≠ 10 ∧ isPrint c = false
    · rw [if_pos hbad] at hpos
      omega
    · rw [if_neg hbad] at hpos ⊢
      by_cases hlf : c = 10 ∧ text.head? = some 10
      · rw [if_pos hlf, if_pos hlf]
        obtain ⟨rfl, hhead⟩ := hlf
        obtain ⟨body, rfl⟩ := List.head?_eq_some_iff.mp hhead
        exact ⟨10, body, rfl, rfl⟩
      · rw [if_neg hlf] at hpos ⊢
        rw [if_neg hlf]
        by_cases hcrlf : c = 13 ∧ text.take 3 = [10, 13, 10]
        · rw [if_pos hcrlf, if_pos hcrlf]
          obtain ⟨rfl, htake⟩ := hcrlf
          have htext := List.take_append_drop 3 text
          rw [htake] at htext
          exact ⟨10, text.drop 3, by rw [← htext]; rfl, rfl⟩
        · rw [if_neg hcrlf] at hpos ⊢
          rw [if_neg hcrlf]
          obtain ⟨d, body, htext, hlen⟩ := ih hpos
          refine ⟨d, body, by rw [List.cons_append, ← htext], ?_⟩
          rw [hlen, List.length_cons]
          push_cast
          omega

/-- The head of a request that is accepted goes up to a character that the NUL takes the place of,
and is read from its beginning. -/
theorem accepted_spec {buf : List UInt8} {r : Parsed} (h : parseHttpRequest buf = .ok r) :
    ∃ c body ri p p', buf = buf.takeWhile isSpace ++
        (headOf (buf.dropWhile isSpace) ++ c :: body) ∧
      r.length = (headOf (buf.dropWhile isSpace)).length + 1 + (buf.takeWhile isSpace).length ∧
      parseRequestLine ⟨buf.takeWhile isSpace, headOf (buf.dropWhile isSpace) ++ 0 :: body⟩ =
        some (ri, p) ∧
      parseFields ri p = some (r.ri, p') ∧ r.mem = p'.mem := by
  simp only [parseHttpRequest] at h
  split_ifs at h with hempty hcntrl hnone hfirst
  have hpos : 0 < getHttpHeaderLen 0 (buf.dropWhile isSpace) := not_le.mp hnone
  obtain ⟨c, body, htext, hlen⟩ := headOf_of_pos hpos
  generalize hhead : headOf (buf.dropWhile isSpace) = head at *
  have hnat : (getHttpHeaderLen 0 (buf.dropWhile isSpace)).toNat = head.length + 1 := by omega
  have hset : (buf.dropWhile isSpace).set head.length 0 = head ++ 0 :: body := by
    rw [htext]
    simp
  rw [hnat, Nat.add_sub_cancel, hset] at h
  cases hparse : (parseRequestLine ⟨buf.takeWhile isSpace, head ++ 0 :: body⟩ >>=
      fun (ri, buf) => parseFields ri buf) with
  | none =>
    rw [hparse] at h
    contradiction
  | some result =>
    rw [hparse] at h
    obtain ⟨⟨ri, p⟩, hline, hfields⟩ := Option.bind_eq_some_iff.mp hparse
    obtain rfl := Except.ok.inj h
    refine ⟨c, body, ri, p, result.2, ?_, rfl, hline, hfields, rfl⟩
    rw [← htext, List.takeWhile_append_dropWhile]

theorem located_iff_closed {buf : List UInt8} {r : Parsed} (h : parseHttpRequest buf = .ok r) :
    Located buf r ↔ Closed buf := by
  obtain ⟨c, body, ri, p, p', hbuf, hlength, hline, hfields, hmem⟩ := accepted_spec h
  generalize hhead : headOf (buf.dropWhile isSpace) = head at *
  generalize buf.takeWhile isSpace = skipped at *
  have hall := congrArg List.length hbuf
  simp only [List.length_append, List.length_cons] at hall
  have hstart : At buf.length head body ⟨skipped, head ++ 0 :: body⟩ := by
    refine ⟨rfl, ?_⟩
    simp only [List.length_append, List.length_cons]
    omega
  obtain ⟨hat, hnone, hquery⟩ := hstart.requestLine hline
  obtain ⟨⟨huri, hstring⟩, ⟨z, hz⟩, hfound, hbody⟩ := hat.fields hnone hfields
  have hlocated : QueryLocated (uriOf head) r.mem r.ri.requestUri r.ri.queryString := by
    rw [hmem, CharPtr.mem, hz, List.append_assoc, huri, hstring]
    exact hquery _
  simp only [Closed, hhead, ← hfound]
  constructor
  · rintro ⟨-, hpoints, -⟩ hset
    obtain ⟨hpos, hat'⟩ := hbody hset
    have hsame := Option.some.inj (hpos.symm.trans (hpoints hset))
    have hlen := hat'.length
    rw [hat'.text] at hlen
    simp only [List.length_append, List.length_cons, CharPtr.pos] at hlen hsame
    rw [← List.length_eq_zero_iff]
    omega
  · intro hclosed
    refine ⟨by omega, fun hset => ?_, hhead ▸ hlocated⟩
    obtain ⟨hpos, hat'⟩ := hbody hset
    have hlen := hat'.length
    rw [hat'.text, hclosed hset] at hlen
    simp only [List.nil_append, List.length_cons] at hlen
    rw [hpos, CharPtr.pos]
    congr 1
    omega

def posted : List UInt8 :=
  "POST /login HTTP/1.1\r\nContent-Length: 5\r\n\r\nhello".toUTF8.toList

theorem located_iff_closed_posted :
    ∃ r, parseHttpRequest posted = .ok r ∧ (Located posted r ↔ Closed posted) := by
  have haccepted : (parseHttpRequest posted).toOption.isSome = true := by decide +kernel
  cases hparse : parseHttpRequest posted with
  | error e =>
    rw [hparse] at haccepted
    contradiction
  | ok r => exact ⟨r, rfl, located_iff_closed hparse⟩

/-- The lines end in LF, and a header follows `Content-Length`. -/
def postedLf : List UInt8 :=
  "POST / HTTP/1.1\nContent-Length: 5\nHost: x\n\nhello".toUTF8.toList

/-- The body begins behind the first letter of `Host`. -/
theorem not_located_of_lf :
    ∃ r, parseHttpRequest postedLf = .ok r ∧ ¬ Located postedLf r := by
  have hvalues : (parseHttpRequest postedLf).toOption.map
      (fun r => (r.length, r.ri.body, r.ri.contentLength)) = some (43, some 35, some 5) := by
    decide +kernel
  obtain ⟨r, hr, hvalues⟩ := Option.map_eq_some_iff.mp hvalues
  obtain ⟨hlength, hbody, hset⟩ : r.length = 43 ∧ r.ri.body = some 35 ∧
      r.ri.contentLength = some 5 := by simpa using hvalues
  cases hparse : parseHttpRequest postedLf with
  | error e =>
    rw [hparse] at hr
    contradiction
  | ok r' =>
    rw [hparse] at hr
    obtain rfl := Option.some.inj hr
    refine ⟨r', rfl, fun hlocated => ?_⟩
    have hpoints := hlocated.body (by rw [hset]; rfl)
    rw [hbody, hlength] at hpoints
    exact absurd hpoints (by decide)

/-! ### Requests whose lines all end in CRLF -/

/-- A line `name:value` without its end. -/
structure FieldLine where
  name : List UInt8
  value : List UInt8
  name_ne : name ≠ []
  isName : ∀ c ∈ name, isName c = true
  isValue : ∀ c ∈ value, isValue c = true

def FieldLine.bytes (line : FieldLine) : List UInt8 :=
  line.name ++ 58 :: (line.value ++ [13, 10])

theorem dropWhile_isBlank (text : List UInt8) :
    (text.dropWhile isBlank).dropWhile isValue = text.dropWhile isValue := by
  induction text with
  | nil => rfl
  | cons c text ih =>
    by_cases hblank : isBlank c = true
    · have hvalue : isValue c = true := by
        rw [of_decide_eq_true hblank]
        decide
      rw [List.dropWhile_cons_of_pos hblank, List.dropWhile_cons_of_pos hvalue, ih]
    · rw [List.dropWhile_cons_of_neg hblank]

theorem headerLines_line (line : FieldLine) (left : Nat) (rest : List UInt8) :
    headerLines (left + 1) (line.bytes ++ rest) =
      if rest.head? = some 13 then ([line.name], rest)
      else (line.name :: (headerLines left rest).1, (headerLines left rest).2) := by
  have hbytes : line.bytes ++ rest = line.name ++ 58 :: (line.value ++ 13 :: 10 :: rest) := by
    simp [FieldLine.bytes]
  have htake : (line.bytes ++ rest).takeWhile HttpHelp.isName = line.name := by
    rw [hbytes, List.takeWhile_append_of_pos line.isName]
    simp [HttpHelp.isName]
  have hdrop : (line.bytes ++ rest).dropWhile HttpHelp.isName =
      58 :: (line.value ++ 13 :: 10 :: rest) := by
    rw [hbytes, List.dropWhile_append_of_pos line.isName]
    simp [HttpHelp.isName]
  have hvalue : ((line.value ++ 13 :: 10 :: rest).dropWhile isBlank).dropWhile
      HttpHelp.isValue = 13 :: 10 :: rest := by
    rw [dropWhile_isBlank, List.dropWhile_append_of_pos line.isValue]
    simp [HttpHelp.isValue]
  obtain ⟨c, name, hname⟩ := List.exists_cons_of_ne_nil line.name_ne
  rw [hname] at htake ⊢
  simp only [headerLines_named htake hdrop, hvalue]

/-- At most 64 lines that end in CRLF leave the empty line. -/
theorem headerLines_lines (lines : List FieldLine) {left : Nat} (hle : lines.length ≤ left) :
    (headerLines left ((lines.map FieldLine.bytes).flatten ++ [13])).2 = [13] := by
  induction lines generalizing left with
  | nil =>
    cases left with
    | zero => rfl
    | succ left => rfl
  | cons line lines ih =>
    obtain ⟨left, rfl⟩ := Nat.exists_eq_succ_of_ne_zero (Nat.pos_iff_ne_zero.mp
      (Nat.lt_of_lt_of_le (Nat.succ_pos _) hle))
    have hle' : lines.length ≤ left := Nat.le_of_succ_le_succ hle
    rw [List.map_cons, List.flatten_cons, List.append_assoc, headerLines_line]
    cases lines with
    | nil => rfl
    | cons next lines =>
      have hnext : ¬ (((next :: lines).map FieldLine.bytes).flatten ++ [13]).head? = some 13 := by
        obtain ⟨c, name, hname⟩ := List.exists_cons_of_ne_nil next.name_ne
        have hc := next.isName c (hname ▸ List.mem_cons_self)
        intro hhead
        simp only [List.map_cons, List.flatten_cons, FieldLine.bytes, hname, List.cons_append,
          List.head?_cons, Option.some.injEq] at hhead
        rw [hhead] at hc
        exact absurd hc (by decide)
      rw [if_neg hnext]
      exact ih hle'

theorem closed_of_crlf {buf : List UInt8} {lines : List FieldLine} (hle : lines.length ≤ 64)
    (hfields : fieldsOf (headOf (buf.dropWhile isSpace)) =
      (lines.map FieldLine.bytes).flatten ++ [13]) : Closed buf := by
  intro _
  rw [hfields, headerLines_lines lines hle]
  rfl

end HttpHelp
