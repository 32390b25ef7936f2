import FxLib.Net.WebSocketHandShake

/-!
# Every request text

`ResponseKey` with its two looks at the last character of a line. The text comes from
`m_szWebInfo`, so it ends at its first NUL. Which lines are headers is asked of the text that the
client sent, whatever ends a line in it.
-/

namespace ResponseKey

variable {T : List UInt8}

/-- The loop over the header lines; `none` where the last character of an empty line is asked
for. -/
def readHeaders (mapHeader : List UInt8 → List UInt8) :
    List (List UInt8) → Option (List UInt8 → List UInt8)
  | [] => some mapHeader
  | szHeader :: lines =>
    if szHeader = [13] then some mapHeader
    else if szHeader = [] then none
    else readHeaders (addHeader mapHeader szHeader) lines

def responseKeyChecked (sha1Base64 : List UInt8 → List UInt8) (szWebInfo : List UInt8) :
    Option (List UInt8) :=
  match Text.lines szWebInfo with
  | [] => none
  | szRequest :: lines =>
    if szRequest = [] then none
    else if szRequest.getLast? = some 13 then do
      let mapHeader ← readHeaders (fun _ => []) lines
      return sha1Base64 (mapHeader secWebSocketKey ++ websocketGuid)
    else some []

/-! ### The headers of a text -/

/-- The lines between the request line and the first empty line that ends in CRLF. -/
def headerLines (text : List UInt8) : List (List UInt8) :=
  (Text.lines text).tail.takeWhile (· ≠ [13])

/-- The value of a `Sec-WebSocket-Key` line. -/
def keyValue (szHeader : List UInt8) : Option (List UInt8) :=
  let line := if szHeader.getLast? = some 13 then szHeader.dropLast else szHeader
  match splitHeader line with
  | none => none
  | some header => if header.1 = secWebSocketKey then some header.2 else none

/-- The last of the values; the map gives an empty text where there is none. -/
def lastKey (lines : List (List UInt8)) : List UInt8 := (lines.filterMap keyValue).getLast?.getD []

/-- The lines that end in CRLF. -/
def crlfLines (lines : List (List UInt8)) : List (List UInt8) :=
  lines.filter (·.getLast? = some 13)

/-- The text is answered with the key of its last `Sec-WebSocket-Key`, whatever the digest is. -/
def Answers (T : List UInt8) : Prop :=
  ∀ sha1Base64, responseKeyChecked sha1Base64 (cString T) =
    some (sha1Base64 (lastKey (headerLines T) ++ websocketGuid))

/-- The request line ends in CRLF and no header line is empty. Where the last key does not stand in
a line that ends in CRLF and lies before the first NUL, it is the same as the last that does. -/
structure Regular (T : List UInt8) : Prop where
  request : (Text.lines (cString T)).head?.bind List.getLast? = some 13
  filled : [] ∉ headerLines (cString T)
  key : lastKey (crlfLines (headerLines (cString T))) = lastKey (headerLines T)

/-! ### The loop -/

theorem readHeaders_eq (mapHeader : List UInt8 → List UInt8) (lines : List (List UInt8)) :
    readHeaders mapHeader lines =
      if [] ∈ lines.takeWhile (· ≠ [13]) then none
      else some ((lines.takeWhile (· ≠ [13])).foldl addHeader mapHeader) := by
  induction lines generalizing mapHeader with
  | nil => rfl
  | cons szHeader lines ih =>
    rw [readHeaders, List.takeWhile_cons]
    by_cases hend : szHeader = [13]
    · simp [hend]
    · by_cases hempty : szHeader = []
      · simp [hempty]
      · simp [hend, hempty, Ne.symm hempty, ih]

/-- Where no line is empty, the loop does what it is taken for elsewhere. -/
theorem responseKeyChecked_eq (sha1Base64 : List UInt8 → List UInt8) {szWebInfo : List UInt8}
    (hrequest : (Text.lines szWebInfo).head?.bind List.getLast? ≠ none)
    (hfilled : [] ∉ headerLines szWebInfo) :
    responseKeyChecked sha1Base64 szWebInfo = some (responseKey sha1Base64 szWebInfo) := by
  rw [responseKeyChecked, responseKey]
  rw [headerLines] at hfilled
  cases hlines : Text.lines szWebInfo with
  | nil => simp [hlines] at hrequest
  | cons szRequest lines =>
    rw [hlines, List.tail_cons] at hfilled
    have hne : szRequest ≠ [] := by
      rintro rfl
      simp [hlines] at hrequest
    simp only [if_neg hne, readHeaders_eq, if_neg hfilled]
    split_ifs <;> rfl

theorem addHeader_key (mapHeader : List UInt8 → List UInt8) (szHeader : List UInt8) :
    addHeader mapHeader szHeader secWebSocketKey =
      if szHeader.getLast? = some 13 then (keyValue szHeader).getD (mapHeader secWebSocketKey)
      else mapHeader secWebSocketKey := by
  rw [addHeader, keyValue]
  by_cases hcr : szHeader.getLast? = some 13
  · rw [if_neg (not_not.mpr hcr)]
    simp only [if_pos hcr]
    cases splitHeader szHeader.dropLast with
    | none => rfl
    | some header =>
      by_cases hkey : header.1 = secWebSocketKey
      · simp [hkey]
      · simp [hkey, Ne.symm hkey]
  · rw [if_pos hcr, if_neg hcr]

/-- The map keeps the last value of a key. -/
theorem foldl_addHeader_key (mapHeader : List UInt8 → List UInt8) (lines : List (List UInt8)) :
    lines.foldl addHeader mapHeader secWebSocketKey =
      ((crlfLines lines).filterMap keyValue).getLast?.getD (mapHeader secWebSocketKey) := by
  induction lines generalizing mapHeader with
  | nil => rfl
  | cons szHeader lines ih =>
    have hlines : crlfLines (szHeader :: lines) =
        if szHeader.getLast? = some 13 then szHeader :: crlfLines lines else crlfLines lines := by
      simp [crlfLines, List.filter_cons]
    rw [List.foldl_cons, ih, addHeader_key, hlines]
    by_cases hcr : szHeader.getLast? = some 13
    · cases hvalue : keyValue szHeader with
      | none => simp [hcr, hvalue]
      | some value => simp [hcr, hvalue, List.getLast?_cons]
    · simp [hcr]

theorem responseKey_eq (sha1Base64 : List UInt8 → List UInt8) {szWebInfo : List UInt8}
    (hrequest : (Text.lines szWebInfo).head?.bind List.getLast? = some 13) :
    responseKey sha1Base64 szWebInfo =
      sha1Base64 (lastKey (crlfLines (headerLines szWebInfo)) ++ websocketGuid) := by
  rw [responseKey, headerLines]
  cases hlines : Text.lines szWebInfo with
  | nil => simp [hlines] at hrequest
  | cons szRequest lines =>
    rw [hlines] at hrequest
    simp only [List.head?_cons, Option.bind_some] at hrequest
    simp only [if_pos hrequest, List.tail_cons, foldl_addHeader_key, lastKey]

/-! ### The texts that are answered -/

theorem Regular.answers (h : Regular T) : Answers T := by
  intro sha1Base64
  rw [responseKeyChecked_eq sha1Base64 (by simp [h.request]) h.filled,
    responseKey_eq sha1Base64 h.request, h.key]

/-- An empty text is not the key of anything. -/
theorem Answers.request (h : Answers T) :
    (Text.lines (cString T)).head?.bind List.getLast? = some 13 ∧
      [] ∉ headerLines (cString T) := by
  have hone := h fun _ => [1]
  rw [responseKeyChecked] at hone
  rw [headerLines]
  cases hlines : Text.lines (cString T) with
  | nil => simp [hlines] at hone
  | cons szRequest lines =>
    simp only [hlines] at hone
    split_ifs at hone with hempty hcr
    · refine ⟨by simpa using hcr, fun hc => ?_⟩
      rw [List.tail_cons] at hc
      rw [readHeaders_eq, if_pos hc] at hone
      cases hone
    · cases hone

theorem Answers.regular (h : Answers T) : Regular T := by
  obtain ⟨hrequest, hfilled⟩ := h.request
  refine ⟨hrequest, hfilled, ?_⟩
  have hid := h id
  rw [responseKeyChecked_eq id (by simp [hrequest]) hfilled, responseKey_eq id hrequest] at hid
  exact List.append_cancel_right (Option.some.inj hid)

/-- A request text is answered as it should be if and only if it is regular. -/
theorem answers_iff_regular (T : List UInt8) : Answers T ↔ Regular T :=
  ⟨Answers.regular, Regular.answers⟩

/-- `GET`, a line that is empty but for its newline, and the end of the request. -/
theorem not_answers_of_empty_line :
    ¬ ∀ T : List UInt8, [13, 10, 13, 10] <:+ T → Answers T := by
  intro hall
  have hfilled := (hall [71, 69, 84, 13, 10, 10, 72, 13, 10, 13, 10] (by decide)).request.2
  exact absurd hfilled (by decide)

end ResponseKey
