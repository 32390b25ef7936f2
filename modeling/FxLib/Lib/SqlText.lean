import Mathlib.Data.List.TakeWhile
import FxLib.Lib.Text

/-!
# String literals in SQL

A statement as the server reads it in its default mode: strings between single or double quotes,
with backslashes in them and with quotes doubled, names between backticks, comments. Everything else
is passed over.
-/

namespace SqlText

/-- A string in a statement: what stands between its quotes, and what it says. -/
structure Literal where
  spelling : List UInt8
  value : List UInt8
  deriving DecidableEq

namespace Literal

def empty : Literal := ⟨[], []⟩

def add (l : Literal) (spelling value : List UInt8) : Literal :=
  ⟨l.spelling ++ spelling, l.value ++ value⟩

@[simp] theorem spelling_add (l : Literal) (spelling value : List UInt8) :
    (l.add spelling value).spelling = l.spelling ++ spelling := rfl

@[simp] theorem value_add (l : Literal) (spelling value : List UInt8) :
    (l.add spelling value).value = l.value ++ value := rfl

end Literal

/-- Where the server is in a statement. -/
inductive Mode where
  | code
  /-- Between backticks. -/
  | name
  | dash
  | dashes
  | slash
  /-- In a comment up to the end of the line. -/
  | line
  /-- In a comment up to the next star and slash. -/
  | block
  | star
  | quoted (q : UInt8) (l : Literal)
  /-- Behind a backslash. -/
  | escaped (q : UInt8) (l : Literal)
  /-- Behind a quote, which closes the string or is the first of two. -/
  | closed (q : UInt8) (l : Literal)
  deriving DecidableEq

/-- The character that a backslash stands before. -/
def unescape (c : UInt8) : List UInt8 :=
  if c = 48 then [0]
  else if c = 98 then [8]
  else if c = 110 then [10]
  else if c = 114 then [13]
  else if c = 116 then [9]
  else if c = 90 then [26]
  -- `\%` and `\_` are for patterns, and stay as they are.
  else if c = 37 ∨ c = 95 then [92, c]
  else [c]

/-- A character outside strings, names and comments. -/
def start (c : UInt8) : Mode :=
  if c = 39 ∨ c = 34 then .quoted c .empty
  else if c = 96 then .name
  else if c = 35 then .line
  else if c = 45 then .dash
  else if c = 47 then .slash
  else .code

/-- One more character, and the string that ends before it. -/
def step : Mode → UInt8 → Option Literal × Mode
  | .code, c => (none, start c)
  | .name, c => (none, if c = 96 then .code else .name)
  | .dash, c => (none, if c = 45 then .dashes else start c)
  | .dashes, c =>
    (none, if c = 10 then .code else if c ≤ 32 ∨ c = 127 then .line
      else if c = 45 then .dashes else start c)
  | .slash, c => (none, if c = 42 then .block else start c)
  | .line, c => (none, if c = 10 then .code else .line)
  | .block, c => (none, if c = 42 then .star else .block)
  | .star, c => (none, if c = 47 then .code else if c = 42 then .star else .block)
  | .quoted q l, c =>
    (none, if c = q then .closed q l else if c = 92 then .escaped q l
      else .quoted q (l.add [c] [c]))
  | .escaped q l, c => (none, .quoted q (l.add [92, c] (unescape c)))
  | .closed q l, c => if c = q then (none, .quoted q (l.add [q, q] [q])) else (some l, start c)

/-- What is left when the statement ends; a string, name or comment that has not ended is an
error. -/
def finish : Mode → Option (List Literal)
  | .code | .dash | .dashes | .slash | .line => some []
  | .closed _ l => some [l]
  | .name | .block | .star | .quoted _ _ | .escaped _ _ => none

def read : Mode → List UInt8 → Option (List Literal)
  | m, [] => finish m
  | m, c :: cs => (read (step m c).2 cs).map ((step m c).1.toList ++ ·)

/-- The strings of a statement. -/
def literals (text : List UInt8) : Option (List Literal) := read .code text

/-! ### Text without strings -/

/-- Where a text leads in which no string ends. -/
def pass : Mode → List UInt8 → Option Mode
  | m, [] => some m
  | m, c :: cs => if (step m c).1 = none then pass (step m c).2 cs else none

theorem pass_append {m m' : Mode} {text : List UInt8} (h : pass m text = some m')
    (rest : List UInt8) : pass m (text ++ rest) = pass m' rest := by
  induction text generalizing m with
  | nil => exact congrArg (pass · rest) (Option.some.inj h)
  | cons c cs ih =>
    simp only [pass, Option.ite_none_right_eq_some] at h
    simp only [List.cons_append, pass, h.1, if_true, ih h.2]

theorem read_append {m m' : Mode} {text : List UInt8} (h : pass m text = some m')
    (rest : List UInt8) : read m (text ++ rest) = read m' rest := by
  induction text generalizing m with
  | nil => exact congrArg (read · rest) (Option.some.inj h)
  | cons c cs ih =>
    simp only [pass, Option.ite_none_right_eq_some] at h
    simp [read, h.1, ih h.2]

/-- A text of `n` characters without strings in it, and where it leads. -/
structure Leads (m m' : Mode) (text : List UInt8) (n : Nat) : Prop where
  pass : pass m text = some m'
  length : text.length = n
  zero_not_mem : 0 ∉ text

instance (m m' : Mode) (text : List UInt8) (n : Nat) : Decidable (Leads m m' text n) :=
  decidable_of_iff (pass m text = some m' ∧ text.length = n ∧ 0 ∉ text)
    ⟨fun ⟨hpass, hlen, hnot⟩ => ⟨hpass, hlen, hnot⟩, fun h => ⟨h.pass, h.length, h.zero_not_mem⟩⟩

theorem Leads.append {m m' m'' : Mode} {a b : List UInt8} {k n : Nat} (ha : Leads m m' a k)
    (hb : Leads m' m'' b n) : Leads m m'' (a ++ b) (k + n) where
  pass := (pass_append ha.pass b).trans hb.pass
  length := by rw [List.length_append, ha.length, hb.length]
  zero_not_mem := by simp [ha.zero_not_mem, hb.zero_not_mem]

theorem start_of_isDigit {c : UInt8} (h : Text.isDigit c = true) : start c = .code := by
  unfold start
  split_ifs with h1 h2 h3 h4 h5
  · rcases h1 with rfl | rfl <;> cases h
  · subst h2; cases h
  · subst h3; cases h
  · subst h4; cases h
  · subst h5; cases h
  · rfl

/-- Digits change nothing outside strings. -/
theorem pass_of_isDigit {m : Mode} (hm : m = .code ∨ m = .name) {text : List UInt8}
    (h : ∀ c ∈ text, Text.isDigit c = true) : pass m text = some m := by
  induction text with
  | nil => rfl
  | cons c cs ih =>
    obtain ⟨hc, hcs⟩ := List.forall_mem_cons.mp h
    have hname : c ≠ 96 := fun heq => by subst heq; cases hc
    rcases hm with rfl | rfl
    · simp [pass, step, start_of_isDigit hc, ih hcs]
    · simp [pass, step, hname, ih hcs]

theorem zero_not_mem_digits (n : Nat) : 0 ∉ Text.digits n := fun h => by
  cases Text.isDigit_of_mem_digits h

theorem leads_printUInt {m : Mode} (hm : m = .code ∨ m = .name) (n : UInt32) :
    Leads m m (Text.printUInt n) (Text.printUInt n).length :=
  ⟨pass_of_isDigit hm fun _ => Text.isDigit_of_mem_digits, rfl, zero_not_mem_digits _⟩

/-- Behind a sign the digits are no comment. -/
theorem leads_printInt {m : Mode} (hm : m = .code ∨ m = .name) (n : UInt32) :
    Leads m m (Text.printInt n) (Text.printInt n).length := by
  refine ⟨?_, rfl, ?_⟩
  · unfold Text.printInt
    split_ifs
    · exact pass_of_isDigit hm fun _ => Text.isDigit_of_mem_digits
    · obtain ⟨d, ds, hds⟩ := List.exists_cons_of_ne_nil
        (Text.digits_ne_nil (4294967296 - n.toNat))
      have hall : ∀ c ∈ d :: ds, Text.isDigit c = true :=
        hds ▸ fun _ => Text.isDigit_of_mem_digits
      obtain ⟨hd, hrest⟩ := List.forall_mem_cons.mp hall
      have hsign : d ≠ 45 := fun heq => by subst heq; cases hd
      have hname : d ≠ 96 := fun heq => by subst heq; cases hd
      have hdash : start 45 = .dash := by decide
      rw [hds]
      rcases hm with rfl | rfl
      · simp [pass, step, hdash, hsign, start_of_isDigit hd, pass_of_isDigit (.inl rfl) hrest]
      · simp [pass, step, hname, pass_of_isDigit (.inr rfl) hrest]
  · unfold Text.printInt
    split_ifs
    · exact zero_not_mem_digits _
    · simp [zero_not_mem_digits]

/-! ### Text between quotes -/

/-- What a text says between single quotes, if it is a whole string there. -/
def value : List UInt8 → Option (List UInt8)
  | [] => some []
  | c :: cs =>
    if c = 39 then
      match cs with
      | [] => none
      | d :: ds => if d = 39 then (value ds).map (39 :: ·) else none
    else if c = 92 then
      match cs with
      | [] => none
      | d :: ds => (value ds).map (unescape d ++ ·)
    else (value cs).map (c :: ·)

/-- The string that the server is in, or may have left. -/
def Mode.literal : Mode → Option Literal
  | .quoted _ l | .escaped _ l | .closed _ l => some l
  | _ => none

/-- The string that is being read is the next to end, and it gets no shorter. -/
theorem spelling_prefix {m : Mode} {l : Literal} (hm : m.literal = some l) {text : List UInt8}
    {ls : List Literal} (h : read m text = some ls) :
    ∃ l' rest, ls = l' :: rest ∧ l.spelling <+: l'.spelling := by
  induction text generalizing m l ls with
  | nil =>
    cases m with
    | closed q k =>
      obtain rfl := Option.some.inj hm
      exact ⟨k, [], (Option.some.inj h).symm, List.prefix_rfl⟩
    | quoted | escaped => cases h
    | _ => cases hm
  | cons c cs ih =>
    obtain ⟨ls', hls', rfl⟩ := Option.map_eq_some_iff.mp h
    cases m with
    | quoted q k =>
      obtain rfl := Option.some.inj hm
      simp only [step, Option.toList_none, List.nil_append] at hls' ⊢
      split_ifs at hls'
      · exact ih rfl hls'
      · exact ih rfl hls'
      · obtain ⟨l', rest, rfl, hpre⟩ := ih rfl hls'
        exact ⟨l', rest, rfl, (List.prefix_append _ _).trans hpre⟩
    | escaped q k =>
      obtain rfl := Option.some.inj hm
      obtain ⟨l', rest, rfl, hpre⟩ := ih rfl hls'
      exact ⟨l', rest, rfl, (List.prefix_append _ _).trans hpre⟩
    | closed q k =>
      obtain rfl := Option.some.inj hm
      simp only [step] at hls' ⊢
      split_ifs at hls' ⊢
      · obtain ⟨l', rest, rfl, hpre⟩ := ih rfl hls'
        exact ⟨l', rest, rfl, (List.prefix_append _ _).trans hpre⟩
      · exact ⟨k, ls', rfl, List.prefix_rfl⟩
    | _ => cases hm

theorem read_char {d : UInt8} (hq : d ≠ 39) (hb : d ≠ 92) (l : Literal) (text : List UInt8) :
    read (.quoted 39 l) (d :: text) = read (.quoted 39 (l.add [d] [d])) text := by
  simp [read, step, hq, hb]

theorem read_escape (d : UInt8) (l : Literal) (text : List UInt8) :
    read (.quoted 39 l) (92 :: d :: text) =
      read (.quoted 39 (l.add [92, d] (unescape d))) text := by
  simp [read, step]

theorem read_twice (l : Literal) (text : List UInt8) :
    read (.quoted 39 l) (39 :: 39 :: text) = read (.quoted 39 (l.add [39, 39] [39])) text := by
  simp [read, step]

theorem read_close {d : UInt8} (hq : d ≠ 39) (l : Literal) (text : List UInt8) :
    read (.quoted 39 l) (39 :: d :: text) = (read .code (d :: text)).map (l :: ·) := by
  simp [read, step, hq, Function.comp_def]

/-- A string that has become longer than another is not read as that. -/
theorem ne_of_longer {l : Literal} {text : List UInt8} {ls : List Literal} {k : Literal}
    (hlong : k.spelling.length < l.spelling.length) :
    read (.quoted 39 l) text ≠ some (k :: ls) := by
  intro h
  obtain ⟨l', rest, hls, hpre⟩ := spelling_prefix rfl h
  obtain ⟨rfl, -⟩ := List.cons.inj hls
  exact absurd hpre.length_le (by omega)

/-- A text between single quotes is a string by itself exactly if it has a value. What comes behind
the quote is no second quote. -/
theorem read_quoted_iff {c : UInt8} (hc : c ≠ 39) (post : List UInt8) (ls : List Literal)
    (v : List UInt8) (body : List UInt8) (l : Literal) :
    read (.quoted 39 l) (body ++ 39 :: c :: post) = some (⟨l.spelling ++ body, v⟩ :: ls) ↔
      (∃ u, value body = some u ∧ v = l.value ++ u) ∧ read .code (c :: post) = some ls := by
  fun_induction value body generalizing l with
  | case1 =>
    -- The closing quote comes at once.
    rw [List.nil_append, read_close hc]
    cases l
    simp [and_comm, eq_comm]
  | case2 =>
    -- The closing quote is the second of two.
    simp only [List.cons_append, List.nil_append, read_twice, false_and, exists_false, iff_false,
      reduceCtorEq]
    exact ne_of_longer (by simp)
  | case3 ds ih =>
    simpa [read_twice, and_assoc] using ih (l.add [39, 39] [39])
  | case4 d ds hd =>
    simp only [List.cons_append, read_close hd, Option.map_eq_some_iff, List.cons.injEq,
      reduceCtorEq, false_and, exists_false, iff_false]
    rintro ⟨-, -, hl, -⟩
    have hlen := congrArg (fun k => k.spelling.length) hl
    simp at hlen
  | case5 =>
    simp only [List.cons_append, List.nil_append, read_escape, false_and, exists_false, iff_false,
      reduceCtorEq]
    exact ne_of_longer (by simp)
  | case6 d ds _ ih =>
    simpa [read_escape, and_assoc] using ih (l.add [92, d] (unescape d))
  | case7 d ds hq hb ih =>
    simpa [read_char hq hb, and_assoc] using ih (l.add [d] [d])

/-! ### Statements with strings in them -/

/-- A text between single quotes, and what follows the closing quote up to the next. -/
structure Field where
  body : List UInt8
  after : List UInt8

/-- A statement before its first string, and its strings. -/
structure Statement where
  head : List UInt8
  fields : List Field

def Field.text (f : Field) : List UInt8 := 39 :: f.body ++ 39 :: f.after

def Statement.text (s : Statement) : List UInt8 := s.head ++ s.fields.flatMap Field.text

/-- The strings of the text are spelled `spellings`, one by one, and say `values`. -/
def Says (text : List UInt8) (spellings values : List (List UInt8)) : Prop :=
  ∃ ls, literals text = some ls ∧ ls.map Literal.spelling = spellings ∧
    ls.map Literal.value = values

instance (text : List UInt8) (spellings values : List (List UInt8)) :
    Decidable (Says text spellings values) :=
  inferInstanceAs (Decidable (∃ ls ∈ literals text, ls.map Literal.spelling = spellings ∧
    ls.map Literal.value = values))

/-- What follows each string holds no other, and does not take it up again. The fields have `n`
characters in all. -/
inductive Closed : List Field → Nat → Prop where
  | nil : Closed [] 0
  | cons {f : Field} {fields : List Field} {k n : Nat} (leads : Leads .code .code f.after k)
      (head : f.after.head?.any (· ≠ 39) = true) (body : 0 ∉ f.body) (rest : Closed fields n) :
      Closed (f :: fields) (f.body.length + 2 + k + n)

theorem head_append {a : List UInt8} (h : a.head?.any (· ≠ 39) = true) (b : List UInt8) :
    (a ++ b).head?.any (· ≠ 39) = true := by
  cases a with
  | nil => cases h
  | cons c cs => exact h

theorem Closed.length {fields : List Field} {n : Nat} (h : Closed fields n) :
    (fields.flatMap Field.text).length = n := by
  induction h with
  | nil => rfl
  | cons leads _ _ _ ih =>
    simp only [List.flatMap_cons, List.length_append, ih, Field.text, List.cons_append,
      List.length_cons, leads.length]
    omega

theorem Closed.zero_not_mem {fields : List Field} {n : Nat} (h : Closed fields n) :
    0 ∉ fields.flatMap Field.text := by
  induction h with
  | nil => exact List.not_mem_nil
  | cons leads _ body _ ih =>
    rw [List.flatMap_cons, List.mem_append]
    simp [Field.text, body, leads.zero_not_mem, ih]

theorem Closed.read_iff {fields : List Field} {n : Nat} (h : Closed fields n)
    (values : List (List UInt8)) :
    (∃ ls, read .code (fields.flatMap Field.text) = some ls ∧
        ls.map Literal.spelling = fields.map Field.body ∧ ls.map Literal.value = values) ↔
      fields.map (value ·.body) = values.map some := by
  induction h generalizing values with
  | nil => cases values <;> simp [read, finish]
  | @cons f fields k n leads head _ _ ih =>
    obtain ⟨c, post, hafter, hc⟩ : ∃ c post, f.after = c :: post ∧ c ≠ 39 := by
      cases hafter : f.after with
      | nil => simp [hafter] at head
      | cons c post => exact ⟨c, post, rfl, by simpa [hafter] using head⟩
    have hread : ∀ l ls, read .code ((f :: fields).flatMap Field.text) = some (⟨f.body, l⟩ :: ls) ↔
        value f.body = some l ∧ read .code (fields.flatMap Field.text) = some ls := by
      intro l ls
      have hopen : read .code ((f :: fields).flatMap Field.text) = read (.quoted 39 .empty)
          (f.body ++ 39 :: c :: (post ++ fields.flatMap Field.text)) := by
        simp [read, step, start, Field.text, hafter]
      have hrest := read_append leads.pass (fields.flatMap Field.text)
      rw [hafter, List.cons_append] at hrest
      rw [hopen, ← hrest]
      simpa [Literal.empty] using read_quoted_iff hc _ ls l f.body .empty
    constructor
    · rintro ⟨ls, hls, hspelling, rfl⟩
      obtain ⟨⟨body, l⟩, ls, rfl⟩ : ∃ k rest, ls = k :: rest :=
        List.exists_cons_of_ne_nil fun hnil => by simp [hnil] at hspelling
      obtain ⟨rfl, htail⟩ := List.cons.inj hspelling
      obtain ⟨hbody, hrest⟩ := (hread l ls).mp hls
      have hvalues := (ih _).mp ⟨ls, hrest, htail, rfl⟩
      rw [List.map_cons, hbody, hvalues]
      rfl
    · intro hvalues
      obtain ⟨v, vs, rfl⟩ : ∃ v rest, values = v :: rest :=
        List.exists_cons_of_ne_nil fun hnil => by simp [hnil] at hvalues
      obtain ⟨hbody, htail⟩ := List.cons.inj hvalues
      obtain ⟨ls, hls, hspelling, rfl⟩ := (ih vs).mpr htail
      exact ⟨⟨f.body, v⟩ :: ls, (hread v ls).mpr ⟨hbody, hls⟩, by simp [hspelling], rfl⟩

namespace Statement

/-- The strings of the statement are all the server can find in it. It has `n` characters. -/
def Closed (s : Statement) (n : Nat) : Prop :=
  ∃ k m, Leads .code .code s.head k ∧ SqlText.Closed s.fields m ∧ n = k + m

variable {s : Statement} {n : Nat}

theorem Closed.length (h : s.Closed n) : s.text.length = n := by
  obtain ⟨k, m, hhead, hfields, rfl⟩ := h
  rw [text, List.length_append, hhead.length, hfields.length]

theorem Closed.zero_not_mem (h : s.Closed n) : 0 ∉ s.text := by
  obtain ⟨k, m, hhead, hfields, -⟩ := h
  simp only [text, List.mem_append, hhead.zero_not_mem, hfields.zero_not_mem, or_self,
    not_false_eq_true]

/-- Each string says what it is to say exactly if what stands between its quotes does. -/
theorem Closed.strings_iff (h : s.Closed n) (values : List (List UInt8)) :
    Says s.text (s.fields.map Field.body) values ↔
      s.fields.map (value ·.body) = values.map some := by
  obtain ⟨k, m, hhead, hfields, -⟩ := h
  rw [← hfields.read_iff]
  simp only [Says, literals, text, read_append hhead.pass]

end Statement

/-! ### What says itself -/

/-- No quote, and no backslash except before `%` and `_`. -/
def Plain : List UInt8 → Prop
  | [] => True
  | c :: cs => c ≠ 39 ∧ (c = 92 → cs.head? = some 37 ∨ cs.head? = some 95) ∧ Plain cs

instance decidablePlain : DecidablePred Plain
  | [] => isTrue trivial
  | c :: cs =>
    have := decidablePlain cs
    inferInstanceAs (Decidable (c ≠ 39 ∧ (c = 92 → cs.head? = some 37 ∨ cs.head? = some 95) ∧
      Plain cs))

theorem Plain.append {a b : List UInt8} (ha : Plain a) (hb : Plain b) : Plain (a ++ b) := by
  induction a with
  | nil => exact hb
  | cons c cs ih =>
    refine ⟨ha.1, fun h => ?_, ih ha.2.2⟩
    rcases ha.2.1 h with hcs | hcs
    · exact .inl (by simp [hcs])
    · exact .inr (by simp [hcs])

theorem plain_pattern {d : UInt8} (h : d = 37 ∨ d = 95) : Plain [92, d] := by
  rcases h with rfl | rfl <;> decide

theorem plain_char {d : UInt8} (hq : d ≠ 39) (hb : d ≠ 92) : Plain [d] :=
  ⟨hq, fun h => absurd h hb, trivial⟩

/-- A backslash keeps only a character of a pattern company. -/
theorem unescape_cases (c : UInt8) :
    (c = 37 ∨ c = 95) ∧ unescape c = [92, c] ∨
      ¬ (c = 37 ∨ c = 95) ∧ ∃ d, unescape c = [d] ∧ (d = 39 ∨ d = 92 → c = d) := by
  unfold unescape
  split_ifs <;> simp_all

theorem length_unescape (c : UInt8) :
    0 < (unescape c).length ∧ (unescape c).length ≤ 2 := by
  rcases unescape_cases c with ⟨-, h⟩ | ⟨-, d, h, -⟩ <;> simp [h]

@[simp] theorem value_twice (text : List UInt8) :
    value (39 :: 39 :: text) = (value text).map (39 :: ·) := by
  simp [value]

@[simp] theorem value_escape (d : UInt8) (text : List UInt8) :
    value (92 :: d :: text) = (value text).map (unescape d ++ ·) := by
  simp [value]

theorem value_char {c : UInt8} (hq : c ≠ 39) (hb : c ≠ 92) (text : List UInt8) :
    value (c :: text) = (value text).map (c :: ·) := by
  cases text <;> simp [value, hq, hb]

theorem value_close {d : UInt8} (hd : d ≠ 39) (text : List UInt8) :
    value (39 :: d :: text) = none := by
  simp [value, hd]

/-- What plain text says is itself, before any other text. -/
theorem value_append {plain : List UInt8} (h : Plain plain) (rest : List UInt8) :
    value (plain ++ rest) = (value rest).map (plain ++ ·) := by
  fun_induction value plain with
  | case1 => simp
  | case2 | case3 | case4 => exact absurd rfl h.1
  | case5 => simpa using h.2.1 rfl
  | case6 d ds _ ih =>
    have hd : d = 37 ∨ d = 95 := by simpa using h.2.1 rfl
    rcases unescape_cases d with ⟨-, hpat⟩ | ⟨hnot, -⟩
    · simp [ih h.2.2.2.2, hpat, Function.comp_def]
    · exact absurd hd hnot
  | case7 d ds hq hb ih =>
    simp [value_char hq hb, ih h.2.2, Function.comp_def]

/-- No text says more than it has characters, and none less than half as many. -/
theorem value_length {text v : List UInt8} (h : value text = some v) :
    v.length ≤ text.length ∧ text.length ≤ 2 * v.length := by
  fun_induction value text generalizing v with
  | case1 => simp_all
  | case2 | case4 | case5 => cases h
  | case3 ds ih | case7 d ds _ _ ih =>
    obtain ⟨u, hu, rfl⟩ := Option.map_eq_some_iff.mp h
    have hlen := ih hu
    simp only [List.length_cons]
    omega
  | case6 d ds _ ih =>
    obtain ⟨u, hu, rfl⟩ := Option.map_eq_some_iff.mp h
    have hlen := ih hu
    have hd := length_unescape d
    simp only [List.length_append, List.length_cons]
    omega

/-- Text that loses nothing is plain. -/
theorem plain_of_length {text v : List UInt8} (h : value text = some v)
    (hlen : v.length = text.length) : Plain text := by
  fun_induction value text generalizing v with
  | case1 => trivial
  | case2 | case4 | case5 => cases h
  | case3 ds ih =>
    obtain ⟨u, hu, rfl⟩ := Option.map_eq_some_iff.mp h
    have hle := value_length hu
    simp only [List.length_cons] at hlen
    omega
  | case6 d ds _ ih =>
    obtain ⟨u, hu, rfl⟩ := Option.map_eq_some_iff.mp h
    have hle := value_length hu
    rcases unescape_cases d with ⟨hd, hpat⟩ | ⟨-, e, hone, -⟩
    · exact (plain_pattern hd).append (ih hu (by simpa [hpat] using hlen))
    · simp only [hone, List.length_append, List.length_cons, List.length_nil] at hlen
      omega
  | case7 d ds hq hb ih =>
    obtain ⟨u, hu, rfl⟩ := Option.map_eq_some_iff.mp h
    exact (plain_char hq hb).append (ih hu (by simpa using hlen))

theorem value_self_iff (text : List UInt8) : value text = some text ↔ Plain text := by
  refine ⟨fun h => plain_of_length h rfl, fun h => ?_⟩
  simpa [value] using value_append h []

/-- A text cut at its first NUL says the whole only where there is none. -/
theorem value_cString_iff (text : List UInt8) :
    value (cString text) = some text ↔ 0 ∉ text ∧ Plain text := by
  constructor
  · intro h
    have hpre : cString text <+: text := List.takeWhile_prefix _
    have heq : cString text = text := hpre.eq_of_length_le (value_length h).1
    rw [heq] at h
    exact ⟨(cString_eq_self_iff text).mp heq, (value_self_iff text).mp h⟩
  · rintro ⟨hnot, hplain⟩
    rw [(cString_eq_self_iff text).mpr hnot]
    exact (value_self_iff text).mpr hplain

/-! ### What says less than it is -/

/-- Only single quotes and backslashes. -/
def Marks (text : List UInt8) : Prop := ∀ c ∈ text, c = 39 ∨ c = 92

theorem marks_cons {c : UInt8} {text : List UInt8} :
    Marks (c :: text) ↔ (c = 39 ∨ c = 92) ∧ Marks text := List.forall_mem_cons

theorem marks_append {a b : List UInt8} : Marks (a ++ b) ↔ Marks a ∧ Marks b :=
  List.forall_mem_append

theorem Plain.eq_nil_of_marks {text : List UInt8} (h : Plain text) (hm : Marks text) :
    text = [] := by
  cases text with
  | nil => rfl
  | cons c cs =>
    obtain ⟨hc, hcs⟩ := marks_cons.mp hm
    have hnext := h.2.1 (hc.resolve_left h.1)
    cases cs with
    | nil => simp at hnext
    | cons d ds =>
      have hd := (marks_cons.mp hcs).1
      simp only [List.head?_cons, Option.some.injEq] at hnext
      rcases hnext with rfl | rfl <;> simp at hd

/-- A backslash and the character behind it say a mark only if that is one. -/
theorem marks_unescape {c : UInt8} (h : Marks (unescape c)) :
    unescape c = [c] ∧ (c = 39 ∨ c = 92) := by
  rcases unescape_cases c with ⟨hc, hpat⟩ | ⟨-, d, hone, hd⟩
  · rw [hpat] at h
    have := h c (by simp)
    rcases hc with rfl | rfl <;> simp at this
  · rw [hone] at h ⊢
    have hmark := h d (by simp)
    obtain rfl := hd hmark
    exact ⟨rfl, hmark⟩

/-- What says only marks is only marks. -/
theorem marks_of_value {text v : List UInt8} (h : value text = some v) (hm : Marks v) :
    Marks text := by
  fun_induction value text generalizing v with
  | case1 => exact fun _ hc => absurd hc List.not_mem_nil
  | case2 | case4 | case5 => cases h
  | case3 ds ih =>
    obtain ⟨u, hu, rfl⟩ := Option.map_eq_some_iff.mp h
    have hds := ih hu (marks_cons.mp hm).2
    exact marks_cons.mpr ⟨.inl rfl, marks_cons.mpr ⟨.inl rfl, hds⟩⟩
  | case6 d ds _ ih =>
    obtain ⟨u, hu, rfl⟩ := Option.map_eq_some_iff.mp h
    obtain ⟨hd, hrest⟩ := marks_append.mp hm
    exact marks_cons.mpr ⟨.inr rfl, marks_cons.mpr ⟨(marks_unescape hd).2, ih hu hrest⟩⟩
  | case7 d ds hq hb ih =>
    obtain ⟨u, hu, rfl⟩ := Option.map_eq_some_iff.mp h
    exact absurd (marks_cons.mp hm).1 (by simp [hq, hb])

theorem marks_nil : Marks [] := fun _ hc => absurd hc List.not_mem_nil

/-- Text that has fallen behind by marks goes on with marks to its end. -/
theorem marks_of_behind {text follow : List UInt8} (lag : List UInt8)
    (h : value (text ++ follow) = some (lag ++ text)) (hne : lag ≠ []) (hm : Marks lag) :
    Marks text := by
  fun_induction value text generalizing lag with
  | case1 => exact marks_nil
  | case2 => exact marks_cons.mpr ⟨.inl rfl, marks_nil⟩
  | case3 ds ih =>
    obtain ⟨a, lag, rfl⟩ := List.exists_cons_of_ne_nil hne
    obtain ⟨u, hu, heq⟩ := Option.map_eq_some_iff.mp ((value_twice _).symm.trans h)
    obtain ⟨rfl, rfl⟩ := List.cons.inj heq
    have htwo : Marks [39, 39] := by simp [Marks]
    have hds : Marks ds := ih (lag ++ [39, 39]) (by simpa using hu) (by simp)
      (marks_append.mpr ⟨(marks_cons.mp hm).2, htwo⟩)
    exact marks_append.mpr ⟨htwo, hds⟩
  | case4 d ds hd => cases (value_close hd _).symm.trans h
  | case5 => exact marks_cons.mpr ⟨.inr rfl, marks_nil⟩
  | case6 d ds _ ih =>
    obtain ⟨a, lag, rfl⟩ := List.exists_cons_of_ne_nil hne
    obtain ⟨ha, hlag⟩ := marks_cons.mp hm
    obtain ⟨u, hu, heq⟩ := Option.map_eq_some_iff.mp ((value_escape d _).symm.trans h)
    have hd : unescape d = [d] ∧ (d = 39 ∨ d = 92) := by
      have hall : Marks (a :: lag ++ [92]) := marks_append.mpr ⟨hm, by simp [Marks]⟩
      have hone : unescape d <+: a :: lag ++ 92 :: d :: ds := ⟨u, heq⟩
      have htwo : a :: lag ++ [92] <+: a :: lag ++ 92 :: d :: ds := ⟨d :: ds, by simp⟩
      have hpre := List.prefix_of_prefix_length_le hone htwo (by
        have := (length_unescape d).2
        simp only [List.length_append, List.length_cons]
        omega)
      exact marks_unescape fun c hc => hall c (hpre.subset hc)
    rw [hd.1] at heq
    obtain ⟨rfl, rfl⟩ := List.cons.inj heq
    have htwo : Marks [92, d] := by simp [Marks, hd.2]
    have hds : Marks ds := ih (lag ++ [92, d]) (by simpa using hu) (by simp)
      (marks_append.mpr ⟨hlag, htwo⟩)
    exact marks_append.mpr ⟨htwo, hds⟩
  | case7 d ds hq hb ih =>
    obtain ⟨a, lag, rfl⟩ := List.exists_cons_of_ne_nil hne
    obtain ⟨u, hu, heq⟩ := Option.map_eq_some_iff.mp ((value_char hq hb _).symm.trans h)
    obtain ⟨rfl, -⟩ := List.cons.inj heq
    exact absurd (marks_cons.mp hm).1 (by simp [hq, hb])

/-- The marks at the end of the text, and what follows it, together say these marks. -/
def Echo (text follow : List UInt8) : Prop :=
  ∃ plain marks, text = plain ++ marks ∧ Plain plain ∧ marks ≠ [] ∧ Marks marks ∧
    value (marks ++ follow) = some marks

theorem Echo.of_marks {text follow : List UInt8} (hne : text ≠ []) (hm : Marks text)
    (h : value (text ++ follow) = some text) : Echo text follow :=
  ⟨[], text, rfl, trivial, hne, hm, h⟩

theorem Echo.append {plain text follow : List UInt8} (hplain : Plain plain)
    (h : Echo text follow) : Echo (plain ++ text) follow := by
  obtain ⟨p, marks, rfl, hp, hne, hm, hv⟩ := h
  exact ⟨plain ++ p, marks, (List.append_assoc _ _ _).symm, hplain.append hp, hne, hm, hv⟩

/-- Text that says itself together with more is plain up to the marks at its end. -/
theorem Echo.of_value {text follow : List UInt8} (h : value (text ++ follow) = some text)
    (hne : follow ≠ []) : Echo text follow := by
  fun_induction value text with
  | case1 =>
    have hlen := (value_length h).2
    exact absurd (List.length_eq_zero_iff.mp (Nat.le_zero.mp hlen)) hne
  | case2 => exact .of_marks (by simp) (by simp [Marks]) h
  | case3 ds ih =>
    obtain ⟨u, hu, heq⟩ := Option.map_eq_some_iff.mp ((value_twice _).symm.trans h)
    obtain ⟨-, rfl⟩ := List.cons.inj heq
    have hds : Marks ds := marks_of_behind [39] hu (by simp) (by simp [Marks])
    exact .of_marks (by simp) (marks_cons.mpr ⟨.inl rfl, marks_cons.mpr ⟨.inl rfl, hds⟩⟩) h
  | case4 d ds hd => cases (value_close hd _).symm.trans h
  | case5 => exact .of_marks (by simp) (by simp [Marks]) h
  | case6 d ds _ ih =>
    obtain ⟨u, hu, heq⟩ := Option.map_eq_some_iff.mp ((value_escape d _).symm.trans h)
    rcases unescape_cases d with ⟨hd, hpat⟩ | ⟨-, e, hone, he⟩
    · obtain rfl : u = ds := by simpa [hpat] using heq
      exact (ih hu).append (plain_pattern hd)
    · rw [hone] at heq
      obtain ⟨rfl, rfl⟩ := List.cons.inj heq
      obtain rfl := he (.inr rfl)
      have hds : Marks ds := marks_of_behind [92] hu (by simp) (by simp [Marks])
      exact .of_marks (by simp) (marks_cons.mpr ⟨.inr rfl, marks_cons.mpr ⟨.inr rfl, hds⟩⟩) h
  | case7 d ds hq hb ih =>
    obtain ⟨u, hu, heq⟩ := Option.map_eq_some_iff.mp ((value_char hq hb _).symm.trans h)
    obtain ⟨-, rfl⟩ := List.cons.inj heq
    exact (ih hu).append (plain_char hq hb)

/-- With what follows it, a text says itself. -/
theorem value_follow_iff (text follow : List UInt8) :
    value (text ++ follow) = some text ↔ follow = [] ∧ Plain text ∨ Echo text follow := by
  constructor
  · intro h
    by_cases hfollow : follow = []
    · rw [hfollow, List.append_nil] at h
      exact .inl ⟨hfollow, (value_self_iff text).mp h⟩
    · exact .inr (.of_value h hfollow)
  · rintro (⟨rfl, hplain⟩ | ⟨plain, marks, rfl, hplain, -, -, hv⟩)
    · rw [List.append_nil]
      exact (value_self_iff text).mpr hplain
    · rw [List.append_assoc, value_append hplain, hv]
      rfl

theorem Echo.marks_follow {text follow : List UInt8} (h : Echo text follow) : Marks follow := by
  obtain ⟨-, marks, -, -, -, hm, hv⟩ := h
  exact (marks_append.mp (marks_of_value hv hm)).2

theorem Echo.follow_ne_nil {text follow : List UInt8} (h : Echo text follow) : follow ≠ [] := by
  obtain ⟨-, marks, -, -, hne, hm, hv⟩ := h
  rintro rfl
  rw [List.append_nil, value_self_iff] at hv
  exact hne (hv.eq_nil_of_marks hm)

/-! ### Escaping -/

/-- A character as `mysql_escape_string` writes it. -/
def escape (c : UInt8) : List UInt8 :=
  if c = 0 then [92, 48]
  else if c = 10 then [92, 110]
  else if c = 13 then [92, 114]
  else if c = 26 then [92, 90]
  else if c = 39 ∨ c = 34 ∨ c = 92 then [92, c]
  else [c]

theorem value_escape_append (c : UInt8) (text : List UInt8) :
    value (escape c ++ text) = (value text).map (c :: ·) := by
  unfold escape
  split_ifs with h0 h10 h13 h26 hself
  · simp [h0, unescape]
  · simp [h10, unescape]
  · simp [h13, unescape]
  · simp [h26, unescape]
  · rcases hself with rfl | rfl | rfl <;> simp [unescape]
  · exact value_char (fun h => hself (.inl h)) (fun h => hself (.inr (.inr h))) text

theorem value_flatMap_escape (text : List UInt8) : value (text.flatMap escape) = some text := by
  induction text with
  | nil => rfl
  | cons c cs ih => simp [value_escape_append, ih]

theorem zero_not_mem_escape (c : UInt8) : 0 ∉ escape c := by
  unfold escape
  split_ifs with h0 <;> simp_all [eq_comm]

end SqlText
