import DdlOrder.Kdl.Alphabet
import DdlOrder.Text.Escape

/-!
# Strings in KDL documents

A string stands between quotes on one line or, in the long form, between triple
quotes on lines of its own. In the long form the white space before the closing
quotes is taken off every line. A backslash before white space removes that
white space; other escape sequences stand for single characters. Raw strings
have neither. Some characters must stand in no string.

Raw strings are read more freely than version 2 of the language has it. Three quotes
without a line break behind them open a raw string on one line that begins with two
quotes. On the lines of a long raw string a quote takes the character behind it along,
so a line that ends in a lone quote goes on with the next one.

* `Kdl.unescape?_cons_plain`: a character other than the backslash stands for
  itself;
* `Kdl.bodyUntil?_append`: a string's body, its closing quotes and what follows
  are the text they were read from.
-/

namespace DdlOrder.Kdl

/-! ## Escape sequences -/

/-- The character that a backslash and this letter stand for. -/
def letterEscape? : Char → Option Char
  | '\\' => some '\\'
  | '"' => some '"'
  | 'n' => some '\n'
  | 'r' => some '\r'
  | 't' => some '\t'
  | 'b' => some '\x08'
  | 'f' => some '\x0c'
  | 's' => some ' '
  | _ => none

/-- The character with the code point that one to six hexadecimal digits write.
Surrogates and numbers beyond the last code point are no characters. -/
def codePoint? (digits : List Char) : Option Char :=
  if 1 ≤ digits.length ∧ digits.length ≤ 6 then
    (hexValue? digits).bind fun n => if n.isValidChar then some (Char.ofNat n) else none
  else none

/-- Replaces every escape sequence by its character, and a backslash and the
white space behind it by nothing; fails at a backslash that begins neither. -/
def unescape? : List Char → Option (List Char)
  | [] => some []
  | '\\' :: 'u' :: '\x7b' :: rest =>
    match _h : rest.dropWhile (· != '\x7d') with
    | [] => none
    | _ :: after => do
      let c ← codePoint? (rest.takeWhile (· != '\x7d'))
      (c :: ·) <$> unescape? after
  | ['\\'] => none
  | '\\' :: letter :: rest =>
    if isWhite letter then unescape? (rest.dropWhile isWhite)
    else do
      let c ← letterEscape? letter
      (c :: ·) <$> unescape? rest
  | c :: rest => (c :: ·) <$> unescape? rest
termination_by s => s.length
decreasing_by
  · have := (List.dropWhile_suffix (· != '\x7d') (l := rest)).length_le
    simp only [_h, List.length_cons] at this ⊢
    omega
  · have := (List.dropWhile_suffix isWhite (l := rest)).length_le
    simp only [List.length_cons]
    omega
  · simp only [List.length_cons]; omega
  · simp

theorem unescape?_cons_plain {c : Char} (h : c ≠ '\\') (rest : List Char) :
    unescape? (c :: rest) = (c :: ·) <$> unescape? rest := by
  rw [unescape?.eq_def]
  split <;> simp_all

/-! ## The bodies of strings -/

/-- The text up to the closing quotes, and the text behind them. Quotes do not
close a string right behind a character that hides them. -/
def bodyUntil? (close : List Char) (hides : Char → Bool) :
    List Char → Option (List Char × List Char)
  | [] => none
  | c :: s =>
    match afterOpening? close (c :: s) with
    | some rest => some ([], rest)
    | none =>
      if hides c then
        match s with
        | [] => none
        | d :: s => (bodyUntil? close hides s).map fun p => (c :: d :: p.1, p.2)
      else (bodyUntil? close hides s).map fun p => (c :: p.1, p.2)

theorem bodyUntil?_append {close : List Char} {hides : Char → Bool} {s body rest : List Char}
    (h : bodyUntil? close hides s = some (body, rest)) : body ++ close ++ rest = s := by
  fun_induction bodyUntil? close hides s generalizing body with
  | case1 => cases h
  | case2 c s r hr =>
    cases h
    exact (afterOpening?_eq_some_iff.1 hr).symm
  | case3 => cases h
  | case4 c hc d s hp ih =>
    obtain ⟨p, hp', he⟩ := Option.map_eq_some_iff.1 h
    cases he
    simp only [List.cons_append, List.cons.injEq, true_and]
    exact ih hp'
  | case5 c s hp hc ih =>
    obtain ⟨p, hp', he⟩ := Option.map_eq_some_iff.1 h
    cases he
    simp only [List.cons_append, List.cons.injEq, true_and]
    exact ih hp'

theorem length_bodyUntil? {close : List Char} {hides : Char → Bool} {s body rest : List Char}
    (h : bodyUntil? close hides s = some (body, rest)) : rest.length ≤ s.length := by
  have := congrArg List.length (bodyUntil?_append h)
  simp only [List.length_append] at this
  omega

/-- The text without the white space behind each lone backslash, and without that
backslash. While `skipping`, white space right here goes too. -/
def dropSpaceEscapes (skipping : Bool) : List Char → List Char
  | [] => []
  | [c] => if skipping && isWhite c then [] else [c]
  | c :: d :: s =>
    if skipping && isWhite c then dropSpaceEscapes true (d :: s)
    else if c == '\\' then
      if isWhite d then dropSpaceEscapes true s
      else c :: d :: dropSpaceEscapes false s
    else c :: dropSpaceEscapes false (d :: s)

/-- The lines with the character put before the first one. -/
def consLine (c : Char) (lines : List (List Char)) : List (List Char) :=
  (c :: lines.headD []) :: lines.tail

/-- The lines of a text. -/
def splitLines : List Char → List (List Char)
  | [] => [[]]
  | '\r' :: '\n' :: s => [] :: splitLines s
  | c :: s => if isNewline c then [] :: splitLines s else consLine c (splitLines s)

/-- The lines of a raw string. A quote takes the character behind it along, so
that a line break there breaks no line. -/
def splitRawLines : List Char → List (List Char)
  | [] => [[]]
  | '\r' :: '\n' :: s => [] :: splitRawLines s
  | '"' :: c :: s => consLine '"' (consLine c (splitRawLines s))
  | c :: s => if isNewline c then [] :: splitRawLines s else consLine c (splitRawLines s)

/-- The lines without the white space that the last line consists of, joined by
line feeds; the last line itself is dropped. Lines of white space become empty,
every other line has to begin with that white space. -/
def dedent? (lines : List (List Char)) : Option (List Char) :=
  let margin := lines.getLastD []
  if margin.all isSpace then
    (lines.dropLast.mapM fun (line : List Char) =>
      if line.all isSpace then some [] else afterOpening? margin line).map ['\n'].intercalate
  else none

/-- What a quoted string on one line stands for. The line may break only in the
white space behind a backslash. -/
def shortText? (body : List Char) : Option (List Char) :=
  if (dropSpaceEscapes false body).any isNewline then none else unescape? body

/-- What a quoted string on lines of its own stands for. White space behind a
backslash belongs to no margin, but it does not stand within an escape sequence. -/
def longText? (body : List Char) : Option (List Char) :=
  (unescape? body).bind fun _ =>
    (dedent? (splitLines (dropSpaceEscapes false body))).bind unescape?

/-- What a raw string on one line stands for. -/
def shortRaw? (body : List Char) : Option (List Char) :=
  if body.any isNewline then none else some body

/-- What a raw string on lines of its own stands for. -/
def longRaw? (body : List Char) : Option (List Char) := dedent? (splitRawLines body)

/-- The text behind a line break. -/
def afterNewline? : List Char → Option (List Char)
  | '\r' :: '\n' :: s => some s
  | c :: s => if isNewline c then some s else none
  | [] => none

theorem length_afterNewline? {s rest : List Char} (h : afterNewline? s = some rest) :
    rest.length ≤ s.length := by
  unfold afterNewline? at h
  split at h
  · cases h
    simp only [List.length_cons]
    omega
  · split at h <;> cases h
    simp
  · cases h

/-- How the body of a string is read. -/
structure BodyForm where
  /-- Whether the character hides closing quotes right behind it. -/
  hides : Char → Bool
  /-- What a body stands for. -/
  value? : List Char → Option (List Char)

/-- A quoted string on one line. -/
def BodyForm.short : BodyForm := ⟨(· == '\\'), shortText?⟩

/-- A quoted string on lines of its own. -/
def BodyForm.long : BodyForm := ⟨(· == '\\'), longText?⟩

/-- A raw string on one line. -/
def BodyForm.shortRaw : BodyForm := ⟨fun _ => false, shortRaw?⟩

/-- A raw string on lines of its own. -/
def BodyForm.longRaw : BodyForm := ⟨(· == '"'), longRaw?⟩

/-- What a string up to its closing quotes stands for, and the text behind it. -/
def BodyForm.read? (form : BodyForm) (close s : List Char) : Option (List Char × List Char) :=
  (bodyUntil? close form.hides s).bind fun p =>
    if p.1.any isForbidden then none else (form.value? p.1).map fun text => (text, p.2)

theorem BodyForm.length_read? {form : BodyForm} {close s text rest : List Char}
    (h : form.read? close s = some (text, rest)) : rest.length ≤ s.length := by
  obtain ⟨p, hp, h⟩ := Option.bind_eq_some_iff.1 h
  split at h
  · cases h
  · obtain ⟨_, _, he⟩ := Option.map_eq_some_iff.1 h
    cases he
    exact length_bodyUntil? hp

/-- What a string whose opening quote has been read stands for, and the text
behind it. Two more quotes and a line break open the long form. The closing
quotes are followed by `fence`. -/
def stringBody? (fence : List Char) (short long : BodyForm) (s : List Char) :
    Option (List Char × List Char) :=
  match (afterOpening? ['"', '"'] s).bind afterNewline? with
  | some s => long.read? (['"', '"', '"'] ++ fence) s
  | none => short.read? ('"' :: fence) s

theorem length_stringBody? {fence : List Char} {short long : BodyForm} {s text rest : List Char}
    (h : stringBody? fence short long s = some (text, rest)) : rest.length ≤ s.length := by
  unfold stringBody? at h
  split at h
  · rename_i s' hs
    obtain ⟨t, ht, hs⟩ := Option.bind_eq_some_iff.1 hs
    have h1 := congrArg List.length (afterOpening?_eq_some_iff.1 ht)
    have h2 := length_afterNewline? hs
    have h3 := BodyForm.length_read? h
    simp only [List.length_append] at h1
    omega
  · exact BodyForm.length_read? h

end DdlOrder.Kdl
