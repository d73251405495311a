import DdlOrder.Kdl.Document
import DdlOrder.Kdl.Text

/-!
# The tokens of a KDL document

A document is read as tokens first: values, punctuation, gaps between words and
line ends. A comment is a gap or, to the end of its line, a line end.

On a few points the values are not those that version 2 of the language specifies. A
whole number, and each part of a decimal number, is below 2^127, where the language sets
no bound. The letter that names a base may be a capital one, as in `0X1F`, and `-inf` is
a bare word like others. A slashdash may follow right behind a keyword, but not right
behind a string or a number.

* `Kdl.Token.length_next?`: reading a token leaves less text than before.
-/

namespace DdlOrder.Kdl

/-- The smallest meaningful piece of a document. -/
inductive Token where
  /-- White space within a line. -/
  | gap
  | lineEnd
  /-- A backslash, which continues a line on the next. -/
  | continuation
  | semicolon
  | openBrace
  | closeBrace
  | openParen
  | closeParen
  | equals
  /-- What comments out the next node, entry or block. -/
  | slashdash
  /-- A value, and whether a type stands before it. -/
  | value (typed : Bool) (v : Value)
  deriving DecidableEq, Repr

namespace Token

/-! ## Numbers and words -/

/-- The value of a digit of the base. -/
def digitValue? (base : Nat) (c : Char) : Option Nat := (hexDigitValue? c).filter (· < base)

/-- The number that the digits write, `n` standing before them. Underscores
between digits carry no meaning. -/
def digitsValue? (base n : Nat) (s : List Char) : Option Nat :=
  s.foldlM (fun n c => if c == '_' then some n else (digitValue? base c).map (base * n + ·)) n

/-- Whether the text is a whole number: a digit of the base and then digits or
underscores. A whole number has to fit 128 bits with its sign. -/
def isWhole (base : Nat) : List Char → Bool
  | d :: s => ((digitValue? base d).bind fun n => digitsValue? base n s).any (· < Nat.pow 2 127)
  | [] => false

/-- The text without a sign at its beginning. -/
def dropSign : List Char → List Char
  | '+' :: s => s
  | '-' :: s => s
  | s => s

/-- Whether the text is nothing or an exponent. -/
def isExponent : List Char → Bool
  | [] => true
  | c :: s => (c == 'e' || c == 'E') && isWhole 10 (dropSign s)

/-- Whether the text is a decimal number without a sign. Each of its parts is a
whole number. -/
def isDecimal (s : List Char) : Bool :=
  let inside (c : Char) : Bool := c.isDigit || c == '_'
  isWhole 10 (s.takeWhile inside) &&
    match s.dropWhile inside with
    | '.' :: s => isWhole 10 (s.takeWhile inside) && isExponent (s.dropWhile inside)
    | s => isExponent s

/-- The base that the letter behind a leading zero names. -/
def baseOfLetter? : Char → Option Nat
  | 'x' | 'X' => some 16
  | 'o' | 'O' => some 8
  | 'b' | 'B' => some 2
  | _ => none

/-- Whether the text is a number, in base sixteen, eight, two or ten. -/
def isNumber (s : List Char) : Bool :=
  match dropSign s with
  | '0' :: letter :: s =>
    match baseOfLetter? letter with
    | some base => isWhole base s
    | none => isDecimal ('0' :: letter :: s)
  | s => isDecimal s

/-- Whether a bare word begins like a number. -/
def beginsLikeNumber (s : List Char) : Bool := (dropSign s).head?.any Char.isDigit

/-- Whether a bare word would be taken for a fraction: a dot and a digit. -/
def beginsLikeFraction (s : List Char) : Bool :=
  match dropSign s with
  | '.' :: s => s.head?.any Char.isDigit
  | _ => false

/-- The words that may not stand bare. -/
def reservedWords : List String := ["true", "false", "null", "inf", "nan"]

/-- The words that are keywords behind a number sign. -/
def keywords : List String := "-inf" :: reservedWords

/-- What a bare word stands for. -/
def bareValue? (s : List Char) : Option Value :=
  if beginsLikeNumber s then
    if isNumber s then some (.number (String.ofList s)) else none
  else if beginsLikeFraction s || reservedWords.contains (String.ofList s) then none
  else some (.text (String.ofList s))

/-! ## Reading a token -/

/-- The text behind a comment between `/*` and `*/`, in which `depth` further
ones are open. -/
def afterComment? : Nat → List Char → Option (List Char)
  | _, [] => none
  | 0, '*' :: '/' :: s => some s
  | depth + 1, '*' :: '/' :: s => afterComment? depth s
  | depth, '/' :: '*' :: s => afterComment? (depth + 1) s
  | depth, _ :: s => afterComment? depth s

/-- The text behind the line end, if there is one. -/
def afterLine (s : List Char) : List Char :=
  let rest := s.dropWhile fun c => !isNewline c
  (afterNewline? rest).getD rest

/-- Whether a string or a number may end before this text: a slashdash, a type or
another value must not follow right behind it. -/
def endsValue : List Char → Bool
  | '/' :: '-' :: _ => false
  | c :: _ => !(isBareChar c || c == '"' || c == '#' || c == '(')
  | [] => true

/-- A string or a number and the text behind it, if it may end there. -/
def ended? (p : Value × List Char) : Option (Value × List Char) :=
  if endsValue p.2 then some p else none

/-- The keyword that the text begins with, and the text behind it. -/
def keyword? (s : List Char) : Option (Value × List Char) :=
  keywords.findSome? fun word =>
    (afterOpening? word.toList s).map fun rest => (.keyword word, rest)

/-- What follows a number sign: more of them and a raw string, or a keyword. -/
def hashed? (s : List Char) : Option (Value × List Char) :=
  let hashes := s.takeWhile (· == '#')
  match s.dropWhile (· == '#') with
  | '"' :: rest =>
    (stringBody? ('#' :: hashes) .shortRaw .longRaw rest).bind fun p =>
      ended? (.text (String.ofList p.1), p.2)
  | _ => keyword? s

/-- The value at the beginning of the text `c :: s`, and the text behind it. -/
def value? (c : Char) (s : List Char) : Option (Value × List Char) :=
  if c == '"' then
    (stringBody? [] .short .long s).bind fun p =>
      ended? (.text (String.ofList p.1), p.2)
  else if c == '#' then hashed? s
  else if isBareChar c then
    (bareValue? (c :: s.takeWhile isBareChar)).bind fun v => ended? (v, s.dropWhile isBareChar)
  else none

/-- The first token of the text `c :: s`, and the text behind it. -/
def next? (c : Char) (s : List Char) : Option (Token × List Char) :=
  if isNewline c then some (.lineEnd, (afterNewline? (c :: s)).getD s)
  else if isSpace c then some (.gap, s)
  else match c with
    | '/' =>
      match s with
      | '/' :: s => some (.lineEnd, afterLine s)
      | '*' :: s => (afterComment? 0 s).map fun s => (.gap, s)
      | '-' :: s => some (.slashdash, s)
      | _ => none
    | '\\' => some (.continuation, s)
    | ';' => some (.semicolon, s)
    | '\x7b' => some (.openBrace, s)
    | '\x7d' => some (.closeBrace, s)
    | '(' => some (.openParen, s)
    | ')' => some (.closeParen, s)
    | '=' => some (.equals, s)
    | c => (value? c s).map fun p => (.value false p.1, p.2)

theorem length_dropWhile_le (p : Char → Bool) (s : List Char) :
    (s.dropWhile p).length ≤ s.length :=
  (List.dropWhile_suffix p).length_le

theorem length_afterComment? {depth : Nat} {s rest : List Char}
    (h : afterComment? depth s = some rest) : rest.length ≤ s.length := by
  fun_induction afterComment? depth s with
  | case1 => cases h
  | case2 => cases h; simp only [List.length_cons]; omega
  | case3 _ _ ih => have := ih h; simp only [List.length_cons]; omega
  | case4 _ _ ih => have := ih h; simp only [List.length_cons]; omega
  | case5 _ _ _ _ _ _ ih => have := ih h; simp only [List.length_cons]; omega

theorem length_afterLine (s : List Char) : (afterLine s).length ≤ s.length := by
  unfold afterLine
  have h := length_dropWhile_le (fun c => !isNewline c) s
  cases hr : afterNewline? (s.dropWhile fun c => !isNewline c) with
  | none => simpa [hr] using h
  | some r =>
    have := length_afterNewline? hr
    simp only [hr, Option.getD_some]
    omega

theorem eq_of_ended? {p q : Value × List Char} (h : ended? p = some q) : q = p := by
  unfold ended? at h
  split at h <;> cases h
  rfl

theorem length_keyword? {s rest : List Char} {v : Value} (h : keyword? s = some (v, rest)) :
    rest.length ≤ s.length := by
  obtain ⟨word, -, h⟩ := List.exists_of_findSome?_eq_some h
  obtain ⟨r, hr, he⟩ := Option.map_eq_some_iff.1 h
  cases he
  simp [afterOpening?_eq_some_iff.1 hr]

theorem length_hashed? {s rest : List Char} {v : Value} (h : hashed? s = some (v, rest)) :
    rest.length ≤ s.length := by
  unfold hashed? at h
  split at h
  · rename_i r hr
    obtain ⟨p, hp, he⟩ := Option.bind_eq_some_iff.1 h
    cases eq_of_ended? he
    have h1 := length_stringBody? hp
    have h2 := length_dropWhile_le (· == '#') s
    rw [hr, List.length_cons] at h2
    omega
  · exact length_keyword? h

theorem length_value? {c : Char} {s rest : List Char} {v : Value}
    (h : value? c s = some (v, rest)) : rest.length ≤ s.length := by
  unfold value? at h
  split at h
  · obtain ⟨p, hp, he⟩ := Option.bind_eq_some_iff.1 h
    cases eq_of_ended? he
    exact length_stringBody? hp
  · split at h
    · exact length_hashed? h
    · split at h
      · obtain ⟨v, -, he⟩ := Option.bind_eq_some_iff.1 h
        cases eq_of_ended? he
        exact length_dropWhile_le _ _
      · cases h

theorem length_next? {c : Char} {s rest : List Char} {t : Token}
    (h : next? c s = some (t, rest)) : rest.length ≤ s.length := by
  unfold next? at h
  split at h
  · cases h
    cases hr : afterNewline? (c :: s) with
    | none => simp
    | some r =>
      simp only [afterNewline?] at hr
      split at hr
      · cases hr; simp_all
      · split at hr <;> cases hr
        simp_all
      · cases hr
  · split at h
    · cases h; exact Nat.le_refl _
    · split at h
      · split at h
        · cases h
          have := length_afterLine ‹_›
          simp only [List.length_cons]
          omega
        · obtain ⟨r, hr, he⟩ := Option.map_eq_some_iff.1 h
          cases he
          have := length_afterComment? hr
          simp only [List.length_cons]
          omega
        · cases h; simp
        · cases h
      all_goals first
        | (cases h; exact Nat.le_refl _)
        | skip
      obtain ⟨p, hp, he⟩ := Option.map_eq_some_iff.1 h
      cases he
      exact length_value? hp

/-- The tokens of a text. -/
def all? : List Char → Option (List Token)
  | [] => some []
  | c :: s =>
    match _h : next? c s with
    | some p => (all? p.2).map (p.1 :: ·)
    | none => none
termination_by s => s.length
decreasing_by
  have := length_next? _h
  simp only [List.length_cons]
  omega

end Token

end DdlOrder.Kdl
