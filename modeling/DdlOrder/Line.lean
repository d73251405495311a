import DdlOrder.Error
import DdlOrder.Node
import DdlOrder.Text.Basic

/-!
# Dump lines

A dump line is indented by spaces and holds a type tag, then at most two values
and a note in parentheses, with spaces between the fields. A value may itself
hold spaces, in a list or a quoted literal, so a value can end in several places;
`valueRests` lists what may follow it, in order of preference, and `Line.body?`
takes the first choice that explains the whole line.

* `Line.valueRests_suffix`: what follows a value is the rest of the text;
* `Line.consumed_append`: a value and what follows it are the whole text.
-/

namespace DdlOrder

namespace Line

/-! ## Where a value may end -/

/-- What follows the first word: the text from the first space on. -/
def wordRest (s : List Char) : List Char := s.dropWhile (· != ' ')

/-- What follows each bracket or parenthesis that closes on the same line, the
nearest first. -/
def closerRests : List Char → List (List Char)
  | [] => []
  | c :: rest =>
    if c = '\n' then []
    else if c = ')' ∨ c = ']' then rest :: closerRests rest
    else closerRests rest

/-- What may follow a list: a word that ends in a comma, and text on the same
line up to a closing bracket or parenthesis, the farthest first. -/
def listRests (s : List Char) : List (List Char) :=
  match wordRest s with
  | ' ' :: rest =>
    if (s.takeWhile (· != ' ')).getLast? = some ',' then (closerRests rest).reverse else []
  | _ => []

/-- What follows each closing quote, the nearest first. A quote closes if a quote
of the first word stands before it on the same line. `inWord` says that the first
word still goes on, and `opened` that such a quote has been seen. -/
def quoteRests (inWord opened : Bool) : List Char → List (List Char)
  | [] => []
  | c :: rest =>
    let opens := opened || (inWord && c == '\'')
    let further := quoteRests (inWord && c != ' ') (opens && c != '\n') rest
    if opened ∧ c = '\'' then rest :: further else further

/-- What may follow a literal in quotes that ends right before `s`: a character
behind the closing quote belongs to the literal, too, unless it is a space; or
else it does not. -/
def behindQuote : List Char → List (List Char)
  | [] => [[]]
  | c :: rest => if c = ' ' then [c :: rest] else [rest, c :: rest]

/-- What may follow a literal in quotes, the farthest closing quote first. -/
def quotedRests (s : List Char) : List (List Char) :=
  (quoteRests true false s).reverse.flatMap behindQuote

/-- What may follow a value, in order of preference: the value is the first word,
a list or a literal in quotes. -/
def valueRests (s : List Char) : List (List Char) :=
  wordRest s :: (listRests s ++ quotedRests s)

/-- The part of a text before a given rest of it. -/
def consumed (s rest : List Char) : List Char := s.take (s.length - rest.length)

theorem consumed_append {s rest : List Char} (h : rest <:+ s) : consumed s rest ++ rest = s := by
  obtain ⟨t, rfl⟩ := h
  simp [consumed]

theorem closerRests_suffix {s rest : List Char} (h : rest ∈ closerRests s) : rest <:+ s := by
  fun_induction closerRests s with
  | case1 => simp at h
  | case2 => simp at h
  | case3 c s hn hc ih =>
    rcases List.mem_cons.1 h with rfl | h
    · exact List.suffix_cons c _
    · exact (ih h).trans (List.suffix_cons c s)
  | case4 c s hn hc ih => exact (ih h).trans (List.suffix_cons c s)

theorem quoteRests_suffix {inWord opened : Bool} {s rest : List Char}
    (h : rest ∈ quoteRests inWord opened s) : rest <:+ s := by
  induction s generalizing inWord opened with
  | nil => simp [quoteRests] at h
  | cons c s ih =>
    rw [quoteRests] at h
    split at h
    · rcases List.mem_cons.1 h with rfl | h
      · exact List.suffix_cons c _
      · exact (ih h).trans (List.suffix_cons c s)
    · exact (ih h).trans (List.suffix_cons c s)

theorem behindQuote_suffix {s rest : List Char} (h : rest ∈ behindQuote s) : rest <:+ s := by
  unfold behindQuote at h
  split at h
  · simp_all
  · split at h
    · simp_all
    · simp only [List.mem_cons, List.not_mem_nil, or_false] at h
      rcases h with rfl | rfl
      · exact List.suffix_cons _ _
      · exact List.suffix_refl _

theorem wordRest_suffix (s : List Char) : wordRest s <:+ s := List.dropWhile_suffix _

theorem valueRests_suffix {s rest : List Char} (h : rest ∈ valueRests s) : rest <:+ s := by
  simp only [valueRests, List.mem_cons, List.mem_append] at h
  rcases h with rfl | h | h
  · exact wordRest_suffix s
  · unfold listRests at h
    split at h
    · rename_i r hr
      split at h
      · exact (closerRests_suffix (List.mem_reverse.1 h)).trans
          ((List.suffix_cons ' ' r).trans (hr ▸ wordRest_suffix s))
      · simp at h
    · simp at h
  · obtain ⟨q, hq, h⟩ := List.mem_flatMap.1 h
    exact (behindQuote_suffix h).trans (quoteRests_suffix (List.mem_reverse.1 hq))

/-! ## The fields of a line -/

/-- What follows one or more spaces. -/
def afterSpaces? : List Char → Option (List Char)
  | ' ' :: rest => some (rest.dropWhile (· == ' '))
  | _ => none

/-- Whether the text is a note: parentheses around at least one character, without
a line feed. -/
def isNote : List Char → Bool
  | '(' :: rest =>
    2 ≤ rest.length && rest.getLast? == some ')' && rest.dropLast.all (· != '\n')
  | _ => false

/-- The note that one or more spaces and nothing else precede. -/
def note? (s : List Char) : Option (List Char) :=
  (afterSpaces? s).filter isNote

/-- The fields of a line behind its tag. -/
inductive Body where
  | bare
  | noted (note : List Char)
  | valued (value : List Char)
  | valuedNoted (value note : List Char)
  | pairNoted (first second note : List Char)
  deriving DecidableEq, Repr

/-- A value and the note behind it. -/
def valueNote? (s : List Char) : Option (List Char × List Char) :=
  (valueRests s).findSome? fun rest => (note? rest).map fun note => (consumed s rest, note)

/-- Whether a value can be the whole text. -/
def isValue (s : List Char) : Bool := (valueRests s).any List.isEmpty

/-- Two values and the note behind them. -/
def pairNote? (s : List Char) : Option (List Char × List Char × List Char) :=
  (valueRests s).findSome? fun rest =>
    ((afterSpaces? rest).bind valueNote?).map fun p => (consumed s rest, p)

/-- The fields behind the tag. The shapes are tried in this order: nothing, a
note, a value and a note, a value, two values and a note. -/
def body? (s : List Char) : Option Body :=
  if s.isEmpty then some .bare
  else (afterSpaces? s).bind fun fields =>
    if isNote fields then some (.noted fields)
    else match valueNote? fields with
      | some (value, a) => some (.valuedNoted value a)
      | none =>
        if isValue fields then some (.valued fields)
        else (pairNote? fields).map fun p => .pairNoted p.1 p.2.1 p.2.2

/-! ## Aliases -/

/-- The alias in a note `(alias X)` that begins right here. -/
def aliasHere? (s : List Char) : Option (List Char) := do
  let named ← afterOpening? "(alias ".toList s
  let name := named.takeWhile (· != ')')
  if name.isEmpty || (named.dropWhile (· != ')')).isEmpty then none else some name

/-- The alias in the first note `(alias X)` of a text. -/
def aliasIn? : List Char → Option (List Char)
  | [] => none
  | c :: rest => (aliasHere? (c :: rest)).or (aliasIn? rest)

/-! ## The node of a line -/

/-- The text, unless it is empty. -/
def nonEmpty? (s : List Char) : Option String :=
  if s.isEmpty then none else some (String.ofList s)

/-- Qualifier and value in a value field: a single dot separates them, except in
a literal, where a dot is part of a number. -/
def splitValue (tag : List Char) (s : List Char) : Option String × Option String :=
  if tag ≠ "Literal".toList ∧ s.count '.' = 1 then
    (nonEmpty? (s.takeWhile (· != '.')), nonEmpty? ((s.dropWhile (· != '.')).drop 1))
  else (none, nonEmpty? s)

/-- The qualifier and value that the fields give. -/
def Body.names (tag : List Char) : Body → Option String × Option String
  | .bare | .noted _ => (none, none)
  | .valued v | .valuedNoted v _ => splitValue tag v
  | .pairNoted v w _ => (nonEmpty? v, nonEmpty? w)

/-- The note among the fields. -/
def Body.note? : Body → Option (List Char)
  | .bare | .valued _ => none
  | .noted a | .valuedNoted _ a | .pairNoted _ _ a => some a

/-- The node that a line describes, given the line's parts. -/
def node (line : String) (indent : Nat) (tag : List Char) (body : Body) : Node where
  kind := Kind.ofTag (String.ofList tag)
  value := (body.names tag).2
  qualifier := (body.names tag).1
  aliasName := (body.note?.bind aliasIn?).map String.ofList
  note := body.note?.map String.ofList
  indent := indent
  raw := line

theorem node_raw (line : String) (indent : Nat) (tag : List Char) (body : Body) :
    (node line indent tag body).raw = line := rfl

/-- Reads a dump line: spaces, a tag without spaces, then the fields. -/
def parse? (line : String) : Option Node :=
  let text := line.toList.dropWhile (· == ' ')
  let tag := text.takeWhile (· != ' ')
  if tag.isEmpty then none
  else (body? (text.dropWhile (· != ' '))).map
    (node line (line.toList.takeWhile (· == ' ')).length tag)

/-- Reads a dump line, or names it as the line that has no known shape. -/
def parse (line : String) : Except Error Node :=
  match parse? line with
  | some node => .ok node
  | none => .error (.unrecognizedLine line)

end Line

/-- The alias that a note names. -/
def aliasOfNote? (note : String) : Option String :=
  (Line.aliasIn? note.toList).map String.ofList

end DdlOrder
