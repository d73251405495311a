import DdlOrder.Text.Basic
import DdlOrder.Text.Word

/-!
# The target table of a materialized view

A dump leaves out the table that `CREATE MATERIALIZED VIEW … TO table` fills, so
it is read from the statement's text: the words `create materialized view`, an
optional `if not exists`, the view's name, an optional `on cluster` clause, `to`
and the table's name, in any letter case and with white space between them. The
first place in the text where the clause can be read counts.

* `ViewTarget.find?_cons`: the clause begins right here or further on.
-/

namespace DdlOrder

namespace ViewTarget

/-- Whether the character is the lower-case letter, in either case. The long s
U+017F counts as an `s`. -/
def sameLetter (letter c : Char) : Bool :=
  c == letter || c.toNat + 32 == letter.toNat || (letter == 's' && c == '\u017f')

/-- The text behind a word of lower-case letters that it begins with. -/
def word? : List Char → List Char → Option (List Char)
  | [], s => some s
  | letter :: letters, c :: s => if sameLetter letter c then word? letters s else none
  | _ :: _, [] => none

/-- The text behind one or more characters of a class, as many as there are. -/
def many? (p : Char → Bool) : List Char → Option (List Char)
  | [] => none
  | c :: s => if p c then some (s.dropWhile p) else none

/-- The text behind a word and the white space that has to follow it. -/
def wordAndBlank? (letters : String) (s : List Char) : Option (List Char) :=
  (word? letters.toList s).bind (many? isBlankChar)

/-- Whether the character may stand in a name: a word character or a dot. -/
def isNameChar (c : Char) : Bool := isWordChar c || c == '.'

/-- The text behind `if not exists` and white space. -/
def ifNotExists? (s : List Char) : Option (List Char) := do
  wordAndBlank? "exists" (← wordAndBlank? "not" (← wordAndBlank? "if" s))

/-- The text behind `on cluster`, the cluster's name and white space. -/
def onCluster? (s : List Char) : Option (List Char) := do
  let s ← wordAndBlank? "cluster" (← wordAndBlank? "on" s)
  many? isBlankChar (← many? (fun c => !isBlankChar c) s)

/-- The target named by a clause that begins right here. An optional part that
can be read is read: without it, what follows could not be the next word. -/
def here? (s : List Char) : Option (List Char) := do
  let s ← wordAndBlank? "view" (← wordAndBlank? "materialized" (← wordAndBlank? "create" s))
  let s := (ifNotExists? s).getD s
  let s ← many? isBlankChar (← many? isNameChar s)
  let s := (onCluster? s).getD s
  let s ← wordAndBlank? "to" s
  let name := s.takeWhile isNameChar
  if name.isEmpty then none else some name

/-- The target named by the first clause in the text. -/
def find? : List Char → Option (List Char)
  | [] => none
  | c :: s => (here? (c :: s)).or (find? s)

theorem find?_cons (c : Char) (s : List Char) :
    find? (c :: s) = (here? (c :: s)).or (find? s) := rfl

end ViewTarget

/-- The name of the table that the materialized view of a statement fills. -/
def viewTarget? (query : String) : Option (List Char) := ViewTarget.find? query.toList

end DdlOrder
