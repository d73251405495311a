import DdlOrder.Text.Basic

/-!
# Comment lines

A line of a statement that begins with `--`, white space aside, is a comment.
Before a statement is explained its comment lines are emptied, and blank lines
right before a comment go with it.

* `Comment.strip_nil`, `Comment.absorb_eq`: what becomes of each line;
* `explainRequest_eq`: the request is a fixed word and the stripped text.
-/

namespace DdlOrder

namespace Comment

/-- Whether the line is a comment. -/
def isComment (line : List Char) : Bool :=
  match line.dropWhile isBlankChar with
  | '-' :: '-' :: _ => true
  | _ => false

/-- Puts a line before lines that are done. A comment leaves a mark, and so do
the blank lines right before it together with it. -/
def absorb (line : List Char) (done : List (Option (List Char))) : List (Option (List Char)) :=
  if isComment line then none :: done
  else if line.all isBlankChar ∧ done.head? = some none then done
  else some line :: done

theorem absorb_eq {line : List Char} {done : List (Option (List Char))}
    (hc : isComment line = false) (hb : line.all isBlankChar = false) :
    absorb line done = some line :: done := by
  simp [absorb, hc, hb]

/-- The lines, with each comment and the blank lines right before it replaced by
one mark. -/
def markLines (lines : List (List Char)) : List (Option (List Char)) := lines.foldr absorb []

/-- The text without its comment lines. The line end behind a comment stays. -/
def strip (s : List Char) : List Char :=
  ['\n'].intercalate ((markLines (s.splitOn '\n')).map (·.getD []))

theorem strip_nil : strip [] = [] := by decide

end Comment

/-- The statement without its comment lines. -/
def stripComments (query : String) : String := String.ofList (Comment.strip query.toList)

/-- What an explain source is asked for a statement. -/
def explainRequest (query : String) : String := "explain ast " ++ stripComments query

theorem explainRequest_eq (query : String) :
    (explainRequest query).toList = "explain ast ".toList ++ Comment.strip query.toList := by
  simp [explainRequest, stripComments]

end DdlOrder
