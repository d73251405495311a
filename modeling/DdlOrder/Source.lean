import DdlOrder.Batch
import DdlOrder.Comment
import DdlOrder.Order

/-!
# Explain sources

A statement that carries no dump has its dump asked from an explain source. What
a source answers may depend on what it was asked before. The statements of a
batch are obtained in input order up to the first that fails; blank ones are
passed over.

* `fetch_of_isBlank`, `obtainEach_blank`: a blank statement is refused on its own and passed
  over in a batch, in both cases unasked;
* `obtain_carried`: a statement that carries a dump asks nothing.
-/

namespace DdlOrder

/-- Answers a request with dump lines or a reason for having none, given the
requests made before it. -/
abbrev Source := List String → String → Except String (List String)

/-- The source that answers a request regardless of what it was asked before. -/
def Source.ofFunction (f : String → Except String (List String)) : Source := fun _ => f

/-- The requests made so far, and what came of them. -/
structure Asked (α : Type) where
  requests : List String
  result : Except Error α

/-- Asks the source for a statement's dump and parses it. -/
def fetch (source : Source) (requests : List String) (query : String) : Asked Statement :=
  if isBlank query then { requests, result := .error .blankQuery }
  else
    let request := explainRequest query
    { requests := requests ++ [request]
      result :=
        match source requests request with
        | .ok lines => Statement.ofDump query lines
        | .error reason => .error (.fetch reason) }

theorem fetch_of_isBlank {query : String} (h : isBlank query = true) (source : Source)
    (requests : List String) :
    fetch source requests query = { requests, result := .error .blankQuery } := by
  rw [fetch, if_pos h]

theorem result_fetch {query : String} (h : isBlank query = false)
    (f : String → Except String (List String)) (requests : List String) :
    (fetch (.ofFunction f) requests query).result =
      match f (explainRequest query) with
      | .ok lines => Statement.ofDump query lines
      | .error reason => .error (.fetch reason) := by
  rw [fetch, h, if_neg Bool.false_ne_true]
  rfl

/-- Parses the dump that a statement carries, or asks for one. -/
def obtain (source : Source) (requests : List String) (entry : Batch.Entry) : Asked Statement :=
  if entry.lines.isEmpty then fetch source requests entry.query
  else { requests, result := Statement.ofDump entry.query entry.lines }

theorem obtain_carried {entry : Batch.Entry} (h : entry.lines ≠ []) (source : Source)
    (requests : List String) :
    obtain source requests entry =
      { requests, result := Statement.ofDump entry.query entry.lines } := by
  simp [obtain, h]

/-- What comes of the members of a list, one after the other, up to the first that fails.
Members whose text is blank are passed over. -/
def obtainEach {α : Type} (text : α → String) (step : List String → α → Asked Statement)
    (requests : List String) : List α → Asked (List Statement)
  | [] => { requests, result := .ok [] }
  | a :: rest =>
    if isBlank (text a) then obtainEach text step requests rest
    else
      let first := step requests a
      match first.result with
      | .error e => { requests := first.requests, result := .error e }
      | .ok s =>
        let others := obtainEach text step first.requests rest
        { requests := others.requests, result := others.result.map (s :: ·) }

theorem obtainEach_blank {α : Type} {text : α → String} {a : α} (h : isBlank (text a))
    (step : List String → α → Asked Statement) (requests : List String) (rest : List α) :
    obtainEach text step requests (a :: rest) = obtainEach text step requests rest := by
  simp [obtainEach, h]

/-- Puts the texts of the statements in order, once they have all been obtained. -/
def Asked.ordered (m : Matching) (obtained : Asked (List Statement)) : Asked (List String) :=
  { requests := obtained.requests, result := obtained.result.bind (orderTexts m) }

/-- The texts of a batch's statements in order. -/
def orderBatch (source : Source) (m : Matching) (batch : Batch) : Asked (List String) :=
  (obtainEach (·.query) (obtain source) [] batch).ordered m

/-- The texts of statements that carry no dumps, in order. -/
def orderQueries (source : Source) (m : Matching) (queries : List String) :
    Asked (List String) :=
  (obtainEach id (fetch source) [] queries).ordered m

end DdlOrder
