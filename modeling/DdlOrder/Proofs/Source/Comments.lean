import DdlOrder.Proofs.Tree.TargetNames
import DdlOrder.Proofs.ViewTarget.Comments
import DdlOrder.Rule
import DdlOrder.Source

/-!
# Comments of statements whose dump is asked for

What is asked for a statement does not depend on its comments, but two things are read from the
text with its comments: whether it is blank, and the target of a view. So a statement and its
text without comments come to the same exactly where these two agree
(`fetch_stripComments_iff`), which the target does if the comments stand apart from its clause.
A comment between the words of the clause hides the target (`fetch_stripComments_ne`).
-/

namespace DdlOrder

/-- What is known of a statement apart from its text. -/
def Statement.content (s : Statement) : Tree × Facts := (s.tree, Facts.ofStatement s)

variable {f : String → Except String (List String)} {requests : List String} {query : String}

/-- Apart from its text, a statement is what its tree is. -/
theorem map_content_ofDump (query : String) (lines : List String) :
    (Statement.ofDump query lines).map Statement.content =
      (Tree.ofDump query lines).map fun tree => Statement.content { query := "", tree } := by
  rw [Statement.ofDump]
  cases Tree.ofDump query lines <;> rfl

theorem map_content_fetch_of_ok (h : isBlank query = false) {lines : List String}
    (hanswer : f (explainRequest query) = .ok lines) :
    (fetch (.ofFunction f) requests query).result.map Statement.content =
      (Tree.ofDump query lines).map fun tree => Statement.content { query := "", tree } := by
  rw [result_fetch h, hanswer]
  exact map_content_ofDump query lines

theorem result_fetch_of_error (h : isBlank query = false) {reason : String}
    (hanswer : f (explainRequest query) = .error reason) :
    (fetch (.ofFunction f) requests query).result = .error (.fetch reason) := by
  rw [result_fetch h, hanswer]

/-- A text without comments that is blank where the statement is not, or names another target,
is told from the statement by some source. -/
theorem agree_of_fetch_stripComments
    (h : ∀ f requests,
      (fetch (.ofFunction f) requests (stripComments query)).result.map Statement.content =
        (fetch (.ofFunction f) requests query).result.map Statement.content) :
    isBlank (stripComments query) = isBlank query ∧
      targetNames? (stripComments query) = targetNames? query := by
  by_cases hquery : isBlank query = true
  · rw [stripComments_of_isBlank hquery]
    exact ⟨rfl, rfl⟩
  rw [Bool.not_eq_true] at hquery
  -- A source that refuses to answer tells a text that is asked for from a blank one.
  have hstripped : isBlank (stripComments query) = false := by
    rw [Bool.eq_false_iff]
    intro hblank
    let refuse : String → Except String (List String) := fun _ => .error ""
    have hrefuse : refuse (explainRequest query) = .error "" := rfl
    have hrefused := h refuse []
    rw [fetch_of_isBlank hblank, result_fetch_of_error hquery hrefuse] at hrefused
    cases hrefused
  refine ⟨hstripped.trans hquery.symm, Tree.ofDump_eq_iff.1 fun lines => ?_⟩
  have hanswered := h (fun _ => .ok lines) []
  rw [map_content_fetch_of_ok hstripped rfl, map_content_fetch_of_ok hquery rfl] at hanswered
  exact map_injective (fun _ _ h => congrArg Prod.fst h) hanswered

theorem fetch_stripComments (hblank : isBlank (stripComments query) = isBlank query)
    (htarget : targetNames? (stripComments query) = targetNames? query) :
    (fetch (.ofFunction f) requests (stripComments query)).result.map Statement.content =
      (fetch (.ofFunction f) requests query).result.map Statement.content := by
  cases hquery : isBlank query with
  | true => rw [fetch_of_isBlank hquery, fetch_of_isBlank (hblank.trans hquery)]
  | false =>
    have hstripped := hblank.trans hquery
    have hrequest := congrArg f (explainRequest_stripComments query)
    cases hanswer : f (explainRequest query) with
    | error reason =>
      rw [result_fetch_of_error hquery hanswer,
        result_fetch_of_error hstripped (hrequest.trans hanswer)]
    | ok lines =>
      rw [map_content_fetch_of_ok hquery hanswer,
        map_content_fetch_of_ok hstripped (hrequest.trans hanswer), Tree.ofDump_eq_iff.2 htarget]

/-- From a source that answers every request in one way only, a statement and its text without
comments get the same tree and the same facts, or fail in the same way, exactly if both or none
of them are blank and both name the same target for a view. The comments change no target if
they stand apart from the clause that names it. -/
theorem fetch_stripComments_iff (query : String) :
    ((∀ f requests,
        (fetch (.ofFunction f) requests (stripComments query)).result.map Statement.content =
          (fetch (.ofFunction f) requests query).result.map Statement.content) ↔
      isBlank (stripComments query) = isBlank query ∧
        targetNames? (stripComments query) = targetNames? query) ∧
      (CommentsApart query → targetNames? (stripComments query) = targetNames? query) := by
  refine ⟨⟨agree_of_fetch_stripComments, fun h f requests => fetch_stripComments h.1 h.2⟩, ?_⟩
  intro hapart
  rw [targetNames?, viewTarget?_stripComments hapart, targetNames?]

/-- A comment between the view's name and `to` hides the table that the view fills. -/
theorem fetch_stripComments_ne :
    let query := "create materialized view v\n-- fills t\nto t as select 1"
    let source := Source.ofFunction fun _ => .ok ["CreateQuery  v (children 1)", " Identifier v"]
    (fetch source [] (stripComments query)).result.map (·.tree) ≠
      (fetch source [] query).result.map (·.tree) := by
  intro query source h
  have htables := congrArg (Except.map Tree.size) h
  have hstripped : ((fetch source [] (stripComments query)).result.map (·.tree)).map Tree.size =
      .ok 4 := by decide +kernel
  have hquery : ((fetch source [] query).result.map (·.tree)).map Tree.size = .ok 2 := by
    decide +kernel
  rw [hstripped, hquery] at htables
  cases htables

end DdlOrder
