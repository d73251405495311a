import DdlOrder.Comment
import DdlOrder.Proofs.Text.Lines
import Mathlib.Data.List.TakeWhile

/-!
# Texts without their comment lines

Stripping a text works line by line: a line that is no comment is kept as it is or, being
blank, goes with the comment behind it, and of a comment only its empty line is left
(`Comment.splitOn_strip`). So no comment is left (`Comment.isComment_of_mem_strip`), and a text
without comments stays as it is (`Comment.strip_of_code`).

* `Comment.exists_foldr_absorb`, `Comment.foldr_absorb_of_code`: what a stretch of lines becomes
  before lines that are done;
* `Comment.strip_strip`: stripping twice is stripping once.
-/

namespace DdlOrder

namespace Comment

variable {line : List Char} {lines : List (List Char)} {done : List (Option (List Char))}
  {s : List Char}

/-! ## Marks -/

/-- Lines leave marks of their own before those that are done. What becomes of them is an empty
line, or a line that is no comment. -/
theorem exists_foldr_absorb (lines : List (List Char)) (done : List (Option (List Char))) :
    ∃ marks, lines.foldr absorb done = marks ++ done ∧
      ∀ line ∈ marks.map (·.getD []), line = [] ∨ (line ∈ lines ∧ isComment line = false) := by
  induction lines with
  | nil => exact ⟨[], rfl, fun _ h => by cases h⟩
  | cons first lines ih =>
    obtain ⟨marks, hmarks, hlines⟩ := ih
    have hlines' : ∀ line ∈ marks.map (·.getD []),
        line = [] ∨ (line ∈ first :: lines ∧ isComment line = false) := fun line h =>
      (hlines line h).imp_right fun h => ⟨List.mem_cons_of_mem first h.1, h.2⟩
    rw [List.foldr_cons, hmarks, absorb]
    split
    · exact ⟨none :: marks, rfl, List.forall_mem_cons.2 ⟨.inl rfl, hlines'⟩⟩
    · rename_i hcode
      split
      · exact ⟨marks, rfl, hlines'⟩
      · refine ⟨some first :: marks, rfl, List.forall_mem_cons.2 ⟨.inr ?_, hlines'⟩⟩
        exact ⟨List.mem_cons_self, Bool.eq_false_iff.2 hcode⟩

/-- Lines that are no comments are kept, but for blank ones before a comment. -/
theorem foldr_absorb_of_code (hcode : ∀ line ∈ lines, isComment line = false)
    (hlast : done.head? = some none → ∀ line ∈ lines.getLast?, line.all isBlankChar = false) :
    lines.foldr absorb done = lines.map some ++ done := by
  induction lines with
  | nil => rfl
  | cons first lines ih =>
    obtain ⟨hfirst, hcode⟩ := List.forall_mem_cons.1 hcode
    cases lines with
    | nil =>
      have hkept : ¬ (first.all isBlankChar = true ∧ done.head? = some none) := fun h => by
        cases h.1.symm.trans (hlast h.2 first rfl)
      rw [List.foldr_cons, List.foldr_nil, absorb, hfirst, if_neg Bool.false_ne_true, if_neg hkept]
      rfl
    | cons second lines =>
      rw [List.foldr_cons, ih hcode hlast, absorb, hfirst, if_neg Bool.false_ne_true,
        if_neg (by simp)]
      rfl

theorem map_getD_map_some (lines : List (List Char)) :
    (lines.map some).map (·.getD []) = lines := by
  rw [List.map_map]
  exact List.map_id lines

theorem markLines_of_code (hcode : ∀ line ∈ lines, isComment line = false) :
    markLines lines = lines.map some := by
  rw [markLines, foldr_absorb_of_code hcode (fun h => by cases h), List.append_nil]

theorem markLines_ne_nil (h : lines ≠ []) : markLines lines ≠ [] := by
  obtain ⟨first, lines, rfl⟩ := List.exists_cons_of_ne_nil h
  rw [markLines, List.foldr_cons, absorb]
  split
  · exact List.cons_ne_nil _ _
  · split
    · rename_i hblank
      rintro hnil
      rw [hnil] at hblank
      cases hblank.2
    · exact List.cons_ne_nil _ _

/-! ## Stripped texts -/

/-- A line of a stripped text is empty, or a line of the text that is no comment. -/
theorem mem_markLines_getD (h : line ∈ (markLines lines).map (·.getD [])) :
    line = [] ∨ (line ∈ lines ∧ isComment line = false) := by
  obtain ⟨marks, hmarks, hlines⟩ := exists_foldr_absorb lines []
  rw [markLines, hmarks, List.append_nil] at h
  exact hlines line h

theorem splitOn_strip (s : List Char) :
    (strip s).splitOn '\n' = (markLines (s.splitOn '\n')).map (·.getD []) := by
  refine List.splitOn_intercalate '\n' (fun line hline hfeed => ?_) ?_
  · rcases mem_markLines_getD hline with rfl | ⟨hline, -⟩
    · cases hfeed
    · exact (mem_of_mem_splitOn hline hfeed).2 rfl
  · exact mt List.map_eq_nil_iff.1 (markLines_ne_nil (List.splitOn_ne_nil '\n' s))

theorem isComment_of_mem_strip (h : line ∈ (strip s).splitOn '\n') : isComment line = false := by
  rw [splitOn_strip] at h
  rcases mem_markLines_getD h with rfl | ⟨-, hcode⟩
  · decide
  · exact hcode

theorem strip_of_code (hcode : ∀ line ∈ s.splitOn '\n', isComment line = false) : strip s = s := by
  rw [strip, markLines_of_code hcode, map_getD_map_some, List.intercalate_splitOn]

theorem strip_strip (s : List Char) : strip (strip s) = strip s :=
  strip_of_code fun _ => isComment_of_mem_strip

/-- A blank text has no comments. -/
theorem strip_of_blank (hblank : ∀ c ∈ s, isBlankChar c = true) : strip s = s := by
  refine strip_of_code fun line hline => ?_
  have hnil : line.dropWhile isBlankChar = [] := List.dropWhile_eq_nil_iff.2 fun c hc =>
    hblank c (mem_of_mem_splitOn hline hc).1
  rw [isComment, hnil]

end Comment

theorem stripComments_stripComments (query : String) :
    stripComments (stripComments query) = stripComments query := by
  simp only [stripComments, String.toList_ofList, Comment.strip_strip]

/-- What is asked for a statement does not depend on its comments. -/
theorem explainRequest_stripComments (query : String) :
    explainRequest (stripComments query) = explainRequest query := by
  rw [explainRequest, stripComments_stripComments, explainRequest]

theorem stripComments_of_isBlank {query : String} (h : isBlank query = true) :
    stripComments query = query := by
  rw [stripComments, Comment.strip_of_blank (List.all_eq_true.1 h), String.ofList_toList]

end DdlOrder
