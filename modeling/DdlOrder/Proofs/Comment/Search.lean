import DdlOrder.Proofs.Comment
import DdlOrder.Text.Basic

/-!
# Comments, searched for in the whole text

A comment is also what is found by a search for white space and `--` that stand at the
beginning of a line, together with the rest of that line. The white space may run over several
lines, so that what is found may be many lines long. A search that goes on behind what it has
found and leaves it out (`Comment.Scan`) comes to the text without its comment lines and to no
other (`Comment.scan_iff`).

* `Comment.markLines_cons_cases`, `Comment.filter_lines_strip`: what becomes of a line, and the
  lines with more than white space that are left;
* `Comment.IsMatch.unique`, `Comment.Scan.unique`: a search comes to one text at most;
* `Comment.exists_isBlock`, `Comment.noMatch_intercalate`: at the beginning of a line something
  is found exactly where a comment stands behind blank lines only, and it ends with the comment;
* `Comment.scan_intercalate`: what a search keeps of lines;
* `stripComments_keeps_code`: what is left of a statement, by searching and by lines.
-/

namespace DdlOrder

namespace Comment

variable {line word found after kept done s : List Char} {lines : List (List Char)}

/-! ## Lines -/

/-- A line that is a comment: white space and `--` before any words. -/
def IsCommentLine (line : List Char) : Prop :=
  ∃ space words, line = space ++ '-' :: '-' :: words ∧ ∀ c ∈ space, isBlankChar c = true

/-- A dash is no white space. -/
theorem isBlankChar_of_mem_head?_dash {words : List Char} :
    ∀ c ∈ ('-' :: words).head?, isBlankChar c = false := by
  intro c hc
  cases hc
  decide

theorem isComment_iff : isComment line = true ↔ IsCommentLine line := by
  constructor
  · intro h
    rw [isComment] at h
    split at h
    · rename_i words hdrop
      refine ⟨line.takeWhile isBlankChar, words, ?_, fun c hc => List.mem_takeWhile_imp hc⟩
      rw [← hdrop, List.takeWhile_append_dropWhile]
    · cases h
  · rintro ⟨space, words, rfl, hspace⟩
    rw [isComment, dropWhile_append_of_head? hspace isBlankChar_of_mem_head?_dash]
    rfl

instance : DecidablePred IsCommentLine := fun line =>
  decidable_of_iff (isComment line = true) isComment_iff

theorem decide_isCommentLine (line : List Char) : decide (IsCommentLine line) = isComment line := by
  rw [Bool.eq_iff_iff, decide_eq_true_iff, isComment_iff]

theorem isComment_eq_false_iff : isComment line = false ↔ ¬ IsCommentLine line := by
  rw [← isComment_iff, Bool.not_eq_true]

/-- A comment is marked, a blank line before a mark leaves no trace, and any other line is kept. -/
theorem markLines_cons_cases (line : List Char) (lines : List (List Char)) :
    (isComment line = true ∧ markLines (line :: lines) = none :: markLines lines) ∨
    (line.all isBlankChar = true ∧ (markLines lines).head? = some none ∧
      markLines (line :: lines) = markLines lines) ∨
    (isComment line = false ∧
      (line.all isBlankChar = true → (markLines lines).head? ≠ some none) ∧
      markLines (line :: lines) = some line :: markLines lines) := by
  rw [markLines, List.foldr_cons, ← markLines, absorb]
  split
  · rename_i hcomment
    exact .inl ⟨hcomment, rfl⟩
  · rename_i hcode
    split
    · rename_i hblank
      exact .inr (.inl ⟨hblank.1, hblank.2, rfl⟩)
    · rename_i hkept
      exact .inr (.inr ⟨Bool.eq_false_iff.2 hcode, not_and.1 hkept, rfl⟩)

/-- What is left of lines. -/
def leftLines (lines : List (List Char)) : List (List Char) := (markLines lines).map (·.getD [])

theorem leftLines_ne_nil (h : lines ≠ []) : leftLines lines ≠ [] :=
  mt List.map_eq_nil_iff.1 (markLines_ne_nil h)

/-- Of the lines with more than white space, those that are no comments are left. -/
theorem filter_leftLines (lines : List (List Char)) :
    (leftLines lines).filter (fun line => !line.all isBlankChar) =
      lines.filter (fun line => !line.all isBlankChar && !isComment line) := by
  induction lines with
  | nil => rfl
  | cons line lines ih =>
    unfold leftLines at ih ⊢
    rcases markLines_cons_cases line lines with
      ⟨hcomment, hmarks⟩ | ⟨hblank, -, hmarks⟩ | ⟨hcode, -, hmarks⟩
    · rw [hmarks, List.map_cons, List.filter_cons_of_neg (by simp),
        List.filter_cons_of_neg (by simp [hcomment]), ih]
    · rw [hmarks, List.filter_cons_of_neg (by simp [hblank]), ih]
    · rw [hmarks, List.map_cons, Option.getD_some, List.filter_cons, List.filter_cons, ih, hcode,
        Bool.not_false, Bool.and_true]

theorem filter_lines_strip (s : List Char) :
    ((strip s).splitOn '\n').filter (fun line => !line.all isBlankChar) =
      (s.splitOn '\n').filter (fun line => !line.all isBlankChar && !isComment line) := by
  rw [splitOn_strip]
  exact filter_leftLines (s.splitOn '\n')

/-! ## What is found -/

/-- A comment together with white space before it, which may be several lines. -/
def IsBlock (found : List Char) : Prop :=
  ∃ space words, found = space ++ '-' :: '-' :: words ∧
    (∀ c ∈ space, isBlankChar c = true) ∧ '\n' ∉ words

/-- What is found between the text that is done and the text after it: it stands at the beginning
of a line, is a comment with white space before it, and goes on to the end of its line. -/
structure IsMatch (done found after : List Char) : Prop where
  starts : ∀ c ∈ done.getLast?, c = '\n'
  isBlock : IsBlock found
  ends : ∀ c ∈ after.head?, c = '\n'

/-- Nothing is found at the beginning of the text. -/
def NoMatch (done s : List Char) : Prop :=
  ∀ found after, s = found ++ after → ¬ IsMatch done found after

/-- At one place there is but one thing to be found, so it does not matter how much of the text
each part of it tries to take first. -/
theorem IsMatch.unique {found' after' : List Char} (h : IsMatch done found after)
    (h' : IsMatch done found' after') (heq : found ++ after = found' ++ after') :
    found = found' ∧ after = after' := by
  obtain ⟨space, words, rfl, hspace, hwords⟩ := h.isBlock
  obtain ⟨space', words', rfl, hspace', hwords'⟩ := h'.isBlock
  rw [List.append_assoc, List.append_assoc] at heq
  obtain ⟨rfl, hdashes⟩ := run_append_inj hspace isBlankChar_of_mem_head?_dash hspace'
    isBlankChar_of_mem_head?_dash heq
  have hrest : words ++ after = words' ++ after' := (List.cons.inj (List.cons.inj hdashes).2).2
  obtain ⟨rfl, rfl⟩ := run_append_inj (p := (· != '\n'))
    (fun c hc => bne_iff_ne.2 fun hfeed => hwords (hfeed ▸ hc))
    (fun c hc => by rw [h.ends c hc, bne_self_eq_false])
    (fun c hc => bne_iff_ne.2 fun hfeed => hwords' (hfeed ▸ hc))
    (fun c hc => by rw [h'.ends c hc, bne_self_eq_false]) hrest
  exact ⟨rfl, rfl⟩

theorem IsMatch.ne_nil (h : IsMatch done found after) : found ≠ [] := by
  obtain ⟨space, words, rfl, -⟩ := h.isBlock
  exact List.append_ne_nil_of_right_ne_nil _ (List.cons_ne_nil _ _)

/-! ## The search -/

/-- A search from where a text is done to its end, and what is kept of it. Where nothing is
found it goes on by a character, and otherwise it goes on behind what is found, which is left
out. -/
inductive Scan : List Char → List Char → List Char → Prop
  | nil {done : List Char} : Scan done [] []
  | keep {done s kept : List Char} {c : Char} (hno : NoMatch done (c :: s))
      (h : Scan (done ++ [c]) s kept) : Scan done (c :: s) (c :: kept)
  | cut {done found after kept : List Char} (hmatch : IsMatch done found after)
      (h : Scan (done ++ found) after kept) : Scan done (found ++ after) kept

theorem Scan.unique_of_eq {s' kept' : List Char} (h : Scan done s kept)
    (h' : Scan done s' kept') (heq : s = s') : kept = kept' := by
  induction h generalizing s' kept' with
  | nil =>
    cases h' with
    | nil => rfl
    | keep => cases heq
    | cut hmatch => exact absurd (List.append_eq_nil_iff.1 heq.symm).1 hmatch.ne_nil
  | keep hno _ ih =>
    cases h' with
    | nil => cases heq
    | keep _ h' =>
      cases heq
      exact congrArg _ (ih h' rfl)
    | cut hmatch => exact absurd hmatch (hno _ _ heq)
  | cut hmatch _ ih =>
    cases h' with
    | nil => exact absurd (List.append_eq_nil_iff.1 heq).1 hmatch.ne_nil
    | keep hno => exact absurd hmatch (hno _ _ heq.symm)
    | cut hmatch' h' =>
      obtain ⟨rfl, rfl⟩ := hmatch.unique hmatch' heq
      exact ih h' rfl

theorem Scan.unique {kept' : List Char} (h : Scan done s kept) (h' : Scan done s kept') :
    kept = kept' :=
  h.unique_of_eq h' rfl

/-- Inside a line nothing is found. -/
theorem noMatch_of_notMem (hword : word ≠ []) (hfeed : '\n' ∉ word) : NoMatch (done ++ word) s := by
  rintro found after - hmatch
  have hlast := List.getLast?_eq_some_getLast hword
  rw [← List.getLast?_append_of_ne_nil done hword] at hlast
  exact hfeed (hmatch.starts _ hlast ▸ List.getLast_mem hword)

theorem noMatch_append (hno : NoMatch done (word ++ s)) (hfeed : '\n' ∉ word) :
    NoMatch (done ++ word) s := by
  cases word with
  | nil => rwa [List.append_nil]
  | cons c word => exact noMatch_of_notMem (List.cons_ne_nil c word) hfeed

/-- What is found ends inside a line. -/
theorem IsMatch.noMatch (h : IsMatch done found after) : NoMatch (done ++ found) s := by
  obtain ⟨space, words, rfl, -, hwords⟩ := h.isBlock
  have hfeed : '\n' ∉ '-' :: words := List.not_mem_cons_of_ne_of_not_mem (by decide) hwords
  rw [List.append_cons space, ← List.append_assoc]
  exact noMatch_of_notMem (List.cons_ne_nil _ _) hfeed

/-- A search passes over the rest of a line. -/
theorem Scan.append (hfeed : '\n' ∉ word) (hno : NoMatch done (word ++ s))
    (h : Scan (done ++ word) s kept) : Scan done (word ++ s) (word ++ kept) := by
  induction word generalizing done with
  | nil => rwa [List.append_nil] at h
  | cons c word ih =>
    obtain ⟨hc, hword⟩ := not_or.1 (mt List.mem_cons.2 hfeed)
    refine .keep hno (ih hword ?_ ?_)
    · exact noMatch_append hno (mt List.mem_singleton.1 hc)
    · rwa [List.append_assoc]

/-! ## What is found at the beginning of a line -/

/-- The lines as they follow another one, each behind a line end. -/
def following (lines : List (List Char)) : List Char := lines.flatMap ('\n' :: ·)

theorem following_eq (h : lines ≠ []) : following lines = '\n' :: ['\n'].intercalate lines := by
  obtain ⟨line, lines, rfl⟩ := List.exists_cons_of_ne_nil h
  rw [intercalate_cons]
  rfl

/-- Where a mark stands first, a comment is found together with the blank lines before it. -/
theorem exists_isBlock (hfeed : ∀ line ∈ lines, '\n' ∉ line)
    (hhead : (markLines lines).head? = some none) :
    ∃ found rest, rest.length < lines.length ∧ rest ⊆ lines ∧ IsBlock found ∧
      ['\n'].intercalate lines = found ++ following rest ∧
      markLines lines = none :: markLines rest := by
  induction lines with
  | nil => cases hhead
  | cons line lines ih =>
    obtain ⟨hline, hlines⟩ := List.forall_mem_cons.1 hfeed
    rcases markLines_cons_cases line lines with
      ⟨hcomment, hmarks⟩ | ⟨hblank, hhead', hmarks⟩ | ⟨-, -, hmarks⟩
    · obtain ⟨space, words, rfl, hspace⟩ := isComment_iff.1 hcomment
      have hwords : '\n' ∉ words := fun hmem => hline (by simp [hmem])
      exact ⟨_, lines, Nat.lt_succ_self _, List.subset_cons_self _ lines,
        ⟨space, words, rfl, hspace, hwords⟩, intercalate_cons _ lines, hmarks⟩
    · obtain ⟨_, rest, hlt, hsub, ⟨space, words, rfl, hspace, hwords⟩, htext, hrest⟩ :=
        ih hlines hhead'
      have hne : lines ≠ [] := List.ne_nil_of_length_pos (Nat.zero_lt_of_lt hlt)
      refine ⟨(line ++ '\n' :: space) ++ '-' :: '-' :: words, rest, Nat.lt_succ_of_lt hlt,
        List.subset_cons_of_subset line hsub, ⟨_, words, rfl, ?_, hwords⟩, ?_, hmarks.trans hrest⟩
      · rw [List.forall_mem_append, List.forall_mem_cons]
        exact ⟨List.all_eq_true.1 hblank, by decide, hspace⟩
      · rw [intercalate_cons, ← following, following_eq hne, htext]
        simp only [List.append_assoc, List.cons_append]
    · rw [hmarks] at hhead
      cases hhead

theorem head?_following (lines : List (List Char)) : ∀ c ∈ (following lines).head?, c = '\n' := by
  intro c hc
  cases lines with
  | nil => cases hc
  | cons line lines =>
    cases hc
    rfl

theorem following_ne_dash_cons (lines : List (List Char)) (words : List Char) :
    following lines ≠ '-' :: words := by
  intro h
  have hhead := head?_following lines '-' (by rw [h]; rfl)
  exact absurd hhead (by decide)

/-- Lines that begin with white space and `--`, be it several lines of it, are marked first. -/
theorem head?_markLines_of_eq {space words : List Char}
    (hspace : ∀ c ∈ space, isBlankChar c = true)
    (heq : ['\n'].intercalate lines = space ++ '-' :: '-' :: words) :
    (markLines lines).head? = some none := by
  induction lines generalizing space with
  | nil => exact absurd heq.symm (List.append_ne_nil_of_right_ne_nil _ (List.cons_ne_nil _ _))
  | cons line lines ih =>
    rw [intercalate_cons, ← following] at heq
    rcases markLines_cons_cases line lines with
      ⟨-, hmarks⟩ | ⟨-, hhead, hmarks⟩ | ⟨hcode, hkept, -⟩
    · rw [hmarks]
      rfl
    · rw [hmarks, hhead]
    rcases List.append_eq_append_iff.1 heq with ⟨more, rfl, hmore⟩ | ⟨more, rfl, hmore⟩
    · -- The white space runs beyond this line, which is blank, into the next one.
      obtain ⟨hline, hspace⟩ := List.forall_mem_append.1 hspace
      have hne : lines ≠ [] := by
        rintro rfl
        exact List.append_ne_nil_of_right_ne_nil _ (List.cons_ne_nil _ _) hmore.symm
      rw [following_eq hne] at hmore
      rcases List.cons_eq_append_iff.1 hmore with ⟨-, hdash⟩ | ⟨more, rfl, htext⟩
      · cases (List.cons.inj hdash).1
      · have hhead := ih (List.forall_mem_cons.1 hspace).2 htext
        exact absurd hhead (hkept (List.all_eq_true.2 hline))
    · -- Both dashes stand on this line.
      rcases List.cons_eq_append_iff.1 hmore with ⟨-, hdash⟩ | ⟨more, rfl, hmore'⟩
      · exact absurd hdash (following_ne_dash_cons _ _)
      rcases List.cons_eq_append_iff.1 hmore' with ⟨-, hdash⟩ | ⟨more, rfl, -⟩
      · exact absurd hdash (following_ne_dash_cons _ _)
      · cases hcode.symm.trans (isComment_iff.2 ⟨space, more, rfl, hspace⟩)

theorem noMatch_intercalate (hhead : (markLines lines).head? ≠ some none) :
    NoMatch done (['\n'].intercalate lines) := by
  rintro found after heq hmatch
  obtain ⟨space, words, rfl, hspace, -⟩ := hmatch.isBlock
  rw [List.append_assoc] at heq
  exact hhead (head?_markLines_of_eq hspace heq)

/-! ## A text searched through -/

/-- What is kept of lines that follow another one, if this holds of lines at the beginning. -/
theorem scan_following
    (ih : lines ≠ [] → ∀ done : List Char, (∀ c ∈ done.getLast?, c = '\n') →
      Scan done (['\n'].intercalate lines) (['\n'].intercalate (leftLines lines)))
    (hno : NoMatch done (following lines)) :
    Scan done (following lines) (following (leftLines lines)) := by
  rcases eq_or_ne lines [] with rfl | hne
  · exact .nil
  · have hstep := ih hne (done ++ ['\n']) fun c hc => by
      rw [List.getLast?_concat] at hc
      cases hc
      rfl
    rw [following_eq hne] at hno ⊢
    rw [following_eq (leftLines_ne_nil hne)]
    exact .keep hno hstep

/-- At the beginning of a line a search keeps what is left of the lines behind it. -/
theorem scan_intercalate (hfeed : ∀ line ∈ lines, '\n' ∉ line) (hlines : lines ≠ [])
    (hdone : ∀ c ∈ done.getLast?, c = '\n') :
    Scan done (['\n'].intercalate lines) (['\n'].intercalate (leftLines lines)) := by
  induction hlength : lines.length using Nat.strong_induction_on generalizing lines done with
  | h n ih =>
  subst hlength
  by_cases hhead : (markLines lines).head? = some none
  · -- What follows a comment are lines again.
    obtain ⟨found, rest, hlt, hsub, hblock, htext, hmarks⟩ := exists_isBlock hfeed hhead
    have hmatch : IsMatch done found (following rest) := ⟨hdone, hblock, head?_following rest⟩
    rw [htext, leftLines, hmarks, List.map_cons, intercalate_cons]
    refine .cut hmatch (scan_following (fun hne done hdone => ?_) hmatch.noMatch)
    exact ih rest.length hlt (fun line hmem => hfeed line (hsub hmem)) hne hdone rfl
  · obtain ⟨line, rest, rfl⟩ := List.exists_cons_of_ne_nil hlines
    obtain ⟨hline, hrest⟩ := List.forall_mem_cons.1 hfeed
    have hno : NoMatch done _ := noMatch_intercalate hhead
    rcases markLines_cons_cases line rest with ⟨-, hmarks⟩ | ⟨-, hhead', hmarks⟩ | ⟨-, -, hmarks⟩
    · exact absurd (hmarks ▸ rfl) hhead
    · exact absurd (hmarks ▸ hhead') hhead
    · rw [intercalate_cons] at hno ⊢
      rw [leftLines, hmarks, List.map_cons, Option.getD_some, intercalate_cons]
      refine .append hline hno (scan_following (fun hne done hdone => ?_) ?_)
      · exact ih rest.length (Nat.lt_succ_self _) hrest hne hdone rfl
      · exact noMatch_append hno hline

/-- A search through a text comes to the text without its comment lines, and to no other. -/
theorem scan_iff : Scan [] s kept ↔ kept = strip s := by
  have hscan : Scan [] s (strip s) := by
    have hfeed : ∀ line ∈ s.splitOn '\n', '\n' ∉ line := fun line hline hmem =>
      (mem_of_mem_splitOn hline hmem).2 rfl
    have hlines : Scan [] (['\n'].intercalate (s.splitOn '\n')) (strip s) :=
      scan_intercalate hfeed (List.splitOn_ne_nil '\n' s) fun c hc => by cases hc
    rwa [List.intercalate_splitOn] at hlines
  constructor
  · intro h
    exact h.unique hscan
  · rintro rfl
    exact hscan

theorem strip_eq_self_iff : strip s = s ↔ ∀ line ∈ s.splitOn '\n', isComment line = false := by
  constructor
  · intro h line hline
    rw [← h] at hline
    exact isComment_of_mem_strip hline
  · exact strip_of_code

end Comment

/-- The lines of a statement, as line feeds divide it. -/
def queryLines (query : String) : List (List Char) := query.toList.splitOn '\n'

/-- What is left of a statement is what a search for comments keeps of it. Its lines with more
than white space are those of the statement that are no comments, each as it is and in their
order, and no line is a comment. Just a statement without comments stays as it is, and so does
one that has been stripped, for which the same is asked. -/
theorem stripComments_keeps_code (query : String) :
    (∀ kept, Comment.Scan [] query.toList kept ↔ kept = (stripComments query).toList) ∧
    (queryLines (stripComments query)).filter (fun line => !line.all isBlankChar) =
      (queryLines query).filter
        (fun line => !line.all isBlankChar && !decide (Comment.IsCommentLine line)) ∧
    (∀ line ∈ queryLines (stripComments query), ¬ Comment.IsCommentLine line) ∧
    (stripComments query = query ↔ ∀ line ∈ queryLines query, ¬ Comment.IsCommentLine line) ∧
    stripComments (stripComments query) = stripComments query ∧
    explainRequest (stripComments query) = explainRequest query := by
  have htext : (stripComments query).toList = Comment.strip query.toList := String.toList_ofList
  simp only [queryLines, htext, Comment.decide_isCommentLine, ← Comment.isComment_eq_false_iff]
  refine ⟨fun kept => Comment.scan_iff, Comment.filter_lines_strip query.toList,
    fun line => Comment.isComment_of_mem_strip, ?_, stripComments_stripComments query,
    explainRequest_stripComments query⟩
  rw [← Comment.strip_eq_self_iff, ← htext, String.toList_inj]

/-- The blank lines before a comment go with it, and those behind it stay. -/
example : stripComments "select\n\n\t\r\n  -- all of it\n\n1 -- one" = "select\n\n\n1 -- one" := by
  decide

end DdlOrder
