import DdlOrder.Proofs.Comment
import DdlOrder.Proofs.ViewTarget

/-!
# Comments around the clause of a view

The target of a view is looked for in the whole text of a statement, its comments included. So
a comment may name a target that the statement does not have, and one between the words of the
clause keeps the target from being found. Where the comments stand apart from the clause
(`ViewTarget.StandApart`), they do neither.

* `ViewTarget.mentions_of_find?`, `ViewTarget.find?_lines_append`: a target is found in no text
  without the word `materialized`, and not before the first `create`;
* `viewTarget?_stripComments`: comments that stand apart change no target.
-/

namespace DdlOrder

namespace ViewTarget

variable {l : Char} {ls s rest target line : List Char} {lines : List (List Char)}

/-! ## Words of the clause in a text -/

/-- The word stands in the text, in any letter case. -/
def Mentions (word : String) (s : List Char) : Prop := word.toList <:+: s.map Char.toLower

theorem not_mentions_nil {word : String} (h : word.toList ≠ []) : ¬ Mentions word [] :=
  fun hmentions => h (List.infix_nil.1 hmentions)

theorem Mentions.append_left {word : String} (h : Mentions word s) (w : List Char) :
    Mentions word (w ++ s) := by
  rw [Mentions, List.map_append]
  exact h.trans (List.suffix_append _ _).isInfix

/-- A word without a line feed stands in one of the lines. -/
theorem exists_mentions {word : String} (hword : word.toList ≠ []) (hfeed : '\n' ∉ word.toList)
    (h : Mentions word (['\n'].intercalate lines)) : ∃ line ∈ lines, Mentions word line := by
  induction lines with
  | nil => exact absurd h (not_mentions_nil hword)
  | cons line lines ih =>
    cases lines with
    | nil =>
      rw [List.intercalate_singleton] at h
      exact ⟨line, List.mem_cons_self, h⟩
    | cons second lines =>
      rw [List.intercalate_cons_cons, Mentions, List.append_assoc, List.map_append,
        List.singleton_append, List.map_cons, show Char.toLower '\n' = '\n' by decide] at h
      rcases infix_or_infix_of_infix_append_cons hfeed h with h | h
      · exact ⟨line, List.mem_cons_self, h⟩
      · obtain ⟨found, hmem, hfound⟩ := ih h
        exact ⟨found, List.mem_cons_of_mem line hmem, hfound⟩

/-! ## Texts without a clause -/

/-- Only for the letter s is there another character than the letter in either case. -/
theorem toLower_eq_of_sameLetter {c : Char} (hl : l ∈ alphabet) (hs : l ≠ 's')
    (h : sameLetter l c = true) : c.toLower = l := by
  rcases toLower_of_sameLetter hl h with hlower | rfl
  · exact hlower
  · have hall : (alphabet.all fun l => l == 's' || !sameLetter l '\u017f') = true := by decide
    have hno := List.all_eq_true.1 hall l hl
    rw [h, Bool.not_true, Bool.or_false, beq_iff_eq] at hno
    exact absurd hno hs

theorem exists_of_word?_eq_some (hls : ls ⊆ alphabet) (hs : 's' ∉ ls)
    (h : word? ls s = some rest) : ∃ w, s = w ++ rest ∧ w.map Char.toLower = ls := by
  fun_induction word? ls s with
  | case1 s =>
    cases h
    exact ⟨[], rfl, rfl⟩
  | case2 l ls c s hsame ih =>
    obtain ⟨hl, hls⟩ := List.cons_subset.1 hls
    obtain ⟨hne, hs⟩ := not_or.1 (mt List.mem_cons.2 hs)
    obtain ⟨w, rfl, hw⟩ := ih hls hs h
    exact ⟨c :: w, rfl, List.cons_eq_cons.2 ⟨toLower_eq_of_sameLetter hl (Ne.symm hne) hsame, hw⟩⟩
  | case3 => cases h
  | case4 => cases h

theorem exists_of_many? {p : Char → Bool} (h : many? p s = some rest) :
    ∃ run, s = run ++ rest := by
  cases s with
  | nil => cases h
  | cons c s =>
    rw [many?, Option.ite_none_right_eq_some, Option.some.injEq] at h
    obtain ⟨-, rfl⟩ := h
    exact ⟨c :: s.takeWhile p, by rw [List.cons_append, List.takeWhile_append_dropWhile]⟩

theorem mentions_of_word? {word : String} (hword : word.toList ⊆ alphabet)
    (hs : 's' ∉ word.toList) (h : word? word.toList s = some rest) : Mentions word s := by
  obtain ⟨w, rfl, hw⟩ := exists_of_word?_eq_some hword hs h
  rw [Mentions, List.map_append, hw]
  exact (List.prefix_append _ _).isInfix

/-- Where a clause begins, its first word stands and its second word follows. -/
theorem mentions_of_here? (h : here? s = some target) :
    (∃ rest, word? "create".toList s = some rest) ∧ Mentions "materialized" s := by
  obtain ⟨s₁, hcreate, h⟩ := Option.bind_eq_some_iff.1 h
  obtain ⟨s₂, hmaterialized, -⟩ := Option.bind_eq_some_iff.1 h
  obtain ⟨s₃, hcreate, hblank⟩ := Option.bind_eq_some_iff.1 hcreate
  obtain ⟨s₄, hmaterialized, -⟩ := Option.bind_eq_some_iff.1 hmaterialized
  refine ⟨⟨s₃, hcreate⟩, ?_⟩
  obtain ⟨create, rfl, -⟩ := exists_of_word?_eq_some (by decide) (by decide) hcreate
  obtain ⟨blank, rfl⟩ := exists_of_many? hblank
  exact ((mentions_of_word? (by decide) (by decide) hmaterialized).append_left blank).append_left
    create

/-- A text with a clause mentions the second word of the clause. -/
theorem mentions_of_find? (h : find? s = some target) : Mentions "materialized" s := by
  induction s with
  | nil => cases h
  | cons c s ih =>
    rw [find?_cons, Option.or_eq_some_iff] at h
    rcases h with h | ⟨-, h⟩
    · exact (mentions_of_here? h).2
    · exact (ih h).append_left [c]

/-! ## Texts before a clause -/

theorem here?_eq_none (h : word? "create".toList s = none) : here? s = none := by
  rw [Option.eq_none_iff_forall_ne_some]
  intro target htarget
  obtain ⟨⟨rest, hrest⟩, -⟩ := mentions_of_here? htarget
  cases h.symm.trans hrest

/-- No word of the clause goes beyond a line feed. -/
theorem word?_append_lineFeed (hls : ls ⊆ alphabet) (line rest : List Char) :
    word? ls (line ++ '\n' :: rest) = (word? ls line).map (· ++ '\n' :: rest) := by
  induction ls generalizing line with
  | nil => rfl
  | cons l ls ih =>
    obtain ⟨hl, hls⟩ := List.cons_subset.1 hls
    cases line with
    | nil =>
      have hall : (alphabet.all fun l => !sameLetter l '\n') = true := by decide
      have hno : ¬ sameLetter l '\n' = true := by simpa using List.all_eq_true.1 hall l hl
      rw [List.nil_append, word?, if_neg hno]
      rfl
    | cons c line =>
      rw [List.cons_append, word?, word?, ih hls]
      split <;> rfl

theorem find?_line_append (hline : ¬ Mentions "create" line) (rest : List Char) :
    find? (line ++ '\n' :: rest) = find? rest := by
  have hhere : ∀ {line}, ¬ Mentions "create" line → here? (line ++ '\n' :: rest) = none := by
    intro line hline
    have hnone : word? "create".toList line = none := by
      rw [Option.eq_none_iff_forall_ne_some]
      exact fun _ hword => hline (mentions_of_word? (by decide) (by decide) hword)
    exact here?_eq_none (by rw [word?_append_lineFeed (by decide), hnone, Option.map_none])
  induction line with
  | nil =>
    have hnone := hhere hline
    rw [List.nil_append] at hnone ⊢
    rw [find?_cons, hnone, Option.none_or]
  | cons c line ih =>
    have hnone := hhere hline
    rw [List.cons_append] at hnone ⊢
    rw [find?_cons, hnone, Option.none_or, ih fun h => hline (h.append_left [c])]

/-- The first clause does not begin in a line that does not mention its first word. -/
theorem find?_lines_append (hlines : ∀ line ∈ lines, ¬ Mentions "create" line)
    {others : List (List Char)} (hothers : others ≠ []) :
    find? (['\n'].intercalate (lines ++ others)) = find? (['\n'].intercalate others) := by
  induction lines with
  | nil => rfl
  | cons line lines ih =>
    obtain ⟨hline, hlines⟩ := List.forall_mem_cons.1 hlines
    rw [List.cons_append,
      List.intercalate_cons_of_ne_nil (List.append_ne_nil_of_right_ne_nil _ hothers),
      List.append_assoc, List.singleton_append, find?_line_append hline, ih hlines]

theorem find?_blank_append {blank : List Char} (hblank : ∀ c ∈ blank, isBlankChar c = true)
    (s : List Char) : find? (blank ++ s) = find? s := by
  induction blank with
  | nil => rfl
  | cons c blank ih =>
    obtain ⟨hc, hblank⟩ := List.forall_mem_cons.1 hblank
    have hother : ¬ sameLetter 'c' c = true := fun hsame => by
      have hlower := toLower_eq_of_sameLetter (by decide) (by decide) hsame
      cases hc.symm.trans (isBlankChar_of_toLower (hlower ▸ by decide))
    have hnone : here? (c :: (blank ++ s)) = none := here?_eq_none (if_neg hother)
    rw [List.cons_append, find?_cons, hnone, Option.none_or, ih hblank]

/-! ## Comments apart from the clause -/

/-- The clause may be followed by anything that does not go on with its target. -/
theorem Clause.append (h : Clause target s) (hrest : ∀ c ∈ rest.head?, isNameChar c = false) :
    Clause target (s ++ rest) := by
  obtain ⟨hcreate, hmaterialized, hview, hexistence, hname, hblank, hcluster, hto, htarget, hend⟩ := h
  simp only [List.append_assoc]
  refine .intro hcreate hmaterialized hview hexistence hname hblank hcluster hto htarget ?_
  intro c hc
  rw [List.head?_append, Option.mem_def, Option.or_eq_some_iff] at hc
  rcases hc with hc | ⟨-, hc⟩
  · exact hend c hc
  · exact hrest c hc

theorem Clause.ne_nil (h : Clause target s) : s ≠ [] := by
  rintro rfl
  cases find?_of_clause h

/-- The comments of these lines are no part of a clause: there is no clause, or the first one
begins and ends within lines that are no comments. -/
inductive StandApart : List (List Char) → Prop where
  | unmentioned {lines : List (List Char)}
    (h : ∀ line ∈ lines, ¬ Mentions "materialized" line) : StandApart lines
  | around {before clause after : List (List Char)} {blank text target : List Char}
    (hbefore : ∀ line ∈ before, ¬ Mentions "create" line)
    (hcode : ∀ line ∈ clause, Comment.isComment line = false)
    (hlast : ∀ line ∈ clause.getLast?, line.all isBlankChar = false)
    (hlines : ['\n'].intercalate clause = blank ++ text)
    (hblank : ∀ c ∈ blank, isBlankChar c = true) (hclause : Clause target text) :
    StandApart (before ++ (clause ++ after))

/-- Behind lines without the first word of the clause, its target is found in those that the
clause stands in, whatever follows. -/
theorem find?_around {before clause : List (List Char)} {blank text : List Char}
    (hbefore : ∀ line ∈ before, ¬ Mentions "create" line)
    (hlines : ['\n'].intercalate clause = blank ++ text)
    (hblank : ∀ c ∈ blank, isBlankChar c = true) (hclause : Clause target text)
    (after : List (List Char)) :
    find? (['\n'].intercalate (before ++ (clause ++ after))) = some target := by
  have hne : clause ≠ [] := by
    rintro rfl
    exact hclause.ne_nil (List.append_eq_nil_iff.1 hlines.symm).2
  have hend : ∀ c ∈ (after.flatMap ('\n' :: ·)).head?, isNameChar c = false := by
    cases after with
    | nil => simp
    | cons line after =>
      rintro c ⟨⟩
      decide
  rw [find?_lines_append hbefore (List.append_ne_nil_of_left_ne_nil hne _),
    intercalate_append hne, hlines, List.append_assoc, find?_blank_append hblank,
    find?_of_clause (hclause.append hend)]

theorem find?_eq_none (h : ∀ line ∈ lines, ¬ Mentions "materialized" line) :
    find? (['\n'].intercalate lines) = none := by
  rw [Option.eq_none_iff_forall_ne_some]
  intro target htarget
  obtain ⟨line, hline, hmentions⟩ :=
    exists_mentions (by decide) (by decide) (mentions_of_find? htarget)
  exact h line hline hmentions

/-- Comments that stand apart from the clause neither hide a target nor name one. -/
theorem find?_strip (h : StandApart (s.splitOn '\n')) : find? (Comment.strip s) = find? s := by
  suffices hlines : find? (Comment.strip s) = find? (['\n'].intercalate (s.splitOn '\n')) by
    rwa [List.intercalate_splitOn] at hlines
  rw [Comment.strip]
  generalize s.splitOn '\n' = lines at h ⊢
  cases h with
  | unmentioned h =>
    rw [find?_eq_none h, find?_eq_none fun line hline => ?_]
    rcases Comment.mem_markLines_getD hline with rfl | ⟨hline, -⟩
    · exact not_mentions_nil (by decide)
    · exact h line hline
  | @around before clause after blank text target hbefore hcode hlast hlines hblank hclause =>
    obtain ⟨marks, hmarks, hmarked⟩ :=
      Comment.exists_foldr_absorb before (clause.map some ++ Comment.markLines after)
    have hbefore' : ∀ line ∈ marks.map (·.getD []), ¬ Mentions "create" line := fun line hline => by
      rcases hmarked line hline with rfl | ⟨hline, -⟩
      · exact not_mentions_nil (by decide)
      · exact hbefore line hline
    have hstripped : (Comment.markLines (before ++ (clause ++ after))).map (·.getD []) =
        marks.map (·.getD []) ++ (clause ++ (Comment.markLines after).map (·.getD [])) := by
      rw [Comment.markLines, List.foldr_append, List.foldr_append, ← Comment.markLines,
        Comment.foldr_absorb_of_code hcode fun _ => hlast, hmarks, List.map_append,
        List.map_append, Comment.map_getD_map_some]
    rw [hstripped, find?_around hbefore' hlines hblank hclause,
      find?_around hbefore hlines hblank hclause]

end ViewTarget

/-- The comments of a statement's text are no part of the clause that names a target. -/
def CommentsApart (query : String) : Prop :=
  ViewTarget.StandApart (query.toList.splitOn '\n')

/-- Comments apart from the clause leave the target as it is. -/
theorem viewTarget?_stripComments {query : String} (h : CommentsApart query) :
    viewTarget? (stripComments query) = viewTarget? query := by
  rw [viewTarget?, viewTarget?, stripComments, String.toList_ofList, ViewTarget.find?_strip h]

end DdlOrder
