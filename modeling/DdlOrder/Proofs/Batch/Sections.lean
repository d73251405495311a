import DdlOrder.Batch
import DdlOrder.Proofs.Kdl.Escape

/-!
# Printed dependencies

The dependencies of a batch are printed as one section for each statement (`Batch.Section`). As
the texts in it are escaped, a line is of one kind only and a section ends where its lines say,
so the sections can be told from the lines. If no two statements have the same text, they give
the statements and for each the positions of those it has to run after.

* `Batch.statementLine_append_inj`, `Batch.afterLine_injective`: a line tells its text;
* `Batch.flatMap_lines_injective`: the lines tell the sections;
* `Batch.ListsBefore.exists_section`, `Batch.ListsBefore.exists_positions`: what is listed under
  a statement has to run before it;
* `Batch.printDependencies_inj`: what is printed tells the statements and the positions.
-/

namespace DdlOrder

namespace Batch

/-! ## Lines -/

theorem statementLine_append_inj {query query' r r' : String}
    (h : statementLine query ++ r = statementLine query' ++ r') : query = query' ∧ r = r' := by
  rw [statementLine, statementLine, String.append_assoc, String.append_assoc,
    String.append_right_inj] at h
  exact stringLiteral_append_inj h

theorem statementLine_ne_append {r : String} (hr : r ≠ "") (query query' : String) :
    statementLine query ≠ statementLine query' ++ r := by
  intro h
  have hlines : statementLine query ++ "" = statementLine query' ++ r := by
    rwa [String.append_empty]
  exact hr (statementLine_append_inj hlines).2.symm

theorem statementLine_injective : Function.Injective statementLine := by
  intro query query' h
  have hlines : statementLine query ++ "" = statementLine query' ++ "" := by rw [h]
  exact (statementLine_append_inj hlines).1

theorem afterLine_injective : Function.Injective afterLine := by
  intro query query' h
  rw [afterLine, afterLine, String.append_right_inj] at h
  have hliterals : stringLiteral query ++ "" = stringLiteral query' ++ "" := by rw [h]
  exact (stringLiteral_append_inj hliterals).1

theorem head?_statementLine (query r : String) :
    (statementLine query ++ r).toList.head? = some 's' := by
  rw [statementLine, String.append_assoc, String.toList_append]
  rfl

theorem head?_afterLine (query : String) : (afterLine query).toList.head? = some ' ' := by
  rw [afterLine, String.toList_append]
  rfl

theorem ne_of_head?_ne {s t : String} (h : s.toList.head? ≠ t.toList.head?) : s ≠ t :=
  fun e => h (by rw [e])

theorem statementLine_append_ne_afterLine (query r query' : String) :
    statementLine query ++ r ≠ afterLine query' :=
  ne_of_head?_ne (by rw [head?_statementLine, head?_afterLine]; decide)

theorem statementLine_append_ne_close (query r : String) : statementLine query ++ r ≠ "\x7d" :=
  ne_of_head?_ne (by rw [head?_statementLine]; decide)

theorem afterLine_ne_close (query : String) : afterLine query ≠ "\x7d" :=
  ne_of_head?_ne (by rw [head?_afterLine]; decide)

theorem hasControl_statementLine (query : String) : hasControl (statementLine query) = false := by
  rw [statementLine, hasControl_append, hasControl_stringLiteral]
  decide

theorem hasControl_afterLine (query : String) : hasControl (afterLine query) = false := by
  rw [afterLine, hasControl_append, hasControl_stringLiteral]
  decide

theorem textLines_print (queries : List String) :
    textLines (print queries) = queries.map statementLine :=
  textLines_unlines (List.forall_mem_map.2 fun query _ => hasControl_statementLine query)

/-! ## Sections -/

/-- A statement and those it has to run after, by their texts. -/
structure Section where
  query : String
  before : List String

/-- The lines of a section. -/
def Section.lines (s : Section) : List String :=
  if s.before.isEmpty then [statementLine s.query]
  else (statementLine s.query ++ " \x7b") :: s.before.map afterLine ++ ["\x7d"]

theorem Section.lines_cons (query first : String) (others : List String) :
    Section.lines { query, before := first :: others } =
      (statementLine query ++ " \x7b") :: (first :: others).map afterLine ++ ["\x7d"] := rfl

theorem Section.hasControl_of_mem_lines (s : Section) :
    ∀ line ∈ s.lines, hasControl line = false := by
  have hopening : hasControl (statementLine s.query ++ " \x7b") = false := by
    rw [hasControl_append, hasControl_statementLine]
    decide
  rw [Section.lines]
  split
  · simp [hasControl_statementLine]
  · simp only [List.cons_append, List.mem_cons, List.mem_append, List.mem_map, List.not_mem_nil,
      or_false]
    rintro line (rfl | ⟨query, -, rfl⟩ | rfl)
    · exact hopening
    · exact hasControl_afterLine query
    · decide

/-- Where a list goes on with something that is no image, it tells what it was made of. -/
theorem map_append_cons_inj {α β : Type} {f : α → β} {e : β} (hf : Function.Injective f)
    (he : ∀ a, f a ≠ e) {as bs : List α} {rest rest' : List β}
    (h : as.map f ++ e :: rest = bs.map f ++ e :: rest') : as = bs ∧ rest = rest' := by
  induction as generalizing bs with
  | nil =>
    cases bs with
    | nil => exact ⟨rfl, (List.cons.inj h).2⟩
    | cons b bs => exact absurd (List.cons.inj h).1.symm (he b)
  | cons a as ih =>
    cases bs with
    | nil => exact absurd (List.cons.inj h).1 (he a)
    | cons b bs =>
      obtain ⟨hhead, htail⟩ := List.cons.inj h
      obtain ⟨rfl, hrest⟩ := ih htail
      exact ⟨by rw [hf hhead], hrest⟩

/-- A section ends where its lines say. -/
theorem Section.lines_append_inj {a b : Section} {rest rest' : List String}
    (h : a.lines ++ rest = b.lines ++ rest') : a = b ∧ rest = rest' := by
  obtain ⟨query, before⟩ := a
  obtain ⟨query', before'⟩ := b
  cases before with
  | nil =>
    cases before' with
    | nil =>
      obtain ⟨hquery, hrest⟩ := List.cons.inj h
      cases statementLine_injective hquery
      exact ⟨rfl, hrest⟩
    | cons first others =>
      exact absurd (List.cons.inj h).1 (statementLine_ne_append (by decide) query query')
  | cons first others =>
    cases before' with
    | nil =>
      exact absurd (List.cons.inj h).1.symm (statementLine_ne_append (by decide) query' query)
    | cons first' others' =>
      rw [Section.lines_cons, Section.lines_cons, List.append_assoc, List.append_assoc,
        List.cons_append, List.cons_append] at h
      obtain ⟨hquery, hbefore⟩ := List.cons.inj h
      obtain ⟨rfl, -⟩ := statementLine_append_inj hquery
      obtain ⟨hbefore, hrest⟩ := map_append_cons_inj afterLine_injective afterLine_ne_close hbefore
      exact ⟨by rw [hbefore], hrest⟩

theorem Section.lines_ne_nil (s : Section) : s.lines ≠ [] := by
  rw [Section.lines]
  split <;> exact List.cons_ne_nil _ _

/-- The lines tell the sections. -/
theorem flatMap_lines_injective :
    Function.Injective fun sections : List Section => sections.flatMap Section.lines := by
  intro sections
  induction sections with
  | nil =>
    intro others h
    cases others with
    | nil => rfl
    | cons b others => exact absurd (List.append_eq_nil_iff.1 h.symm).1 b.lines_ne_nil
  | cons a sections ih =>
    intro others h
    cases others with
    | nil => exact absurd (List.append_eq_nil_iff.1 h).1 a.lines_ne_nil
    | cons b others =>
      obtain ⟨rfl, hrest⟩ := Section.lines_append_inj h
      exact congrArg (a :: ·) (ih hrest)

/-! ## What is listed under a statement -/

/-- The lines list the text `p` under the statement `s`: its line is one of those that follow the
opening line of `s`. -/
def ListsBefore (lines : List String) (p s : String) : Prop :=
  ∃ others, ((statementLine s ++ " \x7b") :: (others ++ [p]).map afterLine) <:+: lines

theorem ListsBefore.exists_section {sections : List Section} {p s : String}
    (h : ListsBefore (sections.flatMap Section.lines) p s) :
    ∃ a ∈ sections, a.query = s ∧ p ∈ a.before := by
  obtain ⟨others, h⟩ := h
  have hclose : "\x7d" ∉ (statementLine s ++ " \x7b") :: (others ++ [p]).map afterLine := by
    rw [List.mem_cons, List.mem_map, not_or]
    exact ⟨(statementLine_append_ne_close s _).symm, fun ⟨q, _, hq⟩ => afterLine_ne_close q hq⟩
  induction sections with
  | nil => cases List.infix_nil.1 h
  | cons a sections ih =>
    have hlater : ((statementLine s ++ " \x7b") :: (others ++ [p]).map afterLine) <:+:
        sections.flatMap Section.lines → ∃ b ∈ a :: sections, b.query = s ∧ p ∈ b.before := by
      intro h
      obtain ⟨b, hb, hsection⟩ := ih h
      exact ⟨b, List.mem_cons_of_mem a hb, hsection⟩
    obtain ⟨query, before⟩ := a
    rw [List.flatMap_cons] at h
    cases before with
    | nil =>
      rcases List.infix_cons_iff.1 h with hhere | h
      · exact absurd (List.cons_prefix_cons.1 hhere).1.symm
          (statementLine_ne_append (by decide) query s)
      · exact hlater h
    | cons first more =>
      rw [Section.lines_cons, List.append_assoc] at h
      -- None of the listed lines closes a section, so they all stand in this one or behind it.
      rcases infix_or_infix_of_infix_append_cons hclose h with h | h
      · refine ⟨_, List.mem_cons_self, ?_⟩
        rcases List.infix_cons_iff.1 h with hhere | h
        · obtain ⟨hquery, hbefore⟩ := List.cons_prefix_cons.1 hhere
          have hp : afterLine p ∈ (first :: more).map afterLine :=
            hbefore.subset (List.mem_map_of_mem (List.mem_append_right _ List.mem_cons_self))
          exact ⟨(statementLine_append_inj hquery).1.symm,
            (List.mem_map_of_injective afterLine_injective).1 hp⟩
        · obtain ⟨q, -, hq⟩ := List.mem_map.1 (h.subset List.mem_cons_self)
          exact absurd hq.symm (statementLine_append_ne_afterLine s _ q)
      · exact hlater h

/-! ## The sections of a batch -/

/-- Each statement has its list of positions, and there is a statement at each of them. -/
structure Fits (queries : List String) (parents : List (List Nat)) : Prop where
  length_eq : parents.length = queries.length
  lt_length : ∀ before ∈ parents, ∀ i ∈ before, i < queries.length

/-- The sections of a batch. -/
def sections (queries : List String) (parents : List (List Nat)) : List Section :=
  queries.zipIdx.map fun q =>
    { query := q.1, before := (parents[q.2]?.getD []).filterMap (queries[·]?) }

section Fits

variable {queries queries' : List String} {parents parents' : List (List Nat)}

theorem Fits.lt_of_mem_getD (h : Fits queries parents) {k i : Nat}
    (hi : i ∈ parents[k]?.getD []) : i < queries.length := by
  cases hk : parents[k]? with
  | none =>
    rw [hk] at hi
    cases hi
  | some before =>
    rw [hk] at hi
    exact h.lt_length before (List.mem_of_getElem? hk) i hi

theorem dependencyLines_eq {before : List Nat} (h : ∀ i ∈ before, i < queries.length)
    (query : String) : dependencyLines queries query before =
      Section.lines { query, before := before.filterMap (queries[·]?) } := by
  have hempty : (before.filterMap (queries[·]?)).isEmpty = before.isEmpty := by
    cases before with
    | nil => rfl
    | cons i before =>
      rw [List.filterMap_cons_some (List.getElem?_eq_getElem (h i List.mem_cons_self))]
      rfl
  rw [dependencyLines, Section.lines, hempty]

theorem printDependencies_eq (h : Fits queries parents) :
    printDependencies queries parents =
      unlines ((sections queries parents).flatMap Section.lines) := by
  rw [printDependencies, sections, List.flatMap_map]
  refine congrArg (fun f => unlines (queries.zipIdx.flatMap f)) (funext fun q => ?_)
  exact dependencyLines_eq (fun i => h.lt_of_mem_getD) q.1

theorem textLines_printDependencies (h : Fits queries parents) :
    textLines (printDependencies queries parents) =
      (sections queries parents).flatMap Section.lines := by
  rw [printDependencies_eq h]
  refine textLines_unlines fun line hline => ?_
  obtain ⟨s, -, hs⟩ := List.mem_flatMap.1 hline
  exact s.hasControl_of_mem_lines line hs

theorem map_query_sections (queries : List String) (parents : List (List Nat)) :
    (sections queries parents).map (·.query) = queries := by
  rw [sections, List.map_map]
  exact List.zipIdx_map_fst 0 queries

theorem map_idxOf_filterMap (hqueries : queries.Nodup) {before : List Nat}
    (h : ∀ i ∈ before, i < queries.length) :
    (before.filterMap (queries[·]?)).map queries.idxOf = before := by
  induction before with
  | nil => rfl
  | cons i before ih =>
    obtain ⟨hi, hbefore⟩ := List.forall_mem_cons.1 h
    rw [List.filterMap_cons_some (List.getElem?_eq_getElem hi), List.map_cons, ih hbefore,
      hqueries.idxOf_getElem i hi]

/-- Where each text stands once, the sections tell the positions. -/
theorem map_before_sections (hqueries : queries.Nodup) (h : Fits queries parents) :
    (sections queries parents).map (fun s => s.before.map queries.idxOf) = parents := by
  have hlists : (sections queries parents).map (fun s => s.before.map queries.idxOf) =
      queries.zipIdx.map fun q => parents[q.2]?.getD [] := by
    rw [sections, List.map_map]
    exact List.map_congr_left fun q _ => map_idxOf_filterMap hqueries fun i => h.lt_of_mem_getD
  rw [hlists]
  refine List.ext_getElem (by simp [h.length_eq]) fun k hk hk' => ?_
  simp [hk']

/-- What is printed tells the statements, their order, and which of them each has to run after. -/
theorem printDependencies_inj (hqueries : queries.Nodup) (h : Fits queries parents)
    (h' : Fits queries' parents')
    (hprint : printDependencies queries parents = printDependencies queries' parents') :
    queries = queries' ∧ parents = parents' := by
  have hlines := congrArg textLines hprint
  rw [textLines_printDependencies h, textLines_printDependencies h'] at hlines
  have hsections : sections queries parents = sections queries' parents' :=
    flatMap_lines_injective hlines
  have hqueries' := map_query_sections queries parents
  rw [hsections, map_query_sections] at hqueries'
  subst hqueries'
  rw [← map_before_sections hqueries h, ← map_before_sections hqueries h', hsections]
  exact ⟨rfl, rfl⟩

theorem exists_of_mem_sections {s : Section} (h : s ∈ sections queries parents) :
    ∃ j : Nat, queries[j]? = some s.query ∧
      s.before = (parents[j]?.getD []).filterMap (queries[·]?) := by
  obtain ⟨⟨query, j⟩, hq, rfl⟩ := List.mem_map.1 h
  exact ⟨j, List.mem_zipIdx_iff_getElem?.1 hq, rfl⟩

/-- Where a text is listed under a statement, these are the texts at two positions of which one
has to run after the other. -/
theorem ListsBefore.exists_positions {p s : String}
    (h : ListsBefore (textLines (printDependencies queries parents)) p s)
    (hfits : Fits queries parents) : ∃ i j : Nat, ∃ before, parents[j]? = some before ∧
      i ∈ before ∧ queries[i]? = some p ∧ queries[j]? = some s := by
  rw [textLines_printDependencies hfits] at h
  obtain ⟨a, ha, rfl, hp⟩ := h.exists_section
  obtain ⟨j, hj, hbefore⟩ := exists_of_mem_sections ha
  rw [hbefore, List.mem_filterMap] at hp
  obtain ⟨i, hi, hp⟩ := hp
  cases hlist : parents[j]? with
  | none =>
    rw [hlist] at hi
    cases hi
  | some before =>
    rw [hlist] at hi
    exact ⟨i, j, before, hlist, hi, hp, hj⟩

end Fits

end Batch

end DdlOrder
