import DdlOrder.Text.Basic
import DdlOrder.Text.Escape
import Mathlib.Data.List.Infix

/-!
# Lines, split and joined

* `mem_of_mem_splitOn`, `intercalate_cons`, `intercalate_append`: the characters of a line, and
  lines joined by line feeds;
* `infix_or_infix_of_infix_append_cons`: what lacks an element stands on one side of it;
* `splitOn_unlines`: lines without line feeds are the pieces of their text between its line feeds;
* `textLines_unlines`: lines without control characters are the lines of their text.
-/

namespace DdlOrder

variable {line s : List Char} {lines : List (List Char)}

/-! ## Splitting and joining -/

/-- The characters of a line are characters of the text other than the line feed. -/
theorem mem_of_mem_splitOn {c : Char} (hline : line ∈ s.splitOn '\n') (hc : c ∈ line) :
    c ∈ s ∧ c ≠ '\n' := by
  induction s generalizing line with
  | nil =>
    rw [List.splitOn_nil, List.mem_singleton] at hline
    subst hline
    cases hc
  | cons d s ih =>
    have hrest : ∀ {line}, line ∈ s.splitOn '\n' → c ∈ line → c ∈ d :: s ∧ c ≠ '\n' :=
      fun hline hc => ⟨List.mem_cons_of_mem d (ih hline hc).1, (ih hline hc).2⟩
    rw [List.splitOn_cons_eq_if_modifyHead] at hline
    split at hline
    · rcases List.mem_cons.1 hline with rfl | hline
      · cases hc
      · exact hrest hline hc
    · rename_i hd
      obtain ⟨first, others, hsplit⟩ := List.exists_cons_of_ne_nil (List.splitOn_ne_nil '\n' s)
      rw [hsplit, List.modifyHead_cons] at hline
      rcases List.mem_cons.1 hline with rfl | hline
      · rcases List.mem_cons.1 hc with rfl | hc
        · exact ⟨List.mem_cons_self, by simpa using hd⟩
        · exact hrest (hsplit ▸ List.mem_cons_self) hc
      · exact hrest (hsplit ▸ List.mem_cons_of_mem first hline) hc

/-- Each line but the first stands behind a line feed. -/
theorem intercalate_cons (line : List Char) (lines : List (List Char)) :
    ['\n'].intercalate (line :: lines) = line ++ lines.flatMap ('\n' :: ·) := by
  induction lines generalizing line with
  | nil => rw [List.intercalate_singleton, List.flatMap_nil, List.append_nil]
  | cons second lines ih =>
    rw [List.intercalate_cons_cons, ih, List.append_assoc, List.flatMap_cons]
    rfl

theorem intercalate_append (h : lines ≠ []) (others : List (List Char)) :
    ['\n'].intercalate (lines ++ others) =
      ['\n'].intercalate lines ++ others.flatMap ('\n' :: ·) := by
  obtain ⟨line, lines, rfl⟩ := List.exists_cons_of_ne_nil h
  rw [List.cons_append, intercalate_cons, intercalate_cons, List.flatMap_append, List.append_assoc]

/-! ## Words between separators -/

section Infix

variable {α : Type} {x : α} {w b : List α} (hx : x ∉ w)

include hx

theorem prefix_of_prefix_append_cons {a : List α} (h : w <+: a ++ x :: b) : w <+: a := by
  induction a generalizing w with
  | nil =>
    rcases List.prefix_cons_iff.1 h with rfl | ⟨t, rfl, -⟩
    · exact List.nil_prefix
    · exact absurd List.mem_cons_self hx
  | cons y a ih =>
    rcases List.prefix_cons_iff.1 h with rfl | ⟨t, rfl, ht⟩
    · exact List.nil_prefix
    · exact List.cons_prefix_cons.2 ⟨rfl, ih (fun hmem => hx (List.mem_cons_of_mem y hmem)) ht⟩

/-- What lacks an element stands on one side of it. -/
theorem infix_or_infix_of_infix_append_cons {a : List α} (h : w <:+: a ++ x :: b) :
    w <:+: a ∨ w <:+: b := by
  induction a with
  | nil =>
    rcases List.infix_cons_iff.1 h with h | h
    · exact .inl (prefix_of_prefix_append_cons hx h).isInfix
    · exact .inr h
  | cons y a ih =>
    rcases List.infix_cons_iff.1 h with h | h
    · exact .inl (prefix_of_prefix_append_cons (a := y :: a) hx h).isInfix
    · exact (ih h).imp_left List.infix_cons

end Infix

/-! ## Texts of lines -/

/-- Whether the text has a control character. -/
def hasControl (s : String) : Bool := s.toList.any isControl

theorem hasControl_append (s t : String) :
    hasControl (s ++ t) = (hasControl s || hasControl t) := by
  rw [hasControl, String.toList_append, List.any_append]
  rfl

theorem notMem_of_hasControl {s : String} {c : Char} (h : hasControl s = false)
    (hc : isControl c = true) : c ∉ s.toList :=
  fun hmem => List.any_eq_false.1 h c hmem hc

theorem dropReturn_of_notMem (h : '\r' ∉ line) : dropReturn line = line :=
  if_neg fun hlast => h (List.mem_of_getLast? hlast)

/-- Lines without line feeds are the pieces of their text between its line feeds, and nothing
stands behind the last one. -/
theorem splitOn_unlines {lines : List String} (h : ∀ line ∈ lines, '\n' ∉ line.toList) :
    (unlines lines).toList.splitOn '\n' = lines.map String.toList ++ [[]] := by
  induction lines with
  | nil => rfl
  | cons line lines ih =>
    obtain ⟨hline, hlines⟩ := List.forall_mem_cons.1 h
    have htext : (unlines (line :: lines)).toList =
        line.toList ++ '\n' :: (unlines lines).toList := by
      rw [unlines_cons, String.toList_append, String.toList_append, List.append_assoc]
      rfl
    rw [htext, List.splitOn_append_cons_self_of_not_mem hline, ih hlines]
    rfl

theorem linesOf_append_nil (h : ∀ line ∈ lines, '\r' ∉ line) : linesOf (lines ++ [[]]) = lines := by
  induction lines with
  | nil => rfl
  | cons line lines ih =>
    obtain ⟨hline, hlines⟩ := List.forall_mem_cons.1 h
    obtain ⟨next, others, hnext⟩ := List.exists_cons_of_ne_nil
      (List.append_ne_nil_of_right_ne_nil lines (List.cons_ne_nil [] []))
    rw [List.cons_append, hnext, linesOf_cons_line, dropReturn_of_notMem hline, ← hnext, ih hlines]

/-- Lines without control characters are the lines of their text. -/
theorem textLines_unlines {lines : List String} (h : ∀ line ∈ lines, hasControl line = false) :
    textLines (unlines lines) = lines := by
  have hfeed : ∀ line ∈ lines, '\n' ∉ line.toList := fun line hline =>
    notMem_of_hasControl (h line hline) (by decide)
  have hreturn : ∀ line ∈ lines.map String.toList, '\r' ∉ line :=
    List.forall_mem_map.2 fun line hline => notMem_of_hasControl (h line hline) (by decide)
  rw [textLines, splitOn_unlines hfeed, linesOf_append_nil hreturn, List.map_map]
  exact List.map_id'' (fun _ => String.ofList_toList) lines

end DdlOrder
