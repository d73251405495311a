import DdlOrder.Proofs.Batch.Sections

/-!
# Printed batches

Decoding undoes what escaping does to a text (`Kdl.WrittenFor`). A batch is printed with one line
for each statement, and the text of the statement stands escaped on it, so the lines tell the
texts.

* `Kdl.writtenFor_escape`: what an escaped text looks like and what it stands for;
* `Batch.splitOn_print`: the lines of a printed batch;
* `Batch.print_injective`: they tell the texts of the statements;
* `Batch.escape_undone_by_decoding`: all of it together.
-/

namespace DdlOrder

namespace Kdl

/-- How `written` stands for the text `s` between the quotes of a string. -/
structure WrittenFor (s written : List Char) : Prop where
  /-- No character is a control character (the category Cc). -/
  no_control : ∀ c ∈ written, 0x20 ≤ c.toNat ∧ ¬ (0x7f ≤ c.toNat ∧ c.toNat ≤ 0x9f)
  /-- Each quote stands behind an odd run of backslashes. -/
  odd_before_quote : ∀ before after, written = before ++ '"' :: after →
    slashesAtEnd before % 2 = 1
  /-- The escape sequences stand for the text and for no other one. -/
  decodes_iff : ∀ t, Decodes written t ↔ t = s
  /-- The reader of documents finds the text. -/
  unescape?_eq : unescape? written = some s

theorem writtenFor_escape (s : List Char) : WrittenFor s (escape s) where
  no_control := by
    intro c hc
    have hcontrol := List.any_eq_false.1 (any_isControl_escape s) c hc
    simp only [isControl, Bool.or_eq_true, Bool.and_eq_true, decide_eq_true_eq] at hcontrol
    omega
  odd_before_quote := fun _ _ hquote => (quotedBody_escape s).odd_slashesAtEnd hquote
  decodes_iff := fun _ => ⟨fun h => h.unique (decodes_escape s), fun h => h ▸ decodes_escape s⟩
  unescape?_eq := unescape?_escape s

end Kdl

namespace Batch

/-- A printed batch has a line for each statement, ended by a line feed, and nothing else. -/
theorem splitOn_print (queries : List String) :
    (print queries).toList.splitOn '\n' =
      queries.map (fun query => (statementLine query).toList) ++ [[]] := by
  have hfeed : ∀ line ∈ queries.map statementLine, '\n' ∉ line.toList :=
    List.forall_mem_map.2 fun query _ =>
      notMem_of_hasControl (hasControl_statementLine query) (by decide)
  rw [print, splitOn_unlines hfeed, List.map_map]
  rfl

theorem print_injective : Function.Injective print := by
  intro queries queries' h
  have hlines : queries.map statementLine = queries'.map statementLine := by
    rw [← textLines_print, ← textLines_print, h]
  exact List.map_injective_iff.2 statementLine_injective hlines

theorem escape_undone_by_decoding :
    (∀ s : List Char, Kdl.WrittenFor s (escape s)) ∧ Function.Injective print ∧
      ∀ queries : List String, (print queries).toList.splitOn '\n' =
        queries.map (fun query => (statementLine query).toList) ++ [[]] :=
  ⟨Kdl.writtenFor_escape, print_injective, splitOn_print⟩

/-- The quote of this text has three backslashes before it: two for the backslash of the text and
one of its own. -/
theorem escape_undone_by_decoding_quote :
    escape ['\\', '"', '\x07'] = ['\\', '\\', '\\'] ++ '"' :: ['\\', 'u', '\x7b', '7', '\x7d'] ∧
      Kdl.slashesAtEnd ['\\', '\\', '\\'] % 2 = 1 :=
  ⟨by decide, (escape_undone_by_decoding.1 ['\\', '"', '\x07']).odd_before_quote
    ['\\', '\\', '\\'] ['\\', 'u', '\x7b', '7', '\x7d'] (by decide)⟩

end Batch

end DdlOrder
