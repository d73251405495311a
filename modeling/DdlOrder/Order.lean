import DdlOrder.Graph.OfStatements
import DdlOrder.Graph.Sort

/-!
# Ordering statements

The statements of a batch are put in an order in which each follows those it
depends on.

* `arrange_of_nodup`: at different positions, all statements are taken;
* `orderStatements_eq_error`: an order fails only for want of an order of the graph.
-/

namespace DdlOrder

/-- The way of comparing columns that a word names. -/
def Matching.parse (word : String) : Except Error Matching :=
  match Matching.ofWord? word with
  | some m => .ok m
  | none => .error (.unknownMatching word)

/-- The positions of a batch's statements, each after those it depends on. -/
def orderPositions (m : Matching) (statements : List Statement) :
    Except Error (List (Fin statements.length)) :=
  (Graph.ofStatements m statements).sort (statements.map (·.query))

/-- Takes the entries at these positions, one after the other. What has been taken is no
longer there to be taken again. -/
def takeEach {α : Type} {n : Nat} (slots : Vector (Option α) n) : List (Fin n) → List α
  | [] => []
  | i :: order => (slots.get i).toList ++ takeEach (slots.set i none i.isLt) order

theorem takeEach_of_nodup {α : Type} {n : Nat} {slots : Vector (Option α) n} {f : Fin n → α}
    {order : List (Fin n)} (horder : order.Nodup) (hslots : ∀ i ∈ order, slots.get i = some (f i)) :
    takeEach slots order = order.map f := by
  induction order generalizing slots with
  | nil => rfl
  | cons i order ih =>
    obtain ⟨hi, horder⟩ := List.nodup_cons.1 horder
    have hrest : ∀ j ∈ order, (slots.set i none i.isLt).get j = some (f j) := by
      intro j hj
      have hne : i.val ≠ j.val := fun e => hi (Fin.ext e ▸ hj)
      rw [get_eq_getElem, Vector.getElem_set_ne i.isLt j.isLt hne]
      exact hslots j (List.mem_cons_of_mem i hj)
    rw [takeEach, hslots i List.mem_cons_self, ih horder hrest]
    rfl

/-- The statements at these positions, in this order. -/
def arrange (statements : List Statement) : List (Fin statements.length) → List Statement :=
  takeEach (Vector.ofFn fun i => some (statements.get i))

theorem arrange_of_nodup {statements : List Statement} {order : List (Fin statements.length)}
    (h : order.Nodup) : arrange statements order = order.map statements.get := by
  refine takeEach_of_nodup h fun i _ => ?_
  rw [get_eq_getElem, Vector.getElem_ofFn]

/-- The statements, each after those it depends on. -/
def orderStatements (m : Matching) (statements : List Statement) :
    Except Error (List Statement) :=
  (orderPositions m statements).map (arrange statements)

/-- The texts of the statements, each after those it depends on. -/
def orderTexts (m : Matching) (statements : List Statement) : Except Error (List String) :=
  (orderStatements m statements).map (·.map (·.query))

theorem orderStatements_eq_error {m : Matching} {statements : List Statement} {e : Error}
    (h : orderStatements m statements = .error e) : orderPositions m statements = .error e := by
  unfold orderStatements at h
  cases ho : orderPositions m statements with
  | error e' => rw [ho] at h; cases h; rfl
  | ok l => rw [ho] at h; cases h

end DdlOrder
