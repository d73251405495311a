import DdlOrder.Proofs.Graph.TieBreak
import DdlOrder.Proofs.Order.Cycles

/-!
# Statements that do not depend on each other

Two statements may have no dependency between them, not even by way of others
(`Graph.Unrelated`). They need not keep their input order: a statement that becomes ready is
placed behind those that have been ready for longer, wherever it stands in the input. No order
at all keeps every such pair once a statement waits for a later one and one between the two has
to do with neither (`Graph.Unrelated.not_all_kept`).

What decides is the release (`Graph.release_le_release_iff`). The statement that stands first in
the input is placed first unless it waits for one that is placed behind all that the other waits
for. So it is placed first if whatever it waits for comes before the other one, too
(`unrelated_placed_by_release`).
-/

namespace DdlOrder

open Relation (TransGen)

namespace Graph

variable {n : Nat} {g : Graph n} {order : List (Fin n)} {x y z : Fin n}

/-- Neither of two positions comes before the other, be it by way of others. -/
structure Unrelated (g : Graph n) (x y : Fin n) : Prop where
  not_before : ¬ TransGen g.Edge x y
  not_after : ¬ TransGen g.Edge y x

theorem not_transGen_of_dependents_eq_nil (h : g.dependents.get x = []) :
    ¬ TransGen g.Edge x y := by
  intro hxy
  obtain ⟨z, hxz, -⟩ := TransGen.head'_iff.1 hxy
  rw [Edge, h] at hxz
  cases hxz

/-- Where `x` waits for a later position `z`, and `y` between the two has to do with neither, an
order that keeps the input order of all such pairs would place `x` before itself. -/
theorem Unrelated.not_all_kept (hxy : g.Unrelated x y) (hyz : g.Unrelated y z) (hlt : x < y)
    (hlt' : y < z) (hzx : g.Edge z x) (hedges : ∀ i j, g.Edge i j → order.idxOf i < order.idxOf j) :
    ¬ ∀ i j, i < j → g.Unrelated i j → order.idxOf i < order.idxOf j := by
  intro hkept
  have hplaced : order.idxOf x < order.idxOf z :=
    Nat.lt_trans (hkept x y hlt hxy) (hkept y z hlt' hyz)
  exact Nat.lt_asymm hplaced (hedges z x hzx)

/-! ## What is released first -/

theorem le_release_iff {k : Nat} :
    (k : Int) ≤ g.release order x ↔ ∃ p ∈ g.parents.get x, k ≤ order.idxOf p := by
  rw [← not_lt, release_lt_iff]
  push Not
  rfl

/-- Nothing that `x` waits for is placed behind all that `y` waits for. -/
theorem release_le_release_iff :
    g.release order x ≤ g.release order y ↔
      ∀ p ∈ g.parents.get x, ∃ q ∈ g.parents.get y, order.idxOf p ≤ order.idxOf q := by
  have hstart : -1 ≤ g.release order y := (release_le_iff.1 le_rfl).1
  rw [release_le_iff, and_iff_right hstart]
  exact forall₂_congr fun p _ => le_release_iff

theorem FirstReadyFirst.idxOf_lt_iff_release_le (h : g.FirstReadyFirst order) (hxy : x < y) :
    order.idxOf x < order.idxOf y ↔ g.release order x ≤ g.release order y := by
  rw [h.idxOf_lt_iff]
  refine ⟨release_le_of_turn_lt, fun hle => ?_⟩
  exact Prod.Lex.toLex_lt_toLex'.2 ⟨hle, fun _ => hxy⟩

/-- What comes before `y` by some way is placed no later than the last that `y` waits for. -/
theorem Mirrored.exists_le_of_transGen (hg : g.Mirrored) (hplaced : y ∈ g.placed)
    (h : TransGen g.Edge x y) :
    ∃ q, g.Edge q y ∧ g.placed.idxOf x ≤ g.placed.idxOf q := by
  obtain ⟨q, hxq, hqy⟩ := TransGen.tail'_iff.1 h
  refine ⟨q, hqy, ?_⟩
  rcases Relation.reflTransGen_iff_eq_or_transGen.1 hxq with rfl | hxq
  · exact Nat.le_refl _
  · exact Nat.le_of_lt (hg.idxOf_placed_lt_of_transGen hxq (hg.mem_placed_of_edge hqy hplaced))

end Graph

/-! ## Statements of a batch -/

variable {m : Matching} {statements ordered : List Statement}

namespace Arranged

variable {order : List (Fin statements.length)} {i j : Fin statements.length}

/-- The first of two statements in the input is placed first unless it waits for one that is
placed behind all that the second waits for. -/
theorem idxOf_lt_iff (h : Arranged m statements ordered order) (hij : i < j) :
    order.idxOf i < order.idxOf j ↔
      ∀ p, (Graph.ofStatements m statements).Edge p i →
        ∃ q, (Graph.ofStatements m statements).Edge q j ∧ order.idxOf p ≤ order.idxOf q := by
  have hg := Graph.mirrored_ofStatements m statements
  obtain ⟨hacyclic, rfl⟩ := orderPositions_eq_ok_iff.1 h.positions
  rw [(Graph.firstReadyFirst_placed hg hacyclic).idxOf_lt_iff_release_le hij,
    Graph.release_le_release_iff]
  simp only [hg.mem_parents]

theorem idxOf_lt_of_transGen (h : Arranged m statements ordered order) (hij : i < j)
    (hbefore : ∀ p, (Graph.ofStatements m statements).Edge p i →
      TransGen (Graph.ofStatements m statements).Edge p j) : order.idxOf i < order.idxOf j := by
  have hmem := h.mem j
  refine (h.idxOf_lt_iff hij).2 fun p hp => ?_
  obtain ⟨-, rfl⟩ := orderPositions_eq_ok_iff.1 h.positions
  exact (Graph.mirrored_ofStatements m statements).exists_le_of_transGen hmem (hbefore p hp)

end Arranged

/-- Of two statements that do not depend on each other, the first in the input is placed first
unless it waits for one that is placed behind all that the second waits for. So it is placed
first where all that it waits for comes before the second, too, and where it waits for none. -/
theorem unrelated_placed_by_release (h : orderStatements m statements = .ok ordered) :
    let before := (Graph.ofStatements m statements).Edge
    ∃ order : List (Fin statements.length), Arranged m statements ordered order ∧
      ∀ i j, i < j → (Graph.ofStatements m statements).Unrelated i j →
        (order.idxOf i < order.idxOf j ↔
          ∀ p, before p i → ∃ q, before q j ∧ order.idxOf p ≤ order.idxOf q) ∧
        ((∀ p, before p i → TransGen before p j) → order.idxOf i < order.idxOf j) := by
  intro before
  obtain ⟨order, harranged⟩ := exists_arranged h
  exact ⟨order, harranged, fun i j hij _ =>
    ⟨harranged.idxOf_lt_iff hij, harranged.idxOf_lt_of_transGen hij⟩⟩

/-- A view that waits for the last table comes behind the other table, too. -/
theorem unrelated_placed_by_release_view :
    let viewLines := ["CreateQuery  v (children 2)", " Identifier v", " TableIdentifier t"]
    let otherLines := ["CreateQuery  u (children 1)", " Identifier u"]
    let createLines := ["CreateQuery  t (children 1)", " Identifier t"]
    ∃ view other create ordered,
      Statement.ofDump "create view v as select a from t" viewLines = .ok view ∧
      Statement.ofDump "create table u (b Int64)" otherLines = .ok other ∧
      Statement.ofDump "create table t (a Int64)" createLines = .ok create ∧
      orderStatements .name [view, other, create] = .ok ordered ∧
      let graph := Graph.ofStatements .name [view, other, create]
      ∃ order : List (Fin 3), Arranged .name [view, other, create] ordered order ∧
        ∀ i j, i < j → graph.Unrelated i j →
          (order.idxOf i < order.idxOf j ↔
            ∀ p, graph.Edge p i → ∃ q, graph.Edge q j ∧ order.idxOf p ≤ order.idxOf q) ∧
          ((∀ p, graph.Edge p i → TransGen graph.Edge p j) →
            order.idxOf i < order.idxOf j) := by
  intro viewLines otherLines createLines
  have hrun : (match Statement.ofDump "create view v as select a from t" viewLines,
        Statement.ofDump "create table u (b Int64)" otherLines,
        Statement.ofDump "create table t (a Int64)" createLines with
      | .ok view, .ok other, .ok create => (orderStatements .name [view, other, create]).isOk
      | _, _, _ => false) = true := by decide +kernel
  split at hrun
  case h_2 => cases hrun
  rename_i view other create hview hother hcreate
  obtain ⟨ordered, hordered⟩ := exists_eq_ok_of_isOk hrun
  exact ⟨view, other, create, ordered, hview, hother, hcreate, hordered,
    unrelated_placed_by_release hordered⟩

/-- A batch that follows its dependencies as it is, with a table that nothing else has to do with
at its end: the table is placed before the view, although the view stands before it in the
input. -/
theorem unrelated_placed_against_input :
    let createLines := ["CreateQuery  t (children 1)", " Identifier t"]
    let viewLines := ["CreateQuery  v (children 2)", " Identifier v", " TableIdentifier t"]
    let otherLines := ["CreateQuery  u (children 1)", " Identifier u"]
    ∃ create view other,
      Statement.ofDump "create table t (a Int64)" createLines = .ok create ∧
      Statement.ofDump "create view v as select a from t" viewLines = .ok view ∧
      Statement.ofDump "create table u (b Int64)" otherLines = .ok other ∧
      (Graph.ofStatements .name [create, view, other]).Unrelated 1 2 ∧
      ∃ ordered, orderStatements .name [create, view, other] = .ok ordered ∧
        ∃ order : List (Fin 3), Arranged .name [create, view, other] ordered order ∧
          ¬ order.idxOf 1 < order.idxOf 2 := by
  intro createLines viewLines otherLines
  have hrun : (match Statement.ofDump "create table t (a Int64)" createLines,
        Statement.ofDump "create view v as select a from t" viewLines,
        Statement.ofDump "create table u (b Int64)" otherLines with
      | .ok create, .ok view, .ok other =>
        let graph := Graph.ofStatements .name [create, view, other]
        (graph.dependents.get (1 : Fin 3)).isEmpty && (graph.dependents.get (2 : Fin 3)).isEmpty &&
          (match orderPositions .name [create, view, other] with
            | .ok order => decide (order = ([0, 2, 1] : List (Fin 3)))
            | .error _ => false)
      | _, _, _ => false) = true := by decide +kernel
  split at hrun
  case h_2 => cases hrun
  rename_i create view other hcreate hview hother
  simp only [Bool.and_eq_true, List.isEmpty_iff] at hrun
  obtain ⟨⟨hone, htwo⟩, hsort⟩ := hrun
  split at hsort
  case h_2 => cases hsort
  rename_i found hfound
  obtain ⟨ordered, hordered⟩ := exists_ordered_iff.2 (orderPositions_eq_ok_iff.1 hfound).1
  obtain ⟨order, harranged⟩ := exists_arranged hordered
  refine ⟨create, view, other, hcreate, hview, hother, ⟨?_, ?_⟩, ordered, hordered, order,
    harranged, ?_⟩
  · exact Graph.not_transGen_of_dependents_eq_nil hone
  · exact Graph.not_transGen_of_dependents_eq_nil htwo
  · have horder : order = found := Except.ok.inj (harranged.positions.symm.trans hfound)
    rw [horder, of_decide_eq_true hsort]
    decide

end DdlOrder
