import DdlOrder.Graph.OfStatements
import DdlOrder.Proofs.Graph.Mirror

/-!
# The edges among the statements of a batch

Comparing all pairs of statements gives a graph with an edge from one statement to
another exactly where some rule makes the one run before the other
(`Graph.edge_ofStatements`). No statement has an edge to itself
(`Graph.not_edge_ofStatements_self`).
-/

namespace DdlOrder

namespace Relating

variable {n : Nat} {m : Matching} {facts : Vector Facts n}

/-- Some rule makes the statement at `i` run before the one at `j`. -/
def Relates (m : Matching) (facts : Vector Facts n) (i j : Fin n) : Prop :=
  i ≠ j ∧ ∃ r, Rule.holds m (facts.get i) (facts.get j) r = true

/-- Comparing a pair adds its edge, if there is a reason to, and nothing else. -/
theorem edge_consider (r : Relating n) (pair : Fin n × Fin n) (i j : Fin n) :
    (r.consider m facts pair).graph.Edge i j ↔
      r.graph.Edge i j ∨ (pair = (i, j) ∧ Relates m facts i j) := by
  obtain ⟨a, b⟩ := pair
  simp only [Prod.mk.injEq, consider, Relates]
  split
  · rename_i hab
    refine (or_iff_left ?_).symm
    rintro ⟨⟨rfl, rfl⟩, hne, -⟩
    exact hne hab
  · rename_i hab
    have hsome : (Rule.firstBetween? m facts[a] facts[b]).isSome ↔
        ∃ r, Rule.holds m (facts.get a) (facts.get b) r = true :=
      Rule.firstBetween?_isSome m (facts.get a) (facts.get b)
    split
    · rename_i hnone
      rw [hnone] at hsome
      refine (or_iff_left ?_).symm
      rintro ⟨⟨rfl, rfl⟩, -, hrule⟩
      cases hsome.2 hrule
    · rename_i rule hrule
      rw [hrule] at hsome
      have hrelates : (a = i ∧ b = j) ∧ i ≠ j ∧
          (∃ r, Rule.holds m (facts.get i) (facts.get j) r = true) ↔ i = a ∧ j = b := by
        refine ⟨fun h => ⟨h.1.1.symm, h.1.2.symm⟩, ?_⟩
        rintro ⟨rfl, rfl⟩
        exact ⟨⟨rfl, rfl⟩, hab, hsome.1 rfl⟩
      rw [hrelates, or_comm]
      exact Graph.edge_addEdge

theorem mirrored_consider {r : Relating n} (h : r.graph.Mirrored) (pair : Fin n × Fin n) :
    (r.consider m facts pair).graph.Mirrored := by
  unfold consider
  split
  · exact h
  · split
    · exact h
    · exact h.addEdge _ _

theorem edge_foldl_consider (r : Relating n) (pairs : List (Fin n × Fin n)) (i j : Fin n) :
    (pairs.foldl (consider m facts) r).graph.Edge i j ↔
      r.graph.Edge i j ∨ ((i, j) ∈ pairs ∧ Relates m facts i j) := by
  induction pairs generalizing r with
  | nil => simp
  | cons pair pairs ih =>
    rw [List.foldl_cons, ih, edge_consider, List.mem_cons, eq_comm (a := pair), or_assoc,
      ← or_and_right]

theorem mirrored_foldl_consider {r : Relating n} (h : r.graph.Mirrored)
    (pairs : List (Fin n × Fin n)) : (pairs.foldl (consider m facts) r).graph.Mirrored := by
  induction pairs generalizing r with
  | nil => exact h
  | cons pair pairs ih => exact ih (mirrored_consider h pair)

theorem mem_pairs (i j : Fin n) : (i, j) ∈ pairs n := by
  simp [pairs]

theorem edge_ofFacts {i j : Fin n} : (ofFacts m facts).graph.Edge i j ↔ Relates m facts i j := by
  rw [ofFacts, edge_foldl_consider]
  simp [Graph.not_edge_empty, mem_pairs]

theorem mirrored_ofFacts (m : Matching) (facts : Vector Facts n) :
    (ofFacts m facts).graph.Mirrored :=
  mirrored_foldl_consider (Graph.mirrored_empty n) _

end Relating

namespace Graph

variable {m : Matching} {statements : List Statement}

theorem mirrored_ofStatements (m : Matching) (statements : List Statement) :
    (ofStatements m statements).Mirrored :=
  Relating.mirrored_ofFacts m _

theorem edge_ofStatements {i j : Fin statements.length} :
    (ofStatements m statements).Edge i j ↔
      i ≠ j ∧ ∃ r, Rule.holds m (Facts.ofStatement (statements.get i))
        (Facts.ofStatement (statements.get j)) r = true := by
  refine Relating.edge_ofFacts.trans ?_
  simp [Relating.Relates, get_eq_getElem]

theorem not_edge_ofStatements_self (i : Fin statements.length) :
    ¬ (ofStatements m statements).Edge i i := by
  intro h
  exact (edge_ofStatements.1 h).1 rfl

end Graph

end DdlOrder
