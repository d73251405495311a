import DdlOrder.Proofs.Order.Dependencies

/-!
# Ordering fails for a cycle and for nothing else

A graph that is built by adding edges, from a position to itself as well, is sorted
into an order of all positions unless its edges form a cycle. Then the texts of the
positions on the cycles and behind them are reported, in ascending order
(`sort_eq_error_iff_cyclic`). So a batch has an order unless its statements wait for each
other (`exists_ordered_iff`, `orderStatements_of_cyclic`).
-/

namespace DdlOrder

theorem Graph.edge_ofEdges_eq {n : Nat} (edges : List (Fin n × Fin n)) :
    (Graph.ofEdges n edges).Edge = fun i j => (i, j) ∈ edges := by
  funext i j
  exact propext Graph.edge_ofEdges

theorem Graph.mem_edges_eq {n : Nat} (g : Graph n) : (fun i j => (i, j) ∈ g.edges) = g.Edge := by
  funext i j
  exact propext Graph.mem_edges_iff

theorem filterMap_texts (statements : List Statement) (l : List (Fin statements.length)) :
    (l.filterMap fun i => (statements.map (·.query))[i.val]?) =
      l.map fun i => (statements.get i).query := by
  have h : (fun i : Fin statements.length => (statements.map (·.query))[i.val]?) =
      some ∘ fun i => (statements.get i).query := by
    funext i
    simp
  rw [h, List.filterMap_eq_map]

/-- What is reported are the texts of the positions on cycles and behind them. -/
theorem Graph.sort_texts_of_cyclic {statements : List Statement} {g : Graph statements.length}
    (hg : g.Mirrored) (h : Cyclic g.Edge) :
    g.sort (statements.map (·.query)) =
      .error (.cycle (g.stuck.map fun i => (statements.get i).query)) := by
  rw [Graph.sort_of_cyclic hg _ h, filterMap_texts]

theorem orderStatements_of_cyclic {m : Matching} {statements : List Statement}
    (h : Cyclic (Graph.ofStatements m statements).Edge) :
    orderStatements m statements =
      .error (.cycle ((Graph.ofStatements m statements).stuck.map fun i =>
        (statements.get i).query)) := by
  rw [orderStatements, orderPositions,
    Graph.sort_texts_of_cyclic (Graph.mirrored_ofStatements m statements) h]
  rfl

theorem exists_ordered_iff {m : Matching} {statements : List Statement} :
    (∃ ordered, orderStatements m statements = .ok ordered) ↔
      ¬ Cyclic (Graph.ofStatements m statements).Edge := by
  constructor
  · rintro ⟨ordered, hordered⟩
    obtain ⟨order, harranged⟩ := exists_arranged hordered
    exact (orderPositions_eq_ok_iff.1 harranged.positions).1
  · intro h
    rw [orderStatements, orderPositions_eq_ok_iff.2 ⟨h, rfl⟩]
    exact ⟨_, rfl⟩

theorem orderStatements_eq_error_iff {m : Matching} {statements : List Statement} :
    (∃ e, orderStatements m statements = .error e) ↔
      Cyclic (Graph.ofStatements m statements).Edge := by
  by_cases h : Cyclic (Graph.ofStatements m statements).Edge
  · exact iff_of_true ⟨_, orderStatements_of_cyclic h⟩ h
  · obtain ⟨ordered, hordered⟩ := exists_ordered_iff.2 h
    refine iff_of_false ?_ h
    rintro ⟨e, he⟩
    cases hordered.symm.trans he

/-- Sorting a graph of added edges fails exactly for a cycle, with the texts of the
positions on cycles and behind them, and gives all positions otherwise. Ordering a
batch fails exactly for a cycle of its graph. -/
theorem sort_eq_error_iff_cyclic (statements : List Statement)
    (edges : List (Fin statements.length × Fin statements.length)) :
    let sorted := (Graph.ofEdges statements.length edges).sort (statements.map (·.query))
    let before := fun i j => (i, j) ∈ edges
    ((∃ remaining, sorted = .error (.cycle remaining)) ↔ Cyclic before) ∧
      (¬ Cyclic before →
        ∃ order, sorted = .ok order ∧ order.Perm (List.finRange statements.length)) ∧
      (∀ e, sorted = .error e →
        ∃ positions : List (Fin statements.length),
          positions.Pairwise (· < ·) ∧ (∀ i, i ∈ positions ↔ BehindCycle before i) ∧
          e = .cycle (positions.map fun i => (statements.get i).query)) ∧
      ∀ m, (∃ e, orderStatements m statements = .error e) ↔
        Cyclic fun i j => (i, j) ∈ (Graph.ofStatements m statements).edges := by
  intro sorted before
  have hg := Graph.mirrored_ofEdges statements.length edges
  have hbefore : (Graph.ofEdges statements.length edges).Edge = before :=
    Graph.edge_ofEdges_eq edges
  have hfails : ∀ {e}, sorted = .error e → Cyclic before := fun he =>
    hbefore ▸ ((Graph.sort_eq_error_iff hg).1 he).1
  refine ⟨⟨fun ⟨_, h⟩ => hfails h, fun h => ?_⟩, fun h => ?_, fun e he => ?_, fun m => ?_⟩
  · exact ⟨_, Graph.sort_of_cyclic hg _ (hbefore ▸ h)⟩
  · rw [← hbefore] at h
    exact ⟨_, Graph.sort_of_not_cyclic hg _ h, Graph.perm_placed hg h⟩
  · refine ⟨_, Graph.stuck_sorted _, fun i => hbefore ▸ Graph.mem_stuck_iff hg, ?_⟩
    have hcyclic := hfails he
    rw [← hbefore] at hcyclic
    exact Except.error.inj (he.symm.trans (Graph.sort_texts_of_cyclic hg hcyclic))
  · rw [Graph.mem_edges_eq]
    exact orderStatements_eq_error_iff

end DdlOrder
