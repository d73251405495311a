import DdlOrder.Proofs.Order.Cycles
import Mathlib.Data.List.Perm.Basic

/-!
# Batches taken from a batch

Whether one statement comes before another depends on the two statements alone, not on
their positions nor on what else is in the batch. So a selection of a batch's statements,
in any order, has the edges that the batch has between them
(`Graph.edge_ofStatements_selection`):

* `exists_ordered_selection`: with the batch, each selection from it has an order;
* `Graph.perm_map_stuck`: renumbering the positions of a graph renumbers those left over;
* `selection_keeps_dependencies`: edges, orders and failures of selections and
  rearrangements.
-/

namespace DdlOrder

variable {m : Matching} {statements : List Statement}

/-! ## The positions of a selection -/

/-- Where in the batch the statement at a position of the selection is taken from. -/
def origin (positions : List (Fin statements.length))
    (i : Fin (positions.map statements.get).length) : Fin statements.length :=
  positions.get (i.cast (List.length_map _))

section Positions

variable {positions : List (Fin statements.length)}

theorem get_selection (positions : List (Fin statements.length))
    (i : Fin (positions.map statements.get).length) :
    (positions.map statements.get).get i = statements.get (origin positions i) := by
  simp [origin]

theorem origin_injective (h : positions.Nodup) : Function.Injective (origin positions) :=
  (List.nodup_iff_injective_get.1 h).comp (Fin.cast_injective _)

theorem origin_surjective (h : ∀ a, a ∈ positions) : Function.Surjective (origin positions) := by
  intro a
  obtain ⟨i, rfl⟩ := List.mem_iff_get.1 (h a)
  exact ⟨i.cast (List.length_map _).symm, rfl⟩

/-- A selection has the edges that the batch has between the statements taken. -/
theorem Graph.edge_ofStatements_selection (h : positions.Nodup)
    {i j : Fin (positions.map statements.get).length} :
    (ofStatements m (positions.map statements.get)).Edge i j ↔
      (ofStatements m statements).Edge (origin positions i) (origin positions j) := by
  rw [edge_ofStatements, edge_ofStatements, (origin_injective h).ne_iff, get_selection,
    get_selection]

theorem Graph.cyclic_of_selection (h : positions.Nodup)
    (hcyclic : Cyclic (ofStatements m (positions.map statements.get)).Edge) :
    Cyclic (ofStatements m statements).Edge :=
  hcyclic.lift (origin positions) fun _ _ => (edge_ofStatements_selection h).1

end Positions

/-! ## Batches with an order -/

theorem exists_ordered_selection {positions : List (Fin statements.length)}
    (hpositions : positions.Nodup)
    (h : ∃ ordered, orderStatements m statements = .ok ordered) :
    ∃ ordered, orderStatements m (positions.map statements.get) = .ok ordered := by
  rw [exists_ordered_iff] at h ⊢
  exact fun hcyclic => h (Graph.cyclic_of_selection hpositions hcyclic)

/-! ## Renumbered graphs -/

section Renumbered

variable {α β : Type} {r : α → α → Prop} {s : β → β → Prop} {f : α → β}

/-- What lies behind a cycle does so by any other names. -/
theorem behindCycle_iff_of_bijective (hf : Function.Bijective f)
    (hstep : ∀ a b, r a b ↔ s (f a) (f b)) {a : α} : BehindCycle r a ↔ BehindCycle s (f a) := by
  refine ⟨fun h => h.lift f fun a b => (hstep a b).1, fun h => ?_⟩
  have hback : ∀ b, f (Function.surjInv hf.surjective b) = b := Function.surjInv_eq hf.surjective
  have hinv : Function.surjInv hf.surjective (f a) = a := hf.injective (hback (f a))
  rw [← hinv]
  refine h.lift _ fun b c hbc => (hstep _ _).2 ?_
  rwa [hback b, hback c]

end Renumbered

namespace Graph

variable {n k : Nat} {g : Graph n} {g' : Graph k} {f : Fin k → Fin n}

/-- Renumbering the positions renumbers those left over. -/
theorem perm_map_stuck (hg : g.Mirrored) (hg' : g'.Mirrored) (hf : Function.Bijective f)
    (hedge : ∀ i j, g'.Edge i j ↔ g.Edge (f i) (f j)) : (g'.stuck.map f).Perm g.stuck := by
  refine (List.perm_ext_iff_of_nodup ((nodup_of_sorted g'.stuck_sorted).map hf.injective)
    (nodup_of_sorted g.stuck_sorted)).2 fun a => ?_
  obtain ⟨i, rfl⟩ := hf.surjective a
  rw [List.mem_map_of_injective hf.injective, mem_stuck_iff hg', mem_stuck_iff hg]
  exact behindCycle_iff_of_bijective hf hedge

end Graph

/-! ## Rearrangements -/

/-- A rearrangement takes every statement of the batch once, by its position. -/
theorem exists_positions_of_perm {other : List Statement} (h : other.Perm statements) :
    ∃ positions : List (Fin statements.length),
      positions.Nodup ∧ (∀ a, a ∈ positions) ∧ other = positions.map statements.get := by
  have hget : List.Forall₂ (fun s i => s = statements.get i) statements
      (List.finRange statements.length) := by
    rw [← List.forall₂_map_right_iff, List.map_get_finRange, List.forall₂_eq_eq_eq]
  obtain ⟨positions, hother, hperm⟩ := List.perm_comp_forall₂ h hget
  rw [← List.forall₂_map_right_iff, List.forall₂_eq_eq_eq] at hother
  exact ⟨positions, hperm.nodup_iff.2 (List.nodup_finRange _),
    fun a => hperm.mem_iff.2 (List.mem_finRange a), hother⟩

/-- A rearrangement fails with the batch, and reports the same texts in some order. -/
theorem exists_error_of_perm {other : List Statement} (hother : other.Perm statements)
    (h : Cyclic (Graph.ofStatements m statements).Edge) :
    ∃ remaining, orderStatements m other = .error (.cycle remaining) ∧
      remaining.Perm ((Graph.ofStatements m statements).stuck.map fun i =>
        (statements.get i).query) := by
  obtain ⟨positions, hnodup, hall, rfl⟩ := exists_positions_of_perm hother
  have hbijective : Function.Bijective (origin positions) :=
    ⟨origin_injective hnodup, origin_surjective hall⟩
  have hstuck := Graph.perm_map_stuck (Graph.mirrored_ofStatements m statements)
    (Graph.mirrored_ofStatements m (positions.map statements.get)) hbijective
    fun i j => Graph.edge_ofStatements_selection hnodup
  obtain ⟨a, ha⟩ := h.exists_behindCycle
  obtain ⟨i, rfl⟩ := hbijective.surjective a
  have hcyclic : Cyclic (Graph.ofStatements m (positions.map statements.get)).Edge :=
    ((behindCycle_iff_of_bijective hbijective
      fun _ _ => Graph.edge_ofStatements_selection hnodup).2 ha).cyclic
  refine ⟨_, orderStatements_of_cyclic hcyclic, ?_⟩
  have htexts := hstuck.map fun i => (statements.get i).query
  simpa only [List.map_map, Function.comp_def, get_selection] using htexts

theorem exists_ordered_of_perm {other : List Statement} (hother : other.Perm statements)
    (h : ¬ Cyclic (Graph.ofStatements m statements).Edge) :
    ∃ ordered, orderStatements m other = .ok ordered := by
  obtain ⟨positions, hnodup, -, rfl⟩ := exists_positions_of_perm hother
  exact exists_ordered_selection hnodup (exists_ordered_iff.2 h)

/-- The statements at different positions of a batch, in whatever order, depend on each other
as they do in the batch, and have an order if the batch has one. Of two rearrangements of a
batch either both have an order, or both fail and report the same texts, each as often. -/
theorem selection_keeps_dependencies (m : Matching) {statements first second : List Statement}
    {positions : List (Fin statements.length)} (hpositions : positions.Nodup)
    (hfirst : first.Perm statements) (hsecond : second.Perm statements) :
    (∀ i j (hi : i < positions.length) (hj : j < positions.length),
        (Graph.ofStatements m (positions.map statements.get)).hasEdge i j =
          (Graph.ofStatements m statements).hasEdge positions[i] positions[j]) ∧
      ((∃ ordered, orderStatements m statements = .ok ordered) →
        ∃ ordered, orderStatements m (positions.map statements.get) = .ok ordered) ∧
      (((∃ ordered, orderStatements m first = .ok ordered) ∧
          ∃ ordered, orderStatements m second = .ok ordered) ∨
        ∃ remaining remaining', orderStatements m first = .error (.cycle remaining) ∧
          orderStatements m second = .error (.cycle remaining') ∧
          remaining.Perm remaining') := by
  refine ⟨fun i j hi hj => ?edges, exists_ordered_selection hpositions, ?rearranged⟩
  case edges =>
    have hlen : (positions.map statements.get).length = positions.length := List.length_map _
    rw [Bool.eq_iff_iff]
    exact Graph.hasEdge_iff (i := ⟨i, hlen ▸ hi⟩) (j := ⟨j, hlen ▸ hj⟩) |>.trans <|
      (Graph.edge_ofStatements_selection hpositions).trans Graph.hasEdge_iff.symm
  case rearranged =>
    by_cases h : Cyclic (Graph.ofStatements m statements).Edge
    · obtain ⟨remaining, hremaining, hperm⟩ := exists_error_of_perm hfirst h
      obtain ⟨remaining', hremaining', hperm'⟩ := exists_error_of_perm hsecond h
      exact .inr ⟨remaining, remaining', hremaining, hremaining', hperm.trans hperm'.symm⟩
    · exact .inl ⟨exists_ordered_of_perm hfirst h, exists_ordered_of_perm hsecond h⟩

/-- Two views that read each other keep a third from being placed, wherever the three stand.
Without the second of them the first stands before the third again. -/
theorem selection_keeps_dependencies_views :
    let view (name source : String) : Statement :=
      { query := "CREATE VIEW " ++ name
        tree := (Tree.singleton { kind := .createQuery, value := some name, indent := 0 }).addChild 0
          Nat.one_pos { kind := .tableIdentifier, value := some source, indent := 1 } }
    let a := view "a" "b"
    let b := view "b" "a"
    let c := view "c" "a"
    let positions : List (Fin 3) := [2, 0]
    positions.Nodup ∧ [c, b, a].Perm [a, b, c] ∧ [b, a, c].Perm [a, b, c] ∧
      (Graph.ofStatements .name [c, a]).hasEdge 1 0 = true ∧
      ∃ remaining remaining', orderStatements .name [c, b, a] = .error (.cycle remaining) ∧
        orderStatements .name [b, a, c] = .error (.cycle remaining') ∧
        remaining.Perm remaining' := by
  intro view a b c positions
  have hpositions : positions.Nodup := by decide
  have hfirst : [c, b, a].Perm [a, b, c] := List.reverse_perm [a, b, c]
  have hsecond : [b, a, c].Perm [a, b, c] := .swap a b [c]
  obtain ⟨hedges, -, hrearranged⟩ :=
    selection_keeps_dependencies .name hpositions hfirst hsecond
  refine ⟨hpositions, hfirst, hsecond, ?_, ?_⟩
  · refine (hedges 1 0 (by decide) (by decide)).trans ?_
    decide +kernel
  · rcases hrearranged with ⟨⟨ordered, hordered⟩, -⟩ | herror
    · have hrun : (orderStatements .name [c, b, a]).isOk = false := by decide +kernel
      rw [hordered] at hrun
      cases hrun
    · exact herror

end DdlOrder
