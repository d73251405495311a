import DdlOrder.Proofs.Order.Cycles
import Mathlib.Data.List.Sort

/-!
# Orders come from the relation alone

A graph that is built by adding edges is given by the positions before each position
(`Graph.Mirrored.ext`), and the order of a batch's texts by the texts and the graph
(`orderTexts_eq_sortTexts`). So two batches with the same texts of which each has to run after
the same others have the same order or fail for the same cycle (`orderTexts_congr`). In an order
the text of a statement stands before those of the statements that depend on it
(`sublist_of_edge`).
-/

namespace DdlOrder

namespace Graph

variable {n : Nat} {g g' : Graph n}

theorem Mirrored.ext (hg : g.Mirrored) (hg' : g'.Mirrored) (h : g.parents = g'.parents) :
    g = g' := by
  have hdependents : g.dependents = g'.dependents := by
    refine Vector.ext fun i hi => (hg.dependents_sorted ⟨i, hi⟩).eq_of_mem_iff
      (hg'.dependents_sorted ⟨i, hi⟩) fun j => ?_
    have hparents : ⟨i, hi⟩ ∈ g.parents.get j ↔ ⟨i, hi⟩ ∈ g'.parents.get j := by rw [h]
    rwa [hg.mem_parents, hg'.mem_parents] at hparents
  obtain ⟨parents, dependents⟩ := g
  cases h
  cases hdependents
  rfl

/-- For each position those before it, as numbers. -/
def parentPositions (g : Graph n) : List (List Nat) := g.parents.toList.map (·.map Fin.val)

theorem length_parentPositions (g : Graph n) : g.parentPositions.length = n := by
  rw [parentPositions, List.length_map, Vector.length_toList]

theorem getElem?_parentPositions (g : Graph n) (j : Fin n) :
    g.parentPositions[j.val]? = some ((g.parents.get j).map Fin.val) := by
  simp [parentPositions, get_eq_getElem]

theorem lt_of_mem_parentPositions {before : List Nat} {i : Nat}
    (hbefore : before ∈ g.parentPositions) (hi : i ∈ before) : i < n := by
  obtain ⟨l, -, rfl⟩ := List.mem_map.1 hbefore
  obtain ⟨k, -, rfl⟩ := List.mem_map.1 hi
  exact k.isLt

theorem Mirrored.eq_of_parentPositions (hg : g.Mirrored) (hg' : g'.Mirrored)
    (h : g.parentPositions = g'.parentPositions) : g = g' := by
  have hval : Function.Injective (List.map (Fin.val (n := n))) :=
    List.map_injective_iff.2 Fin.val_injective
  exact hg.ext hg' (Vector.toList_inj.1 (List.map_injective_iff.2 hval h))

/-- The texts in the order of their positions. -/
def sortTexts (g : Graph n) (texts : List String) : Except Error (List String) :=
  (g.sort texts).map fun order => order.filterMap fun i => texts[i.val]?

/-- Sorting the texts uses of a graph only which positions are before each. -/
theorem sortTexts_congr {k : Nat} {f : Graph k} (hg : g.Mirrored) (hf : f.Mirrored)
    (h : g.parentPositions = f.parentPositions) (texts : List String) :
    g.sortTexts texts = f.sortTexts texts := by
  have hlength := congrArg List.length h
  rw [length_parentPositions, length_parentPositions] at hlength
  subst hlength
  rw [hg.eq_of_parentPositions hf h]

end Graph

variable {m : Matching} {statements others : List Statement}

theorem orderTexts_eq_sortTexts (m : Matching) (statements : List Statement) :
    orderTexts m statements =
      (Graph.ofStatements m statements).sortTexts (statements.map (·.query)) := by
  rw [orderTexts, orderStatements, orderPositions, Graph.sortTexts]
  cases hsort : (Graph.ofStatements m statements).sort (statements.map (·.query)) with
  | error e => rfl
  | ok order =>
    obtain ⟨-, rfl⟩ := orderPositions_eq_ok_iff.1 hsort
    have hnodup := (Graph.mirrored_ofStatements m statements).nodup_placed
    simp only [Except.map, arrange_of_nodup hnodup, filterMap_texts, List.map_map,
      Function.comp_def]

theorem orderTexts_congr (htexts : statements.map (·.query) = others.map (·.query))
    (hparents : (Graph.ofStatements m statements).parentPositions =
      (Graph.ofStatements m others).parentPositions) :
    orderTexts m statements = orderTexts m others := by
  rw [orderTexts_eq_sortTexts, orderTexts_eq_sortTexts, htexts]
  exact Graph.sortTexts_congr (Graph.mirrored_ofStatements m statements)
    (Graph.mirrored_ofStatements m others) hparents _

theorem kind_of_orderTexts_eq_error {e : Error} (h : orderTexts m statements = .error e) :
    e.kind = .cycle := by
  rw [orderTexts] at h
  cases hordered : orderStatements m statements with
  | error e' =>
    rw [hordered] at h
    cases h
    have hcyclic := orderStatements_of_cyclic (orderStatements_eq_error_iff.1 ⟨_, hordered⟩)
    rw [hordered] at hcyclic
    cases hcyclic
    rfl
  | ok ordered =>
    rw [hordered] at h
    cases h

/-- In a list without repetitions, what comes first stands first. -/
theorem pair_sublist_of_idxOf_lt {α : Type} [DecidableEq α] {l : List α} {a b : α}
    (ha : a ∈ l) (hb : b ∈ l) (h : l.idxOf a < l.idxOf b) : [a, b].Sublist l := by
  have htake : a ∈ l.take (l.idxOf b) := (List.mem_take_iff_idxOf_lt ha).2 h
  have hdrop : b ∈ l.drop (l.idxOf b) := by
    rw [List.drop_eq_getElem_cons (List.idxOf_lt_length_iff.2 hb), List.getElem_idxOf]
    exact List.mem_cons_self
  rw [← List.take_append_drop (l.idxOf b) l]
  exact (List.singleton_sublist.2 htake).append (List.singleton_sublist.2 hdrop)

theorem sublist_of_edge {texts : List String} (h : orderTexts m statements = .ok texts)
    {i j : Fin statements.length} (hij : (Graph.ofStatements m statements).Edge i j) :
    [(statements.get i).query, (statements.get j).query].Sublist texts := by
  obtain ⟨ordered, hordered, rfl⟩ := map_eq_ok_iff.1 h
  obtain ⟨order, harranged⟩ := exists_arranged hordered
  have hpair : [i, j].Sublist order :=
    pair_sublist_of_idxOf_lt (harranged.mem i) (harranged.mem j) (harranged.idxOf_lt hij)
  rw [harranged.ordered_eq, List.map_map]
  exact hpair.map fun i => (statements.get i).query

end DdlOrder
