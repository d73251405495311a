import DdlOrder.Tree.Basic
import Mathlib.Data.List.Basic

/-!
# Parents and children agree

Of a tree in which every node but the first has a parent, and in which the children of
a node are those nodes that have it as their parent, in ascending order
(`Tree.Linked`):

* `Tree.linked_singleton`, `Tree.Linked.addChild`: single nodes are such trees, and a
  further child keeps them so;
* `Tree.Linked.mem_descendants_iff`: the nodes below a node are those that have it among
  their ancestors;
* `Tree.Linked.mem_walk_iff`: the walk from the root meets every node.

The nodes of any tree can be walked with a stack of nodes that are still to be met: the topmost
is met, and its children take its place (`Tree.preOrder`). This comes to an end, as it meets
each node of the stack and then all nodes below it (`Tree.preOrder_eq`). So it is the same as
walking down from each node (`Tree.descendants_eq_preOrder`, `Tree.walk_eq_preOrder`).
-/

namespace DdlOrder

namespace Tree

variable {t : Tree} {i j k p : Nat}

/-! ## The fields of a tree with one more node -/

theorem getElem?_entries_addChild (hp : p < t.size) (n : Node) :
    (t.addChild p hp n).entries[i]? =
      if i = t.size then some { node := n, parent := some p, children := [] }
      else if i = p then t.entries[i]?.map (Entry.addChild t.size) else t.entries[i]? := by
  simp only [addChild, Array.getElem?_push, Array.size_modify, Array.getElem?_modify,
    eq_comm (a := p)]
  rfl

theorem node?_addChild (hp : p < t.size) (n : Node) :
    (t.addChild p hp n).node? i = if i = t.size then some n else t.node? i := by
  unfold node?
  rw [getElem?_entries_addChild]
  by_cases hi : i = t.size
  · rw [if_pos hi, if_pos hi, Option.map_some]
  · rw [if_neg hi, if_neg hi]
    split
    · rw [Option.map_map]
      rfl
    · rfl

theorem parent?_addChild (hp : p < t.size) (n : Node) :
    (t.addChild p hp n).parent? i = if i = t.size then some p else t.parent? i := by
  unfold parent?
  rw [getElem?_entries_addChild]
  by_cases hi : i = t.size
  · rw [if_pos hi, if_pos hi, Option.bind_some]
  · rw [if_neg hi, if_neg hi]
    split
    · rw [Option.bind_map]
      rfl
    · rfl

theorem children_of_size_le (h : t.size ≤ i) : t.children i = [] := by
  have hnone : t.entries[i]? = none := Array.getElem?_eq_none h
  simp [children, hnone]

theorem children_addChild (hp : p < t.size) (n : Node) :
    (t.addChild p hp n).children i = if i = p then t.children i ++ [t.size] else t.children i := by
  have hentry := getElem?_entries_addChild (i := i) hp n
  by_cases hi : i = t.size
  · have hip : i ≠ p := by omega
    rw [if_neg hip, children_of_size_le (Nat.le_of_eq hi.symm)]
    rw [if_pos hi] at hentry
    simp only [children, hentry]
  · rw [if_neg hi] at hentry
    by_cases hip : i = p
    · have hlt : i < t.entries.size := hip ▸ hp
      rw [if_pos hip, Array.getElem?_eq_getElem hlt] at hentry
      rw [if_pos hip]
      simp only [children, hentry, Option.map_some, Entry.addChild, Array.getElem?_eq_getElem hlt]
    · rw [if_neg hip] at hentry
      rw [if_neg hip]
      simp only [children, hentry]

/-- All nodes, by their ids. -/
def nodes (t : Tree) : List Node := t.entries.toList.map (·.node)

theorem getElem?_nodes (t : Tree) (i : Nat) : t.nodes[i]? = t.node? i := by
  simp [nodes, node?]

@[simp] theorem length_nodes (t : Tree) : t.nodes.length = t.size := by
  simp [nodes, size]

theorem mem_nodes_iff {n : Node} : n ∈ t.nodes ↔ ∃ i < t.size, t.node? i = some n := by
  simp only [List.mem_iff_getElem?, getElem?_nodes]
  refine ⟨fun ⟨i, hi⟩ => ⟨i, ?_, hi⟩, fun ⟨i, _, hi⟩ => ⟨i, hi⟩⟩
  rw [← length_nodes]
  exact (List.getElem?_eq_some_iff.1 ((getElem?_nodes t i).trans hi)).1

theorem nodes_addChild (hp : p < t.size) (n : Node) :
    (t.addChild p hp n).nodes = t.nodes ++ [n] := by
  refine List.ext_getElem? fun i => ?_
  rw [getElem?_nodes, node?_addChild, List.getElem?_append, length_nodes, getElem?_nodes]
  rcases Nat.lt_trichotomy i t.size with h | h | h
  · rw [if_neg (Nat.ne_of_lt h), if_pos h]
  · simp [h]
  · rw [if_neg (Nat.ne_of_gt h), if_neg (Nat.not_lt_of_gt h)]
    have hnone : t.node? i = none := by simp [node?, Array.getElem?_eq_none (Nat.le_of_lt h)]
    rw [hnone, List.getElem?_eq_none]
    simp only [List.length_cons, List.length_nil]
    omega

/-! ## Ancestors of ancestors -/

theorem mem_ancestors_trans (hk : k ∈ t.ancestors j) (hi : i ∈ t.ancestors k) :
    i ∈ t.ancestors j := by
  induction j using Nat.strongRecOn with
  | ind j ih =>
    obtain ⟨p, hp, hkp⟩ := mem_ancestors.1 hk
    refine mem_ancestors.2 ⟨p, hp, .inr ?_⟩
    rcases hkp with rfl | hkp
    · exact hi
    · exact ih p (parent?_lt hp) hkp

theorem lt_size_of_mem_ancestors (hj : j ∈ t.ancestors i) : i < t.size := by
  obtain ⟨p, hp, -⟩ := mem_ancestors.1 hj
  exact lt_size_of_parent? hp

/-! ## Linked trees -/

/-- Every node but the first has a parent, and a node's children are the nodes that have
it as their parent. -/
structure Linked (t : Tree) : Prop where
  size_pos : 0 < t.size
  exists_parent : ∀ {i : Nat}, 0 < i → i < t.size → ∃ p, t.parent? i = some p
  children_eq : ∀ i : Nat, t.children i = (List.range t.size).filter fun c => t.parent? c = some i

theorem linked_singleton (n : Node) : (singleton n).Linked where
  size_pos := Nat.one_pos
  exists_parent := by
    intro i hpos hi
    rw [size_singleton] at hi
    omega
  children_eq := by
    intro i
    rw [size_singleton]
    cases i <;> simp [children, parent?, singleton]

theorem Linked.addChild (h : t.Linked) (hp : p < t.size) (n : Node) :
    (t.addChild p hp n).Linked where
  size_pos := by
    rw [size_addChild]
    exact Nat.succ_pos _
  exists_parent := by
    intro i hpos hi
    rw [size_addChild] at hi
    rw [parent?_addChild]
    by_cases hit : i = t.size
    · exact ⟨p, if_pos hit⟩
    · rw [if_neg hit]
      exact h.exists_parent hpos (by omega)
  children_eq := by
    intro i
    have hold : ((List.range t.size).filter fun c => (t.addChild p hp n).parent? c = some i) =
        t.children i := by
      rw [h.children_eq]
      refine List.filter_congr fun c hc => ?_
      rw [parent?_addChild, if_neg (Nat.ne_of_lt (List.mem_range.1 hc))]
    rw [size_addChild, List.range_succ, List.filter_append, hold, children_addChild,
      List.filter_singleton, parent?_addChild, if_pos rfl]
    by_cases hip : i = p
    · simp [hip]
    · simp [hip, Ne.symm hip]

namespace Linked

variable (h : t.Linked)

include h

theorem mem_children_iff : j ∈ t.children i ↔ t.parent? j = some i := by
  rw [h.children_eq, List.mem_filter, List.mem_range, decide_eq_true_eq]
  exact and_iff_right_of_imp lt_size_of_parent?

theorem mem_descendants_of_parent? (hj : t.parent? j = some i) : j ∈ t.descendants i := by
  rw [descendants_eq, List.mem_flatMap]
  exact ⟨j, h.mem_children_iff.2 hj, List.mem_cons_self⟩

theorem mem_descendants_of_parent?_mem (hk : k ∈ t.descendants i) (hj : t.parent? j = some k) :
    j ∈ t.descendants i := by
  induction i using descendants.induct t with
  | case1 i ih =>
    rw [descendants_eq, List.mem_flatMap] at hk ⊢
    obtain ⟨c, hc, hk⟩ := hk
    refine ⟨c, hc, List.mem_cons_of_mem _ ?_⟩
    rcases List.mem_cons.1 hk with rfl | hk
    · exact h.mem_descendants_of_parent? hj
    · exact ih c hc hk

/-- Climbing up from the nodes below a node, one comes to it. -/
theorem mem_ancestors_of_mem_descendants (hj : j ∈ t.descendants i) : i ∈ t.ancestors j := by
  induction i using descendants.induct t with
  | case1 i ih =>
    rw [descendants_eq, List.mem_flatMap] at hj
    obtain ⟨c, hc, hj⟩ := hj
    have habove := mem_ancestors.2 ⟨i, h.mem_children_iff.1 hc, .inl rfl⟩
    rcases List.mem_cons.1 hj with rfl | hj
    · exact habove
    · exact mem_ancestors_trans (ih c hc hj) habove

theorem mem_descendants_iff : j ∈ t.descendants i ↔ i ∈ t.ancestors j := by
  refine ⟨h.mem_ancestors_of_mem_descendants, fun hi => ?_⟩
  induction j using Nat.strongRecOn with
  | ind j ih =>
    obtain ⟨p, hp, rfl | hip⟩ := mem_ancestors.1 hi
    · exact h.mem_descendants_of_parent? hp
    · exact h.mem_descendants_of_parent?_mem (ih p (parent?_lt hp) hip) hp

theorem zero_mem_ancestors (hpos : 0 < i) (hi : i < t.size) : 0 ∈ t.ancestors i := by
  induction i using Nat.strongRecOn with
  | ind i ih =>
    obtain ⟨p, hp⟩ := h.exists_parent hpos hi
    have hlt := parent?_lt hp
    refine mem_ancestors.2 ⟨p, hp, ?_⟩
    rcases Nat.eq_zero_or_pos p with h0 | hppos
    · exact .inl h0.symm
    · exact .inr (ih p hlt hppos (Nat.lt_trans hlt hi))

/-- The walk from the root meets every node. -/
theorem mem_walk_iff : i ∈ t.walk ↔ i < t.size := by
  have hsize := h.size_pos
  rw [walk, if_neg (Nat.ne_of_gt hsize), List.mem_cons, h.mem_descendants_iff]
  constructor
  · rintro (rfl | h0)
    · exact hsize
    · exact lt_size_of_mem_ancestors h0
  · intro hi
    rcases Nat.eq_zero_or_pos i with h0 | hpos
    · exact .inl h0
    · exact .inr (h.zero_mem_ancestors hpos hi)

end Linked

/-! ## Walking with a stack -/

/-- The nodes of a list, each before the nodes below it. -/
def subtrees (t : Tree) (nodes : List Nat) : List Nat := nodes.flatMap fun i => i :: t.descendants i

theorem descendants_eq_subtrees (t : Tree) (i : Nat) :
    t.descendants i = t.subtrees (t.children i) :=
  t.descendants_eq i

theorem subtrees_cons (t : Tree) (i : Nat) (nodes : List Nat) :
    t.subtrees (i :: nodes) = i :: t.subtrees (t.children i ++ nodes) := by
  rw [subtrees, List.flatMap_cons, List.cons_append, descendants_eq_subtrees, subtrees, subtrees,
    List.flatMap_append]

/-- The nodes as they are met: the topmost of the stack, and then its children before the
others that were on the stack. -/
def preOrder (t : Tree) : List Nat → List Nat
  | [] => []
  | i :: stack => i :: t.preOrder (t.children i ++ stack)
termination_by stack => (t.subtrees stack).length
decreasing_by
  rw [subtrees_cons, List.length_cons]
  exact Nat.lt_succ_self _

theorem preOrder_eq (t : Tree) (stack : List Nat) : t.preOrder stack = t.subtrees stack := by
  fun_induction preOrder t stack with
  | case1 => rfl
  | case2 i stack ih => rw [ih, subtrees_cons]

theorem descendants_eq_preOrder (t : Tree) (i : Nat) :
    t.descendants i = t.preOrder (t.children i) := by
  rw [preOrder_eq, descendants_eq_subtrees]

theorem walk_eq_preOrder (t : Tree) :
    t.walk = t.preOrder (if t.size = 0 then [] else [0]) := by
  rw [preOrder_eq, walk]
  split
  · rfl
  · rw [subtrees, List.flatMap_singleton]

end Tree

end DdlOrder
