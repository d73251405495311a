import DdlOrder.Proofs.Tree.Linked
import Mathlib.Data.List.Sort

/-!
# Trees in document order

A tree that is read from top to bottom grows at its newest node or at one of those above
it, and each node stands one level below its parent (`Tree.Nested`). So its nodes are in
document order:

* `Tree.nested_singleton`, `Tree.Nested.addChild`: single nodes are such trees, and growing
  there keeps them so;
* `Tree.Nested.mem_ancestors_of_le`: what is below a node follows it without a gap;
* `Tree.Nested.walk_eq_range`: the walk from the root meets the nodes by their ids;
* `Tree.Nested.exists_mem_ancestors`: above a node stands one at every level down from the
  root.
-/

namespace DdlOrder

/-- The line that a node was read from, if it was read from one. -/
def Node.line? (n : Node) : Option String := if n.raw = "" then none else some n.raw

namespace Tree

variable {t : Tree} {i j k p : Nat}

/-- The indent of the node with this id. -/
def indent? (t : Tree) (i : Nat) : Option Nat := (t.node? i).map (·.indent)

/-- The line that the node with this id was read from, if it was read from one. -/
def line? (t : Tree) (i : Nat) : Option String := (t.node? i).bind (·.line?)

/-- The newest node, or one of those above it. -/
def OnSpine (t : Tree) (i : Nat) : Prop := i + 1 = t.size ∨ i ∈ t.ancestors (t.size - 1)

/-- A linked tree that has grown at its newest node or above, always one level deeper. What
is above a line's node is a line's node, too. -/
structure Nested (t : Tree) : Prop extends Linked t where
  parent_spine : ∀ {i p : Nat}, t.parent? (i + 1) = some p → p = i ∨ p ∈ t.ancestors i
  indent?_eq : ∀ {i p : Nat}, t.parent? i = some p → t.indent? i = (t.indent? p).map (· + 1)
  line?_isSome : ∀ {i p : Nat}, t.parent? i = some p → (t.line? i).isSome → (t.line? p).isSome

/-! ## The fields of a tree with one more node -/

theorem node?_eq_none (h : t.size ≤ i) : t.node? i = none := by
  simp [node?, Array.getElem?_eq_none h]

theorem exists_node? (h : i < t.size) : ∃ n, t.node? i = some n := by
  rw [node?, Array.getElem?_eq_getElem h]
  exact ⟨_, rfl⟩

theorem exists_indent? (h : i < t.size) : ∃ d, t.indent? i = some d := by
  obtain ⟨n, hn⟩ := exists_node? h
  exact ⟨n.indent, by rw [indent?, hn, Option.map_some]⟩

theorem lt_size_of_node? {n : Node} (h : t.node? i = some n) : i < t.size := by
  by_contra hle
  cases (node?_eq_none (Nat.le_of_not_lt hle)).symm.trans h

theorem lt_size_of_indent? {d : Nat} (h : t.indent? i = some d) : i < t.size := by
  obtain ⟨n, hn, -⟩ := Option.map_eq_some_iff.1 h
  exact lt_size_of_node? hn

theorem lt_size_of_line? (h : (t.line? i).isSome) : i < t.size := by
  obtain ⟨line, hline⟩ := Option.isSome_iff_exists.1 h
  obtain ⟨n, hn, -⟩ := Option.bind_eq_some_iff.1 hline
  exact lt_size_of_node? hn

theorem indent?_addChild (hp : p < t.size) (n : Node) :
    (t.addChild p hp n).indent? i = if i = t.size then some n.indent else t.indent? i := by
  rw [indent?, node?_addChild]
  split <;> rfl

theorem line?_addChild_of_lt (hp : p < t.size) (n : Node) (hi : i < t.size) :
    (t.addChild p hp n).line? i = t.line? i := by
  rw [line?, node?_addChild, if_neg (Nat.ne_of_lt hi), line?]

theorem line?_addChild_size (hp : p < t.size) (n : Node) :
    (t.addChild p hp n).line? t.size = n.line? := by
  rw [line?, node?_addChild, if_pos rfl, Option.bind_some]

theorem parent?_zero (t : Tree) : t.parent? 0 = none :=
  Option.eq_none_iff_forall_ne_some.2 fun p hp => Nat.not_lt_zero p (parent?_lt hp)

theorem parent?_eq_none (h : t.size ≤ i) : t.parent? i = none :=
  Option.eq_none_iff_forall_ne_some.2 fun _ hp => Nat.not_lt_of_ge h (lt_size_of_parent? hp)

theorem ancestors_of_parent? (h : t.parent? i = some p) : t.ancestors i = p :: t.ancestors p := by
  rw [ancestors]
  split <;> simp_all

theorem ancestors_of_parent?_eq_none (h : t.parent? i = none) : t.ancestors i = [] := by
  rw [ancestors]
  split <;> simp_all

theorem ancestors_addChild_of_lt (hp : p < t.size) (n : Node) (hi : i < t.size) :
    (t.addChild p hp n).ancestors i = t.ancestors i := by
  have hparent : ∀ i < t.size, (t.addChild p hp n).parent? i = t.parent? i := fun i hi => by
    rw [parent?_addChild, if_neg (Nat.ne_of_lt hi)]
  induction i using ancestors.induct t with
  | case1 i hq =>
    rw [ancestors_of_parent?_eq_none hq, ancestors_of_parent?_eq_none ((hparent i hi).trans hq)]
  | case2 i q hq ih =>
    rw [ancestors_of_parent? hq, ancestors_of_parent? ((hparent i hi).trans hq),
      ih (Nat.lt_trans (parent?_lt hq) hi)]

theorem ancestors_addChild_size (hp : p < t.size) (n : Node) :
    (t.addChild p hp n).ancestors t.size = p :: t.ancestors p := by
  have hparent : (t.addChild p hp n).parent? t.size = some p := by
    rw [parent?_addChild, if_pos rfl]
  rw [ancestors_of_parent? hparent, ancestors_addChild_of_lt hp n hp]

/-! ## Growing at the newest node or above -/

theorem onSpine_singleton (n : Node) : (singleton n).OnSpine 0 := .inl rfl

theorem onSpine_addChild_size (hp : p < t.size) (n : Node) :
    (t.addChild p hp n).OnSpine t.size :=
  .inl (size_addChild t p hp n).symm

theorem onSpine_addChild (hp : p < t.size) (n : Node) (hi : i = p ∨ i ∈ t.ancestors p) :
    (t.addChild p hp n).OnSpine i := by
  refine .inr ?_
  rw [size_addChild, Nat.add_sub_cancel, ancestors_addChild_size]
  exact List.mem_cons.2 hi

theorem OnSpine.lt_size (h : t.OnSpine i) : i < t.size := by
  rcases h with h | h
  · omega
  · have := lt_of_mem_ancestors h
    omega

/-- What is above a node that may grow may grow, too. -/
theorem OnSpine.of_mem_ancestors (h : t.OnSpine i) (hj : j ∈ t.ancestors i) : t.OnSpine j := by
  refine .inr ?_
  rcases h with h | h
  · rwa [show t.size - 1 = i by omega]
  · exact mem_ancestors_trans h hj

theorem nested_singleton (n : Node) : (singleton n).Nested := by
  have hnone : ∀ i, (singleton n).parent? i = none := by
    intro i
    cases i <;> simp [parent?, singleton]
  refine ⟨linked_singleton n, fun {i p} h => ?_, fun {i p} h => ?_, fun {i p} h => ?_⟩
  all_goals
    rw [hnone] at h
    cases h

/-- Growing at the newest node or above keeps a tree in document order. -/
theorem Nested.addChild (h : t.Nested) (hp : t.OnSpine p) (n : Node)
    (hindent : some n.indent = (t.indent? p).map (· + 1))
    (hline : n.line?.isSome → (t.line? p).isSome) : (t.addChild p hp.lt_size n).Nested where
  toLinked := h.toLinked.addChild hp.lt_size n
  parent_spine := by
    intro i q hq
    have hi : i < t.size := by
      have := lt_size_of_parent? hq
      rw [size_addChild] at this
      omega
    rw [ancestors_addChild_of_lt _ n hi]
    rw [parent?_addChild] at hq
    by_cases hnew : i + 1 = t.size
    · rw [if_pos hnew, Option.some.injEq] at hq
      subst hq
      rcases hp with hp | hp
      · exact .inl (by omega)
      · rw [← hnew, Nat.add_sub_cancel] at hp
        exact .inr hp
    · rw [if_neg hnew] at hq
      exact h.parent_spine hq
  indent?_eq := by
    intro i q hq
    rw [parent?_addChild] at hq
    rw [indent?_addChild, indent?_addChild]
    by_cases hnew : i = t.size
    · rw [if_pos hnew, Option.some.injEq] at hq
      subst hq
      rw [if_pos hnew, if_neg (Nat.ne_of_lt hp.lt_size), hindent]
    · rw [if_neg hnew] at hq
      have := lt_size_of_parent? hq
      have := parent?_lt hq
      rw [if_neg hnew, if_neg (by omega)]
      exact h.indent?_eq hq
  line?_isSome := by
    intro i q hq hi
    rw [parent?_addChild] at hq
    by_cases hnew : i = t.size
    · rw [if_pos hnew, Option.some.injEq] at hq
      subst hq
      subst hnew
      rw [line?_addChild_size] at hi
      rw [line?_addChild_of_lt _ n hp.lt_size]
      exact hline hi
    · rw [if_neg hnew] at hq
      have hlt := lt_size_of_parent? hq
      rw [line?_addChild_of_lt _ n hlt] at hi
      rw [line?_addChild_of_lt _ n (Nat.lt_trans (parent?_lt hq) hlt)]
      exact h.line?_isSome hq hi

namespace Nested

variable (h : t.Nested)

include h

/-! ## Document order -/

/-- What is below a node follows it without a gap. -/
theorem mem_ancestors_of_le (hj : i ∈ t.ancestors j) (hik : i < k) (hkj : k ≤ j) :
    i ∈ t.ancestors k := by
  induction hkj with
  | refl => exact hj
  | @step j hkj ih =>
    refine ih ?_
    rw [Nat.le_eq] at hkj
    obtain ⟨p, hp, hip⟩ := mem_ancestors.1 hj
    rcases h.parent_spine hp with rfl | hpj
    · exact hip.resolve_left (by omega)
    · rcases hip with rfl | hip
      · exact hpj
      · exact mem_ancestors_trans hpj hip

theorem pairwise_children (i : Nat) : (t.children i).Pairwise (· < ·) := by
  rw [h.children_eq]
  exact List.pairwise_lt_range.filter _

theorem pairwise_descendants (i : Nat) : (t.descendants i).Pairwise (· < ·) := by
  induction i using descendants.induct t with
  | case1 i ih =>
    have hbelow : ∀ {c x}, x ∈ c :: t.descendants c → x = c ∨ c ∈ t.ancestors x := fun hx =>
      (List.mem_cons.1 hx).imp_right h.mem_descendants_iff.1
    rw [descendants_eq, List.pairwise_flatMap]
    refine ⟨fun c hc => ?_, (h.pairwise_children i).imp_of_mem fun {c d} hc hd hcd x hx y hy => ?_⟩
    · refine List.pairwise_cons.2 ⟨fun x hx => ?_, ih c hc⟩
      exact lt_of_mem_ancestors (h.mem_descendants_iff.1 hx)
    · -- what is below `c` ends before the next child `d` of the same node
      have hdy : d ≤ y := by
        rcases hbelow hy with rfl | hy
        · exact Nat.le_refl _
        · exact Nat.le_of_lt (lt_of_mem_ancestors hy)
      refine Nat.lt_of_lt_of_le ?_ hdy
      rcases hbelow hx with rfl | hx
      · exact hcd
      · by_contra hle
        have hcd' := h.mem_ancestors_of_le hx hcd (Nat.le_of_not_lt hle)
        rw [ancestors_of_parent? (h.mem_children_iff.1 hd), List.mem_cons] at hcd'
        have hic := (lt_of_mem_children hc).1
        rcases hcd' with rfl | hci
        · exact Nat.lt_irrefl _ hic
        · exact Nat.lt_asymm hic (lt_of_mem_ancestors hci)

/-- The walk from the root meets the nodes by their ids. -/
theorem walk_eq_range : t.walk = List.range t.size := by
  have hwalk : t.walk = 0 :: t.descendants 0 := if_neg (Nat.ne_of_gt h.size_pos)
  have hsorted : t.walk.Pairwise (· < ·) := by
    rw [hwalk]
    refine List.pairwise_cons.2 ⟨fun i hi => ?_, h.pairwise_descendants 0⟩
    exact lt_of_mem_ancestors (h.mem_descendants_iff.1 hi)
  refine hsorted.eq_of_mem_iff List.pairwise_lt_range fun i => ?_
  rw [h.mem_walk_iff, List.mem_range]

/-! ## Levels -/

theorem exists_indent?_parent (hp : t.parent? i = some p) :
    ∃ d, t.indent? p = some d ∧ t.indent? i = some (d + 1) := by
  obtain ⟨d, hd⟩ := exists_indent? (Nat.lt_trans (parent?_lt hp) (lt_size_of_parent? hp))
  exact ⟨d, hd, by rw [h.indent?_eq hp, hd, Option.map_some]⟩

theorem indent?_lt_of_mem_ancestors {c d : Nat} (hj : j ∈ t.ancestors i)
    (hc : t.indent? j = some c) (hd : t.indent? i = some d) : c < d := by
  induction i using Nat.strongRecOn generalizing d with
  | ind i ih =>
    obtain ⟨p, hp, hjp⟩ := mem_ancestors.1 hj
    obtain ⟨e, he, hi⟩ := h.exists_indent?_parent hp
    cases hd.symm.trans hi
    rcases hjp with rfl | hjp
    · cases hc.symm.trans he
      exact Nat.lt_succ_self _
    · exact Nat.lt_succ_of_lt (ih p (parent?_lt hp) hjp he)

theorem line?_isSome_of_mem_ancestors (hj : j ∈ t.ancestors i) (hi : (t.line? i).isSome) :
    (t.line? j).isSome := by
  induction i using Nat.strongRecOn with
  | ind i ih =>
    obtain ⟨p, hp, hjp⟩ := mem_ancestors.1 hj
    have hline := h.line?_isSome hp hi
    rcases hjp with rfl | hjp
    · exact hline
    · exact ih p (parent?_lt hp) hjp hline

theorem root_indent?_le {r d : Nat} (hr : t.indent? 0 = some r) (hd : t.indent? i = some d) :
    r ≤ d := by
  rcases Nat.eq_zero_or_pos i with rfl | hpos
  · cases hr.symm.trans hd
    exact Nat.le_refl _
  · have h0 := h.zero_mem_ancestors hpos (lt_size_of_indent? hd)
    exact Nat.le_of_lt (h.indent?_lt_of_mem_ancestors h0 hr hd)

/-- Above a node stands one at every level from the root's down to its own. -/
theorem exists_mem_ancestors {r c d : Nat} (hr : t.indent? 0 = some r) (hd : t.indent? i = some d)
    (hrc : r ≤ c) (hcd : c < d) : ∃ a ∈ t.ancestors i, t.indent? a = some c := by
  induction i using Nat.strongRecOn generalizing d with
  | ind i ih =>
    have hpos : 0 < i := by
      refine Nat.pos_of_ne_zero fun h0 => ?_
      cases hr.symm.trans (h0 ▸ hd)
      omega
    obtain ⟨p, hp⟩ := h.exists_parent hpos (lt_size_of_indent? hd)
    obtain ⟨e, he, hi⟩ := h.exists_indent?_parent hp
    cases hd.symm.trans hi
    rcases Nat.eq_or_lt_of_le (Nat.le_of_lt_succ hcd) with rfl | hce
    · exact ⟨p, mem_ancestors.2 ⟨p, hp, .inl rfl⟩, he⟩
    · obtain ⟨a, ha, hac⟩ := ih p (parent?_lt hp) he hce
      exact ⟨a, mem_ancestors.2 ⟨p, hp, .inr ha⟩, hac⟩

end Nested

end Tree

end DdlOrder
