import DdlOrder.Proofs.Tree.Nested

/-!
# Subtrees

In a tree in document order a node belongs below the last node before it that stands one level
above (`Tree.Nested.parent?_eq_some_iff`), and the nodes below a node are those that follow it,
up to some node (`Tree.Nested.descendants_eq_range'`). So a tree in document order that holds the
nodes from one node of a tree down is the tree's part from there
(`Tree.IsSubtree`, `Tree.Nested.isSubtree`).
-/

namespace DdlOrder

/-- An ascending list without gaps is a range. -/
theorem eq_range'_of_pairwise_lt {l : List Nat} {a : Nat} (hsorted : l.Pairwise (· < ·))
    (hle : ∀ x ∈ l, a ≤ x) (hgap : ∀ x ∈ l, ∀ j, a ≤ j → j < x → j ∈ l) :
    l = List.range' a l.length := by
  induction l generalizing a with
  | nil => rfl
  | cons b rest ih =>
    obtain ⟨hb, hrest⟩ := List.pairwise_cons.1 hsorted
    have hab : a = b := by
      refine Nat.le_antisymm (hle b List.mem_cons_self) (Nat.le_of_not_lt fun hlt => ?_)
      rcases List.mem_cons.1 (hgap b List.mem_cons_self a (Nat.le_refl a) hlt) with rfl | ha
      · exact Nat.lt_irrefl a hlt
      · exact Nat.lt_asymm hlt (hb a ha)
    subst hab
    rw [List.length_cons, List.range'_succ, ← ih hrest hb fun x hx j haj hjx => ?_]
    have hj := hgap x (List.mem_cons_of_mem a hx) j (Nat.le_of_lt haj) hjx
    exact (List.mem_cons.1 hj).resolve_left (Nat.ne_of_gt haj)

namespace Tree

variable {t t' : Tree} {i j p q : Nat}

/-! ## Parents -/

/-- Node `p` is the last before node `i` that stands one level above it. -/
structure LastAbove (t : Tree) (p i : Nat) : Prop where
  lt : p < i
  level : ∃ d, t.indent? p = some d ∧ t.indent? i = some (d + 1)
  latest : ∀ k d, p < k → k < i → t.indent? k = some d → t.indent? i ≠ some (d + 1)

theorem LastAbove.eq (hp : t.LastAbove p i) (hq : t.LastAbove q i) : p = q := by
  obtain ⟨d, hpd, hid⟩ := hp.level
  obtain ⟨e, hqe, hie⟩ := hq.level
  rcases Nat.lt_trichotomy p q with hpq | rfl | hqp
  · exact absurd hie (hp.latest q e hpq hq.lt hqe)
  · rfl
  · exact absurd hid (hq.latest p d hqp hp.lt hpd)

/-- Where nodes stand as deep as those `i` places on in another tree, the last nodes above them
are those `i` places on, too. -/
theorem lastAbove_add_iff (hindent : ∀ k ≤ j, t'.indent? k = t.indent? (i + k)) :
    t.LastAbove (i + p) (i + j) ↔ t'.LastAbove p j := by
  constructor
  · intro h
    have hlt : p < j := Nat.lt_of_add_lt_add_left h.lt
    refine ⟨hlt, ?_, fun k d hpk hkj hk => ?_⟩
    · rw [hindent p (Nat.le_of_lt hlt), hindent j (Nat.le_refl j)]
      exact h.level
    · rw [hindent k (Nat.le_of_lt hkj)] at hk
      rw [hindent j (Nat.le_refl j)]
      exact h.latest (i + k) d (Nat.add_lt_add_left hpk i) (Nat.add_lt_add_left hkj i) hk
  · intro h
    refine ⟨Nat.add_lt_add_left h.lt i, ?_, fun k d hpk hkj hk => ?_⟩
    · rw [← hindent p (Nat.le_of_lt h.lt), ← hindent j (Nat.le_refl j)]
      exact h.level
    · obtain ⟨m, rfl⟩ := Nat.exists_eq_add_of_le (show i ≤ k by omega)
      rw [← hindent m (by omega)] at hk
      rw [← hindent j (Nat.le_refl j)]
      exact h.latest m d (by omega) (by omega) hk

/-! ## Subtrees -/

/-- Node `i` and the nodes below it, as the walk meets them. -/
def nodesFrom (t : Tree) (i : Nat) : List Node := (i :: t.descendants i).filterMap t.node?

/-- The tree `t'` is the part of `t` from node `i` down, with ids that are less by `i`. -/
structure IsSubtree (t : Tree) (i : Nat) (t' : Tree) : Prop where
  size_eq : t'.size = (t.descendants i).length + 1
  walk_eq : i :: t.descendants i = t'.walk.map (i + ·)
  node?_eq : ∀ j < t'.size, t'.node? j = t.node? (i + j)
  root_parent : t'.parent? 0 = none
  parent?_eq : ∀ j < t'.size, 0 < j → t.parent? (i + j) = (t'.parent? j).map (i + ·)
  children_eq : ∀ j < t'.size, t.children (i + j) = (t'.children j).map (i + ·)

theorem nodesFrom_of_node? {n : Node} (hn : t.node? i = some n) :
    t.nodesFrom i = n :: (t.descendants i).filterMap t.node? :=
  List.filterMap_cons_some hn

theorem filterMap_node?_range' {k : Nat} (h : i + k ≤ t.size) :
    (List.range' i k).filterMap t.node? = (t.nodes.drop i).take k := by
  induction k generalizing i with
  | zero => rfl
  | succ k ih =>
    have hi : i < t.nodes.length := by
      rw [length_nodes]
      omega
    rw [List.range'_succ, List.drop_eq_getElem_cons hi, List.take_succ_cons, ← ih (by omega)]
    exact List.filterMap_cons_some (by rw [← getElem?_nodes, List.getElem?_eq_getElem hi])

namespace Nested

variable (h : t.Nested)

include h

/-- The parent of a node is the last node before it that stands one level above. What stands
between the two is below the parent, and so deeper than that. -/
theorem lastAbove_of_parent? (hp : t.parent? i = some p) : t.LastAbove p i := by
  obtain ⟨d, hpd, hid⟩ := h.exists_indent?_parent hp
  refine ⟨parent?_lt hp, ⟨d, hpd, hid⟩, fun k e hpk hki hke hie => ?_⟩
  have hbelow := h.mem_ancestors_of_le (mem_ancestors.2 ⟨p, hp, .inl rfl⟩) hpk (Nat.le_of_lt hki)
  have hlt := h.indent?_lt_of_mem_ancestors hbelow hpd hke
  cases hid.symm.trans hie
  exact Nat.lt_irrefl _ hlt

theorem parent?_eq_some_iff : t.parent? i = some p ↔ t.LastAbove p i := by
  refine ⟨h.lastAbove_of_parent?, fun habove => ?_⟩
  obtain ⟨d, -, hid⟩ := habove.level
  obtain ⟨q, hq⟩ := h.exists_parent (Nat.zero_lt_of_lt habove.lt) (lt_size_of_indent? hid)
  rw [hq, (h.lastAbove_of_parent? hq).eq habove]

/-- The nodes below a node are those that follow it, up to some node. -/
theorem descendants_eq_range' (i : Nat) :
    t.descendants i = List.range' (i + 1) (t.descendants i).length := by
  refine eq_range'_of_pairwise_lt (h.pairwise_descendants i) (fun x hx => ?_)
    fun x hx j hij hjx => ?_
  · exact lt_of_mem_ancestors (h.mem_descendants_iff.1 hx)
  · exact h.mem_descendants_iff.2
      (h.mem_ancestors_of_le (h.mem_descendants_iff.1 hx) hij (Nat.le_of_lt hjx))

theorem mem_descendants_iff_lt :
    j ∈ t.descendants i ↔ i < j ∧ j < i + 1 + (t.descendants i).length := by
  rw [h.descendants_eq_range' i, List.mem_range'_1, List.length_range']
  rfl

theorem add_length_descendants_le (hi : i < t.size) :
    i + 1 + (t.descendants i).length ≤ t.size := by
  by_contra hlt
  have hlast : t.size ∈ t.descendants i :=
    h.mem_descendants_iff_lt.2 ⟨hi, Nat.lt_of_not_le hlt⟩
  exact Nat.lt_irrefl _ (lt_size_of_mem_ancestors (h.mem_descendants_iff.1 hlast))

/-- The nodes from one node down stand side by side. -/
theorem nodesFrom_eq (hi : i < t.size) :
    t.nodesFrom i = (t.nodes.drop i).take ((t.descendants i).length + 1) := by
  have hle := h.add_length_descendants_le hi
  rw [nodesFrom, h.descendants_eq_range', ← List.range'_succ, List.length_range',
    filterMap_node?_range' (by omega)]

theorem nodesFrom_zero : t.nodesFrom 0 = t.nodes := by
  have hwalk : t.walk = 0 :: t.descendants 0 := if_neg (Nat.ne_of_gt h.size_pos)
  rw [nodesFrom, ← hwalk, h.walk_eq_range, List.range_eq_range',
    filterMap_node?_range' (Nat.le_of_eq (Nat.zero_add _)), List.drop_zero, ← length_nodes,
    List.take_length]

theorem length_nodesFrom (hi : i < t.size) :
    (t.nodesFrom i).length = (t.descendants i).length + 1 := by
  have hle := h.add_length_descendants_le hi
  rw [h.nodesFrom_eq hi, List.length_take, List.length_drop, length_nodes]
  omega

theorem getElem?_nodesFrom (hi : i < t.size) (hj : j < (t.nodesFrom i).length) :
    (t.nodesFrom i)[j]? = t.node? (i + j) := by
  rw [h.length_nodesFrom hi] at hj
  rw [h.nodesFrom_eq hi, List.getElem?_take_of_lt hj, List.getElem?_drop, getElem?_nodes]

/-- Behind the first of these nodes all stand deeper than it. -/
theorem indent_lt_of_nodesFrom {n m : Node} {below : List Node} (hi : i < t.size)
    (hnodes : t.nodesFrom i = n :: below) (hm : m ∈ below) : n.indent < m.indent := by
  obtain ⟨first, hfirst⟩ := exists_node? hi
  rw [nodesFrom_of_node? hfirst, List.cons.injEq] at hnodes
  obtain ⟨rfl, rfl⟩ := hnodes
  obtain ⟨j, hj, hjm⟩ := List.mem_filterMap.1 hm
  refine h.indent?_lt_of_mem_ancestors (h.mem_descendants_iff.1 hj) ?_ ?_
  · rw [indent?, hfirst, Option.map_some]
  · rw [indent?, hjm, Option.map_some]

section Equal

variable (h' : t'.Nested) (hi : i < t.size) (hnodes : t'.nodes = t.nodesFrom i)

include hi hnodes

theorem size_of_nodes_eq : t'.size = (t.descendants i).length + 1 := by
  rw [← length_nodes, hnodes, h.length_nodesFrom hi]

theorem node?_of_nodes_eq (hj : j < t'.size) : t'.node? j = t.node? (i + j) := by
  rw [← length_nodes, hnodes] at hj
  rw [← getElem?_nodes, hnodes, h.getElem?_nodesFrom hi hj]

include h'

/-- As the nodes stand equally deep, they have the same parents. -/
theorem parent?_add_of_parent? (hp : t'.parent? j = some p) :
    t.parent? (i + j) = some (i + p) := by
  have hindent : ∀ k ≤ j, t'.indent? k = t.indent? (i + k) := fun k hk => by
    have hlt := Nat.lt_of_le_of_lt hk (lt_size_of_parent? hp)
    rw [indent?, h.node?_of_nodes_eq hi hnodes hlt, indent?]
  exact h.parent?_eq_some_iff.2 ((lastAbove_add_iff hindent).2 (h'.lastAbove_of_parent? hp))

theorem parent?_add (hpos : 0 < j) (hj : j < t'.size) :
    t.parent? (i + j) = (t'.parent? j).map (i + ·) := by
  obtain ⟨p, hp⟩ := h'.exists_parent hpos hj
  rw [hp, h.parent?_add_of_parent? h' hi hnodes hp, Option.map_some]

/-- Both have their children in ascending order. A child in the large tree is below node `i`, and
so in the small one, too. -/
theorem children_add (hj : j < t'.size) : t.children (i + j) = (t'.children j).map (i + ·) := by
  have hsize := h.size_of_nodes_eq hi hnodes
  have hascending : ((t'.children j).map (i + ·)).Pairwise (· < ·) :=
    (h'.pairwise_children j).map _ fun a b hab => Nat.add_lt_add_left hab i
  refine (h.pairwise_children (i + j)).eq_of_mem_iff hascending fun c => ?_
  rw [h.mem_children_iff, List.mem_map]
  constructor
  · intro hc
    have hbelow : c ∈ t.descendants i := by
      refine h.mem_descendants_iff.2 (mem_ancestors.2 ⟨i + j, hc, ?_⟩)
      rcases Nat.eq_zero_or_pos j with rfl | hpos
      · exact .inl rfl
      · exact .inr (h.mem_descendants_iff.1 (h.mem_descendants_iff_lt.2 (by omega)))
    have hrange := h.mem_descendants_iff_lt.1 hbelow
    obtain ⟨k, rfl⟩ := Nat.exists_eq_add_of_le (Nat.le_of_lt hrange.1)
    rw [h.parent?_add h' hi hnodes (by omega) (by omega)] at hc
    obtain ⟨p, hp, hpj⟩ := Option.map_eq_some_iff.1 hc
    rw [Nat.add_left_cancel hpj] at hp
    exact ⟨k, h'.mem_children_iff.2 hp, rfl⟩
  · rintro ⟨k, hk, rfl⟩
    exact h.parent?_add_of_parent? h' hi hnodes (h'.mem_children_iff.1 hk)

/-- A tree in document order that holds the nodes from node `i` down is that part of the tree, as
their levels decide which of them belongs below which. -/
theorem isSubtree : t.IsSubtree i t' where
  size_eq := h.size_of_nodes_eq hi hnodes
  walk_eq := by
    rw [h'.walk_eq_range, h.size_of_nodes_eq hi hnodes, ← List.range'_eq_map_range,
      List.range'_succ, ← h.descendants_eq_range']
  node?_eq _ hj := h.node?_of_nodes_eq hi hnodes hj
  root_parent := t'.parent?_zero
  parent?_eq _ hj hpos := h.parent?_add h' hi hnodes hpos hj
  children_eq _ hj := h.children_add h' hi hnodes hj

end Equal

end Nested

end Tree

end DdlOrder
