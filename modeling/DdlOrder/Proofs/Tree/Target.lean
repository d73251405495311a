import DdlOrder.Proofs.Tree.Shape
import Mathlib.Data.List.Chain

/-!
# The nodes for the target of a view

Nodes that no line describes are added right behind the node that they belong to, so each
stands one level below the node before it (`Tree.indent?_of_line?_eq_none`) and is its child
(`Tree.parent?_of_line?_eq_none`). As lines go below nodes of lines only, such a node has no
other child than the one that was added behind it.

* `Tree.showsTarget_ofDump`: where the root creates a view with a named target, the target is
  the first child of the root, with the same table as its only child.
-/

namespace DdlOrder

/-- The node names this value, with this qualifier or without one. -/
def Node.Names (n : Node) (qualifier : Option String) (value : String) : Prop :=
  n.value = some value ∧ n.qualifier = qualifier

namespace Tree

variable {query : String} {lines : List String} {t : Tree} {i c : Nat} {target : List Char}

/-! ## Nodes without a line -/

theorem isChain_targetNodes (target : Option (List Char)) (n : Node) :
    (n :: Growing.targetNodes target n).IsChain fun a b =>
      b.line? = none → b.indent = a.indent + 1 := by
  unfold Growing.targetNodes
  split
  · split
    · simp [Growing.targetNode]
    · exact .singleton n
  · exact .singleton n

theorem isChain_flatMap_targetNodes (target : Option (List Char)) {ns : List Node}
    (hns : ∀ n ∈ ns, n.raw ≠ "") :
    (ns.flatMap fun n => n :: Growing.targetNodes target n).IsChain fun a b =>
      b.line? = none → b.indent = a.indent + 1 := by
  induction ns with
  | nil => exact .nil
  | cons n ns ih =>
    obtain ⟨-, hns⟩ := List.forall_mem_cons.1 hns
    refine List.isChain_append.2 ⟨isChain_targetNodes target n, ih hns, fun a _ b hb hline => ?_⟩
    -- what follows begins with the node of a line
    cases ns with
    | nil => cases hb
    | cons m ns =>
      cases hb
      rw [Node.line?, if_neg (hns b List.mem_cons_self)] at hline
      cases hline

/-- A node without a line stands one level below the node before it. -/
theorem indent?_of_line?_eq_none (h : ofDump query lines = .ok t) (hi : i + 1 < t.size)
    (hline : t.line? (i + 1) = none) : t.indent? (i + 1) = (t.indent? i).map (· + 1) := by
  obtain ⟨ns, hns, hnodes⟩ := nodes_ofDump h
  have hchain := isChain_flatMap_targetNodes (viewTarget? query) (raw_ne_empty_of_mapM hns)
  rw [← hnodes, List.isChain_iff_getElem] at hchain
  have hlen : i + 1 < t.nodes.length := by rwa [length_nodes]
  have hnode : ∀ {j}, (hj : j < t.nodes.length) → t.node? j = some t.nodes[j] := fun hj => by
    rw [← getElem?_nodes, List.getElem?_eq_getElem hj]
  rw [line?, hnode hlen] at hline
  rw [indent?, indent?, hnode hlen, hnode (Nat.lt_of_succ_lt hlen)]
  exact congrArg some (hchain i hlen hline)

/-- The parent of a node without a line is the node before it. -/
theorem parent?_of_line?_eq_none (h : ofDump query lines = .ok t) (hi : i + 1 < t.size)
    (hline : t.line? (i + 1) = none) : t.parent? (i + 1) = some i := by
  have hnested := nested_ofDump h
  obtain ⟨p, hp⟩ := hnested.exists_parent (Nat.succ_pos i) hi
  rcases hnested.parent_spine hp with rfl | habove
  · exact hp
  · obtain ⟨d, hpd, hid⟩ := hnested.exists_indent?_parent hp
    obtain ⟨e, he⟩ := exists_indent? (Nat.lt_of_succ_lt hi)
    rw [indent?_of_line?_eq_none h hi hline, he] at hid
    cases hid
    exact absurd (hnested.indent?_lt_of_mem_ancestors habove hpd he) (Nat.lt_irrefl _)

/-- A node without a line has no other child than the next node. -/
theorem eq_succ_of_mem_children (h : ofDump query lines = .ok t) (hline : t.line? i = none)
    (hc : c ∈ t.children i) : c = i + 1 := by
  have hnested := nested_ofDump h
  have hparent := hnested.mem_children_iff.1 hc
  have hcline : t.line? c = none := by
    by_contra hne
    have hup := hnested.line?_isSome hparent (Option.isSome_iff_ne_none.2 hne)
    rw [hline] at hup
    cases hup
  obtain ⟨hic, hsize⟩ := lt_of_mem_children hc
  obtain ⟨k, rfl⟩ := Nat.exists_eq_succ_of_ne_zero (Nat.ne_zero_of_lt hic)
  rw [parent?_of_line?_eq_none h hsize hcline] at hparent
  cases hparent
  rfl

/-! ## The target below the root -/

/-- Node `view` is the first child of the root and shows the target of a view; its only child
is node `table`, by which the statement refers to the same table. -/
structure ShowsTarget (t : Tree) (view table : Nat) (qualifier : Option String)
    (value : String) : Prop where
  first_child : (t.children 0).head? = some view
  only_child : t.children view = [table]
  view_node : ∃ n, t.node? view = some n ∧ n.kind = .materializedViewToTable ∧
    n.Names qualifier value
  table_node : ∃ n, t.node? table = some n ∧ n.kind = .tableIdentifier ∧
    n.Names qualifier value

/-- An ascending list begins with its least element. -/
theorem exists_cons_of_pairwise_lt {l : List Nat} {a : Nat} (h : l.Pairwise (· < ·))
    (ha : a ∈ l) (hle : ∀ b ∈ l, a ≤ b) : ∃ rest, l = a :: rest ∧ ∀ b ∈ rest, a < b := by
  cases l with
  | nil => cases ha
  | cons b rest =>
    obtain ⟨hb, -⟩ := List.pairwise_cons.1 h
    rcases List.mem_cons.1 ha with rfl | ha
    · exact ⟨rest, rfl, hb⟩
    · exact absurd (hle b List.mem_cons_self) (Nat.not_le_of_lt (hb a ha))

theorem nodes_of_root (h : ofDump query lines = .ok t) (hroot : t.kind? 0 = some .createQuery)
    (htarget : viewTarget? query = some target) :
    ∃ n rest, t.nodes = n :: Growing.targetNode n.indent target ::
      { Growing.targetNode n.indent target with
          kind := .tableIdentifier, indent := n.indent + 2 } :: rest := by
  obtain ⟨ns, hns, hnodes⟩ := nodes_ofDump h
  cases ns with
  | nil =>
    rw [kind?, ← getElem?_nodes, hnodes] at hroot
    cases hroot
  | cons n ns =>
    rw [kind?, ← getElem?_nodes, hnodes] at hroot
    have hkind : n.kind = .createQuery := Option.some.inj hroot
    refine ⟨n, ns.flatMap fun n => n :: Growing.targetNodes (some target) n, ?_⟩
    rw [hnodes, htarget, List.flatMap_cons, Growing.targetNodes, if_pos hkind]
    rfl

/-- The root of a statement that creates a view and names its target shows the target. -/
theorem showsTarget_ofDump (h : ofDump query lines = .ok t)
    (hroot : t.kind? 0 = some .createQuery) (htarget : viewTarget? query = some target)
    {qualifier : Option String} {value : String}
    (hnames : Line.splitValue "MaterializedViewToTable".toList target =
      (qualifier, some value)) : t.ShowsTarget 1 2 qualifier value := by
  have hnested := nested_ofDump h
  obtain ⟨n, rest, hnodes⟩ := nodes_of_root h hroot htarget
  have hsize : 2 < t.size := by
    rw [← length_nodes, hnodes]
    simp
  have hview : t.node? 1 = some (Growing.targetNode n.indent target) := by
    rw [← getElem?_nodes, hnodes]
    rfl
  have htable : t.node? 2 = some { Growing.targetNode n.indent target with
      kind := .tableIdentifier, indent := n.indent + 2 } := by
    rw [← getElem?_nodes, hnodes]
    rfl
  have hviewLine : t.line? 1 = none := by rw [line?, hview]; rfl
  have htableLine : t.line? 2 = none := by rw [line?, htable]; rfl
  have hnamed : (Growing.targetNode n.indent target).Names qualifier value := by
    rw [Node.Names, Growing.targetNode, hnames]
    exact ⟨rfl, rfl⟩
  refine ⟨?first, ?only, ⟨_, hview, rfl, hnamed⟩, ⟨_, htable, rfl, hnamed⟩⟩
  case first =>
    have hmem : 1 ∈ t.children 0 := hnested.mem_children_iff.2
      (parent?_of_line?_eq_none h (Nat.lt_of_succ_lt hsize) hviewLine)
    obtain ⟨others, hchildren, -⟩ := exists_cons_of_pairwise_lt (hnested.pairwise_children 0) hmem
      fun c hc => (lt_of_mem_children hc).1
    rw [hchildren, List.head?_cons]
  case only =>
    have hmem : 2 ∈ t.children 1 := hnested.mem_children_iff.2
      (parent?_of_line?_eq_none h hsize htableLine)
    obtain ⟨others, hchildren, hlt⟩ := exists_cons_of_pairwise_lt (hnested.pairwise_children 1) hmem
      fun c hc => (lt_of_mem_children hc).1
    have hnone : others = [] := List.eq_nil_iff_forall_not_mem.2 fun c hc => by
      have hc' : c ∈ t.children 1 := hchildren ▸ List.mem_cons_of_mem 2 hc
      exact absurd (eq_succ_of_mem_children h hviewLine hc') (Nat.ne_of_gt (hlt c hc))
    rw [hchildren, hnone]

end Tree

end DdlOrder
