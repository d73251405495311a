import DdlOrder.Proofs.Tree.Growth
import DdlOrder.Proofs.Tree.Linked

/-!
# The shape of a dump's tree

The tree of a dump shows the lines that describe nodes, each as one node, in document
order (`Tree.filterMap_line?_walk`). Only the target tables of views are added to them
(`Tree.size_ofDump`). Parents and children agree, and the walk from the root meets the nodes
as they were added (`ofDump_in_document_order`).
-/

namespace DdlOrder

namespace Line

/-- Whether the line describes a node of this kind. -/
def describes (kind : Kind) (line : String) : Bool := (parse? line).any (·.kind = kind)

variable {lines : List String} {ns : List Node}

theorem map_parse?_of_mapM (h : lines.mapM parse = .ok ns) : lines.map parse? = ns.map some := by
  have hparsed := mapM_eq_ok_iff.1 h
  induction hparsed with
  | nil => rfl
  | cons hn _ ih =>
    rw [List.map_cons, List.map_cons, parse_eq_ok_iff.1 hn, ih (mapM_eq_ok_iff.2 ‹_›)]

theorem map_raw_of_mapM (h : lines.mapM parse = .ok ns) : ns.map (·.raw) = lines := by
  have hparsed := mapM_eq_ok_iff.1 h
  induction hparsed with
  | nil => rfl
  | cons hn _ ih => rw [List.map_cons, raw_of_parse hn, ih (mapM_eq_ok_iff.2 ‹_›)]

theorem countP_describes_of_mapM (h : lines.mapM parse = .ok ns) (kind : Kind) :
    lines.countP (describes kind) = ns.countP (·.kind = kind) := by
  have hcount : lines.countP (describes kind) =
      (lines.map parse?).countP fun n => n.any (·.kind = kind) := by
    rw [List.countP_map]
    rfl
  rw [hcount, map_parse?_of_mapM h, List.countP_map]
  rfl

end Line

namespace Tree

variable {query : String} {lines : List String} {t : Tree}

/-! ## The lines of the nodes -/

theorem map_node?_range (t : Tree) : (List.range t.size).map t.node? = t.nodes.map some := by
  refine List.ext_getElem (by simp) fun i hi _ => ?_
  rw [List.getElem_map, List.getElem_range, List.getElem_map, ← List.getElem?_eq_getElem,
    getElem?_nodes]

theorem filterMap_line?_range (t : Tree) :
    (List.range t.size).filterMap t.line? = t.nodes.filterMap Node.line? := by
  have hline : t.line? = (Option.bind · Node.line?) ∘ t.node? := rfl
  rw [hline, ← List.filterMap_map, map_node?_range, List.filterMap_map]
  rfl

theorem Growing.line?_of_mem_targetNodes {target : Option (List Char)} {n m : Node}
    (hm : m ∈ targetNodes target n) : m.line? = none := by
  unfold targetNodes at hm
  split at hm
  · split at hm
    · rcases List.mem_cons.1 hm with rfl | hm
      · rfl
      · rw [List.mem_singleton.1 hm]
        rfl
    · cases hm
  · cases hm

/-- The nodes of kept lines are not mistaken for nodes without a line. -/
theorem raw_ne_empty_of_mapM {ns : List Node} (h : (keptLines lines).mapM Line.parse = .ok ns) :
    ∀ n ∈ ns, n.raw ≠ "" := fun _ hn =>
  ne_empty_of_mem_keptLines (Line.map_raw_of_mapM h ▸ List.mem_map_of_mem hn)

/-- A line's node shows the line, and the nodes that are added to it show none. -/
theorem filterMap_line?_targetNodes (target : Option (List Char)) {n : Node} (hn : n.raw ≠ "") :
    (n :: Growing.targetNodes target n).filterMap Node.line? = [n.raw] := by
  have htarget : (Growing.targetNodes target n).filterMap Node.line? = [] :=
    List.filterMap_eq_nil_iff.2 fun _ => Growing.line?_of_mem_targetNodes
  have hline : n.line? = some n.raw := if_neg hn
  rw [List.filterMap_cons_some hline, htarget]

theorem filterMap_line?_flatMap_targetNodes (target : Option (List Char)) {ns : List Node}
    (hns : ∀ n ∈ ns, n.raw ≠ "") :
    (ns.flatMap fun n => n :: Growing.targetNodes target n).filterMap Node.line? =
      ns.map (·.raw) := by
  rw [List.filterMap_flatMap,
    List.flatMap_congr fun n hn => filterMap_line?_targetNodes target (hns n hn),
    ← List.map_eq_flatMap]

/-- The lines of the nodes, as the walk meets them, are those of the dump. -/
theorem filterMap_line?_walk (h : ofDump query lines = .ok t) :
    t.walk.filterMap t.line? = keptLines lines := by
  obtain ⟨ns, hns, hnodes⟩ := nodes_ofDump h
  rw [(nested_ofDump h).walk_eq_range, filterMap_line?_range, hnodes,
    filterMap_line?_flatMap_targetNodes _ (raw_ne_empty_of_mapM hns), Line.map_raw_of_mapM hns]

/-! ## The number of nodes -/

theorem length_targetNodes (target : Option (List Char)) (n : Node) :
    (Growing.targetNodes target n).length =
      if target.isSome then if n.kind = .createQuery then 2 else 0 else 0 := by
  unfold Growing.targetNodes
  split
  · split <;> simp_all
  · rfl

theorem length_flatMap_targetNodes (target : Option (List Char)) (ns : List Node) :
    (ns.flatMap fun n => n :: Growing.targetNodes target n).length =
      ns.length + if target.isSome then 2 * ns.countP (·.kind = .createQuery) else 0 := by
  induction ns with
  | nil => simp
  | cons n ns ih =>
    rw [List.flatMap_cons, List.length_append, ih, List.length_cons, length_targetNodes,
      List.length_cons, List.countP_cons]
    split
    · by_cases hn : n.kind = .createQuery
      · simp only [hn, ↓reduceIte, decide_true]
        omega
      · simp only [hn, ↓reduceIte, decide_false, Bool.false_eq_true]
        omega
    · omega

/-- Each line has one node, and each view with a named target two more. -/
theorem size_ofDump (h : ofDump query lines = .ok t) :
    t.size = (keptLines lines).length +
      if (viewTarget? query).isSome then
        2 * (keptLines lines).countP (Line.describes .createQuery)
      else 0 := by
  obtain ⟨ns, hns, hnodes⟩ := nodes_ofDump h
  rw [← length_nodes, hnodes, length_flatMap_targetNodes, Line.countP_describes_of_mapM hns,
    ← (mapM_eq_ok_iff.1 hns).length_eq]

/-! ## Document order -/

/-- The tree shows the kept lines of a dump in document order. -/
structure Shows (query : String) (lines : List String) (t : Tree) : Prop where
  /-- There is a first node, and it is the only one without a parent. -/
  root_iff : ∀ i, i < t.size ∧ t.parent? i = none ↔ i = 0
  parent_lt : ∀ i p, t.parent? i = some p → p < i
  /-- Each node but the first is exactly once among the children of its parent. -/
  count_children : ∀ i p, t.parent? i = some p → (t.children p).count i = 1
  /-- No node is among the children of a node that is not its parent. -/
  parent_of_mem_children : ∀ i q, i ∈ t.children q → t.parent? i = some q
  children_ascend : ∀ i, (t.children i).Pairwise (· < ·)
  indent_eq : ∀ i p, t.parent? i = some p →
    ∃ n m, t.node? i = some n ∧ t.node? p = some m ∧ n.indent = m.indent + 1
  walk_eq : t.walk = List.range t.size
  /-- A walk with a stack meets the nodes in the order of their ids. -/
  preOrder_eq : t.preOrder [0] = List.range t.size
  /-- The nodes that come from lines come from the kept lines, one each and in their order. -/
  lines_eq : t.walk.filterMap t.line? = keptLines lines
  /-- There is one node for each kept line. Where the statement names a target, there are two more
  for each line that describes a creation. -/
  size_eq : t.size = (keptLines lines).length +
    if (viewTarget? query).isSome then 2 * (keptLines lines).countP (Line.describes .createQuery)
    else 0

end Tree

/-- The tree of a dump shows its kept lines in document order. -/
theorem ofDump_in_document_order {query : String} {lines : List String} {t : Tree}
    (h : Tree.ofDump query lines = .ok t) : t.Shows query lines where
  root_iff i := by
    have hnested := Tree.nested_ofDump h
    refine ⟨fun ⟨hi, hnone⟩ => ?_, ?_⟩
    · by_contra hpos
      obtain ⟨p, hp⟩ := hnested.exists_parent (Nat.pos_of_ne_zero hpos) hi
      cases hnone.symm.trans hp
    · rintro rfl
      exact ⟨hnested.size_pos, t.parent?_zero⟩
  parent_lt _ _ hp := Tree.parent?_lt hp
  count_children i p hp := by
    have hnested := Tree.nested_ofDump h
    exact List.count_eq_one_of_mem ((hnested.pairwise_children p).imp Nat.ne_of_lt)
      (hnested.mem_children_iff.2 hp)
  parent_of_mem_children _ _ hq := (Tree.nested_ofDump h).mem_children_iff.1 hq
  children_ascend := (Tree.nested_ofDump h).pairwise_children
  indent_eq i p hp := by
    obtain ⟨d, hd, hi⟩ := (Tree.nested_ofDump h).exists_indent?_parent hp
    obtain ⟨m, hm, rfl⟩ := Option.map_eq_some_iff.1 hd
    obtain ⟨n, hn, hnm⟩ := Option.map_eq_some_iff.1 hi
    exact ⟨n, m, hn, hm, hnm⟩
  walk_eq := (Tree.nested_ofDump h).walk_eq_range
  preOrder_eq := by
    have hnested := Tree.nested_ofDump h
    rw [← hnested.walk_eq_range, Tree.walk_eq_preOrder, if_neg (Nat.ne_of_gt hnested.size_pos)]
  lines_eq := Tree.filterMap_line?_walk h
  size_eq := Tree.size_ofDump h

/-- A view that fills a table: of the five lines one repeats the statement and one is blank,
and the table's two nodes stand between the view's node and that of the line after it. -/
theorem ofDump_in_document_order_view :
    let query := "create materialized view v to d.t as select 1"
    let lines := ["Explain EXPLAIN AST create materialized view v to d.t as select 1",
      " CreateQuery  v (children 1)", "   ", "  SelectQuery (children 1)", "   Asterisk"]
    ∃ t, Tree.ofDump query lines = .ok t ∧ t.size = 5 ∧ t.children 0 = [1, 3] ∧
      t.Shows query lines := by
  intro query lines
  have hrun : (match Tree.ofDump query lines with
      | .ok t => t.size == 5 && t.children 0 == [1, 3]
      | .error _ => false) = true := by decide +kernel
  split at hrun
  · rename_i t h
    obtain ⟨hsize, hchildren⟩ := Bool.and_eq_true_iff.1 hrun
    exact ⟨t, h, eq_of_beq hsize, eq_of_beq hchildren, ofDump_in_document_order h⟩
  · cases hrun

end DdlOrder
