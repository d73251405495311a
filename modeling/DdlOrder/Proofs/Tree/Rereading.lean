import DdlOrder.Proofs.Tree.Indentation
import DdlOrder.Proofs.Tree.Subtree
import DdlOrder.Proofs.Tree.Target

/-!
# Reading a part of a dump again

The lines of a node and of the nodes below it are a dump of their own: they stand side by side,
the first above the others, and the nodes that no line describes are added to the same
nodes again (`Tree.exists_nodesFrom`). So reading them gives the part of the tree from that node
down (`Tree.exists_isSubtree`), and the lines of the root and of what is below it give the whole
tree again (`ofDump_linesFrom`).
-/

namespace DdlOrder

namespace Line

variable {lines : List String} {ns : List Node} {n : Node}

theorem parse_raw_of_mapM (h : lines.mapM parse = .ok ns) (hn : n ∈ ns) :
    parse n.raw = .ok n := by
  obtain ⟨line, -, hparse⟩ := exists_of_mem_of_forall₂ (mapM_eq_ok_iff.1 h).flip hn
  rwa [raw_of_parse hparse]

theorem mapM_parse_raw (h : ∀ n ∈ ns, parse n.raw = .ok n) :
    (ns.map (·.raw)).mapM parse = .ok ns := by
  rw [mapM_eq_ok_iff, List.forall₂_map_left_iff, List.forall₂_same]
  exact h

end Line

namespace Tree

variable {query : String} {lines : List String} {t : Tree} {i : Nat}

/-- The lines of node `i` and of the nodes below it, as the walk meets them. A node that no line
describes has an empty one. -/
def linesFrom (t : Tree) (i : Nat) : List String := (t.nodesFrom i).map (·.raw)

/-! ## The lines of a part -/

/-- Where the nodes of some lines are cut ahead of a line's node, the lines are, too. -/
theorem Growing.exists_append_of_flatMap_targetNodes {target : Option (List Char)}
    {ns before after : List Node}
    (h : (ns.flatMap fun n => n :: targetNodes target n) = before ++ after)
    (hafter : ∀ n ∈ after.head?, n.line? ≠ none) :
    ∃ ms ls, ns = ms ++ ls ∧ (ms.flatMap fun n => n :: targetNodes target n) = before ∧
      (ls.flatMap fun n => n :: targetNodes target n) = after := by
  induction ns generalizing before with
  | nil =>
    obtain ⟨rfl, rfl⟩ := List.append_eq_nil_iff.1 h.symm
    exact ⟨[], [], rfl, rfl, rfl⟩
  | cons n ns ih =>
    cases before with
    | nil => exact ⟨[], n :: ns, rfl, rfl, h⟩
    | cons m before =>
      rw [List.flatMap_cons, List.cons_append, List.cons_append, List.cons.injEq] at h
      obtain ⟨rfl, h⟩ := h
      rcases List.append_eq_append_iff.1 h with ⟨rest, rfl, hrest⟩ | ⟨rest, htarget, rfl⟩
      · obtain ⟨ms, ls, rfl, rfl, rfl⟩ := ih hrest
        exact ⟨n :: ms, ls, rfl, rfl, rfl⟩
      · -- the nodes that are added for a target have no line, so none of them comes first
        cases rest with
        | nil =>
          refine ⟨[n], ns, rfl, ?_, rfl⟩
          rw [List.flatMap_singleton, htarget, List.append_nil]
        | cons k rest =>
          have hmem : k ∈ targetNodes target n :=
            htarget ▸ List.mem_append_right _ List.mem_cons_self
          exact absurd (line?_of_mem_targetNodes hmem) (hafter k rfl)

theorem Growing.keptLines_targetNodes (target : Option (List Char)) {n : Node}
    (hn : isKept n.raw = true) :
    keptLines ((n :: targetNodes target n).map (·.raw)) = [n.raw] := by
  have htarget : keptLines ((targetNodes target n).map (·.raw)) = [] := by
    refine List.filter_eq_nil_iff.2 fun raw hraw => ?_
    obtain ⟨m, hm, rfl⟩ := List.mem_map.1 hraw
    have hline := line?_of_mem_targetNodes hm
    simp only [Node.line?, ite_eq_left_iff, reduceCtorEq, imp_false, not_not] at hline
    rw [hline]
    decide
  rw [List.map_cons, keptLines, List.filter_cons_of_pos hn, ← keptLines, htarget]

/-- Nodes that were read from lines, each followed by those for a target, give these lines back:
the nodes for a target have no line that is kept. -/
theorem Growing.keptLines_flatMap_targetNodes (target : Option (List Char)) {ns : List Node}
    (hns : ∀ n ∈ ns, isKept n.raw = true) :
    keptLines ((ns.flatMap fun n => n :: targetNodes target n).map (·.raw)) = ns.map (·.raw) := by
  calc keptLines ((ns.flatMap fun n => n :: targetNodes target n).map (·.raw))
      = ns.flatMap fun n => keptLines ((n :: targetNodes target n).map (·.raw)) := by
        rw [keptLines, List.map_flatMap, List.filter_flatMap]
        rfl
    _ = ns.flatMap fun n => [n.raw] :=
        List.flatMap_congr fun n hn => keptLines_targetNodes target (hns n hn)
    _ = ns.map (·.raw) := List.map_eq_flatMap.symm

theorem isKept_raw_of_mapM {ns : List Node} (h : (keptLines lines).mapM Line.parse = .ok ns)
    {n : Node} (hn : n ∈ ns) : isKept n.raw = true := by
  have hline : n.raw ∈ keptLines lines := Line.map_raw_of_mapM h ▸ List.mem_map_of_mem hn
  exact (List.mem_filter.1 hline).2

section Dump

variable (h : ofDump query lines = .ok t)

include h

/-- What follows the nodes below a node was read from a line, as it would else be below them,
too. -/
theorem line?_ne_none_of_mem_head? {n : Node}
    (hn : n ∈ (t.nodes.drop (i + ((t.descendants i).length + 1))).head?) : n.line? ≠ none := by
  have hnested := nested_ofDump h
  intro hnone
  rw [Option.mem_def, List.head?_drop, getElem?_nodes, ← Nat.add_assoc] at hn
  have hline : t.line? (i + (t.descendants i).length + 1) = none := by
    rw [line?, hn, Option.bind_some, hnone]
  have hparent := parent?_of_line?_eq_none h (lt_size_of_node? hn) hline
  have hbelow : i + (t.descendants i).length + 1 ∈ t.descendants i := by
    refine hnested.mem_descendants_iff.2 (mem_ancestors.2 ⟨_, hparent, ?_⟩)
    rcases Nat.eq_zero_or_pos (t.descendants i).length with hzero | hpos
    · exact .inl (by omega)
    · exact .inr (hnested.mem_descendants_iff.1 (hnested.mem_descendants_iff_lt.2 (by omega)))
  have := hnested.mem_descendants_iff_lt.1 hbelow
  omega

/-- The nodes from a line's node down are those of some lines of the dump that stand side by
side. -/
theorem exists_nodesFrom (hi : (t.line? i).isSome) :
    ∃ before n ns after, (keptLines lines).mapM Line.parse = .ok (before ++ (n :: ns ++ after)) ∧
      t.nodesFrom i =
        (n :: ns).flatMap fun n => n :: Growing.targetNodes (viewTarget? query) n := by
  have hnested := nested_ofDump h
  obtain ⟨line, hline⟩ := Option.isSome_iff_exists.1 hi
  obtain ⟨n, hn, hnline⟩ := Option.bind_eq_some_iff.1 hline
  obtain ⟨all, hall, hnodes⟩ := nodes_ofDump h
  have hcut : (all.flatMap fun n => n :: Growing.targetNodes (viewTarget? query) n) =
      t.nodes.take i ++
        (t.nodesFrom i ++ t.nodes.drop (i + ((t.descendants i).length + 1))) := by
    rw [← hnodes, hnested.nodesFrom_eq (lt_size_of_node? hn), ← List.drop_drop,
      List.take_append_drop, List.take_append_drop]
  have hfirst := nodesFrom_of_node? hn
  obtain ⟨before, rest, rfl, -, hrest⟩ :=
    Growing.exists_append_of_flatMap_targetNodes hcut fun m hm => by
      rw [hfirst] at hm
      cases hm
      rw [hnline]
      exact Option.some_ne_none line
  obtain ⟨ns, after, rfl, hns, -⟩ :=
    Growing.exists_append_of_flatMap_targetNodes hrest fun m hm =>
      line?_ne_none_of_mem_head? h hm
  cases ns with
  | nil => cases hns.trans hfirst
  | cons n ns => exact ⟨before, n, ns, after, hall, hns.symm⟩

/-- The lines of a node and of those below it are well indented on their own, without the lines
before and after them. -/
theorem wellIndented_of_nodesFrom {before ns after : List Node} {n : Node} (hi : i < t.size)
    (hparse : (keptLines lines).mapM Line.parse = .ok (before ++ (n :: ns ++ after)))
    (hnodes : t.nodesFrom i =
      (n :: ns).flatMap fun n => n :: Growing.targetNodes (viewTarget? query) n) :
    WellIndented ((n :: ns).map (·.raw)) := by
  have hindent : ∀ m ∈ before ++ (n :: ns ++ after), Line.indent m.raw = m.indent :=
    fun m hm => (Line.indent_of_parse (Line.parse_raw_of_mapM hparse hm)).symm
  have hall := (ofDump_isOk_iff.1 ⟨t, h⟩).2
  rw [← Line.map_raw_of_mapM hparse, List.map_append, List.map_append, List.map_cons] at hall
  refine hall.of_infix fun line hline => ?_
  obtain ⟨m, hm, rfl⟩ := List.mem_map.1 hline
  rw [hindent n (by simp), hindent m (by simp [hm])]
  refine (nested_ofDump h).indent_lt_of_nodesFrom hi hnodes (List.mem_append_right _ ?_)
  exact List.mem_flatMap.2 ⟨m, hm, List.mem_cons_self⟩

/-- The lines from a line's node down have a tree, which is the part of the dump's tree from that
node down. -/
theorem exists_isSubtree (hi : (t.line? i).isSome) :
    ∃ t', ofDump query (t.linesFrom i) = .ok t' ∧ t.IsSubtree i t' := by
  have hsize := lt_size_of_line? hi
  obtain ⟨before, n, ns, after, hparse, hnodes⟩ := exists_nodesFrom h hi
  have hmem : ∀ m ∈ n :: ns, m ∈ before ++ (n :: ns ++ after) := fun m hm =>
    List.mem_append_right before (List.mem_append_left after hm)
  have hkept : keptLines (t.linesFrom i) = (n :: ns).map (·.raw) := by
    rw [linesFrom, hnodes]
    exact Growing.keptLines_flatMap_targetNodes _ fun m hm =>
      isKept_raw_of_mapM hparse (hmem m hm)
  obtain ⟨t', ht'⟩ : ∃ t', ofDump query (t.linesFrom i) = .ok t' := by
    rw [ofDump_isOk_iff, hkept]
    exact ⟨List.cons_ne_nil _ _, wellIndented_of_nodesFrom h hsize hparse hnodes⟩
  have hnodes' : t'.nodes = t.nodesFrom i := by
    obtain ⟨ms, hms, hnodes'⟩ := nodes_ofDump ht'
    rw [hkept, Line.mapM_parse_raw fun m hm => Line.parse_raw_of_mapM hparse (hmem m hm)] at hms
    cases hms
    rw [hnodes', hnodes]
  exact ⟨t', ht', (nested_ofDump h).isSubtree (nested_ofDump ht') hsize hnodes'⟩

/-- The lines of the root and of what is below it are those of the whole dump. -/
theorem keptLines_linesFrom_zero : keptLines (t.linesFrom 0) = keptLines lines := by
  obtain ⟨ns, hns, hnodes⟩ := nodes_ofDump h
  rw [linesFrom, (nested_ofDump h).nodesFrom_zero, hnodes,
    Growing.keptLines_flatMap_targetNodes _ fun _ => isKept_raw_of_mapM hns,
    Line.map_raw_of_mapM hns]

end Dump

end Tree

/-- The lines from a line's node down have a tree, which is the part of the dump's tree from that
node down, the nodes for the targets of views among its nodes. The lines from the root down have
the whole tree. -/
theorem ofDump_linesFrom {query : String} {lines : List String} {t : Tree}
    (h : Tree.ofDump query lines = .ok t) :
    (∀ i, (t.line? i).isSome →
      ∃ t', Tree.ofDump query (t.linesFrom i) = .ok t' ∧ t.IsSubtree i t') ∧
      Tree.ofDump query (t.linesFrom 0) = .ok t := by
  refine ⟨fun i hi => Tree.exists_isSubtree h hi, ?_⟩
  rw [Tree.ofDump, Tree.keptLines_linesFrom_zero h, ← Tree.ofDump, h]

/-- A view that fills a table, below another node: its lines stand in the middle of the dump, and
the two nodes for the table are added again, though their lines are empty. -/
theorem ofDump_linesFrom_view :
    let query := "create materialized view v to d.t as select 1"
    let lines := [" X", "  CreateQuery  v (children 1)", "   SelectQuery (children 1)",
      "    Asterisk", "  Y"]
    ∃ t t', Tree.ofDump query lines = .ok t ∧
      t.linesFrom 1 = ["  CreateQuery  v (children 1)", "", "", "   SelectQuery (children 1)",
        "    Asterisk"] ∧
      Tree.ofDump query (t.linesFrom 1) = .ok t' ∧ t.IsSubtree 1 t' ∧
      Tree.ofDump query (t.linesFrom 0) = .ok t := by
  intro query lines
  have hrun : (match Tree.ofDump query lines with
      | .ok t => (t.line? 1).isSome && t.linesFrom 1 == ["  CreateQuery  v (children 1)", "", "",
          "   SelectQuery (children 1)", "    Asterisk"]
      | .error _ => false) = true := by decide +kernel
  split at hrun
  · rename_i t h
    obtain ⟨hline, hlines⟩ := Bool.and_eq_true_iff.1 hrun
    obtain ⟨hparts, hwhole⟩ := ofDump_linesFrom h
    obtain ⟨t', ht', hsub⟩ := hparts 1 hline
    exact ⟨t, t', h, eq_of_beq hlines, ht', hsub, hwhole⟩
  · cases hrun

end DdlOrder
