import DdlOrder.Proofs.Tree.Growth
import DdlOrder.Proofs.Tree.Reading
import DdlOrder.Statement

/-!
# The names and columns of a parsed statement

What the extractors of a statement list, node by node, and how the columns that a
statement pins to a table lead back to that table:

* `Statement.mem_valuesOfKind_iff`, `Statement.mem_referencedTables_of_value`: names;
* `Statement.mem_createdTables_of_createdColumns`,
  `Statement.mem_alterTargets_of_alterColumns`: a column is declared or altered in a table
  that the statement creates or alters.
-/

namespace DdlOrder

namespace Statement

variable {s : Statement} {query : String} {lines : List String}

/-- The statement was read from a dump. -/
def IsParsed (s : Statement) : Prop := ∃ query lines, ofDump query lines = .ok s

theorem tree_ofDump (h : ofDump query lines = .ok s) : Tree.ofDump query lines = .ok s.tree := by
  obtain ⟨t, ht, rfl⟩ := map_eq_ok_iff.1 h
  exact ht

theorem IsParsed.linked (h : s.IsParsed) : s.tree.Linked := by
  obtain ⟨query, lines, h⟩ := h
  exact Tree.linked_ofDump (tree_ofDump h)

theorem IsParsed.nested (h : s.IsParsed) : s.tree.Nested := by
  obtain ⟨query, lines, h⟩ := h
  exact Tree.nested_ofDump (tree_ofDump h)

theorem mem_valuesOfKind_iff {kind : Kind} {v : String} :
    v ∈ s.valuesOfKind kind ↔
      ∃ i ∈ s.tree.walk, s.tree.kind? i = some kind ∧ s.tree.value? i = some v := by
  simp only [valuesOfKind, valuesWhere, List.mem_filterMap, List.mem_filter, beq_iff_eq, and_assoc]

theorem mem_valuesOfKind_of_node {kind : Kind} {v : String} {i : Nat} {n : Node}
    (hi : i ∈ s.tree.walk) (hn : s.tree.node? i = some n) (hkind : n.kind = kind)
    (hvalue : n.value = some v) : v ∈ s.valuesOfKind kind := by
  refine mem_valuesOfKind_iff.2 ⟨i, hi, ?_, ?_⟩
  · rw [Tree.kind?, hn, Option.map_some, hkind]
  · rw [Tree.value?, hn, Option.bind_some, hvalue]

theorem mem_referencedTables_of_value {v : String} {i : Nat} {n : Node} (hi : i ∈ s.tree.walk)
    (hn : s.tree.node? i = some n) (hkind : n.kind = .tableIdentifier)
    (hvalue : n.value = some v) : v ∈ s.referencedTables := by
  refine List.mem_flatMap.2 ⟨i, hi, ?_⟩
  rw [hn]
  simp [hkind, hvalue]

/-! ## The tables of columns -/

theorem parentOfKind?_eq_some_iff {t : Tree} {i p : Nat} {kind : Kind} :
    t.parentOfKind? i kind = some p ↔ t.parent? i = some p ∧ t.kind? p = some kind := by
  simp [Tree.parentOfKind?, Option.filter_eq_some_iff]

theorem mem_walk_of_kind? {t : Tree} (ht : t.Linked) {i : Nat} {kind : Kind}
    (h : t.kind? i = some kind) : i ∈ t.walk := by
  obtain ⟨n, hn, -⟩ := Option.map_eq_some_iff.1 h
  obtain ⟨e, he, -⟩ := Option.map_eq_some_iff.1 hn
  exact ht.mem_walk_iff.2 (Array.getElem?_eq_some_iff.1 he).1

/-- A column that is declared in a known table is declared in one that is created. -/
theorem mem_createdTables_of_createdColumns (hs : s.IsParsed) {table name : String}
    (h : { table := some table, name } ∈ s.createdColumns) : table ∈ s.createdTables := by
  obtain ⟨i, -, hi⟩ := List.mem_filterMap.1 h
  split at hi
  · obtain ⟨create, hcreate, hi⟩ := Option.bind_eq_some_iff.1 hi
    obtain ⟨v, -, hcolumn⟩ := Option.map_eq_some_iff.1 hi
    have htable : s.tree.value? create = some table := congrArg ColumnRef.table hcolumn
    obtain ⟨list, -, hcreate⟩ := Option.bind_eq_some_iff.1 hcreate
    obtain ⟨columns, -, hcreate⟩ := Option.bind_eq_some_iff.1 hcreate
    have hkind := (parentOfKind?_eq_some_iff.1 hcreate).2
    exact mem_valuesOfKind_iff.2 ⟨create, mem_walk_of_kind? hs.linked hkind, hkind, htable⟩
  · cases hi

/-- A column that is altered in a known table is altered in one that the statement names
as its target. -/
theorem mem_alterTargets_of_alterColumns (hs : s.IsParsed) {kind : AlterKind}
    {table name : String} (h : { table := some table, name } ∈ s.alterColumns kind) :
    table ∈ s.alterTargets := by
  obtain ⟨i, -, hi⟩ := List.mem_filterMap.1 h
  split at hi
  · obtain ⟨v, -, hcolumn⟩ := Option.map_eq_some_iff.1 hi
    have htable : s.tree.alteredTable? i = some table := congrArg ColumnRef.table hcolumn
    obtain ⟨alter, halter, hvalue⟩ := Option.bind_eq_some_iff.1 htable
    have hkind : s.tree.kind? alter = some .alterQuery := by
      simpa using List.find?_some halter
    exact mem_valuesOfKind_iff.2 ⟨alter, mem_walk_of_kind? hs.linked hkind, hkind, hvalue⟩
  · cases hi

end Statement

end DdlOrder
