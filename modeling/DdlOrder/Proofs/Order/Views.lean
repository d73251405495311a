import DdlOrder.Proofs.Line.Fields
import DdlOrder.Proofs.Order.Dependencies
import DdlOrder.Proofs.Rule
import DdlOrder.Proofs.Statement.Names
import DdlOrder.Proofs.Tree.Target
import DdlOrder.Proofs.ViewTarget

/-!
# Views wait for the tables they fill

A dump does not show the table that a materialized view fills. It is read from the
statement's text and added to the tree as a table that the statement refers to, so the
statement stands behind the one that creates the table (`target_stands_before_view`).
-/

namespace DdlOrder

namespace ViewTarget

/-- The target is a table's name, alone or behind that of its database. -/
inductive TableName : List Char → Option String → String → Prop where
  | plain {table : List Char} (htable : IsRun isWordChar table) :
    TableName table none (String.ofList table)
  | qualified {database table : List Char} (hdatabase : IsRun isWordChar database)
    (htable : IsRun isWordChar table) :
    TableName (database ++ '.' :: table) (some (String.ofList database)) (String.ofList table)

theorem IsRun.notMem_dot {s : List Char} (h : IsRun isWordChar s) : '.' ∉ s := fun hmem => by
  have hdot : isWordChar '.' = false := by decide
  cases hdot.symm.trans (h.forall_mem '.' hmem)

theorem TableName.splitValue {target : List Char} {qualifier : Option String} {table : String}
    (h : TableName target qualifier table) :
    Line.splitValue "MaterializedViewToTable".toList target = (qualifier, some table) := by
  cases h with
  | plain htable =>
    rw [Line.splitValue_of_notMem _ htable.notMem_dot, Line.nonEmpty?_of_ne_nil htable.ne_nil]
  | qualified hdatabase htable =>
    rw [Line.splitValue_dot (by decide) hdatabase.notMem_dot htable.notMem_dot,
      Line.nonEmpty?_of_ne_nil hdatabase.ne_nil, Line.nonEmpty?_of_ne_nil htable.ne_nil]

end ViewTarget

/-- The table that a view fills is one that the statement refers to. -/
theorem Tree.ShowsTarget.mem_referencedTables {s : Statement} (hs : s.tree.Linked)
    {view table : Nat} {qualifier : Option String} {value : String}
    (h : s.tree.ShowsTarget view table qualifier value) : value ∈ s.referencedTables := by
  obtain ⟨n, hn, hkind, hvalue, -⟩ := h.table_node
  have hkind? : s.tree.kind? table = some .tableIdentifier := by
    rw [Tree.kind?, hn, Option.map_some, hkind]
  exact Statement.mem_referencedTables_of_value (Statement.mem_walk_of_kind? hs hkind?) hn hkind
    hvalue

/-- A statement whose text begins by creating a materialized view with a target, and whose
dump's root creates something, has the target below that root, and comes behind every other
statement that creates a table of that name. -/
theorem target_stands_before_view {query : String} {lines : List String} {s : Statement}
    {target : List Char} {qualifier : Option String} {table : String}
    (hclause : ViewTarget.Clause target query.toList)
    (htable : ViewTarget.TableName target qualifier table)
    (hs : Statement.ofDump query lines = .ok s) (hroot : s.tree.kind? 0 = some .createQuery) :
    (∃ i j, s.tree.ShowsTarget i j qualifier table) ∧
      ∀ (m : Matching) (statements ordered : List Statement),
        orderStatements m statements = .ok ordered →
        ∃ order, Arranged m statements ordered order ∧
          ∀ i j : Fin statements.length, i ≠ j → statements.get j = s →
            table ∈ (statements.get i).createdTables → order.idxOf i < order.idxOf j := by
  have htree := Statement.tree_ofDump hs
  have hshows := Tree.showsTarget_ofDump htree hroot (viewTarget?_of_clause hclause)
    htable.splitValue
  refine ⟨⟨1, 2, hshows⟩, fun m statements ordered hordered => ?_⟩
  obtain ⟨order, harranged⟩ := exists_arranged hordered
  refine ⟨order, harranged, fun i j hij hj hcreated =>
    harranged.idxOf_lt_of_holds hij .createsTable ?_⟩
  refine Rule.holds_createsTable.2 ⟨table, hcreated, .inl ?_⟩
  rw [Facts.ofStatement, hj]
  exact hshows.mem_referencedTables (Tree.linked_ofDump htree)

/-- A view on a cluster comes behind the table that it fills, which its dump does not show. -/
theorem target_stands_before_view_cluster :
    let query := "Create\tMATERIALIZED view if not  exists v on cluster main TO d.t(x Int8)"
    let viewLines := ["CreateQuery  v (children 1)", " SelectQuery (children 1)", "  Asterisk"]
    let createLines := ["CreateQuery d t (children 2)", " Identifier d", " Identifier t"]
    ∃ view create ordered,
      Statement.ofDump query viewLines = .ok view ∧
      Statement.ofDump "CREATE TABLE d.t" createLines = .ok create ∧
      orderStatements .name [view, create] = .ok ordered ∧
      ViewTarget.Clause "d.t".toList query.toList ∧
      ViewTarget.TableName "d.t".toList (some "d") "t" ∧
      view.tree.kind? 0 = some .createQuery ∧ "t" ∈ create.createdTables ∧
      (∃ i j, view.tree.ShowsTarget i j (some "d") "t") ∧
      ∃ order : List (Fin 2), Arranged .name [view, create] ordered order ∧
        order.idxOf 1 < order.idxOf 0 := by
  intro query viewLines createLines
  have hrun : (match Statement.ofDump query viewLines,
        Statement.ofDump "CREATE TABLE d.t" createLines with
      | .ok view, .ok create =>
        (orderStatements .name [view, create]).isOk &&
          decide (view.tree.kind? 0 = some .createQuery) && decide ("t" ∈ create.createdTables)
      | _, _ => false) = true := by decide +kernel
  split at hrun
  case h_2 => cases hrun
  rename_i view create hview hcreate
  simp only [Bool.and_eq_true, decide_eq_true_eq] at hrun
  obtain ⟨⟨hok, hroot⟩, hcreated⟩ := hrun
  obtain ⟨ordered, hordered⟩ := exists_eq_ok_of_isOk hok
  have isRun {p : Char → Bool} {t : List Char} (hne : t ≠ []) (hall : t.all p = true) :
      ViewTarget.IsRun p t := ⟨hne, List.all_eq_true.1 hall⟩
  have hspace : ViewTarget.IsRun isBlankChar [' '] := isRun (by decide) (by decide)
  have hsplit : query.toList =
      ("Create".toList ++ ['\t']) ++ (("MATERIALIZED".toList ++ [' ']) ++
      (("view".toList ++ [' ']) ++ ((("if".toList ++ [' ']) ++ (("not".toList ++ [' ', ' ']) ++
      ("exists".toList ++ [' ']))) ++ (['v'] ++ ([' '] ++ ((("on".toList ++ [' ']) ++
      (("cluster".toList ++ [' ']) ++ ("main".toList ++ [' ']))) ++ (("TO".toList ++ [' ']) ++
      ("d.t".toList ++ ('(' :: "x Int8)".toList))))))))) := by decide
  have hclause : ViewTarget.Clause "d.t".toList query.toList := by
    rw [hsplit]
    exact .intro (.intro (by decide) (isRun (by decide) (by decide))) (.intro (by decide) hspace)
      (.intro (by decide) hspace)
      (.present (.intro (by decide) hspace) (.intro (by decide) (isRun (by decide) (by decide)))
        (.intro (by decide) hspace))
      (isRun (by decide) (by decide)) hspace
      (.present (.intro (by decide) hspace) (.intro (by decide) hspace)
        (isRun (by decide) (by decide)) hspace)
      (.intro (by decide) hspace) (isRun (by decide) (by decide)) (by rintro c ⟨⟩; decide)
  have hd : ViewTarget.IsRun isWordChar ['d'] := isRun (by decide) (by decide)
  have ht : ViewTarget.IsRun isWordChar ['t'] := isRun (by decide) (by decide)
  have htable : ViewTarget.TableName "d.t".toList (some "d") "t" := .qualified hd ht
  obtain ⟨hshows, horders⟩ := target_stands_before_view hclause htable hview hroot
  obtain ⟨order, harranged, hlt⟩ := horders .name [view, create] ordered hordered
  have hne : (1 : Fin 2) ≠ 0 := by decide
  exact ⟨view, create, ordered, hview, hcreate, hordered, hclause, htable, hroot, hcreated, hshows,
    order, harranged, hlt 1 0 hne rfl hcreated⟩

end DdlOrder
