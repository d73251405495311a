import DdlOrder.Proofs.Entries
import DdlOrder.Proofs.Statement.Names
import DdlOrder.Proofs.Tree.Climbing

/-!
# Which table a selected column belongs to

The identifiers in the SELECTs of a statement name columns (`Tree.UsesColumn`). The table of a
column is one that the nearest SELECT around its identifier reads itself (`Tree.ReadsTable`): the
first that goes by the identifier's qualifier or, without a qualifier, the only one
(`Tree.TableOf`). The tables are looked for below the SELECT and held against the nearest SELECT
above them; as looking down and climbing up agree, this finds all of them, in document order.

* `Tree.tableOf_selectedTable?`: the table that is found is the one that the SELECT calls for;
* `selectedColumns_resolve`: the columns of a statement, one by one.
-/

namespace DdlOrder

/-! ## What the tree says of tables and columns -/

/-- The table of a node is called by this name, its own or its alias. -/
def Node.GoesBy (n : Node) (name : String) : Prop :=
  n.value = some name ∨ n.aliasName = some name

namespace Tree

variable {t : Tree} {s i j : Nat} {n : Node}

/-- Node `j` shows a table that the SELECT at `s` reads itself: not one further in reads it, nor
one around. -/
structure ReadsTable (t : Tree) (s j : Nat) (table : Node) : Prop where
  node?_eq : t.node? j = some table
  kind_eq : table.kind = .tableIdentifier
  isSome_value : table.value.isSome
  nearest : t.Nearest .selectQuery s j

/-- The table, if any, of an identifier with or without a qualifier in the SELECT at `s`. -/
inductive TableOf (t : Tree) (s : Nat) : Option String → Option String → Prop where
  /-- The first table that goes by the qualifier. -/
  | named {qualifier : String} {j : Nat} {table : Node} (h : t.ReadsTable s j table)
      (hname : table.GoesBy qualifier)
      (hfirst : ∀ k other, t.ReadsTable s k other → other.GoesBy qualifier → j ≤ k) :
      TableOf t s (some qualifier) table.value
  /-- No table goes by the qualifier. -/
  | unknown {qualifier : String}
      (h : ∀ j table, t.ReadsTable s j table → ¬ table.GoesBy qualifier) :
      TableOf t s (some qualifier) none
  /-- The only table. -/
  | only {j : Nat} {table : Node} (h : t.ReadsTable s j table)
      (honly : ∀ k other, t.ReadsTable s k other → k = j) : TableOf t s none table.value
  /-- There is no table, or there are several. -/
  | unclear (h : ¬ ∃! j, ∃ table, t.ReadsTable s j table) : TableOf t s none none

/-- Node `i` is an identifier with a value inside a SELECT, though not right below it. -/
def UsesColumn (t : Tree) (i : Nat) : Prop :=
  (∃ n, t.node? i = some n ∧ n.kind = .identifier ∧ n.value.isSome) ∧
    (∃ s ∈ t.ancestors i, t.kind? s = some .selectQuery) ∧
    ∀ p, t.parent? i = some p → t.kind? p ≠ some .selectQuery

/-- The identifier at node `i` names the column: its value, in the table that the nearest SELECT
around it makes out. -/
def NamesColumn (t : Tree) (i : Nat) (c : ColumnRef) : Prop :=
  ∃ n s, t.node? i = some n ∧ n.value = some c.name ∧ t.Nearest .selectQuery s i ∧
    t.TableOf s n.qualifier c.table

/-! ## Tables -/

/-- The name and the alias of the table that node `j` shows, if the SELECT at `s` reads it. -/
def scopeTable? (t : Tree) (s j : Nat) : Option (String × Option String) :=
  (t.node? j).bind fun n =>
    if n.kind = .tableIdentifier ∧ t.nearestAncestor? j .selectQuery = some s then
      n.value.map fun table => (table, n.aliasName)
    else none

theorem scope_eq (t : Tree) (s : Nat) : t.scope s = (t.descendants s).filterMap (t.scopeTable? s) :=
  rfl

theorem scopeTable?_eq_some_iff {e : String × Option String} :
    t.scopeTable? s j = some e ↔
      ∃ table, t.ReadsTable s j table ∧ table.value = some e.1 ∧ table.aliasName = e.2 := by
  constructor
  · intro h
    obtain ⟨n, hn, h⟩ := Option.bind_eq_some_iff.1 h
    split at h
    · rename_i hcond
      obtain ⟨v, hv, rfl⟩ := Option.map_eq_some_iff.1 h
      exact ⟨n, ⟨hn, hcond.1, by rw [hv]; rfl, nearestAncestor?_eq_some_iff.1 hcond.2⟩, hv, rfl⟩
    · cases h
  · rintro ⟨table, ⟨hn, hkind, -, hnearest⟩, hv, halias⟩
    rw [scopeTable?, hn, Option.bind_some,
      if_pos ⟨hkind, nearestAncestor?_eq_some_iff.2 hnearest⟩, hv, halias]
    rfl

theorem goesBy_iff {v q : String} (hv : n.value = some v) :
    n.GoesBy q ↔ (v == q || n.aliasName == some q) = true := by
  simp [Node.GoesBy, hv]

theorem ReadsTable.exists_entry {table : Node} (h : t.ReadsTable s j table) :
    ∃ v, table.value = some v ∧ t.scopeTable? s j = some (v, table.aliasName) := by
  obtain ⟨v, hv⟩ := Option.isSome_iff_exists.1 h.isSome_value
  exact ⟨v, hv, scopeTable?_eq_some_iff.2 ⟨table, h, hv, rfl⟩⟩

theorem selectedTable?_none_of_forall_ne {tables : List (String × Option String)}
    (h : ∀ e, tables ≠ [e]) : selectedTable? tables none = none :=
  match tables with
  | [] => rfl
  | [e] => absurd rfl (h e)
  | _ :: _ :: _ => rfl

theorem ReadsTable.mem_descendants {table : Node} (h : t.ReadsTable s j table) (ht : t.Nested) :
    j ∈ t.descendants s :=
  ht.mem_descendants_iff.2 h.nearest.above

/-- For a qualifier the first table that goes by it is found. -/
theorem tableOf_selectedTable?_some (ht : t.Nested) (s : Nat) (q : String) :
    t.TableOf s (some q) (selectedTable? (t.scope s) (some q)) := by
  rw [scope_eq, selectedTable?]
  cases hfind : ((t.descendants s).filterMap (t.scopeTable? s)).find? fun table =>
      table.1 == q || table.2 == some q with
  | none =>
    refine .unknown fun j table h hname => ?_
    obtain ⟨v, hv, hentry⟩ := h.exists_entry
    refine List.find?_eq_none.1 hfind _ (List.mem_filterMap.2 ⟨j, h.mem_descendants ht, hentry⟩) ?_
    exact (goesBy_iff hv).1 hname
  | some e =>
    obtain ⟨j, -, hje, hleast⟩ := find?_filterMap_least (ht.pairwise_descendants s) hfind
    obtain ⟨table, hreads, hv, halias⟩ := scopeTable?_eq_some_iff.1 hje
    have hwanted := List.find?_some hfind
    have hname : table.GoesBy q := by rwa [goesBy_iff hv, halias]
    rw [Option.map_some, ← hv]
    refine .named hreads hname fun k other hother hothername => ?_
    obtain ⟨v, hov, hentry⟩ := hother.exists_entry
    exact hleast k (hother.mem_descendants ht) _ hentry ((goesBy_iff hov).1 hothername)

/-- Without a qualifier a table is found if it is the only one. -/
theorem tableOf_selectedTable?_none (ht : t.Nested) (s : Nat) :
    t.TableOf s none (selectedTable? (t.scope s) none) := by
  have hsingle : ∀ e, t.scope s = [e] ↔ ∃ j ∈ t.descendants s, t.scopeTable? s j = some e ∧
      ∀ k ∈ t.descendants s, (t.scopeTable? s k).isSome → k = j :=
    fun _ => filterMap_eq_singleton_iff ((ht.pairwise_descendants s).imp Nat.ne_of_lt)
  by_cases hscope : ∃ e, t.scope s = [e]
  · obtain ⟨e, he⟩ := hscope
    obtain ⟨j, -, hje, honly⟩ := (hsingle e).1 he
    obtain ⟨table, hreads, hv, -⟩ := scopeTable?_eq_some_iff.1 hje
    rw [he, selectedTable?, ← hv]
    refine .only hreads fun k other hother => ?_
    obtain ⟨v, -, hentry⟩ := hother.exists_entry
    exact honly k (hother.mem_descendants ht) (by rw [hentry]; rfl)
  · rw [selectedTable?_none_of_forall_ne fun e he => hscope ⟨e, he⟩]
    refine .unclear ?_
    rintro ⟨j, ⟨table, hreads⟩, honly⟩
    obtain ⟨v, -, hentry⟩ := hreads.exists_entry
    refine hscope ⟨_, (hsingle _).2 ⟨j, hreads.mem_descendants ht, hentry, fun k _ hk => ?_⟩⟩
    obtain ⟨e, he⟩ := Option.isSome_iff_exists.1 hk
    obtain ⟨other, hother, -, -⟩ := scopeTable?_eq_some_iff.1 he
    exact honly k ⟨other, hother⟩

/-- The table that is found for an identifier is the one that the SELECT makes out. -/
theorem tableOf_selectedTable? (ht : t.Nested) (s : Nat) (qualifier : Option String) :
    t.TableOf s qualifier (selectedTable? (t.scope s) qualifier) := by
  cases qualifier with
  | some q => exact tableOf_selectedTable?_some ht s q
  | none => exact tableOf_selectedTable?_none ht s

/-- A table that is made out is one that the SELECT reads itself. -/
theorem TableOf.exists_readsTable {qualifier : Option String} {name : String}
    (h : t.TableOf s qualifier (some name)) :
    ∃ j table, t.ReadsTable s j table ∧ table.value = some name := by
  generalize hname : some name = found at h
  cases h with
  | named h => exact ⟨_, _, h, rfl⟩
  | unknown => cases hname
  | only h => exact ⟨_, _, h, rfl⟩
  | unclear => cases hname

end Tree

/-! ## Columns -/

namespace Statement

variable {s : Statement} {t : Tree} {i : Nat} {c : ColumnRef}

theorem namesColumn_of_selectedColumn? (ht : t.Nested) (h : selectedColumn? t i = some c) :
    t.NamesColumn i c := by
  obtain ⟨n, hn, h⟩ := Option.bind_eq_some_iff.1 h
  split at h
  · obtain ⟨s, hs, h⟩ := Option.bind_eq_some_iff.1 h
    obtain ⟨name, hname, h⟩ := Option.bind_eq_some_iff.1 h
    cases h
    exact ⟨n, s, hn, hname, Tree.nearestAncestor?_eq_some_iff.1 hs,
      Tree.tableOf_selectedTable? ht s n.qualifier⟩
  · cases h

theorem isSome_selectedColumn?_iff : (selectedColumn? t i).isSome ↔ t.UsesColumn i := by
  rw [Option.isSome_iff_exists]
  constructor
  · rintro ⟨c, h⟩
    obtain ⟨n, hn, h⟩ := Option.bind_eq_some_iff.1 h
    split at h
    · rename_i hcond
      obtain ⟨s, hs, h⟩ := Option.bind_eq_some_iff.1 h
      obtain ⟨name, hname, -⟩ := Option.bind_eq_some_iff.1 h
      have hnearest := Tree.nearestAncestor?_eq_some_iff.1 hs
      exact ⟨⟨n, hn, hcond.1, by rw [hname]; rfl⟩, ⟨s, hnearest.above, hnearest.kind_eq⟩,
        Tree.parentIs_eq_false_iff.1 hcond.2⟩
    · cases h
  · rintro ⟨⟨n, hn, hkind, hvalue⟩, hinside, hbelow⟩
    obtain ⟨name, hname⟩ := Option.isSome_iff_exists.1 hvalue
    obtain ⟨s, hnearest⟩ := Tree.exists_nearest_iff.2 hinside
    refine ⟨{ table := Tree.selectedTable? (t.scope s) n.qualifier, name }, ?_⟩
    refine Option.bind_eq_some_iff.2 ⟨n, hn, ?_⟩
    rw [if_pos ⟨hkind, Tree.parentIs_eq_false_iff.2 hbelow⟩,
      Tree.nearestAncestor?_eq_some_iff.2 hnearest, hname]
    rfl

end Statement

/-- The columns that the SELECTs of a statement use are listed in document order, one for each
identifier with a value inside a SELECT and not right below one, and each in the table that the
nearest SELECT around the identifier makes out. So a table that is known is one that this SELECT
reads itself. -/
theorem selectedColumns_resolve {s : Statement} (hs : s.IsParsed) :
    ∃ ids, ids.Sublist s.tree.walk ∧ ids.Pairwise (· < ·) ∧
      (∀ i, i ∈ ids ↔ s.tree.UsesColumn i) ∧
      List.Forall₂ s.tree.NamesColumn ids s.selectedColumns ∧
      List.Forall₂ (fun i c => ∀ name, c.table = some name →
        ∃ select j table, s.tree.Nearest .selectQuery select i ∧
          s.tree.ReadsTable select j table ∧ table.value = some name) ids s.selectedColumns := by
  have hnested := hs.nested
  have hnames := (forall₂_filterMap (Statement.selectedColumn? s.tree) s.tree.walk).imp fun _ _ =>
    Statement.namesColumn_of_selectedColumn? hnested
  have hwalk : s.tree.walk.Pairwise (· < ·) := by
    rw [hnested.walk_eq_range]
    exact List.pairwise_lt_range
  refine ⟨_, List.filter_sublist, hwalk.filter _, fun i => ?_, hnames,
    hnames.imp fun i c hc name hname => ?_⟩
  · rw [List.mem_filter, Statement.isSome_selectedColumn?_iff, hnested.mem_walk_iff]
    refine and_iff_right_of_imp fun hi => ?_
    obtain ⟨-, ⟨a, ha, -⟩, -⟩ := hi
    exact Tree.lt_size_of_mem_ancestors ha
  · obtain ⟨n, select, -, -, hnearest, htable⟩ := hc
    rw [hname] at htable
    obtain ⟨j, table, hreads, hvalue⟩ := htable.exists_readsTable
    exact ⟨select, j, table, hnearest, hreads, hvalue⟩

/-- Within the inner SELECT the alias of the outer one's table means nothing, and the inner one's
table is none of the outer one's, which so has a single table for the column without a
qualifier. -/
theorem selectedColumns_resolve_nested :
    let lines := ["SelectQuery (children 2)", " ExpressionList (children 2)", "  Identifier a.x",
      "  Identifier y", " TablesInSelectQuery (children 2)", "  TableIdentifier d.t (alias a)",
      "  SelectQuery (children 2)", "   ExpressionList (children 1)", "    Identifier a.z",
      "   TableIdentifier u"]
    ∃ s, Statement.ofDump "select a.x, y from d.t as a, (select a.z from u)" lines = .ok s ∧
      s.selectedColumns = [{ table := some "t", name := "x" }, { table := some "t", name := "y" },
        { table := none, name := "z" }] ∧
      ∃ ids, ids.Sublist s.tree.walk ∧ (∀ i, i ∈ ids ↔ s.tree.UsesColumn i) ∧
        List.Forall₂ s.tree.NamesColumn ids s.selectedColumns := by
  intro lines
  have hrun : (match Statement.ofDump "select a.x, y from d.t as a, (select a.z from u)" lines with
      | .ok s => decide (s.selectedColumns = [{ table := some "t", name := "x" },
          { table := some "t", name := "y" }, { table := none, name := "z" }])
      | .error _ => false) = true := by decide +kernel
  split at hrun
  case h_2 => cases hrun
  rename_i s h
  obtain ⟨ids, hwalk, -, hmem, hnames, -⟩ := selectedColumns_resolve ⟨_, _, h⟩
  exact ⟨s, h, of_decide_eq_true hrun, ids, hwalk, hmem, hnames⟩

end DdlOrder
