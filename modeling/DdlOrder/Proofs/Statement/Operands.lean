import DdlOrder.Proofs.Entries
import DdlOrder.Proofs.Statement.Names
import DdlOrder.Proofs.Tree.Climbing

/-!
# Which nodes name the columns of a statement

A column that a statement creates or alters is named by a node, which counts for one use only:
for the declaration in a CREATE statement (`Tree.DeclaredBy`) or for one operation of an ALTER
statement (`Tree.Operand`). The names in a rename are told apart by their places.

* `AlterKind.ofCommand?_eq_some_iff`: every operation has one command;
* `Tree.Operand.kind_unique`, `Tree.DeclaredBy.not_operand`: a node counts for one use;
* `Tree.Nested.lists_filterMap`: the columns of some nodes, in document order;
* `column_operands`: the columns that a statement creates and alters.
-/

namespace DdlOrder

/-! ## Commands -/

/-- The command of a column operation. -/
def AlterKind.command : AlterKind → String
  | .addColumn => "ADD_COLUMN"
  | .dropColumn => "DROP_COLUMN"
  | .modifyColumn => "MODIFY_COLUMN"
  | .commentColumn => "COMMENT_COLUMN"
  | .materializeColumn => "MATERIALIZE_COLUMN"
  | .renameColumn => "RENAME_COLUMN"

theorem AlterKind.ofCommand?_eq_some_iff {command : String} {kind : AlterKind} :
    ofCommand? command = some kind ↔ command = kind.command := by
  constructor
  · intro h
    unfold ofCommand? at h
    split at h <;> cases h <;> rfl
  · rintro rfl
    cases kind <;> rfl

theorem AlterKind.command_injective {kind kind' : AlterKind} (h : kind.command = kind'.command) :
    kind = kind' :=
  Option.some.inj ((ofCommand?_eq_some_iff.2 rfl).symm.trans (ofCommand?_eq_some_iff.2 h))

namespace Tree

variable {t : Tree} {i create : Nat} {kind kind' : AlterKind} {c : ColumnRef}

/-! ## What the tree says of columns -/

/-- Node `p` is an ALTER command for a column operation. -/
structure IsCommand (t : Tree) (kind : AlterKind) (p : Nat) : Prop where
  kind_eq : t.kind? p = some .alterCommand
  value_eq : t.value? p = some kind.command

/-- Node `i` names a column of an ALTER command: it is of the kind that the command takes, has a
value and stands right below the command. -/
structure Operand (t : Tree) (kind : AlterKind) (i : Nat) : Prop where
  kind_eq : t.kind? i = some kind.operand
  isSome_value : (t.value? i).isSome
  below : ∃ p, t.parent? i = some p ∧ t.IsCommand kind p

/-- Node `i` names a column that the CREATE node three levels up declares, past an expression list
and the node that holds the columns. -/
structure DeclaredBy (t : Tree) (create i : Nat) : Prop where
  kind_eq : t.kind? i = some .columnDeclaration
  isSome_value : (t.value? i).isSome
  below : ∃ list columns, t.parent? i = some list ∧ t.kind? list = some .expressionList ∧
    t.parent? list = some columns ∧ t.kind? columns = some .columns ∧
    t.parent? columns = some create ∧ t.kind? create = some .createQuery

/-- The column that node `i` names in an ALTER statement: its table, if known, is that of the
nearest ALTER node above. -/
def NamesAltered (t : Tree) (i : Nat) (c : ColumnRef) : Prop :=
  t.value? i = some c.name ∧
    ∀ table, c.table = some table ↔ ∃ alter, t.Nearest .alterQuery alter i ∧
      t.value? alter = some table

/-- The column that node `i` names in a CREATE statement: its table is the one that is created. -/
def NamesDeclared (t : Tree) (i : Nat) (c : ColumnRef) : Prop :=
  t.value? i = some c.name ∧ ∃ create, t.DeclaredBy create i ∧ c.table = t.value? create

/-- The columns are those that the nodes with a property name, one for each node and in document
order. -/
def Lists (t : Tree) (p : Nat → Prop) (names : Nat → ColumnRef → Prop) (columns : List ColumnRef) :
    Prop :=
  ∃ ids, ids.Sublist t.walk ∧ ids.Nodup ∧ (∀ i, i ∈ ids ↔ p i) ∧ List.Forall₂ names ids columns

/-! ## One use for each node -/

theorem Operand.kind_unique (h : t.Operand kind i) (h' : t.Operand kind' i) : kind = kind' := by
  obtain ⟨p, hp, hcommand⟩ := h.below
  obtain ⟨q, hq, hcommand'⟩ := h'.below
  obtain rfl : p = q := Option.some.inj (hp.symm.trans hq)
  exact AlterKind.command_injective
    (Option.some.inj (hcommand.value_eq.symm.trans hcommand'.value_eq))

theorem DeclaredBy.not_operand (h : t.DeclaredBy create i) : ¬ t.Operand kind i := by
  intro hoperand
  obtain ⟨list, columns, hlist, hkind, -⟩ := h.below
  obtain ⟨p, hp, hcommand⟩ := hoperand.below
  obtain rfl : list = p := Option.some.inj (hlist.symm.trans hp)
  cases hkind.symm.trans hcommand.kind_eq

/-! ## Columns node by node -/

/-- The column, if any, that node `i` names as an operand of a command. -/
def altered? (t : Tree) (kind : AlterKind) (keep : Nat → Bool) (i : Nat) : Option ColumnRef :=
  if t.kind? i = some kind.operand ∧ t.commandAbove? i = some kind ∧ keep i then
    (t.value? i).map (ColumnRef.mk (t.alteredTable? i))
  else none

/-- The column, if any, that node `i` names in a column list. -/
def declared? (t : Tree) (i : Nat) : Option ColumnRef :=
  if t.kind? i = some .columnDeclaration then
    (t.declaringCreate? i).bind fun create =>
      (t.value? i).map (ColumnRef.mk (t.value? create))
  else none

theorem commandAbove?_eq_some_iff :
    t.commandAbove? i = some kind ↔ ∃ p, t.parent? i = some p ∧ t.IsCommand kind p := by
  simp only [commandAbove?, Option.bind_eq_some_iff, Statement.parentOfKind?_eq_some_iff,
    AlterKind.ofCommand?_eq_some_iff]
  constructor
  · rintro ⟨command, ⟨p, ⟨hp, hkind⟩, hvalue⟩, rfl⟩
    exact ⟨p, hp, hkind, hvalue⟩
  · rintro ⟨p, hp, hkind, hvalue⟩
    exact ⟨_, ⟨p, ⟨hp, hkind⟩, hvalue⟩, rfl⟩

theorem alteredTable?_eq_some_iff {table : String} :
    t.alteredTable? i = some table ↔
      ∃ alter, t.Nearest .alterQuery alter i ∧ t.value? alter = some table := by
  simp only [alteredTable?, Option.bind_eq_some_iff, nearestAncestor?_eq_some_iff]

theorem declaringCreate?_eq_some_iff :
    t.declaringCreate? i = some create ↔
      ∃ list columns, t.parent? i = some list ∧ t.kind? list = some .expressionList ∧
        t.parent? list = some columns ∧ t.kind? columns = some .columns ∧
        t.parent? columns = some create ∧ t.kind? create = some .createQuery := by
  simp only [declaringCreate?, Option.bind_eq_bind, Option.bind_eq_some_iff,
    Statement.parentOfKind?_eq_some_iff, and_assoc]
  constructor
  · rintro ⟨list, hlist, hkind, columns, hrest⟩
    exact ⟨list, columns, hlist, hkind, hrest⟩
  · rintro ⟨list, columns, hlist, hkind, hrest⟩
    exact ⟨list, hlist, hkind, columns, hrest⟩

theorem namesAltered_of_altered? {keep : Nat → Bool} (h : t.altered? kind keep i = some c) :
    t.NamesAltered i c := by
  unfold altered? at h
  split at h
  · obtain ⟨name, hname, rfl⟩ := Option.map_eq_some_iff.1 h
    exact ⟨hname, fun table => alteredTable?_eq_some_iff⟩
  · cases h

theorem isSome_altered?_iff {keep : Nat → Bool} :
    (t.altered? kind keep i).isSome ↔ t.Operand kind i ∧ keep i = true := by
  unfold altered?
  split
  · rename_i h
    obtain ⟨hkind, hcommand, hkeep⟩ := h
    rw [Option.isSome_map]
    exact ⟨fun hvalue => ⟨⟨hkind, hvalue, commandAbove?_eq_some_iff.1 hcommand⟩, hkeep⟩,
      fun h => h.1.isSome_value⟩
  · rename_i h
    refine iff_of_false (by simp) ?_
    rintro ⟨hoperand, hkeep⟩
    exact h ⟨hoperand.kind_eq, commandAbove?_eq_some_iff.2 hoperand.below, hkeep⟩

theorem namesDeclared_of_declared? (h : t.declared? i = some c) : t.NamesDeclared i c := by
  unfold declared? at h
  split at h
  · rename_i hkind
    obtain ⟨create, hcreate, h⟩ := Option.bind_eq_some_iff.1 h
    obtain ⟨name, hname, rfl⟩ := Option.map_eq_some_iff.1 h
    exact ⟨hname, create, ⟨hkind, by rw [hname]; rfl, declaringCreate?_eq_some_iff.1 hcreate⟩, rfl⟩
  · cases h

theorem isSome_declared?_iff : (t.declared? i).isSome ↔ ∃ create, t.DeclaredBy create i := by
  constructor
  · intro h
    obtain ⟨c, hc⟩ := Option.isSome_iff_exists.1 h
    obtain ⟨-, create, hdeclared, -⟩ := namesDeclared_of_declared? hc
    exact ⟨create, hdeclared⟩
  · rintro ⟨create, h⟩
    rw [declared?, if_pos h.kind_eq, declaringCreate?_eq_some_iff.2 h.below, Option.bind_some,
      Option.isSome_map]
    exact h.isSome_value

/-! ## Columns in document order -/

/-- The columns that the nodes with a property name are listed as the walk meets the nodes. -/
theorem Nested.lists_filterMap (ht : t.Nested) {p : Nat → Prop} {names : Nat → ColumnRef → Prop}
    {column? : Nat → Option ColumnRef} (hsome : ∀ i, (column? i).isSome ↔ p i)
    (hsize : ∀ i, p i → i < t.size) (hnames : ∀ i c, column? i = some c → names i c) :
    t.Lists p names (t.walk.filterMap column?) := by
  refine ⟨t.walk.filter fun i => (column? i).isSome, List.filter_sublist, ?_, fun i => ?_,
    (forall₂_filterMap column? t.walk).imp hnames⟩
  · rw [ht.walk_eq_range]
    exact List.nodup_range.filter _
  · rw [List.mem_filter, hsome, ht.mem_walk_iff]
    exact and_iff_right_of_imp (hsize i)

theorem Nested.lists_altered (ht : t.Nested) (kind : AlterKind) (keep : Nat → Bool) :
    t.Lists (fun i => t.Operand kind i ∧ keep i = true) t.NamesAltered
      (t.walk.filterMap (t.altered? kind keep)) := by
  refine ht.lists_filterMap (fun i => isSome_altered?_iff) (fun i h => ?_)
    fun i c => namesAltered_of_altered?
  obtain ⟨p, hp, -⟩ := h.1.below
  exact lt_size_of_parent? hp

theorem Nested.lists_declared (ht : t.Nested) :
    t.Lists (fun i => ∃ create, t.DeclaredBy create i) t.NamesDeclared
      (t.walk.filterMap t.declared?) := by
  refine ht.lists_filterMap (fun i => isSome_declared?_iff) (fun i h => ?_)
    fun i c => namesDeclared_of_declared?
  obtain ⟨create, h⟩ := h
  obtain ⟨list, columns, hlist, -⟩ := h.below
  exact lt_size_of_parent? hlist

/-! ## Renames -/

/-- With at most two names in each rename, a name is either the old or the new one. -/
theorem Nested.interleaves_renamed (ht : t.Nested)
    (htwo : ∀ p, t.IsCommand .renameColumn p → (t.children p).length ≤ 2) :
    Interleaves (t.walk.filterMap (t.altered? .renameColumn fun i => t.childPosition? i == some 0))
      (t.walk.filterMap (t.altered? .renameColumn fun i => t.childPosition? i == some 1))
      (t.walk.filterMap (t.altered? .renameColumn fun _ => true)) := by
  refine interleaves_filterMap fun i _ => ?_
  by_cases hoperand : t.kind? i = some AlterKind.renameColumn.operand ∧
      t.commandAbove? i = some .renameColumn
  · obtain ⟨p, hp, hcommand⟩ := commandAbove?_eq_some_iff.1 hoperand.2
    obtain ⟨k, hk⟩ := List.mem_iff_getElem?.1 (ht.mem_children_iff.2 hp)
    have hlt : k < 2 := Nat.lt_of_lt_of_le (List.getElem?_eq_some_iff.1 hk).1 (htwo p hcommand)
    have hposition := ht.childPosition?_eq_some_iff.2 ⟨p, hp, hk⟩
    obtain rfl | rfl : k = 0 ∨ k = 1 := by omega
    · simp [altered?, hoperand, hposition]
    · simp [altered?, hoperand, hposition]
  · simp [altered?, hoperand, ← and_assoc]

end Tree

/-- Each column that a statement creates or alters is named by one node, and all of them are listed
in document order, with the tables that the nodes above give. A node names a column for one use
only. The old names of renames are those in the first place below their command, the new names
those in the second. Where no rename has more, the old and the new names together are all the
names in renames, each in their order. -/
theorem column_operands {s : Statement} (hs : s.IsParsed) :
    s.tree.Lists (fun i => ∃ create, s.tree.DeclaredBy create i) s.tree.NamesDeclared
        s.createdColumns ∧
      (∀ kind, s.tree.Lists (s.tree.Operand kind) s.tree.NamesAltered (s.alterColumns kind)) ∧
      s.tree.Lists (fun i => s.tree.Operand .renameColumn i ∧ s.tree.ChildAt 0 i)
        s.tree.NamesAltered s.renamedFrom ∧
      s.tree.Lists (fun i => s.tree.Operand .renameColumn i ∧ s.tree.ChildAt 1 i)
        s.tree.NamesAltered s.renamedTo ∧
      (∀ i kind kind', s.tree.Operand kind i → s.tree.Operand kind' i → kind = kind') ∧
      (∀ i create kind, s.tree.DeclaredBy create i → ¬ s.tree.Operand kind i) ∧
      (∀ i k l, s.tree.ChildAt k i → s.tree.ChildAt l i → k = l) ∧
      ((∀ p, s.tree.IsCommand .renameColumn p → (s.tree.children p).length ≤ 2) →
        Interleaves s.renamedFrom s.renamedTo (s.alterColumns .renameColumn)) := by
  have ht := hs.nested
  have hplace : ∀ k, s.tree.Lists (fun i => s.tree.Operand .renameColumn i ∧ s.tree.ChildAt k i)
      s.tree.NamesAltered
      (s.alterColumnsWhere .renameColumn fun i => s.tree.childPosition? i == some k) := by
    intro k
    have h := ht.lists_altered .renameColumn fun i => s.tree.childPosition? i == some k
    simp only [beq_iff_eq, ht.childPosition?_eq_some_iff] at h
    exact h
  refine ⟨ht.lists_declared, fun kind => ?_, hplace 0, hplace 1,
    fun i kind kind' => Tree.Operand.kind_unique, fun i create kind => Tree.DeclaredBy.not_operand,
    fun i k l => ht.childAt_unique, ht.interleaves_renamed⟩
  have h := ht.lists_altered kind fun _ => true
  simp only [and_true] at h
  exact h

/-- A rename whose first child is no identifier has a new name only; the added column is none of
the renamed ones. -/
theorem column_operands_rename :
    let lines := ["AlterQuery d t (children 2)", " ExpressionList (children 3)",
      "  AlterCommand RENAME_COLUMN (children 2)", "   Identifier a", "   Identifier b",
      "  AlterCommand RENAME_COLUMN (children 2)", "   Literal 'x'", "   Identifier c",
      "  AlterCommand ADD_COLUMN (children 1)", "   ColumnDeclaration e (children 1)",
      " Identifier t"]
    let column := fun name => ColumnRef.mk (some "t") name
    ∃ s, Statement.ofDump "alter table d.t" lines = .ok s ∧
      s.renamedFrom = [column "a"] ∧ s.renamedTo = [column "b", column "c"] ∧
      s.alterColumns .renameColumn = [column "a", column "b", column "c"] ∧
      s.alterColumns .addColumn = [column "e"] ∧
      s.tree.Lists (fun i => s.tree.Operand .renameColumn i ∧ s.tree.ChildAt 1 i)
        s.tree.NamesAltered s.renamedTo ∧
      Interleaves s.renamedFrom s.renamedTo (s.alterColumns .renameColumn) := by
  intro lines column
  have hrun : (match Statement.ofDump "alter table d.t" lines with
      | .ok s => decide ((s.renamedFrom = [column "a"] ∧ s.renamedTo = [column "b", column "c"] ∧
          s.alterColumns .renameColumn = [column "a", column "b", column "c"] ∧
          s.alterColumns .addColumn = [column "e"]) ∧
          ∀ p ∈ List.range s.tree.size, s.tree.kind? p = some .alterCommand →
            (s.tree.children p).length ≤ 2)
      | .error _ => false) = true := by decide +kernel
  split at hrun
  case h_2 => cases hrun
  rename_i s h
  obtain ⟨⟨hfrom, hto, hrenamed, hadded⟩, hchildren⟩ := of_decide_eq_true hrun
  obtain ⟨-, -, -, hlists, -, -, -, hinterleaves⟩ := column_operands ⟨_, _, h⟩
  refine ⟨s, h, hfrom, hto, hrenamed, hadded, hlists, hinterleaves fun p hp => ?_⟩
  refine hchildren p (List.mem_range.2 ?_) hp.kind_eq
  obtain ⟨n, hn, -⟩ := Option.map_eq_some_iff.1 hp.kind_eq
  exact Tree.lt_size_of_node? hn

end DdlOrder
