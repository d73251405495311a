import DdlOrder.Batch
import DdlOrder.Proofs.Line.Fields
import DdlOrder.Proofs.Order.Dependencies
import DdlOrder.Proofs.Rule
import DdlOrder.Proofs.Statement.Names

/-!
# From dump lines to the order of statements

A line of one dump that creates a table or function, and a line of another dump that
refers to it by the same name, put the first statement before the second, wherever in
their dumps the lines stand and however the other lines read.

* `CreatesTable`, `UsesTable`, `CreatesFunction`, `CallsFunction`: what these lines look
  like;
* `CreatesTable.describes` and its like: such a line is read into a node with the name as
  value;
* `creation_stands_before_use`: the order that follows from it.
-/

namespace DdlOrder

open Line (IsWord EndsWord spaces fieldsLine)

/-! ## The lines -/

/-- A name that stands in a dump line as it is: it is not empty and holds none of the
characters that end or divide a value. -/
structure IsName (s : String) : Prop where
  ne_empty : s ≠ ""
  notMem : ∀ c ∈ [' ', '.', ',', '\'', '(', ')'], c ∉ s.toList

/-- A text in parentheses, without a line feed. -/
def IsParenthesized (a : String) : Prop := ∃ x, x ≠ "" ∧ '\n' ∉ x.toList ∧ a = "(" ++ x ++ ")"

/-- The text of a line at a depth of its dump. -/
def atDepth (depth : Nat) (text : String) : String := String.ofList (spaces depth) ++ text

/-- The line creates the table or view `n`, in a database or without one. -/
inductive CreatesTable (n : String) : String → Prop where
  | plain (depth : Nat) {a : String} (ha : IsParenthesized a) :
    CreatesTable n (atDepth depth ("CreateQuery" ++ ("  " ++ n ++ " " ++ a)))
  | qualified (depth : Nat) {d a : String} (hd : IsName d) (ha : IsParenthesized a) :
    CreatesTable n (atDepth depth ("CreateQuery" ++ (" " ++ d ++ " " ++ n ++ " " ++ a)))

/-- The line refers to the table `n`: it reads it or names it as the one to be altered. -/
inductive UsesTable (n : String) : String → Prop where
  | read (depth : Nat) : UsesTable n (atDepth depth ("TableIdentifier" ++ (" " ++ n)))
  | readNoted (depth : Nat) {a : String} (ha : IsParenthesized a) :
    UsesTable n (atDepth depth ("TableIdentifier" ++ (" " ++ n ++ " " ++ a)))
  | readQualified (depth : Nat) {d : String} (hd : IsName d) :
    UsesTable n (atDepth depth ("TableIdentifier" ++ (" " ++ (d ++ "." ++ n))))
  | readQualifiedNoted (depth : Nat) {d a : String} (hd : IsName d) (ha : IsParenthesized a) :
    UsesTable n (atDepth depth ("TableIdentifier" ++ (" " ++ (d ++ "." ++ n) ++ " " ++ a)))
  | alter (depth : Nat) {a : String} (ha : IsParenthesized a) :
    UsesTable n (atDepth depth ("AlterQuery" ++ ("  " ++ n ++ " " ++ a)))
  | alterQualified (depth : Nat) {d a : String} (hd : IsName d) (ha : IsParenthesized a) :
    UsesTable n (atDepth depth ("AlterQuery" ++ (" " ++ d ++ " " ++ n ++ " " ++ a)))

/-- The line creates the function `n`. -/
inductive CreatesFunction (n : String) : String → Prop where
  | create (depth : Nat) {a : String} (ha : IsParenthesized a) :
    CreatesFunction n (atDepth depth ("CreateFunctionQuery" ++ (" " ++ n ++ " " ++ a)))

/-- The line calls the function `n`. -/
inductive CallsFunction (n : String) : String → Prop where
  | call (depth : Nat) : CallsFunction n (atDepth depth ("Function" ++ (" " ++ n)))
  | callNoted (depth : Nat) {a : String} (ha : IsParenthesized a) :
    CallsFunction n (atDepth depth ("Function" ++ (" " ++ n ++ " " ++ a)))

/-! ## How the lines are read -/

theorem IsParenthesized.isNote {a : String} (h : IsParenthesized a) :
    Line.isNote a.toList = true := by
  obtain ⟨x, hne, hline, rfl⟩ := h
  refine Line.isNote_iff.2 ⟨x.toList, ?_, hline, by simp⟩
  rwa [ne_eq, String.toList_eq_nil_iff]

namespace IsName

variable {n : String} (h : IsName n)

include h

theorem isWord : IsWord n.toList where
  ne_nil := by
    rw [ne_eq, String.toList_eq_nil_iff]
    exact h.ne_empty
  notMem := h.notMem ' ' (by simp)

theorem head?_ne_open : n.toList.head? ≠ some '(' := fun e =>
  h.notMem '(' (by simp) (List.mem_of_mem_head? e)

theorem getLast?_ne_comma : n.toList.getLast? ≠ some ',' := fun e =>
  h.notMem ',' (by simp) (List.mem_of_mem_getLast? e)

theorem value? : Line.nonEmpty? n.toList = some n := by
  rw [Line.nonEmpty?_of_ne_nil h.isWord.ne_nil, String.ofList_toList]

end IsName

/-- The line is read into a node of this kind and value, and it is not left out. -/
structure Describes (line : String) (kind : Kind) (value : String) : Prop where
  kept : Tree.isKept line = true
  parse : ∃ n, Line.parse line = .ok n ∧ n.kind = kind ∧ n.value = some value

theorem isKept_atDepth (depth : Nat) {c : Char} {text : List Char} (hblank : isBlankChar c = false)
    (hc : c ≠ 'E') : Tree.isKept (atDepth depth (String.ofList (c :: text))) = true := by
  have hnotBlank : isBlank (atDepth depth (String.ofList (c :: text))) = false := by
    rw [atDepth, isBlank_append]
    simp [isBlank, hblank]
  have hopens : Tree.preamble.toList.isPrefixOf
      (atDepth depth (String.ofList (c :: text))).toList = false := by
    have hpreamble : Tree.preamble.toList = 'E' :: "xplain EXPLAIN AST ".toList := by decide
    rw [hpreamble, atDepth, String.toList_append, String.toList_ofList, String.toList_ofList]
    cases depth with
    | zero => simp [spaces, List.isPrefixOf, Ne.symm hc]
    | succ depth => simp [spaces, List.replicate_succ, List.isPrefixOf]
  rw [Tree.isKept, hnotBlank, hopens]
  rfl

/-- A tag whose lines are not left out, whatever follows it. -/
structure IsTag (tag : String) : Prop where
  isWord : IsWord tag.toList
  first : ∃ c ∈ tag.toList.head?, isBlankChar c = false ∧ c ≠ 'E'
  ne_literal : tag.toList ≠ "Literal".toList

/-- The word is a value, and it names `n`: alone or behind a qualifier. -/
structure IsValue (tag w n : String) : Prop where
  isWord : IsWord w.toList
  head?_ne_open : w.toList.head? ≠ some '('
  names : (Line.splitValue tag.toList w.toList).2 = some n

section Fields

variable {tag n : String} (htag : IsTag tag) (hn : IsName n) (depth : Nat)

include hn in
theorem IsName.isValue : IsValue tag n n where
  isWord := hn.isWord
  head?_ne_open := hn.head?_ne_open
  names := by
    rw [Line.splitValue_of_notMem _ (hn.notMem '.' (by simp))]
    exact hn.value?

include htag hn in
theorem IsName.isValue_qualified {d : String} (hd : IsName d) : IsValue tag (d ++ "." ++ n) n := by
  have htext : (d ++ "." ++ n).toList = d.toList ++ '.' :: n.toList := by simp
  refine ⟨⟨?_, ?_⟩, ?_, ?_⟩
  · simp [htext]
  · simp [htext, hd.isWord.notMem, hn.isWord.notMem]
  · rw [htext, Line.head?_append_of_ne_nil hd.isWord.ne_nil]
    exact hd.head?_ne_open
  · have hsplit := Line.splitValue_dot htag.ne_literal (hd.notMem '.' (by simp))
      (hn.notMem '.' (by simp))
    rw [htext, hsplit]
    exact hn.value?

include htag

/-- A line whose fields can be read describes the node that its tag and fields give. -/
theorem describes_fields {fields : String} {body : Line.Body} (hends : EndsWord fields.toList)
    (hbody : Line.body? fields.toList = some body) (hvalue : (body.names tag.toList).2 = some n) :
    Describes (atDepth depth (tag ++ fields)) (Kind.ofTag tag) n where
  kept := by
    obtain ⟨c, hc, hblank, hne⟩ := htag.first
    obtain ⟨rest, hrest⟩ : ∃ rest, tag.toList = c :: rest := List.head?_eq_some_iff.1 hc
    have htext : tag ++ fields = String.ofList (c :: (rest ++ fields.toList)) := by
      rw [← String.toList_inj, String.toList_append, String.toList_ofList, hrest]
      rfl
    rw [htext]
    exact isKept_atDepth depth hblank hne
  parse := by
    have hline : atDepth depth (tag ++ fields) = fieldsLine depth tag.toList fields.toList := by
      rw [← String.toList_inj]
      simp [atDepth, fieldsLine]
    rw [hline]
    refine ⟨_, Line.parse_fields depth htag.isWord hends hbody, ?_, hvalue⟩
    rw [Line.node, String.ofList_toList]

theorem describes_value {w : String} (hw : IsValue tag w n) :
    Describes (atDepth depth (tag ++ (" " ++ w))) (Kind.ofTag tag) n := by
  have htext : (" " ++ w).toList = spaces 1 ++ w.toList := String.toList_append
  have hends : EndsWord (" " ++ w).toList := by
    rw [htext]
    exact Line.endsWord_spaces 0 _
  have hbody : Line.body? (" " ++ w).toList = some (.valued w.toList) := by
    rw [htext]
    exact Line.body?_valued hw.isWord hw.head?_ne_open
  exact describes_fields htag depth hends hbody hw.names

theorem describes_valueNoted {w a gap : String} {k : Nat} (hgap : gap.toList = spaces (k + 1))
    (hw : IsValue tag w n) (ha : IsParenthesized a) :
    Describes (atDepth depth (tag ++ (gap ++ w ++ " " ++ a))) (Kind.ofTag tag) n := by
  have htext : (gap ++ w ++ " " ++ a).toList =
      spaces (k + 1) ++ (w.toList ++ (spaces 1 ++ a.toList)) := by
    simp [hgap, spaces]
  have hends : EndsWord (gap ++ w ++ " " ++ a).toList := by
    rw [htext]
    exact Line.endsWord_spaces k _
  have hbody : Line.body? (gap ++ w ++ " " ++ a).toList =
      some (.valuedNoted w.toList a.toList) := by
    rw [htext]
    exact Line.body?_valuedNoted hw.isWord hw.head?_ne_open ha.isNote
  exact describes_fields htag depth hends hbody hw.names

include hn in
/-- Where database and name are fields of their own, the name is the value. -/
theorem describes_pairNoted {d a : String} (hd : IsName d) (ha : IsParenthesized a) :
    Describes (atDepth depth (tag ++ (" " ++ d ++ " " ++ n ++ " " ++ a))) (Kind.ofTag tag) n := by
  have htext : (" " ++ d ++ " " ++ n ++ " " ++ a).toList =
      spaces 1 ++ (d.toList ++ (spaces 1 ++ (n.toList ++ (spaces 1 ++ a.toList)))) := by
    simp [spaces]
  have hends : EndsWord (" " ++ d ++ " " ++ n ++ " " ++ a).toList := by
    rw [htext]
    exact Line.endsWord_spaces 0 _
  have hbody : Line.body? (" " ++ d ++ " " ++ n ++ " " ++ a).toList =
      some (.pairNoted d.toList n.toList a.toList) := by
    rw [htext]
    exact Line.body?_pairNoted hd.isWord hd.head?_ne_open (hd.notMem '\'' (by simp))
      hd.getLast?_ne_comma hn.isWord hn.head?_ne_open ha.isNote
  exact describes_fields htag depth hends hbody hn.value?

end Fields

/-! ## What the lines describe -/

theorem isTag_of_mem {tag : String}
    (h : tag ∈ ["CreateQuery", "CreateFunctionQuery", "AlterQuery", "TableIdentifier",
      "Function"]) : IsTag tag := by
  simp only [List.mem_cons, List.not_mem_nil, or_false] at h
  rcases h with rfl | rfl | rfl | rfl | rfl <;>
    exact ⟨⟨by decide, by decide⟩, ⟨_, rfl, by decide, by decide⟩, by decide⟩

variable {n line : String}

theorem CreatesTable.describes (h : CreatesTable n line) (hn : IsName n) :
    Describes line .createQuery n := by
  have htag : IsTag "CreateQuery" := isTag_of_mem (by simp)
  cases h with
  | plain depth ha => exact describes_valueNoted htag depth (k := 1) rfl hn.isValue ha
  | qualified depth hd ha => exact describes_pairNoted htag hn depth hd ha

theorem UsesTable.describes (h : UsesTable n line) (hn : IsName n) :
    Describes line .tableIdentifier n ∨ Describes line .alterQuery n := by
  have hread : IsTag "TableIdentifier" := isTag_of_mem (by simp)
  have halter : IsTag "AlterQuery" := isTag_of_mem (by simp)
  cases h with
  | read depth => exact .inl (describes_value hread depth hn.isValue)
  | readNoted depth ha =>
    exact .inl (describes_valueNoted hread depth (k := 0) rfl hn.isValue ha)
  | readQualified depth hd =>
    exact .inl (describes_value hread depth (hn.isValue_qualified hread hd))
  | readQualifiedNoted depth hd ha =>
    have hw := hn.isValue_qualified hread hd
    exact .inl (describes_valueNoted hread depth (k := 0) rfl hw ha)
  | alter depth ha =>
    exact .inr (describes_valueNoted halter depth (k := 1) rfl hn.isValue ha)
  | alterQualified depth hd ha => exact .inr (describes_pairNoted halter hn depth hd ha)

theorem CreatesFunction.describes (h : CreatesFunction n line) (hn : IsName n) :
    Describes line .createFunctionQuery n := by
  have htag : IsTag "CreateFunctionQuery" := isTag_of_mem (by simp)
  cases h with
  | create depth ha => exact describes_valueNoted htag depth (k := 0) rfl hn.isValue ha

theorem CallsFunction.describes (h : CallsFunction n line) (hn : IsName n) :
    Describes line .function n := by
  have htag : IsTag "Function" := isTag_of_mem (by simp)
  cases h with
  | call depth => exact describes_value htag depth hn.isValue
  | callNoted depth ha => exact describes_valueNoted htag depth (k := 0) rfl hn.isValue ha

/-! ## What the statements list -/

section Statements

variable {query : String} {lines : List String} {s : Statement}
  (hs : Statement.ofDump query lines = .ok s) (hline : line ∈ lines)

include hs hline

theorem Describes.exists_node {kind : Kind} (h : Describes line kind n) :
    ∃ i ∈ s.tree.walk, ∃ node, s.tree.node? i = some node ∧ node.kind = kind ∧
      node.value = some n := by
  obtain ⟨node, hparse, hkind, hvalue⟩ := h.parse
  obtain ⟨_, hparse', i, hi, hnode⟩ :=
    Tree.exists_mem_walk_of_mem (Statement.tree_ofDump hs) hline h.kept
  obtain rfl := Except.ok.inj (hparse.symm.trans hparse')
  exact ⟨i, hi, node, hnode, hkind, hvalue⟩

theorem Describes.mem_valuesOfKind {kind : Kind} (h : Describes line kind n) :
    n ∈ s.valuesOfKind kind := by
  obtain ⟨i, hi, node, hnode, hkind, hvalue⟩ := h.exists_node hs hline
  exact Statement.mem_valuesOfKind_of_node hi hnode hkind hvalue

theorem CreatesTable.mem_createdTables (h : CreatesTable n line) (hn : IsName n) :
    n ∈ s.createdTables :=
  (h.describes hn).mem_valuesOfKind hs hline

theorem UsesTable.mem_tables (h : UsesTable n line) (hn : IsName n) :
    n ∈ s.referencedTables ∨ n ∈ s.alterTargets := by
  rcases h.describes hn with hread | halter
  · obtain ⟨i, hi, node, hnode, hkind, hvalue⟩ := hread.exists_node hs hline
    exact .inl (Statement.mem_referencedTables_of_value hi hnode hkind hvalue)
  · exact .inr (halter.mem_valuesOfKind hs hline)

theorem CreatesFunction.mem_createdFunctions (h : CreatesFunction n line) (hn : IsName n) :
    n ∈ s.createdFunctions :=
  (h.describes hn).mem_valuesOfKind hs hline

theorem CallsFunction.mem_functionCalls (h : CallsFunction n line) (hn : IsName n) :
    n ∈ s.functionCalls :=
  (h.describes hn).mem_valuesOfKind hs hline

end Statements

/-! ## The order -/

/-- The statement at a position of a batch is read from the entry there. -/
theorem ofDump_of_getElem? {batch : Batch} {statements : List Statement}
    (h : batch.mapM (fun entry => Statement.ofDump entry.query entry.lines) = .ok statements)
    (i : Fin statements.length) {entry : Batch.Entry} (hi : batch[i.val]? = some entry) :
    Statement.ofDump entry.query entry.lines = .ok (statements.get i) := by
  obtain ⟨hlt, rfl⟩ := List.getElem?_eq_some_iff.1 hi
  exact (mapM_eq_ok_iff.1 h).get hlt i.isLt

/-- A line that creates a table or function puts its statement before every other that has
a line with a reference to it. -/
theorem creation_stands_before_use {m : Matching} {batch : Batch}
    {statements ordered : List Statement}
    (hbatch : batch.mapM (fun entry => Statement.ofDump entry.query entry.lines) = .ok statements)
    (hordered : orderStatements m statements = .ok ordered)
    {i j : Fin statements.length} (hij : i ≠ j) {first second : Batch.Entry}
    (hfirst : batch[i.val]? = some first) (hsecond : batch[j.val]? = some second)
    {n : String} (hn : IsName n)
    (h : (∃ l ∈ first.lines, ∃ l' ∈ second.lines, CreatesTable n l ∧ UsesTable n l') ∨
      ∃ l ∈ first.lines, ∃ l' ∈ second.lines, CreatesFunction n l ∧ CallsFunction n l') :
    ∃ order, Arranged m statements ordered order ∧ order.idxOf i < order.idxOf j := by
  obtain ⟨order, harranged⟩ := exists_arranged hordered
  refine ⟨order, harranged, ?_⟩
  have hs := ofDump_of_getElem? hbatch i hfirst
  have ht := ofDump_of_getElem? hbatch j hsecond
  rcases h with ⟨l, hl, l', hl', hcreates, huses⟩ | ⟨l, hl, l', hl', hcreates, hcalls⟩
  · refine harranged.idxOf_lt_of_holds hij .createsTable (Rule.holds_createsTable.2 ?_)
    exact ⟨n, hcreates.mem_createdTables hs hl hn, huses.mem_tables ht hl' hn⟩
  · refine harranged.idxOf_lt_of_holds hij .createsFunction (Rule.holds_createsFunction.2 ?_)
    exact ⟨n, hcreates.mem_createdFunctions hs hl hn, hcalls.mem_functionCalls ht hl' hn⟩

/-- A table that is created in a database comes before the statement that reads it there
under an alias. -/
theorem creation_stands_before_use_qualified :
    let readLines := ["SelectWithUnionQuery (children 1)", " ExpressionList (children 1)",
      "  SelectQuery (children 2)", "   ExpressionList (children 1)", "    Identifier c",
      "   TablesInSelectQuery (children 1)", "    TablesInSelectQueryElement (children 1)",
      "     TableExpression (children 1)", "      TableIdentifier d.t (alias x)"]
    let createLines := ["CreateQuery d t (children 2)", " Identifier d", " Identifier t"]
    let batch : Batch := [⟨"SELECT c FROM d.t AS x", readLines⟩, ⟨"CREATE TABLE d.t", createLines⟩]
    ∃ read create ordered,
      batch.mapM (fun entry => Statement.ofDump entry.query entry.lines) = .ok [read, create] ∧
      orderStatements .qualified [read, create] = .ok ordered ∧
      IsName "t" ∧ CreatesTable "t" "CreateQuery d t (children 2)" ∧
      UsesTable "t" "      TableIdentifier d.t (alias x)" ∧
      ∃ order : List (Fin 2), Arranged .qualified [read, create] ordered order ∧
        order.idxOf 1 < order.idxOf 0 := by
  intro readLines createLines batch
  have hrun : (match Statement.ofDump "SELECT c FROM d.t AS x" readLines,
        Statement.ofDump "CREATE TABLE d.t" createLines with
      | .ok read, .ok create => (orderStatements .qualified [read, create]).isOk
      | _, _ => false) = true := by decide +kernel
  split at hrun
  case h_2 => cases hrun
  rename_i read create hread hcreate
  obtain ⟨ordered, hordered⟩ := exists_eq_ok_of_isOk hrun
  have hbatch : batch.mapM (fun entry => Statement.ofDump entry.query entry.lines) =
      .ok [read, create] := mapM_eq_ok_iff.2 (.cons hread (.cons hcreate .nil))
  have ht : IsName "t" := ⟨by decide, by simp⟩
  have hd : IsName "d" := ⟨by decide, by simp⟩
  have hcreates : CreatesTable "t" "CreateQuery d t (children 2)" :=
    .qualified 0 hd ⟨"children 2", by decide, by decide, rfl⟩
  have huses : UsesTable "t" "      TableIdentifier d.t (alias x)" :=
    .readQualifiedNoted 6 hd ⟨"alias x", by decide, by decide, rfl⟩
  have hne : (1 : Fin 2) ≠ 0 := by decide
  refine ⟨read, create, ordered, hbatch, hordered, ht, hcreates, huses, ?_⟩
  refine creation_stands_before_use hbatch hordered hne rfl rfl ht (.inl ?_)
  exact ⟨_, by simp [createLines], _, by simp [readLines], hcreates, huses⟩

end DdlOrder
