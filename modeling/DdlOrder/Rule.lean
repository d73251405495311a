import DdlOrder.Statement

/-!
# Why one statement runs before another

What the rules look at is collected once for each statement, as its `Facts`. A
rule says of an earlier and a later statement that the later one needs what the
earlier one does; of several rules that hold, the first in `Rule.all` is named.

* `Rule.firstBetween?_isSome`: a rule is named when one of them holds.
-/

namespace DdlOrder

/-- What the rules look at in one statement. -/
structure Facts where
  createdTables : List String
  createdFunctions : List String
  referencedTables : List String
  alterTargets : List String
  functionCalls : List String
  /-- Created, added or renamed-to columns. -/
  introduced : List ColumnRef
  /-- Created or added columns. -/
  declared : List ColumnRef
  /-- Selected, modified, commented, materialized or renamed-from columns. -/
  used : List ColumnRef
  renamedTo : List ColumnRef
  /-- Columns that the statement needs before they may be dropped. -/
  usedBeforeDrop : List ColumnRef
  dropped : List ColumnRef

/-- The facts of a statement. -/
def Facts.ofStatement (s : Statement) : Facts :=
  let created := s.createdColumns
  let added := s.alterColumns .addColumn
  let modified := s.alterColumns .modifyColumn
  let commented := s.alterColumns .commentColumn
  let materialized := s.alterColumns .materializeColumn
  let selected := s.selectedColumns
  let renamedFrom := s.renamedFrom
  let renamedTo := s.renamedTo
  { createdTables := s.createdTables
    createdFunctions := s.createdFunctions
    referencedTables := s.referencedTables
    alterTargets := s.alterTargets
    functionCalls := s.functionCalls
    introduced := created ++ added ++ renamedTo
    declared := created ++ added
    used := selected ++ modified ++ commented ++ materialized ++ renamedFrom
    renamedTo
    usedBeforeDrop :=
      selected ++ added ++ modified ++ commented ++ materialized ++ renamedFrom ++ renamedTo
    dropped := s.alterColumns .dropColumn }

/-- A reason for one statement to run before another. -/
inductive Rule where
  /-- The earlier one creates a table or view that the later one reads or alters. -/
  | createsTable
  /-- The earlier one creates a function that the later one calls. -/
  | createsFunction
  /-- The earlier one introduces a column that the later one uses. -/
  | introducesColumn
  /-- The earlier one declares a column that the later one renames something to. -/
  | declaresRenameTarget
  /-- The earlier one uses a column that the later one drops. -/
  | usesDroppedColumn
  deriving DecidableEq, Repr

namespace Rule

/-- All rules, the first to be named first. -/
def all : List Rule :=
  [.createsTable, .createsFunction, .introducesColumn, .declaresRenameTarget, .usesDroppedColumn]

/-- The word for a rule. -/
def word : Rule → String
  | .createsTable => "creates-table"
  | .createsFunction => "creates-function"
  | .introducesColumn => "introduces-column"
  | .declaresRenameTarget => "declares-rename-target"
  | .usesDroppedColumn => "uses-dropped-column"

/-- Whether two lists have a name in common. -/
def shareName (as bs : List String) : Bool := as.any fun a => bs.contains a

/-- Whether the rule makes the earlier statement run before the later one. -/
def holds (m : Matching) (earlier later : Facts) : Rule → Bool
  | .createsTable =>
    shareName earlier.createdTables later.referencedTables ||
      shareName earlier.createdTables later.alterTargets
  | .createsFunction => shareName earlier.createdFunctions later.functionCalls
  | .introducesColumn => ColumnRef.overlap m earlier.introduced later.used
  | .declaresRenameTarget => ColumnRef.overlap m earlier.declared later.renamedTo
  | .usesDroppedColumn => ColumnRef.overlap m earlier.usedBeforeDrop later.dropped

/-- The first rule that makes the earlier statement run before the later one. -/
def firstBetween? (m : Matching) (earlier later : Facts) : Option Rule :=
  all.find? (holds m earlier later)

theorem mem_all (r : Rule) : r ∈ all := by cases r <;> simp [all]

theorem firstBetween?_isSome (m : Matching) (earlier later : Facts) :
    (firstBetween? m earlier later).isSome ↔ ∃ r, holds m earlier later r := by
  simp only [firstBetween?, List.find?_isSome]
  exact ⟨fun ⟨r, _, h⟩ => ⟨r, h⟩, fun ⟨r, h⟩ => ⟨r, mem_all r, h⟩⟩

end Rule

end DdlOrder
