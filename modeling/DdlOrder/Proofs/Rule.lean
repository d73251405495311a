import DdlOrder.Rule

/-!
# When a rule holds

* `Rule.shareName_iff`, `ColumnRef.overlap_iff`: lists with a name or a column in common;
* `Rule.holds_createsTable` and its like: what each rule asks of the facts of two
  statements;
* `Rule.holds_name`: a rule that holds where columns are compared by table as well holds
  where they are compared by name alone;
* `Rule.decides_of_firstBetween?`: the rule that is named is the first that holds.
-/

namespace DdlOrder

theorem Rule.shareName_iff {as bs : List String} :
    Rule.shareName as bs = true ↔ ∃ a ∈ as, a ∈ bs := by
  simp [Rule.shareName]

theorem ColumnRef.overlap_iff {m : Matching} {as bs : List ColumnRef} :
    ColumnRef.overlap m as bs = true ↔ ∃ a ∈ as, ∃ b ∈ bs, a.mayBeSame m b = true := by
  simp [ColumnRef.overlap]

/-- Comparing by name alone finds at least as much in common. -/
theorem ColumnRef.overlap_name {m : Matching} {as bs : List ColumnRef}
    (h : ColumnRef.overlap m as bs = true) : ColumnRef.overlap .name as bs = true := by
  obtain ⟨a, ha, b, hb, hab⟩ := overlap_iff.1 h
  exact overlap_iff.2 ⟨a, ha, b, hb, mayBeSame_name hab⟩

namespace Rule

variable {m : Matching} {earlier later : Facts}

theorem holds_createsTable :
    holds m earlier later .createsTable = true ↔
      ∃ table ∈ earlier.createdTables,
        table ∈ later.referencedTables ∨ table ∈ later.alterTargets := by
  simp only [holds, Bool.or_eq_true, shareName_iff, ← exists_or, ← and_or_left]

theorem holds_createsFunction :
    holds m earlier later .createsFunction = true ↔
      ∃ function ∈ earlier.createdFunctions, function ∈ later.functionCalls :=
  shareName_iff

theorem holds_introducesColumn :
    holds m earlier later .introducesColumn = true ↔
      ∃ a ∈ earlier.introduced, ∃ b ∈ later.used, a.mayBeSame m b = true :=
  ColumnRef.overlap_iff

theorem holds_declaresRenameTarget :
    holds m earlier later .declaresRenameTarget = true ↔
      ∃ a ∈ earlier.declared, ∃ b ∈ later.renamedTo, a.mayBeSame m b = true :=
  ColumnRef.overlap_iff

theorem holds_usesDroppedColumn :
    holds m earlier later .usesDroppedColumn = true ↔
      ∃ a ∈ earlier.usedBeforeDrop, ∃ b ∈ later.dropped, a.mayBeSame m b = true :=
  ColumnRef.overlap_iff

theorem holds_name {r : Rule} (h : holds m earlier later r = true) :
    holds .name earlier later r = true := by
  cases r with
  | createsTable => exact h
  | createsFunction => exact h
  | introducesColumn => exact ColumnRef.overlap_name h
  | declaresRenameTarget => exact ColumnRef.overlap_name h
  | usesDroppedColumn => exact ColumnRef.overlap_name h

/-! ## The rule that is named -/

variable {r : Rule}

/-- The place of a rule among those that may hold, the first to be named first. -/
def priority : Rule → Nat
  | .createsTable => 0
  | .createsFunction => 1
  | .introducesColumn => 2
  | .declaresRenameTarget => 3
  | .usesDroppedColumn => 4

/-- The rule holds between two statements, and none that is named before it does. -/
def Decides (m : Matching) (earlier later : Facts) (r : Rule) : Prop :=
  holds m earlier later r = true ∧
    ∀ other, holds m earlier later other = true → r.priority ≤ other.priority

theorem pairwise_all : all.Pairwise fun r other => r.priority ≤ other.priority := by decide

theorem decides_of_firstBetween? (h : firstBetween? m earlier later = some r) :
    Decides m earlier later r := by
  obtain ⟨hholds, before, after, hall, hbefore⟩ := List.find?_eq_some_iff_append.1 h
  refine ⟨hholds, fun other hother => ?_⟩
  have hmem := mem_all other
  rw [hall, List.mem_append, List.mem_cons] at hmem
  rcases hmem with hmem | rfl | hmem
  · have := hbefore other hmem
    simp [hother] at this
  · exact Nat.le_refl _
  · have hsorted := pairwise_all
    rw [hall, List.pairwise_append, List.pairwise_cons] at hsorted
    exact hsorted.2.1.1 other hmem

end Rule

end DdlOrder
