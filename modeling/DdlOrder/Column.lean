/-!
# Columns

A statement names a column together with the table it belongs to, where the
statement pins the table down. Columns of two statements are compared by name
alone, or by table as well where both tables are known.

* `ColumnRef.mayBeSame_comm`: the comparison is symmetric;
* `ColumnRef.mayBeSame_name`: what may be the same under comparison by table
  may be the same under comparison by name.
-/

namespace DdlOrder

/-- A column as one statement sees it. -/
structure ColumnRef where
  /-- The table that the column belongs to, if the statement pins it down. -/
  table : Option String
  name : String
  deriving DecidableEq, Repr

/-- How columns of different statements are compared. -/
inductive Matching where
  /-- By name alone. -/
  | name
  /-- By name, and by table where both sides know it. -/
  | qualified
  deriving DecidableEq, Repr

/-- The word for a way of comparing. -/
def Matching.word : Matching → String
  | .name => "name"
  | .qualified => "qualified"

/-- The way of comparing that a word names. -/
def Matching.ofWord? (word : String) : Option Matching :=
  match word with
  | "name" => some .name
  | "qualified" => some .qualified
  | _ => none

/-- The way of comparing where none is asked for. -/
def Matching.default : Matching := .name

theorem Matching.ofWord?_word (m : Matching) : Matching.ofWord? m.word = some m := by
  cases m <;> rfl

/-- Whether two statements may mean the same column. -/
def ColumnRef.mayBeSame (m : Matching) (a b : ColumnRef) : Bool :=
  a.name == b.name &&
    match m, a.table, b.table with
    | .qualified, some s, some t => s == t
    | _, _, _ => true

theorem ColumnRef.mayBeSame_comm (m : Matching) (a b : ColumnRef) :
    a.mayBeSame m b = b.mayBeSame m a := by
  obtain ⟨s, x⟩ := a
  obtain ⟨t, y⟩ := b
  cases m <;> cases s <;> cases t <;> simp [mayBeSame, Bool.beq_comm]

theorem ColumnRef.mayBeSame_name {m : Matching} {a b : ColumnRef} (h : a.mayBeSame m b) :
    a.mayBeSame .name b := by
  simp only [mayBeSame, Bool.and_eq_true] at h ⊢
  exact ⟨h.1, trivial⟩

/-- Whether some column of one list may be the same as one of the other. -/
def ColumnRef.overlap (m : Matching) (as bs : List ColumnRef) : Bool :=
  as.any fun a => bs.any fun b => a.mayBeSame m b

end DdlOrder
