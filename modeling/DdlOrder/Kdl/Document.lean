/-!
# KDL documents

A KDL document is a list of nodes. A node has a name, values and properties in
the order in which they are written, and child nodes. Type notes in parentheses
carry no meaning here and are dropped.

* `Kdl.Entry.name?_eq_none_iff`: an entry without a name is a positional value.
-/

namespace DdlOrder.Kdl

/-- A value. Numbers and keywords are kept as they are written. -/
inductive Value where
  | text (s : String)
  | number (digits : String)
  | keyword (word : String)
  deriving DecidableEq, Repr

/-- A positional value or a property of a node. -/
inductive Entry where
  | argument (value : Value)
  | property (name : String) (value : Value)
  deriving DecidableEq, Repr

/-- The name of a property. -/
def Entry.name? : Entry → Option String
  | .argument _ => none
  | .property name _ => some name

/-- The value of a positional entry. -/
def Entry.argument? : Entry → Option Value
  | .argument value => some value
  | .property _ _ => none

theorem Entry.name?_eq_none_iff {e : Entry} : e.name? = none ↔ ∃ v, e.argument? = some v := by
  cases e <;> simp [name?, argument?]

/-- A node with its entries and children, in document order. -/
inductive Node where
  | mk (name : String) (entries : List Entry) (children : List Node)

namespace Node

/-- The name of a node. -/
def name : Node → String
  | .mk name _ _ => name

/-- The values and properties of a node. -/
def entries : Node → List Entry
  | .mk _ entries _ => entries

/-- The children of a node. -/
def children : Node → List Node
  | .mk _ _ children => children

end Node

/-- The nodes of a document, in document order. -/
abbrev Document := List Node

end DdlOrder.Kdl
