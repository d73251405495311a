import DdlOrder.Text.Basic
import DdlOrder.Text.Escape
import DdlOrder.Tree.Basic

/-!
# Printed trees

A tree is printed as a document: a node is its tag as a string, with value,
qualifier, alias and note as properties where it has them, and its children
stand indented between braces on the lines below.

* `Tree.printLines_eq`: the lines of a node are its own, those of its children,
  and a closing one if it has children.
-/

namespace DdlOrder

namespace Tree

/-- The leading spaces at this depth. -/
def pad (depth : Nat) : String := String.ofList (List.replicate (2 * depth) ' ')

/-- One property, or nothing where there is no value. -/
def property (key : String) : Option String → String
  | some value => " " ++ key ++ "=" ++ stringLiteral value
  | none => ""

/-- A node's tag and properties. -/
def header (n : Node) : String :=
  stringLiteral n.kind.tag ++ property "value" n.value ++ property "qualifier" n.qualifier ++
    property "alias" n.aliasName ++ property "meta" n.note

/-- The header of the node with this id. -/
def headerOf (t : Tree) (i : Nat) : String := ((t.node? i).map header).getD ""

/-- The lines of the node with this id and of the nodes below it. -/
def printLines (t : Tree) (i depth : Nat) : List String :=
  if (t.children i).isEmpty then [pad depth ++ t.headerOf i]
  else
    (pad depth ++ t.headerOf i ++ " \x7b") ::
      (t.children i).attach.flatMap (fun ⟨c, _h⟩ => t.printLines c (depth + 1)) ++
      [pad depth ++ "\x7d"]
termination_by t.size - i
decreasing_by
  have := lt_of_mem_children _h
  omega

theorem printLines_eq (t : Tree) (i depth : Nat) :
    t.printLines i depth =
      if (t.children i).isEmpty then [pad depth ++ t.headerOf i]
      else
        (pad depth ++ t.headerOf i ++ " \x7b") ::
          (t.children i).flatMap (fun c => t.printLines c (depth + 1)) ++
          [pad depth ++ "\x7d"] := by
  rw [printLines]
  congr 3
  conv => rhs; rw [← List.attach_map_subtype_val (t.children i)]
  rw [List.flatMap_map]

end Tree

/-- The whole tree as a document. -/
def Tree.print (t : Tree) : String :=
  if t.size = 0 then "" else unlines (t.printLines 0 0)

end DdlOrder
