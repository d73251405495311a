import DdlOrder.Graph.Basic
import DdlOrder.Rule

/-!
# The dependencies of a batch

Every two different statements of a batch are compared in both directions. Where
a rule makes one run before the other, the edge is added to the graph and, if it was
not there, the dependency noted, in the order in which the pairs are compared.

* `Relating.consider_self`: a statement never depends on itself.
-/

namespace DdlOrder

/-- One statement runs before another, because of a rule. -/
structure Dependency (n : Nat) where
  before : Fin n
  after : Fin n
  rule : Rule
  deriving DecidableEq, Repr

/-- The graph so far and the dependencies noted on the way. -/
structure Relating (n : Nat) where
  graph : Graph n
  dependencies : List (Dependency n)

namespace Relating

variable {n : Nat}

/-- Compares one statement with a later one. -/
def consider (m : Matching) (facts : Vector Facts n) (r : Relating n) (pair : Fin n × Fin n) :
    Relating n :=
  if pair.1 = pair.2 then r
  else match Rule.firstBetween? m facts[pair.1] facts[pair.2] with
    | none => r
    | some rule =>
      let addition := r.graph.addEdge pair.1 pair.2
      { graph := addition.graph
        dependencies :=
          if addition.added then
            r.dependencies ++ [{ before := pair.1, after := pair.2, rule }]
          else r.dependencies }

theorem consider_self (m : Matching) (facts : Vector Facts n) (r : Relating n) (i : Fin n) :
    r.consider m facts (i, i) = r := by
  simp [consider]

/-- All pairs of positions, ascending by the first and then by the second. -/
def pairs (n : Nat) : List (Fin n × Fin n) :=
  (List.finRange n).flatMap fun i => (List.finRange n).map fun j => (i, j)

/-- Compares all pairs of statements. -/
def ofFacts (m : Matching) (facts : Vector Facts n) : Relating n :=
  (pairs n).foldl (consider m facts) { graph := Graph.empty n, dependencies := [] }

end Relating

/-- The dependencies among the statements of a batch. -/
def relate (m : Matching) (statements : List Statement) : Relating statements.length :=
  Relating.ofFacts m (Vector.ofFn fun i => Facts.ofStatement statements[i])

/-- Which statements of a batch come before which. -/
def Graph.ofStatements (m : Matching) (statements : List Statement) :
    Graph statements.length :=
  (relate m statements).graph

end DdlOrder
