import DdlOrder.Order

/-!
# Events

Reading and ordering a batch can be followed through the events it emits, each
with a severity, a fixed message and the data of the moment. What was emitted
before a failure stays.

* `Logged.events_bind`: a step's events come before those of the next one;
* `Logged.result_order`, `Logged.result_parse`: following the events changes no result.
-/

namespace DdlOrder

/-- Something worth following while a batch is read and ordered. -/
inductive Event where
  | parsedDump (nodes : Nat) (query : String)
  | recordedDependency (rule : Rule) (before after : String)
  | builtGraph (statements edges : Nat)
  | cycleDetected (count : Nat)
  deriving DecidableEq, Repr

/-- How severe an event is. -/
inductive Severity where
  | debug
  | info
  | warning
  deriving DecidableEq, Repr

/-- The severity of an event. -/
def Event.severity : Event → Severity
  | .parsedDump _ _ | .recordedDependency _ _ _ => .debug
  | .builtGraph _ _ => .info
  | .cycleDetected _ => .warning

/-- The message of an event. -/
def Event.message : Event → String
  | .parsedDump _ _ => "parsed statement dump"
  | .recordedDependency _ _ _ => "recorded dependency"
  | .builtGraph _ _ => "built dependency graph"
  | .cycleDetected _ => "dependency cycle detected"

/-- A result and the events emitted on the way to it. -/
structure Logged (α : Type) where
  events : List Event
  result : Except Error α

namespace Logged

/-- Goes on with what a step gives, if it gives something. -/
protected def bind {α β : Type} (x : Logged α) (f : α → Logged β) : Logged β :=
  match x.result with
  | .ok a => { events := x.events ++ (f a).events, result := (f a).result }
  | .error e => { events := x.events, result := .error e }

instance : Monad Logged where
  pure a := { events := [], result := .ok a }
  bind := Logged.bind

/-- Emits events. -/
def emit (events : List Event) : Logged Unit := { events, result := .ok () }

/-- A result without events. -/
def of {α : Type} (result : Except Error α) : Logged α := { events := [], result }

theorem events_bind {α β : Type} {x : Logged α} {a : α} (h : x.result = .ok a)
    (f : α → Logged β) : (x >>= f).events = x.events ++ (f a).events := by
  change (Logged.bind x f).events = _
  simp [Logged.bind, h]

theorem result_bind {α β : Type} (x : Logged α) (f : α → Logged β) :
    (x >>= f).result = x.result.bind fun a => (f a).result := by
  change (Logged.bind x f).result = _
  unfold Logged.bind
  split <;> simp_all [Except.bind]

/-- Parses a statement's dump. -/
def parse (query : String) (lines : List String) : Logged Statement := do
  let s ← of (Statement.ofDump query lines)
  emit [.parsedDump s.tree.size query]
  return s

/-- Parses statements one after the other, up to the first that fails. -/
def parseAll (dumps : List (String × List String)) : Logged (List Statement) :=
  match dumps with
  | [] => pure []
  | (query, lines) :: rest => do
    let s ← parse query lines
    let ss ← parseAll rest
    return s :: ss

/-- The event for a dependency. -/
def recorded (statements : List Statement) (d : Dependency statements.length) : Event :=
  .recordedDependency d.rule statements[d.before].query statements[d.after].query

/-- The events for an order that could not be found. -/
def stuck {α : Type} : Except Error α → List Event
  | .error (.cycle remaining) => [.cycleDetected remaining.length]
  | _ => []

/-- Orders the statements of a batch. -/
def order (m : Matching) (statements : List Statement) : Logged (List Statement) := do
  let r := relate m statements
  emit (r.dependencies.map (recorded statements))
  emit [.builtGraph statements.length r.graph.edgeCount]
  let positions := r.graph.sort (statements.map (·.query))
  emit (stuck positions)
  of (positions.map (arrange statements))

theorem result_parse (query : String) (lines : List String) :
    (parse query lines).result = Statement.ofDump query lines := by
  simp only [parse, result_bind, of]
  cases Statement.ofDump query lines <;> rfl

theorem result_order (m : Matching) (statements : List Statement) :
    (order m statements).result = orderStatements m statements := by
  simp only [order, result_bind]
  rfl

end Logged

end DdlOrder
