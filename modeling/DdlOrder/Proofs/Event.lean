import DdlOrder.Event
import DdlOrder.Proofs.Graph.Cycle
import DdlOrder.Proofs.Graph.Recorded
import Mathlib.Data.List.Forall2

/-!
# What the events tell

A batch is read and ordered, and the events that are emitted on the way tell how this went
(`Logged.Story`): how many statements could be parsed and how large their trees are, which statement
depends on which and by which rule, and whether an order was found. Each event is told with its
data, its severity and its message (`Logged.Told`).

* `Logged.parseAll_of_forall`, `Logged.parseAll_of_error`: the events of parsing;
* `Logged.order_eq`: the events of ordering;
* `Logged.events_tell_the_run`: the events of both, for every batch.
-/

namespace DdlOrder

namespace Logged

variable {m : Matching} {dumps : List (String × List String)} {statements : List Statement}

/-! ## Stories -/

/-- The dump of a text is parsed to a statement. -/
def Parses (dump : String × List String) (s : Statement) : Prop :=
  Statement.ofDump dump.1 dump.2 = .ok s

/-- The event has this data, and is emitted with this severity and under this message. -/
structure Told (event data : Event) (severity : Severity) (message : String) : Prop where
  event_eq : event = data
  severity_eq : event.severity = severity
  message_eq : event.message = message

/-- The event for a statement that was parsed carries the size of its tree and its text. -/
def TellsOf (s : Statement) (event : Event) : Prop :=
  Told event (.parsedDump s.tree.size s.query) .debug "parsed statement dump"

/-- The event for an edge carries the texts at its ends and the rule that decides. -/
def Records (m : Matching) (statements : List Statement)
    (edge : Fin statements.length × Fin statements.length) (event : Event) : Prop :=
  ∃ rule, Rule.Decides m (Facts.ofStatement statements[edge.1])
      (Facts.ofStatement statements[edge.2]) rule ∧
    Told event (.recordedDependency rule statements[edge.1].query statements[edge.2].query)
      .debug "recorded dependency"

/-- What comes of a batch of dumps, with the events that tell of it. -/
inductive Story (m : Matching) : List (String × List String) → Logged (List Statement) → Prop where
  /-- A dump cannot be parsed. Only those before it are told of. -/
  | unparsed {before after : List (String × List String)} {dump : String × List String}
      {statements : List Statement} {parsed : List Event} {e : Error}
      (hbefore : List.Forall₂ Parses before statements)
      (htold : List.Forall₂ TellsOf statements parsed)
      (hfailed : Statement.ofDump dump.1 dump.2 = .error e) :
      Story m (before ++ dump :: after) { events := parsed, result := .error e }
  /-- An order is found. -/
  | ordered {dumps : List (String × List String)} {statements ordered : List Statement}
      {parsed recorded : List Event} {built : Event}
      (hparsed : List.Forall₂ Parses dumps statements)
      (htold : List.Forall₂ TellsOf statements parsed)
      (hrecorded : List.Forall₂ (Records m statements) (Graph.ofStatements m statements).edges
        recorded)
      (hbuilt : Told built (.builtGraph statements.length recorded.length) .info
        "built dependency graph")
      (hordered : orderStatements m statements = .ok ordered) :
      Story m dumps { events := parsed ++ recorded ++ [built], result := .ok ordered }
  /-- The statements wait for each other. -/
  | stuck {dumps : List (String × List String)} {statements : List Statement}
      {parsed recorded : List Event} {built cycle : Event} {remaining : List String}
      (hparsed : List.Forall₂ Parses dumps statements)
      (htold : List.Forall₂ TellsOf statements parsed)
      (hrecorded : List.Forall₂ (Records m statements) (Graph.ofStatements m statements).edges
        recorded)
      (hbuilt : Told built (.builtGraph statements.length recorded.length) .info
        "built dependency graph")
      (hcycle : Told cycle (.cycleDetected remaining.length) .warning "dependency cycle detected")
      (hordered : orderStatements m statements = .error (.cycle remaining)) :
      Story m dumps
        { events := parsed ++ recorded ++ [built, cycle], result := .error (.cycle remaining) }

/-! ## Parsing -/

theorem bind_of_ok {α β : Type} {x : Logged α} {a : α} (h : x.result = .ok a)
    (f : α → Logged β) :
    (x >>= f) = { events := x.events ++ (f a).events, result := (f a).result } := by
  change Logged.bind x f = _
  simp [Logged.bind, h]

theorem bind_of_error {α β : Type} {x : Logged α} {e : Error} (h : x.result = .error e)
    (f : α → Logged β) : (x >>= f) = { events := x.events, result := .error e } := by
  change Logged.bind x f = _
  simp [Logged.bind, h]

/-- The event for a statement that was parsed. -/
def parsed (s : Statement) : Event := .parsedDump s.tree.size s.query

theorem forall₂_map_parsed (statements : List Statement) :
    List.Forall₂ TellsOf statements (statements.map parsed) :=
  List.forall₂_map_right_iff.2 (List.forall₂_same.2 fun _ _ => ⟨rfl, rfl, rfl⟩)

theorem parse_of_ok {dump : String × List String} {s : Statement} (h : Parses dump s) :
    parse dump.1 dump.2 = { events := [parsed s], result := .ok s } := by
  have hresult : (of (Statement.ofDump dump.1 dump.2)).result = .ok s := h
  rw [parse, bind_of_ok hresult, parsed, Statement.query_ofDump h]
  rfl

theorem parse_of_error {dump : String × List String} {e : Error}
    (h : Statement.ofDump dump.1 dump.2 = .error e) :
    parse dump.1 dump.2 = { events := [], result := .error e } := by
  have hresult : (of (Statement.ofDump dump.1 dump.2)).result = .error e := h
  rw [parse, bind_of_error hresult]
  rfl

theorem parseAll_cons_of_ok {dump : String × List String} {s : Statement} (h : Parses dump s)
    (dumps : List (String × List String)) :
    parseAll (dump :: dumps) =
      { events := parsed s :: (parseAll dumps).events
        result := (parseAll dumps).result.map (s :: ·) } := by
  rw [parseAll, parse_of_ok h, bind_of_ok rfl]
  cases hrest : (parseAll dumps).result with
  | error e =>
    rw [bind_of_error hrest]
    rfl
  | ok ss =>
    rw [bind_of_ok hrest]
    show Logged.mk ([parsed s] ++ ((parseAll dumps).events ++ [])) (.ok (s :: ss)) = _
    rw [List.append_nil]
    rfl

/-- Where every dump can be parsed, each statement is told of. -/
theorem parseAll_of_forall (h : List.Forall₂ Parses dumps statements) :
    parseAll dumps = { events := statements.map parsed, result := .ok statements } := by
  induction h with
  | nil => rfl
  | cons hparsed _ ih =>
    rw [parseAll_cons_of_ok hparsed, ih]
    rfl

/-- Where a dump cannot be parsed, the statements before it are told of. -/
theorem parseAll_of_error {before after : List (String × List String)}
    {dump : String × List String} {e : Error} (hbefore : List.Forall₂ Parses before statements)
    (hfailed : Statement.ofDump dump.1 dump.2 = .error e) :
    parseAll (before ++ dump :: after) =
      { events := statements.map parsed, result := .error e } := by
  induction hbefore with
  | nil =>
    rw [List.nil_append, parseAll, parse_of_error hfailed]
    rfl
  | cons hparsed _ ih =>
    rw [List.cons_append, parseAll_cons_of_ok hparsed, ih]
    rfl

/-- Either all dumps can be parsed, or there is a first one that cannot. -/
theorem forall_parses_or_exists_first (dumps : List (String × List String)) :
    (∃ statements, List.Forall₂ Parses dumps statements) ∨
      ∃ before dump after statements e, dumps = before ++ dump :: after ∧
        List.Forall₂ Parses before statements ∧ Statement.ofDump dump.1 dump.2 = .error e := by
  induction dumps with
  | nil => exact .inl ⟨[], .nil⟩
  | cons dump dumps ih =>
    cases hdump : Statement.ofDump dump.1 dump.2 with
    | error e => exact .inr ⟨[], dump, dumps, [], e, rfl, .nil, hdump⟩
    | ok s =>
      rcases ih with ⟨statements, h⟩ | ⟨before, failed, after, statements, e, rfl, h, hfailed⟩
      · exact .inl ⟨s :: statements, .cons hdump h⟩
      · exact .inr ⟨dump :: before, failed, after, s :: statements, e, rfl, .cons hdump h, hfailed⟩

/-! ## Ordering -/

/-- The events for the dependencies of a batch. -/
def recordedAll (m : Matching) (statements : List Statement) : List Event :=
  (relate m statements).dependencies.map (recorded statements)

/-- Each edge is told of, with its texts and its rule. -/
theorem forall₂_recordedAll (m : Matching) (statements : List Statement) :
    List.Forall₂ (Records m statements) (Graph.ofStatements m statements).edges
      (recordedAll m statements) := by
  have hedges : (relate m statements).dependencies.map Dependency.ends =
      (Graph.ofStatements m statements).edges := Relating.map_ends_dependencies m _
  rw [← hedges, recordedAll, List.forall₂_map_left_iff, List.forall₂_map_right_iff,
    List.forall₂_same]
  intro d hd
  have hdecides := Relating.decides_of_mem_dependencies hd
  simp only [get_eq_getElem, Vector.getElem_ofFn] at hdecides
  exact ⟨d.rule, hdecides, rfl, rfl, rfl⟩

theorem edgeCount_ofStatements (m : Matching) (statements : List Statement) :
    (Graph.ofStatements m statements).edgeCount = (recordedAll m statements).length := by
  rw [Graph.edgeCount_eq, (forall₂_recordedAll m statements).length_eq]

theorem stuck_map {α β : Type} (f : α → β) (x : Except Error α) : stuck (x.map f) = stuck x := by
  rcases x with e | a
  · cases e <;> rfl
  · rfl

/-- The dependencies are told of, then their number, and then a cycle if there is one. -/
theorem order_eq (m : Matching) (statements : List Statement) :
    order m statements =
      { events := recordedAll m statements ++
          .builtGraph statements.length (recordedAll m statements).length ::
            stuck (orderStatements m statements)
        result := orderStatements m statements } := by
  have hstuck : stuck (orderPositions m statements) = stuck (orderStatements m statements) :=
    (stuck_map (arrange statements) _).symm
  rw [order, bind_of_ok rfl, bind_of_ok rfl, bind_of_ok rfl, ← edgeCount_ofStatements, ← hstuck]
  show Logged.mk (_ ++ ([_] ++ (_ ++ []))) _ = _
  rw [List.append_nil]
  rfl

/-! ## Both -/

/-- The events of a batch tell what comes of it: one for each statement up to the first that cannot
be parsed and, if all of them can, one for each edge of the graph, in the order in which the graph
lists its edges, one for their number, and one for a cycle if there is one. Of the rules that hold
between two statements, the one that is told of is the first in the order of these words. -/
theorem events_tell_the_run (m : Matching) (dumps : List (String × List String)) :
    Story m dumps (parseAll dumps >>= order m) ∧
      (∀ statements, (Graph.ofStatements m statements).edges.Pairwise Graph.Earlier) ∧
      ∀ rule : Rule, ["creates-table", "creates-function", "introduces-column",
        "declares-rename-target", "uses-dropped-column"][rule.priority]? = some rule.word := by
  refine ⟨?_, fun statements => (Graph.mirrored_ofStatements m statements).pairwise_edges,
    fun rule => by cases rule <;> rfl⟩
  rcases forall_parses_or_exists_first dumps with
    ⟨statements, hparsed⟩ | ⟨before, dump, after, statements, e, rfl, hbefore, hfailed⟩
  · have hrecorded := forall₂_recordedAll m statements
    have htold := forall₂_map_parsed statements
    rw [parseAll_of_forall hparsed, bind_of_ok rfl, order_eq]
    cases hordered : orderStatements m statements with
    | ok ordered =>
      have := Story.ordered hparsed htold hrecorded ⟨rfl, rfl, rfl⟩ hordered
      rwa [List.append_assoc] at this
    | error e =>
      obtain ⟨-, rfl⟩ := (Graph.sort_eq_error_iff (Graph.mirrored_ofStatements m statements)).1
        (orderStatements_eq_error hordered)
      have := Story.stuck hparsed htold hrecorded ⟨rfl, rfl, rfl⟩ ⟨rfl, rfl, rfl⟩ hordered
      rwa [List.append_assoc] at this
  · rw [parseAll_of_error hbefore hfailed, bind_of_error rfl]
    exact .unparsed hbefore (forall₂_map_parsed statements) hfailed

end Logged

end DdlOrder
