import DdlOrder.Batch
import DdlOrder.Proofs.Result

/-!
# Which documents are batches

The nodes of a document that matter stand for statements and, below these, for their lines
(`Batch.places`). Each of them has to hold a text: it has the right name, the text is its only
positional value, and it has no property (`Batch.Place.Holds`). A node that holds none has a fault
(`Batch.Place.Faulty`). Of several faults a wrong name comes first; then a statement is faulted for
its value before its properties, a line for its properties before its value.

* `Batch.Place.text_eq_ok_iff`, `Batch.Place.text_eq_error_iff`: what is read of one node;
* `Batch.ofDocument_eq_ok_iff`, `Batch.ofDocument_eq_error_iff`: what is read of a document;
* `Batch.parse_reads_places`: all of this, for a document and for the text of one.
-/

namespace DdlOrder

namespace Batch

/-! ## What a node says -/

/-- The positional values of a node. -/
def values (node : Kdl.Node) : List Kdl.Value := node.entries.filterMap Kdl.Entry.argument?

/-- The names of the properties of a node. -/
def propertyNames (node : Kdl.Node) : List String := node.entries.filterMap Kdl.Entry.name?

/-- What is wrong with positional values that are not a single text. -/
inductive ValueFault (kind : String) : List Kdl.Value → DocumentFault → Prop where
  | count {values : List Kdl.Value} : values.length ≠ 1 → ValueFault kind values (.valueCount kind)
  | notText {value : Kdl.Value} : (∀ s, value ≠ .text s) →
    ValueFault kind [value] (.valueNotString kind)

/-- What a node stands for. -/
inductive Role where
  | statement
  | line
  deriving DecidableEq, Repr

/-- The name that a node has to have. -/
def Role.name : Role → String
  | .statement => "statement"
  | .line => "line"

/-- The fault of a node with another name. -/
def Role.misnamed : Role → String → DocumentFault
  | .statement => .unknownRoot
  | .line => .unknownChild

/-- A node of a document, with what it stands for. -/
structure Place where
  role : Role
  node : Kdl.Node

/-- The nodes of a document that matter, in document order: each statement before its lines. -/
def places (document : Kdl.Document) : List Place :=
  document.flatMap fun root => ⟨.statement, root⟩ :: root.children.map fun child => ⟨.line, child⟩

namespace Place

/-- The node holds the text: it has the right name, one positional value, which is the text, and
no property. -/
structure Holds (p : Place) (s : String) : Prop where
  name_eq : p.node.name = p.role.name
  values_eq : values p.node = [.text s]
  propertyNames_eq : propertyNames p.node = []

/-- What is reported of a node that holds no text. -/
inductive Faulty : Place → DocumentFault → Prop where
  | name {role : Role} {node : Kdl.Node} :
    node.name ≠ role.name → Faulty ⟨role, node⟩ (role.misnamed node.name)
  | value {role : Role} {node : Kdl.Node} {fault : DocumentFault} :
    node.name = role.name → (role = .line → propertyNames node = []) →
    ValueFault role.name (values node) fault → Faulty ⟨role, node⟩ fault
  | property {role : Role} {node : Kdl.Node} {name : String} {others : List String} :
    node.name = role.name → (role = .statement → ∃ s, values node = [.text s]) →
    propertyNames node = name :: others → Faulty ⟨role, node⟩ (.property role.name name)

/-- The text that is read of a node. -/
def text (p : Place) : Except DocumentFault String :=
  match p.role with
  | .statement => do
    if p.node.name ≠ "statement" then throw (.unknownRoot p.node.name)
    let s ← onlyText "statement" p.node
    noProperties "statement" p.node
    return s
  | .line => lineOfNode p.node

end Place

/-! ## One node -/

variable {kind s : String} {node : Kdl.Node} {fault : DocumentFault} {p : Place}

theorem onlyText_eq_ok_iff : onlyText kind node = .ok s ↔ values node = [.text s] := by
  rw [onlyText, ← values]
  split <;> simp_all

theorem onlyText_eq_error_iff :
    onlyText kind node = .error fault ↔ ValueFault kind (values node) fault := by
  constructor
  · intro h
    rw [onlyText, ← values] at h
    split at h
    · cases h
    · rename_i value hnot hvalue
      cases h
      rw [hvalue]
      exact .notText hnot
    · rename_i hone
      cases h
      refine .count fun hlength => ?_
      obtain ⟨value, hvalue⟩ := List.length_eq_one_iff.1 hlength
      exact hone value hvalue
  · intro h
    rw [onlyText, ← values]
    generalize values node = found at h
    cases h with
    | count hlength =>
      split
      · exact absurd rfl hlength
      · exact absurd rfl hlength
      · rfl
    | notText hne =>
      split
      · rename_i s hs
        exact absurd (List.cons.inj hs).1 (hne s)
      · rfl
      · rename_i hone
        exact absurd rfl (hone _)

theorem noProperties_eq_ok_iff {u : Unit} :
    noProperties kind node = .ok u ↔ propertyNames node = [] := by
  rw [noProperties, ← propertyNames]
  split <;> simp_all

theorem noProperties_eq_error_iff :
    noProperties kind node = .error fault ↔
      ∃ name others, propertyNames node = name :: others ∧ fault = .property kind name := by
  rw [noProperties, ← propertyNames]
  cases propertyNames node <;> simp [eq_comm]

namespace Place

theorem text_of_name_ne (h : p.node.name ≠ p.role.name) :
    p.text = .error (p.role.misnamed p.node.name) := by
  obtain ⟨role, node⟩ := p
  cases role <;> exact (if_pos h).trans rfl

theorem text_statement (h : node.name = Role.statement.name) :
    text ⟨.statement, node⟩ =
      onlyText "statement" node >>= fun s => (noProperties "statement" node).map fun _ => s :=
  (if_neg (not_not.2 h)).trans rfl

theorem text_line (h : node.name = Role.line.name) :
    text ⟨.line, node⟩ = noProperties "line" node >>= fun _ => onlyText "line" node :=
  (if_neg (not_not.2 h)).trans rfl

theorem text_eq_ok_iff : p.text = .ok s ↔ p.Holds s := by
  obtain ⟨role, node⟩ := p
  by_cases hname : node.name = role.name
  · have hholds : Holds ⟨role, node⟩ s ↔ values node = [.text s] ∧ propertyNames node = [] :=
      ⟨fun h => ⟨h.values_eq, h.propertyNames_eq⟩, fun h => ⟨hname, h.1, h.2⟩⟩
    rw [hholds]
    cases role with
    | statement =>
      rw [text_statement hname]
      simp [bind_eq_ok_iff, map_eq_ok_iff, onlyText_eq_ok_iff, noProperties_eq_ok_iff]
    | line =>
      rw [text_line hname]
      simp [bind_eq_ok_iff, onlyText_eq_ok_iff, noProperties_eq_ok_iff, and_comm]
  · rw [text_of_name_ne hname]
    exact iff_of_false (by simp) fun h => hname h.name_eq

/-- A statement's value is looked at before its properties. -/
theorem text_statement_eq_error_iff (h : node.name = Role.statement.name) :
    text ⟨.statement, node⟩ = .error fault ↔
      ValueFault "statement" (values node) fault ∨ (∃ s, values node = [.text s]) ∧
        ∃ name others, propertyNames node = name :: others ∧
          fault = .property "statement" name := by
  rw [text_statement h, bind_eq_error_iff]
  simp only [map_eq_error_iff, onlyText_eq_ok_iff, onlyText_eq_error_iff,
    noProperties_eq_error_iff, exists_and_right]

/-- A line's properties are looked at before its value. -/
theorem text_line_eq_error_iff (h : node.name = Role.line.name) :
    text ⟨.line, node⟩ = .error fault ↔
      (∃ name others, propertyNames node = name :: others ∧ fault = .property "line" name) ∨
        propertyNames node = [] ∧ ValueFault "line" (values node) fault := by
  rw [text_line h, bind_eq_error_iff]
  simp only [noProperties_eq_ok_iff, onlyText_eq_error_iff, noProperties_eq_error_iff, exists_const]

theorem text_eq_error_iff : p.text = .error fault ↔ p.Faulty fault := by
  obtain ⟨role, node⟩ := p
  by_cases hname : node.name = role.name
  · cases role with
    | statement =>
      rw [text_statement_eq_error_iff hname]
      constructor
      · rintro (hvalue | ⟨htext, name, others, hnames, rfl⟩)
        · exact .value hname nofun hvalue
        · exact .property hname (fun _ => htext) hnames
      · rintro (hne | ⟨-, -, hvalue⟩ | ⟨-, htext, hnames⟩)
        · exact absurd hname hne
        · exact .inl hvalue
        · exact .inr ⟨htext rfl, _, _, hnames, rfl⟩
    | line =>
      rw [text_line_eq_error_iff hname]
      constructor
      · rintro (⟨name, others, hnames, rfl⟩ | ⟨hnone, hvalue⟩)
        · exact .property hname nofun hnames
        · exact .value hname (fun _ => hnone) hvalue
      · rintro (hne | ⟨-, hnone, hvalue⟩ | ⟨-, -, hnames⟩)
        · exact absurd hname hne
        · exact .inr ⟨hnone rfl, hvalue⟩
        · exact .inl ⟨_, _, hnames, rfl⟩
  · rw [text_of_name_ne hname]
    constructor
    · rintro ⟨⟩
      exact .name hname
    · rintro (hne | ⟨h, -, -⟩ | ⟨h, -, -⟩)
      · rfl
      · exact absurd h hname
      · exact absurd h hname

end Place

/-! ## A document -/

variable {document : Kdl.Document} {root : Kdl.Node} {e : Entry} {batch : Batch} {input : String}

/-- The root node holds the text of a statement, and its children, one by one, hold the lines. -/
structure IsEntry (root : Kdl.Node) (e : Entry) : Prop where
  query : Place.Holds ⟨.statement, root⟩ e.query
  lines : List.Forall₂ (fun child line => Place.Holds ⟨.line, child⟩ line) root.children e.lines

theorem entryOfNode_eq (root : Kdl.Node) :
    entryOfNode root = Place.text ⟨.statement, root⟩ >>= fun query =>
      (root.children.mapM lineOfNode).map fun lines => { query, lines } := by
  by_cases hname : root.name = Role.statement.name
  · rw [Place.text_statement hname]
    refine (if_neg (not_not.2 hname)).trans ?_
    cases onlyText "statement" root with
    | error => rfl
    | ok => cases noProperties "statement" root <;> rfl
  · rw [Place.text_of_name_ne hname]
    exact (if_pos hname).trans rfl

theorem entryOfNode_eq_ok_iff : entryOfNode root = .ok e ↔ IsEntry root e := by
  have hlines : ∀ lines, root.children.mapM lineOfNode = .ok lines ↔
      List.Forall₂ (fun child line => Place.Holds ⟨.line, child⟩ line) root.children lines := by
    intro lines
    rw [mapM_eq_ok_iff]
    exact Iff.of_eq (congrArg (List.Forall₂ · _ _) (funext₂ fun child line =>
      propext (Place.text_eq_ok_iff (p := ⟨.line, child⟩))))
  rw [entryOfNode_eq, bind_eq_ok_iff]
  simp only [map_eq_ok_iff, Place.text_eq_ok_iff, hlines]
  constructor
  · rintro ⟨query, hquery, lines, hlines, rfl⟩
    exact ⟨hquery, hlines⟩
  · rintro ⟨hquery, hlines⟩
    exact ⟨e.query, hquery, e.lines, hlines, rfl⟩

theorem ofDocument_eq_ok_iff : ofDocument document = .ok batch ↔
    List.Forall₂ IsEntry document batch := by
  rw [ofDocument, mapM_eq_ok_iff]
  simp only [entryOfNode_eq_ok_iff]

/-- A document fails as its places do, one after the other. -/
theorem map_ofDocument (document : Kdl.Document) :
    (ofDocument document).map (fun _ => ()) =
      ((places document).mapM Place.text).map fun _ => () := by
  induction document with
  | nil => rfl
  | cons root document ih =>
    have hlines : (root.children.map fun child => (⟨.line, child⟩ : Place)).mapM Place.text =
        root.children.mapM lineOfNode := List.mapM_map
    have hcons : places (root :: document) =
        ⟨.statement, root⟩ :: ((root.children.map fun child => ⟨.line, child⟩) ++ places document) :=
      rfl
    rw [ofDocument] at ih
    rw [ofDocument, List.mapM_cons, entryOfNode_eq, hcons, List.mapM_cons, List.mapM_append, hlines]
    cases Place.text ⟨.statement, root⟩ with
    | error => rfl
    | ok query =>
      cases root.children.mapM lineOfNode with
      | error => rfl
      | ok lines =>
        cases hrest : document.mapM entryOfNode <;> cases hplaces : (places document).mapM Place.text <;>
          rw [hrest, hplaces] at ih <;> cases ih <;> rfl

theorem ofDocument_isOk_iff :
    (∃ batch, ofDocument document = .ok batch) ↔ ∀ p ∈ places document, ∃ s, p.Holds s := by
  have hmap := map_ofDocument document
  simp only [← Place.text_eq_ok_iff, ← exists_mapM_eq_ok_iff]
  constructor
  · rintro ⟨batch, h⟩
    rw [h] at hmap
    obtain ⟨texts, htexts, -⟩ := map_eq_ok_iff.1 hmap.symm
    exact ⟨texts, htexts⟩
  · rintro ⟨texts, h⟩
    rw [h] at hmap
    obtain ⟨batch, hbatch, -⟩ := map_eq_ok_iff.1 hmap
    exact ⟨batch, hbatch⟩

/-- What is reported of a document is the fault of the first place that has one. -/
theorem ofDocument_eq_error_iff :
    ofDocument document = .error fault ↔ ∃ before p after, places document = before ++ p :: after ∧
      (∀ q ∈ before, ∃ s, q.Holds s) ∧ p.Faulty fault := by
  rw [← map_eq_error_iff (f := fun _ => ()), map_ofDocument, map_eq_error_iff, mapM_eq_error_iff]
  simp only [Place.text_eq_ok_iff, Place.text_eq_error_iff]

/-! ## A text -/

theorem parse_of_document (h : Kdl.Document.parse? input.toList = some document) :
    parse input = (ofDocument document).mapError Error.document := by
  simp only [parse, h]
  cases ofDocument document <;> rfl

/-- A document is a batch if every statement and every line in it holds a text. The batch has an
entry for each root node and in it a line for each child. Otherwise the fault of the first node
at fault is reported. What is read of a text is what is read of its document. -/
theorem parse_reads_places (document : Kdl.Document) :
    ((∃ batch, ofDocument document = .ok batch) ↔ ∀ p ∈ places document, ∃ s, p.Holds s) ∧
      (∀ batch, ofDocument document = .ok batch ↔ List.Forall₂ IsEntry document batch) ∧
      (∀ fault, ofDocument document = .error fault ↔
        ∃ before p after, places document = before ++ p :: after ∧
          (∀ q ∈ before, ∃ s, q.Holds s) ∧ p.Faulty fault) ∧
      ∀ input, Kdl.Document.parse? input.toList = some document →
        parse input = (ofDocument document).mapError Error.document :=
  ⟨ofDocument_isOk_iff, fun _ => ofDocument_eq_ok_iff, fun _ => ofDocument_eq_error_iff,
    fun _ => parse_of_document⟩

/-- Of two equal lines the first has a child, which does not matter; the third has a property, and
the node behind the statement has a wrong name and is not come to. -/
theorem parse_reads_places_property :
    let input := "statement \"a\" \x7b\n  line \"x\" \x7b note 1; \x7d\n  line \"x\"\n" ++
      "  line \"y\" k=1\n\x7d\ntable \"t\"\n"
    ∃ document, Kdl.Document.parse? input.toList = some document ∧
      parse input = .error (.document (.property "line" "k")) ∧
      (∃ before p after, places document = before ++ p :: after ∧
        (∀ q ∈ before, ∃ s, q.Holds s) ∧ p.Faulty (.property "line" "k")) ∧
      ¬ ∀ p ∈ places document, ∃ s, p.Holds s := by
  intro input
  have hrun : (match Kdl.Document.parse? input.toList with
      | some document => (match ofDocument document with
        | .error fault => decide (fault = .property "line" "k")
        | .ok _ => false)
      | none => false) = true := by decide +kernel
  split at hrun
  case h_2 => cases hrun
  rename_i document h
  split at hrun
  case h_2 => cases hrun
  rename_i fault hfault
  rw [of_decide_eq_true hrun] at hfault
  obtain ⟨hok, -, herror, htext⟩ := parse_reads_places document
  refine ⟨document, h, ?_, (herror _).1 hfault, ?_⟩
  · rw [htext input h, hfault]
    rfl
  · rw [← hok]
    rintro ⟨batch, hbatch⟩
    cases hfault.symm.trans hbatch

end Batch

end DdlOrder
