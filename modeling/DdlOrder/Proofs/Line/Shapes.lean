import DdlOrder.Proofs.Line.Fields

/-!
# Lines of the documented shapes

A dump line is a tag at an indent, and behind it nothing, a note, a value, a value and a note, or
two values and a note, with one or more spaces before each field (`Shaped`). A value here is a word
that does not look like the begin of a note; of two values the first also holds no quote and does
not end in a comma, with which a longer value might begin. Such a line is always read, and into
exactly these fields (`parse_shaped`): the values keep every character, and only a single dot in a
value on its own, outside of a literal, divides it (`Divides`).
-/

namespace DdlOrder

namespace Line

/-- A word that does not look like the begin of a note. -/
structure IsPlain (w : List Char) : Prop where
  isWord : IsWord w
  head?_ne_open : w.head? ≠ some '('

/-- A text in parentheses that is not empty and stays on its line. -/
inductive IsNoteText : List Char → Prop where
  | parens {x : List Char} (hne : x ≠ []) (hline : '\n' ∉ x) : IsNoteText ('(' :: x ++ [')'])

/-- The texts of the fields behind a tag in the documented shapes. -/
inductive Shaped : Body → List Char → Prop where
  | bare : Shaped .bare []
  | noted {a : List Char} (k : Nat) (ha : IsNoteText a) : Shaped (.noted a) (spaces (k + 1) ++ a)
  | valued {v : List Char} (k : Nat) (hv : IsPlain v) : Shaped (.valued v) (spaces (k + 1) ++ v)
  | valuedNoted {v a : List Char} (k l : Nat) (hv : IsPlain v) (ha : IsNoteText a) :
      Shaped (.valuedNoted v a) (spaces (k + 1) ++ (v ++ (spaces (l + 1) ++ a)))
  | pairNoted {v w a : List Char} (k l m : Nat) (hv : IsPlain v) (hquote : '\'' ∉ v)
      (hcomma : v.getLast? ≠ some ',') (hw : IsPlain w) (ha : IsNoteText a) :
      Shaped (.pairNoted v w a)
        (spaces (k + 1) ++ (v ++ (spaces (l + 1) ++ (w ++ (spaces (m + 1) ++ a)))))

/-- How a value on its own divides into a qualifier and a value: at its dot, if it has exactly
one and belongs to no literal, and not at all otherwise. A part without characters is absent. -/
inductive Divides (tag v : List Char) : Option String → Option String → Prop where
  | atDot {p q : List Char} (htag : tag ≠ "Literal".toList) (hv : v = p ++ '.' :: q)
      (hp : '.' ∉ p) (hq : '.' ∉ q) : Divides tag v (nonEmpty? p) (nonEmpty? q)
  | whole (h : tag = "Literal".toList ∨ v.count '.' ≠ 1) :
      Divides tag v none (some (String.ofList v))

/-- The qualifier and the value that fields name. -/
def Body.Names (tag : List Char) (qualifier value : Option String) : Body → Prop
  | .bare | .noted _ => qualifier = none ∧ value = none
  | .valued v | .valuedNoted v _ => Divides tag v qualifier value
  | .pairNoted v w _ => qualifier = some (String.ofList v) ∧ value = some (String.ofList w)

variable {tag fields v a : List Char} {body : Body}

theorem IsNoteText.isNote (h : IsNoteText a) : isNote a = true := by
  obtain ⟨hne, hline⟩ := h
  exact isNote_iff.2 ⟨_, hne, hline, rfl⟩

/-- A dot that stands alone has what precedes and what follows it on its two sides. -/
theorem exists_of_count_dot (h : v.count '.' = 1) :
    ∃ p q, v = p ++ '.' :: q ∧ '.' ∉ p ∧ '.' ∉ q := by
  have hmem : '.' ∈ v := List.count_pos_iff.1 (by omega)
  obtain ⟨p, q, rfl, hp⟩ := List.eq_append_cons_of_mem hmem
  refine ⟨p, q, rfl, hp, ?_⟩
  rw [List.count_append, List.count_eq_zero.2 hp, List.count_cons_self] at h
  exact List.count_eq_zero.1 (by omega)

theorem divides_splitValue (tag : List Char) (hv : v ≠ []) :
    Divides tag v (splitValue tag v).1 (splitValue tag v).2 := by
  by_cases h : tag ≠ "Literal".toList ∧ v.count '.' = 1
  · obtain ⟨htag, hcount⟩ := h
    obtain ⟨p, q, rfl, hp, hq⟩ := exists_of_count_dot hcount
    rw [splitValue_dot htag hp hq]
    exact .atDot htag rfl hp hq
  · rw [splitValue, if_neg h, nonEmpty?_of_ne_nil hv]
    exact .whole (Decidable.or_iff_not_imp_left.2 fun htag hcount => h ⟨htag, hcount⟩)

namespace Shaped

theorem endsWord (h : Shaped body fields) : EndsWord fields := by
  cases h with
  | bare => exact endsWord_nil
  | noted k ha => exact endsWord_spaces k _
  | valued k hv => exact endsWord_spaces k _
  | valuedNoted k l hv ha => exact endsWord_spaces k _
  | pairNoted k l m hv hquote hcomma hw ha => exact endsWord_spaces k _

/-- Each shape is recognized, although the shapes overlap and are tried in a fixed order. -/
theorem body?_eq (h : Shaped body fields) : body? fields = some body := by
  cases h with
  | bare => rfl
  | noted k ha =>
    rw [body?_spaces (by simp [head?_of_isNote ha.isNote]), if_pos ha.isNote]
  | valued k hv => exact body?_valued hv.isWord hv.head?_ne_open
  | valuedNoted k l hv ha => exact body?_valuedNoted hv.isWord hv.head?_ne_open ha.isNote
  | pairNoted k l m hv hquote hcomma hw ha =>
    exact body?_pairNoted hv.isWord hv.head?_ne_open hquote hcomma hw.isWord hw.head?_ne_open
      ha.isNote

theorem names (h : Shaped body fields) (tag : List Char) :
    body.Names tag (body.names tag).1 (body.names tag).2 := by
  cases h with
  | bare => exact ⟨rfl, rfl⟩
  | noted k ha => exact ⟨rfl, rfl⟩
  | valued k hv => exact divides_splitValue tag hv.isWord.ne_nil
  | valuedNoted k l hv ha => exact divides_splitValue tag hv.isWord.ne_nil
  | pairNoted k l m hv hquote hcomma hw ha =>
    exact ⟨nonEmpty?_of_ne_nil hv.isWord.ne_nil, nonEmpty?_of_ne_nil hw.isWord.ne_nil⟩

end Shaped

/-- A line of a documented shape is read into the node of its fields: the node keeps the line, its
indent, its tag and its note, takes the alias from the note, and names what the values say. -/
theorem parse_shaped (indent : Nat) (htag : IsWord tag) (hfields : Shaped body fields) :
    ∃ n, parse (fieldsLine indent tag fields) = .ok n ∧
      n.raw = fieldsLine indent tag fields ∧ n.indent = indent ∧
      n.kind.tag = String.ofList tag ∧
      n.note = body.note?.map String.ofList ∧ n.aliasName = n.note.bind aliasOfNote? ∧
      body.Names tag n.qualifier n.value := by
  refine ⟨_, parse_fields indent htag hfields.endsWord hfields.body?_eq, rfl, rfl,
    Kind.tag_ofTag _, rfl, ?_, hfields.names tag⟩
  cases hnote : body.note? with
  | none => simp [node, hnote]
  | some a => simp [node, hnote, aliasOfNote?]

/-- A table that an ALTER statement names with its database, at an indent of one. -/
theorem parse_shaped_alterQuery :
    let fields := spaces 1 ++ ("db".toList ++ (spaces 2 ++ ("t.x,".toList ++
      (spaces 1 ++ "(children 1) (alias y)".toList))))
    IsWord "AlterQuery".toList ∧
      Shaped (.pairNoted "db".toList "t.x,".toList "(children 1) (alias y)".toList) fields ∧
      ∃ n, parse (fieldsLine 1 "AlterQuery".toList fields) = .ok n ∧
        n.qualifier = some "db" ∧ n.value = some "t.x," ∧ n.aliasName = some "y" := by
  have htag : IsWord "AlterQuery".toList := ⟨by decide, by decide⟩
  have hnote : IsNoteText "(children 1) (alias y)".toList :=
    .parens (x := "children 1) (alias y".toList) (by decide) (by decide)
  have hfields := Shaped.pairNoted 0 1 0 (v := "db".toList) (w := "t.x,".toList)
    ⟨⟨by decide, by decide⟩, by decide⟩ (by decide) (by decide)
    ⟨⟨by decide, by decide⟩, by decide⟩ hnote
  obtain ⟨n, hparse, -, -, -, hn, halias, hqualifier, hvalue⟩ := parse_shaped 1 htag hfields
  refine ⟨htag, hfields, n, hparse, hqualifier, hvalue, ?_⟩
  rw [halias, hn]
  decide

end Line

end DdlOrder
