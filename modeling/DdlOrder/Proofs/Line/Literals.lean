import DdlOrder.Proofs.Line.Scalar
import Mathlib.Data.List.Chain

/-!
# Structured literals

A literal is a token, a text in quotes, or an array or tuple of literals (`Literal`). The line of a
literal keeps it whole exactly if no part of it reads as a value with a note behind it and, where it
holds a space, all of it is one scalar value (`Literal.parse_line_iff`). For that the first word has
to end in a comma or one of the last two characters has to be a quote (`Closes`), so a tuple whose
first element is a text with spaces and whose last element is a token is refused
(`Literal.not_parse_line_tuple`). Literals whose texts hold no spaces are always kept.

* `Literal.isScalar_iff`: which literals are scalar values;
* `Literal.spaced`: where no text holds a space, spaces follow commas and precede no parenthesis,
  so no note begins inside the literal (`Spaced.not_opens`).
-/

namespace DdlOrder

namespace Line

/-! ## Literals and their texts -/

/-- A token of a literal: a text that holds none of the characters that divide literals. -/
structure IsToken (t : List Char) : Prop where
  ne_nil : t ≠ []
  notMem : ∀ c ∈ [' ', '\'', ',', '[', ']', '(', ')'], c ∉ t

/-- A text that can stand in quotes as it is. -/
structure IsQuotable (s : List Char) : Prop where
  notMem_lineFeed : '\n' ∉ s
  notMem_quote : '\'' ∉ s

/-- The two kinds of lists. -/
inductive ListKind where
  | array
  | tuple

/-- What a list of a kind begins with. -/
def ListKind.opening : ListKind → List Char
  | .array => "Array_[".toList
  | .tuple => "Tuple_(".toList

/-- What a list of a kind ends with. -/
def ListKind.closing : ListKind → Char
  | .array => ']'
  | .tuple => ')'

mutual

/-- A literal of a statement, as its dump writes it. -/
inductive Literal where
  | token (t : List Char) (ht : IsToken t)
  | quoted (s : List Char) (hs : IsQuotable s)
  | list (kind : ListKind) (elements : Elements)

/-- The elements of a list, at least one. -/
inductive Elements where
  | one (l : Literal)
  | more (l : Literal) (rest : Elements)

end

mutual

/-- The text of a literal. -/
def Literal.text : Literal → List Char
  | .token t _ => t
  | .quoted s _ => '\'' :: (s ++ ['\''])
  | .list kind elements => kind.opening ++ (elements.text ++ [kind.closing])

/-- The text of the elements of a list, with a comma and a space between them. -/
def Elements.text : Elements → List Char
  | .one l => l.text
  | .more l rest => l.text ++ ',' :: ' ' :: rest.text

end

mutual

/-- No text in quotes within the literal holds a space. -/
def Literal.Compact : Literal → Prop
  | .token _ _ => True
  | .quoted s _ => ' ' ∉ s
  | .list _ elements => elements.Compact

/-- No text in quotes within the elements holds a space. -/
def Elements.Compact : Elements → Prop
  | .one l => l.Compact
  | .more l rest => l.Compact ∧ rest.Compact

end

/-- The line of a literal. -/
def Literal.line (indent : Nat) (l : Literal) : String :=
  fieldsLine indent "Literal".toList (' ' :: l.text)

/-- The node that keeps a literal whole. -/
def Literal.node (indent : Nat) (l : Literal) : Node where
  kind := .other "Literal"
  value := some (String.ofList l.text)
  indent := indent
  raw := l.line indent

variable {s t v a : List Char} {l : Literal}

/-! ## How a literal begins -/

/-- The text begins with a character that is neither a space nor an opening parenthesis. -/
def Begins (s : List Char) : Prop := ∃ c r, s = c :: r ∧ c ≠ ' ' ∧ c ≠ '('

theorem Begins.append (h : Begins s) (t : List Char) : Begins (s ++ t) := by
  obtain ⟨c, r, rfl, hspace, hopen⟩ := h
  exact ⟨c, r ++ t, rfl, hspace, hopen⟩

theorem Begins.ne_of_mem_head? (h : Begins s) {c : Char} (hc : c ∈ s.head?) :
    c ≠ ' ' ∧ c ≠ '(' := by
  obtain ⟨d, r, rfl, hd⟩ := h
  cases hc
  exact hd

theorem Begins.head?_ne_space (h : Begins s) : s.head? ≠ some ' ' := fun e =>
  (h.ne_of_mem_head? e).1 rfl

theorem Begins.head?_ne_open (h : Begins s) : s.head? ≠ some '(' := fun e =>
  (h.ne_of_mem_head? e).2 rfl

theorem ListKind.begins (kind : ListKind) : Begins kind.opening := by
  cases kind <;> exact ⟨_, _, rfl, by decide, by decide⟩

mutual

theorem Literal.begins : (l : Literal) → Begins l.text
  | .token [] ht => absurd rfl ht.ne_nil
  | .token (c :: r) ht =>
    ⟨c, r, rfl, fun e => ht.notMem ' ' (by simp) (e ▸ List.mem_cons_self),
      fun e => ht.notMem '(' (by simp) (e ▸ List.mem_cons_self)⟩
  | .quoted s _ => ⟨'\'', s ++ ['\''], rfl, by decide, by decide⟩
  | .list kind _ => kind.begins.append _

theorem Elements.begins : (es : Elements) → Begins es.text
  | .one l => l.begins
  | .more l _ => l.begins.append _

end

/-! ## Where a literal is cut at its first space -/

/-- If the text holds a space, its first word ends in a comma or leaves a quote open. -/
def CutsOpen (s : List Char) : Prop :=
  ' ' ∈ s → ∃ w r, s = w ++ ' ' :: r ∧ ' ' ∉ w ∧
    ((∃ x, w = x ++ [',']) ∨ ∃ x y, w = x ++ '\'' :: y ∧ '\n' ∉ y)

theorem cutsOpen_of_notMem (h : ' ' ∉ s) : CutsOpen s := fun hmem => absurd hmem h

theorem CutsOpen.append (h : CutsOpen s) (hmem : ' ' ∈ s) (t : List Char) : CutsOpen (s ++ t) := by
  intro _
  obtain ⟨w, r, rfl, hw, hcut⟩ := h hmem
  exact ⟨w, r ++ t, by simp, hw, hcut⟩

theorem CutsOpen.prepend (h : CutsOpen s) {p : List Char} (hp : ' ' ∉ p) : CutsOpen (p ++ s) := by
  intro hmem
  obtain ⟨w, r, rfl, hw, hcut⟩ := h (by simpa [hp] using hmem)
  refine ⟨p ++ w, r, by simp, by simp [hp, hw], ?_⟩
  rcases hcut with ⟨x, rfl⟩ | ⟨x, y, rfl, hy⟩
  · exact .inl ⟨p ++ x, by simp⟩
  · exact .inr ⟨p ++ x, y, by simp, hy⟩

theorem cutsOpen_quoted (hs : IsQuotable s) : CutsOpen ('\'' :: (s ++ ['\''])) := by
  intro hmem
  have hmem : ' ' ∈ s := by simpa using hmem
  obtain ⟨y, r, rfl, hy⟩ := List.eq_append_cons_of_mem hmem
  refine ⟨'\'' :: y, r ++ ['\''], by simp, by simp [hy], .inr ⟨[], y, rfl, fun h => ?_⟩⟩
  exact hs.notMem_lineFeed (List.mem_append_left _ h)

theorem cutsOpen_list (kind : ListKind) (h : CutsOpen s) :
    CutsOpen (kind.opening ++ (s ++ [kind.closing])) := by
  have hopening : ' ' ∉ kind.opening := by cases kind <;> decide
  have hclosing : ' ' ∉ [kind.closing] := by cases kind <;> decide
  by_cases hmem : ' ' ∈ s
  · exact (h.append hmem _).prepend hopening
  · exact cutsOpen_of_notMem (by simp [hopening, hmem, hclosing])

theorem cutsOpen_more (h : CutsOpen s) (t : List Char) : CutsOpen (s ++ ',' :: ' ' :: t) := by
  by_cases hmem : ' ' ∈ s
  · exact h.append hmem _
  · exact fun _ => ⟨s ++ [','], t, by simp, by simp [hmem], .inl ⟨s, rfl⟩⟩

mutual

theorem Literal.cutsOpen : (l : Literal) → CutsOpen l.text
  | .token _ ht => cutsOpen_of_notMem (ht.notMem ' ' (by simp))
  | .quoted _ hs => cutsOpen_quoted hs
  | .list kind es => cutsOpen_list kind es.cutsOpen

theorem Elements.cutsOpen : (es : Elements) → CutsOpen es.text
  | .one l => l.cutsOpen
  | .more l rest => cutsOpen_more l.cutsOpen rest.text

end

/-! ## Literals that are scalar values -/

/-- What a text with spaces needs to be one value: it goes on behind its first word on the same
line, and its first word ends in a comma or one of its last two characters is a quote. -/
structure Closes (s : List Char) : Prop where
  onLine : '\n' ∉ wordRest s
  comma_or_quote : (s.takeWhile (· != ' ')).getLast? = some ',' ∨
    ∃ p t, s = p ++ '\'' :: t ∧ t.length ≤ 1

theorem wordRest_prepend {p : List Char} (hp : ' ' ∉ p) (s : List Char) :
    wordRest (p ++ s) = wordRest s :=
  List.dropWhile_append_of_pos fun _ hc => bne_iff_ne.2 fun e => hp (e ▸ hc)

/-- A scalar value with spaces has what such a text needs, unless it ends in a line feed. -/
theorem IsScalar.closes (h : IsScalar s) (hspace : ' ' ∈ s) (hlast : s.getLast? ≠ some '\n') :
    Closes s := by
  cases h with
  | word hw => exact absurd hspace hw
  | @list w t c hw ht hc =>
    have hline : '\n' ≠ c := by rcases hc with rfl | rfl <;> decide
    have hword : ' ' ∉ w ++ [','] := by simp [hw]
    have hends : EndsWord (' ' :: (t ++ [c])) := by simp [EndsWord]
    have hsplit : w ++ ',' :: ' ' :: (t ++ [c]) = (w ++ [',']) ++ ' ' :: (t ++ [c]) := by simp
    rw [hsplit]
    refine ⟨?_, .inl ?_⟩
    · rw [wordRest_append hword hends]
      simp [ht, hline]
    · rw [takeWhile_append_of_endsWord hword hends]
      simp
  | @quoted w t hw ht =>
    have hopened : ' ' ∉ w ++ ['\''] := by simp [hw]
    have hsplit : w ++ '\'' :: (t ++ ['\'']) = (w ++ ['\'']) ++ (t ++ ['\'']) := by simp
    refine ⟨?_, .inr ⟨w ++ '\'' :: t, [], by simp, by simp⟩⟩
    rw [hsplit, wordRest_prepend hopened]
    exact fun hmem => by simpa [ht] using (wordRest_suffix _).subset hmem
  | @quotedThen w t c hw ht hc =>
    have hopened : ' ' ∉ w ++ ['\''] := by simp [hw]
    have hsplit : w ++ '\'' :: (t ++ ['\'', c]) = (w ++ ['\'']) ++ (t ++ ['\'', c]) := by simp
    have hline : '\n' ≠ c := by
      rintro rfl
      exact hlast (List.getLast?_eq_some_iff.2 ⟨w ++ '\'' :: (t ++ ['\'']), by simp⟩)
    refine ⟨?_, .inr ⟨w ++ '\'' :: t, [c], by simp, by simp⟩⟩
    rw [hsplit, wordRest_prepend hopened]
    exact fun hmem => by simpa [ht, hline] using (wordRest_suffix _).subset hmem

theorem exists_concat_of_append_cons {b p : List Char} {c d : Char}
    (h : a ++ d :: b = p ++ [c]) (hd : d ≠ c) : ∃ m, b = m ++ [c] := by
  have hlast := congrArg List.getLast? h
  rw [List.getLast?_append_of_ne_nil _ (List.cons_ne_nil d b), List.getLast?_concat] at hlast
  obtain ⟨m, hm⟩ := List.getLast?_eq_some_iff.1 hlast
  rcases List.cons_eq_append_iff.1 hm with ⟨-, hsingle⟩ | ⟨m', -, hb⟩
  · exact absurd (List.cons.inj hsingle).1.symm hd
  · exact ⟨m', hb⟩

theorem eq_concat_of_append_cons {p u : List Char} {c d : Char} (h : s ++ [c] = p ++ d :: u)
    (hlen : u.length ≤ 1) (hc : c ≠ d) : s = p ++ [d] := by
  cases u with
  | nil => exact absurd (List.append_singleton_inj.1 h).2 hc
  | cons e u =>
    obtain rfl : u = [] := List.eq_nil_of_length_eq_zero (by simpa using hlen)
    have hconcat : s ++ [c] = (p ++ [d]) ++ [e] := by simpa using h
    exact (List.append_singleton_inj.1 hconcat).1

/-- A text that is closed by a bracket is one value if its first word ends in a comma or leaves
open a quote that closes right before the bracket. -/
theorem Closes.isScalar {c : Char} (h : Closes (s ++ [c])) (hc : IsCloser c)
    (hcut : CutsOpen (s ++ [c])) (hspace : ' ' ∈ s ++ [c]) : IsScalar (s ++ [c]) := by
  have hnotSpace : c ≠ ' ' := by rcases hc with rfl | rfl <;> decide
  have hnotQuote : c ≠ '\'' := by rcases hc with rfl | rfl <;> decide
  obtain ⟨w, r, heq, hw, hcut⟩ := hcut hspace
  have hends : EndsWord (' ' :: r) := by simp [EndsWord]
  obtain ⟨honLine, hclose⟩ := h
  rw [heq, wordRest_append hw hends] at honLine
  rw [heq, takeWhile_append_of_endsWord hw hends] at hclose
  obtain ⟨t, rfl⟩ := exists_concat_of_append_cons heq.symm (Ne.symm hnotSpace)
  have ht : '\n' ∉ t := fun hmem => honLine (by simp [hmem])
  have hcomma : ∀ x, w = x ++ [','] → IsScalar (s ++ [c]) := by
    rintro x rfl
    rw [heq, List.append_assoc]
    exact .list (fun hmem => hw (List.mem_append_left _ hmem)) ht hc
  rcases hclose with hclose | ⟨p, u, hquote, hlen⟩
  · obtain ⟨x, hx⟩ := List.getLast?_eq_some_iff.1 hclose
    exact hcomma x hx
  rcases hcut with ⟨x, hx⟩ | ⟨x, y, rfl, hy⟩
  · exact hcomma x hx
  -- The first word leaves a quote open, and a quote behind it stands right before the bracket.
  have hend : ((x ++ '\'' :: y) ++ ' ' :: t) ++ [c] = p ++ '\'' :: u := by simpa using hquote
  obtain ⟨m, rfl⟩ := exists_concat_of_append_cons (eq_concat_of_append_cons hend hlen hnotQuote)
    (by decide)
  have hsplit : s ++ [c] = x ++ '\'' :: ((y ++ ' ' :: m) ++ ['\'', c]) := by rw [heq]; simp
  rw [hsplit]
  refine .quotedThen (fun hmem => hw (List.mem_append_left _ hmem)) ?_ hnotSpace
  have hm : '\n' ∉ m := fun hmem => ht (List.mem_append_left _ hmem)
  simp [hy, hm]

theorem ListKind.isCloser_closing (kind : ListKind) : IsCloser kind.closing := by
  cases kind
  · exact .inr rfl
  · exact .inl rfl

/-- A literal with spaces is a scalar value exactly if its first word and its end close it. -/
theorem Literal.isScalar_iff (l : Literal) : IsScalar l.text ↔ (' ' ∈ l.text → Closes l.text) := by
  cases l with
  | token t ht =>
    have hspace : ' ' ∉ t := ht.notMem ' ' (by simp)
    exact iff_of_true (.word hspace) fun hmem => absurd hmem hspace
  | quoted s hs =>
    have hscalar : IsScalar ('\'' :: (s ++ ['\''])) := .quoted (w := []) (by simp) hs.notMem_lineFeed
    refine iff_of_true hscalar fun hspace => hscalar.closes hspace ?_
    rw [← List.cons_append, List.getLast?_concat]
    decide
  | list kind es =>
    have hclosing := kind.isCloser_closing
    have hcut := (Literal.list kind es).cutsOpen
    simp only [Literal.text, ← List.append_assoc] at hcut ⊢
    constructor
    · intro hscalar hspace
      refine hscalar.closes hspace ?_
      rw [List.getLast?_concat]
      cases kind <;> decide
    · intro hcloses
      by_cases hspace : ' ' ∈ kind.opening ++ es.text ++ [kind.closing]
      · exact (hcloses hspace).isScalar hclosing hcut hspace
      · exact .word hspace

/-! ## Spaces that follow commas -/

/-- What may stand behind a character: a space only behind a comma, and behind a space anything
but an opening parenthesis. -/
def Follows (c d : Char) : Prop := (d = ' ' → c = ',') ∧ (c = ' ' → d ≠ '(')

/-- Each space of the text, which does not begin with one, follows a comma and precedes no opening
parenthesis. -/
def Spaced (s : List Char) : Prop := s.IsChain Follows

theorem follows_of_ne {c d : Char} (hc : c ≠ ' ') (hd : d ≠ ' ') : Follows c d :=
  ⟨fun h => absurd h hd, fun h => absurd h hc⟩

theorem spaced_of_notMem (h : ' ' ∉ s) : Spaced s := by
  refine List.isChain_iff_forall_rel_of_append_cons_cons.2 ?_
  rintro c d l r rfl
  exact follows_of_ne (fun e => h (by simp [e])) fun e => h (by simp [e])

theorem spaced_list (kind : ListKind) (h : Spaced s) (hs : Begins s) :
    Spaced (kind.opening ++ (s ++ [kind.closing])) := by
  have hopening : ∀ c ∈ kind.opening.getLast?, c ≠ ' ' := by
    cases kind <;> rintro _ ⟨⟩ <;> decide
  have hclosing : kind.closing ≠ ' ' ∧ kind.closing ≠ '(' := by cases kind <;> decide
  have hspaced : Spaced (s ++ [kind.closing]) := by
    refine List.IsChain.append h (List.isChain_singleton _) fun c _ d hd => ?_
    obtain rfl : kind.closing = d := by simpa using hd
    exact ⟨fun e => absurd e hclosing.1, fun _ => hclosing.2⟩
  refine List.IsChain.append ?_ hspaced fun c hc d hd => ?_
  · exact spaced_of_notMem (by cases kind <;> decide)
  · exact follows_of_ne (hopening c hc) ((hs.append _).ne_of_mem_head? hd).1

theorem spaced_more (hs : Spaced s) (ht : Spaced t) (hbegins : Begins t) :
    Spaced (s ++ ',' :: ' ' :: t) := by
  have hspace : Spaced (' ' :: t) := List.isChain_cons.2 ⟨fun d hd =>
    ⟨fun e => absurd e (hbegins.ne_of_mem_head? hd).1, fun _ => (hbegins.ne_of_mem_head? hd).2⟩, ht⟩
  have hcomma : Spaced (',' :: ' ' :: t) :=
    List.isChain_cons_cons.2 ⟨⟨fun _ => rfl, by decide⟩, hspace⟩
  refine List.IsChain.append hs hcomma fun c _ d hd => ?_
  obtain rfl : ',' = d := by simpa using hd
  exact ⟨fun e => absurd e (by decide), fun _ => by decide⟩

mutual

theorem Literal.spaced : (l : Literal) → l.Compact → Spaced l.text
  | .token _ ht, _ => spaced_of_notMem (ht.notMem ' ' (by simp))
  | .quoted s _, h => spaced_of_notMem (by simpa [Literal.text, Literal.Compact] using h)
  | .list kind es, h => spaced_list kind (es.spaced h) es.begins

theorem Elements.spaced : (es : Elements) → es.Compact → Spaced es.text
  | .one l, h => l.spaced h
  | .more l rest, h => spaced_more (l.spaced h.1) (rest.spaced h.2) rest.begins

end

theorem Spaced.not_opens (h : Spaced s) : ¬ [' ', '('] <:+: s := by
  intro hopens
  have hspaced : Spaced [' ', '('] := List.IsChain.infix h hopens
  exact (List.isChain_cons_cons.1 hspaced).1.2 rfl rfl

/-- A text whose spaces follow commas is closed by its first word. -/
theorem Spaced.closes (h : Spaced s) (hbegins : Begins s) (hline : '\n' ∉ s) (hspace : ' ' ∈ s) :
    Closes s := by
  obtain ⟨w, r, rfl, hw⟩ := List.eq_append_cons_of_mem hspace
  have hends : EndsWord (' ' :: r) := by simp [EndsWord]
  refine ⟨fun hmem => hline ((wordRest_suffix _).subset hmem), .inl ?_⟩
  rw [takeWhile_append_of_endsWord hw hends]
  cases hlast : w.getLast? with
  | none =>
    rw [List.getLast?_eq_none_iff.1 hlast] at hbegins
    exact absurd rfl hbegins.head?_ne_space
  | some c => rw [((List.isChain_append.1 h).2.2 c hlast ' ' rfl).1 rfl]

/-! ## The lines of literals -/

theorem isWord_literal : IsWord "Literal".toList := ⟨by decide, by decide⟩

theorem splitValue_literal (s : List Char) : splitValue "Literal".toList s = (none, nonEmpty? s) :=
  if_neg fun h => h.1 rfl

theorem eq_of_splitValue_literal
    (h : (splitValue "Literal".toList t).2 = some (String.ofList s)) : t = s := by
  rw [splitValue_literal, nonEmpty?] at h
  split at h
  · cases h
  · exact String.ofList_injective (Option.some.inj h)

theorem body?_of_begins (h : Begins s) :
    body? (' ' :: s) =
      match valueNote? s with
      | some (value, a) => some (.valuedNoted value a)
      | none =>
        if isValue s then some (.valued s)
        else (pairNote? s).map fun p => .pairNoted p.1 p.2.1 p.2.2 := by
  have hbody := body?_spaces (k := 0) h.head?_ne_space
  rw [isNote_eq_false h.head?_ne_open] at hbody
  exact hbody

theorem body?_eq_valued_iff (h : Begins s) :
    body? (' ' :: s) = some (.valued s) ↔ valueNote? s = none ∧ isValue s = true := by
  rw [body?_of_begins h]
  cases valueNote? s with
  | some p => simp
  | none =>
    cases hvalue : isValue s with
    | true => simp
    | false => cases pairNote? s <;> simp

theorem Literal.node_valued (indent : Nat) (l : Literal) :
    Line.node (l.line indent) indent "Literal".toList (.valued l.text) = l.node indent := by
  obtain ⟨c, r, htext, -⟩ := l.begins
  rw [Line.node, Literal.node, Body.names, splitValue_literal, nonEmpty?_of_ne_nil (by simp [htext])]
  rfl

/-- A line of a literal keeps it whole exactly if its fields are one value. -/
theorem Literal.parse_line_iff_body? (indent : Nat) (l : Literal) :
    parse (l.line indent) = .ok (l.node indent) ↔ body? (' ' :: l.text) = some (.valued l.text) := by
  have hends : EndsWord (' ' :: l.text) := by simp [EndsWord]
  constructor
  · intro hparse
    obtain ⟨body, hbody, hnode⟩ := exists_body_of_parse indent isWord_literal hends hparse
    rw [hbody]
    have hnote := congrArg Node.note hnode
    have hvalue := congrArg Node.value hnode
    cases body with
    | bare => cases hvalue
    | noted a => cases hnote
    | valuedNoted v a => cases hnote
    | pairNoted v w a => cases hnote
    | valued v => rw [eq_of_splitValue_literal hvalue]
  · intro hbody
    rw [Literal.line, parse_fields indent isWord_literal hends hbody]
    exact congrArg Except.ok (l.node_valued indent)

/-- The line of a literal keeps the literal whole exactly if nothing in it reads as a value with a
note behind it and, if it holds a space, its first word and its end close it. A literal without a
space before an opening parenthesis is kept whole or refused, never divided, and one without spaces
in its texts and without line feeds is kept whole. -/
theorem Literal.parse_line_iff (indent : Nat) (l : Literal) :
    (parse (l.line indent) = .ok (l.node indent) ↔
        (∀ v a, ¬ IsNoted v a l.text) ∧ (' ' ∈ l.text → Closes l.text)) ∧
      (¬ [' ', '('] <:+: l.text →
        parse (l.line indent) = .ok (l.node indent) ∨
          parse (l.line indent) = .error (.unrecognizedLine (l.line indent))) ∧
      (l.Compact → '\n' ∉ l.text → parse (l.line indent) = .ok (l.node indent)) := by
  have hwhole : parse (l.line indent) = .ok (l.node indent) ↔
      (∀ v a, ¬ IsNoted v a l.text) ∧ (' ' ∈ l.text → Closes l.text) := by
    rw [l.parse_line_iff_body?, body?_eq_valued_iff l.begins, valueNote?_eq_none_iff, isValue_iff,
      l.isScalar_iff]
  refine ⟨hwhole, fun hopens => ?_, fun hcompact hline => ?_⟩
  · have hvalueNote : valueNote? l.text = none :=
      valueNote?_eq_none_iff.2 fun v a hnoted => hopens hnoted.opens
    cases hvalue : isValue l.text with
    | true =>
      exact .inl ((l.parse_line_iff_body? indent).2
        ((body?_eq_valued_iff l.begins).2 ⟨hvalueNote, hvalue⟩))
    | false =>
      have hpairNote : pairNote? l.text = none :=
        Option.eq_none_iff_forall_ne_some.2 fun p hp => hopens (opens_of_pairNote? hp)
      refine .inr (parse_fields_of_none indent isWord_literal (by simp [EndsWord]) ?_)
      rw [body?_of_begins l.begins, hvalueNote, hvalue, hpairNote]
      rfl
  · have hspaced := l.spaced hcompact
    exact hwhole.2 ⟨fun v a hnoted => hspaced.not_opens hnoted.opens,
      fun hspace => hspaced.closes l.begins hline hspace⟩

/-- A tuple whose text with a space stands before a token is refused, so not every literal is
kept. -/
theorem Literal.not_parse_line_tuple :
    ¬ ∀ indent (l : Literal), parse (l.line indent) = .ok (l.node indent) := by
  intro h
  have hkept := h 0 (.list .tuple (.more (.quoted "a b".toList ⟨by decide, by decide⟩)
    (.one (.token "UInt64_1".toList ⟨by decide, by simp⟩))))
  have hrefused : parse "Literal Tuple_('a b', UInt64_1)" =
      .error (.unrecognizedLine "Literal Tuple_('a b', UInt64_1)") := by decide +kernel
  cases hrefused.symm.trans hkept

end Line

end DdlOrder
