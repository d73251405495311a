import DdlOrder.Proofs.Line.Literals

/-!
# Quoted literals with an alias

The line of a text in quotes with the note `(alias a)` is read into the text and the alias unless a
value ends early: in front of spaces and an opening parenthesis inside the quotes, where all that
follows is taken for the note (`SplitsEarly`). A value ends there if it is the first word, or if the
first word ends in a comma and a bracket closes in front of the spaces.

* `IsNoted.eq_or_splitsEarly`: a value and a note of the line are the literal and its alias, or
  divide the text in the quotes;
* `valueNote?_aliased_iff`: the early division, where there is one, is preferred;
* `parse_aliasedLine_iff`: so such a line is read as meant exactly if there is none, and an alias
  stays on its line.
-/

namespace DdlOrder

namespace Line

/-- A name that can stand in a note as it is. -/
structure IsAlias (a : List Char) : Prop where
  ne_nil : a ≠ []
  notMem : ∀ c ∈ [' ', '(', ')'], c ∉ a

/-- The text in quotes. -/
def quotedText (s : List Char) : List Char := '\'' :: (s ++ ['\''])

/-- The note that gives an alias. -/
def aliasNote (a : List Char) : List Char := '(' :: ("alias ".toList ++ a) ++ [')']

/-- The fields of a quoted literal with an alias. -/
def aliasedText (s a : List Char) : List Char := quotedText s ++ ' ' :: aliasNote a

/-- The line of a quoted literal with an alias. -/
def aliasedLine (indent : Nat) (s a : List Char) : String :=
  fieldsLine indent "Literal".toList (' ' :: aliasedText s a)

/-- The node of a quoted literal with an alias. -/
def aliasedNode (indent : Nat) (s a : List Char) : Node where
  kind := .other "Literal"
  value := some (String.ofList (quotedText s))
  aliasName := some (String.ofList a)
  note := some (String.ofList (aliasNote a))
  indent := indent
  raw := aliasedLine indent s a

/-- A beginning of the text in quotes is a value, and spaces and an opening parenthesis follow. -/
def SplitsEarly (s : List Char) : Prop :=
  ∃ v k r, s = v ++ (spaces (k + 1) ++ '(' :: r) ∧ IsScalar ('\'' :: v)

variable {s a v b rest : List Char} {k : Nat}

/-! ## The alias and its note -/

theorem isNote_aliasNote_iff : isNote (aliasNote a) = true ↔ '\n' ∉ a := by
  rw [isNote_iff]
  constructor
  · rintro ⟨x, -, hline, heq⟩
    obtain rfl := (List.cons.inj (List.append_cancel_right heq)).2
    exact fun hmem => hline (List.mem_append_right _ hmem)
  · intro hline
    exact ⟨"alias ".toList ++ a, by simp, by simp [hline], rfl⟩

theorem aliasIn?_aliasNote (ha : IsAlias a) : aliasIn? (aliasNote a) = some a := by
  have hname : ∀ c ∈ a, (c != ')') = true := fun c hc =>
    bne_iff_ne.2 fun e => ha.notMem ')' (by simp) (e ▸ hc)
  have hnamed : afterOpening? "(alias ".toList (aliasNote a) = some (a ++ [')']) :=
    afterOpening?_eq_some_iff.2 (by simp [aliasNote])
  have hhere : aliasHere? (aliasNote a) = some a := by
    rw [aliasHere?, hnamed, Option.bind_eq_bind, Option.bind_some,
      List.takeWhile_append_of_pos hname, List.dropWhile_append_of_pos hname]
    simp [ha.ne_nil]
  rw [aliasNote, List.cons_append, aliasIn?, ← List.cons_append, ← aliasNote, hhere, Option.some_or]

/-- A parenthesis opens only where the note begins. -/
theorem notMem_open_aliasNote (ha : IsAlias a) : '(' ∉ "alias ".toList ++ a ++ [')'] := by
  have hopen : '(' ∉ a := ha.notMem '(' (by simp)
  simp [hopen]

/-! ## How the fields divide -/

/-- Of two texts that go on alike, one with spaces and a parenthesis and the other at a character
that is neither, the second passes over the parenthesis before. -/
theorem exists_of_spaces_append_eq {x t : List Char} {c : Char} (hb : b.head? = some '(')
    (hspace : c ≠ ' ') (hopen : c ≠ '(') (h : spaces k ++ b = x ++ c :: t) :
    ∃ r, x = spaces k ++ '(' :: r := by
  rcases List.append_eq_append_iff.1 h with ⟨y, rfl, rfl⟩ | ⟨y, hy, hrest⟩
  · cases y with
    | nil => exact absurd (Option.some.inj hb) hopen
    | cons d r =>
      obtain rfl := Option.some.inj hb
      exact ⟨r, rfl⟩
  · cases y with
    | nil =>
      rw [List.nil_append] at hrest
      rw [← hrest] at hb
      exact absurd (Option.some.inj hb) hopen
    | cons d y =>
      obtain rfl := (List.cons.inj hrest).1
      have hmem : c ∈ spaces k := hy ▸ List.mem_append_right _ List.mem_cons_self
      exact absurd (List.eq_of_mem_replicate hmem) hspace

theorem eq_of_spaces_append_eq {t : List Char} (ht : t.head? ≠ some ' ')
    (h : t = spaces k ++ b) : t = b := by
  cases k with
  | zero => exact h
  | succ k =>
    subst h
    exact absurd rfl ht

/-- A value that takes in the text in the quotes ends with the closing quote: it cannot reach into
the note, as no parenthesis opens further behind. -/
theorem eq_of_closing_append (ha : IsAlias a) (hb : b.head? = some '(') {x : List Char}
    (h : '\'' :: ' ' :: aliasNote a = x ++ (spaces (k + 1) ++ b)) :
    x = ['\''] ∧ b = aliasNote a := by
  cases x with
  | nil => cases h
  | cons c x =>
    rw [List.cons_append, List.cons.injEq] at h
    obtain ⟨rfl, h⟩ := h
    cases x with
    | nil =>
      rw [List.nil_append, spaces_succ, List.cons_append, List.cons.injEq] at h
      exact ⟨rfl, (eq_of_spaces_append_eq (by simp [aliasNote]) h.2).symm⟩
    | cons c x =>
      rw [List.cons_append, List.cons.injEq] at h
      obtain ⟨rfl, h⟩ := h
      cases x with
      | nil => cases h
      | cons c x =>
        -- The note would have to begin behind the parenthesis of the alias.
        rw [List.cons_append, aliasNote, List.cons_append, List.cons.injEq] at h
        have hmem : '(' ∈ b := List.mem_of_mem_head? hb
        refine absurd ?_ (notMem_open_aliasNote ha)
        rw [h.2]
        simp [hmem]

/-- What divides the fields into a value and a note leaves the literal whole or divides the text in
the quotes. -/
theorem IsNoted.eq_or_splitsEarly (ha : IsAlias a) (h : IsNoted v b (aliasedText s a)) :
    (v = quotedText s ∧ b = aliasNote a) ∨ SplitsEarly s := by
  obtain ⟨hv, hb, k, heq⟩ := h
  have hopens := head?_of_isNote hb
  have hfields : aliasedText s a = ('\'' :: s) ++ '\'' :: ' ' :: aliasNote a := by
    simp [aliasedText, quotedText]
  rw [hfields] at heq
  rcases List.append_eq_append_iff.1 heq with ⟨x, rfl, hrest⟩ | ⟨x, hx, hrest⟩
  · -- The value goes on to the closing quote.
    obtain ⟨rfl, rfl⟩ := eq_of_closing_append ha hopens hrest
    exact .inl ⟨by simp [quotedText], rfl⟩
  · -- The value ends before it.
    right
    obtain ⟨r, rfl⟩ := exists_of_spaces_append_eq hopens (by decide) (by decide) hrest
    cases v with
    | nil => cases hx
    | cons c v =>
      rw [List.cons_append, List.cons.injEq] at hx
      obtain ⟨rfl, rfl⟩ := hx
      exact ⟨v, k, r, rfl, hv⟩

/-! ## Which division is found -/

theorem isNoted_aliasedText (hs : IsQuotable s) (hline : '\n' ∉ a) :
    IsNoted (quotedText s) (aliasNote a) (aliasedText s a) :=
  ⟨.quoted (w := []) (by simp) hs.notMem_lineFeed, isNote_aliasNote_iff.2 hline, 0, rfl⟩

/-- A value that is found as a word or as a list holds no space or ends in a bracket. -/
theorem consumed_of_mem (h : rest ∈ wordRest s :: listRests s) :
    ' ' ∉ consumed s rest ∨ ∃ x c, consumed s rest = x ++ [c] ∧ IsCloser c := by
  rcases List.mem_cons.1 h with rfl | h
  · left
    have hword : consumed s (wordRest s) = s.takeWhile (· != ' ') :=
      List.append_cancel_right
        ((consumed_append (wordRest_suffix s)).trans (takeWhile_append_wordRest s).symm)
    rw [hword]
    exact notMem_takeWhile s
  · right
    obtain ⟨w, t, c, rfl, -, -, hc⟩ := mem_listRests_iff.1 h
    have hsplit : w ++ ',' :: ' ' :: (t ++ c :: rest) = (w ++ ',' :: ' ' :: (t ++ [c])) ++ rest := by
      simp
    rw [hsplit, consumed_append_right]
    exact ⟨w ++ ',' :: ' ' :: t, c, by simp, hc⟩

/-- Words and lists are preferred: if a note stands behind one, the value that is found is one. -/
theorem word_or_closed_of_valueNote? (hmem : rest ∈ wordRest s :: listRests s)
    (hnote : note? rest = some b) (hfound : valueNote? s = some (v, a)) :
    ' ' ∉ v ∨ ∃ x c, v = x ++ [c] ∧ IsCloser c := by
  rw [valueNote?, valueRests, ← List.cons_append, List.findSome?_append] at hfound
  have hsome := List.findSome?_isSome_iff (f := fun rest =>
    (note? rest).map fun note => (consumed s rest, note)).2 ⟨rest, hmem, by simp [hnote]⟩
  obtain ⟨p, hp⟩ := Option.isSome_iff_exists.1 hsome
  rw [hp, Option.some_or] at hfound
  obtain ⟨r, hr, hp⟩ := List.exists_of_findSome?_eq_some hp
  obtain ⟨a', -, rfl⟩ := Option.map_eq_some_iff.1 hp
  obtain ⟨rfl, -⟩ := Prod.mk.inj (Option.some.inj hfound)
  exact consumed_of_mem hr

/-- A value with a single quote, which opens it, is a word or a list. -/
theorem mem_rests_of_isScalar (hv : IsScalar ('\'' :: v)) (hquote : '\'' ∉ v)
    (hends : EndsWord rest) :
    rest ∈ wordRest ('\'' :: v ++ rest) :: listRests ('\'' :: v ++ rest) := by
  have htwo : ∀ w t u, '\'' :: v ≠ w ++ '\'' :: (t ++ '\'' :: u) := by
    intro w t u heq
    have hcount := congrArg (List.count '\'') heq
    have hnone := List.count_eq_zero.2 hquote
    simp only [List.count_cons_self, List.count_append] at hcount
    omega
  generalize '\'' :: v = w at hv htwo
  cases hv with
  | word hw => exact List.mem_cons.2 (.inl (wordRest_append hw hends).symm)
  | list hw ht hc =>
    exact List.mem_cons_of_mem _ (mem_listRests_iff.2 ⟨_, _, _, by simp, hw, ht, hc⟩)
  | quoted hw ht => exact absurd rfl (htwo _ _ [])
  | quotedThen hw ht hc => exact absurd rfl (htwo _ _ [_])

/-- The literal and its alias are found exactly if no value ends early: an early value is a word
or a list, and both are preferred to a literal in quotes. -/
theorem valueNote?_aliased_iff (hs : IsQuotable s) (ha : IsAlias a) (hline : '\n' ∉ a) :
    valueNote? (aliasedText s a) = some (quotedText s, aliasNote a) ↔ ¬ SplitsEarly s := by
  constructor
  · rintro hfound ⟨v, k, r, rfl, hv⟩
    let note := '(' :: (r ++ '\'' :: ' ' :: '(' :: ("alias ".toList ++ a)) ++ [')']
    have htext : aliasedText (v ++ (spaces (k + 1) ++ '(' :: r)) a =
        '\'' :: v ++ (spaces (k + 1) ++ note) := by
      simp [aliasedText, quotedText, aliasNote, note]
    have hnote : isNote note = true := by
      refine isNote_iff.2 ⟨_, by simp, ?_, rfl⟩
      have hr : '\n' ∉ r := fun hmem => hs.notMem_lineFeed (by simp [hmem])
      simp [hr, hline]
    have hquote : '\'' ∉ v := fun hmem => hs.notMem_quote (by simp [hmem])
    have hmem := mem_rests_of_isScalar hv hquote (endsWord_spaces k note)
    rw [← htext] at hmem
    rcases word_or_closed_of_valueNote? hmem (note?_spaces hnote) hfound with hspace | ⟨x, c, heq, hc⟩
    · exact hspace (by simp [quotedText, spaces_succ])
    · rw [quotedText, ← List.cons_append] at heq
      rw [← (List.append_singleton_inj.1 heq).2] at hc
      rcases hc with hc | hc <;> cases hc
  · intro hsplit
    cases hfound : valueNote? (aliasedText s a) with
    | none => exact absurd (isNoted_aliasedText hs hline) (valueNote?_eq_none_iff.1 hfound _ _)
    | some p =>
      obtain ⟨v, b⟩ := p
      rcases (exists_of_valueNote? hfound).eq_or_splitsEarly ha with ⟨rfl, rfl⟩ | hearly
      · rfl
      · exact absurd hearly hsplit

/-! ## The lines -/

theorem begins_aliasedText (s a : List Char) : Begins (aliasedText s a) :=
  ⟨'\'', _, rfl, by decide, by decide⟩

theorem node_aliased (indent : Nat) (s : List Char) (ha : IsAlias a) :
    node (aliasedLine indent s a) indent "Literal".toList
        (.valuedNoted (quotedText s) (aliasNote a)) = aliasedNode indent s a := by
  rw [node, aliasedNode, Body.names, splitValue_literal, nonEmpty?_of_ne_nil (by simp [quotedText]),
    Body.note?, Option.bind_some, aliasIn?_aliasNote ha]
  rfl

/-- A line of a quoted literal with an alias is read into both exactly if the alias stays on its
line and no value ends early inside the quotes, as none does where no space stands before an opening
parenthesis. -/
theorem parse_aliasedLine_iff (indent : Nat) (hs : IsQuotable s) (ha : IsAlias a) :
    (parse (aliasedLine indent s a) = .ok (aliasedNode indent s a) ↔
        '\n' ∉ a ∧ ¬ SplitsEarly s) ∧
      ('\n' ∉ a → ¬ [' ', '('] <:+: s →
        parse (aliasedLine indent s a) = .ok (aliasedNode indent s a)) := by
  have hends : EndsWord (' ' :: aliasedText s a) := by simp [EndsWord]
  have hbody := body?_of_begins (begins_aliasedText s a)
  have hread : parse (aliasedLine indent s a) = .ok (aliasedNode indent s a) ↔
      '\n' ∉ a ∧ ¬ SplitsEarly s := by
    constructor
    · intro hparse
      obtain ⟨body, hfound, hnode⟩ := exists_body_of_parse indent isWord_literal hends hparse
      have hnote : body.note? = some (aliasNote a) :=
        Option.map_injective (fun _ _ h => String.ofList_injective h) (congrArg Node.note hnode)
      have hline : '\n' ∉ a := isNote_aliasNote_iff.1 (isNote_of_body? hfound hnote)
      refine ⟨hline, (valueNote?_aliased_iff hs ha hline).1 ?_⟩
      rw [hbody] at hfound
      cases hvalueNote : valueNote? (aliasedText s a) with
      | none =>
        exact absurd (isNoted_aliasedText hs hline) (valueNote?_eq_none_iff.1 hvalueNote _ _)
      | some p =>
        rw [hvalueNote] at hfound
        cases hfound
        have hvalue : p.1 = quotedText s := eq_of_splitValue_literal (congrArg Node.value hnode)
        rw [← hvalue, ← Option.some.inj hnote]
    · rintro ⟨hline, hsplit⟩
      rw [(valueNote?_aliased_iff hs ha hline).2 hsplit] at hbody
      rw [aliasedLine, parse_fields indent isWord_literal hends hbody]
      exact congrArg Except.ok (node_aliased indent s ha)
  refine ⟨hread, fun hline hopens => hread.2 ⟨hline, ?_⟩⟩
  rintro ⟨v, k, r, rfl, -⟩
  exact hopens ⟨v ++ spaces k, r, by simp [spaces, List.replicate_succ']⟩

/-- Neither the comma nor the brackets of this text end a value early. -/
theorem parse_aliasedLine_iff_count :
    let s := "count(x), [1] z)".toList
    IsQuotable s ∧ IsAlias ['n'] ∧ ('\n' ∉ ['n'] ∧ ¬ SplitsEarly s) ∧
      parse "  Literal 'count(x), [1] z)' (alias n)" =
        .ok { kind := .other "Literal", value := some "'count(x), [1] z)'", aliasName := some "n",
              note := some "(alias n)", indent := 2,
              raw := "  Literal 'count(x), [1] z)' (alias n)" } := by
  have hs : IsQuotable "count(x), [1] z)".toList := ⟨by decide, by decide⟩
  have ha : IsAlias ['n'] := ⟨by decide, by simp⟩
  obtain ⟨hiff, hkept⟩ := parse_aliasedLine_iff 2 hs ha
  have hread := hkept (by decide) (by decide +kernel)
  have hsplit := hiff.1 hread
  have hline : aliasedLine 2 "count(x), [1] z)".toList ['n'] =
      "  Literal 'count(x), [1] z)' (alias n)" := by decide +kernel
  have hnode : aliasedNode 2 "count(x), [1] z)".toList ['n'] =
      { kind := .other "Literal", value := some "'count(x), [1] z)'", aliasName := some "n",
        note := some "(alias n)", indent := 2,
        raw := "  Literal 'count(x), [1] z)' (alias n)" } := by decide +kernel
  rw [hline, hnode] at hread
  exact ⟨hs, ha, hsplit, hread⟩

/-- In front of the second word of this text a value ends early, so not every quoted literal is
told from its alias. -/
theorem not_parse_aliasedLine_call :
    ¬ ∀ indent s a, IsQuotable s → IsAlias a →
      parse (aliasedLine indent s a) = .ok (aliasedNode indent s a) := by
  intro h
  have hkept := h 0 "x (y".toList ['a'] ⟨by decide, by decide⟩ ⟨by decide, by simp⟩
  have hcut : (parse (aliasedLine 0 "x (y".toList ['a'])).map (·.value) = .ok (some "'x") := by
    decide +kernel
  rw [hkept] at hcut
  revert hcut
  decide +kernel

end Line

end DdlOrder
