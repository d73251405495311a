import DdlOrder.Line

/-!
# Lines of words and notes

How a dump line is read whose values are words, that is, free of spaces. A word is
preferred to any longer value, so it is a value of its own wherever what follows it can
be read:

* `Line.body?_valued`, `Line.body?_valuedNoted`, `Line.body?_pairNoted`: the fields of
  lines with one word, a word and a note, and two words and a note;
* `Line.parse?_fields`: the line of a tag and fields is read into the node of both.
-/

namespace DdlOrder

namespace Line

/-- A run of spaces. -/
def spaces (k : Nat) : List Char := List.replicate k ' '

/-- A text without spaces that is not empty. -/
structure IsWord (w : List Char) : Prop where
  ne_nil : w ≠ []
  notMem : ' ' ∉ w

/-- A text that is empty or begins with a space. -/
def EndsWord (s : List Char) : Prop := ∀ c ∈ s.head?, c = ' '

variable {v w s rest a : List Char} {k l : Nat}

theorem spaces_succ (k : Nat) : spaces (k + 1) = ' ' :: spaces k := rfl

theorem endsWord_nil : EndsWord [] := by simp [EndsWord]

theorem endsWord_spaces (k : Nat) (s : List Char) : EndsWord (spaces (k + 1) ++ s) := by
  simp [EndsWord, spaces_succ]

theorem takeWhile_append_of_endsWord (hw : ' ' ∉ w) (hs : EndsWord s) :
    (w ++ s).takeWhile (· != ' ') = w :=
  takeWhile_append_of_head? (fun _ hc => bne_iff_ne.2 fun e => hw (e ▸ hc))
    fun c hc => by rw [hs c hc]; rfl

theorem dropWhile_append_of_endsWord (hw : ' ' ∉ w) (hs : EndsWord s) :
    (w ++ s).dropWhile (· != ' ') = s :=
  dropWhile_append_of_head? (fun _ hc => bne_iff_ne.2 fun e => hw (e ▸ hc))
    fun c hc => by rw [hs c hc]; rfl

theorem wordRest_append (hw : ' ' ∉ w) (hs : EndsWord s) : wordRest (w ++ s) = s :=
  dropWhile_append_of_endsWord hw hs

theorem wordRest_word (hw : ' ' ∉ w) : wordRest w = [] := by
  simpa using wordRest_append hw endsWord_nil

theorem takeWhile_spaces (hs : s.head? ≠ some ' ') :
    (spaces k ++ s).takeWhile (· == ' ') = spaces k :=
  takeWhile_append_of_head? (by simp [spaces])
    fun _ hc => beq_eq_false_iff_ne.2 fun e => hs (e ▸ hc)

theorem dropWhile_spaces (hs : s.head? ≠ some ' ') : (spaces k ++ s).dropWhile (· == ' ') = s :=
  dropWhile_append_of_head? (by simp [spaces])
    fun _ hc => beq_eq_false_iff_ne.2 fun e => hs (e ▸ hc)

theorem afterSpaces?_spaces (hs : s.head? ≠ some ' ') :
    afterSpaces? (spaces (k + 1) ++ s) = some s := by
  rw [spaces_succ, List.cons_append, afterSpaces?, dropWhile_spaces hs]

theorem afterSpaces?_eq_none (hs : s.head? ≠ some ' ') : afterSpaces? s = none := by
  cases s with
  | nil => rfl
  | cons c s => simp_all [afterSpaces?]

theorem IsWord.head?_append_ne (hw : IsWord w) (s : List Char) : (w ++ s).head? ≠ some ' ' := by
  obtain ⟨hne, hnot⟩ := hw
  cases w with
  | nil => contradiction
  | cons c w =>
    rintro ⟨⟩
    exact hnot List.mem_cons_self

theorem IsWord.head?_ne (hw : IsWord w) : w.head? ≠ some ' ' := by
  simpa using hw.head?_append_ne []

theorem consumed_append_right (w s : List Char) : consumed (w ++ s) s = w := by
  simp [consumed]

/-! ## Notes -/

theorem isNote_iff : isNote a = true ↔ ∃ x, x ≠ [] ∧ '\n' ∉ x ∧ a = '(' :: x ++ [')'] := by
  constructor
  · intro h
    unfold isNote at h
    split at h
    · rename_i rest
      simp only [Bool.and_eq_true, decide_eq_true_eq, beq_iff_eq, List.all_eq_true, bne_iff_ne] at h
      obtain ⟨⟨hlen, hlast⟩, hline⟩ := h
      obtain ⟨x, rfl⟩ := List.getLast?_eq_some_iff.1 hlast
      rw [List.dropLast_concat] at hline
      refine ⟨x, ?_, fun hx => hline _ hx rfl, rfl⟩
      rintro rfl
      simp at hlen
    · cases h
  · rintro ⟨x, hne, hline, rfl⟩
    have hlen := List.length_pos_iff.2 hne
    simp only [List.cons_append, isNote, List.length_append, List.length_singleton,
      List.getLast?_concat, List.dropLast_concat, Bool.and_eq_true, decide_eq_true_eq, beq_iff_eq,
      List.all_eq_true, bne_iff_ne]
    exact ⟨⟨by omega, trivial⟩, fun c hc e => hline (e ▸ hc)⟩

theorem head?_of_isNote (h : isNote a = true) : a.head? = some '(' := by
  obtain ⟨x, -, -, rfl⟩ := isNote_iff.1 h
  rfl

theorem isNote_eq_false (h : s.head? ≠ some '(') : isNote s = false :=
  Bool.eq_false_iff.2 fun hn => h (head?_of_isNote hn)

theorem note?_spaces (ha : isNote a = true) : note? (spaces (k + 1) ++ a) = some a := by
  have hhead : a.head? ≠ some ' ' := by
    rw [head?_of_isNote ha]
    decide
  rw [note?, afterSpaces?_spaces hhead, Option.filter_some, if_pos ha]

theorem note?_eq_none (hs : s.head? ≠ some ' ') : note? s = none := by
  rw [note?, afterSpaces?_eq_none hs]
  rfl

theorem note?_spaces_eq_none (hs : s.head? ≠ some ' ') (hopen : s.head? ≠ some '(') :
    note? (spaces (k + 1) ++ s) = none := by
  rw [note?, afterSpaces?_spaces hs, Option.filter_some, isNote_eq_false hopen]
  rfl

/-! ## Values that are words -/

theorem notMem_of_suffix (hw : ' ' ∉ w) (h : rest <:+ w) : rest.head? ≠ some ' ' := by
  intro hr
  exact hw (h.subset (List.mem_of_mem_head? hr))

/-- No note follows inside a word. -/
theorem valueNote?_word (hw : ' ' ∉ w) : valueNote? w = none := by
  refine List.findSome?_eq_none_iff.2 fun r hr => ?_
  rw [note?_eq_none (notMem_of_suffix hw (valueRests_suffix hr))]
  rfl

theorem isValue_word (hw : ' ' ∉ w) : isValue w = true := by
  simp [isValue, valueRests, wordRest_word hw]

theorem valueNote?_word_note (hw : ' ' ∉ w) (ha : isNote a = true) :
    valueNote? (w ++ (spaces (k + 1) ++ a)) = some (w, a) := by
  rw [valueNote?, valueRests, wordRest_append hw (endsWord_spaces k a), List.findSome?_cons,
    note?_spaces ha, Option.map_some, consumed_append_right]

theorem quoteRests_eq_nil (inWord : Bool) (hw : '\'' ∉ w) (hs : EndsWord s) :
    quoteRests inWord false (w ++ s) = [] := by
  have hbehind : ∀ s : List Char, quoteRests false false s = [] := by
    intro s
    induction s with
    | nil => rfl
    | cons c s ih => simp [quoteRests, ih]
  induction w generalizing inWord with
  | nil =>
    cases s with
    | nil => rfl
    | cons c s =>
      obtain rfl : c = ' ' := hs c rfl
      simp [quoteRests, hbehind]
  | cons c w ih =>
    have hc : c ≠ '\'' := fun e => hw (e ▸ List.mem_cons_self)
    have hopens : (inWord && c == '\'') = false := by simp [hc]
    rw [List.cons_append, quoteRests]
    simp only [hopens, Bool.or_false, Bool.false_and, Bool.false_eq_true, false_and, ↓reduceIte]
    exact ih _ fun h => hw (List.mem_cons_of_mem _ h)

/-- A word that neither ends in a comma nor holds a quote cannot be the begin of a longer
value. -/
theorem valueRests_word (hw : ' ' ∉ w) (hquote : '\'' ∉ w) (hcomma : w.getLast? ≠ some ',')
    (hs : EndsWord s) : valueRests (w ++ s) = [s] := by
  have hlist : listRests (w ++ s) = [] := by
    rw [listRests, wordRest_append hw hs, takeWhile_append_of_endsWord hw hs]
    split
    · exact if_neg hcomma
    · rfl
  rw [valueRests, wordRest_append hw hs, hlist, quotedRests, quoteRests_eq_nil true hquote hs]
  rfl

/-! ## The fields of a line -/

theorem body?_spaces (hs : s.head? ≠ some ' ') :
    body? (spaces (k + 1) ++ s) =
      if isNote s then some (.noted s)
      else match valueNote? s with
        | some (value, a) => some (.valuedNoted value a)
        | none =>
          if isValue s then some (.valued s)
          else (pairNote? s).map fun p => .pairNoted p.1 p.2.1 p.2.2 := by
  rw [body?, afterSpaces?_spaces hs]
  rfl

theorem body?_valued (hw : IsWord w) (hopen : w.head? ≠ some '(') :
    body? (spaces (k + 1) ++ w) = some (.valued w) := by
  rw [body?_spaces hw.head?_ne, isNote_eq_false hopen, valueNote?_word hw.notMem,
    isValue_word hw.notMem]
  rfl

theorem head?_append_of_ne_nil (hw : w ≠ []) (s : List Char) : (w ++ s).head? = w.head? := by
  cases w with
  | nil => contradiction
  | cons c w => rfl

theorem body?_valuedNoted (hw : IsWord w) (hopen : w.head? ≠ some '(') (ha : isNote a = true) :
    body? (spaces (k + 1) ++ (w ++ (spaces (l + 1) ++ a))) = some (.valuedNoted w a) := by
  have hnote : isNote (w ++ (spaces (l + 1) ++ a)) = false :=
    isNote_eq_false (by rwa [head?_append_of_ne_nil hw.ne_nil])
  rw [body?_spaces (hw.head?_append_ne _), hnote, valueNote?_word_note hw.notMem ha]
  rfl

theorem body?_pairNoted {m : Nat} (hv : IsWord v) (hopen : v.head? ≠ some '(')
    (hquote : '\'' ∉ v) (hcomma : v.getLast? ≠ some ',') (hw : IsWord w)
    (hopen' : w.head? ≠ some '(') (ha : isNote a = true) :
    body? (spaces (k + 1) ++ (v ++ (spaces (l + 1) ++ (w ++ (spaces (m + 1) ++ a))))) =
      some (.pairNoted v w a) := by
  let second := w ++ (spaces (m + 1) ++ a)
  have hspace : second.head? ≠ some ' ' := hw.head?_append_ne _
  have hopens : second.head? ≠ some '(' := by rwa [head?_append_of_ne_nil hw.ne_nil]
  have hrests : valueRests (v ++ (spaces (l + 1) ++ second)) = [spaces (l + 1) ++ second] :=
    valueRests_word hv.notMem hquote hcomma (endsWord_spaces l second)
  have hnote : isNote (v ++ (spaces (l + 1) ++ second)) = false :=
    isNote_eq_false (by rwa [head?_append_of_ne_nil hv.ne_nil])
  have hvalueNote : valueNote? (v ++ (spaces (l + 1) ++ second)) = none := by
    rw [valueNote?, hrests, List.findSome?_cons, note?_spaces_eq_none hspace hopens]
    rfl
  have hvalue : isValue (v ++ (spaces (l + 1) ++ second)) = false := by
    rw [isValue, hrests]
    simp [spaces_succ]
  have hpair : pairNote? (v ++ (spaces (l + 1) ++ second)) = some (v, w, a) := by
    rw [pairNote?, hrests, List.findSome?_cons, afterSpaces?_spaces hspace, Option.bind_some,
      valueNote?_word_note hw.notMem ha, Option.map_some, consumed_append_right]
  rw [body?_spaces (hv.head?_append_ne _), hnote, hvalueNote, hvalue, hpair]
  rfl

/-! ## Qualifiers -/

theorem nonEmpty?_of_ne_nil (h : s ≠ []) : nonEmpty? s = some (String.ofList s) :=
  if_neg (by rwa [List.isEmpty_iff])

/-- A value without a dot has no qualifier. -/
theorem splitValue_of_notMem (tag : List Char) (hs : '.' ∉ s) :
    splitValue tag s = (none, nonEmpty? s) :=
  if_neg fun h => by
    rw [List.count_eq_zero.2 hs] at h
    exact absurd h.2 (by decide)

/-- A single dot separates the qualifier from the value. -/
theorem splitValue_dot {tag : List Char} (htag : tag ≠ "Literal".toList) (hv : '.' ∉ v)
    (hw : '.' ∉ w) : splitValue tag (v ++ '.' :: w) = (nonEmpty? v, nonEmpty? w) := by
  have hcount : (v ++ '.' :: w).count '.' = 1 := by
    simp [List.count_eq_zero.2 hv, List.count_eq_zero.2 hw]
  have hpos : ∀ c ∈ v, (c != '.') = true := fun c hc => bne_iff_ne.2 fun e => hv (e ▸ hc)
  rw [splitValue, if_pos ⟨htag, hcount⟩, List.takeWhile_append_of_pos hpos,
    List.dropWhile_append_of_pos hpos]
  simp

/-! ## Whole lines -/

/-- The line of a tag and fields, at an indent. -/
def fieldsLine (indent : Nat) (tag fields : List Char) : String :=
  String.ofList (spaces indent ++ (tag ++ fields))

theorem parse?_fieldsLine {tag fields : List Char} (indent : Nat) (htag : IsWord tag)
    (hends : EndsWord fields) :
    parse? (fieldsLine indent tag fields) =
      (body? fields).map (node (fieldsLine indent tag fields) indent tag) := by
  have htext : (spaces indent ++ (tag ++ fields)).dropWhile (· == ' ') = tag ++ fields :=
    dropWhile_spaces (htag.head?_append_ne fields)
  have hindent : (spaces indent ++ (tag ++ fields)).takeWhile (· == ' ') = spaces indent :=
    takeWhile_spaces (htag.head?_append_ne fields)
  rw [parse?]
  simp only [fieldsLine, String.toList_ofList, htext, hindent,
    takeWhile_append_of_endsWord htag.notMem hends, dropWhile_append_of_endsWord htag.notMem hends,
    List.isEmpty_eq_false_iff.2 htag.ne_nil, Bool.false_eq_true, ↓reduceIte]
  simp [spaces]

theorem parse?_fields {tag fields : List Char} {body : Body} (indent : Nat) (htag : IsWord tag)
    (hends : EndsWord fields) (hbody : body? fields = some body) :
    parse? (fieldsLine indent tag fields) =
      some (node (fieldsLine indent tag fields) indent tag body) := by
  rw [parse?_fieldsLine indent htag hends, hbody, Option.map_some]

theorem parse_fields {tag fields : List Char} {body : Body} (indent : Nat) (htag : IsWord tag)
    (hends : EndsWord fields) (hbody : body? fields = some body) :
    parse (fieldsLine indent tag fields) =
      .ok (node (fieldsLine indent tag fields) indent tag body) := by
  rw [parse, parse?_fields indent htag hends hbody]

theorem exists_body_of_parse {tag fields : List Char} {n : Node} (indent : Nat) (htag : IsWord tag)
    (hends : EndsWord fields) (h : parse (fieldsLine indent tag fields) = .ok n) :
    ∃ body, body? fields = some body ∧ node (fieldsLine indent tag fields) indent tag body = n := by
  rw [parse, parse?_fieldsLine indent htag hends] at h
  cases hbody : body? fields with
  | none =>
    rw [hbody] at h
    cases h
  | some body =>
    rw [hbody] at h
    exact ⟨body, rfl, Except.ok.inj h⟩

theorem parse_fields_of_none {tag fields : List Char} (indent : Nat) (htag : IsWord tag)
    (hends : EndsWord fields) (hbody : body? fields = none) :
    parse (fieldsLine indent tag fields) =
      .error (.unrecognizedLine (fieldsLine indent tag fields)) := by
  rw [parse, parse?_fieldsLine indent htag hends, hbody, Option.map_none]

end Line

end DdlOrder
