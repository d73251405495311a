import DdlOrder.Proofs.Line.Scalar
import DdlOrder.Proofs.Line.Shapes

/-!
# Every character of a line

A line that is read is its indent, its tag and the fields behind it, with a run of spaces before
each field (`Runs`), and the node accounts for all of them: at most two values, of which the node
keeps the parts (`Gives`), and then its note. Nothing else stands on the line, whatever shape it was
found by (`Body.fills_of_body?`). No other shape accounts for the same line and node
(`Body.Fills.unique`), although a value may itself hold spaces: a note is cut off from the end of
the line, and two values are told from one by the qualifier.

* `exists_fields_of_parse`: the line and its fields;
* `parse_loses_no_text`: the whole account.
-/

namespace DdlOrder

namespace Line

/-- The texts, each with one or more spaces before it. -/
inductive Runs : List (List Char) → List Char → Prop where
  | nil : Runs [] []
  | cons {x s : List Char} {xs : List (List Char)} (k : Nat) (h : Runs xs s) :
      Runs (x :: xs) (spaces (k + 1) ++ (x ++ s))

/-- A text that is not empty and has no space at its ends. -/
structure IsField (x : List Char) : Prop where
  ne_nil : x ≠ []
  head?_ne : x.head? ≠ some ' '
  getLast?_ne : x.getLast? ≠ some ' '

/-- The values among the fields. -/
def Body.values : Body → List (List Char)
  | .bare | .noted _ => []
  | .valued v | .valuedNoted v _ => [v]
  | .pairNoted v w _ => [v, w]

/-- The text behind a tag consists of these fields. Where spaces end the line, they stand before a
value without characters. -/
structure Body.Fills (body : Body) (rest : List Char) : Prop where
  runs : Runs (body.values ++ body.note?.toList) rest
  isField : ∀ w ∈ body.values, IsField w ∨ body = .valued []
  isNoteText : ∀ a ∈ body.note?, IsNoteText a

/-- The qualifier and the value that come from the values on a line. -/
inductive Gives (tag : List Char) : List (List Char) → Option String → Option String → Prop where
  | nothing : Gives tag [] none none
  | empty : Gives tag [[]] none none
  | single {w : List Char} {qualifier value : Option String} (hne : w ≠ [])
      (hw : Divides tag w qualifier value) : Gives tag [w] qualifier value
  | pair {v w : List Char} :
      Gives tag [v, w] (some (String.ofList v)) (some (String.ofList w))

variable {s f f' v w a x rest tag : List Char} {xs ys : List (List Char)} {body body' : Body}
  {k l : Nat} {line : String} {n : Node}

/-! ## Where the fields begin -/

theorem takeWhile_eq_spaces (s : List Char) :
    s.takeWhile (· == ' ') = spaces (s.takeWhile (· == ' ')).length :=
  List.eq_replicate_iff.2 ⟨rfl, fun _ hc => by simpa using List.mem_takeWhile_imp hc⟩

theorem endsWord_dropWhile (s : List Char) : EndsWord (s.dropWhile (· != ' ')) := by
  intro c hc
  have := List.head?_dropWhile_not (· != ' ') s
  rw [hc] at this
  simpa using this

/-- A line that is read is an indent, a tag and fields, and the node is that of its fields. -/
theorem exists_fields_of_parse (h : parse line = .ok n) :
    ∃ indent tag rest body, IsWord tag ∧ EndsWord rest ∧ line = fieldsLine indent tag rest ∧
      body? rest = some body ∧ n = node line indent tag body := by
  let text := line.toList.dropWhile (· == ' ')
  let indent := (line.toList.takeWhile (· == ' ')).length
  let tag := text.takeWhile (· != ' ')
  let rest := text.dropWhile (· != ' ')
  have hline : line = fieldsLine indent tag rest := by
    rw [fieldsLine, List.takeWhile_append_dropWhile, ← takeWhile_eq_spaces,
      List.takeWhile_append_dropWhile, String.ofList_toList]
  have htag : IsWord tag := by
    refine ⟨fun hnil => ?_, notMem_takeWhile text⟩
    have hnone : parse? line = none := if_pos (List.isEmpty_iff.2 hnil)
    rw [parse, hnone] at h
    cases h
  have hends : EndsWord rest := endsWord_dropWhile text
  obtain ⟨body, hbody, hnode⟩ := exists_body_of_parse indent htag hends (hline ▸ h)
  exact ⟨indent, tag, rest, body, htag, hends, hline, hbody, by rw [← hnode, ← hline]⟩

/-! ## The fields fill the line -/

theorem isNoteText_of_isNote (h : isNote a = true) : IsNoteText a := by
  obtain ⟨x, hne, hline, rfl⟩ := isNote_iff.1 h
  exact .parens hne hline

/-- A scalar value has no space at its ends. -/
theorem IsScalar.isField (h : IsScalar v) (hne : v ≠ []) : IsField v := by
  have hhead : ∀ {w t : List Char} {c : Char}, ' ' ∉ w → c ≠ ' ' →
      (w ++ c :: t).head? ≠ some ' ' := by
    intro w t c hw hc hspace
    cases w with
    | nil => exact hc (Option.some.inj hspace)
    | cons d w => exact hw (Option.some.inj hspace ▸ List.mem_cons_self)
  cases h with
  | word hw =>
    exact ⟨hne, fun h => hw (List.mem_of_mem_head? h), fun h => hw (List.mem_of_getLast? h)⟩
  | list hw ht hc =>
    refine ⟨hne, hhead hw (by decide), ?_⟩
    rcases hc with rfl | rfl <;> simp [List.getLast?_cons]
  | quoted hw ht => exact ⟨hne, hhead hw (by decide), by simp [List.getLast?_cons]⟩
  | quotedThen hw ht hc =>
    exact ⟨hne, hhead hw (by decide), by simpa [List.getLast?_cons] using hc⟩

theorem IsNoted.isField (h : IsNoted v a s) (hs : s.head? ≠ some ' ') : IsField v := by
  obtain ⟨hv, -, k, rfl⟩ := h
  refine hv.isField ?_
  rintro rfl
  exact hs rfl

theorem Runs.single (x : List Char) (k : Nat) : Runs [x] (spaces (k + 1) ++ x) := by
  simpa using Runs.cons (x := x) k .nil

namespace Body

theorem fills_bare : bare.Fills [] :=
  ⟨.nil, fun _ hw => absurd hw List.not_mem_nil, fun _ ha => by cases ha⟩

theorem fills_noted (ha : IsNoteText a) : (noted a).Fills (spaces (k + 1) ++ a) where
  runs := .single a k
  isField _ hw := absurd hw List.not_mem_nil
  isNoteText b hb := by
    cases hb
    exact ha

theorem fills_valued (hv : IsField v ∨ v = []) : (valued v).Fills (spaces (k + 1) ++ v) where
  runs := .single v k
  isField w hw := by
    rw [List.mem_singleton.1 hw]
    exact hv.imp_right (congrArg valued)
  isNoteText _ ha := by cases ha

theorem fills_valuedNoted (hv : IsField v) (ha : IsNoteText a) :
    (valuedNoted v a).Fills (spaces (k + 1) ++ (v ++ (spaces (l + 1) ++ a))) where
  runs := .cons k (.single a l)
  isField w hw := by
    rw [List.mem_singleton.1 hw]
    exact .inl hv
  isNoteText b hb := by
    cases hb
    exact ha

theorem fills_pairNoted {m : Nat} (hv : IsField v) (hw : IsField w) (ha : IsNoteText a) :
    (pairNoted v w a).Fills
      (spaces (k + 1) ++ (v ++ (spaces (l + 1) ++ (w ++ (spaces (m + 1) ++ a))))) where
  runs := .cons k (.cons l (.single a m))
  isField x hx := by
    rcases List.mem_cons.1 hx with rfl | hx
    · exact .inl hv
    · rw [List.mem_singleton.1 hx]
      exact .inl hw
  isNoteText b hb := by
    cases hb
    exact ha

/-- The text behind a tag consists of the fields that it is read as. -/
theorem fills_of_body? (h : body? rest = some body) : body.Fills rest := by
  rw [body?] at h
  split at h
  · rename_i hempty
    cases h
    rw [List.isEmpty_iff.1 hempty]
    exact fills_bare
  obtain ⟨fields, hspaces, hfields⟩ := Option.bind_eq_some_iff.1 h
  clear h
  obtain ⟨hhead, k, rfl⟩ := afterSpaces?_eq_some_iff.1 hspaces
  split at hfields
  · rename_i hnote
    cases hfields
    exact fills_noted (isNoteText_of_isNote hnote)
  split at hfields
  · rename_i v a hvalueNote
    cases hfields
    have hnoted := exists_of_valueNote? hvalueNote
    have hv := hnoted.isField hhead
    obtain ⟨-, hnote, l, rfl⟩ := hnoted
    exact fills_valuedNoted hv (isNoteText_of_isNote hnote)
  split at hfields
  · rename_i hvalue
    cases hfields
    refine fills_valued ?_
    rcases eq_or_ne fields [] with hnil | hne
    · exact .inr hnil
    · exact .inl ((isValue_iff.1 hvalue).isField hne)
  obtain ⟨⟨v, w, a⟩, hpair, rfl⟩ := Option.map_eq_some_iff.1 hfields
  obtain ⟨hv, l, r, rfl, hr, hnoted⟩ := exists_of_pairNote? hpair
  have hfirst : IsField v := hv.isField (by rintro rfl; exact hhead rfl)
  have hsecond := hnoted.isField hr
  obtain ⟨-, hnote, m, rfl⟩ := hnoted
  exact fills_pairNoted hfirst hsecond (isNoteText_of_isNote hnote)

end Body

theorem gives_names (h : body.Fills rest) (tag : List Char) :
    Gives tag body.values (body.names tag).1 (body.names tag).2 := by
  have hsingle : ∀ v : List Char, Gives tag [v] (splitValue tag v).1 (splitValue tag v).2 := by
    intro v
    rcases eq_or_ne v [] with rfl | hne
    · rw [splitValue_of_notMem tag (by simp)]
      exact .empty
    · exact .single hne (divides_splitValue tag hne)
  cases body with
  | bare => exact .nothing
  | noted a => exact .nothing
  | valued v => exact hsingle v
  | valuedNoted v a => exact hsingle v
  | pairNoted v w a =>
    have hfield : ∀ x ∈ [v, w], x ≠ [] := fun x hx =>
      ((h.isField x hx).resolve_right fun e => by cases e).ne_nil
    rw [Body.names, nonEmpty?_of_ne_nil (hfield v (by simp)),
      nonEmpty?_of_ne_nil (hfield w (by simp))]
    exact .pair

/-! ## No other fields fill it -/

/-- The last text is cut off with the spaces before it. -/
theorem Runs.exists_of_concat (h : Runs (xs ++ [a]) s) :
    ∃ f k, Runs xs f ∧ s = f ++ (spaces (k + 1) ++ a) := by
  induction xs generalizing s with
  | nil =>
    cases h with
    | cons k h =>
      cases h
      exact ⟨[], k, .nil, by simp⟩
  | cons x xs ih =>
    cases h with
    | cons k h =>
      obtain ⟨f, l, hf, rfl⟩ := ih h
      exact ⟨_, l, .cons k hf, by simp⟩

theorem Runs.getLast?_ne (h : Runs xs f) (hxs : ∀ x ∈ xs, IsField x) : f.getLast? ≠ some ' ' := by
  induction h with
  | nil => simp
  | @cons x s xs k h ih =>
    obtain ⟨hx, hxs⟩ := List.forall_mem_cons.1 hxs
    have hlast := ih hxs
    rw [List.getLast?_append, List.getLast?_append]
    cases hs : s.getLast? with
    | some c =>
      rw [hs] at hlast
      simpa using hlast
    | none =>
      obtain ⟨c, hc⟩ := Option.ne_none_iff_exists'.1 (mt List.getLast?_eq_none_iff.1 hx.ne_nil)
      have := hx.getLast?_ne
      rw [hc] at this
      simpa [hc] using this

/-- What stands before the last field ends where the spaces begin. -/
theorem eq_of_append_spaces (hf : f.getLast? ≠ some ' ') (hf' : f'.getLast? ≠ some ' ')
    (h : f ++ spaces k = f' ++ spaces l) : f = f' := by
  have hreverse : ∀ {f : List Char} (k : Nat), f.getLast? ≠ some ' ' →
      (f ++ spaces k).reverse.dropWhile (· == ' ') = f.reverse := by
    intro f k hf
    rw [List.reverse_append, spaces, List.reverse_replicate, ← spaces]
    exact dropWhile_spaces (by rwa [List.head?_reverse])
  have := congrArg (fun s => s.reverse.dropWhile (· == ' ')) h
  simpa only [hreverse k hf, hreverse l hf', List.reverse_inj] using this

theorem Runs.eq_nil_iff (h : Runs xs s) : s = [] ↔ xs = [] := by
  cases h with
  | nil => simp
  | cons k h => simp [spaces_succ]

theorem spaces_append_inj (hv : v.head? ≠ some ' ') (hw : w.head? ≠ some ' ')
    (h : spaces k ++ v = spaces l ++ w) : v = w := by
  have := congrArg (List.dropWhile (· == ' ')) h
  rwa [dropWhile_spaces hv, dropWhile_spaces hw] at this

/-- A text that is a single field is read in one way. -/
theorem Runs.single_inj (h : Runs [v] s) (h' : Runs [w] s) (hv : v.head? ≠ some ' ')
    (hw : w.head? ≠ some ' ') : v = w := by
  cases h with
  | cons k h =>
    cases h
    rw [List.append_nil] at h'
    generalize hs : spaces (k + 1) ++ v = s at h'
    cases h' with
    | cons l h' =>
      cases h'
      exact spaces_append_inj hv hw (by simpa using hs)

/-- A single field that could be read as two has the spaces between them inside. -/
theorem Runs.single_eq_pair (h : Runs [x] s) (h' : Runs [v, w] s) (hx : x.head? ≠ some ' ')
    (hv : IsField v) : ∃ k, x = v ++ (spaces (k + 1) ++ w) := by
  cases h' with
  | cons l h' =>
    cases h' with
    | cons k h' =>
      cases h'
      have hpair : (v ++ (spaces (k + 1) ++ w)).head? ≠ some ' ' := by
        rw [head?_append_of_ne_nil hv.ne_nil]
        exact hv.head?_ne
      exact ⟨k, h.single_inj (by simpa using Runs.single (v ++ (spaces (k + 1) ++ w)) l) hx hpair⟩

theorem eq_of_nonEmpty?_eq_some (h : nonEmpty? s = some (String.ofList v)) : s = v := by
  rw [nonEmpty?, Option.ite_none_left_eq_some, Option.some.injEq] at h
  simpa using congrArg String.toList h.2

/-- A single value does not give what two would: its parts have a dot between them, where the two
have spaces. -/
theorem not_divides_spaces {q p : Option String} (h : Divides tag (v ++ (spaces (k + 1) ++ w)) q p)
    (hq : q = some (String.ofList v)) (hp : p = some (String.ofList w)) : False := by
  cases h with
  | atDot htag hv hfirst hsecond =>
    obtain rfl := eq_of_nonEmpty?_eq_some hq
    obtain rfl := eq_of_nonEmpty?_eq_some hp
    cases List.append_cancel_left hv
  | whole => cases hq

theorem Gives.single_or_pair {q p : Option String} (h : Gives tag xs q p) (hne : xs ≠ []) :
    (∃ x, xs = [x]) ∨
      ∃ v w, xs = [v, w] ∧ q = some (String.ofList v) ∧ p = some (String.ofList w) := by
  cases h with
  | nothing => exact absurd rfl hne
  | empty => exact .inl ⟨[], rfl⟩
  | single hw h => exact .inl ⟨_, rfl⟩
  | pair => exact .inr ⟨_, _, rfl, rfl, rfl⟩

/-- A single value and two values that fill the same text do not give the same. -/
theorem Gives.not_single_of_pair {q p : Option String} (h : Gives tag [x] q p)
    (hq : q = some (String.ofList v)) (hp : p = some (String.ofList w)) (hf : Runs [x] f)
    (hf' : Runs [v, w] f) (hx : x.head? ≠ some ' ') (hv : IsField v) : False := by
  obtain ⟨k, hsplit⟩ := hf.single_eq_pair hf' hx hv
  cases h with
  | empty => cases hq
  | single hne h =>
    rw [hsplit] at h
    exact not_divides_spaces h hq hp

/-- Values that give the same and fill the same text are the same. -/
theorem Gives.eq_of_runs {q p : Option String} (h : Gives tag xs q p) (h' : Gives tag ys q p)
    (hf : Runs xs f) (hf' : Runs ys f) (hxs : ∀ x ∈ xs, IsField x ∨ xs = [[]])
    (hys : ∀ y ∈ ys, IsField y ∨ ys = [[]]) : xs = ys := by
  have hhead : ∀ {x : List Char}, (∀ y ∈ [x], IsField y ∨ [x] = [[]]) → x.head? ≠ some ' ' := by
    intro x hx
    rcases hx x (by simp) with hx | hnil
    · exact hx.head?_ne
    · rw [(List.cons.inj hnil).1]
      simp
  have hpair : ∀ {v w : List Char}, (∀ y ∈ [v, w], IsField y ∨ [v, w] = [[]]) → IsField v :=
    fun h => (h _ (by simp)).resolve_right (by simp)
  by_cases hnil : f = []
  · rw [hf.eq_nil_iff.1 hnil, hf'.eq_nil_iff.1 hnil]
  rcases h.single_or_pair (mt hf.eq_nil_iff.2 hnil) with ⟨x, rfl⟩ | ⟨v, w, rfl, hv, hw⟩ <;>
    rcases h'.single_or_pair (mt hf'.eq_nil_iff.2 hnil) with ⟨x', rfl⟩ | ⟨v', w', rfl, hv', hw'⟩
  · rw [hf.single_inj hf' (hhead hxs) (hhead hys)]
  · exact (h.not_single_of_pair hv' hw' hf hf' (hhead hxs) (hpair hys)).elim
  · exact (h'.not_single_of_pair hv hw hf' hf (hhead hys) (hpair hxs)).elim
  · rw [String.ofList_injective (Option.some.inj (hv.symm.trans hv')),
      String.ofList_injective (Option.some.inj (hw.symm.trans hw'))]

theorem Body.eq_of_values_eq (hvalues : body.values = body'.values)
    (hnote : body.note? = body'.note?) : body = body' := by
  cases body <;> cases body' <;> simp_all [Body.values, Body.note?]

namespace Body.Fills

theorem isField_or (h : body.Fills rest) : ∀ x ∈ body.values, IsField x ∨ body.values = [[]] :=
  fun x hx => (h.isField x hx).imp_right (congrArg Body.values)

theorem runs_of_note?_eq_none (h : body.Fills rest) (hnote : body.note? = none) :
    Runs body.values rest := by
  have hruns := h.runs
  rwa [hnote, Option.toList_none, List.append_nil] at hruns

/-- A note ends the line, and what stands before it ends without a space. -/
theorem exists_of_note? (h : body.Fills rest) (hnote : body.note? = some a) :
    ∃ f k, Runs body.values f ∧ f.getLast? ≠ some ' ' ∧ rest = f ++ (spaces (k + 1) ++ a) := by
  have hruns := h.runs
  rw [hnote, Option.toList_some] at hruns
  obtain ⟨f, k, hf, hrest⟩ := hruns.exists_of_concat
  refine ⟨f, k, hf, hf.getLast?_ne fun x hx => (h.isField x hx).resolve_right ?_, hrest⟩
  rintro rfl
  cases hnote

/-- One line has one account that agrees with its node. -/
theorem unique {q p : Option String} (h : body.Fills rest) (h' : body'.Fills rest)
    (hnote : body.note? = body'.note?) (hgives : Gives tag body.values q p)
    (hgives' : Gives tag body'.values q p) : body = body' := by
  refine Body.eq_of_values_eq ?_ hnote
  cases ha : body.note? with
  | none =>
    exact hgives.eq_of_runs hgives' (h.runs_of_note?_eq_none ha)
      (h'.runs_of_note?_eq_none (hnote ▸ ha)) h.isField_or h'.isField_or
  | some a =>
    obtain ⟨f, k, hf, hlast, hrest⟩ := h.exists_of_note? ha
    obtain ⟨f', l, hf', hlast', hrest'⟩ := h'.exists_of_note? (hnote ▸ ha)
    have hsame : f ++ spaces (k + 1) = f' ++ spaces (l + 1) := by
      rw [← List.append_left_inj a, List.append_assoc, List.append_assoc, ← hrest, ← hrest']
    obtain rfl := eq_of_append_spaces hlast hlast' hsame
    exact hgives.eq_of_runs hgives' hf hf' h.isField_or h'.isField_or

end Body.Fills

/-! ## The whole line -/

/-- Reading a line loses no text: the line is the indent, the tag and what fills the rest, and the
node keeps the line, the indent, the tag and the note, the alias in the note, and what the values
give. Only one account of the rest agrees with the node. -/
theorem parse_loses_no_text (h : parse line = .ok n) :
    n.raw = line ∧ ∃ tag rest, IsWord tag ∧ EndsWord rest ∧
      line = fieldsLine n.indent tag rest ∧ n.kind.tag = String.ofList tag ∧
      n.aliasName = n.note.bind aliasOfNote? ∧
      ∃! body : Body, body.Fills rest ∧ n.note = body.note?.map String.ofList ∧
        Gives tag body.values n.qualifier n.value := by
  obtain ⟨indent, tag, rest, body, htag, hends, hline, hbody, rfl⟩ := exists_fields_of_parse h
  have hfills := Body.fills_of_body? hbody
  refine ⟨rfl, tag, rest, htag, hends, hline, Kind.tag_ofTag _, ?_, body,
    ⟨hfills, rfl, gives_names hfills tag⟩, ?_⟩
  · cases hnote : body.note? with
    | none => simp [node, hnote]
    | some a => simp [node, hnote, aliasOfNote?]
  · rintro body' ⟨hfills', hnote, hgives⟩
    refine hfills'.unique hfills ?_ hgives (gives_names hfills tag)
    exact Option.map_injective (fun _ _ => String.ofList_injective) hnote.symm

/-- A qualifier in quotes, which only shows once its first word has been tried as a value of its
own, and two notes that count as one. -/
theorem parse_loses_no_text_quoted :
    let line := "  CreateQuery 'a b'  t (children 1) (alias y)"
    ∃ n, parse line = .ok n ∧ n.qualifier = some "'a b'" ∧ n.value = some "t" ∧
      n.note = some "(children 1) (alias y)" ∧
      ∃ tag rest, line = fieldsLine n.indent tag rest ∧
        ∃! body : Body, body.Fills rest ∧ n.note = body.note?.map String.ofList ∧
          Gives tag body.values n.qualifier n.value := by
  intro line
  let n : Node :=
    { kind := .createQuery, value := some "t", qualifier := some "'a b'", aliasName := some "y",
      note := some "(children 1) (alias y)", indent := 2, raw := line }
  have hn : parse line = .ok n := by decide +kernel
  obtain ⟨-, tag, rest, -, -, hline, -, -, haccount⟩ := parse_loses_no_text hn
  exact ⟨n, hn, rfl, rfl, rfl, tag, rest, hline, haccount⟩

end Line

end DdlOrder
