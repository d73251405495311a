import DdlOrder.Proofs.Line.Fields
import Mathlib.Data.List.TakeWhile

/-!
# Scalar values

What a value of a dump line may look like (`IsScalar`), apart from how it is looked for: a word, a
word that ends in a comma with the tail of a list, or a word that holds a quote with text up to a
further quote.

* `mem_valueRests_iff`: the rests that are tried behind a value are those behind the scalar values
  that a text begins with;
* `isValue_iff`: a whole text is taken for a value exactly if it is a scalar value;
* `valueNote?_eq_none_iff`, `exists_of_valueNote?`: a value and a note are found exactly where the
  text is a scalar value with a note behind it.
-/

namespace DdlOrder

namespace Line

/-- A character that closes a list. -/
def IsCloser (c : Char) : Prop := c = ')' ∨ c = ']'

/-- A scalar value. -/
inductive IsScalar : List Char → Prop where
  /-- A word. -/
  | word {w : List Char} (hw : ' ' ∉ w) : IsScalar w
  /-- A word that ends in a comma, and the tail of a list up to a closing bracket. -/
  | list {w t : List Char} {c : Char} (hw : ' ' ∉ w) (ht : '\n' ∉ t) (hc : IsCloser c) :
      IsScalar (w ++ ',' :: ' ' :: (t ++ [c]))
  /-- A word that holds a quote, and text up to a further quote. -/
  | quoted {w t : List Char} (hw : ' ' ∉ w) (ht : '\n' ∉ t) :
      IsScalar (w ++ '\'' :: (t ++ ['\'']))
  /-- A word that holds a quote, and text up to a further quote and one character behind it. -/
  | quotedThen {w t : List Char} {c : Char} (hw : ' ' ∉ w) (ht : '\n' ∉ t) (hc : c ≠ ' ') :
      IsScalar (w ++ '\'' :: (t ++ ['\'', c]))

variable {s rest v a : List Char} {k : Nat}

/-! ## The rests behind a value -/

theorem mem_closerRests_iff :
    rest ∈ closerRests s ↔ ∃ t c, s = t ++ c :: rest ∧ '\n' ∉ t ∧ IsCloser c := by
  induction s with
  | nil => simp [closerRests]
  | cons d s ih =>
    have hskip : d ≠ '\n' → rest ∈ closerRests s →
        ∃ t c, d :: s = t ++ c :: rest ∧ '\n' ∉ t ∧ IsCloser c := by
      intro hd h
      obtain ⟨t, c, rfl, ht, hc⟩ := ih.1 h
      exact ⟨d :: t, c, rfl, by simp [ht, Ne.symm hd], hc⟩
    constructor
    · intro h
      rw [closerRests] at h
      split at h
      · simp at h
      · rename_i hd
        split at h
        · rename_i hclose
          rcases List.mem_cons.1 h with rfl | h
          · exact ⟨[], d, rfl, by simp, hclose⟩
          · exact hskip hd h
        · exact hskip hd h
    · rintro ⟨t, c, heq, ht, hc⟩
      rcases List.cons_eq_append_iff.1 heq with ⟨rfl, heq⟩ | ⟨t', rfl, rfl⟩
      · obtain ⟨rfl, rfl⟩ := List.cons.inj heq
        have hline : d ≠ '\n' := by rcases hc with rfl | rfl <;> decide
        rw [closerRests, if_neg hline, if_pos (id hc : d = ')' ∨ d = ']')]
        exact List.mem_cons_self
      · have hd : d ≠ '\n' := fun e => ht (e ▸ List.mem_cons_self)
        have hmem := ih.2 ⟨t', c, rfl, fun h => ht (List.mem_cons_of_mem d h), hc⟩
        rw [closerRests, if_neg hd]
        split
        · exact List.mem_cons_of_mem _ hmem
        · exact hmem

theorem takeWhile_append_wordRest (s : List Char) : s.takeWhile (· != ' ') ++ wordRest s = s :=
  List.takeWhile_append_dropWhile

theorem notMem_takeWhile (s : List Char) : ' ' ∉ s.takeWhile (· != ' ') := fun h => by
  simpa using List.mem_takeWhile_imp h

theorem mem_listRests_iff :
    rest ∈ listRests s ↔
      ∃ w t c, s = w ++ ',' :: ' ' :: (t ++ c :: rest) ∧ ' ' ∉ w ∧ '\n' ∉ t ∧ IsCloser c := by
  constructor
  · intro h
    rw [listRests] at h
    split at h
    · rename_i r hr
      split at h
      · rename_i hcomma
        obtain ⟨w, hw⟩ := List.getLast?_eq_some_iff.1 hcomma
        obtain ⟨t, c, rfl, ht, hc⟩ := mem_closerRests_iff.1 (List.mem_reverse.1 h)
        refine ⟨w, t, c, ?_, fun hmem => notMem_takeWhile s ?_, ht, hc⟩
        · have hs := takeWhile_append_wordRest s
          rw [hr, hw] at hs
          simpa using hs.symm
        · rw [hw]
          exact List.mem_append_left _ hmem
      · simp at h
    · simp at h
  · rintro ⟨w, t, c, rfl, hw, ht, hc⟩
    have hword : ' ' ∉ w ++ [','] := by simp [hw]
    have hends : EndsWord (' ' :: (t ++ c :: rest)) := by simp [EndsWord]
    have hsplit : w ++ ',' :: ' ' :: (t ++ c :: rest) =
        (w ++ [',']) ++ ' ' :: (t ++ c :: rest) := by simp
    rw [listRests, hsplit, wordRest_append hword hends, takeWhile_append_of_endsWord hword hends]
    simp only [List.getLast?_append, List.getLast?_singleton, Option.some_or, ↓reduceIte,
      List.mem_reverse]
    exact mem_closerRests_iff.2 ⟨t, c, rfl, ht, hc⟩

/-- A quote closes if a quote stands before it on its line, which either has been seen or is still
to come in the first word. -/
theorem mem_quoteRests_iff {inWord opened : Bool} :
    rest ∈ quoteRests inWord opened s ↔
      (opened = true ∧ ∃ t, s = t ++ '\'' :: rest ∧ '\n' ∉ t) ∨
        (inWord = true ∧ ∃ w t, s = w ++ '\'' :: (t ++ '\'' :: rest) ∧ ' ' ∉ w ∧ '\n' ∉ t) := by
  induction s generalizing inWord opened with
  | nil => simp [quoteRests]
  | cons d s ih =>
    have hstep : rest ∈ quoteRests inWord opened (d :: s) ↔
        (opened = true ∧ d = '\'' ∧ rest = s) ∨
          rest ∈ quoteRests (inWord && d != ' ')
            ((opened || (inWord && d == '\'')) && d != '\n') s := by
      rw [quoteRests]
      split <;> rename_i h
      · simp [h]
      · simp only [not_and] at h
        constructor
        · exact .inr
        · rintro (⟨hopened, hd, -⟩ | hmem)
          · exact absurd hd (h hopened)
          · exact hmem
    rw [hstep, ih]
    constructor
    · rintro (⟨hopened, rfl, rfl⟩ | ⟨hopens, t, rfl, ht⟩ | ⟨hin, w, t, rfl, hw, ht⟩)
      · exact .inl ⟨hopened, [], rfl, by simp⟩
      · simp only [Bool.and_eq_true, Bool.or_eq_true, beq_iff_eq, bne_iff_ne] at hopens
        obtain ⟨hopened | ⟨hin, rfl⟩, hd⟩ := hopens
        · exact .inl ⟨hopened, d :: t, rfl, by simp [ht, Ne.symm hd]⟩
        · exact .inr ⟨hin, [], t, rfl, by simp, ht⟩
      · simp only [Bool.and_eq_true, bne_iff_ne] at hin
        exact .inr ⟨hin.1, d :: w, t, rfl, by simp [hw, Ne.symm hin.2], ht⟩
    · rintro (⟨hopened, t, heq, ht⟩ | ⟨hin, w, t, heq, hw, ht⟩)
      · rcases List.cons_eq_append_iff.1 heq with ⟨rfl, heq⟩ | ⟨t', rfl, rfl⟩
        · obtain ⟨rfl, rfl⟩ := List.cons.inj heq
          exact .inl ⟨hopened, rfl, rfl⟩
        · simp only [List.mem_cons, not_or] at ht
          exact .inr (.inl ⟨by simp [hopened, Ne.symm ht.1], t', rfl, ht.2⟩)
      · rcases List.cons_eq_append_iff.1 heq with ⟨rfl, heq⟩ | ⟨w', rfl, rfl⟩
        · obtain ⟨rfl, rfl⟩ := List.cons.inj heq
          exact .inr (.inl ⟨by simp [hin], t, rfl, ht⟩)
        · simp only [List.mem_cons, not_or] at hw
          exact .inr (.inr ⟨by simp [hin, Ne.symm hw.1], w', t, rfl, hw.2, ht⟩)

/-- Behind a closing quote there may be one more character of the literal. -/
theorem mem_behindQuote_iff (hends : EndsWord rest) :
    rest ∈ behindQuote s ↔ s = rest ∨ ∃ c, c ≠ ' ' ∧ s = c :: rest := by
  cases s with
  | nil => simp [behindQuote, eq_comm]
  | cons c s =>
    rw [behindQuote]
    split <;> rename_i hc
    · subst hc
      rw [List.mem_singleton, eq_comm, or_iff_left]
      rintro ⟨c, hc, heq⟩
      exact hc (List.cons.inj heq).1.symm
    · constructor
      · intro h
        simp only [List.mem_cons, List.not_mem_nil, or_false] at h
        rcases h with rfl | rfl
        · exact .inr ⟨c, hc, rfl⟩
        · exact .inl rfl
      · rintro (rfl | ⟨c, -, heq⟩)
        · simp
        · simp [(List.cons.inj heq).2]

/-- The rests behind a value are what stands behind the scalar values that the text begins with,
as far as a field may end there. -/
theorem mem_valueRests_iff (hends : EndsWord rest) :
    rest ∈ valueRests s ↔ ∃ v, IsScalar v ∧ s = v ++ rest := by
  simp only [valueRests, List.mem_cons, List.mem_append, mem_listRests_iff, quotedRests,
    List.mem_flatMap, List.mem_reverse, mem_quoteRests_iff, mem_behindQuote_iff hends,
    Bool.false_eq_true, false_and, false_or, true_and]
  constructor
  · rintro (rfl | ⟨w, t, c, rfl, hw, ht, hc⟩ | ⟨q, ⟨w, t, rfl, hw, ht⟩, rfl | ⟨c, hc, rfl⟩⟩)
    · exact ⟨_, .word (notMem_takeWhile s), (takeWhile_append_wordRest s).symm⟩
    · exact ⟨_, .list hw ht hc, by simp⟩
    · exact ⟨_, .quoted hw ht, by simp⟩
    · exact ⟨_, .quotedThen hw ht hc, by simp⟩
  · rintro ⟨v, hv, rfl⟩
    cases hv with
    | word hw => exact .inl (wordRest_append hw hends).symm
    | list hw ht hc => exact .inr (.inl ⟨_, _, _, by simp, hw, ht, hc⟩)
    | quoted hw ht => exact .inr (.inr ⟨rest, ⟨_, _, by simp, hw, ht⟩, .inl rfl⟩)
    | quotedThen hw ht hc =>
      exact .inr (.inr ⟨_, ⟨_, _, by simp, hw, ht⟩, .inr ⟨_, hc, rfl⟩⟩)

/-! ## Values and notes -/

theorem isValue_iff : isValue s = true ↔ IsScalar s := by
  have hempty : isValue s = true ↔ [] ∈ valueRests s := by
    simp only [isValue, List.any_eq_true, List.isEmpty_iff, exists_eq_right]
  rw [hempty, mem_valueRests_iff endsWord_nil]
  simp only [List.append_nil, exists_eq_right']

theorem afterSpaces?_eq_some_iff :
    afterSpaces? s = some rest ↔ rest.head? ≠ some ' ' ∧ ∃ k, s = spaces (k + 1) ++ rest := by
  constructor
  · intro h
    unfold afterSpaces? at h
    split at h
    · rename_i r
      cases h
      refine ⟨fun hhead => ?_, (r.takeWhile (· == ' ')).length, ?_⟩
      · have := List.head?_dropWhile_not (· == ' ') r
        simp [hhead] at this
      · have hspaces : r.takeWhile (· == ' ') = spaces (r.takeWhile (· == ' ')).length :=
          List.eq_replicate_iff.2 ⟨rfl, fun c hc => by simpa using List.mem_takeWhile_imp hc⟩
        rw [spaces_succ, List.cons_append, ← hspaces, List.takeWhile_append_dropWhile]
    · cases h
  · rintro ⟨hhead, k, rfl⟩
    exact afterSpaces?_spaces hhead

theorem note?_eq_some_iff :
    note? s = some a ↔ isNote a = true ∧ ∃ k, s = spaces (k + 1) ++ a := by
  rw [note?, Option.filter_eq_some_iff, afterSpaces?_eq_some_iff]
  constructor
  · rintro ⟨⟨-, hspaces⟩, ha⟩
    exact ⟨ha, hspaces⟩
  · rintro ⟨ha, hspaces⟩
    exact ⟨⟨by simp [head?_of_isNote ha], hspaces⟩, ha⟩

/-- The text is a scalar value with a note behind it. -/
def IsNoted (v a s : List Char) : Prop :=
  IsScalar v ∧ isNote a = true ∧ ∃ k, s = v ++ (spaces (k + 1) ++ a)

theorem exists_of_valueNote? (h : valueNote? s = some (v, a)) : IsNoted v a s := by
  obtain ⟨r, hr, hnote⟩ := List.exists_of_findSome?_eq_some h
  obtain ⟨a, ha, heq⟩ := Option.map_eq_some_iff.1 hnote
  obtain ⟨rfl, rfl⟩ := Prod.mk.inj heq
  obtain ⟨hisNote, k, rfl⟩ := note?_eq_some_iff.1 ha
  obtain ⟨v, hv, rfl⟩ := (mem_valueRests_iff (endsWord_spaces k _)).1 hr
  rw [consumed_append_right]
  exact ⟨hv, hisNote, k, rfl⟩

theorem valueNote?_eq_none_iff : valueNote? s = none ↔ ∀ v a, ¬ IsNoted v a s := by
  constructor
  · rintro h v a ⟨hv, ha, k, rfl⟩
    have hr := (mem_valueRests_iff (endsWord_spaces k a)).2 ⟨v, hv, rfl⟩
    have hnone := List.findSome?_eq_none_iff.1 h _ hr
    rw [note?_spaces ha] at hnone
    cases hnone
  · intro h
    cases hfound : valueNote? s with
    | none => rfl
    | some p => exact absurd (exists_of_valueNote? hfound) (h p.1 p.2)

theorem exists_of_pairNote? {w : List Char} (h : pairNote? s = some (v, w, a)) :
    IsScalar v ∧
      ∃ k r, s = v ++ (spaces (k + 1) ++ r) ∧ r.head? ≠ some ' ' ∧ IsNoted w a r := by
  obtain ⟨r, hr, hpair⟩ := List.exists_of_findSome?_eq_some h
  obtain ⟨p, hp, heq⟩ := Option.map_eq_some_iff.1 hpair
  obtain ⟨rfl, rfl⟩ := Prod.mk.inj heq
  obtain ⟨r', hspaces, hnoted⟩ := Option.bind_eq_some_iff.1 hp
  obtain ⟨hhead, k, rfl⟩ := afterSpaces?_eq_some_iff.1 hspaces
  obtain ⟨v, hv, rfl⟩ := (mem_valueRests_iff (endsWord_spaces k _)).1 hr
  rw [consumed_append_right]
  exact ⟨hv, k, r', rfl, hhead, exists_of_valueNote? hnoted⟩

/-- Whatever the fields of a line are read as, what is taken for a note is one. -/
theorem isNote_of_body? {body : Body} (h : body? s = some body) (ha : a ∈ body.note?) :
    isNote a = true := by
  rw [body?] at h
  split at h
  · cases h
    cases ha
  obtain ⟨fields, -, h⟩ := Option.bind_eq_some_iff.1 h
  split at h
  · rename_i hnote
    cases h
    cases ha
    exact hnote
  split at h
  · rename_i hvalueNote
    cases h
    cases ha
    exact (exists_of_valueNote? hvalueNote).2.1
  split at h
  · cases h
    cases ha
  obtain ⟨p, hpairNote, rfl⟩ := Option.map_eq_some_iff.1 h
  obtain ⟨-, k, r, -, -, hnoted⟩ := exists_of_pairNote? hpairNote
  cases ha
  exact hnoted.2.1

/-- A note within a text is preceded by a space. -/
theorem IsNoted.opens (h : IsNoted v a s) : [' ', '('] <:+: s := by
  obtain ⟨-, ha, k, rfl⟩ := h
  obtain ⟨x, -, -, rfl⟩ := isNote_iff.1 ha
  exact ⟨v ++ spaces k, x ++ [')'], by simp [spaces, List.replicate_succ']⟩

theorem opens_of_pairNote? {p : List Char × List Char × List Char} (h : pairNote? s = some p) :
    [' ', '('] <:+: s := by
  obtain ⟨v, w, a⟩ := p
  obtain ⟨-, k, r, rfl, -, hnoted⟩ := exists_of_pairNote? h
  exact hnoted.opens.trans ⟨v ++ spaces (k + 1), [], by simp⟩

end Line

end DdlOrder
