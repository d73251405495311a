import DdlOrder.Text.Basic
import DdlOrder.ViewTarget
import Mathlib.Data.List.Basic

/-!
# How a statement names the target of a view

The clause that names the table a materialized view fills (`ViewTarget.Clause`): its words in
any letter case and with white space behind them, two of its parts optional. A text that
begins with such a clause has its target found.

* `ViewTarget.word?_append`, `ViewTarget.many?_append`: a word and a run of characters are
  passed over, up to what follows them;
* `ViewTarget.getD_ifNotExists?`, `ViewTarget.getD_onCluster?`: so are the optional parts,
  and where one is missing, nothing is;
* `viewTarget?_of_clause`: the target of the whole clause.
-/

namespace DdlOrder

/-! ## Classes of characters -/

/-- All characters in the ranges of a table. -/
def CharTable.chars (table : CharTable) : List Char :=
  table.flatMap fun range => (List.range' range.1 (range.2 + 1 - range.1)).map Char.ofNat

theorem CharTable.mem_chars {table : CharTable} {c : Char}
    (h : CharTable.contains table c = true) : c ∈ CharTable.chars table := by
  fun_induction CharTable.contains table c with
  | case1 => cases h
  | case2 => cases h
  | case3 low high ranges c hlow ih =>
    rw [chars, List.flatMap_cons, List.mem_append]
    rcases Bool.or_eq_true_iff.1 h with hhigh | hrest
    · refine .inl (List.mem_map.2 ⟨c.toNat, ?_, Char.ofNat_toNat c⟩)
      have hle := of_decide_eq_true hhigh
      rw [List.mem_range'_1]
      omega
    · exact .inr (ih hrest)

namespace ViewTarget

/-- The letters that the words of the clause are made of. -/
def alphabet : List Char := "abcdefghijklmnopqrstuvwxyz".toList

theorem isNameChar_of_isBlankChar {c : Char} (h : isBlankChar c = true) :
    isNameChar c = false := by
  have hall : ((CharTable.chars blankChars).all fun c => !isNameChar c) = true := by
    decide +kernel
  simpa using List.all_eq_true.1 hall c (CharTable.mem_chars h)

theorem toLower_of_isBlankChar {c : Char} (h : isBlankChar c = true) : c.toLower = c := by
  have hall : ((CharTable.chars blankChars).all fun c => c.toLower == c) = true := by
    decide +kernel
  exact eq_of_beq (List.all_eq_true.1 hall c (CharTable.mem_chars h))

theorem isBlankChar_of_isNameChar {c : Char} (h : isNameChar c = true) :
    isBlankChar c = false :=
  Bool.eq_false_iff.2 fun hblank => by
    cases h.symm.trans (isNameChar_of_isBlankChar hblank)

theorem isBlankChar_of_toLower {c : Char} (h : c.toLower ∈ alphabet) : isBlankChar c = false :=
  Bool.eq_false_iff.2 fun hblank => by
    have hletters : (alphabet.all fun l => !isBlankChar l) = true := by decide
    rw [toLower_of_isBlankChar hblank] at h
    simpa [hblank] using List.all_eq_true.1 hletters c h

/-- A letter is recognised in either case. -/
theorem sameLetter_toLower (c : Char) : sameLetter c.toLower c = true := by
  simp only [sameLetter, Bool.or_eq_true, beq_iff_eq]
  delta Char.toLower
  split
  · rename_i h
    have hle : c.val.toNat ≤ 90 := UInt32.le_iff_toNat_le.1 h.2
    have hsum : (c.val + ('a'.val - 'A'.val)).toNat = c.val.toNat + 32 := by
      rw [UInt32.toNat_add, show ('a'.val - 'A'.val).toNat = 32 from rfl]
      omega
    exact .inl (.inr hsum.symm)
  · exact .inl (.inl rfl)

/-- What is recognised as a letter is that letter in either case, or the long s. -/
theorem toLower_of_sameLetter {l c : Char} (hl : l ∈ alphabet) (h : sameLetter l c = true) :
    c.toLower = l ∨ c = '\u017f' := by
  have hall : (alphabet.all fun l =>
      l.toLower == l && (Char.ofNat (l.toNat - 32)).toLower == l) = true := by decide
  have hcases := List.all_eq_true.1 hall l hl
  simp only [Bool.and_eq_true, beq_iff_eq] at hcases
  obtain ⟨hlower, hupper⟩ := hcases
  simp only [sameLetter, Bool.or_eq_true, Bool.and_eq_true, beq_iff_eq] at h
  rcases h with (rfl | h) | ⟨-, h⟩
  · exact .inl hlower
  · refine .inl ?_
    rw [← hupper, ← h, Nat.add_sub_cancel, Char.ofNat_toNat]
  · exact .inr h

/-! ## The clause -/

/-- One or more characters of a class. -/
structure IsRun (p : Char → Bool) (s : List Char) : Prop where
  ne_nil : s ≠ []
  forall_mem : ∀ c ∈ s, p c = true

/-- A word of the clause, in any letter case, and the white space behind it. -/
inductive SpacedWord (letters : String) : List Char → Prop where
  | intro {word blank : List Char} (hword : word.map Char.toLower = letters.toList)
    (hblank : IsRun isBlankChar blank) : SpacedWord letters (word ++ blank)

/-- `if not exists`, or nothing. -/
inductive IfNotExists : List Char → Prop where
  | absent : IfNotExists []
  | present {a b c : List Char} (hif : SpacedWord "if" a) (hnot : SpacedWord "not" b)
    (hexists : SpacedWord "exists" c) : IfNotExists (a ++ (b ++ c))

/-- `on cluster` and the name of a cluster, or nothing. -/
inductive OnCluster : List Char → Prop where
  | absent : OnCluster []
  | present {a b name blank : List Char} (hon : SpacedWord "on" a)
    (hcluster : SpacedWord "cluster" b) (hname : IsRun (fun c => !isBlankChar c) name)
    (hblank : IsRun isBlankChar blank) : OnCluster (a ++ (b ++ (name ++ blank)))

/-- The text begins with the clause that names this target. The target ends where no further
character of a name follows. -/
inductive Clause (target : List Char) : List Char → Prop where
  | intro {create materialized view existence name blank cluster into rest : List Char}
    (hcreate : SpacedWord "create" create) (hmaterialized : SpacedWord "materialized" materialized)
    (hview : SpacedWord "view" view) (hexistence : IfNotExists existence)
    (hname : IsRun isNameChar name) (hblank : IsRun isBlankChar blank)
    (hcluster : OnCluster cluster) (hto : SpacedWord "to" into)
    (htarget : IsRun isNameChar target) (hrest : ∀ c ∈ rest.head?, isNameChar c = false) :
    Clause target (create ++ (materialized ++ (view ++ (existence ++ (name ++ (blank ++
      (cluster ++ (into ++ (target ++ rest)))))))))

/-! ## Words and runs -/

variable {letters : String} {l : Char} {s w rest name blank : List Char} {p : Char → Bool}

/-- No white space comes first. -/
def StartsSolid (s : List Char) : Prop := ∀ c ∈ s.head?, isBlankChar c = false

/-- The first character is this letter, in either case. -/
def StartsWith (l : Char) (s : List Char) : Prop := ∃ c rest, s = c :: rest ∧ c.toLower = l

theorem StartsWith.startsSolid (h : StartsWith l s) (hl : l ∈ alphabet) : StartsSolid s := by
  obtain ⟨c, rest, rfl, rfl⟩ := h
  rintro d ⟨⟩
  exact isBlankChar_of_toLower hl

theorem SpacedWord.startsWith (h : SpacedWord letters s) (hl : letters.toList.head? = some l)
    (rest : List Char) : StartsWith l (s ++ rest) := by
  obtain ⟨hword, -⟩ := h
  obtain ⟨ls, hletters⟩ := List.head?_eq_some_iff.1 hl
  rw [hletters] at hword
  obtain ⟨c, cs, rfl, hc, -⟩ := List.map_eq_cons_iff.1 hword
  exact ⟨c, _, rfl, hc⟩

theorem SpacedWord.startsSolid (h : SpacedWord letters s)
    (hl : (letters.toList.head?.any (· ∈ alphabet)) = true) (rest : List Char) :
    StartsSolid (s ++ rest) := by
  obtain ⟨l, hfirst, hl⟩ := (Option.any_eq_true _ _).1 hl
  exact (h.startsWith hfirst rest).startsSolid (of_decide_eq_true hl)

theorem IsRun.head?_append (h : IsRun p s) (rest : List Char) :
    ∀ c ∈ (s ++ rest).head?, p c = true := by
  obtain ⟨c, cs, rfl⟩ := List.exists_cons_of_ne_nil h.ne_nil
  rintro d ⟨⟩
  exact h.forall_mem c List.mem_cons_self

theorem IsRun.startsSolid (h : IsRun isNameChar s) (rest : List Char) : StartsSolid (s ++ rest) :=
  fun c hc => isBlankChar_of_isNameChar (h.head?_append rest c hc)

theorem word?_append {ls : List Char} (h : w.map Char.toLower = ls) (rest : List Char) :
    word? ls (w ++ rest) = some rest := by
  subst h
  induction w with
  | nil => rfl
  | cons c w ih => rw [List.map_cons, List.cons_append, word?, if_pos (sameLetter_toLower c), ih]

theorem many?_append (h : IsRun p s) (hrest : ∀ c ∈ rest.head?, p c = false) :
    many? p (s ++ rest) = some rest := by
  obtain ⟨c, cs, rfl⟩ := List.exists_cons_of_ne_nil h.ne_nil
  obtain ⟨hc, hcs⟩ := List.forall_mem_cons.1 h.forall_mem
  rw [List.cons_append, many?, if_pos hc, dropWhile_append_of_head? hcs hrest]

theorem wordAndBlank?_append (h : SpacedWord letters s) (hrest : StartsSolid rest) :
    wordAndBlank? letters (s ++ rest) = some rest := by
  obtain ⟨hword, hblank⟩ := h
  rw [wordAndBlank?, List.append_assoc, word?_append hword, Option.bind_some,
    many?_append hblank hrest]

/-! ## What is missing -/

theorem wordAndBlank?_eq_none {l' : Char} (hl : l ∈ alphabet) (hne : l ≠ l')
    (hfirst : letters.toList.head? = some l') (hl' : l' ∈ alphabet) (h : StartsWith l s) :
    wordAndBlank? letters s = none := by
  obtain ⟨c, rest, rfl, rfl⟩ := h
  obtain ⟨ls, hletters⟩ := List.head?_eq_some_iff.1 hfirst
  have hother : ¬ sameLetter l' c = true := fun hsame => by
    rcases toLower_of_sameLetter hl' hsame with rfl | rfl
    · exact hne rfl
    · exact absurd hl (by decide)
  rw [wordAndBlank?, hletters, word?, if_neg hother, Option.bind_none]

theorem exists_of_word? {ls : List Char} (hletters : ls ⊆ alphabet)
    (h : word? ls s = some rest) : ∃ w, s = w ++ rest ∧ ∀ c ∈ w, isBlankChar c = false := by
  fun_induction word? ls s with
  | case1 s =>
    cases h
    exact ⟨[], rfl, by simp⟩
  | case2 l ls c s hsame ih =>
    obtain ⟨hl, hletters⟩ := List.cons_subset.1 hletters
    obtain ⟨w, rfl, hw⟩ := ih hletters h
    refine ⟨c :: w, rfl, List.forall_mem_cons.2 ⟨?_, hw⟩⟩
    rcases toLower_of_sameLetter hl hsame with rfl | rfl
    · exact isBlankChar_of_toLower hl
    · decide
  | case3 => cases h
  | case4 => cases h

theorem head?_of_many? (h : many? p s = some rest) : ∀ c ∈ s.head?, p c = true := by
  cases s with
  | nil => cases h
  | cons c s =>
    rintro d ⟨⟩
    by_contra hc
    rw [many?, if_neg hc] at h
    cases h

/-- A text divides into what comes before its first white space and the rest in one way. -/
theorem eq_of_append_eq_append {v w s t : List Char} (hv : ∀ c ∈ v, isBlankChar c = false)
    (hw : ∀ c ∈ w, isBlankChar c = false) (hs : ∀ c ∈ s.head?, isBlankChar c = true)
    (ht : ∀ c ∈ t.head?, isBlankChar c = true) (h : v ++ s = w ++ t) : s = t :=
  (run_append_inj (p := fun c => !isBlankChar c) (by simpa using hv) (by simpa using hs)
    (by simpa using hw) (by simpa using ht) h).2

/-- Where a word of the clause is found instead of a name, the name is that word. -/
theorem eq_of_wordAndBlank? (hletters : letters.toList ⊆ alphabet)
    (hname : ∀ c ∈ name, isBlankChar c = false) (hblank : IsRun isBlankChar blank)
    (hrest : StartsSolid rest)
    (h : wordAndBlank? letters (name ++ (blank ++ rest)) = some s) : s = rest := by
  obtain ⟨behind, hword, hmany⟩ := Option.bind_eq_some_iff.1 h
  obtain ⟨w, hsplit, hw⟩ := exists_of_word? hletters hword
  obtain rfl := eq_of_append_eq_append hname hw (hblank.head?_append rest) (head?_of_many? hmany)
    hsplit
  exact Option.some.inj (hmany.symm.trans (many?_append hblank hrest))

/-! ## The whole clause -/

theorem getD_ifNotExists? {existence : List Char} (h : IfNotExists existence)
    (hname : IsRun isNameChar name) (hblank : IsRun isBlankChar blank) (hl : l ∈ alphabet)
    (hne : l ≠ 'n') (hrest : StartsWith l rest) :
    (ifNotExists? (existence ++ (name ++ (blank ++ rest)))).getD
        (existence ++ (name ++ (blank ++ rest))) = name ++ (blank ++ rest) := by
  cases h with
  | absent =>
    -- the name itself may be `if`, but `not` cannot follow it
    have hnone : ifNotExists? (name ++ (blank ++ rest)) = none := by
      refine Option.bind_eq_none_iff.2 fun s hs => ?_
      obtain rfl := eq_of_wordAndBlank? (by decide)
        (fun c hc => isBlankChar_of_isNameChar (hname.forall_mem c hc)) hblank
        (hrest.startsSolid hl) hs
      rw [wordAndBlank?_eq_none hl hne (by decide) (by decide) hrest]
      rfl
    rw [List.nil_append, hnone, Option.getD_none]
  | present hif hnot hexists =>
    simp only [List.append_assoc, ifNotExists?, Option.bind_eq_bind, Option.bind_some,
      wordAndBlank?_append hif (hnot.startsSolid (by decide) _),
      wordAndBlank?_append hnot (hexists.startsSolid (by decide) _),
      wordAndBlank?_append hexists (hname.startsSolid _), Option.getD_some]

theorem getD_onCluster? {cluster : List Char} (h : OnCluster cluster) (hl : l ∈ alphabet)
    (hne : l ≠ 'o') (hrest : StartsWith l rest) :
    (onCluster? (cluster ++ rest)).getD (cluster ++ rest) = rest := by
  cases h with
  | absent =>
    have hnone : onCluster? rest = none := by
      rw [onCluster?, wordAndBlank?_eq_none hl hne (by decide) (by decide) hrest]
      rfl
    rw [List.nil_append, hnone, Option.getD_none]
  | @present _ _ name blank hon hcluster hname hblank =>
    have hsolid : StartsSolid (name ++ (blank ++ rest)) := fun c hc => by
      simpa using hname.head?_append _ c hc
    have hends : ∀ c ∈ (blank ++ rest).head?, (!isBlankChar c) = false := fun c hc => by
      rw [hblank.head?_append rest c hc, Bool.not_true]
    simp only [List.append_assoc, onCluster?, Option.bind_eq_bind, Option.bind_some,
      wordAndBlank?_append hon (hcluster.startsSolid (by decide) _),
      wordAndBlank?_append hcluster hsolid, many?_append hname hends,
      many?_append hblank (hrest.startsSolid hl), Option.getD_some]

theorem OnCluster.startsWith {cluster : List Char} (h : OnCluster cluster) {into : List Char}
    (hto : SpacedWord "to" into) (rest : List Char) :
    ∃ l ∈ alphabet, l ≠ 'n' ∧ StartsWith l (cluster ++ (into ++ rest)) := by
  cases h with
  | absent => exact ⟨'t', by decide, by decide, hto.startsWith (by decide) rest⟩
  | present hon =>
    refine ⟨'o', by decide, by decide, ?_⟩
    rw [List.append_assoc]
    exact hon.startsWith (by decide) _

theorem IfNotExists.startsSolid {existence : List Char} (h : IfNotExists existence)
    (hname : IsRun isNameChar name) (rest : List Char) :
    StartsSolid (existence ++ (name ++ rest)) := by
  cases h with
  | absent => exact hname.startsSolid rest
  | present hif =>
    rw [List.append_assoc]
    exact hif.startsSolid (by decide) _

/-- The target of a clause is found where the clause begins. -/
theorem here?_of_clause {target : List Char} (h : Clause target s) : here? s = some target := by
  cases h with
  | @intro create materialized view existence name blank cluster into rest hcreate hmaterialized
      hview hexistence hname hblank hcluster hto htarget hrest =>
    obtain ⟨l, hl, hne, hstarts⟩ := hcluster.startsWith hto (target ++ rest)
    have hinto : StartsWith 't' (into ++ (target ++ rest)) := hto.startsWith (by decide) _
    have hnameEnds : ∀ c ∈ (blank ++ (cluster ++ (into ++ (target ++ rest)))).head?,
        isNameChar c = false := fun c hc =>
      isNameChar_of_isBlankChar (hblank.head?_append _ c hc)
    have htarget' : (target ++ rest).takeWhile isNameChar = target :=
      takeWhile_append_of_head? htarget.forall_mem hrest
    simp only [here?, Option.bind_eq_bind, Option.bind_some,
      wordAndBlank?_append hcreate (hmaterialized.startsSolid (by decide) _),
      wordAndBlank?_append hmaterialized (hview.startsSolid (by decide) _),
      wordAndBlank?_append hview (hexistence.startsSolid hname _),
      getD_ifNotExists? hexistence hname hblank hl hne hstarts,
      many?_append hname hnameEnds, many?_append hblank (hstarts.startsSolid hl),
      getD_onCluster? hcluster (by decide) (by decide) hinto,
      wordAndBlank?_append hto (htarget.startsSolid rest), htarget']
    rw [if_neg (by simpa using htarget.ne_nil)]

theorem find?_of_clause {target : List Char} (h : Clause target s) : find? s = some target := by
  have hhere := here?_of_clause h
  cases s with
  | nil => cases hhere
  | cons c s => rw [find?_cons, hhere, Option.some_or]

end ViewTarget

/-- The target of a clause that the text begins with is found. -/
theorem viewTarget?_of_clause {query : String} {target : List Char}
    (h : ViewTarget.Clause target query.toList) : viewTarget? query = some target :=
  ViewTarget.find?_of_clause h

end DdlOrder
