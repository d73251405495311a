import DdlOrder.Kdl.Text
import Mathlib.Data.List.Induction

/-!
# Between the quotes of a string

A text can stand between the quotes of a string (`Kdl.QuotedBody`) if each backslash takes the
character behind it along and no other character is a quote. `Kdl.Decodes` says what it stands
for, if it uses the escape sequences of printed texts only.

* `hexValue?_hexDigits`, `isSome_hexDigitValue?_of_mem`, `of_isSome_hexDigitValue?`: a number reads
  back from its digits, what writes a number are digits, and what is to be shown of a digit can be
  computed;
* `Kdl.QuotedBody.bodyUntil?`: the string ends at the quote behind the text;
* `Kdl.QuotedBody.odd_slashesAtEnd`: a quote in the text has an odd run of backslashes before it;
* `Kdl.Decodes.unescape?`, `Kdl.Decodes.unique`: the reader of documents finds the one text that
  it stands for.
-/

namespace DdlOrder

/-! ## Hexadecimal digits -/

section Hex

variable {c : Char} {n : Nat}

theorem hexDigitValue?_digitChar : ∀ d < 16, hexDigitValue? (Nat.digitChar d) = some d := by
  decide

theorem hexDigits_of_lt (h : n < 16) : hexDigits n = [Nat.digitChar n] :=
  Nat.toDigits_of_lt_base h

theorem hexDigits_of_le (h : 16 ≤ n) :
    hexDigits n = hexDigits (n / 16) ++ [Nat.digitChar (n % 16)] :=
  Nat.toDigits_of_base_le (by decide) h

theorem hexValue?_hexDigits (n : Nat) : hexValue? (hexDigits n) = some n := by
  induction n using Nat.strongRecOn with
  | ind n ih =>
    rcases Nat.lt_or_ge n 16 with hn | hn
    · rw [hexDigits_of_lt hn, ← List.nil_append [_], hexValue?_append_singleton,
        hexDigitValue?_digitChar n hn]
      exact congrArg some (Nat.zero_add n)
    · rw [hexDigits_of_le hn, hexValue?_append_singleton, ih _ (by omega),
        hexDigitValue?_digitChar _ (Nat.mod_lt n (by decide))]
      exact congrArg some (Nat.div_add_mod n 16)

/-- The characters that write a number are digits. The induction goes from the last one down, as
each digit is read behind those before it. -/
theorem isSome_hexDigitValue?_of_mem {digits : List Char} (h : hexValue? digits = some n)
    (hc : c ∈ digits) : (hexDigitValue? c).isSome := by
  induction digits using List.reverseRecOn generalizing n with
  | nil => cases hc
  | append_singleton digits d ih =>
    rw [hexValue?_append_singleton] at h
    obtain ⟨m, hm, hd⟩ := Option.bind_eq_some_iff.1 h
    obtain ⟨v, hv, -⟩ := Option.map_eq_some_iff.1 hd
    rcases List.mem_append.1 hc with hc | hc
    · exact ih hm hc
    · rw [List.mem_singleton.1 hc, hv]
      rfl

theorem toNat_lt_of_isSome_hexDigitValue? (h : (hexDigitValue? c).isSome) : c.toNat < 0x80 := by
  refine Nat.lt_of_not_le fun hge => ?_
  have hle : ∀ d : Char, d.toNat < 0x80 → ¬ c ≤ d := fun d hd hc =>
    absurd (Nat.lt_of_le_of_lt hc hd) (Nat.not_lt.2 hge)
  rw [hexDigitValue?, if_neg fun hc => hle '9' (by decide) hc.2,
    if_neg fun hc => hle 'f' (by decide) hc.2, if_neg fun hc => hle 'F' (by decide) hc.2] at h
  cases h

/-- What holds of the digits among the first characters holds of every digit. -/
theorem of_isSome_hexDigitValue? {p : Char → Prop}
    (hp : ∀ k < 0x80, (hexDigitValue? (Char.ofNat k)).isSome → p (Char.ofNat k))
    (h : (hexDigitValue? c).isSome) : p c := by
  have hc := hp c.toNat (toNat_lt_of_isSome_hexDigitValue? h)
  rw [Char.ofNat_toNat] at hc
  exact hc h

end Hex

namespace Kdl

variable {c : Char} {s t rest : List Char}

theorem ne_of_isBareChar {d : Char} (h : isBareChar c) (hd : isPunctuation d) : c ≠ d := by
  rintro rfl
  simp [isBareChar, hd] at h

/-! ## Runs of backslashes -/

/-- How many backslashes the text ends with. -/
def slashesAtEnd (s : List Char) : Nat := (s.reverse.takeWhile (· == '\\')).length

theorem slashesAtEnd_le (s : List Char) : slashesAtEnd s ≤ s.length := by
  have h := (List.takeWhile_prefix (· == '\\') (l := s.reverse)).length_le
  rwa [List.length_reverse] at h

/-- A character before a text lengthens the run at its end only if it is a backslash and there
is nothing but backslashes behind it. -/
theorem slashesAtEnd_cons (c : Char) (s : List Char) : slashesAtEnd (c :: s) =
    if slashesAtEnd s = s.length ∧ c = '\\' then s.length + 1 else slashesAtEnd s := by
  have hrun : (s.reverse.takeWhile (· == '\\')).length = slashesAtEnd s := rfl
  rw [slashesAtEnd, List.reverse_cons, List.takeWhile_append, List.length_reverse, hrun]
  by_cases hall : slashesAtEnd s = s.length
  · by_cases hc : c = '\\' <;> simp [hall, hc]
  · rw [if_neg hall, if_neg fun h => hall h.1, hrun]

/-- A backslash and the character behind it lengthen the run by two or, if it does not reach
back to them, not at all. -/
theorem slashesAtEnd_pair (c : Char) (s : List Char) : slashesAtEnd ('\\' :: c :: s) =
    if slashesAtEnd s = s.length ∧ c = '\\' then s.length + 2 else slashesAtEnd s := by
  have hle := slashesAtEnd_le s
  rw [slashesAtEnd_cons, slashesAtEnd_cons, List.length_cons]
  by_cases hrun : slashesAtEnd s = s.length ∧ c = '\\'
  · rw [if_pos hrun, if_pos hrun, if_pos ⟨rfl, rfl⟩]
  · rw [if_neg hrun, if_neg hrun, if_neg fun h => absurd h.1 (by omega)]

/-! ## Between the quotes -/

/-- A text that can stand between the quotes of a string: a backslash takes the character
behind it along, which is no white space, and no other character is a quote. -/
inductive QuotedBody : List Char → Prop where
  | nil : QuotedBody []
  | plain {c : Char} {s : List Char} : c ≠ '\\' → c ≠ '"' → QuotedBody s → QuotedBody (c :: s)
  | escaped {c : Char} {s : List Char} :
    isWhite c = false → QuotedBody s → QuotedBody ('\\' :: c :: s)

namespace QuotedBody

theorem append (hs : QuotedBody s) (ht : QuotedBody t) : QuotedBody (s ++ t) := by
  induction hs with
  | nil => exact ht
  | plain hslash hquote _ ih => exact .plain hslash hquote ih
  | escaped hwhite _ ih => exact .escaped hwhite ih

theorem of_forall_isBareChar (h : ∀ c ∈ s, isBareChar c) : QuotedBody s := by
  induction s with
  | nil => exact .nil
  | cons c s ih =>
    obtain ⟨hc, hs⟩ := List.forall_mem_cons.1 h
    exact .plain (ne_of_isBareChar hc (by decide)) (ne_of_isBareChar hc (by decide)) (ih hs)

/-- The string ends at the quote behind its body. -/
theorem bodyUntil? (h : QuotedBody s) (rest : List Char) :
    Kdl.bodyUntil? ['"'] (· == '\\') (s ++ '"' :: rest) = some (s, rest) := by
  induction h with
  | nil => rfl
  | @plain c s hslash hquote _ ih =>
    rw [List.cons_append, Kdl.bodyUntil?.eq_def]
    simp only [DdlOrder.afterOpening?, if_neg (Ne.symm hquote), beq_eq_false_iff_ne.2 hslash, ih]
    rfl
  | escaped _ _ ih =>
    simp only [List.cons_append, Kdl.bodyUntil?, ih]
    rfl

/-- No backslash stands before white space, so none removes any. -/
theorem dropSpaceEscapes (h : QuotedBody s) : Kdl.dropSpaceEscapes false s = s := by
  induction h with
  | nil => rfl
  | @plain c s hslash _ _ ih =>
    cases s with
    | nil => rfl
    | cons d s => rw [Kdl.dropSpaceEscapes, if_neg (by simp), if_neg (by simpa using hslash), ih]
  | escaped hwhite _ ih =>
    rw [Kdl.dropSpaceEscapes, if_neg (by simp), if_pos (by decide), hwhite, ih]
    rfl

/-- A string that does not go on with a quote right behind its own does not open the long
form. -/
theorem afterOpening? (h : QuotedBody s) (hrest : rest.head? ≠ some '"') :
    DdlOrder.afterOpening? ['"', '"'] (s ++ '"' :: rest) = none := by
  cases h with
  | nil =>
    cases rest with
    | nil => rfl
    | cons c rest =>
      have hc : '"' ≠ c := fun hc => hrest (congrArg some hc.symm)
      simp [DdlOrder.afterOpening?, hc]
  | plain _ hquote _ => simp [DdlOrder.afterOpening?, Ne.symm hquote]
  | escaped => rfl

/-- A quote in the body is one that a backslash takes along, so the run of backslashes before it
is made of pairs and this last one. -/
theorem odd_slashesAtEnd (h : QuotedBody s) {before after : List Char}
    (hquote : s = before ++ '"' :: after) : slashesAtEnd before % 2 = 1 := by
  -- On the body: what stands before the quote loses at its front what the body loses.
  induction h generalizing before with
  | nil => cases before <;> cases hquote
  | @plain c s hslash hplain _ ih =>
    cases before with
    | nil => exact absurd (List.cons.inj hquote).1 hplain
    | cons d before =>
      obtain ⟨rfl, hs⟩ := List.cons.inj hquote
      rw [slashesAtEnd_cons, if_neg fun hc => hslash hc.2]
      exact ih hs
  | @escaped c s _ _ ih =>
    match before with
    | [] => cases hquote
    | ['\\'] => rfl
    | d :: e :: before =>
      obtain ⟨rfl, hpair⟩ := List.cons.inj hquote
      obtain ⟨rfl, hs⟩ := List.cons.inj hpair
      have hodd := ih hs
      rw [slashesAtEnd_pair]
      split
      · omega
      · exact hodd

end QuotedBody

/-! ## Decoding -/

/-- The letters that an escaped text uses behind a backslash, each with what it stands for. -/
def writtenLetters : List (Char × Char) :=
  [('\\', '\\'), ('"', '"'), ('n', '\n'), ('r', '\r'), ('t', '\t')]

/-- What the text between two quotes stands for, read from left to right, if it uses no escape
sequences but these letters and code points. -/
inductive Decodes : List Char → List Char → Prop where
  | nil : Decodes [] []
  | plain {c : Char} {s t : List Char} (hslash : c ≠ '\\') (hquote : c ≠ '"') (h : Decodes s t) :
    Decodes (c :: s) (c :: t)
  | letter {l c : Char} {s t : List Char} (hletter : (l, c) ∈ writtenLetters) (h : Decodes s t) :
    Decodes ('\\' :: l :: s) (c :: t)
  | codePoint {digits : List Char} {c : Char} {s t : List Char}
    (hdigits : codePoint? digits = some c) (h : Decodes s t) :
    Decodes ('\\' :: 'u' :: '\x7b' :: (digits ++ '\x7d' :: s)) (c :: t)

theorem letterEscape?_of_mem {p : Char × Char} (h : p ∈ writtenLetters) :
    letterEscape? p.1 = some p.2 := by
  have hall : ∀ p ∈ writtenLetters, letterEscape? p.1 = some p.2 := by decide
  exact hall p h

/-- No letter that stands for a character behind a backslash is white space. -/
theorem isWhite_of_letterEscape? {letter : Char} (h : letterEscape? letter = some c) :
    isWhite letter = false := by
  unfold letterEscape? at h
  split at h <;> first | decide | cases h

theorem unescape?_letter {letter : Char} (h : letterEscape? letter = some c) (rest : List Char) :
    unescape? ('\\' :: letter :: rest) = (c :: ·) <$> unescape? rest := by
  rw [unescape?, if_neg (by rw [isWhite_of_letterEscape? h]; decide), h]
  · rfl
  · rintro _ rfl
    cases h

/-- The digits of a code point may stand in a bare word, so none of them ends an escape sequence
or a string. -/
theorem isBareChar_of_codePoint? {digits : List Char} {d : Char} (h : codePoint? digits = some c)
    (hd : d ∈ digits) : isBareChar d := by
  unfold codePoint? at h
  split at h
  · obtain ⟨n, hn, -⟩ := Option.bind_eq_some_iff.1 h
    exact of_isSome_hexDigitValue? (p := (isBareChar ·)) (by decide)
      (isSome_hexDigitValue?_of_mem hn hd)
  · cases h

theorem unescape?_codePoint {digits : List Char} (h : codePoint? digits = some c)
    (rest : List Char) :
    unescape? ('\\' :: 'u' :: '\x7b' :: (digits ++ '\x7d' :: rest)) =
      (c :: ·) <$> unescape? rest := by
  have hdigit : ∀ d ∈ digits, (d != '\x7d') = true := fun d hd =>
    bne_iff_ne.2 (ne_of_isBareChar (isBareChar_of_codePoint? h hd) (by decide))
  rw [unescape?, List.dropWhile_append_of_pos hdigit, List.takeWhile_append_of_pos hdigit]
  split
  · rename_i hdrop
    cases hdrop
  · rename_i hdrop
    cases hdrop
    simp [h]

namespace Decodes

theorem quotedBody (h : Decodes s t) : QuotedBody s := by
  induction h with
  | nil => exact .nil
  | plain hslash hquote _ ih => exact .plain hslash hquote ih
  | letter hletter _ ih =>
    exact .escaped (isWhite_of_letterEscape? (letterEscape?_of_mem hletter)) ih
  | codePoint hdigits _ ih =>
    have hbare := QuotedBody.of_forall_isBareChar fun _ => isBareChar_of_codePoint? hdigits
    refine .escaped (by decide) (.plain (by decide) (by decide) (hbare.append ?_))
    exact .plain (by decide) (by decide) ih

/-- The reader of documents agrees. -/
theorem unescape? (h : Decodes s t) : Kdl.unescape? s = some t := by
  induction h with
  | nil => rw [Kdl.unescape?]
  | plain hslash _ _ ih =>
    rw [unescape?_cons_plain hslash, ih]
    rfl
  | letter hletter _ ih =>
    rw [unescape?_letter (letterEscape?_of_mem hletter), ih]
    rfl
  | codePoint hdigits _ ih =>
    rw [unescape?_codePoint hdigits, ih]
    rfl

theorem unique {t' : List Char} (h : Decodes s t) (h' : Decodes s t') : t = t' :=
  Option.some.inj (h.unescape?.symm.trans h'.unescape?)

end Decodes

end Kdl

end DdlOrder
