import DdlOrder.Proofs.Kdl.QuotedBody
import DdlOrder.Proofs.Text.Lines

/-!
# Escaped text reads back

What `escape` writes can stand between the quotes of a string (`Kdl.QuotedBody`), and decoding
it (`Kdl.Decodes`) gives the text back. A string may still be refused for a character that
`escape` leaves alone although no string may hold it (`Kdl.strayChars`).

* `Kdl.escapeChar_eq_or_printable`, `Kdl.any_isControl_escape`: escape sequences are made of
  printable characters, and no control character is left;
* `Kdl.decodes_escape`, `Kdl.unescape?_escape`, `Kdl.escape_append_inj`: a text reads back from its
  escaped form, which ends at the quote behind it;
* `Kdl.any_isBarred_escape`: which characters of a text no string can hold;
* `Kdl.stringBody?_escape`: what is read of the string that an escaped text was put in;
* `stringLiteral_append_inj`, `hasControl_stringLiteral`: a string of a document can be told from
  what follows it, and stands on one line.
-/

namespace DdlOrder

namespace Kdl

variable {c : Char} {s t rest : List Char}

/-! ## Written characters -/

/-- A character is written as itself, as a letter behind a backslash, or by its code point. -/
theorem escapeChar_cases (c : Char) :
    (escapeChar c = [c] ∧ c ≠ '\\' ∧ c ≠ '"' ∧ isControl c = false) ∨
      (∃ letter, escapeChar c = ['\\', letter] ∧ (letter, c) ∈ writtenLetters) ∨
      (escapeChar c = codePointEscape c ∧ isControl c = true) := by
  by_cases hslash : c = '\\'
  · subst c
    exact .inr (.inl ⟨'\\', rfl, by decide⟩)
  by_cases hquote : c = '"'
  · subst c
    exact .inr (.inl ⟨'"', rfl, by decide⟩)
  by_cases hline : c = '\n'
  · subst c
    exact .inr (.inl ⟨'n', rfl, by decide⟩)
  by_cases hreturn : c = '\r'
  · subst c
    exact .inr (.inl ⟨'r', rfl, by decide⟩)
  by_cases htab : c = '\t'
  · subst c
    exact .inr (.inl ⟨'t', rfl, by decide⟩)
  rw [escapeChar, if_neg hslash, if_neg hquote, if_neg hline, if_neg hreturn, if_neg htab]
  cases hcontrol : isControl c with
  | true => exact .inr (.inr ⟨if_pos rfl, rfl⟩)
  | false => exact .inl ⟨if_neg Bool.false_ne_true, hslash, hquote, rfl⟩

/-- Whether the character is printed and in ASCII, as escape sequences are. -/
def isPrintable (c : Char) : Bool := 0x20 ≤ c.toNat && c.toNat < 0x7f

theorem isControl_of_isPrintable (h : isPrintable c) : isControl c = false := by
  simp only [isPrintable, Bool.and_eq_true, decide_eq_true_eq] at h
  simp only [isControl, Bool.or_eq_false_iff, Bool.and_eq_false_iff, decide_eq_false_iff_not]
  omega

theorem all_isPrintable_codePointEscape (c : Char) : (codePointEscape c).all isPrintable := by
  have hdigits : (hexDigits c.toNat).all isPrintable := List.all_eq_true.2 fun d hd =>
    of_isSome_hexDigitValue? (p := (isPrintable ·)) (by decide)
      (isSome_hexDigitValue?_of_mem (hexValue?_hexDigits c.toNat) hd)
  rw [codePointEscape, List.all_append, List.all_append, hdigits]
  decide

/-- A character is written as itself, or it is one of the first 160 and an escape sequence of
printable characters stands for it. -/
theorem escapeChar_eq_or_printable (c : Char) :
    (escapeChar c = [c] ∧ isControl c = false) ∨
      ((escapeChar c).all isPrintable ∧ c.toNat < 0xa0) := by
  obtain ⟨h, -, -, hc⟩ | ⟨letter, h, hc⟩ | ⟨h, hc⟩ := escapeChar_cases c
  · exact .inl ⟨h, hc⟩
  · have hall : ∀ p ∈ writtenLetters, ['\\', p.1].all isPrintable ∧ p.2.toNat < 0xa0 := by decide
    rw [h]
    exact .inr (hall (letter, c) hc)
  · simp only [isControl, Bool.or_eq_true, Bool.and_eq_true, decide_eq_true_eq] at hc
    rw [h]
    exact .inr ⟨all_isPrintable_codePointEscape c, by omega⟩

theorem any_isControl_escapeChar (c : Char) : (escapeChar c).any isControl = false := by
  rcases escapeChar_eq_or_printable c with ⟨h, hc⟩ | ⟨h, -⟩
  · rw [h, List.any_cons, List.any_nil, hc, Bool.or_false]
  · exact List.any_eq_false.2 fun d hd =>
      Bool.not_eq_true _ ▸ isControl_of_isPrintable (List.all_eq_true.1 h d hd)

theorem any_isControl_escape (s : List Char) : (escape s).any isControl = false := by
  rw [escape, List.any_flatMap, List.any_eq_false]
  intro c _
  rw [any_isControl_escapeChar]
  exact Bool.false_ne_true

/-! ## Decoding -/

theorem codePoint?_hexDigits (c : Char) : codePoint? (hexDigits c.toNat) = some c := by
  have hvalid : c.toNat.isValidChar := c.valid
  have hlen : (hexDigits c.toNat).length ≤ 6 :=
    (Nat.length_toDigits_le_iff (by decide) (by decide)).2
      (by rcases hvalid with h | h <;> omega)
  rw [codePoint?, if_pos ⟨Nat.length_toDigits_pos, hlen⟩, hexValue?_hexDigits, Option.bind_some,
    if_pos hvalid, Char.ofNat_toNat]

theorem decodes_escapeChar (c : Char) (h : Decodes s t) : Decodes (escapeChar c ++ s) (c :: t) := by
  obtain ⟨hc, hslash, hquote, -⟩ | ⟨letter, hc, hletter⟩ | ⟨hc, -⟩ := escapeChar_cases c <;> rw [hc]
  · exact .plain hslash hquote h
  · exact .letter hletter h
  · rw [codePointEscape, List.append_assoc]
    exact .codePoint (codePoint?_hexDigits c) h

theorem decodes_escape (s : List Char) : Decodes (escape s) s := by
  induction s with
  | nil => exact .nil
  | cons c s ih =>
    rw [escape, List.flatMap_cons]
    exact decodes_escapeChar c ih

theorem quotedBody_escape (s : List Char) : QuotedBody (escape s) := (decodes_escape s).quotedBody

theorem unescape?_escape (s : List Char) : unescape? (escape s) = some s :=
  (decodes_escape s).unescape?

/-- An escaped text ends at the quote behind it, and no other text is written alike. -/
theorem escape_append_inj {rest' : List Char}
    (h : escape s ++ '"' :: rest = escape t ++ '"' :: rest') : s = t ∧ rest = rest' := by
  have hbody := (quotedBody_escape s).bodyUntil? rest
  rw [h, (quotedBody_escape t).bodyUntil? rest', Option.some.injEq, Prod.mk.injEq] at hbody
  have htext := unescape?_escape s
  rw [← hbody.1, unescape?_escape, Option.some.injEq] at htext
  exact ⟨htext.symm, hbody.2.symm⟩

/-! ## Characters that no string may hold -/

/-- Whether the character may not stand in a string on one line. -/
def isBarred (c : Char) : Bool := isForbidden c || isNewline c

/-- The characters that may not stand in a string on one line and that `escape` leaves alone,
as they are no control characters: marks of the direction of writing, the line and the
paragraph separator, and the byte order mark. -/
def strayChars : CharTable :=
  [(0x200e, 0x200f), (0x2028, 0x202e), (0x2066, 0x2069), (0xfeff, 0xfeff)]

theorem any_isBarred (s : List Char) : s.any isBarred = (s.any isForbidden || s.any isNewline) := by
  induction s with
  | nil => rfl
  | cons c s ih =>
    simp only [List.any_cons, ih, isBarred]
    ac_rfl

theorem strayChars_of_lt (h : c.toNat < 0x200e) : strayChars.contains c = false :=
  CharTable.contains_cons_of_lt h

theorem isBarred_eq_strayChars (h : isControl c = false) :
    isBarred c = strayChars.contains c := by
  simp only [isControl, Bool.or_eq_false_iff, Bool.and_eq_false_iff, decide_eq_false_iff_not] at h
  rw [Bool.eq_iff_iff]
  simp only [isBarred, isForbidden, forbiddenChars, isNewline, strayChars, CharTable.contains,
    Bool.or_eq_true, beq_iff_eq, ← Char.toNat_inj, Char.reduceToNat]
  grind

theorem isBarred_of_isPrintable (h : isPrintable c) : isBarred c = false := by
  rw [isBarred_eq_strayChars (isControl_of_isPrintable h)]
  simp only [isPrintable, Bool.and_eq_true, decide_eq_true_eq] at h
  exact strayChars_of_lt (by omega)

theorem any_isBarred_escapeChar (c : Char) :
    (escapeChar c).any isBarred = strayChars.contains c := by
  rcases escapeChar_eq_or_printable c with ⟨h, hc⟩ | ⟨h, hc⟩
  · rw [h, List.any_cons, List.any_nil, Bool.or_false, isBarred_eq_strayChars hc]
  · rw [strayChars_of_lt (by omega)]
    exact List.any_eq_false.2 fun d hd =>
      Bool.not_eq_true _ ▸ isBarred_of_isPrintable (List.all_eq_true.1 h d hd)

/-- An escaped text holds a character that no string may hold exactly if the text has one that
`escape` leaves alone. -/
theorem any_isBarred_escape (s : List Char) :
    (escape s).any isBarred = s.any strayChars.contains := by
  rw [escape, List.any_flatMap]
  exact congrArg s.any (funext any_isBarred_escapeChar)

/-! ## Reading the string -/

/-- The string that an escaped text was put in stands for that text, unless the text has a
character that no string may hold. -/
theorem stringBody?_escape (s : List Char) (hrest : rest.head? ≠ some '"') :
    stringBody? [] .short .long (escape s ++ '"' :: rest) =
      if s.any strayChars.contains then none else some (s, rest) := by
  have hbody := quotedBody_escape s
  rw [stringBody?, hbody.afterOpening? hrest, Option.bind_none, BodyForm.read?]
  simp only [BodyForm.short, hbody.bodyUntil?, Option.bind_some, shortText?,
    hbody.dropSpaceEscapes, unescape?_escape, ← any_isBarred_escape, any_isBarred]
  cases (escape s).any isForbidden <;> cases (escape s).any isNewline <;> rfl

end Kdl

/-! ## Strings of a document -/

theorem toList_stringLiteral_append (s r : String) :
    (stringLiteral s ++ r).toList = '"' :: (escape s.toList ++ '"' :: r.toList) := by
  rw [String.toList_append, stringLiteral, String.toList_ofList, List.append_assoc]
  rfl

theorem stringLiteral_append_inj {s t r r' : String}
    (h : stringLiteral s ++ r = stringLiteral t ++ r') : s = t ∧ r = r' := by
  have hlists := congrArg String.toList h
  rw [toList_stringLiteral_append, toList_stringLiteral_append] at hlists
  obtain ⟨htext, hrest⟩ := Kdl.escape_append_inj (List.cons.inj hlists).2
  exact ⟨String.toList_inj.1 htext, String.toList_inj.1 hrest⟩

theorem hasControl_stringLiteral (s : String) : hasControl (stringLiteral s) = false := by
  rw [hasControl, stringLiteral, String.toList_ofList, List.any_append, List.any_cons,
    Kdl.any_isControl_escape]
  decide

end DdlOrder
