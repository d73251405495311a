import DdlOrder.Batch
import DdlOrder.Proofs.Kdl.Escape

/-!
# Printed batches read back

A printed batch has one line for each statement, which reads as four tokens. What these tokens
write is the batch again. Only a text with a character that `escape` leaves alone although no
string may hold it (`Kdl.strayChars`) spoils this: no tokens can be read of its line, and so
the document is refused as a whole.

* `Kdl.Token.next?_word`, `Kdl.Token.next?_escape`: a bare word and a string are read whole;
* `Batch.all?_print`: the tokens of a printed batch;
* `Batch.read_statementTokens`: the nodes that they write;
* `Batch.parse?_print`, `Batch.parse_print`: the document and the batch that are read back.
-/

namespace DdlOrder

namespace Kdl

/-! ## Tokens -/

namespace Token

variable {c d : Char} {s w rest : List Char} {v : Value}

theorem all?_cons (c : Char) (s : List Char) :
    all? (c :: s) = (next? c s).bind fun p => (all? p.2).map (p.1 :: ·) := by
  rw [all?]
  split <;> simp_all

theorem head_of_endsValue (h : endsValue rest) (hd : rest.head? = some d) :
    isBareChar d = false ∧ d ≠ '"' := by
  unfold endsValue at h
  split at h
  · cases h
  · cases hd
    simp only [Bool.not_eq_true', Bool.or_eq_false_iff] at h
    exact ⟨h.1.1.1, beq_eq_false_iff_ne.1 h.1.1.2⟩
  · cases hd

theorem next?_of_isBareChar (hc : isBareChar c) (s : List Char) :
    next? c s = (value? c s).map fun p => (.value false p.1, p.2) := by
  have hne : ∀ d, isPunctuation d = true → c ≠ d := fun d => ne_of_isBareChar hc
  simp only [isBareChar, Bool.not_eq_true', Bool.or_eq_false_iff] at hc
  obtain ⟨⟨⟨hline, hspace⟩, -⟩, -⟩ := hc
  unfold next?
  rw [hline, hspace, if_neg Bool.false_ne_true, if_neg Bool.false_ne_true]
  split
  all_goals first | exact absurd rfl (hne _ (by decide)) | rfl

theorem next?_space (s : List Char) : next? ' ' s = some (.gap, s) := rfl

theorem next?_quote (s : List Char) :
    next? '"' s = ((stringBody? [] .short .long s).bind fun p =>
      ended? (.text (String.ofList p.1), p.2)).map fun p => (.value false p.1, p.2) := rfl

theorem next?_lineFeed (s : List Char) : next? '\n' s = some (.lineEnd, s) := rfl

/-- A bare word is read as far as its characters go, if a value may end there. -/
theorem next?_word (hw : ∀ d ∈ c :: w, isBareChar d) (hv : bareValue? (c :: w) = some v)
    (hrest : endsValue rest) : next? c (w ++ rest) = some (.value false v, rest) := by
  obtain ⟨hc, hw⟩ := List.forall_mem_cons.1 hw
  have hstop : ∀ d ∈ rest.head?, isBareChar d = false :=
    fun d hd => (head_of_endsValue hrest hd).1
  have hquote : (c == '"') = false := beq_eq_false_iff_ne.2 (ne_of_isBareChar hc (by decide))
  have hhash : (c == '#') = false := beq_eq_false_iff_ne.2 (ne_of_isBareChar hc (by decide))
  rw [next?_of_isBareChar hc, value?, hquote, hhash, hc, takeWhile_append_of_head? hw hstop,
    dropWhile_append_of_head? hw hstop, hv]
  simp [ended?, hrest]

/-- A string that holds an escaped text is read as that text, if a value may end behind it and
no character of the text spoils it. -/
theorem next?_escape (s : List Char) (hrest : endsValue rest) :
    next? '"' (escape s ++ '"' :: rest) =
      if s.any strayChars.contains then none
      else some (.value false (.text (String.ofList s)), rest) := by
  rw [next?_quote, stringBody?_escape s fun h => (head_of_endsValue hrest h).2 rfl]
  split
  · rfl
  · simp [ended?, hrest]

end Token

/-- Without a backslash outside strings, each line stands on its own. -/
theorem joinLines?_of_notMem {ts : List Token} (h : Token.continuation ∉ ts) :
    joinLines? false ts = some ts := by
  induction ts with
  | nil => rfl
  | cons t ts ih =>
    obtain ⟨ht, hts⟩ := not_or.1 (mt List.mem_cons.2 h)
    cases t with
    | continuation => exact absurd rfl ht
    | _ => simp [joinLines?, ih hts]

end Kdl

namespace Batch

open Kdl (Token)

/-! ## The lines of a printed batch -/

/-- Whether a string can hold the text as `escape` writes it: it has no stray character. -/
def isWritable (query : String) : Bool := !query.toList.any Kdl.strayChars.contains

/-- The tokens of the line for a statement. -/
def statementTokens (query : String) : List Token :=
  [.value false (.text "statement"), .gap, .value false (.text query), .lineEnd]

/-- The node that the line for a statement writes. -/
def statementNode (query : String) : Kdl.Node := .mk "statement" [.argument (.text query)] []

theorem statementLine_toList (query : String) :
    (statementLine query).toList =
      's' :: ("tatement".toList ++ ' ' :: '"' :: (escape query.toList ++ ['"'])) := by
  simp [statementLine, stringLiteral]

theorem isBareChar_statement : ∀ c ∈ 's' :: "tatement".toList, Kdl.isBareChar c :=
  List.all_eq_true.1 (by decide)

theorem bareValue?_statement :
    Token.bareValue? ('s' :: "tatement".toList) = some (.text "statement") := by
  decide

theorem all?_statementLine (query : String) (rest : List Char) :
    Token.all? ((statementLine query).toList ++ '\n' :: rest) =
      if isWritable query then (Token.all? rest).map (statementTokens query ++ ·) else none := by
  rw [statementLine_toList]
  simp only [List.cons_append, List.append_assoc, List.nil_append]
  rw [Token.all?_cons, Token.next?_word isBareChar_statement bareValue?_statement rfl,
    Option.bind_some, Token.all?_cons, Token.next?_space, Option.bind_some, Token.all?_cons,
    Token.next?_escape _ rfl, isWritable]
  cases query.toList.any Kdl.strayChars.contains with
  | true => rfl
  | false =>
    simp only [Bool.not_false, if_true, Bool.false_eq_true, if_false, Option.bind_some, Token.all?_cons,
      Token.next?_lineFeed, Option.map_map, String.ofList_toList]
    rfl

/-- A document is refused from the first line that has no tokens. -/
theorem all?_print (queries : List String) :
    Token.all? (print queries).toList =
      if queries.all isWritable then some (queries.flatMap statementTokens) else none := by
  induction queries with
  | nil => simp [print, unlines, Token.all?]
  | cons query queries ih =>
    rw [print_cons, String.toList_append, String.toList_append, List.append_assoc, String.toList_ofList,
      List.singleton_append, all?_statementLine, ih, List.all_cons, List.flatMap_cons]
    cases isWritable query <;> cases queries.all isWritable <;> rfl

/-! ## The document of a printed batch -/

theorem tidy?_flatMap_statementTokens (queries : List String) :
    Kdl.tidy? (queries.flatMap statementTokens) = some (queries.flatMap statementTokens) := by
  induction queries with
  | nil => rfl
  | cons query queries ih =>
    rw [Kdl.tidy?] at ih ⊢
    rw [List.flatMap_cons, List.foldr_append, ih]
    rfl

/-- The tokens of a line add its node to those before it, and another node may follow. -/
theorem read_statementTokens (done : List Kdl.Node) (query : String) (ts : List Token) :
    Kdl.read [] done (.between true) (statementTokens query ++ ts) =
      Kdl.read [] (done ++ [statementNode query]) (.between true) ts := by
  simp only [statementTokens, List.cons_append, List.nil_append, Kdl.read]
  rfl

theorem read_flatMap_statementTokens (done : List Kdl.Node) (queries : List String) :
    Kdl.read [] done (.between true) (queries.flatMap statementTokens) =
      some (done ++ queries.map statementNode) := by
  induction queries generalizing done with
  | nil =>
    rw [List.flatMap_nil, Kdl.read_nil, List.map_nil, List.append_nil]
    rfl
  | cons query queries ih =>
    rw [List.flatMap_cons, read_statementTokens, ih, List.append_assoc]
    rfl

theorem parse?_print (queries : List String) :
    Kdl.Document.parse? (print queries).toList =
      if queries.all isWritable then some (queries.map statementNode) else none := by
  have hmark : Kdl.dropMark (print queries).toList = (print queries).toList := by
    cases queries with
    | nil => rfl
    | cons query queries =>
      rw [print_cons, String.toList_append, String.toList_append, statementLine_toList]
      rfl
  have hjoin : Kdl.joinLines? false (queries.flatMap statementTokens) =
      some (queries.flatMap statementTokens) :=
    Kdl.joinLines?_of_notMem (by simp [statementTokens])
  rw [Kdl.Document.parse?, hmark, all?_print]
  cases queries.all isWritable with
  | false => rfl
  | true =>
    simp only [if_true, Option.bind_some, hjoin, tidy?_flatMap_statementTokens,
      read_flatMap_statementTokens, List.nil_append]

theorem ofDocument_statementNodes (queries : List String) :
    ofDocument (queries.map statementNode) = .ok (queries.map fun query => { query }) := by
  induction queries with
  | nil => rfl
  | cons query queries ih =>
    rw [ofDocument] at ih ⊢
    rw [List.map_cons, List.mapM_cons, ih]
    rfl

/-- A printed batch reads back, statement by statement and without any dump, exactly if none
of the texts has a stray character. Otherwise the document is refused. -/
theorem parse_print (queries : List String) :
    parse (print queries) =
      if queries.all isWritable then .ok (queries.map fun query => { query })
      else .error (.document .notKdl) := by
  rw [parse, parse?_print]
  cases queries.all isWritable with
  | true => simp only [if_true, ofDocument_statementNodes]
  | false => rfl

/-- The line separator is such a character, so not every printed batch can be read. -/
theorem not_parse_print_lineSeparator :
    ¬ ∀ queries, parse (print queries) = .ok (queries.map fun query => { query }) := by
  intro h
  have hread := h ["a\u2028b"]
  rw [parse, parse?_print] at hread
  cases hread

end Batch

end DdlOrder
