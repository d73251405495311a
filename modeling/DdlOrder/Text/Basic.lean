/-!
# Characters and texts

Classes of characters are tables of ranges of code points (`CharTable`), white space among them.
Texts are lists of characters: a text opens with another one or with a run of characters of one
class, and it divides into lines.

* `CharTable.contains_cons_of_lt`, `CharTable.contains_cons_of_ge`: a range beyond the character
  ends the search, and any other range either holds the character or leaves the search to the
  ranges after it;
* `isBlank_append`: a text put together from two is white space when both are;
* `afterOpening?_eq_some_iff`: what follows an opening is the rest of the text;
* `takeWhile_append_of_head?`, `dropWhile_append_of_head?`, `run_append_inj`: a run of characters
  at the beginning of a text ends where a character of another kind follows;
* `unlines_cons`, `linesOf_cons_line`: the first line comes first and ends in a line feed.
-/

namespace DdlOrder

/-! ## Classes of characters -/

/-- A set of characters, as ascending ranges of code points with both ends included. -/
abbrev CharTable := List (Nat × Nat)

/-- Whether the character lies in one of the ranges. The ranges ascend, so a
range that starts beyond the character ends the search. -/
def CharTable.contains : CharTable → Char → Bool
  | [], _ => false
  | (low, high) :: ranges, c =>
    if c.toNat < low then false else c.toNat ≤ high || CharTable.contains ranges c

theorem CharTable.contains_cons_of_lt {low high : Nat} {ranges : CharTable} {c : Char}
    (h : c.toNat < low) : CharTable.contains ((low, high) :: ranges) c = false := by
  simp [CharTable.contains, h]

theorem CharTable.contains_cons_of_ge {low high : Nat} {ranges : CharTable} {c : Char}
    (h : low ≤ c.toNat) : CharTable.contains ((low, high) :: ranges) c =
      (decide (c.toNat ≤ high) || CharTable.contains ranges c) := by
  simp [CharTable.contains, Nat.not_lt.2 h]

/-! ## White space -/

/-- The ranges of the Unicode class White_Space. -/
def blankChars : CharTable :=
  [(0x9, 0xd), (0x20, 0x20), (0x85, 0x85), (0xa0, 0xa0), (0x1680, 0x1680), (0x2000, 0x200a),
    (0x2028, 0x2029), (0x202f, 0x202f), (0x205f, 0x205f), (0x3000, 0x3000)]

/-- Whether the character is white space. -/
def isBlankChar (c : Char) : Bool := blankChars.contains c

/-- Whether the text holds nothing but white space. -/
def isBlank (s : String) : Bool := s.toList.all isBlankChar

/-- The text without white space at its ends. -/
def trimBlank (s : String) : String :=
  String.ofList (((s.toList.dropWhile isBlankChar).reverse.dropWhile isBlankChar).reverse)

theorem isBlank_append (s t : String) : isBlank (s ++ t) = (isBlank s && isBlank t) := by
  simp [isBlank]

/-! ## How a text opens -/

/-- What follows the opening in a text that begins with it. -/
def afterOpening? : List Char → List Char → Option (List Char)
  | [], s => some s
  | c :: opening, d :: s => if c = d then afterOpening? opening s else none
  | _ :: _, [] => none

theorem afterOpening?_eq_some_iff {opening s rest : List Char} :
    afterOpening? opening s = some rest ↔ s = opening ++ rest := by
  fun_induction afterOpening? opening s with
  | case1 s => simp
  | case2 c opening s ih => simp [ih]
  | case3 c opening d s h => simp [Ne.symm h]
  | case4 => simp

section Run

variable {p : Char → Bool} {run rest : List Char} (hrun : ∀ c ∈ run, p c = true)
  (hrest : ∀ c ∈ rest.head?, p c = false)

include hrun hrest

theorem takeWhile_append_of_head? : (run ++ rest).takeWhile p = run := by
  rw [List.takeWhile_append_of_pos hrun]
  cases rest with
  | nil => rw [List.takeWhile_nil, List.append_nil]
  | cons c rest =>
    rw [List.takeWhile_cons, hrest c rfl, if_neg Bool.false_ne_true, List.append_nil]

theorem dropWhile_append_of_head? : (run ++ rest).dropWhile p = rest := by
  rw [List.dropWhile_append_of_pos hrun]
  cases rest with
  | nil => rfl
  | cons c rest => rw [List.dropWhile_cons, hrest c rfl, if_neg Bool.false_ne_true]

/-- A run of characters ends in one place. -/
theorem run_append_inj {run' rest' : List Char} (hrun' : ∀ c ∈ run', p c = true)
    (hrest' : ∀ c ∈ rest'.head?, p c = false) (h : run ++ rest = run' ++ rest') :
    run = run' ∧ rest = rest' := by
  have htake := congrArg (List.takeWhile p) h
  have hdrop := congrArg (List.dropWhile p) h
  rw [takeWhile_append_of_head? hrun hrest, takeWhile_append_of_head? hrun' hrest'] at htake
  rw [dropWhile_append_of_head? hrun hrest, dropWhile_append_of_head? hrun' hrest'] at hdrop
  exact ⟨htake, hdrop⟩

end Run

/-! ## Lines -/

/-- A text of lines, each ended by a line feed. -/
def unlines (lines : List String) : String := String.join (lines.map (· ++ "\n"))

theorem unlines_cons (line : String) (lines : List String) :
    unlines (line :: lines) = line ++ "\n" ++ unlines lines := by
  simp [unlines, String.join_cons]

/-- The line without a carriage return at its end. -/
def dropReturn (line : List Char) : List Char :=
  if line.getLast? = some '\r' then line.dropLast else line

/-- The lines among the pieces of a text between its line feeds. Each piece but
the last was ended by a line feed, before which a carriage return goes as well;
the last one counts only if it is not empty. -/
def linesOf : List (List Char) → List (List Char)
  | [] => []
  | [last] => if last.isEmpty then [] else [last]
  | line :: next :: lines => dropReturn line :: linesOf (next :: lines)

theorem linesOf_cons_line (line next : List Char) (lines : List (List Char)) :
    linesOf (line :: next :: lines) = dropReturn line :: linesOf (next :: lines) := rfl

/-- The lines of a text, without their ends. -/
def textLines (s : String) : List String :=
  (linesOf (s.toList.splitOn '\n')).map String.ofList

end DdlOrder
