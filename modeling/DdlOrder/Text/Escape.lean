import DdlOrder.Text.Hidden

/-!
# Quoted and escaped text

A message quotes a dump line between double quotes, so that each character of it shows: the quote
and the backslash have a backslash before them, tab, line feed, carriage return and NUL have a
letter of their own, and any other character that would not show is written by its code point.

The strings of a printed document stand between double quotes, too. `escape` writes the backslash,
the double quote and the control characters of a text as escape sequences and leaves every other
character alone.

Code points are written as hexadecimal digits without leading zeros, and read back from digits of
either case.

* `hexValue?_append_singleton`: a further digit multiplies by sixteen and adds;
* `quoted_toList`: the quoted text is the written characters between two quotes;
* `escape_append`: a text is escaped character by character.
-/

namespace DdlOrder

/-! ## Hexadecimal numbers -/

/-- The number in lower-case hexadecimal digits, without leading zeros. -/
def hexDigits (n : Nat) : List Char := Nat.toDigits 16 n

/-- The value of a hexadecimal digit of either case. -/
def hexDigitValue? (c : Char) : Option Nat :=
  if '0' ≤ c ∧ c ≤ '9' then some (c.toNat - '0'.toNat)
  else if 'a' ≤ c ∧ c ≤ 'f' then some (c.toNat - 'a'.toNat + 10)
  else if 'A' ≤ c ∧ c ≤ 'F' then some (c.toNat - 'A'.toNat + 10)
  else none

/-- The number that the digits write, unless one of them is no digit. -/
def hexValue? (digits : List Char) : Option Nat :=
  digits.foldlM (fun n c => (hexDigitValue? c).map (16 * n + ·)) 0

theorem hexValue?_append_singleton (digits : List Char) (c : Char) :
    hexValue? (digits ++ [c]) =
      (hexValue? digits).bind fun n => (hexDigitValue? c).map (16 * n + ·) := by
  simp [hexValue?]

/-! ## Quoted text in messages -/

/-- A character by its code point, as in `\u{200b}`. -/
def codePointEscape (c : Char) : List Char :=
  ['\\', 'u', '\x7b'] ++ hexDigits c.toNat ++ ['\x7d']

/-- How one character is written between the quotes. -/
def quotedChar (c : Char) : List Char :=
  if c = '"' then ['\\', '"']
  else if c = '\\' then ['\\', '\\']
  else if c = '\t' then ['\\', 't']
  else if c = '\r' then ['\\', 'r']
  else if c = '\n' then ['\\', 'n']
  else if c = '\x00' then ['\\', '0']
  else if isHidden c then codePointEscape c
  else [c]

/-- The text between double quotes, each character of it made visible. -/
def quoted (s : String) : String :=
  String.ofList ('"' :: s.toList.flatMap quotedChar ++ ['"'])

theorem quoted_toList (s : String) :
    (quoted s).toList = '"' :: (s.toList.flatMap quotedChar ++ ['"']) := by
  simp [quoted]

/-! ## Escaped text in documents -/

/-- Whether the character is a control character (the category Cc). -/
def isControl (c : Char) : Bool :=
  c.toNat < 0x20 || (0x7f ≤ c.toNat && c.toNat ≤ 0x9f)

/-- How one character is written in a document's string. -/
def escapeChar (c : Char) : List Char :=
  if c = '\\' then ['\\', '\\']
  else if c = '"' then ['\\', '"']
  else if c = '\n' then ['\\', 'n']
  else if c = '\r' then ['\\', 'r']
  else if c = '\t' then ['\\', 't']
  else if isControl c then codePointEscape c
  else [c]

/-- The characters of a text as they are written in a document's string. -/
def escape (s : List Char) : List Char := s.flatMap escapeChar

theorem escape_append (s t : List Char) : escape (s ++ t) = escape s ++ escape t := by
  simp [escape]

/-- The text as a string of a document, between double quotes. -/
def stringLiteral (s : String) : String :=
  String.ofList ('"' :: escape s.toList ++ ['"'])

end DdlOrder
