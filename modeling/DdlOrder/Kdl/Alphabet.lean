import DdlOrder.Text.Basic

/-!
# The alphabet of KDL

Which characters break lines, separate words, may stand in a bare word, or must
not stand in a value at all.

The classes are those of version 2 of the language, but not its rule about the
characters that must not stand in a document: U+007F is a character like any other
here, and the others may stand in comments.

* `Kdl.not_isBareChar_of_isNewline`, `Kdl.not_isBareChar_of_isSpace`: a bare word
  ends at the end of its line and at a space.
-/

namespace DdlOrder.Kdl

/-- Whether the character breaks lines. A carriage return and the line feed right
after it break one line. -/
def isNewline (c : Char) : Bool :=
  c == '\n' || c == '\r' || c == '\u0085' || c == '\x0b' || c == '\x0c' || c == '\u2028' ||
    c == '\u2029'

/-- The ranges of the characters that separate words on a line. -/
def spaceChars : CharTable :=
  [(0x9, 0x9), (0x20, 0x20), (0xa0, 0xa0), (0x1680, 0x1680), (0x2000, 0x200a), (0x202f, 0x202f),
    (0x205f, 0x205f), (0x3000, 0x3000)]

/-- Whether the character separates words on a line. -/
def isSpace (c : Char) : Bool := spaceChars.contains c

/-- Whether the character is white space: it separates words or breaks lines. -/
def isWhite (c : Char) : Bool := isSpace c || isNewline c

/-- The ranges of the characters that must stand nowhere but in comments. In a
quoted string they may be written as escape sequences. -/
def forbiddenChars : CharTable :=
  [(0x0, 0x8), (0xe, 0x1f), (0x200e, 0x200f), (0x202a, 0x202e), (0x2066, 0x2069),
    (0xfeff, 0xfeff)]

/-- Whether the character must stand nowhere but in comments. -/
def isForbidden (c : Char) : Bool := forbiddenChars.contains c

/-- Whether the character has a meaning of its own outside strings. -/
def isPunctuation (c : Char) : Bool := "\\/()\x7b\x7d;[]\"#=".toList.contains c

/-- Whether the character may stand in a bare word. -/
def isBareChar (c : Char) : Bool :=
  !(isNewline c || isSpace c || isForbidden c || isPunctuation c)

theorem not_isBareChar_of_isNewline {c : Char} (h : isNewline c) : isBareChar c = false := by
  simp [isBareChar, h]

theorem not_isBareChar_of_isSpace {c : Char} (h : isSpace c) : isBareChar c = false := by
  simp [isBareChar, h]

end DdlOrder.Kdl
