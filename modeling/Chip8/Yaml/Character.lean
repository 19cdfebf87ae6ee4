/-!
# Characters of a document

Which characters a document may hold, which of them are blanks and line ends, and where a word
or a document ends. Line ends are made uniform before anything is read.
-/

namespace Chip8.Yaml

/-- The characters that a document may hold: no control characters but tab and line ends. -/
def isPrintable (c : Char) : Bool :=
  let n := c.toNat
  n = 0x09 || n = 0x0A || n = 0x0D || (0x20 ≤ n && n ≤ 0x7E) || n = 0x85
    || (0xA0 ≤ n && n ≤ 0xFFFD) || 0x10000 ≤ n

def isBlank (c : Char) : Bool := c = ' ' || c = '\t'

/-- The mark that may begin a text, or any line of it, and means nothing. -/
def isByteOrderMark (c : Char) : Bool := c.toNat = 0xFEFF

/-- Line ends after `uniform`: the line feed and the separators of lines and paragraphs. -/
def isBreak (c : Char) : Bool := c = '\n' || c.toNat = 0x2028 || c.toNat = 0x2029

/-- Writes every line end of one or two characters as a line feed. -/
def uniform : List Char → List Char
  | [] => []
  | '\r' :: '\n' :: cs => '\n' :: uniform cs
  | c :: cs => (if c = '\r' || c.toNat = 0x85 then '\n' else c) :: uniform cs

/-- Whether a blank, a line end or the end of the document comes next. -/
def wordEnds : List Char → Bool
  | [] => true
  | c :: _ => isBlank c || isBreak c

/-- Whether the characters at the start of a line begin or end a document. -/
def isMarker : List Char → Bool
  | '-' :: '-' :: '-' :: cs => wordEnds cs
  | '.' :: '.' :: '.' :: cs => wordEnds cs
  | _ => false

/-- Letters, digits and the two signs that names of anchors are made of. -/
def isNameChar (c : Char) : Bool :=
  ('0' ≤ c && c ≤ '9') || ('A' ≤ c && c ≤ 'Z') || ('a' ≤ c && c ≤ 'z') || c = '_' || c = '-'

example : uniform ['a', '\r', '\n', '\r', 'b'] = ['a', '\n', '\n', 'b'] := by decide

end Chip8.Yaml
