import Chip8.Yaml.Character

/-!
# Reading positions

A cursor is the text still to be read and the place where it begins: the line, the column, and
how many bytes the line holds before it.
-/

namespace Chip8.Yaml

/-- A place in a document. -/
structure Position where
  line : Nat := 0
  column : Nat := 0
  /-- Bytes on the line before this place, in UTF-8. -/
  offset : Nat := 0
  deriving DecidableEq, Repr

/-- The place after a character. -/
def Position.after (p : Position) (c : Char) : Position :=
  if isBreak c then { line := p.line + 1 }
  else { p with column := p.column + 1, offset := p.offset + c.utf8Size }

/-- The rest of a document. -/
structure Cursor where
  rest : List Char
  position : Position := {}
  deriving DecidableEq, Repr

namespace Cursor

def line (c : Cursor) : Nat := c.position.line
def column (c : Cursor) : Nat := c.position.column

/-- The cursor after `taken`, which `rest` follows. -/
def past (c : Cursor) (taken rest : List Char) : Cursor :=
  { rest, position := taken.foldl Position.after c.position }

/-- The cursor after `count` characters. -/
def advanceBy (c : Cursor) (count : Nat) : Cursor := c.past (c.rest.take count) (c.rest.drop count)

/-- The cursor after one character. -/
def advance (c : Cursor) : Cursor := c.advanceBy 1

/-- The cursor after all characters of a class that come next. -/
def pastWhile (c : Cursor) (p : Char → Bool) : Cursor :=
  c.past (c.rest.takeWhile p) (c.rest.dropWhile p)

/-- Whether a character comes next. -/
def at? (c : Cursor) (sign : Char) : Bool := c.rest.head? = some sign

/-- Whether the line ends here. -/
def atLineEnd (c : Cursor) : Bool := c.rest.head?.all isBreak

/-- Whether a line that begins or ends a document comes next. -/
def atMarker (c : Cursor) : Bool := c.column = 0 && isMarker c.rest

/-! ## Blanks and comments -/

/-- The cursor after blanks and a comment, if the line ends there, and after the line end. -/
def pastLine? (c : Cursor) : Option Cursor :=
  let c := c.pastWhile isBlank
  let c := if c.at? '#' then c.pastWhile (!isBreak ·) else c
  if c.atLineEnd then some c.advance else none

/-- Passes blanks, line ends and comments, and a byte order mark that begins a line. In a flow
collection tabs count as blanks; elsewhere only where no key may begin, and each line end makes
room for a key. -/
def skipFrom (flow comment fresh : Bool) (p : Position) : List Char → Cursor × Bool
  | [] => (⟨[], p⟩, fresh)
  | c :: cs =>
    if isBreak c then skipFrom flow false (fresh || !flow) (p.after c) cs
    else if comment then skipFrom flow true fresh (p.after c) cs
    else if c = ' ' || (c = '\t' && (flow || !fresh)) || (isByteOrderMark c && p.column = 0) then
      skipFrom flow false fresh (p.after c) cs
    else if c = '#' then skipFrom flow true fresh (p.after c) cs
    else (⟨c :: cs, p⟩, fresh)

/-- The cursor at the next thing that is no blank, line end or comment, and whether a key may
begin there, which is so here if `fresh`. -/
def skip (c : Cursor) (flow fresh : Bool) : Cursor × Bool :=
  skipFrom flow false fresh c.position c.rest

end Cursor

end Chip8.Yaml
