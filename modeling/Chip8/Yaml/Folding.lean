import Chip8.Yaml.Character

/-!
# Line folding

Plain and quoted scalars may go over several lines. Blanks around a line end vanish, a single
line end becomes a space, and of several the first vanishes. A line end that is escaped vanishes
without a space.
-/

namespace Chip8.Yaml

/-- The parts of a scalar before folding. -/
inductive Piece
  /-- A character that stands for itself. -/
  | ink (c : Char)
  | blank (c : Char)
  | lineEnd (c : Char)
  /-- An escaped line end. -/
  | joint
  deriving DecidableEq, Repr

/-- The part that an unescaped character is. -/
def Piece.of (c : Char) : Piece :=
  if isBreak c then .lineEnd c else if isBlank c then .blank c else .ink c

/-- What lies between two characters that stand for themselves. -/
structure Gap where
  blanks : List Char := []
  /-- Whether the gap holds a line end. -/
  broken : Bool := false
  lineEnds : List Char := []
  /-- Whether its first line end was escaped. -/
  joined : Bool := false

/-- What is left of a gap. -/
def Gap.text (g : Gap) : List Char :=
  if !g.broken then g.blanks
  else if g.joined then g.lineEnds
  else
    match g.lineEnds with
    | ['\n'] => [' ']
    | '\n' :: more => more
    | lineEnds => lineEnds

/-- The text of the parts of a scalar, after the gap `g`. -/
def fold (g : Gap) : List Piece → List Char
  | [] => g.text
  | .ink c :: ps => g.text ++ c :: fold {} ps
  | .blank c :: ps => fold (if g.broken then g else { g with blanks := g.blanks ++ [c] }) ps
  | .lineEnd c :: ps =>
    fold { g with blanks := [], broken := true, lineEnds := g.lineEnds ++ [c] } ps
  | .joint :: ps => g.text ++ fold { broken := true, joined := true } ps

/-- The text of a scalar without escapes. -/
def foldPlain (cs : List Char) : String := String.ofList (fold {} (cs.map Piece.of))

example : foldPlain ['a', ' ', '\n', ' ', 'b'] = "a b" := by decide
example : foldPlain ['a', '\n', '\n', 'b'] = "a\nb" := by decide
example : foldPlain ['t', 'r', 'u', 'e'] = "true" := by decide

end Chip8.Yaml
