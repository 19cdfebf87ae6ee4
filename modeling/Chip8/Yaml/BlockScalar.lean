import Chip8.Yaml.Cursor

/-!
# Block scalars

A block scalar is a header line and the lines indented below it. The literal form keeps line
ends; the folded form turns a single one between two lines of text into a space. The header may
fix the indentation and how many of the last line ends stay.
-/

namespace Chip8.Yaml

/-- Which line ends at the end of a block scalar stay. -/
inductive Chomping
  | strip
  | clip
  | keep
  deriving DecidableEq, Repr

/-- What follows the indicator on the header line. -/
structure Header where
  chomping : Chomping := .clip
  /-- The indentation relative to the surrounding block, if it is given. -/
  increment : Option Nat := none

/-- A chomping sign. -/
def chomping? : Char → Option Chomping
  | '+' => some .keep
  | '-' => some .strip
  | _ => none

/-- An indentation digit; zero is none. -/
def increment? (c : Char) : Option Nat :=
  if '1' ≤ c ∧ c ≤ '9' then some (c.toNat - 48) else none

/-- The header signs, in either order, and how many characters they are. -/
def header (cs : List Char) : Header × Nat :=
  let sign := fun k => cs[k]?.bind chomping?
  let digit := fun k => cs[k]?.bind increment?
  match sign 0, digit 0 with
  | some chomping, _ =>
    match digit 1 with
    | some n => ({ chomping, increment := some n }, 2)
    | none => ({ chomping }, 1)
  | none, some n =>
    match sign 1 with
    | some chomping => ({ chomping, increment := some n }, 2)
    | none => ({ increment := some n }, 1)
  | none, none => ({}, 0)

/-- Passes empty lines and the indentation of the next line up to `limit`: the deepest column
reached, the line ends passed, and what follows. A tab in the indentation is an error. -/
def indentation? (limit : Option Nat) (deepest : Nat) (p : Position) :
    List Char → Option (Nat × List Char × Position × List Char)
  | [] => some (max deepest p.column, [], p, [])
  | c :: cs =>
    let inside := limit.all (p.column < ·)
    if c = ' ' && inside then indentation? limit deepest (p.after c) cs
    else if c = '\t' && inside then none
    else if isBreak c then
      (indentation? limit (max deepest p.column) (p.after c) cs).map
        fun (deepest, ends, rest) => (deepest, c :: ends, rest)
    else some (max deepest p.column, [], p, c :: cs)

/-- The text so far and the line ends after it. -/
structure BlockText where
  text : List Char := []
  /-- The line end of the last line. -/
  leading : List Char := []
  /-- The line ends of empty lines after it. -/
  trailing : List Char := []
  /-- Whether the last line began with a blank. -/
  indented : Bool := false

/-- The text with one more line. -/
def BlockText.add (b : BlockText) (folded : Bool) (line : List Char) : List Char :=
  let indented := line.head?.any isBlank
  if folded && b.leading = ['\n'] && !b.indented && !indented then
    b.text ++ (if b.trailing.isEmpty then [' '] else []) ++ b.trailing ++ line
  else b.text ++ b.leading ++ b.trailing ++ line

/-- The lines at the column `indent`. -/
def blockLines? (folded : Bool) (indent : Nat) :
    (fuel : Nat) → BlockText → Position → List Char → Option (BlockText × Position × List Char)
  | 0, _, _, _ => none
  | fuel + 1, b, p, cs =>
    if p.column ≠ indent || cs.isEmpty then some (b, p, cs)
    else
      let line := cs.takeWhile fun c => !isBreak c
      let after := cs.dropWhile fun c => !isBreak c
      let p := line.foldl Position.after p
      let p := (after.take 1).foldl Position.after p
      match indentation? (some indent) 0 p (after.drop 1) with
      | none => none
      | some (_, trailing, p, rest) =>
        blockLines? folded indent fuel
          { text := b.add folded line, leading := after.take 1, trailing,
            indented := line.head?.any isBlank } p rest

/-- The text without the last line ends that do not stay. -/
def BlockText.chomp (b : BlockText) : Chomping → List Char
  | .strip => b.text
  | .clip => b.text ++ b.leading
  | .keep => b.text ++ b.leading ++ b.trailing

/-- The lines below a header, in a block whose content begins at `margin`. -/
def blockText? (folded : Bool) (margin : Nat) (header : Header) (c : Cursor) :
    Option (String × Cursor) := do
  let fixed := header.increment.map (margin - 1 + ·)
  let (deepest, trailing, p, rest) ← indentation? fixed 0 c.position c.rest
  let indent := fixed.getD (max deepest (max margin 1))
  let (b, position, rest) ← blockLines? folded indent (rest.length + 1) { trailing } p rest
  some (String.ofList (b.chomp header.chomping), { rest, position })

/-- A block scalar whose indicator comes next. -/
def blockScalar? (folded : Bool) (margin : Nat) (c : Cursor) : Option (String × Cursor) :=
  let c := c.advance
  let (header, count) := header c.rest
  ((c.advanceBy count).pastLine?).bind (blockText? folded margin header)

end Chip8.Yaml
