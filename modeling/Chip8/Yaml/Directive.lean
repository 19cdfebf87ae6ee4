import Chip8.Yaml.Tag

/-!
# Directives

Lines before a document that begin with a percent sign: one gives the version of the format, the
others say what handles of tags stand for.
-/

namespace Chip8.Yaml

/-- What a directive says. -/
inductive Directive
  | version (major minor : Nat)
  /-- What a handle stands for. -/
  | handle (name : String) (start : List UInt8)
  deriving DecidableEq, Repr

/-- A number of one to nine digits. -/
def versionNumber? (c : Cursor) : Option (Nat × Cursor) :=
  let isDigit := fun d => (Number.decimalDigit? d).isSome
  let digits := c.rest.takeWhile isDigit
  if digits.isEmpty || 9 < digits.length then none
  else (Number.accumulate Number.decimalDigit? 10 1000000000 0 digits).map (·, c.pastWhile isDigit)

/-- Two numbers with a point between them. -/
def versionDirective? (c : Cursor) : Option (Directive × Cursor) := do
  let (major, c) ← versionNumber? (c.pastWhile isBlank)
  if c.at? '.' then
    let (minor, c) ← versionNumber? c.advance
    some (.version major minor, c)
  else none

/-- A handle and, after blanks, what it stands for. -/
def handleDirective? (c : Cursor) : Option (Directive × Cursor) := do
  let (handle, c) ← handle? (c.pastWhile isBlank)
  if (handle = ['!'] || isClosedHandle handle) && c.rest.head?.any isBlank then
    let (start, c) ← tagText? true (c.pastWhile isBlank)
    if wordEnds c.rest then some (.handle (String.ofList handle) start, c) else none
  else none

/-- A directive whose percent sign comes next, with the line end after it. -/
def directive? (c : Cursor) : Option (Directive × Cursor) := do
  let c := c.advance
  let name := c.rest.takeWhile isNameChar
  let c := c.pastWhile isNameChar
  if wordEnds c.rest then
    let (directive, c) ←
      if String.ofList name = "YAML" then versionDirective? c
      else if String.ofList name = "TAG" then handleDirective? c
      else none
    (c.pastLine?).map (directive, ·)
  else none

end Chip8.Yaml
