import Chip8.Proofs.Yaml.Atom

/-!
# Outlines

An outline is lines of keys, each indented as one likes, with an atom as the value of the key or
nothing more. Its tokens are said here line by line, from the columns of the blocks that are open
before a line: the line ends the blocks that are deeper, and begins one unless the innermost of the
others is at its own column.

Results:
1. `outline_eq`, `begins_flush`: the indentation of the first line, and what follows it.
2. `mem_outline`: the characters of outlines.
3. `le_head?_left`, `head?_opened`: the innermost block before and after a line is opened.
-/

namespace Chip8.Yaml

/-! ## Lines -/

namespace Line

theorem wordEnds_ending (l : Line) {rest : List Char} : wordEnds (l.ending ++ rest) := by
  cases value : l.value <;> simp [ending, value, wordEnds, isBlank, isBreak]

/-- The line after a line with a value is not deeper. -/
def Above (l next : Line) : Prop := l.value.isSome → next.indent ≤ l.indent

end Line

/-- How far the first line is indented. -/
def firstColumn : List Line → Nat
  | [] => 0
  | l :: _ => l.indent

/-- The text of lines without the indentation of the first. -/
def flush : List Line → List Char
  | [] => []
  | l :: ls => l.body ++ outline ls

theorem flush_cons (l : Line) (ls : List Line) :
    flush (l :: ls) = l.key.chars ++ ':' :: (l.ending ++ outline ls) := by
  simp [flush, Line.body]

theorem outline_eq (ls : List Line) :
    outline ls = List.replicate (firstColumn ls) ' ' ++ flush ls := by
  cases ls with
  | nil => rfl
  | cons l ls => simp [outline, firstColumn, flush, Line.text]

theorem begins_flush (ls : List Line) : Begins (flush ls) := by
  cases ls with
  | nil => simp [flush, Begins]
  | cons l ls => simpa [flush, Line.body] using l.key.begins _

theorem mem_outline {ls : List Line} {c : Char} (among : c ∈ outline ls) :
    isAtomChar c ∨ c = ' ' ∨ c = ':' ∨ c = '\n' := by
  obtain ⟨l, -, inText⟩ := List.mem_flatMap.mp among
  have inLine : (l.indent ≠ 0 ∧ c = ' ') ∨ c ∈ l.key.chars ∨ c = ':' ∨ c ∈ l.ending := by
    simpa [Line.text, Line.body] using inText
  rcases inLine with ⟨-, space⟩ | inKey | colon | inEnding
  · exact .inr (.inl space)
  · exact .inl (l.key.ink c inKey)
  · exact .inr (.inr (.inl colon))
  · unfold Line.ending at inEnding
    cases value : l.value with
    | none => exact .inr (.inr (.inr (by simpa [value] using inEnding)))
    | some v =>
      have inValue : c = ' ' ∨ c ∈ v.chars ∨ c = '\n' := by simpa [value] using inEnding
      rcases inValue with space | ink | lineEnd
      · exact .inr (.inl space)
      · exact .inl (v.ink c ink)
      · exact .inr (.inr (.inr lineEnd))

/-! ## Tokens -/

/-- The tokens that close the blocks deeper than a column. -/
def closing (blocks : List Nat) (column : Nat) : List Token :=
  (blocks.takeWhile (column < ·)).map fun _ => .blockEnd

/-- The blocks that are left at a column. -/
def left (blocks : List Nat) (column : Nat) : List Nat := blocks.dropWhile (column < ·)

/-- The token that opens a block at a column, unless the innermost block is there. -/
def opening (blocks : List Nat) (column : Nat) : List Token :=
  if blocks.head? = some column then [] else [.blockMapping]

/-- The blocks that are open once there is one at a column. -/
def opened (blocks : List Nat) (column : Nat) : List Nat :=
  if blocks.head? = some column then blocks else column :: blocks

/-- The tokens of a line after those that close and open blocks. -/
def Line.tokens (l : Line) : List Token :=
  .key :: l.key.token :: .value :: (l.value.map Atom.token).toList

/-- The tokens of lines, where these blocks are open before them. -/
def outlineTokens (blocks : List Nat) : List Line → List Token
  | [] => blocks.map fun _ => .blockEnd
  | l :: ls =>
    let outer := left blocks l.indent
    closing blocks l.indent ++ opening outer l.indent ++ l.tokens ++
      outlineTokens (opened outer l.indent) ls

theorem le_head?_left {blocks : List Nat} {column b : Nat}
    (inner : b ∈ (left blocks column).head?) : b ≤ column := by
  have stopped := List.head?_dropWhile_not (column < ·) blocks
  rw [show blocks.dropWhile (column < ·) = left blocks column from rfl, inner] at stopped
  simpa using stopped

theorem closing_of_le {blocks : List Nat} {column : Nat} (inner : ∀ b ∈ blocks.head?, b ≤ column) :
    closing blocks column = [] := by
  cases blocks with
  | nil => rfl
  | cons b blocks =>
    have shallow : ¬column < b := Nat.not_lt.mpr (inner b rfl)
    simp [closing, shallow]

theorem left_of_le {blocks : List Nat} {column : Nat} (inner : ∀ b ∈ blocks.head?, b ≤ column) :
    left blocks column = blocks := by
  cases blocks with
  | nil => rfl
  | cons b blocks =>
    have shallow : ¬column < b := Nat.not_lt.mpr (inner b rfl)
    simp [left, shallow]

theorem head?_opened (blocks : List Nat) (column : Nat) :
    (opened blocks column).head? = some column := by
  unfold opened
  split
  · assumption
  · rfl

end Chip8.Yaml
