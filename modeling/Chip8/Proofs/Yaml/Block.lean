/-!
# Block mappings

The text of documents of two levels, apart from any reader of it. A document is a mapping whose
values are plain scalars or, indented below their key, mappings of plain scalars. It is written one
entry a line and may be without entries, as may the mappings in it: then nothing is written for
them. All scalars, keys and values, are of letters, digits and underscores.
-/

namespace Chip8.Yaml

/-! ## Scalars -/

/-- Letters, digits and underscores. Beyond ASCII every character counts as a letter, but for those
that end lines, the byte order mark and what is no character at all. -/
def isAtomChar (c : Char) : Bool :=
  c.isAlphanum || c = '_'
    || (0xA0 ≤ c.toNat && !([0x2028, 0x2029, 0xFEFF, 0xFFFE, 0xFFFF].contains c.toNat))

/-- A plain scalar of letters, digits and underscores. -/
structure Atom where
  chars : List Char
  nonempty : chars ≠ [] := by decide
  ink : ∀ c ∈ chars, isAtomChar c := by exact List.all_eq_true.mp rfl

namespace Atom

def text (a : Atom) : String := String.ofList a.chars

/-- How many bytes it has in UTF-8. -/
def size (a : Atom) : Nat := a.text.utf8ByteSize

end Atom

/-! ## Lines -/

/-- A line with a key, and after it the value or nothing more. -/
structure Line where
  indent : Nat
  key : Atom
  value : Option Atom

namespace Line

/-- What stands after the colon. -/
def ending (l : Line) : List Char := (l.value.elim [] fun v => ' ' :: v.chars) ++ ['\n']

/-- The line without its indentation. -/
def body (l : Line) : List Char := l.key.chars ++ ':' :: l.ending

def text (l : Line) : List Char := List.replicate l.indent ' ' ++ l.body

end Line

/-- The text of lines. -/
def outline (ls : List Line) : List Char := ls.flatMap Line.text

/-! ## Documents -/

/-- Entries under a key, all indented alike. -/
structure Block where
  indent : Nat
  indented : 0 < indent
  entries : List (Atom × Atom)

def Block.lines (b : Block) : List Line := b.entries.map fun e => ⟨b.indent, e.1, some e.2⟩

/-- What stands at a key of a document. -/
inductive Content
  | scalar (value : Atom)
  | block (block : Block)

namespace Content

/-- The entries of a block; an atom has none. -/
def entries : Content → List (Atom × Atom)
  | .scalar _ => []
  | .block b => b.entries

/-- The lines of an entry. -/
def lines (key : Atom) : Content → List Line
  | .scalar value => [⟨0, key, some value⟩]
  | .block b => ⟨0, key, none⟩ :: b.lines

end Content

/-- A document whose keys have atoms or blocks of atoms as values. -/
abbrev Mapping := List (Atom × Content)

namespace Mapping

def lines (m : Mapping) : List Line := m.flatMap fun e => e.2.lines e.1

/-- The text of a document, one entry on a line. -/
def text (m : Mapping) : String := String.ofList (outline m.lines)

/-- The bytes of the text of a document. -/
def bytes (m : Mapping) : List UInt8 := m.text.toUTF8.data.toList

/-- The keys of a document, those in blocks included. -/
def keys (m : Mapping) : List Atom := m.flatMap fun e => e.1 :: e.2.entries.map Prod.fst

end Mapping

end Chip8.Yaml
