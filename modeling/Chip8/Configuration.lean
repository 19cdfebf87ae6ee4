import Chip8.Profile

/-!
# Configuration files

A configuration is a mapping whose field `quirks` is a mapping of the two flags of a profile. A
field that is not written has its default.

How bytes are read as such mappings is up to the format of the files. A `Format` says what the
program asks of one, and decoding takes it as a parameter.
-/

namespace Chip8

/-- A format of files with trees of values in them. -/
structure Format (Tree : Type) where
  /-- The document that the bytes of a file hold. -/
  read? : List UInt8 → Option Tree
  /-- The entries of a mapping. -/
  entries? : Tree → Option (List (String × Tree))
  /-- The truth value that a scalar stands for. -/
  truth? : Tree → Option Bool
  /-- The values that the entries of a mapping give the fields of a record with these names. -/
  collect? : (names : List String) → List (String × Tree) → Option (String → Option Tree)

namespace Configuration

variable {Tree : Type} (format : Format Tree)

/-- The values of the fields of a record. -/
def fields? (names : List String) (tree : Tree) : Option (String → Option Tree) :=
  (format.entries? tree).bind (format.collect? names)

/-- The value of a field with a default. -/
def field? {α : Type} (default : α) (value? : Tree → Option α) : Option Tree → Option α
  | none => some default
  | some tree => value? tree

/-- The profile that a mapping of flags describes. -/
def profile? (tree : Tree) : Option Profile := do
  let default : Profile := {}
  let fields ← fields? format ["load_store_increment_index", "shift_copies_vy"] tree
  let advanceIndex ←
    field? default.advanceIndex format.truth? (fields "load_store_increment_index")
  let shiftSecond ← field? default.shiftSecond format.truth? (fields "shift_copies_vy")
  some { advanceIndex, shiftSecond }

/-- The profile that a document describes. -/
def ofTree? (tree : Tree) : Option Profile := do
  let fields ← fields? format ["quirks"] tree
  field? {} (profile? format) (fields "quirks")

/-- The profile that the bytes of a file describe. -/
def ofBytes? (bytes : List UInt8) : Option Profile := (format.read? bytes).bind (ofTree? format)

end Configuration

end Chip8
