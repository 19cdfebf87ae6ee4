import Chip8.Yaml.Node
import Chip8.Yaml.Tag

/-!
# Tokens

The parts of a text once its layout is read. Where a block begins or ends, and where a key stands
without a sign of its own, there is a token although nothing is written.
-/

namespace Chip8.Yaml

inductive Token
  | version (major minor : Nat)
  /-- What a handle of tags stands for. -/
  | handle (name : String) (start : List UInt8)
  | documentStart
  | documentEnd
  | blockSequence
  | blockMapping
  /-- The end of a block of either kind. -/
  | blockEnd
  | flowSequence
  | flowSequenceEnd
  | flowMapping
  | flowMappingEnd
  /-- The dash before an item of a block sequence. -/
  | item
  /-- The comma between entries of a flow collection. -/
  | comma
  /-- A key follows. -/
  | key
  /-- The value of a key follows. -/
  | value
  | alias (name : String)
  | anchor (name : String)
  | tag (tag : Tag)
  | scalar (style : Style) (text : String)
  deriving DecidableEq, Repr

end Chip8.Yaml
