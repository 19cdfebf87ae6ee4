/-!
# Document trees

What a document says once its layout is read: scalars, sequences, mappings and aliases. A scalar
keeps how it was written, because only a plain one can be a truth value. Mappings keep their
entries in order and may repeat a key.

Anchors are numbers here. Several nodes may have one number, and an alias means the last of them
in the document, also where the alias stands before or inside that node.
-/

namespace Chip8.Yaml

/-- How a scalar was written. -/
inductive Style
  | plain
  | singleQuoted
  | doubleQuoted
  | literal
  | folded
  deriving DecidableEq, Repr

/-- A piece of text with the way it was written and the bytes of its tag, if it has one. -/
structure Scalar where
  style : Style
  tag : Option (List UInt8) := none
  text : String
  deriving DecidableEq, Repr

inductive Node
  | scalar (anchor : Option Nat) (value : Scalar)
  | sequence (anchor : Option Nat) (items : List Node)
  | mapping (anchor : Option Nat) (entries : List (Node × Node))
  | alias (number : Nat)
  deriving Repr, Inhabited

namespace Node

/-- The node that stands where nothing is written. -/
def absent : Node := .scalar none { style := .plain, text := "" }

/-! ## Anchors -/

/-- Nodes by the number of their anchor, the last of the document first. -/
abbrev Anchored := List (Nat × Node)

/-- The anchored nodes before a node with the node itself. -/
def note (anchor : Option Nat) (node : Node) (before : Anchored) : Anchored :=
  match anchor with
  | some number => (number, node) :: before
  | none => before

mutual
/-- The anchored nodes of a tree after those before it. -/
def anchoredAfter (before : Anchored) : Node → Anchored
  | .scalar anchor value => note anchor (.scalar anchor value) before
  | .sequence anchor items => anchoredItems (note anchor (.sequence anchor items) before) items
  | .mapping anchor entries => anchoredEntries (note anchor (.mapping anchor entries) before) entries
  | .alias _ => before

def anchoredItems (before : Anchored) : List Node → Anchored
  | [] => before
  | node :: nodes => anchoredItems (anchoredAfter before node) nodes

def anchoredEntries (before : Anchored) : List (Node × Node) → Anchored
  | [] => before
  | (key, value) :: entries =>
    anchoredEntries (anchoredAfter (anchoredAfter before key) value) entries
end

/-- The anchored nodes of a tree. -/
def anchored (node : Node) : Anchored := anchoredAfter [] node

/-- The node that a node means in a document with these anchored nodes. -/
def meaning? (nodes : Anchored) : Node → Option Node
  | .alias number => nodes.lookup number
  | node => some node

end Node

end Chip8.Yaml
