import Chip8.Configuration
import Chip8.Yaml.Document

/-!
# Documents as configurations

The format that documents are for configuration files. A file is a text in UTF-8 with one document.
The texts of the scalars in a mapping are the names of its entries, nothing written is a mapping
without entries, and a field of a record may be given once.
-/

namespace Chip8.Yaml

/-! ## Values -/

/-- The scalars that are truth values. -/
def truth? (text : String) : Option Bool :=
  if text = "true" || text = "True" || text = "TRUE" then some true
  else if text = "false" || text = "False" || text = "FALSE" then some false
  else none

/-- The truth value of a node. It must be written plainly, or as a literal block under the tag of
truth values. -/
def flag? : Node → Option Bool
  | .scalar _ s =>
    if s.style = .plain
        || (s.style = .literal && s.tag = some "tag:yaml.org,2002:bool".toUTF8.toList) then
      truth? s.text
    else none
  | _ => none

/-! ## Mappings -/

/-- The entries of a mapping; nothing written is a mapping without entries. -/
def entries? : Node → Option (List (Node × Node))
  | .mapping _ entries => some entries
  | .scalar _ s => if s.style = .plain && s.text = "" then some [] else none
  | _ => none

/-- The text of a key. A collection is no key. -/
def key? : Node → Option String
  | .scalar _ s => some s.text
  | _ => none

/-- Entries by the text of their keys, if every key has one. -/
def keyed? (nodes : Node.Anchored) : List (Node × Node) → Option (List (String × Node))
  | [] => some []
  | (key, value) :: rest =>
    match (key.meaning? nodes).bind key?, keyed? nodes rest with
    | some key, some rest => some ((key, value) :: rest)
    | _, _ => none

/-- The values of the fields of these names, if none is given twice. Other entries are passed
over. -/
def collect? {α : Type} (names : List String) (entries : List (String × α)) :
    Option (String → Option α) :=
  if names.all fun name => entries.countP (·.1 = name) ≤ 1 then
    some fun name => entries.lookup name
  else none

/-! ## Documents -/

/-- A node with the anchored nodes of its document. -/
structure Tree where
  node : Node
  nodes : Node.Anchored

namespace Tree

/-- The node of a tree or the one that it is an alias of. -/
def meaning? (t : Tree) : Option Node := t.node.meaning? t.nodes

/-- The document of a text. -/
def ofText? (text : String) : Option Tree :=
  (read? text.toList).map fun node => { node, nodes := node.anchored }

def entries? (t : Tree) : Option (List (String × Tree)) :=
  ((t.meaning?.bind Yaml.entries?).bind (keyed? t.nodes)).map fun entries =>
    entries.map fun (key, node) => (key, { node, nodes := t.nodes })

end Tree

/-- Documents as a format of configurations. -/
def format : Format Tree where
  read? bytes := (String.fromUTF8? ⟨bytes.toArray⟩).bind Tree.ofText?
  entries? := Tree.entries?
  truth? t := t.meaning?.bind flag?
  collect? := collect?

open Chip8.Configuration in
example : ofBytes? format "quirks:\n  shift_copies_vy: true\nother: x\n".toUTF8.data.toList =
    some { shiftSecond := true } := by
  decide +kernel

open Chip8.Configuration in
example : ofBytes? format "quirks: \x7bshift_copies_vy: yes\x7d".toUTF8.data.toList = none := by
  decide +kernel

end Chip8.Yaml
