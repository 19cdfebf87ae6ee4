import Mathlib.Data.List.Forall2
import Chip8.Configuration
import Chip8.Proofs.Yaml.Block

/-!
# What decoding relies on

Decoding takes the format of its files as a parameter. What it relies on, for documents of two
levels, is said here of any format:

* `Collects`: the fields of records are found among entries by their names, repeated fields are
  refused and other entries passed over.
* `IsScalar`: six texts are the truth values among plain scalars, and no plain scalar is a mapping.
* `Reads`: a document is read entry by entry.
-/

namespace Chip8

/-- The texts of the truth value that is true. -/
def Configuration.onTexts : List String := ["true", "True", "TRUE"]

/-- The texts of the truth value that is false. -/
def Configuration.offTexts : List String := ["false", "False", "FALSE"]

namespace Format

open Chip8.Configuration Yaml

variable {Tree : Type} (format : Format Tree)

/-- A record is refused if a field of it is given more than once, and only then. If it is not, a
field has the value of its entry, if there is one. -/
structure Collects : Prop where
  refused_iff {names : List String} {entries : List (String × Tree)} :
    format.collect? names entries = none ↔ ∃ name ∈ names, 1 < entries.countP (·.1 = name)
  value {names : List String} {entries : List (String × Tree)} {fields : String → Option Tree} :
    format.collect? names entries = some fields →
      ∀ name ∈ names, fields name = entries.lookup name

/-- A tree is the plain scalar of a text. -/
structure IsScalar (text : String) (tree : Tree) : Prop where
  truth : format.truth? tree =
    if text ∈ onTexts then some true else if text ∈ offTexts then some false else none
  entries : format.entries? tree = none

/-- A tree is a mapping of entries, one by one. -/
def IsMapping {α : Type} (IsValue : α → Tree → Prop) (es : List (Atom × α)) (tree : Tree) : Prop :=
  ∃ entries, format.entries? tree = some entries ∧
    List.Forall₂ (fun e entry => entry.1 = e.1.text ∧ IsValue e.2 entry.2) es entries

/-- A tree is what stands at a key. -/
def Shows : Content → Tree → Prop
  | .scalar v => format.IsScalar v.text
  | .block b => format.IsMapping (fun v => format.IsScalar v.text) b.entries

/-- The bytes of a document are read entry by entry. -/
def Reads (m : Mapping) : Prop :=
  ∃ tree, format.read? m.bytes = some tree ∧ format.IsMapping format.Shows m tree

end Format

end Chip8
