import Chip8.Proofs.Configuration.Format
import Chip8.Proofs.Yaml.Mapping
import Chip8.Yaml.Format

/-!
# Documents meet what decoding relies on

The format that documents are collects the fields of records, and it reads every document of two
levels entry by entry, unless a key in it is longer than 1024 bytes.

Results:
1. `collects_format`: records.
2. `shows_node`: what is read at a key.
3. `reads_iff`: which documents are read.
-/

namespace Chip8.Yaml

open Chip8.Configuration

/-! ## Records -/

theorem collect?_eq_none_iff {α : Type} {names : List String} {entries : List (String × α)} :
    collect? names entries = none ↔ ∃ name ∈ names, 1 < entries.countP (·.1 = name) := by
  simp [collect?]

theorem collects_format : format.Collects where
  refused_iff := collect?_eq_none_iff
  value {names entries fields} collected name _ := by
    have collected : collect? names entries = some fields := collected
    unfold collect? at collected
    split at collected
    · cases collected
      rfl
    · cases collected

/-! ## Entries -/

theorem truth?_eq (text : String) : truth? text =
    if text ∈ onTexts then some true else if text ∈ offTexts then some false else none := by
  simp [truth?, onTexts, offTexts, or_assoc]

theorem isScalar_node (a : Atom) (nodes : Node.Anchored) :
    format.IsScalar a.text ⟨a.node, nodes⟩ := by
  have written : a.text ≠ "" := by
    intro empty
    exact a.nonempty (by simpa [Atom.text] using congrArg String.toList empty)
  constructor
  · have read : format.truth? ⟨a.node, nodes⟩ = truth? a.text := by
      simp [format, Tree.meaning?, Node.meaning?, Atom.node, flag?]
    rw [read, truth?_eq]
  · simp [format, Tree.entries?, Tree.meaning?, Node.meaning?, Atom.node, entries?, written]

theorem keyed?_map {nodes : Node.Anchored} (es : List Entry) :
    keyed? nodes (es.map fun e => (e.key.node, e.node)) =
      some (es.map fun e => (e.key.text, e.node)) := by
  induction es with
  | nil => rfl
  | cons e es ih =>
    rw [List.map_cons, keyed?, ih]
    rfl

theorem entries?_mappingNode (es : List Entry) (nodes : Node.Anchored) :
    format.entries? ⟨mappingNode es, nodes⟩ =
      some (es.map fun e => (e.key.text, ⟨e.node, nodes⟩)) := by
  cases es with
  | nil => rfl
  | cons e es =>
    have meant : Tree.meaning? ⟨mappingNode (e :: es), nodes⟩ =
        some (.mapping none ((e :: es).map fun e => (e.key.node, e.node))) := rfl
    have keyed := @keyed?_map nodes (e :: es)
    simp only [format, Tree.entries?, meant, Option.bind_some, entries?, keyed, Option.map_some,
      List.map_map]
    rfl

/-! ## Documents -/

/-- The node of what stands at a key. -/
def node : Content → Node
  | .scalar v => v.node
  | .block b => mappingNode b.parts

theorem shows_node (c : Content) (nodes : Node.Anchored) : format.Shows c ⟨node c, nodes⟩ := by
  cases c with
  | scalar v => exact isScalar_node v nodes
  | block b =>
    refine ⟨_, entries?_mappingNode b.parts nodes, ?_⟩
    rw [Block.parts, List.map_map, List.forall₂_map_right_iff, List.forall₂_same]
    exact fun e _ => ⟨rfl, isScalar_node e.2 nodes⟩

theorem isMapping_node (m : Mapping) (nodes : Node.Anchored) :
    format.IsMapping format.Shows m ⟨mappingNode m.parts, nodes⟩ := by
  have same (key : Atom) (c : Content) : (c.entry key).key = key ∧ (c.entry key).node = node c := by
    cases c <;> exact ⟨rfl, rfl⟩
  refine ⟨_, entries?_mappingNode m.parts nodes, ?_⟩
  rw [Mapping.parts, List.map_map, List.forall₂_map_right_iff, List.forall₂_same]
  intro e _
  obtain ⟨key, value⟩ := same e.1 e.2
  simpa [key, value] using shows_node e.2 nodes

theorem fromUTF8?_bytes (m : Mapping) : String.fromUTF8? ⟨m.bytes.toArray⟩ = some m.text := by
  have valid : (m.text.toUTF8).IsValidUTF8 := m.text.isValidUTF8
  simp only [Mapping.bytes, Array.toArray_toList]
  exact dif_pos valid

theorem reads_iff {m : Mapping} : format.Reads m ↔ ∀ key ∈ m.keys, key.size ≤ 1024 := by
  have read : format.read? m.bytes =
      (read? m.text.toList).map fun node => ⟨node, node.anchored⟩ := by
    simp only [format, fromUTF8?_bytes, Option.bind_some, Tree.ofText?]
  rw [Format.Reads, read, Mapping.read?_text]
  by_cases short : ∀ key ∈ m.keys, key.size ≤ 1024
  · rw [if_pos short]
    exact ⟨fun _ => short, fun _ => ⟨_, rfl, isMapping_node m _⟩⟩
  · simp [short]

end Chip8.Yaml
