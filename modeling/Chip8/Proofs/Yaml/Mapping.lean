import Chip8.Proofs.Yaml.Layout
import Chip8.Yaml.Document

/-!
# Reading block mappings

The nodes of documents of two levels. Their tokens are read entry by entry, and a mapping without
entries, for which nothing is written, is the absent node.

Results:
1. `Reader.blockEntries?_flatMap`, `Reader.reads_mapping`: the tokens of entries are read one
   entry after the other, whatever follows.
2. `Node.ofTokens?_mappingTokens`: the node of a document, from its tokens.
3. `Mapping.outlineTokens_lines`: the tokens of a document, from its lines.
4. `Mapping.read?_text`: the node of a document, from its text, unless a key is too long.
-/

namespace Chip8.Yaml

/-! ## Entries -/

/-- An entry of a mapping: its key, the tokens of its value and the node that they are read as. -/
structure Entry where
  key : Atom
  tokens : List Token
  node : Node

namespace Atom

def node (a : Atom) : Node := .scalar none { style := .plain, text := a.text }

/-- An entry whose value is an atom. -/
def entry (key value : Atom) : Entry := ⟨key, [value.token], value.node⟩

end Atom

/-- All tokens of an entry. -/
def Entry.all (e : Entry) : List Token := .key :: e.key.token :: .value :: e.tokens

/-- The tokens of a mapping, none if it has no entries. -/
def mappingTokens (es : List Entry) : List Token :=
  if es.isEmpty then [] else .blockMapping :: es.flatMap Entry.all ++ [.blockEnd]

/-- The node of a mapping, which is absent if it has no entries. -/
def mappingNode (es : List Entry) : Node :=
  if es.isEmpty then .absent else .mapping none (es.map fun e => (e.key.node, e.node))

theorem length_le_flatMap (es : List Entry) : 3 * es.length ≤ (es.flatMap Entry.all).length := by
  induction es with
  | nil => exact Nat.le_refl _
  | cons e es ih =>
    simp only [List.flatMap_cons, List.length_append, List.length_cons, Entry.all]
    omega

theorem length_tokens_le {es : List Entry} {e : Entry} (among : e ∈ es) :
    e.tokens.length ≤ (es.flatMap Entry.all).length := by
  obtain ⟨before, after, rfl⟩ := List.mem_iff_append.mp among
  simp only [List.flatMap_append, List.flatMap_cons, List.length_append, List.length_cons,
    Entry.all]
  omega

/-! ## Reading entries -/

namespace Reader

variable {handles : Handles} {fuel more : Nat} {a : Atom} {ts rest : List Token}
  {names : List (String × Nat)} {es : List Entry}

theorem node?_token (block shared : Bool) (enough : 0 < fuel) :
    node? handles block shared fuel ⟨a.token :: rest, names⟩ = some (a.node, ⟨rest, names⟩) := by
  obtain ⟨fuel, rfl⟩ := Nat.exists_eq_add_one.mpr enough
  simp [node?, Atom.token, properties, define, past, Atom.node]

/-- With so much fuel or more, tokens are read as the value of a key, whatever follows the
entry. -/
def Reads (fuel : Nat) (ts : List Token) (node : Node) : Prop :=
  ∀ handles names rest, ∀ t ∈ [Token.key, .blockEnd], ∀ more, fuel ≤ more →
    valueOf? handles [.key, .value, .blockEnd] true true more ⟨.value :: ts ++ t :: rest, names⟩ =
      some (node, ⟨t :: rest, names⟩)

theorem Reads.mono {node : Node} (reads : Reads fuel ts node) (le : fuel ≤ more) :
    Reads more ts node :=
  fun handles names rest t stops most enough =>
    reads handles names rest t stops most (Nat.le_trans le enough)

theorem reads_absent : Reads 2 [] .absent := by
  intro handles names rest t stops more enough
  obtain ⟨fuel, rfl⟩ : ∃ fuel, more = fuel + 2 := ⟨more - 2, by omega⟩
  have stop : t = .key ∨ t = .blockEnd := by simpa using stops
  rcases stop with rfl | rfl <;> simp [valueOf?, optional?, isAt, past]

/-- The value of a key is a node, unless the entry ends. -/
theorem valueOf?_of_node? {r : Node × Reader} {t : Token} (starts : t ∉ [.key, .value, .blockEnd])
    (node : node? handles true true fuel ⟨t :: ts, names⟩ = some r) :
    valueOf? handles [.key, .value, .blockEnd] true true (fuel + 2) ⟨.value :: t :: ts, names⟩ =
      some r := by
  have here : isAt ⟨t :: ts, names⟩ [.key, .value, .blockEnd] = false := by
    simpa [isAt] using starts
  simp [valueOf?, optional?, past, here, node]

theorem reads_token (a : Atom) : Reads 3 [a.token] a.node := by
  intro handles names rest t stops more enough
  obtain ⟨fuel, rfl⟩ : ∃ fuel, more = fuel + 1 + 2 := ⟨more - 3, by omega⟩
  exact valueOf?_of_node? (by simp [Atom.token]) (node?_token true true (Nat.succ_pos fuel))

theorem blockEntries?_key {s t u : Reader} {key value : Node} {entries : List (Node × Node)}
    (keyRead : optional? handles [.key, .value, .blockEnd] true true fuel ⟨ts, names⟩ =
      some (key, s))
    (valueRead : valueOf? handles [.key, .value, .blockEnd] true true fuel s = some (value, t))
    (entriesRead : blockEntries? handles fuel t = some (entries, u)) :
    blockEntries? handles (fuel + 1) ⟨.key :: ts, names⟩ = some ((key, value) :: entries, u) := by
  simp [blockEntries?, past, keyRead, valueRead, entriesRead]

/-- What entries are read as. The fuel is for the longest value and one more for each entry. -/
theorem blockEntries?_flatMap (reads : ∀ e ∈ es, Reads fuel e.tokens e.node)
    (enough : fuel + es.length + 3 ≤ more) :
    blockEntries? handles more ⟨es.flatMap Entry.all ++ .blockEnd :: rest, names⟩ =
      some (es.map fun e => (e.key.node, e.node), ⟨rest, names⟩) := by
  induction es generalizing more with
  | nil =>
    obtain ⟨more, rfl⟩ := Nat.exists_eq_add_one.mpr (Nat.zero_lt_of_lt enough)
    simp [blockEntries?, past]
  | cons e es ih =>
    obtain ⟨more, rfl⟩ : ∃ rest, more = rest + 3 := ⟨more - 3, by omega⟩
    have bound : fuel + es.length + 3 ≤ more + 2 := by
      simp only [List.length_cons] at enough
      omega
    let after := es.flatMap Entry.all ++ .blockEnd :: rest
    -- After the value stands the sign of the next key, or the block ends.
    obtain ⟨t, ts, stops, same⟩ : ∃ t ts, t ∈ [Token.key, .blockEnd] ∧ after = t :: ts := by
      cases es with
      | nil => exact ⟨.blockEnd, rest, by simp, rfl⟩
      | cons e es => exact ⟨.key, _, by simp, rfl⟩
    have keyRead : optional? handles [.key, .value, .blockEnd] true true (more + 2)
        ⟨e.key.token :: .value :: e.tokens ++ after, names⟩ =
          some (e.key.node, ⟨.value :: e.tokens ++ after, names⟩) := by
      have first : ∀ stop ∈ [Token.key, .value, .blockEnd], e.key.token ≠ stop := by
        simp [Atom.token]
      simp [optional?, isAt, first, node?_token]
    have valueRead : valueOf? handles [.key, .value, .blockEnd] true true (more + 2)
        ⟨.value :: e.tokens ++ after, names⟩ = some (e.node, ⟨after, names⟩) := by
      rw [same]
      exact reads e (by simp) handles names ts t stops _ (by omega)
    have entriesRead := ih (fun e among => reads e (by simp [among])) bound
    have split : (e :: es).flatMap Entry.all ++ .blockEnd :: rest =
        .key :: (e.key.token :: .value :: e.tokens ++ after) := by
      simp [Entry.all, after]
    rw [split]
    exact blockEntries?_key keyRead valueRead entriesRead

theorem node?_mappingTokens (listed : es ≠ []) (reads : ∀ e ∈ es, Reads fuel e.tokens e.node)
    (shared : Bool) (enough : fuel + es.length + 4 ≤ more) :
    node? handles true shared more ⟨mappingTokens es ++ rest, names⟩ =
      some (mappingNode es, ⟨rest, names⟩) := by
  obtain ⟨more, rfl⟩ : ∃ rest, more = rest + 1 := ⟨more - 1, by omega⟩
  have read : blockEntries? handles more ⟨es.flatMap Entry.all ++ .blockEnd :: rest, names⟩ =
      some (es.map fun e => (e.key.node, e.node), ⟨rest, names⟩) :=
    blockEntries?_flatMap reads (by omega)
  simp [mappingTokens, mappingNode, listed, past, node?, properties, define, read]

theorem reads_mapping (reads : ∀ e ∈ es, Reads fuel e.tokens e.node) :
    Reads (fuel + es.length + 6) (mappingTokens es) (mappingNode es) := by
  by_cases listed : es = []
  · subst listed
    exact reads_absent.mono (by omega)
  · intro handles names rest t stops more enough
    obtain ⟨more, rfl⟩ : ∃ rest, more = rest + 2 := ⟨more - 2, by omega⟩
    have read : node? handles true true more ⟨mappingTokens es ++ t :: rest, names⟩ =
        some (mappingNode es, ⟨t :: rest, names⟩) :=
      node?_mappingTokens listed reads true (by omega)
    have opens : mappingTokens es = .blockMapping :: (es.flatMap Entry.all ++ [.blockEnd]) := by
      simp [mappingTokens, listed]
    rw [opens] at read ⊢
    exact valueOf?_of_node? (by simp) read

end Reader

/-- The tokens of a mapping are read as a document if those of its values are, even with little
fuel. -/
theorem Node.ofTokens?_mappingTokens {es : List Entry}
    (reads : ∀ e ∈ es, Reader.Reads (e.tokens.length + 9) e.tokens e.node) :
    Node.ofTokens? (mappingTokens es) = some (mappingNode es) := by
  by_cases listed : es = []
  · subst listed
    rfl
  · have opens : mappingTokens es = .blockMapping :: (es.flatMap Entry.all ++ [.blockEnd]) := by
      simp [mappingTokens, listed]
    have positive : 0 < es.length := List.length_pos_iff.mpr listed
    have long := length_le_flatMap es
    have depth : ∀ e ∈ es, Reader.Reads ((es.flatMap Entry.all).length + 9) e.tokens e.node :=
      fun e among => (reads e among).mono (Nat.add_le_add_right (length_tokens_le among) 9)
    have read : Reader.node? .standard true false (4 * (mappingTokens es).length + 4)
        ⟨mappingTokens es ++ [], []⟩ = some (mappingNode es, ⟨[], []⟩) := by
      refine Reader.node?_mappingTokens listed depth false ?_
      simp only [opens, List.length_cons, List.length_append]
      omega
    rw [List.append_nil] at read
    have content : content? .standard false (mappingTokens es) =
        some (mappingNode es, []) := by
      simp [content?, read]
    rw [opens] at content ⊢
    simp only [Node.ofTokens?, List.isEmpty_cons, directives?, List.nil_append]
    simp [content]

/-! ## Reading documents -/

/-- The entries of a block. -/
def Block.parts (b : Block) : List Entry := b.entries.map fun e => e.1.entry e.2

namespace Content

/-- An entry with this content. -/
def entry (key : Atom) : Content → Entry
  | .scalar value => key.entry value
  | .block b => ⟨key, mappingTokens b.parts, mappingNode b.parts⟩

theorem reads (key : Atom) (c : Content) :
    Reader.Reads ((c.entry key).tokens.length + 9) (c.entry key).tokens (c.entry key).node := by
  cases c with
  | scalar v => exact (Reader.reads_token v).mono (by simp)
  | block b =>
    have atoms : ∀ e ∈ b.parts, Reader.Reads 3 e.tokens e.node := by
      intro e among
      obtain ⟨pair, -, rfl⟩ := List.mem_map.mp among
      exact Reader.reads_token pair.2
    refine (Reader.reads_mapping atoms).mono ?_
    have long := length_le_flatMap b.parts
    simp only [entry, mappingTokens]
    split
    · next none => simp [List.isEmpty_iff.mp none]
    · simp only [List.length_cons, List.length_append]
      omega

end Content

namespace Mapping

/-- The entries of a document. -/
def parts (m : Mapping) : List Entry := m.map fun e => e.2.entry e.1

theorem lines_cons (e : Atom × Content) (m : Mapping) :
    ∃ value ls, lines (e :: m) = ⟨0, e.1, value⟩ :: ls := by
  obtain ⟨key, c⟩ := e
  cases c with
  | scalar v => exact ⟨some v, _, rfl⟩
  | block b => exact ⟨none, _, rfl⟩

theorem firstColumn_lines (m : Mapping) : firstColumn m.lines = 0 := by
  cases m with
  | nil => rfl
  | cons e m =>
    obtain ⟨value, ls, same⟩ := lines_cons e m
    rw [same, firstColumn]

theorem isChain_append_lines (key : Atom) (c : Content) {ls : List Line}
    (flat : ls.IsChain Line.Above) (margin : firstColumn ls = 0) :
    (c.lines key ++ ls).IsChain Line.Above := by
  have above (l : Line) : ∀ next ∈ ls.head?, l.Above next := by
    intro next first _
    cases ls with
    | nil => cases first
    | cons l' ls =>
      cases first
      exact (Nat.le_of_eq margin).trans (Nat.zero_le _)
  cases c with
  | scalar v => exact List.isChain_cons.mpr ⟨above _, flat⟩
  | block b =>
    rw [Content.lines, List.cons_append]
    refine List.isChain_cons.mpr ⟨by simp [Line.Above], ?_⟩
    unfold Block.lines
    induction b.entries with
    | nil => exact flat
    | cons e es ih =>
      refine List.isChain_cons.mpr ⟨?_, ih⟩
      cases es with
      | nil => exact above _
      | cons e' es =>
        intro next first _
        cases first
        exact Nat.le_refl _

theorem isChain_lines (m : Mapping) : m.lines.IsChain Line.Above := by
  induction m with
  | nil => exact .nil
  | cons e m ih =>
    rw [lines, List.flatMap_cons]
    exact isChain_append_lines e.1 e.2 ih (firstColumn_lines m)

/-- The tokens of lines at the margin: those that end what is deeper, then `ts`. -/
def Continues (ls : List Line) (ts : List Token) : Prop :=
  ∀ blocks, left blocks 0 = [0] → outlineTokens blocks ls = closing blocks 0 ++ ts

theorem continues_nil : Continues [] [.blockEnd] := by
  intro blocks margin
  have all : blocks = blocks.takeWhile (0 < ·) ++ [0] := by
    rw [← margin, left, List.takeWhile_append_dropWhile]
  calc
    outlineTokens blocks [] = (blocks.takeWhile (0 < ·) ++ [0]).map fun _ => .blockEnd := by
      rw [← all, outlineTokens]
    _ = closing blocks 0 ++ [.blockEnd] := by rw [List.map_append]; rfl

/-- A block that is open takes further entries up to a line at the margin. -/
theorem Continues.entries {ls : List Line} {ts : List Token} (rest : Continues ls ts)
    {indent : Nat} (indented : 0 < indent) (es : List (Atom × Atom)) :
    outlineTokens [indent, 0] (es.map (fun e => ⟨indent, e.1, some e.2⟩) ++ ls) =
      (es.map fun e => e.1.entry e.2).flatMap Entry.all ++ .blockEnd :: ts := by
  induction es with
  | nil =>
    have margin : left [indent, 0] 0 = [0] := by simp [left, indented]
    simp [rest _ margin, closing, indented]
  | cons e es ih =>
    simp [outlineTokens, closing, left, opening, opened, ih, Line.tokens, Atom.entry, Entry.all]

theorem Continues.block {ls : List Line} {ts : List Token} (rest : Continues ls ts) (b : Block) :
    outlineTokens [0] (b.lines ++ ls) = mappingTokens b.parts ++ ts := by
  unfold Block.lines Block.parts
  have away : 0 ≠ b.indent := b.indented.ne
  cases b.entries with
  | nil => simp [rest [0] rfl, closing, mappingTokens]
  | cons e es =>
    simp [outlineTokens, closing, left, opening, opened, away, rest.entries b.indented es,
      mappingTokens, Line.tokens, Atom.entry, Entry.all]

theorem Continues.content {ls : List Line} {ts : List Token} (rest : Continues ls ts) (key : Atom)
    (c : Content) : Continues (c.lines key ++ ls) ((c.entry key).all ++ ts) := by
  intro blocks margin
  cases c with
  | scalar v =>
    simp [Content.lines, outlineTokens, margin, opening, opened, rest [0] rfl, closing,
      Line.tokens, Content.entry, Atom.entry, Entry.all]
  | block b =>
    simp [Content.lines, outlineTokens, margin, opening, opened, rest.block, closing,
      Line.tokens, Content.entry, Entry.all]

theorem continues_lines (m : Mapping) :
    Continues m.lines (m.parts.flatMap Entry.all ++ [.blockEnd]) := by
  induction m with
  | nil => exact continues_nil
  | cons e m ih => simpa [lines, parts] using ih.content e.1 e.2

theorem outlineTokens_lines (m : Mapping) : outlineTokens [] m.lines = mappingTokens m.parts := by
  cases m with
  | nil => rfl
  | cons e m =>
    have opens : outlineTokens [] (lines (e :: m)) =
        .blockMapping :: outlineTokens [0] (lines (e :: m)) := by
      obtain ⟨value, ls, same⟩ := lines_cons e m
      simp [same, outlineTokens, closing, left, opening, opened]
    rw [opens, continues_lines (e :: m) [0] rfl]
    simp [mappingTokens, parts, closing]

theorem keys_eq (m : Mapping) : m.keys = m.lines.map Line.key := by
  have same (key : Atom) (c : Content) :
      (c.lines key).map Line.key = key :: c.entries.map Prod.fst := by
    cases c with
    | scalar v => rfl
    | block b => simp [Content.lines, Content.entries, Block.lines]
  simp [keys, lines, List.map_flatMap, same]

/-- The node of a document, from its text. -/
theorem read?_text (m : Mapping) : read? m.text.toList =
    if ∀ key ∈ m.keys, key.size ≤ 1024 then some (mappingNode m.parts) else none := by
  have entries : ∀ e ∈ m.parts, Reader.Reads (e.tokens.length + 9) e.tokens e.node := by
    intro e among
    obtain ⟨pair, -, rfl⟩ := List.mem_map.mp among
    exact pair.2.reads pair.1
  have keys : (∀ key ∈ m.keys, key.size ≤ 1024) ↔ ∀ l ∈ m.lines, l.key.size ≤ 1024 := by
    simp [keys_eq]
  rw [read?, text, String.toList_ofList, tokens?_outline m.isChain_lines, outlineTokens_lines]
  by_cases short : ∀ l ∈ m.lines, l.key.size ≤ 1024
  · rw [if_pos short, if_pos (keys.mpr short)]
    exact Node.ofTokens?_mappingTokens entries
  · rw [if_neg short, if_neg (mt keys.mp short)]
    rfl

end Mapping

end Chip8.Yaml
