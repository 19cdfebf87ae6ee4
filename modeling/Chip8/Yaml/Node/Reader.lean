import Chip8.Yaml.Token

/-!
# Reading nodes

A node is an alias, or an anchor and a tag in either order and then a scalar or a collection; where
a node may be missing, nothing written is an empty plain scalar. An anchor gets the number of names
that were in use before it, so a name that is used again takes a number that the next new name
takes too.
-/

namespace Chip8.Yaml

/-- The tokens still to be read, and the number that each name of an anchor has. -/
structure Reader where
  tokens : List Token
  names : List (String × Nat) := []

/-- The anchor and the tag of a node. -/
structure Properties where
  anchor : Option String := none
  tag : Option Tag := none
  deriving DecidableEq

namespace Reader

def past (s : Reader) (tokens : List Token) : Reader := { s with tokens }

/-- Whether one of these tokens comes next. -/
def isAt (s : Reader) (ts : List Token) : Bool := s.tokens.head?.any (· ∈ ts)

/-- The properties of a node, in either order. -/
def properties (s : Reader) : Properties × Reader :=
  match s.tokens with
  | .anchor name :: .tag tag :: ts => ({ anchor := some name, tag := some tag }, s.past ts)
  | .tag tag :: .anchor name :: ts => ({ anchor := some name, tag := some tag }, s.past ts)
  | .anchor name :: ts => ({ anchor := some name }, s.past ts)
  | .tag tag :: ts => ({ tag := some tag }, s.past ts)
  | _ => ({}, s)

/-- Gives an anchor its number. -/
def define (s : Reader) : Option String → Option Nat × Reader
  | none => (none, s)
  | some name =>
    let number := s.names.length
    (some number, { s with names := (name, number) :: s.names.filter (·.1 ≠ name) })

/-- The empty scalar that stands where only an anchor or a tag is written. -/
def missing? (s : Reader) (properties : Properties) (anchor : Option Nat)
    (tag : Option (List UInt8)) : Option (Node × Reader) :=
  if properties = {} then none else some (.scalar anchor { style := .plain, tag, text := "" }, s)

/-- Passes the comma before all entries of a flow collection but its first. -/
def separated? (s : Reader) (first : Bool) : Option Reader :=
  match first, s.tokens with
  | true, _ => some s
  | false, .comma :: ts => some (s.past ts)
  | false, _ => none

/-! ## Nodes -/

mutual

/-- A node that must be there. Block collections begin only where `block` allows it, and a sequence
without an indentation of its own only where `shared` does. -/
def node? (handles : Handles) (block shared : Bool) : (fuel : Nat) → Reader → Option (Node × Reader)
  | 0, _ => none
  | fuel + 1, s =>
    match s.tokens with
    | .alias name :: ts => (s.names.lookup name).map fun number => (.alias number, s.past ts)
    | _ => do
      let (properties, s) := s.properties
      let tag ← match properties.tag with
        | none => some none
        | some tag => (tag.octets? handles).map some
      let (anchor, s) := s.define properties.anchor
      match s.tokens, block, shared with
      | .scalar style text :: ts, _, _ => some (.scalar anchor { style, tag, text }, s.past ts)
      | .flowSequence :: ts, _, _ => do
        let (items, s) ← flowItems? handles true fuel (s.past ts)
        some (.sequence anchor items, s)
      | .flowMapping :: ts, _, _ => do
        let (entries, s) ← flowEntries? handles true fuel (s.past ts)
        some (.mapping anchor entries, s)
      | .blockSequence :: ts, true, _ => do
        let (items, s) ← blockItems? handles fuel (s.past ts)
        some (.sequence anchor items, s)
      | .blockMapping :: ts, true, _ => do
        let (entries, s) ← blockEntries? handles fuel (s.past ts)
        some (.mapping anchor entries, s)
      | .item :: _, _, true => do
        let (items, s) ← sharedItems? handles fuel s
        some (.sequence anchor items, s)
      | _, _, _ => s.missing? properties anchor tag

/-- A node that is not there if one of the tokens `stops` comes next. -/
def optional? (handles : Handles) (stops : List Token) (block shared : Bool) :
    (fuel : Nat) → Reader → Option (Node × Reader)
  | 0, _ => none
  | fuel + 1, s =>
    if s.isAt stops then some (.absent, s) else node? handles block shared fuel s

/-- The value after a key, which is not there without its sign. -/
def valueOf? (handles : Handles) (stops : List Token) (block shared : Bool) :
    (fuel : Nat) → Reader → Option (Node × Reader)
  | 0, _ => none
  | fuel + 1, s =>
    match s.tokens with
    | .value :: ts => optional? handles stops block shared fuel (s.past ts)
    | _ => some (.absent, s)

/-- The items of a block sequence, up to its end. -/
def blockItems? (handles : Handles) : (fuel : Nat) → Reader → Option (List Node × Reader)
  | 0, _ => none
  | fuel + 1, s =>
    match s.tokens with
    | .item :: ts => do
      let (item, s) ← optional? handles [.item, .blockEnd] true false fuel (s.past ts)
      let (items, s) ← blockItems? handles fuel s
      some (item :: items, s)
    | .blockEnd :: ts => some ([], s.past ts)
    | _ => none

/-- The items of a sequence that has no indentation of its own. -/
def sharedItems? (handles : Handles) : (fuel : Nat) → Reader → Option (List Node × Reader)
  | 0, _ => none
  | fuel + 1, s =>
    match s.tokens with
    | .item :: ts => do
      let (item, s) ←
        optional? handles [.item, .key, .value, .blockEnd] true false fuel (s.past ts)
      let (items, s) ← sharedItems? handles fuel s
      some (item :: items, s)
    | _ => some ([], s)

/-- The entries of a block mapping, up to its end. -/
def blockEntries? (handles : Handles) :
    (fuel : Nat) → Reader → Option (List (Node × Node) × Reader)
  | 0, _ => none
  | fuel + 1, s =>
    match s.tokens with
    | .key :: ts => do
      let (key, s) ← optional? handles [.key, .value, .blockEnd] true true fuel (s.past ts)
      let (value, s) ← valueOf? handles [.key, .value, .blockEnd] true true fuel s
      let (entries, s) ← blockEntries? handles fuel s
      some ((key, value) :: entries, s)
    | .blockEnd :: ts => some ([], s.past ts)
    | _ => none

/-- The items of a flow sequence from its `first` or from a later one on. An item with the sign of
a key is a mapping of one entry; if the key is not there, the one token that shows it is passed. -/
def flowItems? (handles : Handles) (first : Bool) :
    (fuel : Nat) → Reader → Option (List Node × Reader)
  | 0, _ => none
  | fuel + 1, s =>
    match s.tokens with
    | .flowSequenceEnd :: ts => some ([], s.past ts)
    | _ => do
      let s ← s.separated? first
      match s.tokens with
      | .flowSequenceEnd :: ts => some ([], s.past ts)
      | .key :: ts => do
        let s := s.past ts
        let (key, s) ←
          if s.isAt [.value, .comma, .flowSequenceEnd] then
            some (.absent, s.past (s.tokens.drop 1))
          else node? handles false false fuel s
        let (value, s) ← valueOf? handles [.comma, .flowSequenceEnd] false false fuel s
        let (items, s) ← flowItems? handles false fuel s
        some (.mapping none [(key, value)] :: items, s)
      | _ => do
        let (item, s) ← node? handles false false fuel s
        let (items, s) ← flowItems? handles false fuel s
        some (item :: items, s)

/-- The entries of a flow mapping from its `first` or from a later one on. A key without its sign
has no value. -/
def flowEntries? (handles : Handles) (first : Bool) :
    (fuel : Nat) → Reader → Option (List (Node × Node) × Reader)
  | 0, _ => none
  | fuel + 1, s =>
    match s.tokens with
    | .flowMappingEnd :: ts => some ([], s.past ts)
    | _ => do
      let s ← s.separated? first
      match s.tokens with
      | .flowMappingEnd :: ts => some ([], s.past ts)
      | .key :: ts => do
        let (key, s) ←
          optional? handles [.value, .comma, .flowMappingEnd] false false fuel (s.past ts)
        let (value, s) ← valueOf? handles [.comma, .flowMappingEnd] false false fuel s
        let (entries, s) ← flowEntries? handles false fuel s
        some ((key, value) :: entries, s)
      | _ => do
        let (key, s) ← node? handles false false fuel s
        let (entries, s) ← flowEntries? handles false fuel s
        some ((key, .absent) :: entries, s)

end

end Reader

end Chip8.Yaml
