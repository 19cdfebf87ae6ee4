import Chip8.Yaml.BlockScalar
import Chip8.Yaml.Directive
import Chip8.Yaml.Scalar
import Chip8.Yaml.Token.Layout

/-!
# Reading tokens

Each step reads what comes next after blanks and comments; the sign that it begins with tells what
it is. Before that, blocks that are indented deeper than the place have ended.
-/

namespace Chip8.Yaml

namespace Layout

/-! ## Documents -/

/-- A directive at the start of a line ends every block. -/
def directive? (s : Layout) : Option Layout := do
  let s ← (s.closeBlocks fun _ => true).settle?
  let (directive, cursor) ← Yaml.directive? s.cursor
  let token := match directive with
    | .version major minor => Token.version major minor
    | .handle name start => Token.handle name start
  some { s.emit token with cursor, fresh := false }

/-- A line that begins or ends a document ends every block. -/
def marker? (s : Layout) : Option Layout :=
  (s.closeBlocks fun _ => true).settle?.map fun s =>
    s.take (if s.cursor.at? '-' then .documentStart else .documentEnd) 3 false

/-! ## Collections -/

/-- Begins a flow collection, which can be a key as a whole. -/
def openFlow? (s : Layout) (t : Token) : Option Layout :=
  s.note?.map fun s =>
    { s.take t 1 true with candidate := none, outer := s.candidate :: s.outer }

/-- Ends a flow collection. -/
def closeFlow? (s : Layout) (t : Token) : Option Layout :=
  s.settle?.map fun s =>
    match s.outer with
    | [] => s.take t 1 false
    | candidate :: outer => { s.take t 1 false with candidate, outer }

/-- The comma after an entry of a flow collection. -/
def comma? (s : Layout) : Option Layout := s.settle?.map (·.take .comma 1 true)

/-- The dash before an item of a block sequence. Within a flow collection it is read, but stands
for nothing. -/
def item? (s : Layout) : Option Layout :=
  if s.inFlow then s.settle?.map (·.take .item 1 true)
  else if s.fresh then (s.openHere .blockSequence).settle?.map (·.take .item 1 true)
  else none

/-- The question mark before a key. -/
def key? (s : Layout) : Option Layout :=
  if s.inFlow then s.settle?.map (·.take .key 1 false)
  else if s.fresh then (s.openHere .blockMapping).settle?.map (·.take .key 1 true)
  else none

/-- The colon before a value. Where a key may have begun it now has, and with it a mapping, unless
one is open at that column. -/
def value? (s : Layout) : Option Layout :=
  match s.candidate with
  | some k =>
    let s := { s with tokens := s.tokens.insert k.number .key }
    let s := s.openBlock .blockMapping k.position.column k.number
    some { s.take .value 1 false with candidate := none }
  | none =>
    if s.inFlow then some (s.take .value 1 false)
    else if s.fresh then some ((s.openHere .blockMapping).take .value 1 true)
    else none

/-! ## Nodes -/

/-- The name of an anchor or alias. -/
def name? (s : Layout) (make : String → Token) : Option Layout := do
  let s ← s.note?
  let (name, cursor) ← Yaml.name? s.cursor
  some { s.emit (make name) with cursor, fresh := false }

def tag? (s : Layout) : Option Layout := do
  let s ← s.note?
  let (tag, cursor) ← Yaml.tag? s.inFlow s.cursor
  some { s.emit (.tag tag) with cursor, fresh := false }

/-- A scalar between quotes of either kind. -/
def quoted? (s : Layout) (style : Style) (read : Cursor → Option (String × Cursor)) :
    Option Layout := do
  let s ← s.note?
  let (text, cursor) ← read s.cursor
  some { s.emit (.scalar style text) with cursor, fresh := false }

/-- A plain scalar. After its last line a key may begin. -/
def plain? (s : Layout) : Option Layout := do
  let s ← s.note?
  let (text, cursor, fresh) ← Yaml.plain? s.inFlow s.margin s.cursor
  some { s.emit (.scalar .plain text) with cursor, fresh }

/-- A block scalar, which is no key; after it a key may begin. -/
def block? (s : Layout) (folded : Bool) : Option Layout := do
  let s ← s.settle?
  let (text, cursor) ← blockScalar? folded s.margin s.cursor
  some { s.emit (.scalar (if folded then .folded else .literal) text) with cursor, fresh := true }

/-! ## Steps -/

/-- Reads what comes next at a place that is no blank. -/
def step? (s : Layout) : Option Layout :=
  match s.cursor.rest with
  | [] => none
  | c :: cs =>
    if s.cursor.column = 0 && c = '%' then s.directive?
    else if s.cursor.atMarker then s.marker?
    else if c = '[' then s.openFlow? .flowSequence
    else if c = '\x7b' then s.openFlow? .flowMapping
    else if c = ']' then s.closeFlow? .flowSequenceEnd
    else if c = '\x7d' then s.closeFlow? .flowMappingEnd
    else if c = ',' then s.comma?
    else if c = '-' && wordEnds cs then s.item?
    else if c = '?' && (s.inFlow || wordEnds cs) then s.key?
    else if c = ':' && (s.inFlow || wordEnds cs) then s.value?
    else if c = '*' then s.name? .alias
    else if c = '&' then s.name? .anchor
    else if c = '!' then s.tag?
    else if (c = '|' || c = '>') && !s.inFlow then s.block? (c = '>')
    else if c = apostrophe then s.quoted? .singleQuoted single?
    else if c = '"' then s.quoted? .doubleQuoted double?
    else if isIndicator c then none
    else s.plain?

/-- Passes blanks and comments, gives up what cannot be a key any more and closes the blocks that
ended. -/
def approach? (s : Layout) : Option Layout :=
  let (cursor, fresh) := s.cursor.skip s.inFlow s.fresh
  let s := { s with cursor, fresh }
  s.expire?.map fun s => s.closeBlocks (s.cursor.column < ·)

/-- All tokens, in order, at the end of the text. -/
def finish? (s : Layout) : Option (List Token) :=
  (s.closeBlocks fun _ => true).settle?.map (·.tokens.toList)

/-- Reads to the end of the text. -/
def scan? : (fuel : Nat) → Layout → Option (List Token)
  | 0, _ => none
  | fuel + 1, s =>
    match s.approach? with
    | none => none
    | some s =>
      if s.cursor.rest.isEmpty then s.finish?
      else
        match s.step? with
        | none => none
        | some s => scan? fuel s

end Layout

/-- The tokens of a text; `none` if its layout is wrong. -/
def tokens? (text : List Char) : Option (List Token) :=
  if text.all isPrintable then
    Layout.scan? (text.length + 1) { cursor := { rest := uniform text } }
  else none

example : tokens? "a: [b]".toList
    = some [.blockMapping, .key, .scalar .plain "a", .value, .flowSequence, .scalar .plain "b",
      .flowSequenceEnd, .blockEnd] := by decide +kernel
example : tokens? "a: b\nc".toList = none := by decide +kernel

end Chip8.Yaml
