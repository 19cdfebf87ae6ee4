import Chip8.Number
import Chip8.Yaml.Cursor

/-!
# Names and tags

Anchors and aliases have names of letters, digits and two signs. A tag is written in full in angle
brackets, or with a handle that stands for its beginning. Its bytes are those of its characters,
where an escape of a percent sign and two hexadecimal digits is one byte, and they end at the first
byte that is zero. Escaped bytes must have the form of UTF-8.
-/

namespace Chip8.Yaml

/-! ## Names -/

/-- The name after the sign of an anchor or alias. -/
def name? (c : Cursor) : Option (String × Cursor) :=
  let c := c.advance
  let name := c.rest.takeWhile isNameChar
  let c := c.pastWhile isNameChar
  let closed := c.rest.head?.all fun d =>
    isBlank d || isBreak d || d = '?' || d = ':' || d = ',' || d = ']' || d = '\x7d' || d = '%'
      || d = '@' || d.toNat = 96
  if !name.isEmpty && closed then some (String.ofList name, c) else none

/-! ## Escapes -/

/-- A byte written with a percent sign and two digits. -/
def octet? (c : Cursor) : Option (UInt8 × Cursor) :=
  match c.rest with
  | '%' :: a :: b :: _ =>
    match Number.hexDigit? a, Number.hexDigit? b with
    | some a, some b => some (UInt8.ofNat (16 * a + b), c.advanceBy 3)
    | _, _ => none
  | _ => none

/-- How many bytes of a character follow its first. -/
def followers? (first : UInt8) : Option Nat :=
  let n := first.toNat
  if n < 0x80 then some 0
  else if 0xC0 ≤ n ∧ n < 0xE0 then some 1
  else if 0xE0 ≤ n ∧ n < 0xF0 then some 2
  else if 0xF0 ≤ n ∧ n < 0xF8 then some 3
  else none

/-- Escaped bytes that are not the first of a character. -/
def octets? : (count : Nat) → Cursor → Option (List UInt8 × Cursor)
  | 0, c => some ([], c)
  | count + 1, c => do
    let (octet, c) ← octet? c
    if 0x80 ≤ octet.toNat ∧ octet.toNat < 0xC0 then
      let (octets, c) ← octets? count c
      some (octet :: octets, c)
    else none

/-- An escaped character. -/
def escape? (c : Cursor) : Option (List UInt8 × Cursor) := do
  let (first, c) ← octet? c
  let (octets, c) ← octets? (← followers? first) c
  some (first :: octets, c)

/-! ## Tags -/

/-- The characters of a tag; commas and brackets only in a tag written in full. -/
def isTagChar (full : Bool) (c : Char) : Bool :=
  isNameChar c || c = ';' || c = '/' || c = '?' || c = ':' || c = '@' || c = '&' || c = '='
    || c = '+' || c = '$' || c = '.' || c = '!' || c = '~' || c = '*' || c.toNat = 39 || c = '('
    || c = ')' || c = '%' || (full && (c = ',' || c = '[' || c = ']'))

/-- The bytes of a tag as far as its characters go. -/
def tagOctets? (full : Bool) : (fuel : Nat) → Cursor → Option (List UInt8 × Cursor)
  | 0, _ => none
  | fuel + 1, c =>
    match c.rest with
    | [] => some ([], c)
    | d :: _ =>
      if !isTagChar full d then some ([], c)
      else do
        let (octets, c) ← if d = '%' then escape? c else some ([UInt8.ofNat d.toNat], c.advance)
        let (more, c) ← tagOctets? full fuel c
        some (octets ++ more, c)

/-- The bytes up to the first that is zero. -/
def untilZero (octets : List UInt8) : List UInt8 := octets.takeWhile (· ≠ 0)

/-- The bytes of a tag or of its beginning, which may not be missing. -/
def tagText? (full : Bool) (c : Cursor) : Option (List UInt8 × Cursor) :=
  match tagOctets? full (c.rest.length + 1) c with
  | some (octet :: octets, c) => some (untilZero (octet :: octets), c)
  | _ => none

/-- A tag as it is written: a handle and what comes after it. -/
structure Tag where
  /-- The handle, empty for a tag written in full. -/
  handle : String
  ending : List UInt8
  deriving DecidableEq, Repr

/-- What handles stand for. -/
abbrev Handles := List (String × List UInt8)

/-- The handles that need no directive. -/
def Handles.standard : Handles := [("!", [33]), ("!!", "tag:yaml.org,2002:".toUTF8.toList)]

/-- The bytes of a tag whose handle is known. -/
def Tag.octets? (handles : Handles) (tag : Tag) : Option (List UInt8) :=
  if tag.handle = "" then some tag.ending
  else (handles.lookup tag.handle).map (· ++ tag.ending)

/-- The beginning of a tag up to a second exclamation mark, or as far as a name goes. -/
def handle? (c : Cursor) : Option (List Char × Cursor) :=
  if c.at? '!' then
    let c := c.advance
    let name := c.rest.takeWhile isNameChar
    let c := c.pastWhile isNameChar
    some (if c.at? '!' then ('!' :: name ++ ['!'], c.advance) else ('!' :: name, c))
  else none

/-- Whether the beginning of a tag is a handle between two exclamation marks. -/
def isClosedHandle (handle : List Char) : Bool := 2 ≤ handle.length && handle.getLast? = some '!'

/-- A tag written in full. -/
def fullTag? (c : Cursor) : Option (Tag × Cursor) := do
  let (ending, c) ← tagText? true (c.advanceBy 2)
  if c.at? '>' then some ({ handle := "", ending }, c.advance) else none

/-- A tag written with a handle. A lone exclamation mark is a tag of its own. -/
def shortTag? (c : Cursor) : Option (Tag × Cursor) := do
  let (handle, c) ← handle? c
  if isClosedHandle handle then
    let (ending, c) ← tagText? false c
    some ({ handle := String.ofList handle, ending }, c)
  else
    let (octets, c) ← tagOctets? false (c.rest.length + 1) c
    let ending := untilZero ((handle.drop 1).map (fun d => UInt8.ofNat d.toNat) ++ octets)
    some (if ending.isEmpty then { handle := "", ending := [33] } else { handle := "!", ending }, c)

/-- A tag whose first exclamation mark comes next. A blank must follow, or in a flow collection a
comma. -/
def tag? (flow : Bool) (c : Cursor) : Option (Tag × Cursor) := do
  let (tag, c) ← if c.rest.take 2 = ['!', '<'] then fullTag? c else shortTag? c
  if wordEnds c.rest || (flow && c.at? ',') then some (tag, c) else none

end Chip8.Yaml
