import Chip8.Number
import Chip8.Yaml.Cursor
import Chip8.Yaml.Folding

/-!
# Plain and quoted scalars

A plain scalar ends where something else can only begin: at a colon that a blank follows, at a
number sign after a blank, and, in a flow collection, at a bracket or comma. Outside flow
collections its further lines are indented at least to `margin`, the column where content of the
surrounding block begins.

A quoted scalar ends at its closing quote, wherever that stands.
-/

namespace Chip8.Yaml

/-! ## Plain scalars -/

/-- Characters that only delimit in flow collections. -/
def isFlowIndicator (c : Char) : Bool := c = ',' || c = '[' || c = ']' || c = '\x7b' || c = '\x7d'

/-- Whether a character begins no plain scalar, whatever follows it. -/
def isIndicator (c : Char) : Bool :=
  isFlowIndicator c || isBlank c || isBreak c || c = '#' || c = '&' || c = '*' || c = '!' || c = '|'
    || c = '>' || c.toNat = 39 || c = '"' || c = '%' || c = '@' || c.toNat = 96

/-- The characters up to the end of a word and those after it. In a flow collection a colon
before a bracket or comma is no part of any word. -/
def word? (flow : Bool) : List Char → Option (List Char × List Char)
  | [] => some ([], [])
  | c :: cs =>
    if isBlank c || isBreak c || (flow && isFlowIndicator c) then some ([], c :: cs)
    else if c = ':' then
      match cs with
      | [] => some ([], [c])
      | d :: _ =>
        if flow && (isFlowIndicator d || d = '?') then none
        else if isBlank d || isBreak d then some ([], c :: cs)
        else (word? flow cs).map fun (w, rest) => (c :: w, rest)
    else (word? flow cs).map fun (w, rest) => (c :: w, rest)

/-- The blanks and line ends that come next, and what follows them. A tab that stands in for
indentation is an error. -/
def gap? (margin : Nat) (broken : Bool) (p : Position) :
    List Char → Option (List Char × List Char)
  | [] => some ([], [])
  | c :: cs =>
    if isBreak c then (gap? margin true (p.after c) cs).map fun (g, rest) => (c :: g, rest)
    else if isBlank c then
      if broken && p.column < margin && c = '\t' then none
      else (gap? margin broken (p.after c) cs).map fun (g, rest) => (c :: g, rest)
    else some ([], c :: cs)

/-- The characters of a plain scalar, where it ends, and whether a line end stands before that. -/
structure Words where
  chars : List Char
  cursor : Cursor
  broken : Bool

/-- The further words of a plain scalar, after a word. -/
def moreWords? (flow : Bool) (margin : Nat) : (fuel : Nat) → Cursor → Option Words
  | 0, _ => none
  | fuel + 1, c =>
    match gap? margin false c.position c.rest with
    | none => none
    | some (g, rest) =>
      let next := c.past g rest
      let ended := { chars := [], cursor := next, broken := g.any isBreak }
      if g.isEmpty || next.rest.isEmpty || next.atMarker || next.at? '#'
          || (!flow && next.column < margin) then
        some ended
      else
        match word? flow rest with
        | none => none
        | some ([], _) => some ended
        | some (w, rest) =>
          (moreWords? flow margin fuel (next.past w rest)).map fun words =>
            { words with chars := g ++ w ++ words.chars }

/-- A plain scalar: its text, the cursor after it, and whether a line end stands before that. -/
def plain? (flow : Bool) (margin : Nat) (c : Cursor) : Option (String × Cursor × Bool) :=
  match word? flow c.rest with
  | none | some ([], _) => none
  | some (w, rest) =>
    (moreWords? flow margin (rest.length + 1) (c.past w rest)).map fun words =>
      (foldPlain (w ++ words.chars), words.cursor, words.broken)

/-! ## Quoted scalars -/

/-- The apostrophe. -/
def apostrophe : Char := Char.ofNat 39

/-- The characters up to the closing apostrophe, pairs of apostrophes included, and those after
it. A line that ends the document ends it too early. -/
def singleBody? (lineStart : Bool) : List Char → Option (List Char × List Char)
  | [] => none
  | c :: cs =>
    if lineStart && isMarker (c :: cs) then none
    else if c = apostrophe then
      match cs with
      | d :: cs' =>
        if d = apostrophe then (singleBody? false cs').map fun (b, rest) => (c :: d :: b, rest)
        else some ([], cs)
      | [] => some ([], [])
    else (singleBody? (isBreak c) cs).map fun (b, rest) => (c :: b, rest)

/-- The parts of the text between apostrophes; a pair stands for one. -/
def singlePieces : List Char → List Piece
  | [] => []
  | [c] => [.of c]
  | c :: d :: cs =>
    if c = apostrophe && d = apostrophe then .ink apostrophe :: singlePieces cs
    else .of c :: singlePieces (d :: cs)

/-- The characters up to the closing quote, escapes included, and those after it. -/
def doubleBody? (lineStart : Bool) : List Char → Option (List Char × List Char)
  | [] => none
  | c :: cs =>
    if lineStart && isMarker (c :: cs) then none
    else if c = '"' then some ([], cs)
    else if c = '\\' then
      match cs with
      | [] => none
      | d :: cs => (doubleBody? (isBreak d) cs).map fun (b, rest) => (c :: d :: b, rest)
    else (doubleBody? (isBreak c) cs).map fun (b, rest) => (c :: b, rest)

/-- The character that a one-letter escape stands for. -/
def escaped? (c : Char) : Option Char :=
  match c with
  | '0' => some '\x00'
  | 'a' => some '\x07'
  | 'b' => some '\x08'
  | 't' | '\t' => some '\t'
  | 'n' => some '\n'
  | 'v' => some '\x0b'
  | 'f' => some '\x0c'
  | 'r' => some '\r'
  | 'e' => some '\x1b'
  | ' ' | '"' | '/' | '\\' => some c
  | 'N' => some (Char.ofNat 0x85)
  | '_' => some (Char.ofNat 0xA0)
  | 'L' => some (Char.ofNat 0x2028)
  | 'P' => some (Char.ofNat 0x2029)
  | _ => none

/-- How many hexadecimal digits follow the letter of a numeric escape. -/
def escapeDigits? : Char → Option Nat
  | 'x' => some 2
  | 'u' => some 4
  | 'U' => some 8
  | _ => none

/-- The character of a code point written in exactly `count` hexadecimal digits. -/
def codePoint? (count : Nat) (cs : List Char) : Option Char :=
  let ds := cs.take count
  if ds.length = count && (ds.all fun c => (Number.hexDigit? c).isSome) then
    match Number.accumulate Number.hexDigit? 16 0x110000 0 ds with
    | some n => if n.isValidChar then some (Char.ofNat n) else none
    | none => none
  else none

/-- The parts of the text between quotes. -/
def doublePieces? : (fuel : Nat) → List Char → Option (List Piece)
  | 0, _ => none
  | _, [] => some []
  | fuel + 1, '\\' :: c :: cs =>
    if isBreak c then (doublePieces? fuel cs).map (.joint :: ·)
    else
      match escapeDigits? c with
      | some count =>
        match codePoint? count cs with
        | some d => (doublePieces? fuel (cs.drop count)).map (.ink d :: ·)
        | none => none
      | none =>
        match escaped? c with
        | some d => (doublePieces? fuel cs).map (.ink d :: ·)
        | none => none
  | fuel + 1, c :: cs => (doublePieces? fuel cs).map (.of c :: ·)

/-- A scalar in apostrophes, whose first apostrophe comes next. -/
def single? (c : Cursor) : Option (String × Cursor) :=
  (singleBody? false (c.rest.drop 1)).map fun (body, rest) =>
    (String.ofList (fold {} (singlePieces body)), c.past (apostrophe :: body ++ [apostrophe]) rest)

/-- A scalar in quotes, whose first quote comes next. -/
def double? (c : Cursor) : Option (String × Cursor) :=
  match doubleBody? false (c.rest.drop 1) with
  | none => none
  | some (body, rest) =>
    (doublePieces? (body.length + 1) body).map fun pieces =>
      (String.ofList (fold {} pieces), c.past ('"' :: body ++ ['"']) rest)

end Chip8.Yaml
