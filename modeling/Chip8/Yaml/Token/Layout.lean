import Chip8.Yaml.Token

/-!
# Layout

What is known of a text while its tokens are read: the tokens so far, the columns of the open
blocks, whether a key may begin, and where a key may have begun. That something was a key shows
only at the colon after it, so the token before the key is put in then; the colon must follow on
the same line and within 1024 bytes. A thing at the column of the innermost block can be nothing
but a key, and it is an error if no colon follows.
-/

namespace Chip8.Yaml

/-- A place where a key may have begun. -/
structure Candidate where
  /-- How many tokens stand before it. -/
  number : Nat
  position : Position
  /-- Whether nothing but a key may stand there. -/
  required : Bool
  deriving DecidableEq, Repr

/-- Whether no colon can follow at this place any more. -/
def Candidate.isStale (k : Candidate) (p : Position) : Bool :=
  k.position.line < p.line || k.position.offset + 1024 < p.offset

/-- The tokens so far. -/
structure Tokens where
  /-- The tokens, the latest first. -/
  latest : List Token := []
  count : Nat := 0
  count_eq : count = latest.length := by rfl

namespace Tokens

/-- One more token. -/
def push (ts : Tokens) (t : Token) : Tokens where
  latest := t :: ts.latest
  count := ts.count + 1
  count_eq := by simp [ts.count_eq]

/-- A token put in after the first `number` tokens. -/
def insert (ts : Tokens) (number : Nat) (t : Token) : Tokens where
  latest := ts.latest.take (ts.count - number) ++ t :: ts.latest.drop (ts.count - number)
  count := ts.count + 1
  count_eq := by simp [ts.count_eq]; omega

/-- The tokens in order. -/
def toList (ts : Tokens) : List Token := ts.latest.reverse

theorem toList_push (ts : Tokens) (t : Token) : (ts.push t).toList = ts.toList ++ [t] := by
  simp [push, toList]

theorem toList_insert (ts : Tokens) (number : Nat) (t : Token) :
    (ts.insert number t).toList = ts.toList.take number ++ t :: ts.toList.drop number := by
  rw [insert, toList, toList, List.reverse_append, List.reverse_cons, List.append_assoc,
    List.singleton_append, List.take_reverse, List.drop_reverse, ts.count_eq]

end Tokens

structure Layout where
  cursor : Cursor
  tokens : Tokens := {}
  /-- The columns of the open blocks, the innermost first. -/
  blocks : List Nat := []
  /-- Whether a key may begin here. -/
  fresh : Bool := true
  /-- Where a key may have begun in the innermost collection. -/
  candidate : Option Candidate := none
  /-- The candidates of what surrounds each open flow collection, the innermost first. -/
  outer : List (Option Candidate) := []

namespace Layout

/-- Whether a flow collection is open. -/
def inFlow (s : Layout) : Bool := !s.outer.isEmpty

/-- The column where content of the innermost block begins. -/
def margin (s : Layout) : Nat :=
  match s.blocks with
  | [] => 0
  | column :: _ => column + 1

/-! ## Tokens -/

/-- One more token. -/
def emit (s : Layout) (t : Token) : Layout := { s with tokens := s.tokens.push t }

/-- One more token, written with `count` characters, after which a key may begin or not. -/
def take (s : Layout) (t : Token) (count : Nat) (fresh : Bool) : Layout :=
  { s.emit t with cursor := s.cursor.advanceBy count, fresh }

/-! ## Blocks -/

/-- Opens a block at a column deeper than the innermost one, with its token after the first
`number` tokens. -/
def openBlock (s : Layout) (t : Token) (column number : Nat) : Layout :=
  if !s.inFlow && s.margin ≤ column then
    { s with tokens := s.tokens.insert number t, blocks := column :: s.blocks }
  else s

/-- Opens a block at the cursor. -/
def openHere (s : Layout) (t : Token) : Layout := s.openBlock t s.cursor.column s.tokens.count

/-- Closes the innermost blocks whose columns are of a class. Flow collections do not end by
indentation. -/
def closeBlocks (s : Layout) (ends : Nat → Bool) : Layout :=
  if s.inFlow then s
  else
    { s with
      tokens := (s.blocks.takeWhile ends).foldl (fun ts _ => ts.push .blockEnd) s.tokens
      blocks := s.blocks.dropWhile ends }

/-! ## Keys -/

/-- Gives up the candidate of the innermost collection. -/
def settle? (s : Layout) : Option Layout :=
  if s.candidate.any (·.required) then none else some { s with candidate := none }

/-- Notes that a key may begin here. -/
def note? (s : Layout) : Option Layout :=
  if s.fresh then
    s.settle?.map fun s =>
      { s with
        candidate := some
          { number := s.tokens.count
            position := s.cursor.position
            required := !s.inFlow && s.blocks.head? = some s.cursor.column } }
  else some s

/-- Gives up the candidate of the innermost collection if it is stale. The others are looked at
when their collection is the innermost again. -/
def expire? (s : Layout) : Option Layout :=
  if s.candidate.any (·.isStale s.cursor.position) then s.settle? else some s

end Layout

end Chip8.Yaml
