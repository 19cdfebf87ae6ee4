import Chip8.Yaml.Node.Reader
import Chip8.Yaml.Token.Lexer

/-!
# Documents

A text holds one document, or nothing at all. Directives and the line `---` may stand before its
node and lines `...` after it; a second document may not.
-/

namespace Chip8.Yaml

/-- What handles stand for after the directives that come next. A handle and the version may be
given once; what the standard handles stand for may be changed. -/
def directives? : (versioned : Bool) → Handles → List Token → Option (Handles × List Token)
  | versioned, handles, .version major minor :: ts =>
    if versioned || major ≠ 1 || (minor ≠ 1 && minor ≠ 2) then none
    else directives? true handles ts
  | versioned, handles, .handle name start :: ts =>
    if (handles.lookup name).isSome then none
    else directives? versioned ((name, start) :: handles) ts
  | _, handles, ts => some (handles ++ .standard, ts)

/-- Whether no node can begin with the tokens that come next, but the document may. -/
def isBare : List Token → Bool
  | [] | .version .. :: _ | .handle .. :: _ | .documentStart :: _ | .documentEnd :: _ => true
  | _ => false

/-- The node of a document with the tokens after it. Where nothing follows the line that begins
the document, its node is not there. -/
def content? (handles : Handles) (explicit : Bool) (ts : List Token) :
    Option (Node × List Token) :=
  if explicit && isBare ts then some (.absent, ts)
  else
    (Reader.node? handles true false (4 * ts.length + 4) { tokens := ts }).map
      fun (node, s) => (node, s.tokens)

/-- The node of the tokens of a text. -/
def Node.ofTokens? (ts : List Token) : Option Node :=
  if ts.isEmpty then some .absent
  else do
    let (handles, rest) ← directives? false [] ts
    let (node, rest) ← match rest with
      | .documentStart :: rest => content? handles true rest
      | rest => if rest.length = ts.length then content? handles false rest else none
    if rest.all (· = .documentEnd) then some node else none

/-- The node of a text of one document; `none` for a text that is no document, and an absent
scalar where no node is written. -/
def read? (text : List Char) : Option Node := (tokens? text).bind Node.ofTokens?

end Chip8.Yaml
