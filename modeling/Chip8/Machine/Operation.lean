import Chip8.Machine.Execution

/-!
# Operations

Everything a front end can ask of a machine, as data. `Machine.apply` performs an operation:
its answer or its fault, and the state after it. A refused load, font or key leaves the state that
it was asked of, a faulting tick what it did.
-/

namespace Chip8

/-- A request to a machine. -/
inductive Operation
  | load (program : List UInt8)
  | loadFont (glyphs : List UInt8)
  | reset
  | tick
  | run (count : Nat)
  | tickTimers
  | keyDown (index : UInt8)
  | keyUp (index : UInt8)
  | setKey (key : Key) (pressed : Bool)
  | clearKeys
  deriving DecidableEq, Repr

/-- What a request that succeeds is answered with. -/
inductive Answer
  | done
  | flow (flow : Flow)
  /-- Whether the beeper was played. -/
  | sounded (sounded : Bool)
  deriving DecidableEq, Repr

namespace Machine

/-- Performs one request. -/
def apply (m : Machine) : Operation → Except Fault Answer × Machine
  | .load program => let (outcome, m) := m.load program; (outcome.map fun () => .done, m)
  | .loadFont glyphs => let (outcome, m) := m.loadFont glyphs; (outcome.map fun () => .done, m)
  | .reset => (.ok .done, m.reset)
  | .tick => let (outcome, m) := m.tick; (outcome.map .flow, m)
  | .run count => let (outcome, m) := m.run count; (outcome.map .flow, m)
  | .tickTimers => let (sounded, m) := m.tickTimers; (.ok (.sounded sounded), m)
  | .keyDown index => let (outcome, m) := m.pressKey index true; (outcome.map fun () => .done, m)
  | .keyUp index => let (outcome, m) := m.pressKey index false; (outcome.map fun () => .done, m)
  | .setKey key pressed => (.ok .done, m.setKey key pressed)
  | .clearKeys => (.ok .done, m.clearKeys)

/-- Performs requests in order, also after refused ones: the answers and the last state. -/
def applyAll (m : Machine) : List Operation → List (Except Fault Answer) × Machine
  | [] => ([], m)
  | op :: ops =>
    let (answer, m) := m.apply op
    let (answers, m) := m.applyAll ops
    (answer :: answers, m)

end Machine

end Chip8
