import Chip8.Instruction.Code
import Chip8.Machine
import Chip8.Machine.Arithmetic

/-!
# Execution

`Machine.tick` fetches and executes one instruction. The outcome of a tick is a hint on what the
instruction did, or a fault; either way there is a next state, for a faulting instruction has
done part of its work. A machine that waits for a key does not fetch: it looks at the keypad.

`Machine.run` makes a number of ticks and stops at the first fault.
-/

namespace Chip8

/-- What a tick did, as far as a front end has to know. -/
inductive Flow
  /-- Nothing of the below. -/
  | proceed
  /-- Execution goes on elsewhere. -/
  | jump
  /-- The screen was drawn to. -/
  | draw
  /-- The sound timer was set. -/
  | sound
  /-- The machine waits for a key. -/
  | keyWait
  deriving DecidableEq, Repr, Inhabited

/-- The outcome of an execution step and the state after it. -/
abbrev Step := Except Fault Flow × Machine

namespace Machine

/-! ## Instructions with a loop or a fault -/

/-- Ends a pending wait if a key is down: its number goes to the register and execution goes on
after the waiting instruction. -/
def pollKey (m : Machine) (x : Register) : Step :=
  match m.keypad.lowest? with
  | some key => (.ok .proceed, { m.setRegister x key.toByte with keyWait := none, pc := m.pc + 2 })
  | none => (.ok .keyWait, m)

/-- Register arithmetic. The flag is written after the result, so it wins where both go to VF. -/
def calculate (m : Machine) (op : Arithmetic) (x y : Register) : Machine :=
  let a := m.register x
  let b := m.register y
  let m' := m.setRegister x (op.result m.profile a b)
  match op.flag? m.profile a b with
  | some flag => m'.setFlag flag
  | none => m'

/-- Moves the index past `count` bytes if the profile asks for it. -/
def advanceIndex (m : Machine) (count : Nat) : Machine :=
  if m.profile.advanceIndex then { m with index := m.index + UInt16.ofNat count } else m

/-- Writes bytes at the index. A fault leaves the bytes before it written. -/
def store (m : Machine) (values : List UInt8) : Option Fault × Machine :=
  let (memory, fault?) := m.memory.writeEach m.index.toNat values
  (fault?, { m with memory })

/-- The three decimal digits of a byte. -/
def decimalDigits (value : UInt8) : List UInt8 := [value / 100, value / 10 % 10, value % 10]

def storeDecimal (m : Machine) (x : Register) : Step :=
  match m.store (decimalDigits (m.register x)) with
  | (some fault, m) => (.error fault, m)
  | (none, m) => (.ok .proceed, m)

/-- The index moves only after a complete transfer. -/
def storeRegisters (m : Machine) (x : Register) : Step :=
  match m.store (m.registers.toList.take (x.val + 1)) with
  | (some fault, m) => (.error fault, m)
  | (none, m) => (.ok .proceed, m.advanceIndex (x.val + 1))

/-- The index moves only after a complete transfer; a fault leaves the registers before it
loaded. -/
def loadRegisters (m : Machine) (x : Register) : Step :=
  let (values, fault?) := m.memory.readEach m.index.toNat (x.val + 1)
  let m := m.setFirst values
  match fault? with
  | some fault => (.error fault, m)
  | none => (.ok .proceed, m.advanceIndex (x.val + 1))

/-- Draws a sprite. VF tells whether a pixel was erased; a fault leaves the rows before it drawn
and VF zero. -/
def drawSprite (m : Machine) (x y : Register) (rows : Nat) : Step :=
  let (values, fault?) := m.memory.readEach m.index.toNat rows
  let (erased, screen) := m.screen.drawSprite (m.register x).toNat (m.register y).toNat values
  let m := { m with screen }
  match fault? with
  | some fault => (.error fault, m.setFlag false)
  | none => (.ok .draw, m.setFlag erased)

/-- Skips on the state of the key that a register names. -/
def skipOnKey (m : Machine) (x : Register) (pressed : Bool) : Step :=
  match m.keypad.isPressed (m.register x) with
  | .ok down => (.ok .proceed, m.skipIf (down = pressed))
  | .error fault => (.error fault, m)

def call (m : Machine) (target : Fin 4096) : Step :=
  match m.stack.push (UInt16.ofNat m.pc) with
  | .ok stack => (.ok .jump, { m with stack, pc := target })
  | .error fault => (.error fault, m)

def ret (m : Machine) : Step :=
  match m.stack.pop with
  | .ok (address, stack) => (.ok .jump, { m with stack, pc := address.toNat })
  | .error fault => (.error fault, m)

/-- Takes the next random byte, masked. -/
def takeRandom (m : Machine) (x : Register) (mask : UInt8) : Machine :=
  let (value, random) := m.random.next
  { m.setRegister x (value &&& mask) with random }

/-! ## All instructions -/

/-- Executes the instruction at the program counter. All but the wait for a key first move on to
the next instruction, which is the one that skips skip and that calls return to. -/
def execute (m : Machine) (i : Instruction) : Step :=
  let next := m.advance
  match i with
  | .noOp => (.ok .proceed, next)
  | .clearScreen => (.ok .draw, { next with screen := .blank })
  | .ret => next.ret
  | .jump target => (.ok .jump, { next with pc := target })
  | .call target => next.call target
  | .skipEqual x value => (.ok .proceed, next.skipIf (m.register x = value))
  | .skipUnequal x value => (.ok .proceed, next.skipIf (m.register x ≠ value))
  | .skipSame x y => (.ok .proceed, next.skipIf (m.register x = m.register y))
  | .skipDifferent x y => (.ok .proceed, next.skipIf (m.register x ≠ m.register y))
  | .setByte x value => (.ok .proceed, next.setRegister x value)
  | .addByte x value => (.ok .proceed, next.setRegister x (m.register x + value))
  | .arithmetic op x y => (.ok .proceed, next.calculate op x y)
  | .setIndex target => (.ok .proceed, { next with index := UInt16.ofNat target })
  | .jumpOffset target => (.ok .jump, { next with pc := target + (m.register .first).toNat })
  | .random x mask => (.ok .proceed, next.takeRandom x mask)
  | .draw x y rows => next.drawSprite x y rows
  | .skipPressed x => next.skipOnKey x true
  | .skipReleased x => next.skipOnKey x false
  | .readDelay x => (.ok .proceed, next.setRegister x m.delay)
  | .awaitKey x => { m with keyWait := some x }.pollKey x
  | .setDelay x => (.ok .proceed, { next with delay := m.register x })
  | .setSound x => (.ok .sound, { next with sound := m.register x })
  | .addIndex x => (.ok .proceed, { next with index := m.index + (m.register x).toUInt16 })
  | .pointGlyph x =>
    (.ok .proceed, { next with index := UInt16.ofNat (5 * ((m.register x).toNat % 16)) })
  | .storeDecimal x => next.storeDecimal x
  | .storeRegisters x => next.storeRegisters x
  | .loadRegisters x => next.loadRegisters x

/-! ## Ticks -/

/-- The word at the program counter. -/
def fetch (m : Machine) : Except Fault Word := m.memory.readWord m.pc

/-- Executes a word, if it is code. -/
def executeWord (m : Machine) (w : Word) : Step :=
  match Instruction.decode? w with
  | some i => m.execute i
  | none => (.error (.unknownOpcode w), m.advance)

/-- One tick: looks for the key the machine waits for, or else fetches and executes. -/
def tick (m : Machine) : Step :=
  match m.keyWait with
  | some x => m.pollKey x
  | none =>
    match m.fetch with
    | .ok w => m.executeWord w
    | .error fault => (.error fault, m)

/-- Up to `count` ticks, stopping at the first fault. The outcome is that of the last tick. -/
def run (m : Machine) (count : Nat) : Step :=
  go count .proceed m
where
  /-- Goes on after a tick with the hint `last`. -/
  go : Nat → Flow → Machine → Step
    | 0, last, m => (.ok last, m)
    | count + 1, _, m =>
      match m.tick with
      | (.ok flow, m) => go count flow m
      | (.error fault, m) => (.error fault, m)

end Machine

end Chip8
