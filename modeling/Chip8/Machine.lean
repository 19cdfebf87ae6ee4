import Chip8.CallStack
import Chip8.Instruction
import Chip8.Keypad
import Chip8.Memory
import Chip8.Profile
import Chip8.Random
import Chip8.Screen

/-!
# The machine

`Core` is what a program sees and a reset clears; `Machine` adds what outlives a reset: the
profile, the font in force, the random stream and the count of beeps played.

What can be refused gives its outcome and the state after it, which a refusal leaves as it was.

This module holds creation, reset, loading, keys and timers. Instructions are executed in
`Chip8.Machine.Execution`.
-/

namespace Chip8

/-- The state that a reset clears. -/
structure Core where
  /-- The address of the next instruction. -/
  pc : Nat
  registers : Vector UInt8 16
  /-- The address register I. It is not cut to memory, so an access through it can fail. -/
  index : UInt16
  /-- The delay timer DT. -/
  delay : UInt8
  /-- The sound timer ST; a beep is played when it runs out. -/
  sound : UInt8
  /-- The register that a pending wait for a key will fill. -/
  keyWait : Option Register
  memory : Memory
  stack : CallStack
  screen : Screen
  keypad : Keypad

/-- The state after a reset: everything cleared, the glyphs installed, execution at the start
of the program area. -/
def Core.initial (font : Font) : Core where
  pc := 0x200
  registers := Vector.replicate 16 0
  index := 0
  delay := 0
  sound := 0
  keyWait := none
  memory := Memory.zero.withFont font
  stack := .empty
  screen := .blank
  keypad := .released

/-- A machine with its devices. -/
structure Machine extends Core where
  profile : Profile
  /-- The glyphs that each reset installs. -/
  font : Font
  random : RandomStream
  /-- How often the beeper was played. -/
  beeps : Nat

namespace Machine

/-! ## Creation and loading -/

/-- A new machine with the built-in glyphs. -/
def new (profile : Profile) (random : RandomStream) : Machine :=
  { toCore := .initial .builtin, profile, font := .builtin, random, beeps := 0 }

/-- Clears everything but profile, font, random stream and beep count. -/
def reset (m : Machine) : Machine := { m with toCore := .initial m.font }

/-- Resets the machine and puts a program at the start of the program area. The size of the program
is looked at before the reset. -/
def load (m : Machine) (program : List UInt8) : Except Fault Unit × Machine :=
  if program.length > 3584 then (.error (.largeProgram program.length), m)
  else
    let m := m.reset
    match m.memory.copy 0x200 program with
    | .ok memory => (.ok (), { m with memory })
    | .error fault => (.error fault, m)

/-- Replaces the glyphs, now and for every later reset. -/
def loadFont (m : Machine) (glyphs : List UInt8) : Except Fault Unit × Machine :=
  match Font.ofList? glyphs with
  | some font => (.ok (), { m with font, memory := m.memory.withFont font })
  | none => (.error (.font glyphs.length), m)

/-! ## Keys -/

/-- Puts a key down or up. -/
def setKey (m : Machine) (key : Key) (pressed : Bool) : Machine :=
  { m with keypad := m.keypad.set key pressed }

/-- Puts the key of a number down or up. -/
def pressKey (m : Machine) (index : UInt8) (pressed : Bool) : Except Fault Unit × Machine :=
  match m.keypad.press index pressed with
  | .ok keypad => (.ok (), { m with keypad })
  | .error fault => (.error fault, m)

/-- Puts all keys up. -/
def clearKeys (m : Machine) : Machine := { m with keypad := .released }

/-- Whether the machine stands still until a key is down. -/
def isWaiting (m : Machine) : Bool := m.keyWait.isSome

/-! ## Timers -/

/-- Counts both timers down and tells whether the sound timer ran out, which plays the beeper.
A timer at zero stays there. -/
def tickTimers (m : Machine) : Bool × Machine :=
  let sounded := m.sound = 1
  (sounded,
    { m with
      delay := if m.delay = 0 then 0 else m.delay - 1
      sound := if m.sound = 0 then 0 else m.sound - 1
      beeps := if sounded then m.beeps + 1 else m.beeps })

/-! ## Elementary changes -/

/-- The value of a register. -/
def register (m : Machine) (x : Register) : UInt8 := m.registers[x]

/-- Puts a value into a register. -/
def setRegister (m : Machine) (x : Register) (value : UInt8) : Machine :=
  { m with registers := m.registers.set x value }

/-- Puts a side output into VF: 1 if it holds, else 0. -/
def setFlag (m : Machine) (flag : Bool) : Machine := m.setRegister .flag (if flag then 1 else 0)

/-- Puts values into the registers from V0 on. -/
def setFirst (m : Machine) (values : List UInt8) : Machine :=
  { m with registers := m.registers.mapIdx fun k old => values.getD k old }

/-- Moves on by one instruction. -/
def advance (m : Machine) : Machine := { m with pc := m.pc + 2 }

/-- Moves on by one more instruction if the condition holds. -/
def skipIf (m : Machine) (condition : Bool) : Machine := if condition then m.advance else m

end Machine

end Chip8
