import Chip8.Hex

/-!
# Faults

What a machine can refuse: a fault is its cause with the data that names it, and `message` is
the text a user reads. `inspect` writes the cause and its data field by field.
-/

namespace Chip8

/-- The causes for which an operation of the machine fails. -/
inductive Fault
  /-- A call while all sixteen return addresses are in use. -/
  | stackOverflow
  /-- A return without a call. -/
  | stackUnderflow
  /-- An access past the end of memory. -/
  | outOfBounds (address : Nat)
  /-- A word that is no instruction. -/
  | unknownOpcode (word : UInt16)
  /-- A key number above F. -/
  | badKeyIndex (index : UInt8)
  /-- A program that does not fit into memory. -/
  | largeProgram (size : Nat)
  /-- Glyph data of another length than 80 bytes. -/
  | font (size : Nat)
  deriving DecidableEq, Repr, Inhabited

namespace Fault

/-- The sentence reported for a fault. Addresses, words and keys are hexadecimal, sizes decimal. -/
def message : Fault → String
  | stackOverflow => "call stack overflow"
  | stackUnderflow => "call stack underflow"
  | outOfBounds address => "memory access out of bounds at 0x" ++ Hex.text 4 address
  | unknownOpcode word => "unsupported opcode " ++ Hex.text 4 word.toNat
  | badKeyIndex index => "key index 0x" ++ Hex.text 2 index.toNat ++ " out of range 0 <= key < 16"
  | largeProgram size =>
    "program of " ++ toString size ++ " bytes too large for VM memory, limit is 3584"
  | font size => "fontset data must be 80 bytes, got " ++ toString size

/-- The name of the cause alone. -/
def label : Fault → String
  | stackOverflow => "StackOverflow"
  | stackUnderflow => "StackUnderflow"
  | outOfBounds _ => "OutOfBounds"
  | unknownOpcode _ => "UnknownOpcode"
  | badKeyIndex _ => "BadKeyIndex"
  | largeProgram _ => "LargeProgram"
  | font _ => "Font"

/-- The data of the cause: named fields in braces, a lone number in parentheses. -/
def payload : Fault → String
  | stackOverflow | stackUnderflow => ""
  | outOfBounds address => " \x7b address: " ++ toString address ++ " \x7d"
  | unknownOpcode word => "(" ++ toString word.toNat ++ ")"
  | badKeyIndex index => "(" ++ toString index.toNat ++ ")"
  | largeProgram size | font size => " \x7b size: " ++ toString size ++ " \x7d"

/-- The cause and its data, for diagnosis. -/
def inspect (fault : Fault) : String := fault.label ++ fault.payload

end Fault

end Chip8
