import Chip8.Word

/-!
# Instructions

The thirty-five instruction forms with their operands. Registers are numbers below 16 and jump
targets addresses below 4096, so an instruction can only name what exists. Nine of the forms
are the register arithmetic of family 8, kept as a type of their own.
-/

namespace Chip8

/-- The number of a general register. -/
abbrev Register := Fin 16

/-- V0, which a jump can add to its target. -/
def Register.first : Register := ⟨0, Nat.zero_lt_succ 15⟩

/-- VF, which side outputs go to. -/
def Register.flag : Register := Fin.last 15

/-- An operation on two registers, of which the first receives the result. -/
inductive Arithmetic
  /-- Take the second operand. -/
  | copy
  | or
  | and
  | xor
  /-- Sum; the flag is the carry. -/
  | add
  /-- First minus second; the flag is set if nothing is borrowed. -/
  | sub
  /-- Halve; the flag is the bit shifted out. -/
  | shiftRight
  /-- Second minus first; the flag is set if nothing is borrowed. -/
  | subFrom
  /-- Double; the flag is the bit shifted out. -/
  | shiftLeft
  deriving DecidableEq, Repr

/-- What a word tells the machine to do. -/
inductive Instruction
  /-- Nothing; cleared memory runs as a sequence of these. -/
  | noOp
  | clearScreen
  /-- Go back to the address after the latest call. -/
  | ret
  | jump (target : Fin 4096)
  | call (target : Fin 4096)
  /-- Skip the next instruction if the register holds the value. -/
  | skipEqual (x : Register) (value : UInt8)
  | skipUnequal (x : Register) (value : UInt8)
  /-- Skip the next instruction if both registers hold the same value. -/
  | skipSame (x y : Register)
  | skipDifferent (x y : Register)
  | setByte (x : Register) (value : UInt8)
  /-- Add to the register, without carry. -/
  | addByte (x : Register) (value : UInt8)
  | arithmetic (op : Arithmetic) (x y : Register)
  | setIndex (target : Fin 4096)
  /-- Jump to the sum of the address and V0. -/
  | jumpOffset (target : Fin 4096)
  /-- A random byte, masked. -/
  | random (x : Register) (mask : UInt8)
  /-- Draw the sprite of `rows` bytes at the index, at the point that Vx and Vy name. -/
  | draw (x y : Register) (rows : Fin 16)
  /-- Skip the next instruction if the key that Vx names is down. -/
  | skipPressed (x : Register)
  | skipReleased (x : Register)
  | readDelay (x : Register)
  /-- Wait until a key is down and put its number into the register. -/
  | awaitKey (x : Register)
  | setDelay (x : Register)
  | setSound (x : Register)
  /-- Add the register to the index, modulo 65536. -/
  | addIndex (x : Register)
  /-- Point the index at the glyph of the low digit of Vx. -/
  | pointGlyph (x : Register)
  /-- Write hundreds, tens and ones of Vx to the three bytes at the index. -/
  | storeDecimal (x : Register)
  /-- Write V0 to Vx to the bytes at the index. -/
  | storeRegisters (x : Register)
  /-- Read V0 to Vx from the bytes at the index. -/
  | loadRegisters (x : Register)
  deriving DecidableEq, Repr

end Chip8
