import Chip8.Hex

/-!
# Instruction words

A word is sixteen bits, stored high byte first. Its four digits are, from the top, the family,
the registers `x` and `y`, and the small operand `n`; the last two digits together are `nn` and
the last three `nnn`. Operands are quotients and remainders of the word's value, so they have
their range in their type.
-/

namespace Chip8

/-- One instruction word. -/
abbrev Word := UInt16

namespace Word

/-- The word whose high byte is `high` and whose low byte is `low`. -/
def ofBytes (high low : UInt8) : Word := UInt16.ofNat (256 * high.toNat + low.toNat)

/-- The first digit, which names the family of the instruction. -/
def family (w : Word) : Fin 16 := ⟨w.toNat / 4096 % 16, by omega⟩

/-- The second digit, a register. -/
def x (w : Word) : Fin 16 := ⟨w.toNat / 256 % 16, by omega⟩

/-- The third digit, a register. -/
def y (w : Word) : Fin 16 := ⟨w.toNat / 16 % 16, by omega⟩

/-- The last digit, a row count or an operation within a family. -/
def n (w : Word) : Fin 16 := ⟨w.toNat % 16, by omega⟩

/-- The low byte. -/
def nn (w : Word) : UInt8 := UInt8.ofNat (w.toNat % 256)

/-- The last three digits, an address. -/
def nnn (w : Word) : Fin 4096 := ⟨w.toNat % 4096, by omega⟩

/-- Whether the word has the form `Fx0A`, the wait for a key. -/
def isKeyWait (w : Word) : Bool := w.toNat / 4096 = 0xF ∧ w.toNat % 256 = 0x0A

/-- The four digits of the word. -/
def text (w : Word) : String := Hex.text 4 w.toNat

example : (family 0xD12F, x 0xD12F, y 0xD12F, n 0xD12F) = (0xD, 1, 2, 0xF) := by decide
example : (nn 0xD12F, nnn 0xD12F) = (0x2F, 0x12F) := by decide
example : isKeyWait 0xFA0A ∧ ¬ isKeyWait 0xFA07 ∧ ¬ isKeyWait 0xEA0A := by decide

end Word

end Chip8
