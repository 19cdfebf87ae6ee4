import Chip8.Instruction
import Chip8.Profile

/-!
# Register arithmetic

The result of each family 8 operation and its flag, where it has one. Both operands are read
before anything is written.
-/

namespace Chip8.Arithmetic

/-- The operand of a shift. -/
def shifted (profile : Profile) (a b : UInt8) : UInt8 := if profile.shiftSecond then b else a

/-- What the first register receives. -/
def result (op : Arithmetic) (profile : Profile) (a b : UInt8) : UInt8 :=
  match op with
  | copy => b
  | or => a ||| b
  | and => a &&& b
  | xor => a ^^^ b
  | add => a + b
  | sub => a - b
  | shiftRight => shifted profile a b >>> 1
  | subFrom => b - a
  | shiftLeft => shifted profile a b <<< 1

/-- What VF receives: the carry, the absence of a borrow, or the bit shifted out. The bitwise
operations leave VF alone. -/
def flag? (op : Arithmetic) (profile : Profile) (a b : UInt8) : Option Bool :=
  match op with
  | copy | or | and | xor => none
  | add => some (a.toNat + b.toNat ≥ 256)
  | sub => some (b.toNat ≤ a.toNat)
  | shiftRight => some ((shifted profile a b).toNat % 2 = 1)
  | subFrom => some (a.toNat ≤ b.toNat)
  | shiftLeft => some ((shifted profile a b).toNat ≥ 128)

example : (result .add {} 200 100, flag? .add {} 200 100) = (44, some true) := by decide
example : (result .sub {} 1 2, flag? .sub {} 1 2) = (255, some false) := by decide
example : flag? .shiftLeft { shiftSecond := true } 0 0x80 = some true := by decide

end Chip8.Arithmetic
