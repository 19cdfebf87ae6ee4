/-!
# Hexadecimal text

Numbers as hexadecimal digits, most significant first, padded with zeros to a least width.
A number that needs more digits than the width is written in full.
-/

namespace Chip8.Hex

/-- The digit of `n % 16`, letters in capitals. -/
def digit (n : Nat) : Char :=
  if n % 16 < 10 then Char.ofNat (48 + n % 16) else Char.ofNat (55 + n % 16)

/-- The digit of `n % 16`, letters in lower case. -/
def lowerDigit (n : Nat) : Char :=
  if n % 16 < 10 then Char.ofNat (48 + n % 16) else Char.ofNat (87 + n % 16)

/-- The last `width` digits of `n`. -/
def digits : (width : Nat) → (n : Nat) → List Char
  | 0, _ => []
  | width + 1, n => digits width (n / 16) ++ [digit n]

/-- The number of digits that `n` needs; zero needs one. -/
def width (n : Nat) : Nat := n.log2 / 4 + 1

/-- The digits of `n`, at least `least` of them. -/
def padded (least n : Nat) : List Char := digits (max least (width n)) n

/-- `padded` as text. -/
def text (least n : Nat) : String := String.ofList (padded least n)

@[simp]
theorem length_digits (w n : Nat) : (digits w n).length = w := by
  induction w generalizing n with
  | zero => rfl
  | succ w ih => simp [digits, ih]

example : text 4 0x2A = "002A" := by decide +kernel
example : text 2 0x1FE = "1FE" := by decide +kernel
example : text 3 0 = "000" := by decide +kernel

end Chip8.Hex
