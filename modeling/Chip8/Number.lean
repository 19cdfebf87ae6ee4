/-!
# Reading numbers

Unsigned numbers in base ten or sixteen, below a limit: an optional plus sign and at least one
digit, nothing else. Leading zeros are allowed, so the limit is one of value and not of length.
-/

namespace Chip8.Number

/-- The value of a digit in base ten. -/
def decimalDigit? (c : Char) : Option Nat :=
  if '0' ≤ c ∧ c ≤ '9' then some (c.toNat - 48) else none

/-- The value of a digit in base sixteen, in either case. -/
def hexDigit? (c : Char) : Option Nat :=
  if '0' ≤ c ∧ c ≤ '9' then some (c.toNat - 48)
  else if 'a' ≤ c ∧ c ≤ 'f' then some (c.toNat - 87)
  else if 'A' ≤ c ∧ c ≤ 'F' then some (c.toNat - 55)
  else none

/-- The value of digits that follow digits of the value `high`, as long as it is below
`limit`. -/
def accumulate (digit? : Char → Option Nat) (base limit : Nat) (high : Nat) : List Char → Option Nat
  | [] => some high
  | c :: cs =>
    match digit? c with
    | none => none
    | some d =>
      let value := base * high + d
      if value < limit then accumulate digit? base limit value cs else none

/-- The text without its plus sign. -/
def unsigned : List Char → List Char
  | '+' :: cs => cs
  | cs => cs

/-- The value of at least one digit after an optional plus sign. -/
def read? (digit? : Char → Option Nat) (base limit : Nat) (cs : List Char) : Option Nat :=
  match unsigned cs with
  | [] => none
  | c :: cs => accumulate digit? base limit 0 (c :: cs)

/-- A decimal number below 2^64. -/
def decimal? (text : String) : Option Nat := read? decimalDigit? 10 UInt64.size text.toList

/-- A hexadecimal number below 256. -/
def hexByte? (text : String) : Option UInt8 :=
  (read? hexDigit? 16 256 text.toList).map UInt8.ofNat

example : decimal? "+007" = some 7 := by cbv
example : decimal? "18446744073709551616" = none := by cbv
example : hexByte? "0fF" = some 255 := by cbv
example : hexByte? "+" = none := by cbv

end Chip8.Number
