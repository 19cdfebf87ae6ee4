import Chip8.Machine

/-!
# Listing of the program area

The bytes from the start of the program area on as text, two to a line, each line with its
address. A last odd byte stands alone.
-/

namespace Chip8

namespace Listing

/-- The line of the bytes at an address. -/
def line (address : Nat) (values : List UInt8) : List Char :=
  Hex.padded 4 address ++ [':', ' '] ++ values.flatMap (fun b => Hex.padded 2 b.toNat) ++ ['\n']

/-- The lines of bytes that begin at an address. -/
def lines (address : Nat) : List UInt8 → List Char
  | [] => []
  | [a] => line address [a]
  | a :: b :: rest => line address [a, b] ++ lines (address + 2) rest

end Listing

/-- The listing of the first `count` bytes of the program area, or of all of it if it is
smaller. A count whose end address does not fit into 64 bits has no listing. -/
def Machine.listing? (m : Machine) (count : Nat) : Option String :=
  if 0x200 + count < UInt64.size then
    some (String.ofList (Listing.lines 0x200 (m.memory.slice 0x200 (0x200 + count))))
  else none

end Chip8
