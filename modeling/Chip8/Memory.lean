import Chip8.Fault
import Chip8.Font
import Chip8.Word

/-!
# Memory

Four kilobytes, each access checked. Addresses are natural numbers, so an address past the end
is refused and never wraps.

`copy` writes a block or nothing. `readEach` and `writeEach` go byte by byte up to the first
refused address and say where they stopped: what was done until then stays done.
-/

namespace Chip8

/-- The bytes of the machine at the addresses 0 to 4095. -/
structure Memory where
  cells : Vector UInt8 4096

namespace Memory

/-- All bytes zero. -/
def zero : Memory := ⟨Vector.replicate 4096 0⟩

/-! ## Single accesses -/

/-- The byte at an address. -/
def read (m : Memory) (address : Nat) : Except Fault UInt8 :=
  if h : address < 4096 then .ok m.cells[address] else .error (.outOfBounds address)

/-- The memory with one byte replaced. -/
def write (m : Memory) (address : Nat) (value : UInt8) : Except Fault Memory :=
  if h : address < 4096 then .ok ⟨m.cells.set address value h⟩ else .error (.outOfBounds address)

/-- The word at an address, high byte first; the fault names the first byte that is missing. -/
def readWord (m : Memory) (address : Nat) : Except Fault Word :=
  match m.read address with
  | .error fault => .error fault
  | .ok high =>
    match m.read (address + 1) with
    | .error fault => .error fault
    | .ok low => .ok (Word.ofBytes high low)

/-- A write decides its own address and no other. -/
theorem read_write {m m' : Memory} {address : Nat} {value : UInt8}
    (h : m.write address value = .ok m') (a : Nat) :
    m'.read a = if a = address then .ok value else m.read a := by
  unfold write at h
  split at h
  · rename_i inside
    cases h
    by_cases e : a = address
    · subst e
      simp [read, inside]
    · simp only [read, e, ↓reduceIte]
      split
      · rw [Vector.getElem_set_ne _ _ (fun h => e h.symm)]
      · rfl
  · cases h

/-! ## Byte by byte -/

/-- Reads up to `count` bytes from `start` and stops at the first refused address: the bytes
read and the fault, if there was one. -/
def readEach (m : Memory) (start : Nat) : (count : Nat) → List UInt8 × Option Fault
  | 0 => ([], none)
  | count + 1 =>
    match m.read start with
    | .error fault => ([], some fault)
    | .ok value =>
      let rest := m.readEach (start + 1) count
      (value :: rest.1, rest.2)

/-- Writes the bytes from `start` on and stops at the first refused address: the memory with the
bytes written until then and the fault, if there was one. -/
def writeEach (m : Memory) (start : Nat) : List UInt8 → Memory × Option Fault
  | [] => (m, none)
  | value :: values =>
    match m.write start value with
    | .error fault => (m, some fault)
    | .ok m => m.writeEach (start + 1) values

/-! ## Blocks -/

/-- The memory with `values` in place of the bytes from `start` on. -/
def overlay (m : Memory) (start : Nat) (values : List UInt8) : Memory :=
  let block := values.toArray
  ⟨Vector.ofFn fun a =>
    if h : start ≤ a ∧ a - start < block.size then block[a.val - start] else m.cells[a]⟩

/-- Writes a whole block, or nothing if its end lies past the end of memory. The fault names the
first address of the block that does not exist, or `start` itself for an empty block. -/
def copy (m : Memory) (start : Nat) (values : List UInt8) : Except Fault Memory :=
  if start + values.length ≤ 4096 then .ok (m.overlay start values)
  else .error (.outOfBounds (max start 4096))

/-- The memory with the glyphs installed at its bottom. -/
def withFont (m : Memory) (font : Font) : Memory :=
  ⟨Vector.ofFn fun a => if h : a.val < 80 then font[a.val] else m.cells[a]⟩

/-- The bytes from `start` to before `stop`, as far as they exist. -/
def slice (m : Memory) (start stop : Nat) : List UInt8 :=
  (m.cells.toList.take stop).drop start

example : zero.read 4096 = .error (.outOfBounds 4096) := rfl
example : zero.copy 4097 [] = .error (.outOfBounds 4097) := rfl

end Memory

end Chip8
