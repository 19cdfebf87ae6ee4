/-!
# Screen

A monochrome bitmap of 64 by 32 pixels, stored row by row. Coordinates wrap around each edge on
its own, so every pair of natural numbers names a pixel.
-/

namespace Chip8

/-- The pixels, a byte each: 1 for lit and 0 for unlit. -/
structure Screen where
  cells : Vector UInt8 2048
  binary : ∀ k : Fin 2048, cells[k] = 0 ∨ cells[k] = 1

namespace Screen

/-- Every pixel unlit. -/
def blank : Screen := ⟨Vector.replicate 2048 0, fun k => by simp⟩

/-- The cell of the pixel at column `x` and row `y`. -/
def cell (x y : Nat) : Fin 2048 := ⟨x % 64 + 64 * (y % 32), by omega⟩

/-- Whether the pixel at column `x` and row `y` is lit. -/
def pixel (s : Screen) (x y : Nat) : Bool := s.cells[cell x y] ≠ 0

/-- Inverts the pixel of a cell. -/
def flip (s : Screen) (k : Fin 2048) : Screen where
  cells := s.cells.set k (s.cells[k] ^^^ 1)
  binary j := by
    by_cases h : k.val = j.val
    · obtain rfl : k = j := Fin.ext h
      rcases s.binary k with lit | lit <;> simp_all
    · simpa [Vector.getElem_set_ne, h] using s.binary j

/-- Inverts one pixel. -/
def toggle (s : Screen) (x y : Nat) : Screen := s.flip (cell x y)

/-- Inverts one pixel and tells whether it was lit. -/
def draw (s : Screen) (x y : Nat) : Bool × Screen := (s.pixel x y, s.toggle x y)

/-- Whether no pixel is lit. -/
def isBlank (s : Screen) : Bool := s.cells.all (· = 0)

/-- Two points share a cell exactly if they wrap to the same pixel. -/
theorem cell_eq_iff {x y x' y' : Nat} :
    cell x y = cell x' y' ↔ x % 64 = x' % 64 ∧ y % 32 = y' % 32 := by
  simp only [cell, Fin.mk.injEq]
  omega

/-- Inverting a pixel changes it wherever it is named and leaves all others. -/
theorem pixel_toggle (s : Screen) (x y x' y' : Nat) :
    (s.toggle x y).pixel x' y' =
      if x % 64 = x' % 64 ∧ y % 32 = y' % 32 then !s.pixel x' y' else s.pixel x' y' := by
  split
  · rename_i h
    have e : cell x y = cell x' y' := cell_eq_iff.2 h
    rcases s.binary (cell x' y') with lit | lit <;> simp_all [toggle, flip, pixel]
  · rename_i h
    have e : (cell x y).val ≠ (cell x' y').val := fun e => h (cell_eq_iff.1 (Fin.ext e))
    simp [toggle, flip, pixel, Vector.getElem_set_ne, e]

@[simp]
theorem pixel_blank (x y : Nat) : blank.pixel x y = false := by
  simp [blank, pixel]

/-! ## Sprites -/

/-- The columns that a sprite row lights, from the left; the top bit is column 0. -/
def columns (row : UInt8) : List Nat := (List.range 8).filter fun c => row.toNat.testBit (7 - c)

/-- The points of a sprite whose top left corner is at `x`, `y`. -/
def points (x y : Nat) : (rows : List UInt8) → List (Nat × Nat)
  | [] => []
  | row :: rows => (columns row).map (fun c => (x + c, y)) ++ points x (y + 1) rows

/-- Inverts the points one after the other and tells whether any of them was lit. -/
def drawPoints (s : Screen) (erased : Bool) : List (Nat × Nat) → Bool × Screen
  | [] => (erased, s)
  | (x, y) :: rest =>
    let (lit, s) := s.draw x y
    s.drawPoints (erased || lit) rest

/-- Draws a sprite, which inverts the pixels under its points, and tells whether any of them
went from lit to unlit. -/
def drawSprite (s : Screen) (x y : Nat) (rows : List UInt8) : Bool × Screen :=
  s.drawPoints false (points x y rows)

/-! ## Views -/

/-- One byte per pixel, row by row, 1 for lit. -/
def bytes (s : Screen) : List UInt8 := s.cells.toList

/-- The character of a pixel in a dump. -/
def glyph (lit : Bool) : Char := if lit then '#' else '.'

/-- One row of the screen as text. -/
def line (s : Screen) (y : Nat) : List Char := (List.range 64).map fun x => glyph (s.pixel x y)

/-- The screen as text: 32 lines of 64 characters, each line with its line end. -/
def dump (s : Screen) : String :=
  String.ofList ((List.range 32).flatMap fun y => s.line y ++ ['\n'])

example : columns 0x90 = [0, 3] := by decide
example : (blank.draw 64 32).2.pixel 0 0 = true := by decide +kernel
example : points 62 31 [0xC0, 0x80] = [(62, 31), (63, 31), (62, 32)] := by decide

end Screen

end Chip8
