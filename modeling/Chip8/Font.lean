/-!
# Glyphs

The sixteen hexadecimal digits as bitmaps of five rows, each row a byte whose top bit is the
leftmost pixel. Digit `d` occupies the bytes `5 * d` to `5 * d + 4`.
-/

namespace Chip8

/-- The glyph data of the digits 0 to F, in order. -/
abbrev Font := Vector UInt8 80

/-- The glyphs a machine starts with. -/
def Font.builtin : Font := #v[
  0xF0, 0x90, 0x90, 0x90, 0xF0, -- 0
  0x20, 0x60, 0x20, 0x20, 0x70, -- 1
  0xF0, 0x10, 0xF0, 0x80, 0xF0, -- 2
  0xF0, 0x10, 0xF0, 0x10, 0xF0, -- 3
  0x90, 0x90, 0xF0, 0x10, 0x10, -- 4
  0xF0, 0x80, 0xF0, 0x10, 0xF0, -- 5
  0xF0, 0x80, 0xF0, 0x90, 0xF0, -- 6
  0xF0, 0x10, 0x20, 0x40, 0x40, -- 7
  0xF0, 0x90, 0xF0, 0x90, 0xF0, -- 8
  0xF0, 0x90, 0xF0, 0x10, 0xF0, -- 9
  0xF0, 0x90, 0xF0, 0x90, 0x90, -- A
  0xE0, 0x90, 0xE0, 0x90, 0xE0, -- B
  0xF0, 0x80, 0x80, 0x80, 0xF0, -- C
  0xE0, 0x90, 0x90, 0x90, 0xE0, -- D
  0xF0, 0x80, 0xF0, 0x80, 0xF0, -- E
  0xF0, 0x80, 0xF0, 0x80, 0x80] -- F

/-- A byte sequence is a font exactly if it has 80 bytes. -/
def Font.ofList? (glyphs : List UInt8) : Option Font :=
  if h : glyphs.length = 80 then some ⟨glyphs.toArray, h⟩ else none

theorem Font.ofList?_eq_some_iff {glyphs : List UInt8} {font : Font} :
    ofList? glyphs = some font ↔ font.toList = glyphs := by
  constructor
  · intro accepted
    obtain ⟨_, same⟩ := Option.dite_none_right_eq_some.mp accepted
    cases same
    rfl
  · rintro rfl
    exact dif_pos font.length_toList

end Chip8
