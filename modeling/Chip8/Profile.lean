/-!
# Compatibility profile

Two points on which interpreters of the machine disagree. The default follows the modern
reading, each flag chooses the older one.
-/

namespace Chip8

/-- Which reading of the disputed instructions a machine follows. -/
structure Profile where
  /-- Bulk transfers leave the index past the last register transferred. -/
  advanceIndex : Bool := false
  /-- Shifts take their operand from the second register. -/
  shiftSecond : Bool := false
  deriving DecidableEq, Repr, Inhabited

/-- The profile as it is shown in diagnostics. -/
def Profile.text (p : Profile) : String :=
  "Chip8Conf \x7b quirks: Quirks \x7b load_store_increment_index: " ++ toString p.advanceIndex
    ++ ", shift_copies_vy: " ++ toString p.shiftSecond ++ " \x7d \x7d"

end Chip8
