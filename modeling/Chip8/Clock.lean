/-!
# The clock

Frames take a sixtieth of a second each, in whole nanoseconds. Times are counted in nanoseconds and
shown as decimals in a larger unit.
-/

namespace Chip8

/-- The timers count down this many times a second, once in a frame. -/
def timerFrequency : Nat := 60

def nanosecondsPerSecond : Nat := 1000000000

/-- The nanoseconds of a frame. -/
def timerPeriod : Nat := nanosecondsPerSecond / timerFrequency

/-- An amount in a larger unit, which is a power of ten, without zeros at the end. -/
def decimalText (unit amount : Nat) : String :=
  let fraction := (toString (unit + amount % unit)).toList.drop 1
  let shown := (fraction.reverse.dropWhile (· = '0')).reverse
  toString (amount / unit) ++ (if shown.isEmpty then "" else "." ++ String.ofList shown)

/-- Nanoseconds in milliseconds. -/
def millisecondsText (nanoseconds : Nat) : String := decimalText 1000000 nanoseconds

/-- Nanoseconds in the largest unit of which there is a whole one. -/
def durationText (nanoseconds : Nat) : String :=
  if nanosecondsPerSecond ≤ nanoseconds then decimalText nanosecondsPerSecond nanoseconds ++ "s"
  else if 1000000 ≤ nanoseconds then millisecondsText nanoseconds ++ "ms"
  else if 1000 ≤ nanoseconds then decimalText 1000 nanoseconds ++ "µs"
  else toString nanoseconds ++ "ns"

example : durationText 1500000 = "1.5ms" := by decide +kernel

end Chip8
