import Chip8.Session

/-!
# Frames

A run is a number of frames. A frame is a number of ticks, cut short when the machine waits for
a key, for nothing changes until the next frame; then the timers count down once. Every sixtieth
frame notes that the machine waits.
-/

namespace Chip8.Session

/-- Up to `count` ticks of one frame, stopping at a fault and when the machine waits for a key. -/
def tickFrame (s : Session) : (count : Nat) → Except Fault Unit × Session
  | 0 => (.ok (), s)
  | count + 1 =>
    match s.tick with
    | (.error fault, s) => (.error fault, s)
    | (.ok .keyWait, s) => (.ok (), s)
    | (.ok _, s) => s.tickFrame count

/-- Notes that the machine waits, in frames that are due a note. -/
def noteWaiting (s : Session) (frame : Nat) : Session :=
  if frame % 60 = 0 ∧ s.machine.isWaiting then s.record (.waiting frame) else s

/-- Runs `left` frames from number `frame` on, `beeps` beeps having been counted before: the beeps
counted, or the fault that ended the run. -/
def runFrames (ticks : Nat) : (left frame : Nat) → (beeps : Int32) → Session →
    Except Fault Int32 × Session
  | 0, _, beeps, s => (.ok beeps, s)
  | left + 1, frame, beeps, s =>
    match s.tickFrame ticks with
    | (.error fault, s) => (.error fault, s)
    | (.ok (), s) =>
      let (sounded, s) := s.tickTimers
      let beeps := if sounded then beeps + 1 else beeps
      runFrames ticks left (frame + 1) beeps (s.noteWaiting frame)

end Chip8.Session
