import Chip8.CommandLine.Standard

/-!
# The program

The outer layer: reads the files that the arguments name, runs the command line on them and
prints the log and the output. `RUST_LOG` names the least severe level to print. Frames keep to
the clock if the arguments ask for it; everything else is decided by `CommandLine.run`.
-/

namespace Chip8.CommandLine

/-! ## Files and random bytes -/

/-- Reads a file of the system. -/
def readFile (path : String) : IO (Except FileError (List UInt8)) := do
  try
    return .ok (← IO.FS.readBinFile path).toList
  catch error =>
    match error with
    | .noFileOrDirectory .. => return .error .notFound
    | .inappropriateType .. => return .error .isDirectory
    | error => return .error (.other (toString error))

/-- A stream from a seed that the system provides. -/
def unseededStream : IO RandomStream := do
  let bytes ← IO.getRandomBytes 8
  return .seeded (bytes.toList.foldl (fun seed byte => 256 * seed + byte.toUInt64) 0)

/-! ## Frames by the clock -/

/-- Waits until the frame that began at `start` has used up its time. If it already has, gives the
nanoseconds that it is late. -/
def awaitFrame (start : Nat) : IO (Option Nat) := do
  let elapsed := (← IO.monoNanosNow) - start
  if timerPeriod < elapsed then return some (elapsed - timerPeriod)
  -- whole milliseconds are too coarse for the rest of a frame
  IO.sleep (UInt32.ofNat ((timerPeriod - elapsed) / 1000000))
  while (← IO.monoNanosNow) < start + timerPeriod do
    pure ()
  return none

/-- `Session.runFrames` by the clock. A late frame is noted, and not made up for by the next. -/
def runPaced (ticks : Nat) : (left frame : Nat) → (beeps : Int32) → (start : Nat) → Session →
    IO (Except Fault Int32 × Session)
  | 0, _, beeps, _, s => return (.ok beeps, s)
  | left + 1, frame, beeps, start, s => do
    match s.runFrames ticks 1 frame beeps with
    | (.error fault, s) => return (.error fault, s)
    | (.ok beeps, s) =>
      let late ← awaitFrame start
      let s := late.elim s fun nanoseconds => s.record (.overran frame nanoseconds)
      runPaced ticks left (frame + 1) beeps (← IO.monoNanosNow) s

/-- The outcome of a run that comes to its frames, with the nanoseconds that these took. -/
def runTimed (a : Arguments) (s : Session) : IO (Outcome × Nat) := do
  let start ← IO.monoNanosNow
  let ended ←
    if a.realtime then runPaced a.ticksPerFrame a.frames 0 0 start s
    else IO.lazyPure fun _ => s.runFrames a.ticksPerFrame a.frames 0 0
  return (conclude a ended, (← IO.monoNanosNow) - start)

/-! ## The process -/

/-- `CommandLine.run` on the files of the system, and by the clock if the arguments ask for it. -/
def runHere (args : List String) (threshold : Threshold) : IO (Outcome × Nat) := do
  let log : Log := { threshold }
  match Arguments.parse args with
  | .error failure => return (fail log failure, 0)
  | .ok a =>
    let contents ← a.paths.mapM fun path => return (path, ← readFile path)
    let files := fun path => (contents.lookup path).getD (.error .notFound)
    match prepare (.standard (← unseededStream)) a files log with
    | .error outcome => return (outcome, 0)
    | .ok s => runTimed a s

/-- Runs the command line on the arguments of the process and gives its exit code. -/
def serve (args : List String) : IO UInt32 := do
  let threshold := ((← IO.getEnv "RUST_LOG").bind Threshold.ofName?).getD (some .info)
  let (outcome, nanoseconds) ← runHere args threshold
  let elapsed := millisecondsText nanoseconds
  for message in outcome.log.messages do
    IO.println (message.level.name ++ " [" ++ message.target ++ "] " ++ message.text elapsed)
  IO.print outcome.output
  return UInt32.ofNat outcome.exitCode

end Chip8.CommandLine

def main (args : List String) : IO UInt32 := Chip8.CommandLine.serve args
