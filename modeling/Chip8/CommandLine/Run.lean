import Chip8.CommandLine.Arguments
import Chip8.CommandLine.Frames
import Chip8.Configuration

/-!
# The command line

`CommandLine.run` takes the arguments of the process, its files as a function from paths to
bytes, and a host: the format of configuration files and the sources of random bytes. The stages
are arguments, program file, configuration file, configuration, loading and the run itself; the
first stage that fails decides the exit code and logs the one error. The screen is printed only
after a run without a fault.
-/

namespace Chip8.CommandLine

/-- The files that the program can see. -/
abbrev Files := String → Except FileError (List UInt8)

/-- What the program runs on, whatever these are. -/
structure Host (Tree : Type) where
  /-- The format of configuration files. -/
  format : Format Tree
  /-- The random stream of a seed. -/
  seeded : UInt64 → RandomStream
  /-- The random stream of a run without a seed. -/
  unseeded : RandomStream

/-- What the process leaves: its exit code, its log and the rest of its output. -/
structure Outcome where
  exitCode : Nat
  log : Log
  output : String

/-! ## Texts -/

def version : String := "Chip8 v0.4.0\n"

def usage : String := "
usage: chip8 run FILE [OPTIONS]

commands:
    run     Run the target ROM file headless, then print the display

options:
    --frames N            Number of 60Hz frames to run (default 600)
    --ticks-per-frame N   Instructions executed per frame (default 10)
    --seed N              Seed for the random number generator
    --conf FILE           YAML file with interpreter quirks
    --hold KEY            Hold down keypad key 0-F for the whole run
    --realtime            Pace frames at 60Hz instead of running flat out

examples:
    chip8 run breakout.rom
    chip8 run maze.rom --frames 60 --seed 7
    chip8 run pong.rom --conf vip.yaml --hold 1
"

/-! ## Stages -/

variable {Tree : Type} (host : Host Tree)

/-- The outcome of a failed stage. -/
def fail (log : Log) (failure : Failure) : Outcome where
  exitCode := failure.exitCode
  log := log.record (.failed failure)
  output := if failure.isUsage then version ++ usage ++ "\n" else ""

/-- Reads the profile from the configuration file, if one is given. -/
def readProfile (files : Files) (path : Option String) (log : Log) :
    Except Failure Profile × Log :=
  match path with
  | none => (.ok {}, log)
  | some path =>
    let log := log.record (.readingConfiguration path)
    match files path with
    | .error error => (.error (.unreadable error), log)
    | .ok bytes =>
      match Configuration.ofBytes? host.format bytes with
      | none => (.error .configuration, log)
      | some profile => (.ok profile, log)

/-- The random stream of a run. -/
def stream (seed : Option Nat) : RandomStream :=
  match seed with
  | some seed => host.seeded (UInt64.ofNat seed)
  | none => host.unseeded

/-- Puts keys down. -/
def hold (s : Session) (keys : List Key) : Session :=
  { s with machine := keys.foldl (·.setKey · true) s.machine }

/-- Loads a program that was read, under a profile that was read: the session before the first
frame, or what is left without one. -/
def start (a : Arguments) (program : List UInt8) (profile : Profile) (random : RandomStream)
    (log : Log) : Except Outcome Session :=
  let log := log.record (.configured profile)
  let s := Session.start (.new profile random) log false true
  match s.load program with
  | (.error fault, s) => .error (fail s.log (.fault fault))
  | (.ok (), s) => .ok (hold s a.held)

/-- What is left after the frames. -/
def conclude (a : Arguments) : Except Fault Int32 × Session → Outcome
  | (.error fault, s) => fail s.log (.fault fault)
  | (.ok beeps, s) =>
    { exitCode := 0
      log := s.log.record (.finished a.frames beeps)
      output := s.machine.screen.dump }

/-- Runs the frames of a session. -/
def finish (a : Arguments) : Except Outcome Session → Outcome
  | .error outcome => outcome
  | .ok s => conclude a (s.runFrames a.ticksPerFrame a.frames 0 0)

/-- Runs a program that was read, under a profile that was read. -/
def play (a : Arguments) (program : List UInt8) (profile : Profile) (random : RandomStream)
    (log : Log) : Outcome :=
  finish a (start a program profile random log)

/-- Reads the files that the arguments name and loads the program. -/
def prepare (a : Arguments) (files : Files) (log : Log) : Except Outcome Session :=
  let log := log.record (.readingProgram a.file)
  match files a.file with
  | .error error => .error (fail log (.unreadable error))
  | .ok program =>
    match readProfile host files a.configuration log with
    | (.error failure, log) => .error (fail log failure)
    | (.ok profile, log) => start a program profile (stream host a.seed) log

/-- Runs the program that the arguments name. -/
def perform (a : Arguments) (files : Files) (log : Log) : Outcome :=
  finish a (prepare host a files log)

/-- The whole program. -/
def run (args : List String) (files : Files) (threshold : Threshold) : Outcome :=
  let log : Log := { threshold }
  match Arguments.parse args with
  | .error failure => fail log failure
  | .ok a => perform host a files log

end Chip8.CommandLine
