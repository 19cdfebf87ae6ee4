import Chip8.Log
import Chip8.Machine.Operation

/-!
# Sessions

A session is a machine with a log. Each operation does to the machine what it does without a
log, and records what happened: resets, loads, faults, and, if the session is traced, every word
fetched before it is executed.
-/

namespace Chip8

/-- A machine with a log. -/
structure Session where
  machine : Machine
  log : Log
  /-- Whether fetched words are logged. -/
  traced : Bool
  /-- Whether the beeper logs each beep. -/
  announced : Bool := false

namespace Session

/-- Keeps a message in the log. -/
def record (s : Session) (message : Message) : Session := { s with log := s.log.record message }

/-- A session on a new machine, which begins with a reset. -/
def start (machine : Machine) (log : Log) (traced announced : Bool) : Session :=
  { machine, log := log.record .reset, traced, announced }

/-! ## Ticks -/

/-- The word that the next tick of a machine fetches, with the state it acts on. -/
def fetched? (m : Machine) : Option Message :=
  match m.keyWait, m.fetch with
  | none, .ok word => some (.fetched m.pc word m.index m.registers)
  | _, _ => none

/-- Keeps the word that the next tick fetches. -/
def recordFetch (s : Session) : Session :=
  match s.traced, fetched? s.machine with
  | true, some message => s.record message
  | _, _ => s

/-- One tick of the machine. A fault is recorded with the program counter before the tick. -/
def tick (s : Session) : Except Fault Flow × Session :=
  match s.recordFetch with
  | ⟨machine, log, traced, announced⟩ =>
    let pc := machine.pc
    match machine.tick with
    | (.ok flow, machine) => (.ok flow, ⟨machine, log, traced, announced⟩)
    | (.error fault, machine) =>
      (.error fault, ⟨machine, log.record (.faulted pc fault), traced, announced⟩)

/-- Up to `count` ticks, stopping at the first fault. The outcome is that of the last tick. -/
def run (s : Session) (count : Nat) : Except Fault Flow × Session :=
  go count .proceed s
where
  /-- Goes on after a tick with the hint `last`. -/
  go : Nat → Flow → Session → Except Fault Flow × Session
    | 0, last, s => (.ok last, s)
    | count + 1, _, s =>
      match s.tick with
      | (.ok flow, s) => go count flow s
      | (.error fault, s) => (.error fault, s)

/-! ## Other operations -/

/-- Counts the timers down and plays the beeper when the sound timer runs out. -/
def tickTimers (s : Session) : Bool × Session :=
  let (sounded, machine) := s.machine.tickTimers
  let s := { s with machine }
  (sounded, if sounded && s.announced then s.record .beep else s)

def reset (s : Session) : Session := { s with machine := s.machine.reset }.record .reset

def load (s : Session) (program : List UInt8) : Except Fault Unit × Session :=
  match s.machine.load program with
  | (.ok (), machine) =>
    (.ok (), ({ s with machine }.record .reset).record (.loaded program.length))
  | (.error fault, machine) => (.error fault, { s with machine })

/-- Performs one request, as the machine does, and records it. -/
def apply (s : Session) : Operation → Except Fault Answer × Session
  | .tick => let (outcome, s) := s.tick; (outcome.map .flow, s)
  | .run count => let (outcome, s) := s.run count; (outcome.map .flow, s)
  | .tickTimers => let (sounded, s) := s.tickTimers; (.ok (.sounded sounded), s)
  | .reset => (.ok .done, s.reset)
  | .load program => let (outcome, s) := s.load program; (outcome.map fun () => .done, s)
  | op => let (answer, machine) := s.machine.apply op; (answer, { s with machine })

/-- Performs requests in order, also after refused ones: the answers and the last session. -/
def applyAll (s : Session) : List Operation → List (Except Fault Answer) × Session
  | [] => ([], s)
  | op :: ops =>
    let (answer, s) := s.apply op
    let (answers, s) := s.applyAll ops
    (answer :: answers, s)

end Session

end Chip8
