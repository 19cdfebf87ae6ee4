import Chip8.Proofs.Keypad.LastStates
import Chip8.Proofs.Machine.Invariants

/-!
# The start of a run

Before its first frame a run loads the program into a new machine and puts the held keys down.

Results:
1. `ready_of_lt`, `ready_of_le`: the run starts unless the program is too large, and the held keys
   are the keys that are down.
2. `play_eq`, `perform_eq`: a run is its start and its frames, once its files are read.
-/

namespace Chip8.CommandLine

/-- The session before a program is loaded. -/
def fresh (profile : Profile) (random : RandomStream) (log : Log) : Session :=
  .start (.new profile random) (log.record (.configured profile)) false true

/-- The session in which the frames of a run begin, or the fault that keeps it from them. -/
def ready (a : Arguments) (program : List UInt8) (profile : Profile) (random : RandomStream)
    (log : Log) : Except Fault Session :=
  match (fresh profile random log).load program with
  | (.error fault, _) => .error fault
  | (.ok (), s) => .ok (hold s a.held)

variable {a : Arguments} {program : List UInt8} {profile : Profile} {random : RandomStream}
  {log : Log}

/-! ## Loading and holding -/

theorem ready_of_lt (large : 3584 < program.length) :
    ready a program profile random log = .error (.largeProgram program.length) := by
  simp only [ready, Session.load, Machine.load_of_lt large]

/-- A program that is refused leaves the session as it was. -/
theorem load_snd_of_error {s : Session} {fault : Fault}
    (refused : (s.load program).1 = .error fault) : (s.load program).2 = s := by
  rcases Nat.lt_or_ge 3584 program.length with large | small
  · simp only [Session.load, Machine.load_of_lt large]
  · simp only [Session.load, Machine.load_of_le small] at refused
    cases refused

theorem isDown_hold (s : Session) (keys : List Key) (key : Key) :
    (hold s keys).machine.keypad.isDown key = true ↔
      key ∈ keys ∨ s.machine.keypad.isDown key = true := by
  rw [hold_eq]
  exact Keypad.isDown_pressAll _ keys key

theorem ready_of_le (small : program.length ≤ 3584) :
    ∃ s, ready a program profile random log = .ok s ∧
      ∀ key, s.machine.keypad.isDown key = true ↔ key ∈ a.held := by
  simp only [ready, Session.load, Machine.load_of_le small]
  refine ⟨_, rfl, fun key => (isDown_hold _ a.held key).trans ?_⟩
  exact or_iff_left (Bool.eq_false_iff.mp (Keypad.isDown_released key))

/-! ## The whole run -/

theorem start_eq : start a program profile random log =
    (ready a program profile random log).mapError fun fault =>
      fail (fresh profile random log).log (.fault fault) := by
  simp only [start, ready, fresh]
  generalize Session.start _ _ _ _ = s
  have unchanged := @load_snd_of_error program s
  generalize s.load program = loaded at unchanged ⊢
  rcases loaded with ⟨outcome, s'⟩
  cases outcome with
  | ok _ => rfl
  | error fault =>
    simp only [← unchanged rfl]
    rfl

theorem play_eq : play a program profile random log =
    match ready a program profile random log with
    | .error fault => fail (fresh profile random log).log (.fault fault)
    | .ok s => conclude a (s.runFrames a.ticksPerFrame a.frames 0 0) := by
  rw [play, start_eq]
  cases ready a program profile random log <;> rfl

theorem perform_eq {Tree : Type} {host : Host Tree} {files : Files} :
    perform host a files log =
      match files a.file with
      | .error error => fail (log.record (.readingProgram a.file)) (.unreadable error)
      | .ok program =>
        match readProfile host files a.configuration (log.record (.readingProgram a.file)) with
        | (.error failure, log) => fail log failure
        | (.ok profile, log) => play a program profile (stream host a.seed) log := by
  simp only [perform, prepare]
  cases files a.file with
  | error error => rfl
  | ok program =>
    simp only
    generalize readProfile host files a.configuration _ = read
    rcases read with ⟨outcome, log⟩
    cases outcome <;> rfl

end Chip8.CommandLine
