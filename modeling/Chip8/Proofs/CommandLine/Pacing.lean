import Chip8.Proofs.CommandLine.Frames
import Chip8.Proofs.CommandLine.Start

/-!
# The pace of a run

The arguments of a run say how many frames it has and how many ticks a frame has. A program that
does not read the delay timer sees nothing of that but the number of all ticks.

Results:
1. `shown_play`: what a run shows depends on how its frames end.
2. `play_at_any_pace`: runs with as many ticks end alike.
-/

namespace Chip8.CommandLine

open Machine (EndAlike)
open Session (ending)

/-- The exit code and the output of a run whose frames end in some way. -/
def shown (r : Except Fault Unit × Machine) : Nat × String :=
  match r.1 with
  | .ok () => (0, r.2.screen.dump)
  | .error fault => ((Failure.fault fault).exitCode, "")

theorem shown_play {a : Arguments} {program : List UInt8} {profile : Profile}
    {random : RandomStream} {log : Log} {s : Session}
    (started : ready a program profile random log = .ok s) :
    let outcome := play a program profile random log
    (outcome.exitCode, outcome.output) =
      shown (ending (s.runFrames a.ticksPerFrame a.frames 0 0)) := by
  intro outcome
  simp only [outcome, play_eq, started]
  rcases s.runFrames a.ticksPerFrame a.frames 0 0 with ⟨result, s'⟩
  cases result with
  | ok beeps => rfl
  | error fault => rfl

theorem shown_congr {xs ys : List Machine} {r r' : Except Fault Unit × Machine}
    (h : EndAlike xs ys r r') : shown r = shown r' := by
  obtain ⟨outcomes, states, _⟩ := h
  have screens : r.2.untimed.screen = r'.2.untimed.screen := congrArg (·.screen) states
  have same : r.2.screen = r'.2.screen := screens
  simp only [shown, outcomes, same]

/-- A run none of whose ticks reads the delay timer ends like any run with as many ticks in all:
both refuse the program, or both finish on the same state but for the timers and the beeps and show
the same screen, or both end with the same fault at the same address. -/
theorem play_at_any_pace (a : Arguments) (program : List UInt8) (profile : Profile)
    (random : RandomStream) (log : Log) (frames ticks : Nat)
    (total : frames * ticks = a.frames * a.ticksPerFrame)
    (blind : ∀ s, ready a program profile random log = .ok s →
      ∀ m ∈ s.tickedByFrames a.ticksPerFrame a.frames 0, ¬ m.ReadsDelay) :
    let b : Arguments := { a with frames, ticksPerFrame := ticks }
    let first := play a program profile random log
    let second := play b program profile random log
    (first.exitCode, first.output) = (second.exitCode, second.output) ∧
      (∀ fault, ready a program profile random log = .error fault → first = second) ∧
      ∀ s, ready a program profile random log = .ok s →
        EndAlike (s.tickedByFrames a.ticksPerFrame a.frames 0) (s.tickedByFrames ticks frames 0)
          (ending (s.runFrames a.ticksPerFrame a.frames 0 0))
          (ending (s.runFrames ticks frames 0 0)) := by
  intro b first second
  -- only the held keys matter before the first frame
  have starts : ready b program profile random log = ready a program profile random log := rfl
  have refused : ∀ fault, ready a program profile random log = .error fault → first = second := by
    intro fault refusal
    simp only [first, second, play_eq, starts, refusal]
  have alike : ∀ s, ready a program profile random log = .ok s →
      EndAlike (s.tickedByFrames a.ticksPerFrame a.frames 0) (s.tickedByFrames ticks frames 0)
        (ending (s.runFrames a.ticksPerFrame a.frames 0 0))
        (ending (s.runFrames ticks frames 0 0)) := by
    intro s started
    have own := s.paced_runFrames a.ticksPerFrame a.frames 0 0
    have other := s.paced_runFrames ticks frames 0 0
    rw [total] at other
    exact own.alike other rfl (blind s started)
  refine ⟨?_, refused, alike⟩
  cases start : ready a program profile random log with
  | error fault => rw [refused fault start]
  | ok s => exact (shown_play start).trans ((shown_congr (alike s start)).trans
      (shown_play (starts.trans start)).symm)

/-! ## A run that loops -/

/-- The machine is on a jump that leads back to it. -/
def Loops (m : Machine) : Prop :=
  m.keyWait = none ∧ m.pc = 512 ∧ m.memory.readWord 512 = .ok (Instruction.jump 512).encode

theorem Loops.fetch {m : Machine} (h : Loops m) : m.fetch = .ok (Instruction.jump 512).encode := by
  rw [Machine.fetch, h.2.1]
  exact h.2.2

theorem Loops.tick {m : Machine} (h : Loops m) : Loops m.tick.2 := by
  rw [Machine.tick_of_fetch h.1 h.fetch (Instruction.decode?_encode _)]
  exact ⟨h.1, rfl, h.2.2⟩

theorem Loops.blind {m : Machine} (h : Loops m) : ¬ m.ReadsDelay := by
  rintro ⟨_, x, reads⟩
  rw [h.fetch] at reads
  have same := congrArg Instruction.decode? (Except.ok.inj reads)
  rw [Instruction.decode?_encode, Instruction.decode?_encode] at same
  cases same

/-- A program of one jump to itself, in three frames of four ticks and in six frames of two. -/
theorem play_at_any_pace_loop :
    let a : Arguments := { file := "loop.rom", frames := 3, ticksPerFrame := 4 }
    6 * 2 = a.frames * a.ticksPerFrame ∧
      ∀ s, ready a [0x12, 0x00] {} (.constant 0) { threshold := none } = .ok s →
        (∀ m ∈ s.tickedByFrames a.ticksPerFrame a.frames 0, ¬ m.ReadsDelay) ∧
          EndAlike (s.tickedByFrames a.ticksPerFrame a.frames 0) (s.tickedByFrames 2 6 0)
            (ending (s.runFrames a.ticksPerFrame a.frames 0 0)) (ending (s.runFrames 2 6 0 0)) := by
  intro a
  have total : 6 * 2 = a.frames * a.ticksPerFrame := rfl
  have blind : ∀ s, ready a [0x12, 0x00] {} (.constant 0) { threshold := none } = .ok s →
      ∀ m ∈ s.tickedByFrames a.ticksPerFrame a.frames 0, ¬ m.ReadsDelay := by
    intro s started m made
    have fits : ([0x12, 0x00] : List UInt8).length ≤ 3584 := by decide
    simp only [ready, Session.load, Machine.load_of_le fits] at started
    have byte (k : Nat) (h : k < 2) :
        ((Machine.new {} (.constant 0)).reset.memory.overlay 512 [0x12, 0x00]).read (512 + k) =
          .ok ([0x12, 0x00] : List UInt8)[k] := Memory.read_overlay_of_lt h (by omega)
    have word : ((Machine.new {} (.constant 0)).reset.memory.overlay 512 [0x12, 0x00]).readWord
        512 = .ok (Instruction.jump 512).encode := by
      simp only [Memory.readWord, byte 0 (by decide), byte 1 (by decide)]
      rfl
    have start : Loops s.machine := by
      rw [← Except.ok.inj started]
      exact ⟨rfl, rfl, word⟩
    have path := (s.paced_runFrames a.ticksPerFrame a.frames 0 0).path
    have all := (path.keeps (P := Loops) (fun counted h => by rw [counted]; exact h)
      (fun _ _ h => h.tick) start).2
    exact (all m made).blind
  have ended :=
    play_at_any_pace a [0x12, 0x00] {} (.constant 0) { threshold := none } 6 2 total blind
  exact ⟨total, fun s started => ⟨blind s started, ended.2.2 s started⟩⟩

end Chip8.CommandLine
