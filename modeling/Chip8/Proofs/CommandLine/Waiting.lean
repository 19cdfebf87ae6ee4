import Chip8.Proofs.CommandLine.Frames
import Chip8.Proofs.CommandLine.Start
import Chip8.Proofs.Machine.Footprint

/-!
# Runs that wait for a key

The keys of a run never change. If one is held, no wait lasts; if none is, the first wait is the
end of all execution, and only the timers go on, which can play one more beep.

Results:
1. `Stays.along`: an idle machine stays as it is while ticks are made and timers are counted.
2. `keypad_along`: the keys of a run never change.
3. `runFrames_early_end`: the early end of frames that wait is not seen.
-/

namespace Chip8

namespace Machine

/-- What a machine that idled turns into: it idles, and only its timers went on, which played a
beep at most. -/
structure Stays (m m' : Machine) : Prop where
  idle : m'.Idle
  untimed : m'.untimed = m.untimed
  beeps : m'.beeps = m.beeps ∨ m'.sound = 0 ∧ m'.beeps = m.beeps + 1

variable {m m' m'' : Machine}

theorem Stays.tick (h : m.Stays m') : m.Stays m'.tick.2 := by
  rw [h.idle.tick]
  exact h

theorem Stays.counted (h : m.Stays m') (counted : Counted m' m'') : m.Stays m'' := by
  obtain rfl : m'' = m'.tickTimers.2 := counted
  refine ⟨h.idle, h.untimed, ?_⟩
  rcases h.beeps with none | ⟨silent, one⟩
  · rcases Classical.em (m'.sound = 1) with last | other
    · refine .inr ⟨?_, ?_⟩
      · simp [tickTimers, last]
      · simp [tickTimers, last, none]
    · exact .inl (by simp [tickTimers, other, none])
  · exact .inr (by simp [tickTimers, silent, one])

theorem Stays.along {xs : List Machine} (idle : m.Idle) (path : Path Counted m xs m') :
    m.Stays m' ∧ ∀ x ∈ xs, m.Stays x :=
  path.keeps (fun counted h => h.counted counted) (fun _ _ h => h.tick) ⟨idle, rfl, .inl rfl⟩

theorem keypad_along {xs : List Machine} (path : Path Counted m xs m') :
    m'.keypad = m.keypad ∧ ∀ x ∈ xs, x.keypad = m.keypad :=
  path.keeps (P := fun n => n.keypad = m.keypad)
    (fun counted h => by rw [counted]; exact h)
    (fun x _ h =>
      have kept : x.Keeps x.tick.2 .keypad := keeps_tick_of_surrounds rfl
      Eq.trans kept h) rfl

end Machine

namespace CommandLine

open Machine (Stays keypad_along)

/-- A run whose frames end when the machine waits for a key comes to the same end, with the same
fault if any, the same beeps and the same log, as one that makes all ticks of each frame. If a key
is held, no tick ever waits. After a tick that waits every tick finds the machine waiting and
leaves it as it is, so that the run ends with the state after that tick but for its timers and at
most one more beep. -/
theorem runFrames_early_end (a : Arguments) {program : List UInt8} (profile : Profile)
    (random : RandomStream) (log : Log) (fits : program.length ≤ 3584) :
    ∃ s, ready a program profile random log = .ok s ∧
      s.runFrames a.ticksPerFrame a.frames 0 0 = s.runFullFrames a.ticksPerFrame a.frames 0 0 ∧
      (a.held ≠ [] → ∀ m ∈ s.tickedByFrames a.ticksPerFrame a.frames 0, m.tick.1 ≠ .ok .keyWait) ∧
      ∀ before m after, s.tickedByFrames a.ticksPerFrame a.frames 0 = before ++ m :: after →
        m.tick.1 = .ok .keyWait →
        let final := (s.runFrames a.ticksPerFrame a.frames 0 0).2.machine
        (∀ later ∈ after, later.isWaiting = true ∧ later.tick = (.ok .keyWait, later)) ∧
          final.untimed = m.tick.2.untimed ∧
          (final.beeps = m.tick.2.beeps ∨ final.beeps = m.tick.2.beeps + 1) := by
  obtain ⟨s, started, held⟩ := @ready_of_le a program profile random log fits
  have path := (s.paced_runFrames a.ticksPerFrame a.frames 0 0).path
  refine ⟨s, started, s.runFrames_eq_runFullFrames _ _ _ _, ?_, ?_⟩
  · intro holds m ticked hint
    have up := (Machine.idle_of_tick hint).1
    rw [(keypad_along path).2 m ticked, Keypad.lowest?_eq_none] at up
    obtain ⟨key, keys, rest⟩ := List.exists_cons_of_ne_nil holds
    have down := (held key).mpr (by rw [rest]; exact List.mem_cons_self)
    rw [up key] at down
    cases down
  · intro before m after split hint final
    rw [split] at path
    obtain ⟨last, all⟩ := Stays.along (Machine.idle_of_tick hint).2 path.split.2
    refine ⟨fun later h => ⟨(all later h).idle.1, (all later h).idle.tick⟩, last.untimed, ?_⟩
    exact last.beeps.imp_right And.right

/-- A program that awaits a key, in a run that holds one. -/
theorem runFrames_early_end_key_held :
    let a : Arguments := { file := "wait.rom", frames := 2, ticksPerFrame := 5, held := [0xC] }
    let program : List UInt8 := [0xF3, 0x0A, 0x12, 0x00]
    program.length ≤ 3584 ∧ ∃ s, ready a program {} (.constant 0) { threshold := none } = .ok s ∧
      s.runFrames 5 2 0 0 = s.runFullFrames 5 2 0 0 ∧
      ∀ m ∈ s.tickedByFrames 5 2 0, m.tick.1 ≠ .ok .keyWait := by
  intro a program
  have fits : program.length ≤ 3584 := by decide
  obtain ⟨s, started, same, never, _⟩ :=
    runFrames_early_end a {} (.constant 0) { threshold := none } fits
  exact ⟨fits, s, started, same, never (by decide)⟩

end CommandLine

end Chip8
