import Chip8.CommandLine.Frames
import Chip8.Proofs.Machine.Pacing

/-!
# Frames and their ticks

A frame that sees the machine wait for a key skips the rest of its ticks. The machine and the log
would not have changed in them, so frames that make all of their ticks come to the same end.

Results:
1. `tick_machine`: a session ticks as its machine does.
2. `tickFrame_eq_run`: a frame against all of its ticks.
3. `runFrames_eq_runFullFrames`: frames against frames that make all of their ticks.
4. `runFrames_succ`: frames one at a time.
5. `paced_runFrames`: frames make their ticks at a pace.
-/

namespace Chip8.Session

open Machine (Paced ticked)

/-! ## Definitions -/

/-- `runFrames` with frames that make all of their ticks. -/
def runFullFrames (ticks : Nat) : (left frame : Nat) → (beeps : Int32) → Session →
    Except Fault Int32 × Session
  | 0, _, beeps, s => (.ok beeps, s)
  | left + 1, frame, beeps, s =>
    match s.run ticks with
    | (.error fault, s) => (.error fault, s)
    | (.ok _, s) =>
      let (sounded, s) := s.tickTimers
      let beeps := if sounded then beeps + 1 else beeps
      runFullFrames ticks left (frame + 1) beeps (s.noteWaiting frame)

/-- The machines that the ticks of a frame act on, in order. -/
def tickedByFrame (s : Session) (count : Nat) : List Machine :=
  ticked (· = .keyWait) count s.machine

/-- The machines that the ticks of `runFrames` act on, in order. -/
def tickedByFrames (ticks : Nat) : (left frame : Nat) → Session → List Machine
  | 0, _, _ => []
  | left + 1, frame, s =>
    s.tickedByFrame ticks ++
      match s.tickFrame ticks with
      | (.error _, _) => []
      | (.ok (), s') => tickedByFrames ticks left (frame + 1) (s'.tickTimers.2.noteWaiting frame)

/-- How frames end: with a fault or without, and on which machine. -/
def ending (r : Except Fault Int32 × Session) : Except Fault Unit × Machine :=
  (r.1.map fun _ => (), r.2.machine)

/-! ## Sessions and machines -/

@[simp]
theorem machine_recordFetch (s : Session) : s.recordFetch.machine = s.machine := by
  unfold recordFetch
  split
  · rfl
  · rfl

/-- A session ticks as its machine does. -/
theorem tick_machine (s : Session) : (s.tick.1, s.tick.2.machine) = s.machine.tick := by
  have same := machine_recordFetch s
  unfold tick
  generalize s.recordFetch = noted at same ⊢
  rcases noted with ⟨machine, log, traced, announced⟩
  obtain rfl : machine = s.machine := same
  simp only
  rcases s.machine.tick with ⟨outcome, machine⟩
  cases outcome with
  | ok flow => rfl
  | error fault => rfl

@[simp]
theorem machine_tickTimers (s : Session) :
    s.tickTimers.2.machine = s.machine.tickTimers.2 := by
  simp only [tickTimers]
  split
  · rfl
  · rfl

@[simp]
theorem machine_noteWaiting (s : Session) (frame : Nat) :
    (s.noteWaiting frame).machine = s.machine := by
  unfold noteWaiting
  split
  · rfl
  · rfl

/-! ## Idle machines -/

/-- A tick of an idle machine changes nothing, and nothing is fetched that could be recorded. -/
theorem tick_of_idle {s : Session} (h : s.machine.Idle) : s.tick = (.ok .keyWait, s) := by
  obtain ⟨x, waits⟩ := Option.isSome_iff_exists.mp h.1
  have unfetched : fetched? s.machine = none := by
    simp only [fetched?, waits]
  have unnoted : s.recordFetch = s := by
    unfold recordFetch
    rw [unfetched]
    cases s.traced with
    | true => rfl
    | false => rfl
  unfold tick
  rw [unnoted]
  simp only [h.tick]

theorem go_of_idle {s : Session} (h : s.machine.Idle) (count : Nat) :
    run.go count .keyWait s = (.ok .keyWait, s) := by
  induction count with
  | zero => rfl
  | succ count ih =>
    unfold run.go
    rw [tick_of_idle h]
    exact ih

/-- A tick of a session that hints at a wait leaves an idle machine. -/
theorem idle_of_tick {s : Session} (hint : s.tick.1 = .ok .keyWait) : s.tick.2.machine.Idle := by
  have ticked := tick_machine s
  have hint' : s.machine.tick.1 = .ok .keyWait := by rw [← ticked]; exact hint
  have idle := (Machine.idle_of_tick hint').2
  rw [← ticked] at idle
  exact idle

/-! ## Frames that make all of their ticks -/

theorem tickFrame_eq_go (s : Session) (count : Nat) (last : Flow) :
    s.tickFrame count = ((run.go count last s).1.map fun _ => (), (run.go count last s).2) := by
  induction count generalizing s last with
  | zero => rfl
  | succ count ih =>
    have idle := idle_of_tick (s := s)
    unfold tickFrame run.go
    generalize s.tick = step at idle ⊢
    rcases step with ⟨outcome, s'⟩
    cases outcome with
    | error fault => rfl
    | ok flow =>
      cases flow with
      | keyWait =>
        -- the frame ends here, and the ticks that it skips would find the machine idle
        simp only [go_of_idle (idle rfl) count]
        rfl
      | proceed | jump | draw | sound => exact ih s' _

/-- A frame comes to the same end as all of its ticks. -/
theorem tickFrame_eq_run (s : Session) (count : Nat) :
    s.tickFrame count = ((s.run count).1.map fun _ => (), (s.run count).2) :=
  tickFrame_eq_go s count .proceed

/-- Frames that stop ticking when the machine waits have the same outcome, and leave the same
machine and the same log, as frames that make all of their ticks. -/
theorem runFrames_eq_runFullFrames (ticks left frame : Nat) (beeps : Int32) (s : Session) :
    s.runFrames ticks left frame beeps = s.runFullFrames ticks left frame beeps := by
  induction left generalizing frame beeps s with
  | zero => rfl
  | succ left ih =>
    unfold runFrames runFullFrames
    rw [tickFrame_eq_run]
    rcases s.run ticks with ⟨outcome, s'⟩
    cases outcome with
    | ok flow => exact ih _ _ _
    | error fault => rfl

/-- Frames made one at a time come to the same end, so what paces them does not take part in it. -/
theorem runFrames_succ (ticks left frame : Nat) (beeps : Int32) (s : Session) :
    s.runFrames ticks (left + 1) frame beeps =
      match s.runFrames ticks 1 frame beeps with
      | (.error fault, s') => (.error fault, s')
      | (.ok beeps, s') => s'.runFrames ticks left (frame + 1) beeps := by
  simp only [runFrames]
  rcases s.tickFrame ticks with ⟨outcome, s'⟩
  cases outcome with
  | ok _ => rfl
  | error fault => rfl

/-! ## The ticks of frames -/

variable {more : Nat} {xs : List Machine} {r : Except Fault Unit × Machine}

/-- The ticks of a frame come first, then more ticks unless one of these faults. -/
theorem paced_tickFrame {s : Session} {count : Nat}
    (onwards : (s.tickFrame count).1 = .ok () → Paced more (s.tickFrame count).2.machine xs r)
    (stops : ∀ fault, (s.tickFrame count).1 = .error fault →
      xs = [] ∧ r = (.error fault, (s.tickFrame count).2.machine)) :
    Paced (count + more) s.machine (s.tickedByFrame count ++ xs) r := by
  induction count generalizing s with
  | zero =>
    rw [Nat.zero_add]
    exact onwards rfl
  | succ count ih =>
    have same := tick_machine s
    have idle := idle_of_tick (s := s)
    rw [Nat.succ_add]
    unfold tickFrame at onwards stops
    unfold tickedByFrame ticked
    generalize s.tick = step at same idle onwards stops
    rcases step with ⟨outcome, s'⟩
    rw [← same]
    cases outcome with
    | error fault =>
      obtain ⟨rfl, rfl⟩ := stops fault rfl
      have fails : s.machine.tick.1 = .error fault := by rw [← same]
      have last : Paced (count + more + 1) s.machine [s.machine] _ := .fault fails
      rw [← same] at last
      exact last
    | ok flow =>
      have first {ys : List Machine} (rest : Paced (count + more) s'.machine ys r) :
          Paced (count + more + 1) s.machine (s.machine :: ys) r := by
        have succeeds : s.machine.tick.1 = .ok flow := by rw [← same]
        refine .tick succeeds ?_
        rw [← same]
        exact rest
      cases flow with
      | keyWait => exact first ((onwards rfl).skips (idle rfl))
      | proceed | jump | draw | sound => exact first (ih onwards stops)

/-- Frames make as many ticks as they have, but for those of an idle machine that they skip. -/
theorem paced_runFrames (ticks left frame : Nat) (beeps : Int32) (s : Session) :
    Paced (left * ticks) s.machine (s.tickedByFrames ticks left frame)
      (ending (s.runFrames ticks left frame beeps)) := by
  induction left generalizing frame beeps s with
  | zero =>
    rw [Nat.zero_mul]
    exact .done
  | succ left ih =>
    rw [Nat.succ_mul, Nat.add_comm]
    unfold tickedByFrames runFrames
    refine paced_tickFrame ?_ ?_
    · intro succeeds
      generalize s.tickFrame ticks = ended at succeeds ⊢
      rcases ended with ⟨outcome, s'⟩
      obtain rfl : outcome = .ok () := succeeds
      refine .timers ?_
      have rest := ih (frame + 1) (if s'.tickTimers.1 = true then beeps + 1 else beeps)
        (s'.tickTimers.2.noteWaiting frame)
      rw [machine_noteWaiting, machine_tickTimers] at rest
      exact rest
    · intro fault fails
      generalize s.tickFrame ticks = ended at fails ⊢
      rcases ended with ⟨outcome, s'⟩
      obtain rfl : outcome = .error fault := fails
      exact ⟨rfl, rfl⟩

end Chip8.Session
