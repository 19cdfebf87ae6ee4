import Chip8.Proofs.CommandLine.Frames
import Chip8.Proofs.CommandLine.Start

/-!
# Runs as operations

What a run asks of its machine are operations: to load the program, to put the held keys down, and
in each frame to make the ticks and to count the timers. It fails with the first fault among the
answers. Up to then nothing logs an error.

Results:
1. `mildly_tickFrame`, `mildly_ready`: what logs no error and no beep.
2. `clean_runFrames`: nothing logs an error before the end.
3. `runFrames_answers`: frames as operations of a machine.
4. `play_concluded`: what a run comes to.
-/

namespace Chip8

/-- Why there is no value, if there is none. -/
def refusal? {ε α : Type} : Except ε α → Option ε
  | .error failure => some failure
  | .ok _ => none

/-- A log that would keep an error, and holds none. -/
structure Log.Clean (log : Log) : Prop where
  keeps : log.threshold.admits .error = true
  errorless : ∀ message ∈ log.messages.toList, message.level ≠ .error

/-- A log came from another one by recording messages, none of them an error or a beep. -/
inductive Log.Mildly (log : Log) : Log → Prop
  | refl : Mildly log log
  | record {log' : Log} {message : Message} :
      Mildly log log' → message.level ≠ .error → message ≠ .beep → Mildly log (log'.record message)

/-- A session came from another one with the same beeper, and recorded no error and no beep in
between. -/
structure Session.Mildly (s s' : Session) : Prop where
  announced : s'.announced = s.announced
  log : s.log.Mildly s'.log

theorem refusal?_eq_some_iff {ε α : Type} {result : Except ε α} {failure : ε} :
    refusal? result = some failure ↔ result = .error failure := by
  cases result <;> simp [refusal?]

/-- A log keeps a message that it admits. -/
theorem Log.toList_record_of_kept {log : Log} {message : Message}
    (kept : log.threshold.admits message.level = true) :
    (log.record message).messages.toList = log.messages.toList ++ [message] := by
  rw [toList_record, List.filter_cons, if_pos kept]
  rfl

/-! ## Mild messages -/

theorem Log.Mildly.trans {log log' log'' : Log} (first : log.Mildly log')
    (second : log'.Mildly log'') : log.Mildly log'' := by
  induction second with
  | refl => exact first
  | record _ errorless beepless ih => exact .record ih errorless beepless

namespace Session

variable {s s' s'' : Session}

theorem Mildly.refl (s : Session) : s.Mildly s := ⟨rfl, .refl⟩

theorem Mildly.trans (first : s.Mildly s') (second : s'.Mildly s'') : s.Mildly s'' :=
  ⟨second.announced.trans first.announced, first.log.trans second.log⟩

theorem mildly_record (s : Session) {message : Message} (errorless : message.level ≠ .error)
    (beepless : message ≠ .beep) : s.Mildly (s.record message) :=
  ⟨rfl, .record .refl errorless beepless⟩

theorem level_fetched? {m : Machine} {message : Message} (h : fetched? m = some message) :
    message.level = .trace := by
  unfold fetched? at h
  split at h
  · cases h
    rfl
  · cases h

theorem mildly_recordFetch (s : Session) : s.Mildly s.recordFetch := by
  unfold recordFetch
  split
  · next message _ fetched =>
    have level := level_fetched? fetched
    refine mildly_record s ?_ ?_
    · rw [level]
      decide
    · rintro rfl
      cases level
  · exact .refl s

theorem mildly_tick (s : Session) : s.Mildly s.tick.2 := by
  refine (mildly_recordFetch s).trans ?_
  unfold tick
  generalize s.recordFetch = noted
  rcases noted with ⟨machine, log, traced, announced⟩
  simp only
  rcases machine.tick with ⟨outcome, machine'⟩
  cases outcome with
  | ok flow => exact ⟨rfl, .refl⟩
  | error fault => exact ⟨rfl, .record .refl (by simp [Message.level]) (by simp)⟩

theorem mildly_noteWaiting (s : Session) (frame : Nat) : s.Mildly (s.noteWaiting frame) := by
  unfold noteWaiting
  split
  · exact mildly_record s (by simp [Message.level]) (by simp)
  · exact .refl s

theorem mildly_tickFrame (s : Session) (count : Nat) : s.Mildly (s.tickFrame count).2 := by
  induction count generalizing s with
  | zero => exact .refl s
  | succ count ih =>
    have ticked := mildly_tick s
    unfold tickFrame
    generalize s.tick = step at ticked ⊢
    rcases step with ⟨outcome, s'⟩
    cases outcome with
    | error fault => exact ticked
    | ok flow =>
      cases flow with
      | keyWait => exact ticked
      | proceed | jump | draw | sound => exact ticked.trans (ih s')

end Session

/-! ## Logs without an error -/

theorem Log.Clean.record {log : Log} {message : Message} (h : log.Clean)
    (mild : message.level ≠ .error) : (log.record message).Clean := by
  refine ⟨?_, fun kept mem => ?_⟩
  · rw [Log.threshold_record]
    exact h.keeps
  · rw [Log.toList_record] at mem
    rcases List.mem_append.mp mem with before | last
    · exact h.errorless kept before
    · obtain rfl : kept = message := List.mem_singleton.mp (List.mem_filter.mp last).1
      exact mild

theorem Log.Mildly.clean {log log' : Log} (mildly : log.Mildly log') (h : log.Clean) :
    log'.Clean := by
  induction mildly with
  | refl => exact h
  | record _ errorless _ ih => exact ih.record errorless

namespace Session

theorem clean_tickTimers {s : Session} (h : s.log.Clean) : s.tickTimers.2.log.Clean := by
  simp only [tickTimers]
  split
  · exact h.record (by simp [Message.level])
  · exact h

theorem clean_runFrames {s : Session} (h : s.log.Clean) (ticks left frame : Nat) (beeps : Int32) :
    (s.runFrames ticks left frame beeps).2.log.Clean := by
  induction left generalizing s frame beeps with
  | zero => exact h
  | succ left ih =>
    have next := (mildly_tickFrame s ticks).log.clean h
    unfold runFrames
    generalize s.tickFrame ticks = ended at next ⊢
    rcases ended with ⟨outcome, s'⟩
    cases outcome with
    | error fault => exact next
    | ok _ => exact ih ((mildly_noteWaiting _ frame).log.clean (clean_tickTimers next)) _ _

/-! ## Frames as operations -/

theorem go_machine (s : Session) (count : Nat) (last : Flow) :
    ((run.go count last s).1, (run.go count last s).2.machine) =
      Machine.run.go count last s.machine := by
  induction count generalizing s last with
  | zero => rfl
  | succ count ih =>
    have same := tick_machine s
    unfold run.go Machine.run.go
    rw [← same]
    rcases s.tick with ⟨outcome, s'⟩
    cases outcome with
    | ok flow => exact ih s' flow
    | error fault => rfl

/-- A session runs as its machine does. -/
theorem run_machine (s : Session) (count : Nat) :
    ((s.run count).1, (s.run count).2.machine) = s.machine.run count :=
  go_machine s count .proceed

end Session

namespace CommandLine

/-- What frames ask of a machine: their ticks, and then to count the timers. -/
def frameOperations (ticks : Nat) (frames : Nat) : List Operation :=
  (List.replicate frames [.run ticks, .tickTimers]).flatten

/-- What a run asks of a new machine. -/
def operations (a : Arguments) (program : List UInt8) : List Operation :=
  .load program :: (a.held.map (.setKey · true) ++ frameOperations a.ticksPerFrame a.frames)

theorem frameOperations_succ (ticks frames : Nat) :
    frameOperations ticks (frames + 1) =
      .run ticks :: .tickTimers :: frameOperations ticks frames := rfl

/-- Frames fail with the first fault that the machine answers their operations with, and leave the
machine that is left by these. -/
theorem runFrames_answers (ticks left frame : Nat) (beeps : Int32) (s : Session) :
    let ended := s.runFrames ticks left frame beeps
    let run := s.machine.applyAll (frameOperations ticks left)
    run.1.findSome? refusal? = refusal? ended.1 ∧
      (∀ beeps, ended.1 = .ok beeps → ended.2.machine = run.2) := by
  -- the frames that stop at a wait come to the same end
  rw [Session.runFrames_eq_runFullFrames]
  induction left generalizing s frame beeps with
  | zero => exact ⟨rfl, fun _ _ => rfl⟩
  | succ left ih =>
    have same := s.run_machine ticks
    rw [frameOperations_succ, Machine.applyAll_cons, Machine.applyAll_cons]
    simp only [Session.runFullFrames, Machine.apply, ← same]
    rcases s.run ticks with ⟨outcome, s'⟩
    cases outcome with
    | error fault => exact ⟨rfl, fun _ finished => by cases finished⟩
    | ok flow =>
      have rest := ih (frame + 1) (if s'.tickTimers.1 = true then beeps + 1 else beeps)
        (s'.tickTimers.2.noteWaiting frame)
      rw [Session.machine_noteWaiting, Session.machine_tickTimers] at rest
      exact rest

/-! ## A run -/

/-- What the program leaves after a failure, or after a run that ends on the screen `last?`. -/
inductive Concluded (last? : Option Screen) : Option Failure → Outcome → Prop
  | failed {failure : Failure} {log : Log} :
      log.Clean → Concluded last? (some failure) (fail log failure)
  | finished {screen : Screen} {log : Log} :
      last? = some screen → log.Clean →
      Concluded last? none { exitCode := 0, log, output := screen.dump }

theorem applyAll_setKey (m : Machine) (keys : List Key) :
    m.applyAll (keys.map (.setKey · true)) =
      (keys.map fun _ => .ok .done, keys.foldl (·.setKey · true) m) := by
  induction keys generalizing m with
  | nil => rfl
  | cons key keys ih =>
    rw [List.map_cons, Machine.applyAll_cons, ih]
    rfl

variable {a : Arguments} {program : List UInt8} {profile : Profile} {random : RandomStream}
  {log : Log}

theorem mildly_fresh : log.Mildly (fresh profile random log).log :=
  .record (.record .refl (by simp [Message.level]) (by simp)) (by simp [Message.level]) (by simp)

theorem mildly_ready {s : Session} (started : ready a program profile random log = .ok s) :
    log.Mildly s.log ∧ s.announced = true := by
  unfold ready Session.load at started
  generalize (fresh profile random log).machine.load program = loaded at started
  rcases loaded with ⟨outcome, m⟩
  cases outcome with
  | error fault => cases started
  | ok _ =>
    cases started
    have reset : log.Mildly ((fresh profile random log).log.record .reset) :=
      .record mildly_fresh (by simp [Message.level]) (by simp)
    exact ⟨.record reset (by simp [Message.level]) (by simp), rfl⟩

/-- The frames of a run begin on the machine that its first operations leave, and these are not
refused. -/
theorem ready_answers (small : program.length ≤ 3584) :
    ∃ s, ready a program profile random log = .ok s ∧
      let run := (Machine.new profile random).applyAll (operations a program)
      let frames := s.machine.applyAll (frameOperations a.ticksPerFrame a.frames)
      run.1.findSome? refusal? = frames.1.findSome? refusal? ∧ run.2 = frames.2 := by
  obtain ⟨m, loads⟩ : ∃ m, (Machine.new profile random).load program = (.ok (), m) :=
    ⟨_, Machine.load_of_le small⟩
  have started : (fresh profile random log).machine.load program = (.ok (), m) := loads
  simp only [ready, Session.load, started]
  refine ⟨_, rfl, ?_⟩
  have accepted : (Machine.new profile random).apply (.load program) = (.ok .done, m) := by
    rw [Machine.apply, loads]
    rfl
  have granted : (a.held.map fun _ => (.ok .done : Except Fault Answer)).findSome? refusal? =
      none := by
    simp [refusal?]
  rw [operations, Machine.applyAll_cons, Machine.applyAll_append, applyAll_setKey, accepted]
  refine ⟨?_, rfl⟩
  rw [List.findSome?_cons, List.findSome?_append, granted]
  rfl

theorem refused_of_lt (large : 3584 < program.length) :
    ((Machine.new profile random).applyAll (operations a program)).1.findSome? refusal? =
      some (.largeProgram program.length) := by
  rw [operations, Machine.applyAll_cons, Machine.apply, Machine.load_of_lt large]
  rfl

/-- A run that gets as far as its machine fails with the first fault that the machine answers with,
or else shows the screen that the machine ends on. -/
theorem play_concluded (clean : log.Clean) :
    let run := (Machine.new profile random).applyAll (operations a program)
    Concluded (some run.2.screen) ((run.1.findSome? refusal?).map .fault)
      (play a program profile random log) := by
  intro run
  rw [play_eq]
  rcases Nat.lt_or_ge 3584 program.length with large | small
  · rw [ready_of_lt large, refused_of_lt large]
    exact .failed (mildly_fresh.clean clean)
  -- the program fits, so that the frames decide
  obtain ⟨s, started, first, last⟩ := @ready_answers a program profile random log small
  have clean' := (mildly_ready started).1.clean clean
  have quiet := Session.clean_runFrames clean' a.ticksPerFrame a.frames 0 0
  obtain ⟨answers, state⟩ := runFrames_answers a.ticksPerFrame a.frames 0 0 s
  rw [started, first, last, answers]
  simp only
  generalize s.runFrames a.ticksPerFrame a.frames 0 0 = ended at quiet state ⊢
  rcases ended with ⟨outcome, s'⟩
  cases outcome with
  | error fault => exact .failed quiet
  | ok beeps =>
    rw [← state beeps rfl]
    exact .finished rfl (quiet.record (by simp [Message.level]))

end CommandLine

end Chip8
