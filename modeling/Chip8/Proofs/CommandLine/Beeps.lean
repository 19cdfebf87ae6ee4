import Chip8.Proofs.CommandLine.Grammar
import Chip8.Proofs.CommandLine.Stages

/-!
# The beeps of a run

The beeper of a run logs each beep, and the run counts the beeps by itself. Both see the same: the
frames whose count of the timers takes the sound timer from one to zero. The number in the last
message is the number of these frames as long as it is below 2^31. The count has 32 bits with a sign
and goes on below zero, and no run with more beeps tells their number.

Results:
1. `Mildly.logs`, `logs_tickTimers`: what logs no beep, and what logs one.
2. `runFrames_beeps`: the beeps of frames, logged and counted.
3. `log_of_buzzer`: a program that beeps in each frame.
4. `run_counts_beeps`, `run_loses_beeps`: the last message of a run, and where its number is wrong.
-/

namespace Chip8

/-! ## Definitions -/

/-- The next count of the timers takes the sound timer from one to zero. -/
def Machine.silences (m : Machine) : Bool := m.sound = 1 ∧ m.tickTimers.2.sound = 0

/-- How many beeps a log holds. -/
def Log.beeps (log : Log) : Nat := log.messages.toList.count .beep

namespace Session

/-- The machines on which the frames of `runFrames` count the timers, in order. -/
def countedByFrames (ticks : Nat) : (left frame : Nat) → Session → List Machine
  | 0, _, _ => []
  | left + 1, frame, s =>
    match s.tickFrame ticks with
    | (.error _, _) => []
    | (.ok (), s') =>
      s'.machine :: countedByFrames ticks left (frame + 1) (s'.tickTimers.2.noteWaiting frame)

/-- A session logs each beep: its beeper announces them, and its log keeps what is announced. -/
structure Announces (s : Session) : Prop where
  announced : s.announced = true
  keeps : s.log.threshold.admits .info = true

/-- A session came from another one that announces beeps, and logged some in between. -/
structure Logs (s s' : Session) (beeps : Nat) : Prop where
  announces : s.Announces → s'.Announces
  logged : s.Announces → s'.log.beeps = s.log.beeps + beeps

end Session

/-! ## What logs a beep -/

/-- A message adds to the beeps of a log that keeps them if it is one. -/
theorem Log.beeps_record {log : Log} (keeps : log.threshold.admits .info = true)
    (message : Message) :
    (log.record message).beeps = log.beeps + if message = .beep then 1 else 0 := by
  unfold beeps
  rw [toList_record, List.count_append]
  refine congrArg _ ?_
  split
  · next same =>
    have kept : log.threshold.admits message.level = true := by
      rw [same]
      exact keeps
    rw [List.filter_cons, if_pos kept, same]
    rfl
  · next other =>
    refine List.count_eq_zero.mpr fun mem => other ?_
    exact (List.mem_singleton.mp (List.mem_filter.mp mem).1).symm

theorem Log.Mildly.beeps {log log' : Log} (mildly : log.Mildly log')
    (keeps : log.threshold.admits .info = true) :
    log'.threshold = log.threshold ∧ log'.beeps = log.beeps := by
  induction mildly with
  | refl => exact ⟨rfl, rfl⟩
  | record _ _ beepless ih =>
    obtain ⟨threshold, beeps⟩ := ih
    refine ⟨(threshold_record _ _).trans threshold, ?_⟩
    rw [beeps_record (threshold ▸ keeps), if_neg beepless, beeps, Nat.add_zero]

namespace Session

variable {s s' s'' : Session} {beeps more : Nat}

theorem Logs.refl (s : Session) : s.Logs s 0 := ⟨id, fun _ => rfl⟩

theorem Logs.trans (first : s.Logs s' beeps) (second : s'.Logs s'' more) :
    s.Logs s'' (beeps + more) where
  announces h := second.announces (first.announces h)
  logged h := by
    rw [second.logged (first.announces h), first.logged h]
    omega

theorem Logs.after (first : s.Logs s' 0) (second : s'.Logs s'' more) : s.Logs s'' more := by
  have both := first.trans second
  rwa [Nat.zero_add] at both

theorem logs_beep (s : Session) : s.Logs (s.record .beep) 1 where
  announces h := by
    refine ⟨h.announced, ?_⟩
    show (s.log.record .beep).threshold.admits .info = true
    rw [Log.threshold_record]
    exact h.keeps
  logged h := Log.beeps_record h.keeps .beep

theorem Mildly.logs (mildly : s.Mildly s') : s.Logs s' 0 where
  announces h := by
    obtain ⟨threshold, -⟩ := mildly.log.beeps h.keeps
    exact ⟨mildly.announced.trans h.announced, threshold ▸ h.keeps⟩
  logged h := (mildly.log.beeps h.keeps).2

theorem logs_machine (s : Session) (machine : Machine) : s.Logs { s with machine } 0 :=
  ⟨fun h => ⟨h.announced, h.keeps⟩, fun _ => rfl⟩

theorem silences_eq (m : Machine) : m.silences = decide (m.sound = 1) := by
  unfold Machine.silences
  by_cases last : m.sound = 1
  · simp [Machine.tickTimers, last]
  · simp [last]

/-- A count of the timers logs a beep if it takes the sound timer to zero, and tells so. -/
theorem logs_tickTimers (s : Session) :
    s.tickTimers.1 = s.machine.silences ∧
      s.Logs s.tickTimers.2 (if s.machine.silences then 1 else 0) := by
  have sounded : s.tickTimers.1 = s.machine.silences := (silences_eq s.machine).symm
  refine ⟨sounded, ?_⟩
  cases announced : s.announced with
  | false =>
    have silent (h : s.Announces) : False := by
      cases announced.symm.trans h.announced
    exact ⟨fun h => (silent h).elim, fun h => (silent h).elim⟩
  | true =>
    have counted := logs_machine s s.machine.tickTimers.2
    have last : s.machine.tickTimers.1 = s.machine.silences := sounded
    have whole : s.tickTimers.2 =
        if s.machine.silences then { s with machine := s.machine.tickTimers.2 }.record .beep
        else { s with machine := s.machine.tickTimers.2 } := by
      simp only [tickTimers, announced, Bool.and_true, last]
    rw [whole]
    cases s.machine.silences with
    | false => exact counted
    | true => exact counted.after (logs_beep _)

/-! ## Frames -/

/-- Frames that do not fault count the timers once each. The beeps that are logged are those of the
counts that take the sound timer to zero, and as many are added to those counted before. -/
theorem runFrames_beeps {ticks left frame : Nat} {before beeps : Int32}
    (ended : s.runFrames ticks left frame before = (.ok beeps, s')) :
    let counted := s.countedByFrames ticks left frame
    counted.length = left ∧ s.Logs s' (counted.countP Machine.silences) ∧
      beeps = before + Int32.ofNat (counted.countP Machine.silences) := by
  induction left generalizing s frame before with
  | zero =>
    cases ended
    exact ⟨rfl, .refl _, (Int32.add_zero _).symm⟩
  | succ left ih =>
    have ticked := (mildly_tickFrame s ticks).logs
    unfold runFrames at ended
    unfold countedByFrames
    generalize s.tickFrame ticks = step at ticked ended
    rcases step with ⟨outcome, t⟩
    cases outcome with
    | error fault => cases ended
    | ok _ =>
      obtain ⟨sounded, counted⟩ := logs_tickTimers t
      have rest : runFrames ticks left (frame + 1) (if t.tickTimers.1 then before + 1 else before)
          (t.tickTimers.2.noteWaiting frame) = (.ok beeps, s') := ended
      obtain ⟨length, logged, added⟩ := ih rest
      have logged := ticked.after (counted.trans ((mildly_noteWaiting _ frame).logs.after logged))
      refine ⟨congrArg Nat.succ length, ?_, ?_⟩
      · rw [List.countP_cons, Nat.add_comm]
        exact logged
      · rw [List.countP_cons, added, sounded, Int32.ofNat_add]
        cases t.machine.silences with
        | false => exact congrArg (before + ·) (Int32.add_zero _).symm
        | true => exact (Int32.add_assoc _ _ _).trans (congrArg (before + ·) (Int32.add_comm _ _))

end Session

/-- A count with 32 bits and a sign that was increased by one some times tells how many times these
were, if they were less than 2^31, and never else. -/
theorem toInt_ofNat_eq_iff (n : Nat) : (Int32.ofNat n).toInt = n ↔ n < 2147483648 := by
  constructor
  · intro same
    have below := (Int32.ofNat n).toInt_lt
    omega
  · exact Int32.toInt_ofNat_of_lt

namespace CommandLine

variable {Tree : Type}

/-- The program comes to run the frames of some arguments, from a session on. -/
inductive Begins (host : Host Tree) (args : List String) (files : Files) :
    Arguments → Session → Prop
  | mk {a : Arguments} {program : List UInt8} {profile : Profile} {log : Log} {s : Session} :
      Arguments.parse args = .ok a → files a.file = .ok program →
      profile? host a files = some profile →
      ready a program profile (stream host a.seed) log = .ok s → Begins host args files a s

variable {a : Arguments} {program : List UInt8} {profile : Profile} {random : RandomStream}
  {log : Log} {s : Session} {args : List String} {files : Files} {host : Host Tree}
  {least : Level}

/-! ## Before the first frame -/

theorem readProfile_ok {log' : Log}
    (read : readProfile host files a.configuration log = (.ok profile, log')) :
    profile? host a files = some profile ∧ log.Mildly log' := by
  unfold readProfile at read
  unfold profile?
  cases given : a.configuration with
  | none =>
    rw [given] at read
    cases read
    exact ⟨rfl, .refl⟩
  | some path =>
    simp only [given] at read
    cases file : files path with
    | error error =>
      simp only [file] at read
      cases read
    | ok bytes =>
      simp only [file] at read
      cases meaning : Configuration.ofBytes? host.format bytes with
      | none =>
        simp only [meaning] at read
        cases read
      | some profile =>
        simp only [meaning] at read
        cases read
        refine ⟨by simp [file, meaning, Except.toOption], ?_⟩
        exact .record .refl (by simp [Message.level]) (by simp)

theorem exitCode_fail_ne_zero (log : Log) (failure : Failure) : (fail log failure).exitCode ≠ 0 :=
  exitCode_ne_zero failure

theorem play_finished (finished : (play a program profile random log).exitCode = 0) :
    ∃ s s' beeps, ready a program profile random log = .ok s ∧
      s.runFrames a.ticksPerFrame a.frames 0 0 = (.ok beeps, s') ∧
      (play a program profile random log).log = s'.log.record (.finished a.frames beeps) := by
  rw [play_eq] at finished ⊢
  cases started : ready a program profile random log with
  | error fault =>
    rw [started] at finished
    exact absurd finished (exitCode_fail_ne_zero _ _)
  | ok s =>
    simp only [started] at finished ⊢
    generalize ended : s.runFrames a.ticksPerFrame a.frames 0 0 = result at finished ⊢
    rcases result with ⟨outcome, s'⟩
    cases outcome with
    | error fault => exact absurd finished (exitCode_fail_ne_zero _ _)
    | ok beeps => exact ⟨s, s', beeps, rfl, ended, rfl⟩

/-- A run that finishes comes to its frames with no beep logged, and ends with the message that
tells their number and their beeps. -/
theorem run_finished (keeps : Threshold.admits (some least) .info = true)
    (finished : (run host args files (some least)).exitCode = 0) :
    ∃ a s s' beeps, Begins host args files a s ∧ s.Announces ∧ s.log.beeps = 0 ∧
      s.runFrames a.ticksPerFrame a.frames 0 0 = (.ok beeps, s') ∧
      (run host args files (some least)).log = s'.log.record (.finished a.frames beeps) := by
  unfold run at finished ⊢
  cases parsed : Arguments.parse args with
  | error failure =>
    rw [parsed] at finished
    exact absurd finished (exitCode_fail_ne_zero _ _)
  | ok a =>
    simp only [parsed, perform_eq] at finished ⊢
    cases read : files a.file with
    | error error =>
      rw [read] at finished
      exact absurd finished (exitCode_fail_ne_zero _ _)
    | ok program =>
      have opened : Log.Mildly { threshold := some least }
          (Log.record { threshold := some least } (.readingProgram a.file)) :=
        .record .refl (by simp [Message.level]) (by simp)
      simp only [read] at finished ⊢
      generalize configured : readProfile host files a.configuration _ = result at finished ⊢
      rcases result with ⟨outcome, log⟩
      cases outcome with
      | error failure => exact absurd finished (exitCode_fail_ne_zero _ _)
      | ok profile =>
        obtain ⟨meant, mildly⟩ := readProfile_ok configured
        obtain ⟨s, s', beeps, started, ended, last⟩ := play_finished finished
        obtain ⟨begun, announced⟩ := mildly_ready started
        obtain ⟨threshold, silent⟩ := (opened.trans (mildly.trans begun)).beeps keeps
        have announces : s.Announces := ⟨announced, threshold ▸ keeps⟩
        exact ⟨a, s, s', beeps, .mk parsed read meant started, announces, silent, ended, last⟩

/-! ## The last message -/

theorem log_of_finished (keeps : Threshold.admits (some least) .info = true)
    (finished : (run host args files (some least)).exitCode = 0) :
    ∃ a s earlier beeps, Begins host args files a s ∧
      (run host args files (some least)).log.messages.toList =
        earlier ++ [.finished a.frames beeps] ∧
      let counted := s.countedByFrames a.ticksPerFrame a.frames 0
      counted.length = a.frames ∧ earlier.count .beep = counted.countP Machine.silences ∧
        beeps = Int32.ofNat (earlier.count .beep) := by
  obtain ⟨a, s, s', beeps, begins, announces, silent, ended, log⟩ := run_finished keeps finished
  obtain ⟨length, logs, told⟩ := Session.runFrames_beeps ended
  have logged : s'.log.beeps =
      (s.countedByFrames a.ticksPerFrame a.frames 0).countP Machine.silences := by
    rw [logs.logged announces, silent, Nat.zero_add]
  rw [← logged, Int32.zero_add] at told
  have kept : s'.log.threshold.admits (Message.finished a.frames beeps).level = true :=
    (logs.announces announces).keeps
  refine ⟨a, s, s'.log.messages.toList, beeps, begins, ?_, length, logged, told⟩
  rw [log, Log.toList_record_of_kept kept]

/-! ## A beep in every frame -/

/-- A program that sets the sound timer to one in a loop of two instructions. -/
def buzzer : List UInt8 := [0x60, 0x01, 0xF0, 0x18, 0x12, 0x02]

/-- The machine runs the buzzer, and its next two ticks set the sound timer to one. -/
structure Buzzes (m : Machine) : Prop where
  running : m.keyWait = none
  first : m.memory.readWord 512 = .ok (Instruction.setByte 0 1).encode
  second : m.memory.readWord 514 = .ok (Instruction.setSound 0).encode
  third : m.memory.readWord 516 = .ok (Instruction.jump 514).encode
  place : m.pc = 512 ∨ m.pc = 516 ∧ m.register 0 = 1

theorem Buzzes.tickTimers {m : Machine} (h : Buzzes m) : Buzzes m.tickTimers.2 :=
  ⟨h.running, h.first, h.second, h.third, h.place⟩

/-- Both ways lead to the instruction that sets the sound timer. -/
theorem Buzzes.tick {m : Machine} (h : Buzzes m) : ∃ flow n, m.tick = (.ok flow, n) ∧
    n.keyWait = none ∧ n.memory = m.memory ∧ n.pc = 514 ∧ n.register 0 = 1 := by
  rcases h.place with start | ⟨back, one⟩
  · have word : m.fetch = .ok (Instruction.setByte 0 1).encode := by
      rw [Machine.fetch, start]
      exact h.first
    refine ⟨_, _, Machine.tick_of_fetch h.running word (Instruction.decode?_encode _), h.running,
      rfl, congrArg (· + 2) start, ?_⟩
    exact (Machine.register_setRegister m.advance 0 0 1).trans (if_pos rfl)
  · have word : m.fetch = .ok (Instruction.jump 514).encode := by
      rw [Machine.fetch, back]
      exact h.third
    exact ⟨_, _, Machine.tick_of_fetch h.running word (Instruction.decode?_encode _), h.running,
      rfl, rfl, one⟩

/-- Two ticks set the sound timer, and after them the machine is where it is again two ticks
later. -/
theorem Buzzes.run {m : Machine} (h : Buzzes m) :
    ∃ n, m.run 2 = (.ok .sound, n) ∧ n.sound = 1 ∧ Buzzes n := by
  obtain ⟨flow, n, ticked, running, memory, place, one⟩ := h.tick
  have word : n.fetch = .ok (Instruction.setSound 0).encode := by
    rw [Machine.fetch, place, memory]
    exact h.second
  have sounds : n.tick = (.ok .sound, { n.advance with sound := n.register 0 }) :=
    Machine.tick_of_fetch running word (Instruction.decode?_encode _)
  refine ⟨{ n.advance with sound := n.register 0 }, ?_, one, ?_⟩
  · simp only [Machine.run, Machine.run.go, ticked, sounds]
  · obtain ⟨-, first, second, third, -⟩ := h
    rw [← memory] at first second third
    exact ⟨running, first, second, third, .inr ⟨congrArg (· + 2) place, one⟩⟩

theorem Buzzes.tickFrame {s : Session} (h : Buzzes s.machine) :
    ∃ t, s.tickFrame 2 = (.ok (), t) ∧ t.machine.sound = 1 ∧ Buzzes t.machine := by
  obtain ⟨n, ran, sounds, again⟩ := h.run
  obtain ⟨outcome, machine⟩ := Prod.ext_iff.mp ((s.run_machine 2).trans ran)
  refine ⟨(s.run 2).2, ?_, ?_, ?_⟩
  · rw [Session.tickFrame_eq_run, show (s.run 2).1 = .ok .sound from outcome]
    rfl
  · rw [show (s.run 2).2.machine = n from machine]
    exact sounds
  · rw [show (s.run 2).2.machine = n from machine]
    exact again

/-- The buzzer runs without a fault and beeps in each frame. -/
theorem Buzzes.runFrames {s : Session} (h : Buzzes s.machine) (left frame : Nat) (before : Int32) :
    (∃ beeps t, s.runFrames 2 left frame before = (.ok beeps, t)) ∧
      (s.countedByFrames 2 left frame).countP Machine.silences = left := by
  induction left generalizing s frame before with
  | zero => exact ⟨⟨_, _, rfl⟩, rfl⟩
  | succ left ih =>
    obtain ⟨t, ticked, sounds, again⟩ := h.tickFrame
    have next : Buzzes (t.tickTimers.2.noteWaiting frame).machine := by
      rw [Session.machine_noteWaiting, Session.machine_tickTimers]
      exact again.tickTimers
    obtain ⟨ended, beeps⟩ :=
      ih next (frame + 1) (if t.tickTimers.1 then before + 1 else before)
    have beeped : t.machine.silences = true := by
      rw [Session.silences_eq, sounds]
      rfl
    unfold Session.runFrames Session.countedByFrames
    rw [ticked]
    refine ⟨ended, ?_⟩
    rw [List.countP_cons_of_pos beeped, beeps]

theorem ready_buzzer (nothing : a.held = []) :
    ∃ s, ready a buzzer profile random log = .ok s ∧ Buzzes s.machine := by
  have fits : buzzer.length ≤ 3584 := by decide
  simp only [ready, Session.load, Machine.load_of_le fits, nothing]
  refine ⟨_, rfl, rfl, ?_, ?_, ?_, .inl rfl⟩
  · exact Memory.readWord_overlay_of_lt (k := 0) (by decide) (by decide)
  · exact Memory.readWord_overlay_of_lt (k := 2) (by decide) (by decide)
  · exact Memory.readWord_overlay_of_lt (k := 4) (by decide) (by decide)

theorem buzzes_of_ready (nothing : a.held = [])
    (started : ready a buzzer profile random log = .ok s) : Buzzes s.machine := by
  obtain ⟨s', started', buzzes⟩ := @ready_buzzer a profile random log nothing
  cases started.symm.trans started'
  exact buzzes

theorem exitCode_play_buzzer (nothing : a.held = []) (two : a.ticksPerFrame = 2) :
    (play a buzzer profile random log).exitCode = 0 := by
  obtain ⟨s, started, buzzes⟩ := @ready_buzzer a profile random log nothing
  obtain ⟨⟨beeps, t, ended⟩, -⟩ := buzzes.runFrames a.frames 0 0
  rw [play_eq, started, two]
  simp only [ended, conclude]

/-- Runs the buzzer for some frames, with two ticks in each. -/
def buzz (frames : Nat) : List String :=
  ["run", "beep.rom", "--frames", toString frames, "--ticks-per-frame", "2"]

theorem parse_buzz {frames : Nat} (small : frames < UInt64.size) :
    Arguments.parse (buzz frames) = .ok { file := "beep.rom", frames, ticksPerFrame := 2 } := by
  have fits : Arguments.Fits { file := "beep.rom", frames, ticksPerFrame := 2 } :=
    ⟨small, (by decide : 2 < UInt64.size), nofun⟩
  have lists : Arguments.Lists { file := "beep.rom", frames, ticksPerFrame := 2 }
      [.frames frames, .ticksPerFrame 2] := ⟨rfl, rfl, rfl, rfl, rfl, by simp⟩
  exact Arguments.parse_write fits lists

/-- The buzzer logs a beep in each frame, and the last message tells as many as fit. -/
theorem log_of_buzzer {frames : Nat} (small : frames < UInt64.size)
    (read : files "beep.rom" = .ok buzzer) :
    (run host (buzz frames) files (some .info)).exitCode = 0 ∧ ∃ earlier,
      (run host (buzz frames) files (some .info)).log.messages.toList =
        earlier ++ [.finished frames (Int32.ofNat frames)] ∧ earlier.count .beep = frames := by
  have parsed := parse_buzz small
  have finished : (run host (buzz frames) files (some .info)).exitCode = 0 := by
    simp only [run, parsed, perform_eq, read]
    exact exitCode_play_buzzer rfl rfl
  obtain ⟨a, s, earlier, beeps, begins, log, -, logged, told⟩ := log_of_finished rfl finished
  cases begins with
  | mk parsed' read' _ started =>
    cases parsed.symm.trans parsed'
    cases read.symm.trans read'
    have buzzes : Buzzes s.machine := buzzes_of_ready rfl started
    have all : earlier.count .beep = frames := logged.trans (buzzes.runFrames frames 0 0).2
    rw [all] at told
    exact ⟨finished, earlier, told ▸ log, all⟩

/-! ## Any run -/

/-- The log of a run that finishes without a fault ends with the number of its frames and of its
beeps. The frames are as many as were asked for. The beeps that are logged before are those of the
frames whose count of the timers takes the sound timer from one to zero, and the number in the
message is their number, if it is less than 2^31 and only then. -/
theorem run_counts_beeps (host : Host Tree) (args : List String) (files : Files)
    (least : Level) (keeps : Threshold.admits (some least) .info = true)
    (finished : (run host args files (some least)).exitCode = 0) :
    ∃ a s earlier beeps, Begins host args files a s ∧
      (run host args files (some least)).log.messages.toList =
        earlier ++ [.finished a.frames beeps] ∧
      let counted := s.countedByFrames a.ticksPerFrame a.frames 0
      counted.length = a.frames ∧ earlier.count .beep = counted.countP Machine.silences ∧
        (beeps.toInt = earlier.count .beep ↔ earlier.count .beep < 2147483648) := by
  obtain ⟨a, s, earlier, beeps, begins, log, length, logged, told⟩ := log_of_finished keeps finished
  refine ⟨a, s, earlier, beeps, begins, log, length, logged, ?_⟩
  rw [told]
  exact toInt_ofNat_eq_iff _

/-- What the buzzer leaves in the standard host after some frames. -/
def buzzed (frames : Nat) : Outcome :=
  run (.standard (.constant 0)) (buzz frames) (fun _ => .ok buzzer) (some .info)

theorem log_buzzed {frames : Nat} (small : frames < UInt64.size) :
    (buzzed frames).exitCode = 0 ∧ ∃ earlier,
      (buzzed frames).log.messages.toList = earlier ++ [.finished frames (Int32.ofNat frames)] ∧
        earlier.count .beep = frames :=
  @log_of_buzzer _ (fun _ => .ok buzzer) (.standard (.constant 0)) frames small rfl

/-- The buzzer in one frame. -/
theorem run_counts_beeps_buzzer :
    (buzzed 1).exitCode = 0 ∧ ∃ earlier beeps,
      (buzzed 1).log.messages.toList = earlier ++ [.finished 1 beeps] ∧
        (beeps.toInt = earlier.count .beep ↔ earlier.count .beep < 2147483648) := by
  have small : 1 < UInt64.size := by decide
  have finished : (buzzed 1).exitCode = 0 := (log_buzzed small).1
  unfold buzzed at finished ⊢
  obtain ⟨a, s, earlier, beeps, begins, log, -, -, fits⟩ :=
    run_counts_beeps (.standard (.constant 0)) (buzz 1) (fun _ => .ok buzzer) .info rfl finished
  cases begins with
  | mk parsed _ _ _ =>
    have frames : a.frames = 1 :=
      congrArg Arguments.frames (Except.ok.inj (parsed.symm.trans (parse_buzz small)))
    rw [frames] at log
    exact ⟨finished, earlier, beeps, log, fits⟩

/-- The buzzer in 2^31 frames beeps in each of them, and tells of a negative number of beeps. -/
theorem run_loses_beeps :
    (buzzed 2147483648).exitCode = 0 ∧ ∃ earlier beeps,
      (buzzed 2147483648).log.messages.toList = earlier ++ [.finished 2147483648 beeps] ∧
        earlier.count .beep = 2147483648 ∧ beeps.toInt = -2147483648 := by
  have small : 2147483648 < UInt64.size := by decide
  have told : (Int32.ofNat 2147483648).toInt = -2147483648 := by decide
  obtain ⟨finished, earlier, log, logged⟩ := log_buzzed small
  exact ⟨finished, earlier, Int32.ofNat 2147483648, log, logged, told⟩

end CommandLine

end Chip8
