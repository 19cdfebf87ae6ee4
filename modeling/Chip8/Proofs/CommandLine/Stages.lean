import Chip8.CommandLine.Standard
import Chip8.Proofs.CommandLine.Arguments
import Chip8.Proofs.CommandLine.Execution

/-!
# The first failure

The stages of the program, each judged on its own, and what the program leaves: the first stage that
fails decides the exit code, the output and the one error of the log.

Results:
1. `stagesEnd_run`: the first stage that fails decides the outcome of the program.
2. `exitCode_mem`: the exit codes of each stage.
3. `run_ends_at_first_failure`: the exit code, the output and the log of the program.
-/

namespace Chip8.CommandLine

/-! ## Stages -/

variable {Tree : Type}

/-- The stages of the program, in order.

* `arguments`: the arguments are read.
* `program`: the program file is read.
* `configurationFile`, `configuration`: if there is one, the configuration file is read, and the
  configuration from it.
* `size`: the program is loaded.
* `execution`: the machine runs. -/
inductive Stage
  | arguments
  | program
  | configurationFile
  | configuration
  | size
  | execution
  deriving DecidableEq, Repr

/-- The exit codes that a stage can fail with. -/
def Stage.exitCodes : Stage → List Nat
  | .arguments => [64, 1]
  | .program | .configurationFile => [66]
  | .configuration => [78]
  | .size | .execution => [1]

/-- The profile of a run, if nothing is wrong with its configuration. -/
def profile? (host : Host Tree) (a : Arguments) (files : Files) : Option Profile :=
  match a.configuration with
  | none => some {}
  | some path => (files path).toOption.bind (Configuration.ofBytes? host.format)

/-- The answers and the last state of the machine of a run, if program and profile can be read. -/
def execution? (host : Host Tree) (args : List String) (files : Files) :
    Option (List (Except Fault Answer) × Machine) := do
  let a ← (Arguments.parse args).toOption
  let rom ← (files a.file).toOption
  let profile ← profile? host a files
  return (Machine.new profile (stream host a.seed)).applyAll (operations a rom)

/-- What a stage fails with, if it fails, whatever becomes of the other stages. A stage that does
not get what it works on does not fail. -/
def Stage.failure? (host : Host Tree) (args : List String) (files : Files) :
    Stage → Option Failure
  | .arguments => refusal? (Arguments.parse args)
  | .program => do
    let a ← (Arguments.parse args).toOption
    (refusal? (files a.file)).map .unreadable
  | .configurationFile => do
    let a ← (Arguments.parse args).toOption
    let path ← a.configuration
    (refusal? (files path)).map .unreadable
  | .configuration => do
    let a ← (Arguments.parse args).toOption
    let path ← a.configuration
    let bytes ← (files path).toOption
    if Configuration.ofBytes? host.format bytes = none then some .configuration else none
  | .size => do
    let a ← (Arguments.parse args).toOption
    let rom ← (files a.file).toOption
    if 3584 < rom.length then some (.fault (.largeProgram rom.length)) else none
  | .execution => do
    let run ← execution? host args files
    (run.1.findSome? refusal?).map .fault

/-- The failure of the first stage that fails. -/
def firstFailure? (host : Host Tree) (args : List String) (files : Files) : Option Failure :=
  [.arguments, .program, .configurationFile, .configuration, .size, .execution].findSome?
    (Stage.failure? host args files)

/-- The stages of a list end in an outcome: that of the first of them that fails, or else of a run
that ends on the last screen of the machine. -/
def StagesEnd (host : Host Tree) (args : List String) (files : Files) (stages : List Stage)
    (outcome : Outcome) : Prop :=
  Concluded ((execution? host args files).map (·.2.screen))
    (stages.findSome? (Stage.failure? host args files)) outcome

variable {args : List String} {files : Files} {host : Host Tree} {a : Arguments}
  {profile : Profile} {log : Log} {stage : Stage} {stages : List Stage} {outcome : Outcome}

/-! ## One stage after the other -/

theorem StagesEnd.fails {failure : Failure}
    (fails : stage.failure? host args files = some failure) (clean : log.Clean) :
    StagesEnd host args files (stage :: stages) (fail log failure) := by
  unfold StagesEnd
  rw [List.findSome?_cons, fails]
  exact .failed clean

theorem StagesEnd.passes (passes : stage.failure? host args files = none)
    (rest : StagesEnd host args files stages outcome) :
    StagesEnd host args files (stage :: stages) outcome := by
  unfold StagesEnd
  rw [List.findSome?_cons, passes]
  exact rest

/-- With program and profile read, loading and running are left. -/
theorem stagesEnd_play {rom : List UInt8} (parsed : Arguments.parse args = .ok a)
    (read : files a.file = .ok rom) (configured : profile? host a files = some profile)
    (clean : log.Clean) :
    StagesEnd host args files [.size, .execution]
      (play a rom profile (stream host a.seed) log) := by
  have executed : execution? host args files =
      some ((Machine.new profile (stream host a.seed)).applyAll (operations a rom)) := by
    simp [execution?, parsed, read, configured, Except.toOption]
  -- a program that is too large is what the machine refuses first
  have stages : [Stage.size, .execution].findSome? (Stage.failure? host args files) =
      (((Machine.new profile (stream host a.seed)).applyAll
        (operations a rom)).1.findSome? refusal?).map .fault := by
    rcases Nat.lt_or_ge 3584 rom.length with large | small
    · rw [refused_of_lt large]
      simp [Stage.failure?, parsed, read, large, Except.toOption]
    · simp [Stage.failure?, parsed, read, Nat.not_lt.mpr small, executed, Except.toOption]
  unfold StagesEnd
  rw [stages, executed]
  exact play_concluded clean

/-- With the program file read, the configuration is next. -/
theorem stagesEnd_readProfile {rom : List UInt8} (parsed : Arguments.parse args = .ok a)
    (read : files a.file = .ok rom) (clean : log.Clean) :
    StagesEnd host args files [.configurationFile, .configuration, .size, .execution]
      (match readProfile host files a.configuration log with
        | (.error failure, log) => fail log failure
        | (.ok profile, log) => play a rom profile (stream host a.seed) log) := by
  cases given : a.configuration with
  | none =>
    have configured : profile? host a files = some {} := by simp [profile?, given]
    refine .passes ?_ (.passes ?_ (stagesEnd_play parsed read configured clean))
    · simp [Stage.failure?, parsed, given, Except.toOption]
    · simp [Stage.failure?, parsed, given, Except.toOption]
  | some path =>
    have opening : (log.record (.readingConfiguration path)).Clean :=
      clean.record (by simp [Message.level])
    simp only [readProfile]
    cases file : files path with
    | error error =>
      refine .fails ?_ opening
      simp [Stage.failure?, parsed, given, file, Except.toOption, refusal?]
    | ok bytes =>
      refine .passes (by simp [Stage.failure?, parsed, given, file, Except.toOption, refusal?]) ?_
      cases meaning : Configuration.ofBytes? host.format bytes with
      | none =>
        simp only [meaning]
        refine .fails ?_ opening
        simp [Stage.failure?, parsed, given, file, meaning, Except.toOption]
      | some profile =>
        have configured : profile? host a files = some profile := by
          simp [profile?, given, file, meaning, Except.toOption]
        simp only [meaning]
        refine .passes ?_ (stagesEnd_play parsed read configured opening)
        simp [Stage.failure?, parsed, given, file, meaning, Except.toOption]

/-- With the arguments read, the program file is next. -/
theorem stagesEnd_perform (parsed : Arguments.parse args = .ok a) (clean : log.Clean) :
    StagesEnd host args files
      [.program, .configurationFile, .configuration, .size, .execution]
      (perform host a files log) := by
  have opening : (log.record (.readingProgram a.file)).Clean :=
    clean.record (by simp [Message.level])
  rw [perform_eq]
  cases read : files a.file with
  | error error =>
    refine .fails ?_ opening
    simp [Stage.failure?, parsed, read, Except.toOption, refusal?]
  | ok rom =>
    refine .passes ?_ (stagesEnd_readProfile parsed read opening)
    simp [Stage.failure?, parsed, read, Except.toOption, refusal?]

theorem clean_empty (least : Level) : Log.Clean { threshold := some least } :=
  ⟨by cases least <;> rfl, fun _ mem => by cases mem⟩

/-- All stages in their order end in the outcome of the whole program. -/
theorem stagesEnd_run (host : Host Tree) (args : List String) (files : Files)
    (least : Level) :
    StagesEnd host args files
      [.arguments, .program, .configurationFile, .configuration, .size, .execution]
      (run host args files (some least)) := by
  have first : Stage.failure? host args files .arguments =
      refusal? (Arguments.parse args) := rfl
  unfold run
  cases parsed : Arguments.parse args with
  | error failure =>
    refine .fails ?_ (clean_empty least)
    rw [first, parsed]
    rfl
  | ok a =>
    refine .passes ?_ (stagesEnd_perform parsed (clean_empty least))
    rw [first, parsed]
    rfl

/-! ## Outcomes -/

theorem head?_dump (s : Screen) : s.dump.toList.head? = some (Screen.glyph (s.pixel 0 0)) := by
  rw [Screen.dump, String.toList_ofList]
  rfl

theorem head?_usage : (version ++ usage ++ "\n").toList.head? = some 'C' := by
  have first : version.toList.head? = some 'C' := by decide
  rw [String.toList_append, String.toList_append, List.append_assoc, List.head?_append, first]
  rfl

/-- No failure shows anything that could be a screen. -/
theorem output_fail_ne_dump (log : Log) (failure : Failure) (screen : Screen) :
    (fail log failure).output ≠ screen.dump := by
  intro same
  have head := congrArg (fun text : String => text.toList.head?) same
  simp only [fail, head?_dump] at head
  split at head
  · rw [head?_usage] at head
    cases lit : screen.pixel 0 0 <;> simp [lit, Screen.glyph] at head
  · cases head

theorem exitCode_ne_zero (failure : Failure) : failure.exitCode ≠ 0 := by
  cases failure <;> simp [Failure.exitCode]

theorem isUsage_iff (failure : Failure) : failure.isUsage = true ↔ failure.exitCode = 64 := by
  cases failure <;> simp [Failure.isUsage, Failure.exitCode]

/-- A stage fails with one of its exit codes. -/
theorem exitCode_mem {stage : Stage} {failure : Failure}
    (fails : stage.failure? host args files = some failure) :
    failure.exitCode ∈ stage.exitCodes := by
  cases stage with
  | arguments =>
    rcases Arguments.usage_or_fault (refusal?_eq_some_iff.mp fails) with
      ⟨error, rfl⟩ | ⟨_, _, index, _, rfl, _⟩
    · exact List.mem_cons_self
    · exact List.mem_cons_of_mem _ List.mem_cons_self
  | program =>
    obtain ⟨a, _, unread⟩ := Option.bind_eq_some_iff.mp fails
    obtain ⟨error, _, rfl⟩ := Option.map_eq_some_iff.mp unread
    exact List.mem_cons_self
  | configurationFile =>
    obtain ⟨a, _, given⟩ := Option.bind_eq_some_iff.mp fails
    obtain ⟨path, _, unread⟩ := Option.bind_eq_some_iff.mp given
    obtain ⟨error, _, rfl⟩ := Option.map_eq_some_iff.mp unread
    exact List.mem_cons_self
  | configuration =>
    obtain ⟨a, _, given⟩ := Option.bind_eq_some_iff.mp fails
    obtain ⟨path, _, read⟩ := Option.bind_eq_some_iff.mp given
    obtain ⟨bytes, _, meaningless⟩ := Option.bind_eq_some_iff.mp read
    obtain ⟨_, same⟩ := Option.ite_none_right_eq_some.mp meaningless
    cases same
    exact List.mem_cons_self
  | size =>
    obtain ⟨a, _, read⟩ := Option.bind_eq_some_iff.mp fails
    obtain ⟨rom, _, large⟩ := Option.bind_eq_some_iff.mp read
    obtain ⟨_, same⟩ := Option.ite_none_right_eq_some.mp large
    cases same
    exact List.mem_cons_self
  | execution =>
    obtain ⟨run, _, refused⟩ := Option.bind_eq_some_iff.mp fails
    obtain ⟨fault, _, rfl⟩ := Option.map_eq_some_iff.mp refused
    exact List.mem_cons_self

variable {last? : Option Screen} {failure? : Option Failure}

theorem Concluded.exitCode_eq (h : Concluded last? failure? outcome) :
    outcome.exitCode = failure?.elim 0 Failure.exitCode := by
  cases h with
  | failed _ => rfl
  | finished _ _ => rfl

theorem Concluded.output_of_failed {failure : Failure}
    (h : Concluded last? (some failure) outcome) :
    outcome.output = if failure.exitCode = 64 then version ++ usage ++ "\n" else "" := by
  cases h with
  | failed _ => simp only [fail, isUsage_iff]

theorem Concluded.output_of_finished (h : Concluded last? none outcome) :
    ∃ screen, last? = some screen ∧ outcome.output = screen.dump := by
  cases h with
  | @finished screen _ last _ => exact ⟨screen, last, rfl⟩

theorem toList_record_failed {log : Log} (clean : log.Clean) (failure : Failure) :
    (log.record (.failed failure)).messages.toList = log.messages.toList ++ [.failed failure] :=
  Log.toList_record_of_kept clean.keeps

theorem Concluded.log_eq (h : Concluded last? failure? outcome) :
    ∃ earlier, outcome.log.messages.toList = earlier ++ (failure?.map Message.failed).toList ∧
      ∀ message ∈ earlier, message.level ≠ .error := by
  cases h with
  | @failed failure log clean =>
    exact ⟨log.messages.toList, toList_record_failed clean failure, clean.errorless⟩
  | finished _ clean => exact ⟨_, (List.append_nil _).symm, clean.errorless⟩

theorem Concluded.shows_iff (h : Concluded last? failure? outcome) :
    outcome.exitCode = 0 ↔ ∃ screen : Screen, outcome.output = screen.dump := by
  cases h with
  | failed _ =>
    refine ⟨fun zero => absurd zero (exitCode_ne_zero _), ?_⟩
    rintro ⟨screen, same⟩
    exact absurd same (output_fail_ne_dump _ _ screen)
  | @finished screen => exact ⟨fun _ => ⟨screen, rfl⟩, fun _ => rfl⟩

/-- The program ends as the first stage that fails makes it end. Its exit code is that of the
failure, which is one of those of the stage, or zero if none fails. It shows its usage after an
error of usage, the last screen of the machine after a run that finished, and nothing else; what it
shows is a screen exactly if the exit code is zero. The failure is the one error in the log and the
last entry.

Bad arguments are an error of usage, or the fault of a held key above F where that is the first bad
one; the program then looks at no file and logs nothing else. -/
theorem run_ends_at_first_failure (host : Host Tree) (args : List String) (files : Files)
    (least : Level) :
    let outcome := run host args files (some least)
    let failure? := firstFailure? host args files
    outcome.exitCode = failure?.elim 0 Failure.exitCode ∧
    (outcome.exitCode = 0 ↔ failure? = none) ∧
    (∀ stage failure, Stage.failure? host args files stage = some failure →
      failure.exitCode ∈ stage.exitCodes) ∧
    (∀ failure, failure? = some failure →
      outcome.output = if failure.exitCode = 64 then version ++ usage ++ "\n" else "") ∧
    (failure? = none → ∃ last, execution? host args files = some last ∧
      outcome.output = last.2.screen.dump) ∧
    (outcome.exitCode = 0 ↔ ∃ screen : Screen, outcome.output = screen.dump) ∧
    (∃ earlier, outcome.log.messages.toList = earlier ++ (failure?.map Message.failed).toList ∧
      ∀ message ∈ earlier, message.level ≠ .error) ∧
    (∀ failure, Arguments.parse args = .error failure →
      outcome.log.messages.toList = [.failed failure] ∧
        ∀ files', run host args files' (some least) = outcome) ∧
    ∀ fault, Arguments.parse args = .error (.fault fault) ↔
      ∃ file rest index, args = "run" :: file :: rest ∧
        fault = .badKeyIndex index ∧ Setting.BadHold rest index := by
  intro outcome failure?
  have concluded : Concluded _ failure? outcome := stagesEnd_run host args files least
  have code := concluded.exitCode_eq
  refine ⟨code, ?_, fun _ _ => exitCode_mem, ?_, ?_, concluded.shows_iff, concluded.log_eq, ?_,
    fun _ => Arguments.parse_eq_fault_iff⟩
  · rw [code]
    cases failure? with
    | none => exact ⟨fun _ => rfl, fun _ => rfl⟩
    | some failure =>
      exact ⟨fun zero => absurd zero (exitCode_ne_zero failure), fun none => by cases none⟩
  · intro failure first
    rw [first] at concluded
    exact concluded.output_of_failed
  · intro none
    rw [none] at concluded
    obtain ⟨screen, last, shown⟩ := concluded.output_of_finished
    obtain ⟨final, executed, rfl⟩ := Option.map_eq_some_iff.mp last
    exact ⟨final, executed, shown⟩
  · intro failure parsed
    have failed : ∀ files', run host args files' (some least) =
        fail { threshold := some least } failure := by
      intro files'
      rw [run, parsed]
    refine ⟨?_, fun files' => (failed files').trans (failed files).symm⟩
    rw [show outcome = _ from failed files]
    exact toList_record_failed (clean_empty least) failure

/-- A held key above F, with the program missing too. -/
theorem run_ends_at_first_failure_held_key :
    let args := ["run", "maze.rom", "--hold", "1A"]
    let failure := Failure.fault (.badKeyIndex 0x1A)
    let outcome :=
      run (.standard (.constant 0)) args (fun _ => .error .notFound) (some .error)
    Arguments.parse args = .error failure ∧ outcome.exitCode = 1 ∧ outcome.output = "" ∧
      outcome.log.messages.toList = [.failed failure] := by
  intro args failure outcome
  have parsed : Arguments.parse args = .error failure := by rfl
  have first : firstFailure? (.standard (.constant 0)) args (fun _ => .error .notFound) =
      some failure := by
    have arguments : Stage.failure? (.standard (.constant 0)) args (fun _ => .error .notFound)
        .arguments = some failure := congrArg refusal? parsed
    rw [firstFailure?, List.findSome?_cons, arguments]
  obtain ⟨code, _, _, shown, _, _, _, logged, _⟩ :=
    run_ends_at_first_failure (.standard (.constant 0)) args (fun _ => .error .notFound) .error
  rw [first] at code
  exact ⟨parsed, code, shown failure first, (logged failure parsed).1⟩

end Chip8.CommandLine
