import Mathlib.Data.List.Basic
import Chip8.Proofs.CommandLine.Arguments
import Chip8.Proofs.Number.Numerals

/-!
# The grammar of arguments

The arguments that are accepted are the command, a file and groups, one for each setting; the value
of an option is the argument after it, whatever it looks like. All other arguments are refused for
the first group that is bad.

Results:
1. `Setting.readAll_eq_ok_iff`, `Setting.readAll_eq_error_iff`: which settings are read, and why
   they cannot be.
2. `Arguments.collects_iff`: of two settings of one name the later counts, and held keys add up.
3. `Arguments.Refused.append`: more arguments do not make up for a bad group.
4. `Arguments.Lists.collects`: the settings of some arguments, in any order.
5. `Arguments.parse_follows_grammar`: all of it.
-/

namespace Chip8

theorem map_eq_ok_iff {ε α β : Type} {f : α → β} {r : Except ε α} {b : β} :
    r.map f = .ok b ↔ ∃ a, r = .ok a ∧ f a = b := by
  cases r <;> simp [Except.map]

theorem map_eq_error_iff {ε α β : Type} {f : α → β} {r : Except ε α} {failure : ε} :
    r.map f = .error failure ↔ r = .error failure := by
  cases r <;> simp [Except.map]

/-- The command, the file or a value is missing after the last argument. -/
def Failure.AtEnd : Failure → Prop
  | .usage .missingCommand | .usage .missingFile | .usage (.missingValue _) => True
  | _ => False

namespace Setting

/-! ## Groups -/

/-- The options that take a number. -/
def numberOptions : List String := ["--frames", "--ticks-per-frame", "--seed"]

/-- The options that take a value. -/
def valueOptions : List String := "--conf" :: "--hold" :: numberOptions

/-- The arguments of one setting. A path is any argument, and numbers and keys are numerals. -/
inductive Group : Setting → List String → Prop
  | frames {value : String} {n : Nat} :
      Number.Decimal value n → Group (.frames n) ["--frames", value]
  | ticksPerFrame {value : String} {n : Nat} :
      Number.Decimal value n → Group (.ticksPerFrame n) ["--ticks-per-frame", value]
  | seed {value : String} {n : Nat} : Number.Decimal value n → Group (.seed n) ["--seed", value]
  | configuration (path : String) : Group (.configuration path) ["--conf", path]
  | hold {value : String} {key : Key} :
      Number.HexByte value key.val → Group (.hold key) ["--hold", value]
  | realtime : Group .realtime ["--realtime"]

/-- The arguments of settings, one after the other. -/
inductive Groups : List Setting → List String → Prop
  | nil : Groups [] []
  | cons {setting : Setting} {settings : List Setting} {args rest : List String} :
      Group setting args → Groups settings rest → Groups (setting :: settings) (args ++ rest)

/-- Arguments that begin with no group, and what is wrong with them.

* `unknown`: there is no such option.
* `noValue`: the option is the last argument and takes a value.
* `noNumber`: the value is no numeral of a number below 2^64.
* `noDigit`, `noKey`: the value is no numeral of a byte, or of one above F. -/
inductive BadGroup : List String → Failure → Prop
  | unknown {name : String} {rest : List String} :
      name ∉ valueOptions → name ≠ "--realtime" →
      BadGroup (name :: rest) (.usage (.unknownOption name))
  | noValue {name : String} :
      name ∈ valueOptions → BadGroup [name] (.usage (.missingValue name))
  | noNumber {name value : String} {rest : List String} :
      name ∈ numberOptions → (∀ n, ¬ Number.Decimal value n) →
      BadGroup (name :: value :: rest) (.usage (.badNumber name value))
  | noDigit {value : String} {rest : List String} :
      (∀ n, ¬ Number.HexByte value n) →
      BadGroup ("--hold" :: value :: rest) (.usage (.badKey value))
  | noKey {value : String} {rest : List String} {index : UInt8} :
      Number.HexByte value index.toNat → 16 ≤ index.toNat →
      BadGroup ("--hold" :: value :: rest) (.fault (.badKeyIndex index))

/-- Arguments are groups, or groups and then a bad one. -/
inductive Splits : List String → Prop
  | good {settings : List Setting} {args : List String} : Groups settings args → Splits args
  | bad {settings : List Setting} {front rest : List String} {failure : Failure} :
      Groups settings front → BadGroup rest failure → Splits (front ++ rest)

def frames? : Setting → Option Nat
  | .frames count => some count
  | .ticksPerFrame _ | .seed _ | .configuration _ | .hold _ | .realtime => none

def ticksPerFrame? : Setting → Option Nat
  | .ticksPerFrame count => some count
  | .frames _ | .seed _ | .configuration _ | .hold _ | .realtime => none

def seed? : Setting → Option Nat
  | .seed value => some value
  | .frames _ | .ticksPerFrame _ | .configuration _ | .hold _ | .realtime => none

def configuration? : Setting → Option String
  | .configuration path => some path
  | .frames _ | .ticksPerFrame _ | .seed _ | .hold _ | .realtime => none

def hold? : Setting → Option Key
  | .hold key => some key
  | .frames _ | .ticksPerFrame _ | .seed _ | .configuration _ | .realtime => none

/-- The number of a setting, if it has one, is below 2^64. -/
def Fits : Setting → Prop
  | frames n | ticksPerFrame n | seed n => n < UInt64.size
  | _ => True

variable {setting : Setting} {settings : List Setting} {args rest : List String}
  {name value : String} {failure : Failure}

/-! ## Values -/

theorem readNumber_eq_ok_iff {n : Nat} :
    readNumber name value = .ok n ↔ Number.Decimal value n := by
  rw [← Number.decimal?_eq_some_iff, readNumber]
  cases Number.decimal? value <;> simp

theorem readNumber_eq_error_iff : readNumber name value = .error failure ↔
    failure = .usage (.badNumber name value) ∧ ∀ n, ¬ Number.Decimal value n := by
  rw [← Number.decimal?_eq_none_iff, readNumber]
  cases Number.decimal? value <;> simp [eq_comm]

theorem readKey_eq_ok_iff {key : Key} : readKey value = .ok key ↔ Number.HexByte value key.val := by
  constructor
  · intro read
    unfold readKey at read
    split at read
    · cases read
    · next index number =>
      unfold Key.ofIndex at read
      split at read
      · cases read
        exact Number.hexByte?_eq_some_iff.mp number
      · cases read
  · intro numeral
    have index : (UInt8.ofNat key.val).toNat = key.val :=
      UInt8.toNat_ofNat_of_lt' (Nat.lt_trans key.isLt (by decide))
    have number : Number.hexByte? value = some (UInt8.ofNat key.val) := by
      rw [Number.hexByte?_eq_some_iff, index]
      exact numeral
    have below : Key.ofIndex (UInt8.ofNat key.val) = .ok key := by
      simp only [Key.ofIndex, index, key.isLt, dif_pos]
    simp only [readKey, number, below]
    rfl

theorem readKey_eq_error_iff : readKey value = .error failure ↔
    (failure = .usage (.badKey value) ∧ ∀ n, ¬ Number.HexByte value n) ∨
      ∃ index : UInt8, failure = .fault (.badKeyIndex index) ∧
        Number.HexByte value index.toNat ∧ 16 ≤ index.toNat := by
  rw [← Number.hexByte?_eq_none_iff]
  simp only [← Number.hexByte?_eq_some_iff]
  constructor
  · intro refused
    cases number : Number.hexByte? value with
    | none =>
      simp only [readKey, number] at refused
      cases refused
      exact .inl ⟨rfl, rfl⟩
    | some index =>
      rcases readKey_failed refused with ⟨error, rfl⟩ | ⟨index', rfl, number', above⟩
      · simp only [readKey, number, Key.ofIndex] at refused
        split at refused <;> cases refused
      · exact .inr ⟨index', rfl, number.symm.trans number', above⟩
  · rintro (⟨rfl, none⟩ | ⟨index, rfl, number, above⟩)
    · simp only [readKey, none]
    · exact readKey_of_above number above

/-! ## Options -/

theorem kind?_eq_none_iff : kind? name = none ↔ name ∉ valueOptions ∧ name ≠ "--realtime" := by
  unfold kind?
  split <;> simp_all [valueOptions, numberOptions]

theorem mem_of_kind? {kind : Kind} (option : kind? name = some kind)
    (valued : ∀ setting, kind ≠ .flag setting) : name ∈ valueOptions := by
  unfold kind? at option
  split at option
  case h_6 =>
    cases option
    exact absurd rfl (valued _)
  all_goals first | decide | cases option

theorem kind?_of_mem (takes : name ∈ valueOptions) :
    ∃ kind, kind? name = some kind ∧ ∀ setting, kind ≠ .flag setting := by
  simp only [valueOptions, numberOptions, List.mem_cons, List.not_mem_nil, or_false] at takes
  rcases takes with rfl | rfl | rfl | rfl | rfl
  all_goals exact ⟨_, rfl, fun _ => nofun⟩

theorem kind?_of_number (takes : name ∈ numberOptions) :
    ∃ make, kind? name = some (.number make) := by
  simp only [numberOptions, List.mem_cons, List.not_mem_nil, or_false] at takes
  rcases takes with rfl | rfl | rfl
  all_goals exact ⟨_, rfl⟩

/-- An option whose value is a number has groups for all numbers. -/
theorem group_of_number {make : Nat → Setting} (option : kind? name = some (.number make)) :
    name ∈ numberOptions ∧
      ∀ {value : String} {n : Nat}, Number.Decimal value n → Group (make n) [name, value] := by
  unfold kind? at option
  split at option <;> cases option
  · exact ⟨by decide, .frames⟩
  · exact ⟨by decide, .ticksPerFrame⟩
  · exact ⟨by decide, .seed⟩

theorem group_of_path {make : String → Setting} (option : kind? name = some (.path make)) :
    Group (make value) [name, value] := by
  unfold kind? at option
  split at option <;> cases option
  exact .configuration value

theorem group_of_key {make : Key → Setting} (option : kind? name = some (.key make)) {key : Key}
    (numeral : Number.HexByte value key.val) : Group (make key) [name, value] := by
  unfold kind? at option
  split at option <;> cases option
  exact .hold numeral

theorem group_of_flag (option : kind? name = some (.flag setting)) : Group setting [name] := by
  unfold kind? at option
  split at option <;> cases option
  exact .realtime

/-- The value of an option is read as what its group says. -/
theorem group_of_read {kind : Kind} (option : kind? name = some kind)
    (valued : ∀ setting, kind ≠ .flag setting) (reads : read name kind value = .ok setting) :
    Group setting [name, value] := by
  cases kind with
  | number make =>
    obtain ⟨n, number, rfl⟩ := map_eq_ok_iff.mp reads
    exact (group_of_number option).2 (readNumber_eq_ok_iff.mp number)
  | path make =>
    cases reads
    exact group_of_path option
  | key make =>
    obtain ⟨key, number, rfl⟩ := map_eq_ok_iff.mp reads
    exact group_of_key option (readKey_eq_ok_iff.mp number)
  | flag setting => exact absurd rfl (valued setting)

/-- The value of an option is refused as what is bad about its group. -/
theorem badGroup_of_refused {kind : Kind} (option : kind? name = some kind)
    (refused : read name kind value = .error failure) :
    BadGroup (name :: value :: rest) failure := by
  cases kind with
  | number make =>
    obtain ⟨rfl, none⟩ := readNumber_eq_error_iff.mp (map_eq_error_iff.mp refused)
    exact .noNumber (group_of_number option).1 none
  | path make | flag setting => cases refused
  | key make =>
    obtain rfl := eq_hold_of_kind? option
    rcases readKey_eq_error_iff.mp (map_eq_error_iff.mp refused) with
      ⟨rfl, none⟩ | ⟨index, rfl, number, above⟩
    · exact .noDigit none
    · exact .noKey number above

/-! ## Reading groups -/

theorem readAll_number {make : Nat → Setting} (option : kind? name = some (.number make)) {n : Nat}
    (numeral : Number.Decimal value n) :
    readAll (name :: value :: rest) = (readAll rest).map (make n :: ·) :=
  readAll_value (fun _ same => by cases same) option
    (map_eq_ok_iff.mpr ⟨n, readNumber_eq_ok_iff.mpr numeral, rfl⟩)

theorem Group.readAll_append (h : Group setting args) :
    readAll (args ++ rest) = (readAll rest).map (setting :: ·) := by
  cases h with
  | frames numeral | ticksPerFrame numeral | seed numeral => exact readAll_number rfl numeral
  | configuration path =>
    have option : kind? "--conf" = some (.path Setting.configuration) := rfl
    exact readAll_value (fun _ same => by cases same) option rfl
  | @hold value key numeral =>
    have option : kind? "--hold" = some (.key Setting.hold) := rfl
    exact readAll_value (fun _ same => by cases same) option
      (map_eq_ok_iff.mpr ⟨key, readKey_eq_ok_iff.mpr numeral, rfl⟩)
  | realtime => exact readAll_flag rfl

theorem Groups.readAll (h : Groups settings args) : readAll args = .ok settings := by
  induction h with
  | nil => rfl
  | cons group _ ih => rw [group.readAll_append, ih]; rfl

theorem BadGroup.readAll (h : BadGroup args failure) : readAll args = .error failure := by
  cases h with
  | unknown other flagless =>
    rw [Setting.readAll, kind?_eq_none_iff.mpr ⟨other, flagless⟩]
  | noValue takes =>
    obtain ⟨kind, option, valued⟩ := kind?_of_mem takes
    exact readAll_option valued option
  | noNumber takes none =>
    obtain ⟨make, option⟩ := kind?_of_number takes
    exact readAll_refused (fun _ same => by cases same) option
      (map_eq_error_iff.mpr (readNumber_eq_error_iff.mpr ⟨rfl, none⟩))
  | noDigit none =>
    have option : kind? "--hold" = some (.key Setting.hold) := rfl
    exact readAll_refused (fun _ same => by cases same) option
      (map_eq_error_iff.mpr (readKey_eq_error_iff.mpr (.inl ⟨rfl, none⟩)))
  | @noKey _ _ index numeral above =>
    have option : kind? "--hold" = some (.key Setting.hold) := rfl
    exact readAll_refused (fun _ same => by cases same) option
      (map_eq_error_iff.mpr (readKey_eq_error_iff.mpr (.inr ⟨index, rfl, numeral, above⟩)))

theorem BadGroup.append {more : List String} (h : BadGroup rest failure)
    (inside : ¬ failure.AtEnd) :
    BadGroup (rest ++ more) failure := by
  cases h with
  | unknown other flagless => exact .unknown other flagless
  | noValue takes => exact absurd trivial inside
  | noNumber takes none => exact .noNumber takes none
  | noDigit none => exact .noDigit none
  | noKey numeral above => exact .noKey numeral above

theorem Splits.prepend (group : Group setting args) (h : Splits rest) : Splits (args ++ rest) := by
  cases h with
  | good groups => exact .good (.cons group groups)
  | @bad settings front rest failure groups bad =>
    rw [← List.append_assoc]
    exact .bad (.cons group groups) bad

/-- Any arguments are groups, or groups and then a bad one. -/
theorem splits (args : List String) : Splits args := by
  induction args using readAll.induct with
  | case1 => exact .good .nil
  | case2 name rest unknown =>
    obtain ⟨other, flagless⟩ := kind?_eq_none_iff.mp unknown
    exact .bad .nil (.unknown other flagless)
  | case3 name rest setting flag ih => exact ih.prepend (group_of_flag flag)
  | case4 name kind valued option => exact .bad .nil (.noValue (mem_of_kind? option valued))
  | case5 name kind valued option value rest failure refused =>
    exact .bad .nil (badGroup_of_refused option refused)
  | case6 name kind valued option value rest setting reads ih =>
    exact ih.prepend (group_of_read option valued reads)

theorem readAll_of_badGroup {front : List String} (groups : Groups settings front)
    (bad : BadGroup rest failure) : readAll (front ++ rest) = .error failure := by
  rw [Setting.readAll_append groups.readAll, bad.readAll]
  rfl

/-- Settings are read from their groups, and from nothing else. -/
theorem readAll_eq_ok_iff : readAll args = .ok settings ↔ Groups settings args := by
  refine ⟨fun read => ?_, Groups.readAll⟩
  cases splits args with
  | good groups =>
    cases groups.readAll.symm.trans read
    exact groups
  | bad groups bad => cases (readAll_of_badGroup groups bad).symm.trans read

/-- Settings cannot be read for the first bad group. -/
theorem readAll_eq_error_iff : readAll args = .error failure ↔
    ∃ settings front rest,
      args = front ++ rest ∧ Groups settings front ∧ BadGroup rest failure := by
  constructor
  · intro refused
    cases splits args with
    | good groups => cases groups.readAll.symm.trans refused
    | bad groups bad =>
      cases (readAll_of_badGroup groups bad).symm.trans refused
      exact ⟨_, _, _, rfl, groups, bad⟩
  · rintro ⟨settings, front, rest, rfl, groups, bad⟩
    exact readAll_of_badGroup groups bad

/-! ## Writing -/

/-- The arguments that a setting is written as. -/
def write : Setting → List String
  | frames count => ["--frames", toString count]
  | ticksPerFrame count => ["--ticks-per-frame", toString count]
  | seed value => ["--seed", toString value]
  | configuration path => ["--conf", path]
  | hold key => ["--hold", String.ofList [Hex.digit key.val]]
  | realtime => ["--realtime"]

theorem group_write (h : setting.Fits) : Group setting setting.write := by
  cases setting with
  | frames n => exact .frames (Number.decimal_toString h)
  | ticksPerFrame n => exact .ticksPerFrame (Number.decimal_toString h)
  | seed n => exact .seed (Number.decimal_toString h)
  | configuration path => exact .configuration path
  | hold key => exact .hold (Number.hexByte_digit key)
  | realtime => exact .realtime

/-- What is written for settings whose numbers are below 2^64 are their groups. -/
theorem groups_write (small : ∀ setting ∈ settings, setting.Fits) :
    Groups settings (settings.flatMap write) := by
  induction settings with
  | nil => exact .nil
  | cons setting settings ih =>
    have group := group_write (small setting List.mem_cons_self)
    exact .cons group (ih fun other mem => small other (List.mem_cons_of_mem _ mem))

end Setting

namespace Arguments

/-! ## What settings come to -/

/-- Some arguments are those of a file and settings: of the settings of one name the last one
counts, held keys add up, and what is not set is as it is by default. -/
structure Collects (a : Arguments) (file : String) (settings : List Setting) : Prop where
  file : a.file = file
  frames : a.frames = (settings.filterMap Setting.frames?).getLast?.getD 600
  ticksPerFrame : a.ticksPerFrame = (settings.filterMap Setting.ticksPerFrame?).getLast?.getD 10
  seed : a.seed = (settings.filterMap Setting.seed?).getLast?
  configuration : a.configuration = (settings.filterMap Setting.configuration?).getLast?
  held : a.held = settings.filterMap Setting.hold?
  realtime : a.realtime = true ↔ .realtime ∈ settings

/-- Settings say all of some arguments: there is one of each option that has a value, and the held
keys are in their order. -/
structure Lists (a : Arguments) (settings : List Setting) : Prop where
  frames : settings.filterMap Setting.frames? = [a.frames]
  ticksPerFrame : settings.filterMap Setting.ticksPerFrame? = [a.ticksPerFrame]
  seed : settings.filterMap Setting.seed? = a.seed.toList
  configuration : settings.filterMap Setting.configuration? = a.configuration.toList
  held : settings.filterMap Setting.hold? = a.held
  realtime : a.realtime = true ↔ .realtime ∈ settings

/-- The settings of some arguments in one of their orders. -/
def settings (a : Arguments) : List Setting :=
  [a.frames].map .frames ++ [a.ticksPerFrame].map .ticksPerFrame ++ a.seed.toList.map .seed ++
    a.configuration.toList.map .configuration ++ a.held.map .hold ++
    (if a.realtime then [()] else []).map fun _ => .realtime

/-- The numbers of some arguments are below 2^64. -/
structure Fits (a : Arguments) : Prop where
  frames : a.frames < UInt64.size
  ticksPerFrame : a.ticksPerFrame < UInt64.size
  seed : ∀ n, a.seed = some n → n < UInt64.size

/-- Why arguments are refused.

* `noCommand`, `command`, `noFile`: there is no command, another one than `run`, or no file.
* `group`: there are good groups and then a bad one. -/
inductive Refused : List String → Failure → Prop
  | noCommand : Refused [] (.usage .missingCommand)
  | command {command : String} {rest : List String} :
      command ≠ "run" → Refused (command :: rest) (.usage (.unknownCommand command))
  | noFile : Refused ["run"] (.usage .missingFile)
  | group {file : String} {settings : List Setting} {front rest : List String} {failure : Failure} :
      Setting.Groups settings front → Setting.BadGroup rest failure →
      Refused ("run" :: file :: (front ++ rest)) failure

variable {a : Arguments} {args : List String} {file : String} {settings : List Setting}
  {failure : Failure}

/-! ## One setting after the other -/

theorem Collects.apply (h : a.Collects file settings) (setting : Setting) :
    (a.apply setting).Collects file (settings ++ [setting]) := by
  obtain ⟨rfl, frames, ticksPerFrame, seed, configuration, held, realtime⟩ := h
  cases setting <;> constructor <;>
    simp [Arguments.apply, Setting.frames?, Setting.ticksPerFrame?, Setting.seed?,
      Setting.configuration?, Setting.hold?, *]

theorem collects_foldl {before : List Setting} (h : a.Collects file before) :
    (settings.foldl Arguments.apply a).Collects file (before ++ settings) := by
  induction settings generalizing a before with
  | nil =>
    rw [List.append_nil]
    exact h
  | cons setting settings ih =>
    rw [List.append_cons]
    exact ih (h.apply setting)

theorem collects_ofSettings (file : String) (settings : List Setting) :
    (ofSettings file settings).Collects file settings := by
  have none : ({ file } : Arguments).Collects file [] := by
    constructor <;> simp
  exact collects_foldl none

/-- Settings determine the arguments. -/
theorem collects_iff : a.Collects file settings ↔ ofSettings file settings = a := by
  have own := collects_ofSettings file settings
  constructor
  · intro h
    generalize ofSettings file settings = b at own
    obtain ⟨_, _, _, _, _, _, realtime⟩ := a
    obtain ⟨_, _, _, _, _, _, realtime'⟩ := b
    have flag : realtime' = realtime :=
      Bool.eq_iff_iff.mpr (own.realtime.trans h.realtime.symm)
    simp only [mk.injEq]
    exact ⟨own.file.trans h.file.symm, own.frames.trans h.frames.symm,
      own.ticksPerFrame.trans h.ticksPerFrame.symm, own.seed.trans h.seed.symm,
      own.configuration.trans h.configuration.symm, own.held.trans h.held.symm, flag⟩
  · rintro rfl
    exact own

/-! ## Accepted and refused -/

theorem parse_run (file : String) (rest : List String) :
    parse ("run" :: file :: rest) = (Setting.readAll rest).map (ofSettings file) := by
  simp only [parse, if_true]

theorem parse_of_groups {rest : List String} (groups : Setting.Groups settings rest)
    (collects : a.Collects file settings) : parse ("run" :: file :: rest) = .ok a := by
  rw [parse_run, groups.readAll, ← collects_iff.mp collects]
  rfl

theorem parse_eq_error_iff : parse args = .error failure ↔ Refused args failure := by
  constructor
  · intro refused
    unfold parse at refused
    split at refused
    · cases refused
      exact .noCommand
    · next command rest =>
      split at refused
      · next run =>
        subst run
        split at refused
        · cases refused
          exact .noFile
        · obtain ⟨settings, front, rest, rfl, groups, bad⟩ :=
            Setting.readAll_eq_error_iff.mp (map_eq_error_iff.mp refused)
          exact .group groups bad
      · next other =>
        cases refused
        exact .command other
  · intro h
    cases h with
    | noCommand => rfl
    | command other => simp only [parse, other, if_false]
    | noFile => rfl
    | group groups bad =>
      rw [parse_run, Setting.readAll_of_badGroup groups bad]
      rfl

theorem parse_ok (h : parse args = .ok a) : ∃ file settings rest, args = "run" :: file :: rest ∧
    Setting.Groups settings rest ∧ a.Collects file settings := by
  unfold parse at h
  split at h
  · cases h
  · split at h
    · next run =>
      subst run
      split at h
      · cases h
      · next file rest =>
        obtain ⟨settings, read, collected⟩ := map_eq_ok_iff.mp h
        exact ⟨file, settings, rest, rfl, Setting.readAll_eq_ok_iff.mp read,
          collects_iff.mpr collected⟩
    · cases h

/-- Arguments stay refused for the same reason whatever follows them, unless something was missing
at their end. -/
theorem Refused.append {more : List String} (h : Refused args failure) (inside : ¬ failure.AtEnd) :
    Refused (args ++ more) failure := by
  cases h with
  | noCommand | noFile => exact absurd trivial inside
  | command other => exact .command other
  | @group file settings front rest failure groups bad =>
    show Refused ("run" :: file :: (front ++ rest ++ more)) failure
    rw [List.append_assoc]
    exact .group groups (bad.append inside)

/-! ## Writing arguments -/

/-- All arguments can be written. -/
theorem lists_settings (a : Arguments) : a.Lists a.settings := by
  constructor
  case realtime => cases flag : a.realtime <;> simp [settings, flag]
  all_goals
    simp only [settings, List.filterMap_append, List.filterMap_map, Function.comp_def,
      Setting.frames?, Setting.ticksPerFrame?, Setting.seed?, Setting.configuration?, Setting.hold?,
      List.filterMap_some_fun, List.filterMap_none, id_eq, List.append_nil, List.nil_append]

theorem Lists.collects (h : a.Lists settings) : a.Collects a.file settings where
  file := rfl
  frames := by rw [h.frames]; rfl
  ticksPerFrame := by rw [h.ticksPerFrame]; rfl
  seed := by rw [h.seed]; cases a.seed <;> rfl
  configuration := by rw [h.configuration]; cases a.configuration <;> rfl
  held := h.held.symm
  realtime := h.realtime

/-- Settings that say all of some arguments have the numbers of these. -/
theorem Lists.fits (h : a.Lists settings) (fits : a.Fits) : ∀ setting ∈ settings, setting.Fits := by
  intro setting mem
  have said {β : Type} {select : Setting → Option β} {b : β} (selects : select setting = some b) :
      b ∈ settings.filterMap select := List.mem_filterMap.mpr ⟨setting, mem, selects⟩
  cases setting with
  | frames n =>
    have only : n ∈ settings.filterMap Setting.frames? := said rfl
    rw [h.frames] at only
    exact List.mem_singleton.mp only ▸ fits.frames
  | ticksPerFrame n =>
    have only : n ∈ settings.filterMap Setting.ticksPerFrame? := said rfl
    rw [h.ticksPerFrame] at only
    exact List.mem_singleton.mp only ▸ fits.ticksPerFrame
  | seed n =>
    have only : n ∈ settings.filterMap Setting.seed? := said rfl
    rw [h.seed] at only
    exact fits.seed n (Option.mem_toList.mp only)
  | configuration path | hold key | realtime => trivial

theorem parse_write (fits : a.Fits) (h : a.Lists settings) :
    parse ("run" :: a.file :: settings.flatMap Setting.write) = .ok a :=
  parse_of_groups (Setting.groups_write (h.fits fits)) h.collects

/-! ## All arguments -/

/-- Arguments are read if they are the command, a file and groups of settings: the file and the
values of the options are whatever arguments stand there, the last setting of a name counts, held
keys add up in order, and what is not set is as it is by default. So all arguments can be written,
with their options in any order that keeps the held keys in theirs, and are read again from what is
written.

All others are refused for the first thing that is bad in them, and more arguments after them do not
change that, unless the command, the file or the value of the last option is missing. -/
theorem parse_follows_grammar (args : List String) :
    (∀ file settings rest, args = "run" :: file :: rest → Setting.Groups settings rest →
      ∃ a : Arguments, parse args = .ok a ∧ a.Collects file settings) ∧
    (∀ a, parse args = .ok a → ∃ file settings rest, args = "run" :: file :: rest ∧
      Setting.Groups settings rest ∧ a.Collects file settings) ∧
    (∀ failure, parse args = .error failure ↔ Refused args failure) ∧
    (∀ failure more, parse args = .error failure → ¬ failure.AtEnd →
      parse (args ++ more) = .error failure) ∧
    ∀ a : Arguments, a.Fits → (∃ settings, a.Lists settings) ∧
      ∀ settings, a.Lists settings →
        parse ("run" :: a.file :: settings.flatMap Setting.write) = .ok a := by
  refine ⟨?_, fun a => parse_ok, fun failure => parse_eq_error_iff, ?_, ?_⟩
  · rintro file settings rest rfl groups
    have collects := collects_ofSettings file settings
    exact ⟨_, parse_of_groups groups collects, collects⟩
  · intro failure more refused inside
    exact parse_eq_error_iff.mpr ((parse_eq_error_iff.mp refused).append inside)
  · exact fun a fits => ⟨⟨_, a.lists_settings⟩, fun settings lists => parse_write fits lists⟩

/-- A file and a path that look like options, with the held keys around them, and a bad number that
a held key follows. -/
theorem parse_follows_grammar_like_options :
    let a : Arguments :=
      { file := "--frames", frames := 12, configuration := some "--hold", held := [0xC, 3] }
    let settings : List Setting :=
      [.hold 0xC, .configuration "--hold", .ticksPerFrame 10, .hold 3, .frames 12]
    let bad := ["run", "--seed", "--frames", "x"]
    let failure := Failure.usage (.badNumber "--frames" "x")
    a.Fits ∧ a.Lists settings ∧
      parse ["run", "--frames", "--hold", "C", "--conf", "--hold", "--ticks-per-frame", "10",
        "--hold", "3", "--frames", "12"] = .ok a ∧
      parse bad = .error failure ∧ ¬ failure.AtEnd ∧
      parse (bad ++ ["--hold", "3"]) = .error failure := by
  intro a settings bad failure
  have fits : a.Fits := ⟨by decide, by decide, nofun⟩
  have lists : a.Lists settings := ⟨rfl, rfl, rfl, rfl, rfl, by decide⟩
  have refused : parse bad = .error failure := by rfl
  have written := ((parse_follows_grammar []).2.2.2.2 a fits).2 settings lists
  exact ⟨fits, lists, written, refused, id, (parse_follows_grammar bad).2.2.2.1 _ _ refused id⟩

end Arguments

end Chip8
