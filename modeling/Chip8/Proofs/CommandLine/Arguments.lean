import Chip8.CommandLine.Arguments

/-!
# Bad arguments

The first argument that cannot be read decides the error. All errors are errors of usage but for
one: a held key that is a number below 256 and no key is a fault of the machine.

Results:
1. `Setting.readAll_append`: settings are read one after the other.
2. `Setting.readAll_failed`: why settings cannot be read.
3. `Arguments.parse_eq_fault_iff`, `Arguments.usage_or_fault`: why arguments cannot be read.
-/

namespace Chip8

namespace Setting

/-- The settings can be read up to a held key, which is a number above F. -/
def BadHold (rest : List String) (index : UInt8) : Prop :=
  ∃ before value after settings, rest = before ++ "--hold" :: value :: after ∧
    readAll before = .ok settings ∧ Number.hexByte? value = some index ∧ 16 ≤ index.toNat

variable {rest more : List String} {settings : List Setting} {index : UInt8}

/-! ## One setting -/

theorem readAll_flag {name : String} {setting : Setting}
    (kind : kind? name = some (.flag setting)) :
    readAll (name :: rest) = (readAll rest).map (setting :: ·) := by
  rw [readAll, kind]

/-- An option that takes a value reads the next argument. -/
theorem readAll_option {name : String} {kind : Kind} (valued : ∀ setting, kind ≠ .flag setting)
    (option : kind? name = some kind) :
    readAll (name :: rest) =
      match rest with
      | [] => .error (.usage (.missingValue name))
      | value :: rest =>
        match read name kind value with
        | .error failure => .error failure
        | .ok setting => (readAll rest).map (setting :: ·) := by
  rw [readAll, option]
  cases kind with
  | flag setting => exact absurd rfl (valued setting)
  | number make | path make | key make => rfl

theorem readAll_value {name value : String} {kind : Kind} {setting : Setting}
    (valued : ∀ setting, kind ≠ .flag setting) (option : kind? name = some kind)
    (reads : read name kind value = .ok setting) :
    readAll (name :: value :: rest) = (readAll rest).map (setting :: ·) := by
  rw [readAll_option valued option]
  simp only [reads]

theorem readAll_refused {name value : String} {kind : Kind} {failure : Failure}
    (valued : ∀ setting, kind ≠ .flag setting) (option : kind? name = some kind)
    (refused : read name kind value = .error failure) :
    readAll (name :: value :: rest) = .error failure := by
  rw [readAll_option valued option]
  simp only [refused]

theorem eq_hold_of_kind? {name : String} {make : Key → Setting}
    (option : kind? name = some (.key make)) : name = "--hold" := by
  unfold kind? at option
  split at option <;> first | rfl | cases option

theorem readKey_failed {value : String} {failure : Failure}
    (refused : readKey value = .error failure) :
    (∃ error, failure = .usage error) ∨ ∃ index, failure = .fault (.badKeyIndex index) ∧
      Number.hexByte? value = some index ∧ 16 ≤ index.toNat := by
  unfold readKey at refused
  split at refused
  · cases refused
    exact .inl ⟨_, rfl⟩
  · next index number =>
    unfold Key.ofIndex at refused
    split at refused
    · cases refused
    · next above =>
      cases refused
      exact .inr ⟨index, rfl, number, Nat.le_of_not_lt above⟩

theorem readKey_of_above {value : String} (number : Number.hexByte? value = some index)
    (above : 16 ≤ index.toNat) : readKey value = .error (.fault (.badKeyIndex index)) := by
  have fails : Key.ofIndex index = .error (.badKeyIndex index) := dif_neg (Nat.not_lt.mpr above)
  simp only [readKey, number, fails]
  rfl

/-- The value of an option is refused as an error of usage, or as a held key above F. -/
theorem read_failed {name value : String} {kind : Kind} {failure : Failure}
    (option : kind? name = some kind) (refused : read name kind value = .error failure) :
    (∃ error, failure = .usage error) ∨ ∃ index, failure = .fault (.badKeyIndex index) ∧
      name = "--hold" ∧ Number.hexByte? value = some index ∧ 16 ≤ index.toNat := by
  cases kind with
  | path make | flag setting => cases refused
  | number make =>
    unfold read readNumber at refused
    cases number : Number.decimal? value with
    | some n =>
      rw [number] at refused
      cases refused
    | none =>
      rw [number] at refused
      cases refused
      exact .inl ⟨_, rfl⟩
  | key make =>
    unfold read at refused
    cases key : readKey value with
    | ok key =>
      rw [key] at refused
      cases refused
    | error failure' =>
      rw [key] at refused
      cases refused
      refine (readKey_failed key).imp id ?_
      rintro ⟨index, fault, bad⟩
      exact ⟨index, fault, eq_hold_of_kind? option, bad⟩

/-! ## All settings -/

theorem map_append_cons {before : List String} (setting : Setting)
    (tail : ∀ {settings}, readAll before = .ok settings →
      readAll (before ++ more) = (readAll more).map (settings ++ ·))
    (h : (readAll before).map (setting :: ·) = .ok settings) :
    (readAll (before ++ more)).map (setting :: ·) = (readAll more).map (settings ++ ·) := by
  cases read : readAll before with
  | error failure =>
    rw [read] at h
    cases h
  | ok settings' =>
    rw [read] at h
    cases h
    rw [tail read]
    cases readAll more with
    | ok _ => rfl
    | error _ => rfl

/-- What was read before does not matter to the settings that follow. -/
theorem readAll_append {before : List String} (h : readAll before = .ok settings) :
    readAll (before ++ more) = (readAll more).map (settings ++ ·) := by
  induction before using readAll.induct generalizing settings with
  | case1 =>
    cases h
    rw [List.nil_append]
    cases readAll more with
    | ok _ => rfl
    | error _ => rfl
  | case2 name before unknown =>
    rw [readAll, unknown] at h
    cases h
  | case3 name before setting flag ih =>
    rw [readAll_flag flag] at h
    exact (readAll_flag flag).trans (map_append_cons setting ih h)
  | case4 name kind valued option =>
    rw [readAll_option valued option] at h
    cases h
  | case5 name kind valued option value before failure refused =>
    rw [readAll_refused valued option refused] at h
    cases h
  | case6 name kind valued option value before setting reads ih =>
    rw [readAll_value valued option reads] at h
    exact (readAll_value valued option reads).trans (map_append_cons setting ih h)

theorem BadHold.prepend {front : List String} (read : readAll front = .ok settings)
    (h : BadHold rest index) : BadHold (front ++ rest) index := by
  obtain ⟨before, value, after, settings', rfl, read', number, above⟩ := h
  refine ⟨front ++ before, value, after, settings ++ settings', ?_, ?_, number, above⟩
  · rw [List.append_assoc]
  · rw [readAll_append read, read']
    rfl

theorem readAll_of_badHold (h : BadHold rest index) :
    readAll rest = .error (.fault (.badKeyIndex index)) := by
  obtain ⟨before, value, after, settings, rfl, read, number, above⟩ := h
  have valued : ∀ setting, Kind.key hold ≠ .flag setting := fun _ same => by cases same
  have refused : Setting.read "--hold" (.key hold) value =
      .error (.fault (.badKeyIndex index)) := by
    rw [Setting.read, readKey_of_above number above]
    rfl
  rw [readAll_append read, readAll_refused valued rfl refused]
  rfl

/-- What is read in front of other settings does not change why these cannot be read. -/
theorem readAll_failed_of_append {front : List String} {failure : Failure}
    (read : readAll front = .ok settings)
    (tail : readAll rest = .error failure → (∃ error, failure = .usage error) ∨
      ∃ index, failure = .fault (.badKeyIndex index) ∧ BadHold rest index)
    (h : readAll (front ++ rest) = .error failure) :
    (∃ error, failure = .usage error) ∨
      ∃ index, failure = .fault (.badKeyIndex index) ∧ BadHold (front ++ rest) index := by
  rw [readAll_append read] at h
  cases refused : readAll rest with
  | ok settings =>
    rw [refused] at h
    cases h
  | error failure' =>
    rw [refused] at h
    cases h
    exact (tail refused).imp id fun ⟨index, fault, bad⟩ => ⟨index, fault, bad.prepend read⟩

theorem readAll_failed {failure : Failure} (h : readAll rest = .error failure) :
    (∃ error, failure = .usage error) ∨
      ∃ index, failure = .fault (.badKeyIndex index) ∧ BadHold rest index := by
  induction rest using readAll.induct with
  | case1 => cases h
  | case2 name rest unknown =>
    rw [readAll, unknown] at h
    cases h
    exact .inl ⟨_, rfl⟩
  | case3 name rest setting flag ih =>
    have read : readAll [name] = .ok [setting] := readAll_flag flag
    exact readAll_failed_of_append read ih h
  | case4 name kind valued option =>
    rw [readAll_option valued option] at h
    cases h
    exact .inl ⟨_, rfl⟩
  | case5 name kind valued option value rest failure' refused =>
    rw [readAll_refused valued option refused] at h
    cases h
    refine (read_failed option refused).imp id ?_
    rintro ⟨index, fault, rfl, number, above⟩
    exact ⟨index, fault, [], value, rest, [], rfl, rfl, number, above⟩
  | case6 name kind valued option value rest setting reads ih =>
    have read : readAll [name, value] = .ok [setting] := readAll_value valued option reads
    exact readAll_failed_of_append read ih h

end Setting

namespace Arguments

/-- Arguments are refused as an error of usage, or for a held key above F. -/
theorem usage_or_fault {args : List String} {failure : Failure}
    (h : parse args = .error failure) :
    (∃ error, failure = .usage error) ∨
      ∃ file rest index, args = "run" :: file :: rest ∧
        failure = .fault (.badKeyIndex index) ∧ Setting.BadHold rest index := by
  unfold parse at h
  split at h
  · cases h
    exact .inl ⟨_, rfl⟩
  · next command rest =>
    split at h
    · next run =>
      split at h
      · cases h
        exact .inl ⟨_, rfl⟩
      · next file rest =>
        cases refused : Setting.readAll rest with
        | ok settings =>
          rw [refused] at h
          cases h
        | error failure' =>
          rw [refused] at h
          cases h
          refine (Setting.readAll_failed refused).imp id ?_
          rintro ⟨index, fault, bad⟩
          exact ⟨file, rest, index, by rw [run], fault, bad⟩
    · cases h
      exact .inl ⟨_, rfl⟩

/-- Arguments are refused with a fault of the machine exactly if the first bad one is a held key
above F. -/
theorem parse_eq_fault_iff {args : List String} {fault : Fault} :
    parse args = .error (.fault fault) ↔
      ∃ file rest index, args = "run" :: file :: rest ∧
        fault = .badKeyIndex index ∧ Setting.BadHold rest index := by
  constructor
  · intro h
    rcases usage_or_fault h with ⟨error, other⟩ | ⟨file, rest, index, rfl, same, bad⟩
    · cases other
    · exact ⟨file, rest, index, rfl, Failure.fault.inj same, bad⟩
  · rintro ⟨file, rest, index, rfl, rfl, bad⟩
    unfold parse
    simp only [if_true, Setting.readAll_of_badHold bad]
    rfl

end Arguments

end Chip8
