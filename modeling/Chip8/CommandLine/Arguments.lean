import Chip8.Number
import Chip8.Failure
import Chip8.Keypad

/-!
# Arguments

The command `run` with a program file and settings. A setting is a name and, except for the
pacing flag, the very next argument as its value, whatever that looks like. Settings are read
from left to right and the first bad one decides the error; of two settings of one name the
later counts, except that each held key adds to those before it.
-/

namespace Chip8

/-! ## Settings -/

/-- One option group with its value. -/
inductive Setting
  | frames (count : Nat)
  | ticksPerFrame (count : Nat)
  | seed (value : Nat)
  | configuration (path : String)
  | hold (key : Key)
  | realtime
  deriving DecidableEq, Repr

/-- What an option takes. -/
inductive Setting.Kind
  /-- A decimal number. -/
  | number (make : Nat → Setting)
  /-- Any text. -/
  | path (make : String → Setting)
  /-- A hexadecimal digit. -/
  | key (make : Key → Setting)
  /-- No value at all. -/
  | flag (setting : Setting)

namespace Setting

/-- The options by name. -/
def kind? : String → Option Kind
  | "--frames" => some (.number frames)
  | "--ticks-per-frame" => some (.number ticksPerFrame)
  | "--seed" => some (.number seed)
  | "--conf" => some (.path configuration)
  | "--hold" => some (.key hold)
  | "--realtime" => some (.flag realtime)
  | _ => none

/-- The key that an argument names. A number that is hexadecimal and below 256 but no key is a
fault of the machine and not of the arguments. -/
def readKey (value : String) : Except Failure Key :=
  match Number.hexByte? value with
  | none => .error (.usage (.badKey value))
  | some index => (Key.ofIndex index).mapError .fault

/-- The number that an argument names. -/
def readNumber (name value : String) : Except Failure Nat :=
  match Number.decimal? value with
  | none => .error (.usage (.badNumber name value))
  | some n => .ok n

/-- The setting of an option that takes a value. -/
def read (name : String) (kind : Kind) (value : String) : Except Failure Setting :=
  match kind with
  | .number make => (readNumber name value).map make
  | .path make => .ok (make value)
  | .key make => (readKey value).map make
  | .flag setting => .ok setting

/-- The settings of the arguments after the program file. -/
def readAll : List String → Except Failure (List Setting)
  | [] => .ok []
  | name :: rest =>
    match kind? name with
    | none => .error (.usage (.unknownOption name))
    | some (.flag setting) => (readAll rest).map (setting :: ·)
    | some kind =>
      match rest with
      | [] => .error (.usage (.missingValue name))
      | value :: rest =>
        match read name kind value with
        | .error failure => .error failure
        | .ok setting => (readAll rest).map (setting :: ·)

end Setting

/-! ## The command -/

/-- What to run and how. -/
structure Arguments where
  file : String
  /-- How many frames of a sixtieth of a second to run. -/
  frames : Nat := 600
  ticksPerFrame : Nat := 10
  /-- The seed of the random stream; without one the stream is not predictable. -/
  seed : Option Nat := none
  configuration : Option String := none
  /-- The keys that are down for the whole run. -/
  held : List Key := []
  /-- Whether frames keep to the clock. -/
  realtime : Bool := false
  deriving DecidableEq, Repr

namespace Arguments

/-- The arguments with one more setting. -/
def apply (a : Arguments) : Setting → Arguments
  | .frames count => { a with frames := count }
  | .ticksPerFrame count => { a with ticksPerFrame := count }
  | .seed value => { a with seed := some value }
  | .configuration path => { a with configuration := some path }
  | .hold key => { a with held := a.held ++ [key] }
  | .realtime => { a with realtime := true }

/-- The arguments of a file and settings, in order. -/
def ofSettings (file : String) (settings : List Setting) : Arguments :=
  settings.foldl apply { file }

/-- Reads the arguments of the process. -/
def parse : List String → Except Failure Arguments
  | [] => .error (.usage .missingCommand)
  | command :: rest =>
    if command = "run" then
      match rest with
      | [] => .error (.usage .missingFile)
      | file :: rest => (Setting.readAll rest).map (ofSettings file)
    else .error (.usage (.unknownCommand command))

/-- The files that a run may read. -/
def paths (a : Arguments) : List String := a.file :: a.configuration.toList

end Arguments

end Chip8
