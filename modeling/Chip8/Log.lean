import Chip8.Clock
import Chip8.Failure
import Chip8.Profile
import Chip8.Word

/-!
# Log

Messages with a severity, and a log that keeps those up to a threshold, in order. A message is
data until it is printed, so what was logged can be counted and compared without reading text.
-/

namespace Chip8

/-! ## Severity -/

inductive Level
  | error
  | warn
  | info
  | debug
  | trace
  deriving DecidableEq, Repr

namespace Level

/-- One for the most severe level. -/
def rank : Level → Nat
  | error => 1
  | warn => 2
  | info => 3
  | debug => 4
  | trace => 5

def name : Level → String
  | error => "ERROR"
  | warn => "WARN"
  | info => "INFO"
  | debug => "DEBUG"
  | trace => "TRACE"

end Level

/-- The least severe level that a log keeps; `none` keeps nothing. -/
abbrev Threshold := Option Level

namespace Threshold

/-- Whether messages of a level are kept. -/
def admits (threshold : Threshold) (level : Level) : Bool :=
  match threshold with
  | some least => level.rank ≤ least.rank
  | none => false

/-- The threshold of a name, in any case of letters. -/
def ofName? (name : String) : Option Threshold :=
  match name.toLower with
  | "off" => some none
  | "error" => some (some .error)
  | "warn" => some (some .warn)
  | "info" => some (some .info)
  | "debug" => some (some .debug)
  | "trace" => some (some .trace)
  | _ => none

end Threshold

/-! ## Messages -/

/-- Everything that is ever logged, by the machine and by the program around it. -/
inductive Message
  /-- The machine was reset. -/
  | reset
  | loaded (size : Nat)
  /-- A word was fetched, with the state it is about to act on. -/
  | fetched (pc : Nat) (word : Word) (index : UInt16) (registers : Vector UInt8 16)
  /-- The tick at `pc` faulted. -/
  | faulted (pc : Nat) (fault : Fault)
  | readingProgram (path : String)
  | readingConfiguration (path : String)
  | configured (profile : Profile)
  | beep
  | waiting (frame : Nat)
  /-- A frame took some nanoseconds more than its time. -/
  | overran (frame nanoseconds : Nat)
  | finished (frames : Nat) (beeps : Int32)
  | failed (failure : Failure)
  deriving DecidableEq, Repr

namespace Message

def level : Message → Level
  | reset | loaded _ | configured _ | waiting _ | overran .. => .debug
  | fetched .. => .trace
  | faulted .. => .warn
  | readingProgram _ | readingConfiguration _ | beep | finished .. => .info
  | failed _ => .error

/-- The part of the program that speaks: the machine, or the command line around it. -/
def target : Message → String
  | reset | loaded _ | fetched .. | faulted .. => "chip8::vm"
  | _ => "chip8"

/-- The registers as two-digit numbers in brackets. -/
def registersText (registers : Vector UInt8 16) : String :=
  "[" ++ ", ".intercalate (registers.toList.map fun b => Hex.text 2 b.toNat) ++ "]"

/-- The text of a message. `elapsed` stands for the time that a finished run took. -/
def text (elapsed : String) : Message → String
  | reset => "reset"
  | loaded size => "loaded program of " ++ toString size ++ " bytes"
  | fetched pc word index registers =>
    Hex.text 4 pc ++ ": " ++ word.text ++ " I=" ++ Hex.text 3 index.toNat
      ++ " V=" ++ registersText registers
  | faulted pc fault => "fault at " ++ Hex.text 4 pc ++ ": " ++ fault.message
  | readingProgram path => "load rom: " ++ path
  | readingConfiguration path => "load conf: " ++ path
  | configured profile => profile.text
  | beep => "beep"
  | waiting frame => "frame " ++ toString frame ++ ": waiting for key press"
  | overran frame nanoseconds =>
    "frame " ++ toString frame ++ " overran by " ++ durationText nanoseconds
  | finished frames beeps =>
    "ran " ++ toString frames ++ " frames in " ++ elapsed ++ "ms, " ++ toString beeps.toInt ++ " beeps"
  | failed failure => "application error: " ++ failure.message

end Message

/-! ## The log -/

/-- The messages kept so far, the oldest first. -/
structure Log where
  threshold : Threshold
  messages : Array Message := #[]

namespace Log

/-- Keeps a message if the threshold admits its level. -/
def record (log : Log) (message : Message) : Log :=
  if log.threshold.admits message.level then { log with messages := log.messages.push message }
  else log

@[simp]
theorem threshold_record (log : Log) (message : Message) :
    (log.record message).threshold = log.threshold := by
  unfold record
  split <;> rfl

theorem toList_record (log : Log) (message : Message) :
    (log.record message).messages.toList
      = log.messages.toList ++ [message].filter (log.threshold.admits ·.level) := by
  unfold record
  split <;> simp_all

end Log

end Chip8
