import Chip8.Fault

/-!
# Failures of the program

Why the command line ends without a result: the arguments are wrong, a file cannot be read, the
configuration is no configuration, or the machine faults. Each kind has its exit code.
-/

namespace Chip8

/-- What can be wrong with the arguments. -/
inductive UsageError
  | missingCommand
  | unknownCommand (command : String)
  | missingFile
  | unknownOption (name : String)
  | missingValue (name : String)
  | badNumber (name value : String)
  | badKey (value : String)
  deriving DecidableEq, Repr

/-- Why a file cannot be read. -/
inductive FileError
  | notFound
  | isDirectory
  /-- Any other reason, in the words of the system. -/
  | other (reason : String)
  deriving DecidableEq, Repr

/-- Why the program ends without a result. -/
inductive Failure
  | usage (error : UsageError)
  | unreadable (error : FileError)
  | configuration
  | fault (fault : Fault)
  deriving DecidableEq, Repr

def UsageError.message : UsageError → String
  | missingCommand => "missing command"
  | unknownCommand command => "unknown command " ++ command
  | missingFile => "missing ROM file"
  | unknownOption name => "unknown option " ++ name
  | missingValue name => name ++ " expects a value"
  | badNumber name value => name ++ " expects a number, got " ++ value
  | badKey value => "invalid key " ++ value

def FileError.message : FileError → String
  | notFound => "No such file or directory (os error 2)"
  | isDirectory => "Is a directory (os error 21)"
  | other reason => reason

namespace Failure

/-- The sentence reported for a failure. -/
def message : Failure → String
  | usage error => error.message
  | unreadable error => error.message
  | configuration => "configuration:"
  | fault cause => cause.message

/-- The exit code of the process. -/
def exitCode : Failure → Nat
  | usage _ => 64
  | unreadable _ => 66
  | configuration => 78
  | fault _ => 1

/-- Whether the usage text is shown. -/
def isUsage : Failure → Bool
  | usage _ => true
  | _ => false

end Failure

end Chip8
