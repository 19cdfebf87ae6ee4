import Chip8.CallStack
import Chip8.Clock
import Chip8.CommandLine.Arguments
import Chip8.CommandLine.Frames
import Chip8.CommandLine.Run
import Chip8.CommandLine.Standard
import Chip8.Configuration
import Chip8.Failure
import Chip8.Fault
import Chip8.Font
import Chip8.Hex
import Chip8.Instruction
import Chip8.Instruction.Code
import Chip8.Keypad
import Chip8.Log
import Chip8.Machine
import Chip8.Machine.Arithmetic
import Chip8.Machine.Execution
import Chip8.Machine.Listing
import Chip8.Machine.Operation
import Chip8.Main
import Chip8.Memory
import Chip8.Number
import Chip8.Profile
import Chip8.Proofs.CallStack.Lifo
import Chip8.Proofs.CommandLine.Arguments
import Chip8.Proofs.CommandLine.Beeps
import Chip8.Proofs.CommandLine.Execution
import Chip8.Proofs.CommandLine.Frames
import Chip8.Proofs.CommandLine.Grammar
import Chip8.Proofs.CommandLine.Pacing
import Chip8.Proofs.CommandLine.Stages
import Chip8.Proofs.CommandLine.Start
import Chip8.Proofs.CommandLine.Values
import Chip8.Proofs.CommandLine.Waiting
import Chip8.Proofs.Configuration.Decoding
import Chip8.Proofs.Configuration.Format
import Chip8.Proofs.Instruction.Forms
import Chip8.Proofs.Keypad.LastStates
import Chip8.Proofs.Log.Texts
import Chip8.Proofs.Machine.Aftermath
import Chip8.Proofs.Machine.Arithmetic
import Chip8.Proofs.Machine.Bounds
import Chip8.Proofs.Machine.Calls
import Chip8.Proofs.Machine.Commuting
import Chip8.Proofs.Machine.Drawing
import Chip8.Proofs.Machine.Effects
import Chip8.Proofs.Machine.Faults
import Chip8.Proofs.Machine.Footprint
import Chip8.Proofs.Machine.Glyphs
import Chip8.Proofs.Machine.Guarded
import Chip8.Proofs.Machine.Hints
import Chip8.Proofs.Machine.Invariants
import Chip8.Proofs.Machine.KeyWait
import Chip8.Proofs.Machine.Listing
import Chip8.Proofs.Machine.Lockstep
import Chip8.Proofs.Machine.Pacing
import Chip8.Proofs.Machine.Profiles
import Chip8.Proofs.Machine.Progress
import Chip8.Proofs.Machine.Randomness
import Chip8.Proofs.Machine.Restarts
import Chip8.Proofs.Machine.Surroundings
import Chip8.Proofs.Machine.Ticks
import Chip8.Proofs.Machine.Timers
import Chip8.Proofs.Machine.Transfers
import Chip8.Proofs.Machine.Unseen
import Chip8.Proofs.Memory.ByteMap
import Chip8.Proofs.Memory.Transfers
import Chip8.Proofs.Number.Numerals
import Chip8.Proofs.Screen.Parity
import Chip8.Proofs.Screen.Sprites
import Chip8.Proofs.Session.Entries
import Chip8.Proofs.Yaml.Atom
import Chip8.Proofs.Yaml.Block
import Chip8.Proofs.Yaml.Format
import Chip8.Proofs.Yaml.Mapping
import Chip8.Proofs.Yaml.Outline
import Chip8.Random
import Chip8.Random.ChaCha
import Chip8.Screen
import Chip8.Session
import Chip8.Word
import Chip8.Yaml.BlockScalar
import Chip8.Yaml.Character
import Chip8.Yaml.Cursor
import Chip8.Yaml.Directive
import Chip8.Yaml.Document
import Chip8.Yaml.Folding
import Chip8.Yaml.Format
import Chip8.Yaml.Node
import Chip8.Yaml.Node.Reader
import Chip8.Yaml.Scalar
import Chip8.Yaml.Tag
import Chip8.Yaml.Token
import Chip8.Yaml.Token.Layout
import Chip8.Yaml.Token.Lexer
