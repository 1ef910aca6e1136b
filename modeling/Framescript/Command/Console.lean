import Framescript.Bytes
import Framescript.Log

/-!
What a command may do: read and write files, look for them, and write to the two outputs.
-/
namespace Framescript

/-- Why a file cannot be read or written. -/
inductive FileError where
  | notFound
  | notDirectory
  | isDirectory
  | nameTooLong
  | noMemory
  | noSpace
  /-- The bytes of a file are no text. -/
  | notText
  /-- Any other cause, in the words of the system. -/
  | system (text : String) (code : Nat)
  deriving DecidableEq, Repr

/-- The text of a cause. -/
def FileError.message : FileError → String
  | .notFound => "No such file or directory (os error 2)"
  | .notDirectory => "Not a directory (os error 20)"
  | .isDirectory => "Is a directory (os error 21)"
  | .nameTooLong => "File name too long (os error 36)"
  | .noMemory => "Cannot allocate memory (os error 12)"
  | .noSpace => "No space left on device (os error 28)"
  | .notText => "stream did not contain valid UTF-8"
  | .system text code => s!"{text} (os error {code})"

/-- The world around a command. -/
class Console (m : Type → Type) where
  readFile : String → m (Except FileError Bytes)
  writeFile : String → Bytes → m (Except FileError Unit)
  fileExists : String → m Bool
  /-- Writes to the output for results. -/
  out : String → m Unit
  /-- Writes to the output for messages. -/
  err : String → m Unit

/-- Steps of a command. A command that stops early has an exit code. -/
abbrev Command (m : Type → Type) := ExceptT UInt32 m

namespace Command

variable {m : Type → Type} [Monad m] [Console m]

/-- Writes to the output for results. -/
def print (text : String) : Command m Unit :=
  ExceptT.lift (Console.out text)

/-- Writes to the output for messages. -/
def complain (text : String) : Command m Unit :=
  ExceptT.lift (Console.err text)

/-- Writes a log to the output for messages. -/
def showLog (verbose : Bool) (log : Log) : Command m Unit :=
  complain (log.render { verbose })

/-- Says something that is not an error. -/
def inform (text : String) : Command m Unit :=
  showLog false #[⟨.info, text⟩]

/-- Stops with an error. -/
def fail {α : Type} (text : String) : Command m α := do
  showLog false #[⟨.error, text⟩]
  throw 1

/-- Stops at an overflow. -/
def crash {α : Type} : Command m α :=
  throw 101

/-- The bytes of a file. -/
def read (path : String) : Command m (Except FileError Bytes) :=
  ExceptT.lift (Console.readFile path)

/-- The text of a file. -/
def readText (path : String) : Command m (Except FileError String) := do
  match ← read path with
  | .error e => return .error e
  | .ok bytes =>
    match String.fromUTF8? (ByteArray.mk bytes.toArray) with
    | none => return .error .notText
    | some text => return .ok text

/-- Writes a file. -/
def write (path : String) (bytes : Bytes) : Command m (Except FileError Unit) :=
  ExceptT.lift (Console.writeFile path bytes)

/-- Whether there is something at a path. -/
def exists? (path : String) : Command m Bool :=
  ExceptT.lift (Console.fileExists path)

/-- The text of a fault of a file. -/
def fileFault (path : String) (e : FileError) : String :=
  s!"io error on {path}: {e.message}"

/-- Runs a command to its exit code. -/
def exitCode (command : Command m Unit) : m UInt32 := do
  match ← command.run with
  | .error code => return code
  | .ok () => return 0

end Command

end Framescript
