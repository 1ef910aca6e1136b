import Framescript.Command.Assemble
import Framescript.Command.Run

/-!
The two commands on the files of the system.
-/
namespace Framescript

/-- The cause that the system gives for a fault of a file. -/
def FileError.ofSystem : IO.Error → FileError
  | .noFileOrDirectory .. => .notFound
  | .inappropriateType _ code text =>
    if code = 20 then .notDirectory else if code = 21 then .isDirectory else .system text code.toNat
  | .permissionDenied _ code text | .resourceExhausted _ code text | .invalidArgument _ code text |
    .alreadyExists _ code text | .noSuchThing _ code text => .system text code.toNat
  | .otherError code text | .resourceBusy code text | .hardwareFault code text | .illegalOperation code text |
    .unsatisfiedConstraints code text => .system text code.toNat
  | e => .system (toString e) 5

instance : Console IO where
  readFile path := do
    try return .ok (← IO.FS.readBinFile path).toList
    catch e => return .error (.ofSystem e)
  writeFile path bytes := do
    try return .ok (← IO.FS.writeBinFile path (ByteArray.mk bytes.toArray))
    catch e => return .error (.ofSystem e)
  fileExists path := do
    try IO.FS.withFile path .read fun _ => return true
    catch _ => return false
  out := IO.print
  err := IO.eprint

/-- The command that the first argument names. -/
def command : List String → Command IO Unit
  | "run" :: arguments => Command.Run.run "framescript run" arguments
  | "assemble" :: arguments => Command.Assemble.run "framescript assemble" arguments
  | _ => do
    Command.complain (Command.Run.usage "framescript run" ++ Command.Assemble.usage "framescript assemble")
    throw 1

end Framescript

/-- Runs the command that the first argument names. -/
def main (arguments : List String) : IO UInt32 :=
  (Framescript.command arguments).exitCode
