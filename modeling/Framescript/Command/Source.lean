import Framescript.Assembly
import Framescript.Command.Console
import Framescript.Command.Path

/-!
Programs from files: source texts are assembled, anything else is read as a program file.
-/
namespace Framescript.Command

variable {m : Type → Type} [Monad m] [Console m]

/-- The program of a source text. What is wrong with it is also shown in the text. -/
def assembleFile (path : String) : Command m (Except String Program) := do
  match ← readText path with
  | .error e => return .error (fileFault path e)
  | .ok source =>
    match Assembly.assemble source with
    | .ok program => return .ok program
    | .error ⟨_, _, .overflow⟩ => crash
    | .error e =>
      complain (e.diagnostic path source ++ "\n")
      return .error e.message

/-- The program of a program file. -/
def readProgram (path : String) : Command m (Except String Program) := do
  match ← read path with
  | .error e => return .error (fileFault path e)
  | .ok bytes =>
    match Program.ofBytes bytes with
    | .error e => return .error e.message
    | .ok program => return .ok program

end Framescript.Command
