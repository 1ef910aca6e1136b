import Framescript.Command.Console

/-!
Arguments of commands: the path of a file, then options. An option may take the argument after it as
its value.
-/
namespace Framescript.Command

/-- What is wrong with the arguments of a command. -/
inductive ArgumentError where
  | missingValue (option : String)
  | invalid (what value : String)
  | unexpected (argument : String)
  deriving DecidableEq, Repr

/-- The text of a wrong argument. -/
def ArgumentError.message : ArgumentError → String
  | .missingValue option => s!"{option} requires an argument"
  | .invalid what value => s!"Invalid {what}: {value}"
  | .unexpected argument => s!"Unexpected argument: {argument}\n"

/-- How a request grows with each option. -/
structure OptionSet (R : Type) where
  /-- Whether a value follows an option. -/
  takesValue : String → Bool
  withValue : R → (option value : String) → Except ArgumentError R
  withFlag : R → (option : String) → Except ArgumentError R

/-- The request with all that a list of arguments asks for, up to the first that is wrong. -/
def OptionSet.read {R : Type} (set : OptionSet R) (r : R) : List String → Except ArgumentError R
  | [] => .ok r
  | option :: rest =>
    if set.takesValue option then
      match rest with
      | [] => .error (.missingValue option)
      | value :: rest =>
        match set.withValue r option value with
        | .error e => .error e
        | .ok r => set.read r rest
    else
      match set.withFlag r option with
      | .error e => .error e
      | .ok r => set.read r rest

variable {m : Type → Type} [Monad m] [Console m]

/-- A command that starts with a path. Without one it shows its usage and fails, and it shows its
usage if that is asked for in place of the path. -/
def withArguments {R : Type} (usage : String) (set : OptionSet R) (start : String → R) (perform : R → Command m Unit) :
    List String → Command m Unit
  | [] => do
    complain usage
    throw 1
  | path :: options =>
    if path = "--help" ∨ path = "-h" then complain usage
    else
      match set.read (start path) options with
      | .ok request => perform request
      | .error e => do
        showLog false #[⟨.error, e.message⟩]
        if e matches .unexpected _ then complain usage
        throw 1

end Framescript.Command
