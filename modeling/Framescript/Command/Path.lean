/-!
Paths of files: names divided by slashes. Slashes at the end, and dots that stand for the directory
before them, do not count.
-/
namespace Framescript.Path

/-- A path, last character first, without what does not count at its end. -/
def trimEnd : List Char → List Char
  | ['/'] => ['/']
  | '/' :: rest => trimEnd rest
  | '.' :: '/' :: rest => trimEnd ('/' :: rest)
  | cs => cs
termination_by cs => cs.length

/-- The last name of a path, if it names something. -/
def name? (path : String) : Option (List Char) :=
  let name := ((trimEnd path.toList.reverse).takeWhile (· ≠ '/')).reverse
  if name = [] ∨ name = ['.'] ∨ name = ['.', '.'] then none else some name

/-- The parts of a name around its last dot, unless there is none but at its start. -/
def splitAtDot? (name : List Char) : Option (List Char × List Char) :=
  let after := name.reverse.takeWhile (· ≠ '.')
  match name.reverse.dropWhile (· ≠ '.') with
  | [] | [_] => none
  | _ :: before => some (before.reverse, after.reverse)

/-- What follows the last dot of the last name. -/
def extension? (path : String) : Option (List Char) := do
  let (_, after) ← splitAtDot? (← name? path)
  return after

/-- The last name without its extension. -/
def stem (path : String) : List Char :=
  match name? path with
  | none => []
  | some name => ((splitAtDot? name).map Prod.fst).getD name

/-- The path of the directory that a path is in. -/
def parent? (path : String) : Option String :=
  let trimmed := trimEnd path.toList.reverse
  if trimmed = [] ∨ trimmed = ['/'] then none
  else some (String.ofList (trimEnd (trimmed.dropWhile (· ≠ '/'))).reverse)

/-- The path of a name in a directory. -/
def join (directory name : String) : String :=
  if directory.isEmpty ∨ directory.toList.getLast? = some '/' then directory ++ name
  else directory ++ "/" ++ name

/-- Whether a path is that of a source text. -/
def isSource (path : String) : Bool :=
  (extension? path).map (·.map Char.toLower) == some ['a', 's', 'm']

end Framescript.Path
