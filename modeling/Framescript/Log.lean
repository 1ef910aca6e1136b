/-!
What operations have to say besides their result: lines of text with a level.
-/
namespace Framescript

/-- How important a line is. -/
inductive Level where
  | debug
  | info
  | warn
  | error
  deriving DecidableEq, Repr

/-- The name of a level. -/
def Level.name : Level → String
  | .debug => "DEBUG"
  | .info => "INFO"
  | .warn => "WARN"
  | .error => "ERROR"

/-- A line of a log. -/
structure LogLine where
  level : Level
  text : String
  deriving DecidableEq, Repr

/-- Lines in the order in which they were written. -/
abbrev Log := Array LogLine

/-- How a log is shown: with debug lines or without, with the level in front or without. -/
structure LogStyle where
  verbose : Bool := false
  plain : Bool := false
  deriving DecidableEq, Repr

/-- A line as it is shown. -/
def LogLine.render (style : LogStyle) (line : LogLine) : String :=
  if line.level = .debug ∧ !style.verbose then ""
  else if style.plain then line.text ++ "\n"
  else s!"[{line.level.name}] {line.text}\n"

/-- A log as it is shown. -/
def Log.render (style : LogStyle) (log : Log) : String :=
  log.foldl (fun text line => text ++ line.render style) ""

end Framescript
