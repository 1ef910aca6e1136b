import Framescript.Assembly.Layout
import Framescript.Instruction.Encode

/-!
The assembler. A first pass lays out the source text, a second reads each statement with the labels
of its part and emits its bytes.
-/
namespace Framescript.Assembly

/-- The bytes of a statement. -/
def Statement.emit (s : Statement) (labels : Labels) : Except SourceError Bytes :=
  match s.instr labels with
  | .error fault => .error ⟨s.line, s.column, fault⟩
  | .ok instr => .ok instr.encode

/-- The bytes of statements in order, behind those of `done`. -/
def emitAll (labels : Labels) (done : Code) : List Statement → Except SourceError Code
  | [] => .ok done
  | s :: statements =>
    match s.emit labels with
    | .error e => .error e
    | .ok bytes => emitAll labels (done ++ bytes) statements

/-- The part of a section. -/
def Section.emit (s : Section) : Except SourceError Part :=
  match emitAll s.labels #[] s.statements.reverse with
  | .error e => .error e
  | .ok code => .ok ⟨s.id, code⟩

/-- The parts of sections in order, behind those of `done` in reverse. -/
def emitSections (done : List Part) : List Section → Except SourceError Program
  | [] => .ok ⟨done.reverse⟩
  | s :: sections =>
    match s.emit with
    | .error e => .error e
    | .ok part => emitSections (part :: done) sections

/-- Assembles a source text. -/
def assemble (source : String) : Except SourceError Program :=
  match Layout.ofSource source.toList with
  | .error e => .error e
  | .ok sections => emitSections [] sections

/-- A source error with the line that it is in and a mark under its column. -/
def SourceError.diagnostic (e : SourceError) (file source : String) : String :=
  let heading := s!"error: {e.fault.message}\n --> {file}:{e.line}:{e.column}\n"
  match (Text.lines source.toList)[e.line - 1]? with
  | none => heading
  | some line =>
    let text := String.ofList (Text.dropEndWhile (· = '\r') line)
    let number := Text.alignRight 4 (toString e.line)
    let mark := String.ofList (List.replicate (e.column - 1) ' ' ++ ['^'])
    s!"{heading}  |\n{number} | {text}\n  | {mark}\n"

end Framescript.Assembly
