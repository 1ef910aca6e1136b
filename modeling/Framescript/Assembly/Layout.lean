import Framescript.Assembly.Statement
import Framescript.Assembly.Token
import Framescript.Program
import Framescript.Text.Lines

/-!
The layout of a source text: which statements and labels each part has, and at which offsets. The
size of an instruction is known before labels are, because no operand that names a label has a size
of its own.
-/
namespace Framescript.Assembly

/-- The bytes of what a variable is compared with. -/
def comparandSize : Comparand → Nat
  | .var _ | .byte _ => 1
  | .word _ => 2

/-- The bytes of the horizontal place of a sprite. -/
def horizontalSize : Horizontal → Nat
  | .var _ | .byte _ | .beyond _ => 1
  | .word _ => 2

/-- The bytes of the vertical place of a sprite. -/
def verticalSize : Vertical → Nat
  | .var _ | .byte _ => 1
  | .word _ => 2

/-- The bytes of the scale of a sprite. -/
def zoomSize : Zoom → Nat
  | .normal | .alternate => 0
  | .var _ | .byte _ => 1

/-- The bytes of a sprite draw: opcode and offset, and its other operands. -/
def Sprite.size (s : Sprite) : Nat :=
  3 + (horizontalSize s.x + verticalSize s.y + zoomSize s.zoom)

namespace Statement

/-- The bytes that a statement will take. Operands are read only as far as the size depends on them. -/
def size (s : Statement) : Except SourceFault Nat :=
  if s.name = Instr.backgroundName.toList then .ok 4
  else if s.name = Instr.spriteName.toList then
    match sprite s.operands with
    | .error fault => .error fault
    | .ok draw => .ok draw.size
  else
    match s.opcode with
    | .error fault => .error fault
    | .ok op =>
      match op.fixedSize? with
      | some n => .ok n
      | none =>
        match s.checkArity op with
        | .error fault => .error fault
        | .ok () =>
          if op = .resetThreads then
            match threadRange s.operands with
            | .error fault => .error fault
            | .ok r => .ok (1 + ThreadRange.size r.first r.last)
          else
            match comparand (s.operands.getD 2 []) with
            | .error fault => .error fault
            | .ok r => .ok (5 + comparandSize r)

end Statement

/-- The statements, newest first, the labels and the size of a part. -/
structure Section where
  id : UInt16
  statements : List Statement := []
  labels : Labels := []
  size : Nat := 0
  deriving DecidableEq, Repr

/-- Reads a part id behind the word `part` in the section marker `header`. -/
def markerId (header : List Char) : List (List Char) → Except SourceFault UInt16
  | [keyword, id] =>
    if keyword.map Char.toLower = ['p', 'a', 'r', 't'] then
      match integer id with
      | .ok n => if 0 ≤ n ∧ n ≤ 65535 then .ok (UInt16.ofNat n.toNat) else .error (.invalidSection header)
      | .error .overflow => .error .overflow
      | .error _ => .error (.invalidSection header)
    else .error (.invalidSection header)
  | _ => .error (.invalidSection header)

/-- The inside of a line that stands in square brackets. -/
def bracketed? : List Char → Option (List Char)
  | '[' :: inner => if inner.getLast? = some ']' then some inner.dropLast else none
  | _ => none

/-- The part that a line starts, if the line is a section marker. -/
def marker? (line : List Char) : Option (Except SourceFault UInt16) :=
  let header := Text.trim (codeOf line)
  (bracketed? header).map fun inner => markerId header ((Token.scan Text.isBlank inner).map (·.text))

/-- The label that a token defines. -/
def label? (token : Token) : Option (List Char) :=
  if token.text.getLast? = some ':' ∧ 1 < token.text.length then some token.text.dropLast else none

namespace Section

/-- The section with a label at its end. -/
def addLabel (s : Section) (label : List Char) : Except SourceFault Section :=
  if (s.labels.lookup label).isSome then .error (.duplicateLabel label)
  else if s.size < 0x10000 then .ok { s with labels := (label, UInt16.ofNat s.size) :: s.labels }
  else .error (.labelOutOfRange s.size)

/-- The section with the statement of a line at its end, if the line has one. -/
def addStatement (s : Section) (line : Nat) : List Token → Except SourceError Section
  | [] => .ok s
  | name :: operands =>
    let statement : Statement := ⟨line, name.column, name.text, operands.map (·.text)⟩
    match statement.size with
    | .error fault => .error ⟨line, name.column, fault⟩
    | .ok n => .ok { s with statements := statement :: s.statements, size := s.size + n }

/-- The section with a line at its end: a label, a statement, or a label and a statement. -/
def addLine (s : Section) (line : Nat) : List Token → Except SourceError Section
  | [] => .ok s
  | first :: rest =>
    match label? first with
    | none => s.addStatement line (first :: rest)
    | some label =>
      match s.addLabel label with
      | .error fault => .error ⟨line, first.column, fault⟩
      | .ok s => s.addStatement line rest

end Section

/-- The sections of a source text, newest first. -/
abbrev Layout := List Section

namespace Layout

/-- The layout with a section for a part that it does not have yet. -/
def addSection (layout : Layout) (line : Nat) (id : UInt16) : Except SourceError Layout :=
  if layout.any (·.id = id) then .error ⟨line, 1, .partDefinedTwice id⟩
  else .ok ({ id } :: layout)

/-- The layout with tokens in its newest section. Without a section they start the first part. -/
def addTokens (layout : Layout) (line : Nat) (tokens : List Token) : Except SourceError Layout :=
  if tokens.isEmpty then .ok layout
  else
    match layout with
    | [] =>
      match ({ id := Part.first } : Section).addLine line tokens with
      | .error e => .error e
      | .ok s => .ok [s]
    | newest :: older =>
      match newest.addLine line tokens with
      | .error e => .error e
      | .ok s => .ok (s :: older)

/-- The layout with a line at its end. -/
def addLine (layout : Layout) (line : Nat) (text : List Char) : Except SourceError Layout :=
  match marker? text with
  | some (.error fault) => .error ⟨line, 1, fault⟩
  | some (.ok id) => layout.addSection line id
  | none => layout.addTokens line (Token.ofLine text)

/-- The layout with lines at its end, numbered from `line` on. -/
def addLines (layout : Layout) (line : Nat) : List (List Char) → Except SourceError Layout
  | [] => .ok layout
  | text :: texts =>
    match layout.addLine line text with
    | .error e => .error e
    | .ok layout => layout.addLines (line + 1) texts

/-- The sections of a source text in order. -/
def ofSource (source : List Char) : Except SourceError (List Section) :=
  match addLines [] 1 (Text.lines source) with
  | .error e => .error e
  | .ok layout => .ok layout.reverse

end Layout

end Framescript.Assembly
