import Framescript.Text.Digits
import Framescript.Text.Quoted

/-!
What can be wrong with a source text, and where.
-/
namespace Framescript.Assembly

/-- What an operand should have been. -/
inductive Expectation where
  | integer
  | variable
  | byte
  | word
  | address
  | comparison
  | polygonOffset
  deriving DecidableEq, Repr

/-- The wording of an expectation. -/
def Expectation.describe : Expectation → String
  | .integer => "integer"
  | .variable => "variable v0..v255"
  | .byte => "byte 0..=255"
  | .word => "word -32768..=65535"
  | .address => "address 0..=0xFFFF"
  | .comparison => "comparison (==, !=, >, >=, <, <=)"
  | .polygonOffset => "even polygon offset"

/-- What is wrong with a line. -/
inductive SourceFault where
  | unknownName (name : List Char)
  | arity (instruction : List Char) (expected actual : Nat)
  | operand (token : List Char) (expected : Expectation)
  | duplicateLabel (label : List Char)
  | undefinedLabel (label : List Char)
  /-- A label at an offset that no jump can reach. -/
  | labelOutOfRange (offset : Nat)
  | invalidSection (header : List Char)
  | partDefinedTwice (id : UInt16)
  /-- The negative of a number leaves 64 bits. The assembler does not report this: it stops there. -/
  | overflow
  deriving DecidableEq, Repr

/-- The message for what is wrong with a line. -/
def SourceFault.message : SourceFault → String
  | .unknownName name => s!"invalid instruction name: {String.ofList name}"
  | .arity instruction expected actual => s!"{String.ofList instruction} expects {expected} operand(s), got {actual}"
  | .operand token expected => s!"invalid operand {Text.quoted token}: expected {expected.describe}"
  | .duplicateLabel label => s!"duplicate label: {String.ofList label}"
  | .undefinedLabel label => s!"undefined label: {String.ofList label}"
  | .labelOutOfRange offset => s!"invalid instruction pointer 0x{Text.hexText 1 offset}"
  | .invalidSection header => s!"invalid section header: {String.ofList header}"
  | .partDefinedTwice id => s!"invalid section header: part 0x{Text.hexText 4 id.toNat} defined twice"
  | .overflow => "attempt to negate with overflow"

/-- What is wrong with a source text, at a line and a column that both count from one. -/
structure SourceError where
  line : Nat
  column : Nat
  fault : SourceFault
  deriving DecidableEq, Repr

/-- The message for what is wrong with a source text. -/
def SourceError.message (e : SourceError) : String :=
  s!"line {e.line}, column {e.column}: {e.fault.message}"

end Framescript.Assembly
