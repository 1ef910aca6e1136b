import Framescript.Command.Arguments
import Framescript.Command.Source
import Framescript.Listing

/-!
The command that assembles a source text into a program file, or lists the parts of a program.
-/
namespace Framescript.Command.Assemble

/-- What the command is asked for. -/
structure Request where
  input : String
  output : Option String := none
  listing : Bool := false

/-- The options of the command. -/
def optionSet : OptionSet Request where
  takesValue option := option = "--output" ∨ option = "-o"
  withValue r _ value := .ok { r with output := some value }
  withFlag r option :=
    if option = "--listing" ∨ option = "-l" then .ok { r with listing := true } else .error (.unexpected option)

/-- How the command is used. -/
def usage (program : String) : String :=
  s!"Bytecode assembler

USAGE:
    {program} <input> [OPTIONS]

ARGS:
    <input>                 Assembly source (.asm), or a program file with --listing

OPTIONS:
    -o, --output <file>     Output file path (defaults to <input>.bin)
    -l, --listing           Print a disassembly listing of every part
    -h, --help              Print this help message

EXAMPLES:
    {program} intro.asm
    {program} intro.asm -o build/intro.bin
    {program} intro.bin --listing

"

variable {m : Type → Type} [Monad m] [Console m]

/-- Lists the parts of a program, up to one that cannot be listed. -/
def list : List Part → Command m Unit
  | [] => return
  | part :: parts => do
    let id := Text.hexText 4 part.id.toNat
    match Listing.ofCode part.code with
    | .error fault => fail s!"Part 0x{id}: {fault.message}"
    | .ok lines =>
      print s!"[ part 0x{id} ]  # {part.code.size} bytes\n{Listing.render lines}\n"
      list parts

/-- The path of the program file that belongs to a source text. -/
def defaultOutput (input : String) : String :=
  Path.join ((Path.parent? input).getD ".") (String.ofList (Path.stem input) ++ ".bin")

/-- Writes the program file. -/
def writeProgram (r : Request) (program : Program) : Command m Unit := do
  let output := r.output.getD (defaultOutput r.input)
  let directory := (Path.parent? output).getD ""
  if !directory.isEmpty then
    if !(← exists? directory) then fail s!"Output directory does not exist: {directory}"
  let bytes := program.toBytes
  match ← write output bytes with
  | .error e => fail s!"Failed to write output file: {e.message}"
  | .ok () =>
    let code := program.parts.foldr (fun part size => part.code.size + size) 0
    let sizes := s!"{program.parts.length} part(s), {code} bytes of bytecode, {bytes.length} bytes total"
    inform s!"Compiled {r.input} -> {output} ({sizes})"

/-- The program of the input. -/
def load (input : String) : Command m Program := do
  if !(← exists? input) then fail s!"Input file does not exist: {input}"
  if Path.isSource input then
    match ← assembleFile input with
    | .error text => fail s!"Assembly failed: {text}"
    | .ok program => return program
  else
    match ← read input with
    | .error e => fail s!"Failed to read {input}: {e.message}"
    | .ok bytes =>
      match Program.ofBytes bytes with
      | .error e => fail s!"Not a program file: {e.message}"
      | .ok program => return program

/-- Does what is asked for. -/
def perform (r : Request) : Command m Unit := do
  let program ← load r.input
  if r.listing then list program.parts
  else if Path.isSource r.input then writeProgram r program
  else fail "Input is already a program file; use --listing to inspect it"

/-- The command, with the name that it was called by and its arguments. -/
def run (program : String) : List String → Command m Unit :=
  withArguments (usage program) optionSet (fun input => { input }) perform

end Framescript.Command.Assemble
