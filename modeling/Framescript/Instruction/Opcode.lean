/-!
The instruction table: opcode, mnemonic, operands and category of every instruction that is found by
its opcode. Opcodes with one of the two top bits set are polygon draws and are not in the table.
-/
namespace Framescript

/-- What an instruction is counted as. -/
inductive Category where
  | vars
  | flow
  | threads
  | video
  | audio
  | resources
  | polygons
  deriving DecidableEq, Repr

namespace Category

/-- The categories in the order in which they are reported. -/
def all : List Category := [.vars, .flow, .threads, .video, .audio, .resources, .polygons]

/-- The place of a category in reports. -/
def index : Category → Fin 7
  | .vars => 0
  | .flow => 1
  | .threads => 2
  | .video => 3
  | .audio => 4
  | .resources => 5
  | .polygons => 6

/-- The title of a category in reports. -/
def title : Category → String
  | .vars => "Variables"
  | .flow => "Control Flow"
  | .threads => "Threads"
  | .video => "Video"
  | .audio => "Audio"
  | .resources => "Resources"
  | .polygons => "Polygons"

end Category

/-- The shape of an operand in the bytecode. -/
inductive OperandKind where
  /-- A variable number, one byte. -/
  | var
  /-- A number of one byte. -/
  | byte
  /-- A number of two bytes. -/
  | word
  /-- A bytecode offset of two bytes. -/
  | address
  /-- A comparison with its jump target. -/
  | condition
  /-- A range of threads with what to do to them. -/
  | range
  deriving DecidableEq, Repr

/-- The bytes an operand takes, when they do not depend on its value. -/
def OperandKind.size? : OperandKind → Option Nat
  | .var | .byte => some 1
  | .word | .address => some 2
  | .condition | .range => none

/-- The instructions of the table. -/
inductive Opcode where
  /-- A variable becomes a word. -/
  | set
  /-- A variable becomes another variable. -/
  | mov
  /-- A variable is added to a variable. -/
  | add
  /-- A word is added to a variable. -/
  | addi
  /-- Jumps, and remembers where to return. -/
  | call
  /-- Returns to where the last call came from. -/
  | ret
  /-- Ends the slice; the thread goes on here in the next frame. -/
  | pause
  /-- Jumps. -/
  | jmp
  /-- Requests that a thread go on elsewhere from the next frame on. -/
  | setVec
  /-- Counts a variable down and jumps until it is zero. -/
  | djnz
  /-- Jumps if a comparison holds. -/
  | jmpIf
  /-- Selects a palette. -/
  | setPalette
  /-- Requests that threads be paused, resumed or stopped. -/
  | resetThreads
  /-- Selects the page to draw on. -/
  | selectPage
  /-- Fills a page with a color. -/
  | fillPage
  /-- Copies a page to another. -/
  | copyPage
  /-- Shows a page. -/
  | blit
  /-- Ends the slice and stops the thread. -/
  | kill
  /-- Draws a text. -/
  | drawString
  /-- A variable is taken from a variable. -/
  | sub
  /-- Bitwise and with a word. -/
  | and
  /-- Bitwise or with a word. -/
  | or
  /-- Shifts a variable left. -/
  | shl
  /-- Shifts a variable right, filling with zeros. -/
  | shr
  /-- Plays a sound. -/
  | playSound
  /-- Loads a resource, drops all, or requests another part. -/
  | loadResource
  /-- Plays music. -/
  | playMusic
  deriving DecidableEq, Repr

namespace Opcode

/-- The instructions in the order of their opcodes, which count up from zero. -/
def table : Array Opcode :=
  #[.set, .mov, .add, .addi, .call, .ret, .pause, .jmp, .setVec, .djnz, .jmpIf, .setPalette, .resetThreads,
    .selectPage, .fillPage, .copyPage, .blit, .kill, .drawString, .sub, .and, .or, .shl, .shr, .playSound,
    .loadResource, .playMusic]

/-- The opcode byte. -/
def toByte : Opcode → UInt8
  | .set => 0x00
  | .mov => 0x01
  | .add => 0x02
  | .addi => 0x03
  | .call => 0x04
  | .ret => 0x05
  | .pause => 0x06
  | .jmp => 0x07
  | .setVec => 0x08
  | .djnz => 0x09
  | .jmpIf => 0x0A
  | .setPalette => 0x0B
  | .resetThreads => 0x0C
  | .selectPage => 0x0D
  | .fillPage => 0x0E
  | .copyPage => 0x0F
  | .blit => 0x10
  | .kill => 0x11
  | .drawString => 0x12
  | .sub => 0x13
  | .and => 0x14
  | .or => 0x15
  | .shl => 0x16
  | .shr => 0x17
  | .playSound => 0x18
  | .loadResource => 0x19
  | .playMusic => 0x1A

/-- The instruction with the given opcode byte. -/
def ofByte? (b : UInt8) : Option Opcode :=
  table[b.toNat]?

/-- The name of an instruction in source text. -/
def mnemonic : Opcode → String
  | .set => "SET"
  | .mov => "MOV"
  | .add => "ADD"
  | .addi => "ADDI"
  | .call => "CALL"
  | .ret => "RET"
  | .pause => "PAUSE"
  | .jmp => "JMP"
  | .setVec => "SET_VEC"
  | .djnz => "DJNZ"
  | .jmpIf => "JMP_IF"
  | .setPalette => "SET_PALETTE"
  | .resetThreads => "RESET_THREADS"
  | .selectPage => "SELECT_PAGE"
  | .fillPage => "FILL_PAGE"
  | .copyPage => "COPY_PAGE"
  | .blit => "BLIT"
  | .kill => "KILL"
  | .drawString => "DRAW_STRING"
  | .sub => "SUB"
  | .and => "AND"
  | .or => "OR"
  | .shl => "SHL"
  | .shr => "SHR"
  | .playSound => "PLAY_SOUND"
  | .loadResource => "LOAD_RESOURCE"
  | .playMusic => "PLAY_MUSIC"

/-- The instruction with the given name. -/
def ofMnemonic? (name : List Char) : Option Opcode :=
  table.find? fun op => op.mnemonic.toList = name

/-- The operands in the order in which they follow the opcode. -/
def operands : Opcode → List OperandKind
  | .set | .addi | .and | .or | .shl | .shr => [.var, .word]
  | .mov | .add | .sub => [.var, .var]
  | .call | .jmp => [.address]
  | .ret | .pause | .kill => []
  | .setVec => [.byte, .address]
  | .djnz => [.var, .address]
  | .jmpIf => [.condition]
  | .setPalette | .loadResource => [.word]
  | .resetThreads => [.range]
  | .selectPage | .blit => [.byte]
  | .fillPage | .copyPage => [.byte, .byte]
  | .drawString | .playSound => [.word, .byte, .byte, .byte]
  | .playMusic => [.word, .word, .byte]

/-- What the operands are called. -/
def operandNames : Opcode → List String
  | .set | .addi => ["dst", "value"]
  | .mov | .add | .sub => ["dst", "src"]
  | .copyPage => ["src", "dst"]
  | .call | .jmp => ["target"]
  | .ret | .pause | .kill => []
  | .setVec => ["thread", "target"]
  | .djnz => ["counter", "target"]
  | .jmpIf => ["condition"]
  | .setPalette => ["palette"]
  | .resetThreads => ["range"]
  | .selectPage | .blit => ["page"]
  | .fillPage => ["page", "color"]
  | .drawString => ["string_id", "x", "y", "color"]
  | .and | .or => ["dst", "mask"]
  | .shl | .shr => ["dst", "amount"]
  | .playSound => ["resource", "frequency", "volume", "channel"]
  | .loadResource => ["resource"]
  | .playMusic => ["resource", "delay", "position"]

/-- What an instruction is counted as. -/
def category : Opcode → Category
  | .set | .mov | .add | .addi | .sub | .and | .or | .shl | .shr => .vars
  | .call | .ret | .jmp | .djnz | .jmpIf => .flow
  | .pause | .setVec | .resetThreads | .kill => .threads
  | .setPalette | .selectPage | .fillPage | .copyPage | .blit | .drawString => .video
  | .playSound | .playMusic => .audio
  | .loadResource => .resources

/-- Whether an instruction ends the slice of its thread. -/
def yields : Opcode → Bool
  | .pause | .kill => true
  | _ => false

/-- The bytes of the opcode and its operands, when they do not depend on the operands. -/
def fixedSize? (op : Opcode) : Option Nat :=
  op.operands.foldl (fun total kind => total.bind fun n => kind.size?.map (n + ·)) (some 1)

end Opcode

end Framescript
