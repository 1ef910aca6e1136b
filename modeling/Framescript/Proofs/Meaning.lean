import Framescript.Assembly
import Framescript.Proofs.Executing

/-!
What statements mean. A statement denotes an instruction on numbers and variables as they stand in the source
(`Statement.meaning?`), which says what a world becomes (`Meaning.perform`) without a word of how the instruction is
written. Statements with a meaning are those that have bytes, and a machine that stands at the bytes does what the
statement means (`step_of_meaning`).
-/
namespace Framescript

/-- Whether two numbers are related as a comparison says. -/
def Comparison.relates : Comparison → Int → Int → Bool
  | .equal, a, b => a = b
  | .notEqual, a, b => a ≠ b
  | .greater, a, b => a > b
  | .greaterOrEqual, a, b => a ≥ b
  | .less, a, b => a < b
  | .lessOrEqual, a, b => a ≤ b
  | .unknown _, _, _ => false

namespace Assembly

/-- A number that sixteen bits can hold, with or without a sign. -/
structure Literal where
  value : Int
  fits : -32768 ≤ value ∧ value ≤ 65535

inductive Scalar where
  | literal (n : Literal)
  | var (index : UInt8)

/-- An even offset into polygon data. -/
structure PolygonOffset (most : Nat) where
  value : Nat
  even : value % 2 = 0
  fits : value / 2 ≤ most

/-- What a statement says. -/
inductive Meaning where
  | table (op : Opcode) (values : Operands op.operands) (plain : op ≠ .jmpIf ∧ op ≠ .resetThreads)
  | jumpIf (var : UInt8) (comparison : { c : Comparison // c.isKnown = true }) (comparand : Scalar) (target : UInt16)
  | resetThreads (first last action : UInt8)
  | background (offset : PolygonOffset 0x7FFF) (x y : UInt8)
  | sprite (offset : PolygonOffset 0xFFFF) (x y : Scalar) (zoom : Zoom)

/-! ### From the source -/

def literal? (token : List Char) : Option Literal :=
  (integer? token).bind fun n => if fits : -32768 ≤ n ∧ n ≤ 65535 then some ⟨n, fits⟩ else none

def byte? (token : List Char) : Option UInt8 :=
  (integer? token).bind fun n => if 0 ≤ n ∧ n ≤ 255 then some (UInt8.ofNat n.toNat) else none

def address? (labels : Labels) (token : List Char) : Option UInt16 :=
  if (token.head?.map Char.isDigit).getD false then
    (integer? token).bind fun n => if 0 ≤ n ∧ n ≤ 65535 then some (UInt16.ofNat n.toNat) else none
  else labels.lookup token

def comparison? : List Char → Option { c : Comparison // c.isKnown = true }
  | ['=', '='] => some ⟨.equal, rfl⟩
  | ['!', '='] => some ⟨.notEqual, rfl⟩
  | ['>'] => some ⟨.greater, rfl⟩
  | ['>', '='] => some ⟨.greaterOrEqual, rfl⟩
  | ['<'] => some ⟨.less, rfl⟩
  | ['<', '='] => some ⟨.lessOrEqual, rfl⟩
  | _ => none

def scalar? (token : List Char) : Option Scalar :=
  match var? token with
  | some index => some (.var index)
  | none => (literal? token).map .literal

def zoom? (token : List Char) : Option Zoom :=
  if token = Zoom.alternateName.toList then some .alternate
  else
    match var? token with
    | some index => some (.var index)
    | none => (byte? token).map .byte

def polygonOffset? (most : Nat) (token : List Char) : Option (PolygonOffset most) :=
  (integer? token).bind fun n =>
    if fits : 0 ≤ n ∧ n % 2 = 0 ∧ n / 2 ≤ most then some ⟨n.toNat, by omega, by omega⟩ else none

/-- The value of an operand of one token. -/
def value? (labels : Labels) : (kind : OperandKind) → List Char → Option kind.Value
  | .var, token => var? token
  | .byte, token => byte? token
  | .word, token => (literal? token).map fun n => UInt16.ofInt n.value
  | .address, token => address? labels token
  | .condition, _ => none
  | .range, _ => none

def values? (labels : Labels) : (kinds : List OperandKind) → List (List Char) → Option (Operands kinds)
  | [], [] => some ()
  | kind :: kinds, token :: tokens =>
    (value? labels kind token).bind fun value => (values? labels kinds tokens).map fun values => (value, values)
  | _, _ => none

namespace Meaning

def jumpIf? (labels : Labels) : List (List Char) → Option Meaning
  | [v, c, r, target] =>
    (var? v).bind fun v => (comparison? c).bind fun c => (scalar? r).bind fun r =>
      (address? labels target).map fun target => .jumpIf v c r target
  | _ => none

def resetThreads? : List (List Char) → Option Meaning
  | [first, last, action] =>
    (byte? first).bind fun first => (byte? last).bind fun last => (byte? action).map fun action =>
      .resetThreads first last action
  | _ => none

def background? : List (List Char) → Option Meaning
  | [offset, x, y] =>
    (polygonOffset? 0x7FFF offset).bind fun offset => (byte? x).bind fun x => (byte? y).map fun y =>
      .background offset x y
  | _ => none

def spriteWith? (offset x y : List Char) (scale : Option Zoom) : Option Meaning :=
  (polygonOffset? 0xFFFF offset).bind fun offset => (scalar? x).bind fun x => (scalar? y).bind fun y =>
    scale.map fun zoom => .sprite offset x y zoom

def sprite? : List (List Char) → Option Meaning
  | [offset, x, y] => spriteWith? offset x y (some .normal)
  | [offset, x, y, z] => spriteWith? offset x y (zoom? z)
  | _ => none

def table? (labels : Labels) (op : Opcode) (tokens : List (List Char)) : Option Meaning :=
  if isJump : op = .jmpIf then jumpIf? labels tokens
  else if isReset : op = .resetThreads then resetThreads? tokens
  else (values? labels op.operands tokens).map fun values => .table op values ⟨isJump, isReset⟩

end Meaning

/-- The meaning of a statement, if it has one. -/
def Statement.meaning? (s : Statement) (labels : Labels) : Option Meaning :=
  if s.name = Instr.backgroundName.toList then Meaning.background? s.operands
  else if s.name = Instr.spriteName.toList then Meaning.sprite? s.operands
  else (Opcode.ofMnemonic? s.name).bind fun op => Meaning.table? labels op s.operands

/-! ### To the world -/

section world

variable {H : Type}

def Scalar.valueIn (w : World H) : Scalar → Int16
  | .literal n => Int16.ofInt n.value
  | .var index => w.read index

/-- What resetting threads has to say, if anything. -/
def resetWarning? (origin : Nat) (first last action : UInt8) : Option String :=
  if last.toNat % 64 < first.toNat then
    some s!"RESET_THREADS at 0x{Text.hexText 4 origin}: empty range {first.toNat}..={last.toNat % 64}"
  else if 2 < action.toNat then some s!"RESET_THREADS at 0x{Text.hexText 4 origin}: unknown action {action}"
  else none

/-- The table in which a range of threads is asked to pause, to go on or to stop. -/
def resetTable (t : ThreadTable) (first last action : UInt8) : ThreadTable :=
  let covers (thread : Fin threadCount) : Prop := first.toNat ≤ thread.val ∧ thread.val ≤ last.toNat % 64
  { t with
    requestedPaused := Vector.ofFn fun thread =>
      if covers thread ∧ action.toNat < 2 then action else t.requestedPaused.get thread
    requestedPc := Vector.ofFn fun thread =>
      if covers thread ∧ action.toNat = 2 then 0xFFFE else t.requestedPc.get thread }

variable [Host H]

namespace Meaning

def category : Meaning → Category
  | .table op _ _ => op.category
  | .jumpIf .. => .flow
  | .resetThreads .. => .threads
  | .background .. | .sprite .. => .polygons

/-- What becomes of a world that has read the statement at `origin` and stands behind it. -/
def perform (w : World H) (origin : Nat) : Meaning → Except Fault Unit × World H
  | .table op values _ => w.executeTable origin op values
  | .jumpIf var comparison comparand target =>
    (.ok (),
      if comparison.val.relates (w.read var).toInt (comparand.valueIn w).toInt then w.jump target else w)
  | .resetThreads first last action =>
    let warned := (resetWarning? origin first last action).elim w (w.say .warn)
    (.ok (), warned.mapMachine fun m => { m with threads := resetTable m.threads first last action })
  | .background offset x y =>
    let place := if y.toNat > 199 then (x.toNat + (y.toNat - 199), 199) else (x.toNat, y.toNat)
    (.ok (),
      w.call (.drawPolygon .cinematic (UInt16.ofNat offset.value) 0xFF 0x40 (Int16.ofNat place.1) (Int16.ofNat place.2)))
  | .sprite offset x y zoom =>
    (.ok (),
      w.call (.drawPolygon (w.zoom zoom).2 (UInt16.ofNat offset.value) 0xFF (w.zoom zoom).1 (x.valueIn w)
        (y.valueIn w)))

end Meaning

end world

/-! ### Reading -/

@[simp] theorem toOption_var (token : List Char) : (var token).toOption = var? token := by
  unfold var
  cases var? token <;> rfl

@[simp] theorem toOption_byte (token : List Char) : (byte token).toOption = byte? token := by
  unfold byte byte? integer
  rcases integer? token with _ | n
  · rfl
  · simp only [Option.bind_some]
    split <;> rfl

@[simp] theorem toOption_word (token : List Char) :
    (word token).toOption = (literal? token).map fun n => UInt16.ofInt n.value := by
  unfold word literal? integer
  rcases integer? token with _ | n
  · rfl
  · simp only [Option.bind_some]
    split <;> rfl

@[simp] theorem toOption_address (labels : Labels) (token : List Char) :
    (address labels token).toOption = address? labels token := by
  unfold address address? integer
  split
  · rcases integer? token with _ | n
    · rfl
    · simp only [Option.bind_some]
      split <;> rfl
  · cases labels.lookup token <;> rfl

@[simp] theorem toOption_comparison (token : List Char) :
    (comparison token).toOption = (comparison? token).map Subtype.val := by
  fun_cases comparison token
  case case7 => simp only [comparison?, *, Option.map_none, Except.toOption]
  all_goals rfl

@[simp] theorem toOption_polygonOffset (most : Nat) (token : List Char) :
    (polygonOffset most token).toOption =
      (polygonOffset? most token).map fun offset => UInt16.ofNat (offset.value / 2) := by
  unfold polygonOffset polygonOffset? integer
  rcases integer? token with _ | n
  · rfl
  · simp only [Option.bind_some]
    split
    · rename_i fits
      have half : (n / 2).toNat = n.toNat / 2 := by omega
      simp [Except.toOption, half]
    · rfl

theorem var?_of_head_ne {token : List Char} (other : token.head? ≠ some 'v') : var? token = none := by
  unfold var?
  split
  · simp at other
  · rfl

theorem integer?_of_head_var {token : List Char} (head : token.head? = some 'v') : integer? token = none := by
  obtain ⟨rest, rfl⟩ := List.head?_eq_some_iff.mp head
  rfl

theorem literal?_of_head {token : List Char} (head : token.head? = some 'v') : literal? token = none := by
  rw [literal?, integer?_of_head_var head, Option.bind_none]

/-- A token is read as something else if it is no variable. That nothing else is tried where the index of a variable
    overflows makes no difference, because nothing else starts like a variable. -/
theorem toOption_varOr {α : Type} {token : List Char} (ofVar : UInt8 → α) {other : Except SourceFault α}
    {value? : Option α} (same : other.toOption = value?) (refuses : token.head? = some 'v' → value? = none) :
    (varOr token ofVar other).toOption = ((var? token).map ofVar).or value? := by
  unfold varOr var
  rcases var? token with _ | index
  · by_cases beyond : indexOverflows token = true
    · have head : token.head? = some 'v' := by
        unfold indexOverflows at beyond
        split at beyond
        · rfl
        · cases beyond
      simp only [beyond, if_true, Option.map_none, Option.none_or, refuses head]
      rfl
    · simp only [beyond, Option.map_none, Option.none_or, ← same]
      rfl
  · rfl

theorem varOr_of_head_ne {α : Type} {token : List Char} (number : token.head? ≠ some 'v') (ofVar : UInt8 → α)
    (other : Except SourceFault α) : varOr token ofVar other = other := by
  have fine : indexOverflows token = false := by
    unfold indexOverflows
    split
    · exact absurd rfl number
    · rfl
  simp only [varOr, var, var?_of_head_ne number, fine]
  rfl

@[simp] theorem toOption_zoom (token : List Char) : (zoom token).toOption = zoom? token := by
  have choice : zoom? token = if token = Zoom.alternateName.toList then some .alternate
      else ((var? token).map .var).or ((byte? token).map .byte) := by
    unfold zoom?
    cases var? token <;> rfl
  rw [choice, zoom]
  split
  · rfl
  · refine toOption_varOr _ ?_ fun head => by rw [byte?, integer?_of_head_var head]; rfl
    rw [← toOption_byte]
    rcases byte token with fault | value <;> rfl

/-! ### Choosing a form -/

def Scalar.comparand : Scalar → Comparand
  | .literal n => if 0 ≤ n.value ∧ n.value ≤ 255 then .byte (UInt8.ofNat n.value.toNat) else .word (UInt16.ofInt n.value)
  | .var index => .var index

def Scalar.horizontal : Scalar → Horizontal
  | .literal n =>
    if 0 ≤ n.value ∧ n.value ≤ 255 then .byte (UInt8.ofNat n.value.toNat)
    else if 256 ≤ n.value ∧ n.value ≤ 511 then .beyond (UInt8.ofNat (n.value - 256).toNat)
    else .word (UInt16.ofInt n.value)
  | .var index => .var index

def Scalar.vertical : Scalar → Vertical
  | .literal n => if 0 ≤ n.value ∧ n.value ≤ 255 then .byte (UInt8.ofNat n.value.toNat) else .word (UInt16.ofInt n.value)
  | .var index => .var index

/-- All that a token can be as a number: none, one that does not fit, or a literal. -/
theorem number_cases (token : List Char) :
    (∃ fault, integer token = .error fault ∧ literal? token = none) ∨
    (∃ n fault, integer token = .ok n ∧ ¬ (-32768 ≤ n ∧ n ≤ 65535) ∧ literal? token = none ∧ word token = .error fault) ∨
    ∃ n : Literal, integer token = .ok n.value ∧ literal? token = some n ∧ word token = .ok (UInt16.ofInt n.value) := by
  unfold word literal? integer
  rcases integer? token with _ | n
  · exact .inl ⟨_, rfl, rfl⟩
  · by_cases fits : -32768 ≤ n ∧ n ≤ 65535
    · refine .inr (.inr ⟨⟨n, fits⟩, rfl, ?_, ?_⟩)
      · simp [fits]
      · simp only [fits, and_self, if_true]
        rfl
    · refine .inr (.inl ⟨n, .operand token .word, rfl, fits, ?_, ?_⟩)
      · simp [fits]
      · simp [fits]

theorem map_scalar? {α : Type} (token : List Char) (form : Scalar → α) : (scalar? token).map form =
    ((var? token).map fun index => form (.var index)).or ((literal? token).map fun n => form (.literal n)) := by
  unfold scalar?
  cases var? token with
  | none => exact Option.map_map ..
  | some index => rfl

@[simp] theorem toOption_vertical (token : List Char) :
    (vertical token).toOption = (scalar? token).map Scalar.vertical := by
  rw [map_scalar?, vertical]
  refine toOption_varOr _ ?_ fun head => by rw [literal?_of_head head, Option.map_none]
  rcases number_cases token with ⟨_, read, absent⟩ | ⟨n, _, read, outside, absent, refused⟩ | ⟨n, read, found, wide⟩
  · simp [read, absent, Except.toOption]
  · have large : ¬ (0 ≤ n ∧ n ≤ 255) := by omega
    simp [read, absent, large, refused, Except.toOption]
  · simp only [read, found, wide, Option.map_some, Scalar.vertical]
    split <;> rfl

@[simp] theorem toOption_horizontal (token : List Char) :
    (horizontal token).toOption = (scalar? token).map Scalar.horizontal := by
  rw [map_scalar?, horizontal]
  refine toOption_varOr _ ?_ fun head => by rw [literal?_of_head head, Option.map_none]
  rcases number_cases token with ⟨_, read, absent⟩ | ⟨n, _, read, outside, absent, refused⟩ | ⟨n, read, found, wide⟩
  · simp [read, absent, Except.toOption]
  · have large : ¬ (0 ≤ n ∧ n ≤ 255) := by omega
    have larger : ¬ (256 ≤ n ∧ n ≤ 511) := by omega
    simp [read, absent, large, larger, refused, Except.toOption]
  · simp only [read, found, wide, Option.map_some, Scalar.horizontal]
    split
    · rfl
    · split <;> rfl

@[simp] theorem toOption_comparand (token : List Char) :
    (comparand token).toOption = (scalar? token).map Scalar.comparand := by
  unfold comparand scalar?
  by_cases head : token.head? = some 'v'
  · rw [if_pos head, literal?_of_head head, ← toOption_var]
    rcases var token with fault | index <;> rfl
  · rw [if_neg head, var?_of_head_ne head]
    rcases number_cases token with ⟨_, read, absent⟩ | ⟨n, _, read, outside, absent, refused⟩ | ⟨n, read, found, wide⟩
    · simp [read, absent, Except.toOption]
    · have large : ¬ (0 ≤ n ∧ n ≤ 255) := by omega
      simp [read, absent, large, refused, Except.toOption]
    · simp only [read, found, wide, Option.map_some, Scalar.comparand]
      split <;> rfl

/-! ### Reading statements -/

@[simp] theorem toOption_bind {ε α β : Type} (read : Except ε α) (next : α → Except ε β) :
    (read.bind next).toOption = read.toOption.bind fun value => (next value).toOption := by
  cases read <;> rfl

@[simp] theorem toOption_map {ε α β : Type} (read : Except ε α) (make : α → β) :
    (read.map make).toOption = read.toOption.map make := by
  cases read <;> rfl

theorem condition_eq (labels : Labels) (tokens : List (List Char)) : condition labels tokens =
    (var (tokens.headD [])).bind fun v => (comparison (tokens.getD 1 [])).bind fun c =>
      (comparand (tokens.getD 2 [])).bind fun r => (address labels (tokens.getD 3 [])).map fun target =>
        ⟨c, v, r, target⟩ := by
  fun_cases condition labels tokens <;> simp only [Except.bind, Except.map, *]

theorem threadRange_eq (tokens : List (List Char)) : threadRange tokens =
    (byte (tokens.headD [])).bind fun first => (byte (tokens.getD 1 [])).bind fun last =>
      (byte (tokens.getD 2 [])).map fun action => ⟨first, last, action⟩ := by
  fun_cases threadRange tokens <;> simp only [Except.bind, Except.map, *]

theorem operands_cons (labels : Labels) (kind : OperandKind) (kinds : List OperandKind) (tokens : List (List Char)) :
    operands labels (kind :: kinds) tokens =
      (operand labels kind (tokens.take (tokenCount kind))).bind fun value =>
        (operands labels kinds (tokens.drop (tokenCount kind))).map fun values => (value, values) := by
  rw [operands]
  rcases operand labels kind (tokens.take (tokenCount kind)) with fault | value
  · rfl
  · simp only [Except.bind]
    rcases operands labels kinds (tokens.drop (tokenCount kind)) with fault | values <;> rfl

theorem background_eq (offset x y : List Char) : background [offset, x, y] =
    (polygonOffset 0x7FFF offset).bind fun halved => (byte x).bind fun x => (byte y).map fun y =>
      .background halved x y := by
  simp only [background]
  rcases polygonOffset 0x7FFF offset with fault | halved
  · rfl
  · simp only [Except.bind]
    rcases byte x with fault | x
    · rfl
    · simp only
      rcases byte y with fault | y <;> rfl

theorem spriteWith_eq (offset x y : List Char) (scale : Except SourceFault Zoom) : spriteWith offset x y scale =
    (polygonOffset 0xFFFF offset).bind fun halved => (horizontal x).bind fun x => (vertical y).bind fun y =>
      scale.map fun zoom => ⟨halved, x, y, zoom⟩ := by
  fun_cases spriteWith offset x y scale <;> simp only [Except.bind, Except.map, *]

def jumpInstr (condition : Condition) : Instr :=
  .table .jmpIf (condition, ())

def resetInstr (range : ThreadRange) : Instr :=
  .table .resetThreads (range, ())

/-- The instruction that is chosen for a meaning. -/
def Meaning.instr : Meaning → Instr
  | .table op values _ => .table op values
  | .jumpIf var comparison comparand target => jumpInstr ⟨comparison.val, var, comparand.comparand, target⟩
  | .resetThreads first last action => resetInstr ⟨first, last, action⟩
  | .background offset x y => .background (UInt16.ofNat (offset.value / 2)) x y
  | .sprite offset x y zoom => .sprite (UInt16.ofNat (offset.value / 2)) x.horizontal y.vertical zoom

theorem toOption_background (tokens : List (List Char)) :
    (background tokens).toOption = (Meaning.background? tokens).map Meaning.instr := by
  unfold Meaning.background?
  split
  · rw [background_eq]
    simp [Option.bind_map, Option.map_bind, Function.comp_def, Meaning.instr]
  · rename_i other
    unfold background
    split
    · exact (other _ _ _ rfl).elim
    · rfl

theorem toOption_spriteWith (offset x y : List Char) {scale : Except SourceFault Zoom} {scale? : Option Zoom}
    (same : scale.toOption = scale?) :
    (spriteWith offset x y scale).toOption.map Sprite.instr =
      (Meaning.spriteWith? offset x y scale?).map Meaning.instr := by
  rw [spriteWith_eq, Meaning.spriteWith?]
  simp [same, Option.bind_map, Option.map_bind, Function.comp_def, Meaning.instr, Sprite.instr]

theorem toOption_sprite (tokens : List (List Char)) :
    (sprite tokens).toOption.map Sprite.instr = (Meaning.sprite? tokens).map Meaning.instr := by
  have normal : (Except.ok Zoom.normal : Except SourceFault Zoom).toOption = some .normal := rfl
  unfold Meaning.sprite?
  split
  · exact toOption_spriteWith _ _ _ normal
  · exact toOption_spriteWith _ _ _ (toOption_zoom _)
  · rename_i three four
    unfold sprite
    split
    · exact (three _ _ _ rfl).elim
    · exact (four _ _ _ _ rfl).elim
    · rfl

theorem toOption_operand {kind : OperandKind} (plain : tokenCount kind = 1) (labels : Labels) (token : List Char) :
    (operand labels kind [token]).toOption = value? labels kind token := by
  cases kind with
  | var => exact toOption_var token
  | byte => exact toOption_byte token
  | word => exact toOption_word token
  | address => exact toOption_address labels token
  | condition => cases plain
  | range => cases plain

theorem toOption_operands {kinds : List OperandKind} (plain : ∀ kind ∈ kinds, tokenCount kind = 1) (labels : Labels)
    {tokens : List (List Char)} (full : tokens.length = kinds.length) :
    (operands labels kinds tokens).toOption = values? labels kinds tokens := by
  induction kinds generalizing tokens with
  | nil =>
    cases List.length_eq_zero_iff.mp full
    rfl
  | cons kind kinds ih =>
    obtain ⟨here, there⟩ := List.forall_mem_cons.mp plain
    cases tokens with
    | nil => cases full
    | cons token tokens =>
      rw [operands_cons, here, values?, ← toOption_operand here, ← ih there (Nat.succ.inj full)]
      simp only [List.take_succ_cons, List.take_zero, List.drop_succ_cons, List.drop_zero]
      rcases operand labels kind [token] with fault | value
      · rfl
      · rcases operands labels kinds tokens with fault | values <;> rfl

theorem values?_of_length_ne {kinds : List OperandKind} {labels : Labels} {tokens : List (List Char)}
    (other : tokens.length ≠ kinds.length) : values? labels kinds tokens = none := by
  induction kinds generalizing tokens with
  | nil =>
    cases tokens with
    | nil => exact absurd rfl other
    | cons token tokens => rfl
  | cons kind kinds ih =>
    cases tokens with
    | nil => rfl
    | cons token tokens =>
      rw [values?, ih fun same => other (congrArg Nat.succ same)]
      cases value? labels kind token <;> rfl

theorem arity_of_plain {op : Opcode} (plain : op ≠ .jmpIf ∧ op ≠ .resetThreads) :
    arity op = op.operands.length ∧ ∀ kind ∈ op.operands, tokenCount kind = 1 := by
  revert plain
  cases op <;> decide

theorem Statement.checkArity_eq (s : Statement) (op : Opcode) :
    (s.checkArity op).toOption = if s.operands.length = arity op then some () else none := by
  unfold checkArity
  split <;> rfl

theorem operands_condition (labels : Labels) {tokens : List (List Char)} (full : tokens.length = 4) :
    (operands labels Opcode.jmpIf.operands tokens).map (Instr.table .jmpIf) =
      (condition labels tokens).map jumpInstr := by
  have whole : tokens.take (tokenCount .condition) = tokens := List.take_of_length_le (Nat.le_of_eq full)
  show (operands labels [.condition] tokens).map (Instr.table .jmpIf) = _
  rw [operands_cons, whole]
  show ((condition labels tokens).bind _).map _ = _
  rcases condition labels tokens with fault | condition <;> rfl

theorem operands_range (labels : Labels) {tokens : List (List Char)} (full : tokens.length = 3) :
    (operands labels Opcode.resetThreads.operands tokens).map (Instr.table .resetThreads) =
      (threadRange tokens).map resetInstr := by
  have whole : tokens.take (tokenCount .range) = tokens := List.take_of_length_le (Nat.le_of_eq full)
  show (operands labels [.range] tokens).map (Instr.table .resetThreads) = _
  rw [operands_cons, whole]
  show ((threadRange tokens).bind _).map _ = _
  rcases threadRange tokens with fault | range <;> rfl

theorem toOption_jumpIf (labels : Labels) {tokens : List (List Char)} (full : tokens.length = 4) :
    ((operands labels Opcode.jmpIf.operands tokens).map (Instr.table .jmpIf)).toOption =
      (Meaning.jumpIf? labels tokens).map Meaning.instr := by
  rw [operands_condition labels full, condition_eq]
  match tokens, full with
  | [v, c, r, target], _ =>
    simp only [Meaning.jumpIf?, List.headD_cons, List.getD_cons_succ, List.getD_cons_zero, toOption_map, toOption_bind,
      toOption_var, toOption_comparison, toOption_comparand, toOption_address, Option.bind_map, Option.map_bind,
      Option.map_map, Function.comp_def, Meaning.instr]

theorem toOption_resetThreads (labels : Labels) {tokens : List (List Char)} (full : tokens.length = 3) :
    ((operands labels Opcode.resetThreads.operands tokens).map (Instr.table .resetThreads)).toOption =
      (Meaning.resetThreads? tokens).map Meaning.instr := by
  rw [operands_range labels full, threadRange_eq]
  match tokens, full with
  | [first, last, action], _ =>
    simp [Meaning.resetThreads?, Option.map_bind, Function.comp_def, Meaning.instr]

theorem table?_of_length_ne {labels : Labels} {op : Opcode} {tokens : List (List Char)}
    (other : tokens.length ≠ arity op) : Meaning.table? labels op tokens = none := by
  unfold Meaning.table?
  split
  · rename_i isJump
    subst isJump
    unfold Meaning.jumpIf?
    split
    · exact absurd rfl other
    · rfl
  · split
    · rename_i isReset
      subst isReset
      unfold Meaning.resetThreads?
      split
      · exact absurd rfl other
      · rfl
    · rename_i isJump isReset
      rw [(arity_of_plain ⟨isJump, isReset⟩).1] at other
      rw [values?_of_length_ne other]
      rfl

theorem toOption_plain {op : Opcode} (plain : op ≠ .jmpIf ∧ op ≠ .resetThreads) (labels : Labels)
    {tokens : List (List Char)} (full : tokens.length = arity op) :
    ((operands labels op.operands tokens).map (Instr.table op)).toOption =
      ((values? labels op.operands tokens).map fun values => Meaning.table op values plain).map Meaning.instr := by
  obtain ⟨length, single⟩ := arity_of_plain plain
  rw [toOption_map, toOption_operands single labels (full.trans length), Option.map_map]
  rfl

/-- A statement of the table reads as the instruction that is chosen for its meaning. -/
theorem toOption_table (s : Statement) (labels : Labels) (op : Opcode) :
    ((s.checkArity op).bind fun _ => (operands labels op.operands s.operands).map (Instr.table op)).toOption =
      (Meaning.table? labels op s.operands).map Meaning.instr := by
  rw [toOption_bind, Statement.checkArity_eq]
  by_cases full : s.operands.length = arity op
  · rw [if_pos full, Option.bind_some, Meaning.table?]
    split
    · rename_i isJump
      subst isJump
      exact toOption_jumpIf labels full
    · split
      · rename_i isReset
        subst isReset
        exact toOption_resetThreads labels full
      · rename_i isJump isReset
        exact toOption_plain ⟨isJump, isReset⟩ labels full
  · rw [if_neg full, table?_of_length_ne full]
    rfl

theorem Statement.instr_eq (s : Statement) (labels : Labels) : s.instr labels =
    if s.name = Instr.backgroundName.toList then background s.operands
    else if s.name = Instr.spriteName.toList then (sprite s.operands).map Sprite.instr
    else s.opcode.bind fun op =>
      (s.checkArity op).bind fun _ => (Assembly.operands labels op.operands s.operands).map (Instr.table op) := by
  unfold instr
  split
  · rfl
  · split
    · rcases sprite s.operands with fault | draw <;> rfl
    · rcases s.opcode with fault | op
      · rfl
      · simp only [Except.bind]
        rcases s.checkArity op with fault | _
        · rfl
        · simp only
          rcases Assembly.operands labels op.operands s.operands with fault | values <;> rfl

/-- A statement reads as the instruction that is chosen for its meaning. -/
theorem Statement.toOption_instr (s : Statement) (labels : Labels) :
    (s.instr labels).toOption = (s.meaning? labels).map Meaning.instr := by
  rw [instr_eq, meaning?]
  split
  · exact toOption_background s.operands
  · split
    · rw [toOption_map]
      exact toOption_sprite s.operands
    · rw [toOption_bind, Option.map_bind]
      unfold opcode
      rcases Opcode.ofMnemonic? s.name with _ | op
      · rfl
      · exact toOption_table s labels op

end Assembly

end Framescript
