import Framescript.Proofs.Numerals
import Framescript.Proofs.Placement

/-!
Instructions read back from their words. A statement can say an instruction in one form only, the shortest one
(`Instr.Sayable`), and the words in which such an instruction is written are a statement of it, whatever the labels are
(`Statement.instr_words`).
-/
namespace Framescript

/-- A word as a signed number. -/
theorem toInt_toInt16 (value : UInt16) :
    value.toInt16.toInt = if value.toNat < 0x8000 then (value.toNat : Int) else value.toNat - 0x10000 := by
  have := value.toNat_lt
  show value.toBitVec.toInt = _
  rw [BitVec.toInt_eq_toNat_cond]
  show (if 2 * value.toNat < 65536 then (value.toNat : Int) else (value.toNat : Int) - (65536 : Nat)) = _
  split <;> split <;> omega

/-! ### What a statement can say -/

/-- A number is compared as a word only if it is no byte. -/
def Comparand.Sayable : Comparand → Prop
  | .word value => ¬ (0 ≤ value.toInt16.toInt ∧ value.toInt16.toInt ≤ 255)
  | _ => True

/-- A sprite is placed at a word only if neither a byte nor one beyond 256 will do. -/
def Horizontal.Sayable : Horizontal → Prop
  | .word value => ¬ (0 ≤ value.toInt16.toInt ∧ value.toInt16.toInt ≤ 511)
  | _ => True

def Vertical.Sayable : Vertical → Prop
  | .word value => ¬ (0 ≤ value.toInt16.toInt ∧ value.toInt16.toInt ≤ 255)
  | _ => True

def OperandKind.Sayable : (kind : OperandKind) → kind.Value → Prop
  | .condition, (c : Condition) => c.comparison.isKnown = true ∧ c.comparand.Sayable
  | _, _ => True

def Operands.Sayable : (kinds : List OperandKind) → Operands kinds → Prop
  | [], _ => True
  | kind :: kinds, (value, values) => kind.Sayable value ∧ Operands.Sayable kinds values

/-- Whether there is a statement of an instruction. -/
def Instr.Sayable : Instr → Prop
  | .table op operands => Operands.Sayable op.operands operands
  | .background halved _ _ => halved < 0x8000
  | .sprite _ x y _ => x.Sayable ∧ y.Sayable

theorem Operands.sayable_of_unconditional {kinds : List OperandKind} (unconditional : .condition ∉ kinds)
    (values : Operands kinds) : Operands.Sayable kinds values := by
  induction kinds with
  | nil => trivial
  | cons kind kinds ih =>
    obtain ⟨value, values⟩ := values
    refine ⟨?_, ih (fun later => unconditional (List.mem_cons_of_mem _ later)) values⟩
    cases kind with
    | condition => exact absurd List.mem_cons_self unconditional
    | _ => trivial

theorem Operands.Sayable.encodable {kinds : List OperandKind} {values : Operands kinds}
    (sayable : Operands.Sayable kinds values) : Operands.Encodable kinds values := by
  induction kinds with
  | nil => trivial
  | cons kind kinds ih =>
    obtain ⟨value, values⟩ := values
    refine ⟨?_, ih sayable.2⟩
    cases kind with
    | condition => exact sayable.1.1
    | _ => trivial

theorem Instr.Sayable.encodable {instr : Instr} (sayable : instr.Sayable) : instr.Encodable := by
  cases instr with
  | table op operands => exact Operands.Sayable.encodable sayable
  | background halved x y => exact sayable
  | sprite halved x y zoom => trivial

theorem Operands.Sayable.kept {kinds : List OperandKind} {values : Operands kinds}
    (sayable : Operands.Sayable kinds values) : Operands.Sayable kinds (Operands.kept kinds values) := by
  induction kinds with
  | nil => trivial
  | cons kind kinds ih =>
    obtain ⟨value, values⟩ := values
    refine ⟨?_, ih sayable.2⟩
    cases kind with
    | condition => exact sayable.1
    | _ => trivial

/-- What is read of an instruction can be said if the instruction can. -/
theorem Instr.Sayable.kept {instr : Instr} (sayable : instr.Sayable) : instr.kept.Sayable := by
  cases instr with
  | table op operands => exact Operands.Sayable.kept sayable
  | background halved x y => exact sayable
  | sprite halved x y zoom => exact sayable

theorem ThreadRange.encode_kept (r : ThreadRange) : r.kept.encode = r.encode := by
  by_cases empty : ThreadRange.isEmpty r.first r.last = true
  · simp [kept, encode, empty]
  · simp [kept, empty]

theorem OperandKind.encode_kept (kind : OperandKind) (value : kind.Value) :
    kind.encode (kind.kept value) = kind.encode value := by
  cases kind with
  | range => exact ThreadRange.encode_kept value
  | _ => rfl

theorem Operands.encode_kept (kinds : List OperandKind) (values : Operands kinds) :
    Operands.encode kinds (Operands.kept kinds values) = Operands.encode kinds values := by
  induction kinds with
  | nil => rfl
  | cons kind kinds ih =>
    obtain ⟨value, values⟩ := values
    show kind.encode (kind.kept value) ++ Operands.encode kinds (Operands.kept kinds values) = _
    rw [kind.encode_kept, ih]
    rfl

/-- The action of an empty range is not written, so nothing is lost when it is not read. -/
theorem Instr.encode_kept (instr : Instr) : instr.kept.encode = instr.encode := by
  cases instr with
  | table op operands => exact congrArg (op.toByte :: ·) (Operands.encode_kept op.operands operands)
  | background halved x y => rfl
  | sprite halved x y zoom => rfl

/-! ### Words -/

/-- The words of an operand. -/
def OperandKind.words : (kind : OperandKind) → kind.Value → List (List Char)
  | .condition, (c : Condition) =>
    [varText c.var, c.comparison.symbol, c.comparand.render, addressText c.target.toNat]
  | .range, (r : ThreadRange) => [byteText r.first, byteText r.last, byteText r.action]
  | kind, value => [kind.render value]

def Operands.words : (kinds : List OperandKind) → Operands kinds → List (List Char)
  | [], _ => []
  | kind :: kinds, (value, values) => kind.words value ++ Operands.words kinds values

/-- The name of an instruction. -/
def Instr.name : Instr → List Char
  | .table op _ => op.mnemonic.toList
  | .background .. => backgroundName.toList
  | .sprite .. => spriteName.toList

/-- The words behind the name of an instruction. -/
def Instr.operandWords : Instr → List (List Char)
  | .table op operands => Operands.words op.operands operands
  | .background halved x y => [addressText (halved.toNat * 2), byteText x, byteText y]
  | .sprite halved x y zoom => addressText (halved.toNat * 2) :: x.render :: y.render :: zoom.render

namespace Assembly

theorem toNat_ofInt (n : Int) : ((UInt16.ofInt n).toNat : Int) = n % 65536 := by
  have small : (n % 65536).toNat < 65536 := by omega
  show ((UInt16.ofNat (n % 65536).toNat).toNat : Int) = _
  rw [UInt16.toNat_ofNat_of_lt' small]
  omega

theorem signed_ofInt {n : Int} (fits : -0x8000 ≤ n ∧ n ≤ 0xFFFF) :
    (UInt16.ofInt n).toInt16.toInt = if n < 0x8000 then n else n - 0x10000 := by
  have bits := toNat_ofInt n
  rw [toInt_toInt16]
  split <;> split <;> omega

/-- A literal that is no small number is none either when it is taken as a signed word. -/
theorem Literal.wide {n : Literal} {most : Int} (large : ¬ (0 ≤ n.value ∧ n.value ≤ most)) :
    ¬ (0 ≤ (UInt16.ofInt n.value).toInt16.toInt ∧ (UInt16.ofInt n.value).toInt16.toInt ≤ most) := by
  have fits := n.fits
  rw [signed_ofInt fits]
  split <;> omega

theorem Scalar.sayable_comparand (x : Scalar) : x.comparand.Sayable := by
  cases x with
  | var index => trivial
  | literal n =>
    simp only [comparand]
    split
    · trivial
    · exact Literal.wide (by assumption)

theorem Scalar.sayable_horizontal (x : Scalar) : x.horizontal.Sayable := by
  cases x with
  | var index => trivial
  | literal n =>
    simp only [horizontal]
    split
    · trivial
    · split
      · trivial
      · exact Literal.wide (by omega)

theorem Scalar.sayable_vertical (x : Scalar) : x.vertical.Sayable := by
  cases x with
  | var index => trivial
  | literal n =>
    simp only [vertical]
    split
    · trivial
    · exact Literal.wide (by assumption)

/-- What is chosen for a meaning can be said. -/
theorem Meaning.sayable_instr (meaning : Meaning) : meaning.instr.Sayable := by
  cases meaning with
  | table op values plain =>
    have unconditional : .condition ∉ op.operands := by
      cases op with
      | jmpIf => exact absurd rfl plain.1
      | _ => decide
    exact Operands.sayable_of_unconditional unconditional values
  | jumpIf var comparison comparand target => exact ⟨⟨comparison.property, comparand.sayable_comparand⟩, trivial⟩
  | resetThreads first last action => exact ⟨trivial, trivial⟩
  | background offset x y =>
    have fits := offset.fits
    show UInt16.ofNat (offset.value / 2) < 0x8000
    rw [UInt16.lt_iff_toNat_lt, UInt16.toNat_ofNat_of_lt' (by show _ < 65536; omega)]
    show _ < 32768
    omega
  | sprite offset x y zoom => exact ⟨x.sayable_horizontal, y.sayable_vertical⟩

/-! ### Operands -/

theorem integer_of_integer? {token : List Char} {n : Int} (read : integer? token = some n) : integer token = .ok n := by
  rw [integer, read]

theorem toNat_fits (value : UInt8) : value.toNat < 0x8000000000000000 := by
  have := value.toNat_lt
  omega

theorem integer_byteText (value : UInt8) : integer (byteText value) = .ok (value.toNat : Int) :=
  integer_of_integer? (integer?_decimal (toNat_fits value))

theorem integer_addressText {n : Nat} (fits : n < 0x8000000000000000) : integer (addressText n) = .ok (n : Int) :=
  integer_of_integer? (integer?_addressText fits)

theorem var?_varText (index : UInt8) : var? (varText index) = some index := by
  have small := index.toNat_lt
  rw [varText, var?, integer?_decimal (toNat_fits index), Option.bind_some, if_pos (by omega), Int.toNat_natCast,
    UInt8.ofNat_toNat]

theorem var_varText (index : UInt8) : var (varText index) = .ok index := by
  rw [var, var?_varText]

theorem byte_byteText (value : UInt8) : byte (byteText value) = .ok value := by
  have small := value.toNat_lt
  simp only [byte, integer_byteText]
  rw [if_pos (by omega), Int.toNat_natCast, UInt8.ofNat_toNat]

/-- The signed number that a word is written as. -/
theorem integer?_wordText (value : UInt16) : integer? (wordText value) = some value.toInt16.toInt := by
  have small := value.toNat_lt
  refine integer?_signedDecimal ?_
  rw [toInt_toInt16]
  split <;> omega

theorem ofInt_toInt16 (value : UInt16) : UInt16.ofInt value.toInt16.toInt = value := by
  have small := value.toNat_lt
  have bits : (value.toInt16.toInt % 65536).toNat = value.toNat := by
    rw [toInt_toInt16]
    split <;> omega
  show UInt16.ofNat (value.toInt16.toInt % 65536).toNat = value
  rw [bits, UInt16.ofNat_toNat]

theorem eq_ok_of_toOption {ε α : Type} {read : Except ε α} {value : α} (found : read.toOption = some value) :
    read = .ok value := by
  rcases read with fault | other
  · cases found
  · cases found
    rfl

theorem literal?_of_integer? {token : List Char} {n : Int} (read : integer? token = some n)
    (fits : -32768 ≤ n ∧ n ≤ 65535) : literal? token = some ⟨n, fits⟩ := by
  rw [literal?, read, Option.bind_some, dif_pos fits]

theorem literal?_wordText (value : UInt16) :
    ∃ fits, literal? (wordText value) = some ⟨value.toInt16.toInt, fits⟩ := by
  have small := value.toNat_lt
  have fits : -32768 ≤ value.toInt16.toInt ∧ value.toInt16.toInt ≤ 65535 := by
    rw [toInt_toInt16]
    split <;> omega
  exact ⟨fits, literal?_of_integer? (integer?_wordText value) fits⟩

theorem word_wordText (value : UInt16) : word (wordText value) = .ok value := by
  obtain ⟨fits, read⟩ := literal?_wordText value
  apply eq_ok_of_toOption
  rw [toOption_word, read, Option.map_some, ofInt_toInt16]

theorem address_addressText (labels : Labels) (target : UInt16) :
    address labels (addressText target.toNat) = .ok target := by
  have small := target.toNat_lt
  have digit : ((addressText target.toNat).head?.map Char.isDigit).getD false = true := rfl
  rw [address, if_pos digit]
  simp only [integer_addressText (n := target.toNat) (by omega)]
  rw [if_pos (by omega), Int.toNat_natCast, UInt16.ofNat_toNat]

/-- The offset of a polygon is written whole and kept halved. -/
theorem polygonOffset_addressText {most : Nat} {halved : UInt16} (fits : halved.toNat ≤ most) :
    polygonOffset most (addressText (halved.toNat * 2)) = .ok halved := by
  have small := halved.toNat_lt
  have half : (((halved.toNat * 2 : Nat) : Int) / 2).toNat = halved.toNat := by omega
  simp only [polygonOffset, integer_addressText (n := halved.toNat * 2) (by omega)]
  rw [if_pos (by omega), half, UInt16.ofNat_toNat]

theorem comparison_symbol {c : Comparison} (known : c.isKnown = true) : comparison c.symbol = .ok c := by
  cases c with
  | unknown code => cases known
  | _ => rfl

/-- No number starts like a variable. -/
theorem head?_decimal_ne (n : Nat) : (Text.decimal n).head? ≠ some 'v' := by
  obtain ⟨c, head, digit⟩ := head?_decimal n
  rw [head]
  rintro ⟨⟩
  cases digit

theorem head?_wordText_ne (value : UInt16) : (wordText value).head? ≠ some 'v' := by
  unfold wordText Text.signedDecimal
  split
  · simp
  · exact head?_decimal_ne _

theorem scalar?_varText (index : UInt8) : scalar? (varText index) = some (.var index) := by
  rw [scalar?, var?_varText]

theorem scalar?_of_literal? {token : List Char} (number : token.head? ≠ some 'v') {n : Literal}
    (read : literal? token = some n) : scalar? token = some (.literal n) := by
  rw [scalar?, var?_of_head_ne number, read]
  rfl

theorem scalar?_decimal {n : Nat} (small : n ≤ 65535) :
    ∃ fits, scalar? (Text.decimal n) = some (.literal ⟨n, fits⟩) :=
  ⟨by omega, scalar?_of_literal? (head?_decimal_ne n) (literal?_of_integer? (integer?_decimal (by omega)) (by omega))⟩

theorem scalar?_wordText (value : UInt16) :
    ∃ fits, scalar? (wordText value) = some (.literal ⟨value.toInt16.toInt, fits⟩) := by
  obtain ⟨fits, read⟩ := literal?_wordText value
  exact ⟨fits, scalar?_of_literal? (head?_wordText_ne value) read⟩

theorem comparand_render {r : Comparand} (sayable : r.Sayable) : comparand r.render = .ok r := by
  apply eq_ok_of_toOption
  rw [toOption_comparand]
  cases r with
  | var index =>
    rw [Comparand.render, scalar?_varText]
    rfl
  | byte value =>
    have small := value.toNat_lt
    obtain ⟨fits, read⟩ := scalar?_decimal (n := value.toNat) (by omega)
    rw [Comparand.render, byteText, read, Option.map_some, Scalar.comparand]
    simp only
    rw [if_pos (by omega), Int.toNat_natCast, UInt8.ofNat_toNat]
  | word value =>
    obtain ⟨fits, read⟩ := scalar?_wordText value
    rw [Comparand.render, read, Option.map_some, Scalar.comparand]
    simp only
    rw [if_neg sayable, ofInt_toInt16]

theorem horizontal_render {x : Horizontal} (sayable : x.Sayable) : horizontal x.render = .ok x := by
  apply eq_ok_of_toOption
  rw [toOption_horizontal]
  cases x with
  | var index =>
    rw [Horizontal.render, scalar?_varText]
    rfl
  | byte value =>
    have small := value.toNat_lt
    obtain ⟨fits, read⟩ := scalar?_decimal (n := value.toNat) (by omega)
    rw [Horizontal.render, byteText, read, Option.map_some, Scalar.horizontal]
    simp only
    rw [if_pos (by omega), Int.toNat_natCast, UInt8.ofNat_toNat]
  | beyond value =>
    have small := value.toNat_lt
    have low : (((value.toNat + 256 : Nat) : Int) - 256).toNat = value.toNat := by omega
    obtain ⟨fits, read⟩ := scalar?_decimal (n := value.toNat + 256) (by omega)
    rw [Horizontal.render, read, Option.map_some, Scalar.horizontal]
    simp only
    rw [if_neg (by omega), if_pos (by omega), low, UInt8.ofNat_toNat]
  | word value =>
    have wide : ¬ (0 ≤ value.toInt16.toInt ∧ value.toInt16.toInt ≤ 511) := sayable
    obtain ⟨fits, read⟩ := scalar?_wordText value
    rw [Horizontal.render, read, Option.map_some, Scalar.horizontal]
    simp only
    rw [if_neg (by omega), if_neg (by omega), ofInt_toInt16]

theorem vertical_render {y : Vertical} (sayable : y.Sayable) : vertical y.render = .ok y := by
  apply eq_ok_of_toOption
  rw [toOption_vertical]
  cases y with
  | var index =>
    rw [Vertical.render, scalar?_varText]
    rfl
  | byte value =>
    have small := value.toNat_lt
    obtain ⟨fits, read⟩ := scalar?_decimal (n := value.toNat) (by omega)
    rw [Vertical.render, byteText, read, Option.map_some, Scalar.vertical]
    simp only
    rw [if_pos (by omega), Int.toNat_natCast, UInt8.ofNat_toNat]
  | word value =>
    obtain ⟨fits, read⟩ := scalar?_wordText value
    rw [Vertical.render, read, Option.map_some, Scalar.vertical]
    simp only
    rw [if_neg sayable, ofInt_toInt16]

theorem sprite_render {halved : UInt16} {x : Horizontal} {y : Vertical} (sayable : x.Sayable ∧ y.Sayable)
    (z : Zoom) : sprite (addressText (halved.toNat * 2) :: x.render :: y.render :: z.render) =
      .ok ⟨halved, x, y, z⟩ := by
  have offset : polygonOffset 0xFFFF (addressText (halved.toNat * 2)) = .ok halved :=
    polygonOffset_addressText (Nat.le_of_lt_succ halved.toNat_lt)
  have scaled {scale : Except SourceFault Zoom} (read : scale = .ok z) :
      spriteWith (addressText (halved.toNat * 2)) x.render y.render scale = .ok ⟨halved, x, y, z⟩ := by
    rw [spriteWith_eq, offset, horizontal_render sayable.1, vertical_render sayable.2, read]
    rfl
  cases z with
  | normal => exact scaled rfl
  | alternate => exact scaled rfl
  | var index =>
    refine scaled ?_
    have named : varText index ≠ Zoom.alternateName.toList := by
      intro same
      cases (List.cons.inj same).1
    rw [zoom, if_neg named, varOr, var_varText]
  | byte value =>
    refine scaled ?_
    have named : byteText value ≠ Zoom.alternateName.toList := by
      intro same
      have digit := isDigit_decimal value.toNat 'a' (by rw [← byteText, same]; decide)
      cases digit
    have number : (byteText value).head? ≠ some 'v' := head?_decimal_ne value.toNat
    rw [zoom, if_neg named, varOr_of_head_ne number, byte_byteText]

/-! ### Statements -/

theorem length_words (kind : OperandKind) (value : kind.Value) : (kind.words value).length = tokenCount kind := by
  cases kind <;> rfl

theorem operand_words (labels : Labels) {kind : OperandKind} {value : kind.Value} (sayable : kind.Sayable value) :
    operand labels kind (kind.words value) = .ok value := by
  cases kind with
  | var => exact var_varText value
  | byte => exact byte_byteText value
  | word => exact word_wordText value
  | address => exact address_addressText labels value
  | condition =>
    obtain ⟨known, sayable⟩ := sayable
    show condition labels (OperandKind.words .condition value) = _
    rw [condition_eq]
    show (var (varText value.var)).bind _ = _
    rw [var_varText]
    show (comparison value.comparison.symbol).bind _ = _
    rw [comparison_symbol known]
    show (comparand value.comparand.render).bind _ = _
    rw [comparand_render sayable]
    show (address labels (addressText value.target.toNat)).map _ = _
    rw [address_addressText]
    rfl
  | range =>
    show threadRange [byteText value.first, byteText value.last, byteText value.action] = _
    rw [threadRange_eq]
    show (byte (byteText value.first)).bind _ = _
    rw [byte_byteText]
    show (byte (byteText value.last)).bind _ = _
    rw [byte_byteText]
    show (byte (byteText value.action)).map _ = _
    rw [byte_byteText]
    rfl

theorem operands_words (labels : Labels) {kinds : List OperandKind} {values : Operands kinds}
    (sayable : Operands.Sayable kinds values) : operands labels kinds (Operands.words kinds values) = .ok values := by
  induction kinds with
  | nil => rfl
  | cons kind kinds ih =>
    obtain ⟨value, values⟩ := values
    have length := length_words kind value
    rw [operands_cons, Operands.words, ← length, List.take_left, List.drop_left, operand_words labels sayable.1]
    show (operands labels kinds (Operands.words kinds values)).map _ = _
    rw [ih sayable.2]
    rfl

theorem length_operands_words (kinds : List OperandKind) (values : Operands kinds) :
    (Operands.words kinds values).length = kinds.foldr (fun kind count => tokenCount kind + count) 0 := by
  induction kinds with
  | nil => rfl
  | cons kind kinds ih =>
    obtain ⟨value, values⟩ := values
    rw [Operands.words, List.length_append, length_words, ih, List.foldr_cons]

theorem ofMnemonic?_mnemonic (op : Opcode) : Opcode.ofMnemonic? op.mnemonic.toList = some op ∧
    op.mnemonic.toList ≠ Instr.backgroundName.toList ∧ op.mnemonic.toList ≠ Instr.spriteName.toList := by
  cases op <;> decide

/-- The words of an instruction that can be said are a statement of it. -/
theorem Statement.instr_words {s : Statement} {instr : Instr} (sayable : instr.Sayable) (name : s.name = instr.name)
    (operands : s.operands = instr.operandWords) (labels : Labels) : s.instr labels = .ok instr := by
  rw [instr_eq, name, operands]
  cases instr with
  | table op values =>
    obtain ⟨named, notBackground, notSprite⟩ := ofMnemonic?_mnemonic op
    have known : s.opcode = .ok op := by
      rw [opcode, name, Instr.name, named]
    have full : s.checkArity op = .ok () := by
      rw [checkArity, if_pos]
      rw [operands]
      exact length_operands_words op.operands values
    rw [Instr.name, if_neg notBackground, if_neg notSprite, known]
    show (s.checkArity op).bind _ = _
    rw [full]
    show (Assembly.operands labels op.operands (Operands.words op.operands values)).map _ = _
    rw [operands_words labels sayable]
    rfl
  | background halved x y =>
    have fits : halved.toNat ≤ 0x7FFF := Nat.le_of_lt_succ (UInt16.lt_iff_toNat_lt.mp sayable)
    rw [Instr.name, if_pos rfl, Instr.operandWords, background_eq, polygonOffset_addressText fits, byte_byteText,
      byte_byteText]
    rfl
  | sprite halved x y zoom =>
    rw [Instr.name, if_neg (by decide), if_pos rfl]
    rw [Instr.operandWords, sprite_render sayable zoom]
    rfl

/-- A statement of the table that has bytes has a size. -/
theorem Statement.size_of_table {s : Statement} {labels : Labels} {op : Opcode} {instr : Instr}
    (named : s.opcode = .ok op) (plain : s.name ≠ Instr.backgroundName.toList ∧ s.name ≠ Instr.spriteName.toList)
    (read : ((s.checkArity op).bind fun _ => (Assembly.operands labels op.operands s.operands).map (Instr.table op)) =
      .ok instr) : ∃ n, s.size = .ok n := by
  obtain ⟨_, checked, read⟩ := bind_eq_ok read
  have full := full_of_checkArity checked
  simp only [size, if_neg plain.1, if_neg plain.2, named]
  rcases fixed : op.fixedSize? with _ | n
  · simp only [checked]
    rcases fixedSize?_eq_none fixed with rfl | rfl
    · rw [operands_condition labels full] at read
      obtain ⟨c, found, _⟩ := map_eq_ok read
      rw [if_neg (by decide), (comparand_of_condition found).1]
      exact ⟨_, rfl⟩
    · rw [operands_range labels full] at read
      obtain ⟨r, found, _⟩ := map_eq_ok read
      rw [if_pos rfl, found]
      exact ⟨_, rfl⟩
  · exact ⟨n, rfl⟩

/-- A statement that has bytes has a size, which is their number. -/
theorem Statement.size_of_instr {s : Statement} {labels : Labels} {instr : Instr} (read : s.instr labels = .ok instr) :
    s.size = .ok instr.encode.length := by
  have emitted : s.emit labels = .ok instr.encode := by rw [emit, read]
  have sized : ∃ n, s.size = .ok n := by
    rw [instr_eq] at read
    by_cases isBackground : s.name = Instr.backgroundName.toList
    · exact ⟨4, by rw [size, if_pos isBackground]⟩
    · rw [if_neg isBackground] at read
      by_cases isSprite : s.name = Instr.spriteName.toList
      · rw [if_pos isSprite] at read
        obtain ⟨draw, found, _⟩ := map_eq_ok read
        exact ⟨draw.size, by rw [size, if_neg isBackground, if_pos isSprite, found]⟩
      · rw [if_neg isSprite] at read
        obtain ⟨op, named, read⟩ := bind_eq_ok read
        exact size_of_table named ⟨isBackground, isSprite⟩ read
  obtain ⟨n, same⟩ := sized
  rw [same, length_emit same emitted]

end Assembly

end Framescript
