import Framescript.Proofs.Meaning
import Framescript.Proofs.Sections

/-!
Where statements are placed. The size of a statement is known before its labels are, and it is the number of bytes
that the statement has in the end (`Statement.length_emit`). So the first pass counts the bytes in front of a label as
they will be, and an address that names the label leads to the first statement behind it (`assemble_places`).
-/
namespace Framescript

/-! ### Sizes -/

theorem OperandKind.length_encode {kind : OperandKind} {size : Nat} (fixed : kind.size? = some size)
    (value : kind.Value) : (kind.encode value).length = size := by
  cases kind with
  | condition | range => cases fixed
  | _ =>
    cases fixed
    rfl

theorem foldl_size_none (kinds : List OperandKind) :
    kinds.foldl (fun total kind => total.bind fun n => kind.size?.map (n + ·)) none = none := by
  induction kinds with
  | nil => rfl
  | cons kind kinds ih => exact ih

theorem Operands.length_encode {kinds : List OperandKind} {start size : Nat}
    (fixed : kinds.foldl (fun total kind => total.bind fun n => kind.size?.map (n + ·)) (some start) = some size)
    (values : Operands kinds) : start + (Operands.encode kinds values).length = size := by
  induction kinds generalizing start with
  | nil => exact Option.some.inj fixed
  | cons kind kinds ih =>
    obtain ⟨value, values⟩ := values
    rcases own : kind.size? with _ | n
    · simp only [List.foldl_cons, Option.bind_some, own, Option.map_none, foldl_size_none] at fixed
      cases fixed
    · simp only [List.foldl_cons, Option.bind_some, own, Option.map_some] at fixed
      have rest := ih fixed values
      rw [Operands.encode, List.length_append, OperandKind.length_encode own value]
      omega

namespace Assembly

theorem bind_eq_ok {ε α β : Type} {read : Except ε α} {next : α → Except ε β} {result : β}
    (well : read.bind next = .ok result) : ∃ value, read = .ok value ∧ next value = .ok result := by
  rcases read with fault | value
  · cases well
  · exact ⟨value, rfl, well⟩

theorem map_eq_ok {ε α β : Type} {read : Except ε α} {make : α → β} {result : β}
    (well : read.map make = .ok result) : ∃ value, read = .ok value ∧ result = make value := by
  rcases read with fault | value
  · cases well
  · cases well
    exact ⟨value, rfl, rfl⟩

theorem fixedSize?_eq_none {op : Opcode} (varies : op.fixedSize? = none) : op = .jmpIf ∨ op = .resetThreads := by
  revert varies
  cases op <;> decide

theorem length_jumpInstr (c : Condition) : (jumpInstr c).encode.length = 5 + comparandSize c.comparand := by
  have own : c.comparand.encode.length = comparandSize c.comparand := by
    cases c.comparand <;> rfl
  show (Opcode.jmpIf.toByte :: (c.encode ++ [])).length = _
  simp only [Condition.encode, Bytes.bigWord, List.length_cons, List.length_append, List.length_nil, own]
  omega

theorem length_resetInstr (r : ThreadRange) : (resetInstr r).encode.length = 1 + ThreadRange.size r.first r.last := by
  show (Opcode.resetThreads.toByte :: (r.encode ++ [])).length = _
  unfold ThreadRange.encode ThreadRange.size
  split <;> rfl

theorem length_sprite (s : Sprite) : s.instr.encode.length = s.size := by
  have x : s.x.encode.length = horizontalSize s.x := by
    cases s.x <;> rfl
  have y : s.y.encode.length = verticalSize s.y := by
    cases s.y <;> rfl
  have zoom : s.zoom.encode.length = zoomSize s.zoom := by
    cases s.zoom <;> rfl
  simp only [Sprite.instr, Instr.encode, Sprite.size, Bytes.bigWord, List.length_cons, List.length_append,
    List.length_nil, x, y, zoom]
  omega

theorem length_background {tokens : List (List Char)} {instr : Instr} (read : background tokens = .ok instr) :
    instr.encode.length = 4 := by
  revert read
  fun_cases background tokens <;> intro read <;> cases read
  rfl

theorem comparand_of_condition {labels : Labels} {tokens : List (List Char)} {c : Condition}
    (read : condition labels tokens = .ok c) :
    comparand (tokens.getD 2 []) = .ok c.comparand ∧ address labels (tokens.getD 3 []) = .ok c.target := by
  rw [condition_eq] at read
  obtain ⟨v, _, read⟩ := bind_eq_ok read
  obtain ⟨relation, _, read⟩ := bind_eq_ok read
  obtain ⟨r, compared, read⟩ := bind_eq_ok read
  obtain ⟨target, reached, rfl⟩ := map_eq_ok read
  exact ⟨compared, reached⟩

namespace Statement

theorem instr_of_emit {s : Statement} {labels : Labels} {bytes : Bytes} (emitted : s.emit labels = .ok bytes) :
    ∃ instr, s.instr labels = .ok instr ∧ bytes = instr.encode := by
  unfold emit at emitted
  split at emitted
  · cases emitted
  · rename_i instr read
    cases emitted
    exact ⟨instr, read, rfl⟩

theorem full_of_checkArity {s : Statement} {op : Opcode} {done : Unit} (checked : s.checkArity op = .ok done) :
    s.operands.length = arity op := by
  unfold checkArity at checked
  split at checked
  · assumption
  · cases checked

/-- What the first pass takes for the size of a statement of the table is its size. -/
theorem length_table {s : Statement} {labels : Labels} {op : Opcode} {n : Nat} {instr : Instr}
    (named : s.opcode = .ok op) (plain : s.name ≠ Instr.backgroundName.toList ∧ s.name ≠ Instr.spriteName.toList)
    (sized : s.size = .ok n)
    (read : ((s.checkArity op).bind fun _ => (Assembly.operands labels op.operands s.operands).map (Instr.table op)) =
      .ok instr) : instr.encode.length = n := by
  obtain ⟨_, checked, read⟩ := bind_eq_ok read
  have full := full_of_checkArity checked
  simp only [size, if_neg plain.1, if_neg plain.2, named] at sized
  rcases fixed : op.fixedSize? with _ | m
  · simp only [fixed, checked] at sized
    rcases fixedSize?_eq_none fixed with rfl | rfl
    · rw [operands_condition labels full] at read
      obtain ⟨c, found, rfl⟩ := map_eq_ok read
      rw [if_neg (by decide), (comparand_of_condition found).1] at sized
      cases sized
      exact length_jumpInstr c
    · rw [operands_range labels full] at read
      obtain ⟨r, found, rfl⟩ := map_eq_ok read
      rw [if_pos rfl, found] at sized
      cases sized
      exact length_resetInstr r
  · simp only [fixed] at sized
    cases sized
    obtain ⟨values, _, rfl⟩ := map_eq_ok read
    show (Operands.encode op.operands values).length + 1 = n
    rw [Nat.add_comm]
    exact Operands.length_encode fixed values

/-- A statement has as many bytes as the first pass takes it to have. -/
theorem length_emit {s : Statement} {labels : Labels} {n : Nat} {bytes : Bytes} (sized : s.size = .ok n)
    (emitted : s.emit labels = .ok bytes) : bytes.length = n := by
  obtain ⟨instr, read, rfl⟩ := instr_of_emit emitted
  rw [instr_eq] at read
  by_cases isBackground : s.name = Instr.backgroundName.toList
  · rw [if_pos isBackground] at read
    rw [size, if_pos isBackground] at sized
    cases sized
    exact length_background read
  · rw [if_neg isBackground] at read
    by_cases isSprite : s.name = Instr.spriteName.toList
    · rw [if_pos isSprite] at read
      obtain ⟨draw, found, rfl⟩ := map_eq_ok read
      rw [size, if_neg isBackground, if_pos isSprite, found] at sized
      cases sized
      exact length_sprite draw
    · rw [if_neg isSprite] at read
      obtain ⟨op, named, read⟩ := bind_eq_ok read
      exact length_table named ⟨isBackground, isSprite⟩ sized read

end Statement

/-! ### Addresses -/

/-- Where an address stands among the operands. -/
def addressIndex? : Opcode → Option Nat
  | .jmp | .call => some 0
  | .djnz | .setVec => some 1
  | .jmpIf => some 3
  | _ => none

/-- The address that a statement names. -/
def Statement.target? (s : Statement) : Option (List Char) :=
  (Opcode.ofMnemonic? s.name).bind fun op => (addressIndex? op).bind fun index => s.operands[index]?

theorem encode_ends {kinds : List OperandKind} (plain : ∀ kind ∈ kinds, tokenCount kind = 1)
    (last : kinds.getLast? = some .address) {labels : Labels} {tokens : List (List Char)} {values : Operands kinds}
    (read : operands labels kinds tokens = .ok values) :
    ∃ front offset, address labels (tokens.getD (kinds.length - 1) []) = .ok offset ∧
      Operands.encode kinds values = front ++ Bytes.bigWord offset := by
  induction kinds generalizing tokens with
  | nil => cases last
  | cons kind kinds ih =>
    obtain ⟨here, there⟩ := List.forall_mem_cons.mp plain
    rw [operands_cons, here] at read
    obtain ⟨value, reached, read⟩ := bind_eq_ok read
    obtain ⟨values, found, rfl⟩ := map_eq_ok read
    cases kinds with
    | nil =>
      cases last
      refine ⟨[], value, ?_, List.append_nil _⟩
      cases tokens <;> exact reached
    | cons next kinds =>
      obtain ⟨front, offset, reached, ends⟩ := ih there last found
      refine ⟨kind.encode value ++ front, offset, ?_, ?_⟩
      · rw [← reached]
        cases tokens <;> rfl
      · rw [Operands.encode, ends, List.append_assoc]

theorem table_ends {op : Opcode} {index : Nat} (addressed : addressIndex? op = some index) {labels : Labels}
    {tokens : List (List Char)} (full : tokens.length = arity op) {instr : Instr}
    (read : (operands labels op.operands tokens).map (Instr.table op) = .ok instr) :
    ∃ front offset, address labels (tokens.getD index []) = .ok offset ∧
      instr.encode = front ++ Bytes.bigWord offset := by
  have plain (last : op.operands.getLast? = some .address) (single : ∀ kind ∈ op.operands, tokenCount kind = 1)
      (same : index = op.operands.length - 1) :
      ∃ front offset, address labels (tokens.getD index []) = .ok offset ∧
        instr.encode = front ++ Bytes.bigWord offset := by
    obtain ⟨values, found, rfl⟩ := map_eq_ok read
    obtain ⟨front, offset, reached, ends⟩ := encode_ends single last found
    rw [← same] at reached
    exact ⟨op.toByte :: front, offset, reached, congrArg (op.toByte :: ·) ends⟩
  cases op with
  | jmp | call | djnz | setVec =>
    cases addressed
    exact plain rfl (by decide) rfl
  | jmpIf =>
    cases addressed
    rw [operands_condition labels full] at read
    obtain ⟨c, found, rfl⟩ := map_eq_ok read
    refine ⟨[Opcode.jmpIf.toByte, c.comparand.flags ||| c.comparison.code, c.var] ++ c.comparand.encode, c.target,
      (comparand_of_condition found).2, ?_⟩
    show Opcode.jmpIf.toByte :: (c.encode ++ []) = _
    rw [List.append_nil]
    rfl
  | _ => cases addressed

/-- A statement that names an address ends in its offset. -/
theorem Statement.address_of_emit {s : Statement} {labels : Labels} {bytes : Bytes} (emitted : s.emit labels = .ok bytes)
    {name : List Char} (named : s.target? = some name) :
    ∃ front offset, address labels name = .ok offset ∧ bytes = front ++ Bytes.bigWord offset := by
  obtain ⟨instr, read, rfl⟩ := instr_of_emit emitted
  obtain ⟨op, found, named⟩ := Option.bind_eq_some_iff.mp named
  obtain ⟨index, addressed, token⟩ := Option.bind_eq_some_iff.mp named
  have notBackground : s.name ≠ Instr.backgroundName.toList := by
    rintro same
    rw [same] at found
    cases found
  have notSprite : s.name ≠ Instr.spriteName.toList := by
    rintro same
    rw [same] at found
    cases found
  have known : s.opcode = .ok op := by rw [opcode, found]
  rw [instr_eq, if_neg notBackground, if_neg notSprite, known] at read
  obtain ⟨_, checked, read⟩ := bind_eq_ok (show ((s.checkArity op).bind _) = _ from read)
  obtain ⟨front, target, reached, ends⟩ := table_ends addressed (full_of_checkArity checked) read
  rw [List.getD_eq_getElem?_getD, token, Option.getD_some] at reached
  exact ⟨front, target, reached, ends⟩

/-- A statement that names a label ends in the offset of the label. -/
theorem Statement.emit_ends {s : Statement} {labels : Labels} {bytes : Bytes} (emitted : s.emit labels = .ok bytes)
    {name : List Char} (named : s.target? = some name) (label : (name.head?.map Char.isDigit).getD false = false)
    {offset : UInt16} (defined : labels.lookup name = some offset) :
    ∃ front, bytes = front ++ Bytes.bigWord offset := by
  obtain ⟨front, target, reached, ends⟩ := address_of_emit emitted named
  have resolved : address labels name = .ok offset := by
    rw [address, label, if_neg (by decide), defined]
  cases resolved.symm.trans reached
  exact ⟨front, ends⟩

/-! ### The first pass -/

namespace Line

/-- The label that a line defines. -/
def label? (line : Line) : Option (List Char) :=
  line.tokens.head?.bind Assembly.label?

/-- The words of a line behind its label. -/
def words (line : Line) : List Token :=
  line.label?.elim line.tokens fun _ => line.tokens.tail

/-- The statement of a line. -/
def statement? (line : Line) : Option Statement :=
  match line.words with
  | [] => none
  | name :: operands => some ⟨line.number, name.column, name.text, operands.map (·.text)⟩

/-- The size that the first pass takes a line to have. -/
def size (line : Line) : Nat :=
  (line.statement?.bind fun s => s.size.toOption).getD 0

/-- The bytes that the second pass makes of a line. -/
def bytes (labels : Labels) (line : Line) : Bytes :=
  (line.statement?.bind fun s => (s.emit labels).toOption).getD []

def sizeAll (lines : List Line) : Nat :=
  lines.foldr (fun line total => line.size + total) 0

end Line

namespace Section

/-- What a line adds to a section. -/
structure Adds (s : Section) (line : Line) (after : Section) : Prop where
  id : after.id = s.id
  statements : after.statements = line.statement?.toList ++ s.statements
  size : after.size = s.size + line.size
  sized : ∀ statement, line.statement? = some statement → statement.size = .ok line.size
  labels : after.labels = (line.label?.map (·, UInt16.ofNat s.size)).toList ++ s.labels
  fresh : ∀ name, line.label? = some name → s.labels.lookup name = none ∧ s.size < 0x10000

theorem addStatement_cases {s after : Section} {number : Nat} {words : List Token}
    (added : s.addStatement number words = .ok after) :
    (words = [] ∧ after = s) ∨
    ∃ name operands n, words = name :: operands ∧
      (⟨number, name.column, name.text, operands.map (·.text)⟩ : Statement).size = .ok n ∧
      after = { s with
        statements := ⟨number, name.column, name.text, operands.map (·.text)⟩ :: s.statements, size := s.size + n } := by
  cases words with
  | nil =>
    cases added
    exact .inl ⟨rfl, rfl⟩
  | cons name operands =>
    simp only [addStatement] at added
    split at added
    · cases added
    · rename_i n sized
      cases added
      exact .inr ⟨name, operands, n, rfl, sized, rfl⟩

/-- The statement of a line is added behind its label. -/
theorem addLine_cases {s after : Section} {line : Line} (added : s.addLine line.number line.tokens = .ok after) :
    (line.label? = none ∧ s.addStatement line.number line.words = .ok after) ∨
    ∃ name, line.label? = some name ∧ s.labels.lookup name = none ∧ s.size < 0x10000 ∧
      { s with labels := (name, UInt16.ofNat s.size) :: s.labels }.addStatement line.number line.words = .ok after := by
  unfold addLine at added
  unfold Line.words Line.label?
  generalize line.tokens = tokens at added ⊢
  rcases tokens with _ | ⟨first, rest⟩
  · exact .inl ⟨rfl, added⟩
  · simp only [List.head?_cons, Option.bind_some, List.tail_cons]
    rcases label : Assembly.label? first with _ | name
    · simp only [label] at added
      exact .inl ⟨rfl, added⟩
    · simp only [label, addLabel] at added
      by_cases taken : (s.labels.lookup name).isSome = true
      · rw [if_pos taken] at added
        cases added
      · rw [if_neg taken] at added
        by_cases small : s.size < 0x10000
        · rw [if_pos small] at added
          exact .inr ⟨name, rfl, Option.not_isSome_iff_eq_none.mp taken, small, added⟩
        · rw [if_neg small] at added
          cases added

theorem adds_of_addLine {s after : Section} {line : Line} (added : s.addLine line.number line.tokens = .ok after) :
    Adds s line after := by
  have stated {t : Section} (same : t.addStatement line.number line.words = .ok after) :
      after.id = t.id ∧ after.statements = line.statement?.toList ++ t.statements ∧ after.size = t.size + line.size ∧
      (∀ statement, line.statement? = some statement → statement.size = .ok line.size) ∧ after.labels = t.labels := by
    rcases addStatement_cases same with ⟨silent, rfl⟩ | ⟨name, operands, n, words, sized, rfl⟩
    · simp [Line.size, Line.statement?, silent]
    · simp [Line.size, Line.statement?, words, sized, Except.toOption]
  rcases addLine_cases added with ⟨unlabelled, same⟩ | ⟨name, labelled, fresh, small, same⟩
  · obtain ⟨id, statements, size, sized, labels⟩ := stated same
    refine ⟨id, statements, size, sized, ?_, ?_⟩
    · rw [labels, unlabelled]
      rfl
    · intro name labelled
      rw [unlabelled] at labelled
      cases labelled
  · obtain ⟨id, statements, size, sized, labels⟩ := stated same
    refine ⟨id, statements, size, sized, ?_, ?_⟩
    · rw [labels, labelled]
      rfl
    · intro other labelled'
      cases labelled.symm.trans labelled'
      exact ⟨fresh, small⟩

/-- What lines add to a section, one after the other. -/
theorem addAll_adds {s after : Section} {lines : List Line} (added : s.addAll lines = .ok after) :
    after.id = s.id ∧ after.statements = (lines.filterMap Line.statement?).reverse ++ s.statements ∧
      after.size = s.size + Line.sizeAll lines ∧
      ∀ line ∈ lines, ∀ statement, line.statement? = some statement → statement.size = .ok line.size := by
  induction lines generalizing s with
  | nil =>
    cases added
    simp [Line.sizeAll]
  | cons line lines ih =>
    obtain ⟨middle, here, there⟩ := addAll_cons added
    have adds := adds_of_addLine here
    obtain ⟨id, statements, size, sized⟩ := ih there
    refine ⟨id.trans adds.id, ?_, ?_, ?_⟩
    · rw [statements, adds.statements]
      rcases own : line.statement? with _ | statement <;> simp [own]
    · rw [size, adds.size]
      exact Nat.add_assoc _ _ _
    · intro other member
      rcases List.mem_cons.mp member with rfl | member
      · exact adds.sized
      · exact sized other member

/-- A label stays where it is, since no line defines it again. -/
theorem lookup_addAll {s after : Section} {lines : List Line} (added : s.addAll lines = .ok after) {name : List Char}
    {offset : UInt16} (defined : s.labels.lookup name = some offset) : after.labels.lookup name = some offset := by
  induction lines generalizing s with
  | nil =>
    cases added
    exact defined
  | cons line lines ih =>
    obtain ⟨middle, here, there⟩ := addAll_cons added
    have adds := adds_of_addLine here
    refine ih there ?_
    rw [adds.labels]
    rcases labelled : line.label? with _ | other
    · exact defined
    · have unlike : name ≠ other := by
        rintro rfl
        rw [(adds.fresh _ labelled).1] at defined
        cases defined
      rw [Option.map_some, Option.toList_some, List.singleton_append, List.lookup_cons,
        beq_false_of_ne unlike]
      exact defined

theorem addAll_append {s after : Section} {before lines : List Line} (added : s.addAll (before ++ lines) = .ok after) :
    ∃ middle, s.addAll before = .ok middle ∧ middle.addAll lines = .ok after := by
  induction before generalizing s with
  | nil => exact ⟨s, rfl, added⟩
  | cons line before ih =>
    obtain ⟨next, here, there⟩ := addAll_cons added
    obtain ⟨middle, first, second⟩ := ih there
    refine ⟨middle, ?_, second⟩
    rw [addAll, here]
    exact first

/-- A label has the offset that the lines in front of it add up to. -/
theorem lookup_label {s after : Section} {before lines : List Line} {line : Line}
    (added : s.addAll (before ++ line :: lines) = .ok after) {name : List Char} (labelled : line.label? = some name) :
    ∃ offset : UInt16, offset.toNat = s.size + Line.sizeAll before ∧ after.labels.lookup name = some offset := by
  obtain ⟨middle, first, second⟩ := addAll_append added
  obtain ⟨next, here, there⟩ := addAll_cons second
  have adds := adds_of_addLine here
  obtain ⟨_, _, size, _⟩ := addAll_adds first
  have small := (adds.fresh name labelled).2
  refine ⟨UInt16.ofNat middle.size, ?_, lookup_addAll there ?_⟩
  · rw [UInt16.toNat_ofNat_of_lt' small, size]
  · rw [adds.labels, labelled, Option.map_some, Option.toList_some, List.singleton_append, List.lookup_cons,
      beq_self_eq_true]

end Section

/-! ### The second pass -/

theorem emitAll_emits {labels : Labels} {done code : Code} {statements : List Statement}
    (emitted : emitAll labels done statements = .ok code) :
    (∀ s ∈ statements, ∃ bytes, s.emit labels = .ok bytes) ∧
      code.toList = done.toList ++ statements.flatMap fun s => (s.emit labels).toOption.getD [] := by
  induction statements generalizing done with
  | nil =>
    cases emitted
    simp
  | cons s statements ih =>
    rw [emitAll] at emitted
    split at emitted
    · cases emitted
    · rename_i bytes own
      obtain ⟨each, whole⟩ := ih emitted
      refine ⟨?_, ?_⟩
      · intro other member
        rcases List.mem_cons.mp member with rfl | member
        · exact ⟨bytes, own⟩
        · exact each other member
      · rw [whole, List.flatMap_cons, own]
        simp [Except.toOption]

theorem flatMap_statements (labels : Labels) (lines : List Line) :
    (lines.filterMap Line.statement?).flatMap (fun s => (s.emit labels).toOption.getD []) =
      lines.flatMap (·.bytes labels) := by
  induction lines with
  | nil => rfl
  | cons line lines ih =>
    rw [List.flatMap_cons, ← ih, Line.bytes]
    rcases own : line.statement? with _ | s <;> simp [own]

/-- Lines begin at an offset of some code if the lines before them fill the code up to there. -/
structure BeginAt (labels : Labels) (code : Code) (before lines : List Line) (offset : Nat) : Prop where
  counted : offset = (before.flatMap (·.bytes labels)).length
  onward : code.toList.drop offset = lines.flatMap (·.bytes labels)
  /-- The first statement of the lines begins there. -/
  first : ∀ silent next rest, lines = silent ++ next :: rest → (∀ line ∈ silent, line.statement? = none) →
    code.toList.drop offset = next.bytes labels ++ rest.flatMap (·.bytes labels)
  /-- Where they have none the code ends. -/
  last : (∀ line ∈ lines, line.statement? = none) → offset = code.size

/-- The code of a part has the statements of the lines of the part where they belong. -/
structure Placed (labels : Labels) (lines : List Line) (code : Code) : Prop where
  /-- Each statement has bytes, as many as the first pass takes it to have. -/
  sizes : ∀ line ∈ lines, ∀ s, line.statement? = some s →
    s.size = .ok (line.bytes labels).length ∧ s.emit labels = .ok (line.bytes labels)
  whole : code.toList = lines.flatMap (·.bytes labels)
  total : code.size = Line.sizeAll lines
  /-- A label is the offset at which the lines from its own on begin, and addresses that name it lead there. -/
  resolved : ∀ before line after name, lines = before ++ line :: after → line.label? = some name →
    (name.head?.map Char.isDigit).getD false = false →
    ∃ offset : UInt16, BeginAt labels code before (line :: after) offset.toNat ∧
      ∀ other ∈ lines, ∀ s, other.statement? = some s → s.target? = some name →
        ∃ front, other.bytes labels = front ++ Bytes.bigWord offset

theorem bytes_of_silent {lines : List Line} (silent : ∀ line ∈ lines, line.statement? = none) (labels : Labels) :
    lines.flatMap (·.bytes labels) = [] := by
  rw [List.flatMap_eq_nil_iff]
  intro line member
  simp [Line.bytes, silent line member]

theorem beginAt_of_split {labels : Labels} {code : Code} {before lines : List Line}
    (whole : code.toList = (before ++ lines).flatMap (·.bytes labels)) {offset : Nat}
    (counted : offset = (before.flatMap (·.bytes labels)).length) : BeginAt labels code before lines offset := by
  rw [List.flatMap_append] at whole
  have onward : code.toList.drop offset = lines.flatMap (·.bytes labels) := by
    rw [whole, counted]
    exact List.drop_left
  refine ⟨counted, onward, ?_, ?_⟩
  · rintro silent next rest rfl none
    rw [onward, List.flatMap_append, bytes_of_silent none, List.nil_append, List.flatMap_cons]
  · intro none
    have size : code.size = code.toList.length := rfl
    rw [size, whole, bytes_of_silent none, List.append_nil, counted]

theorem length_lines {labels : Labels} {lines : List Line}
    (exact : ∀ line ∈ lines, (line.bytes labels).length = line.size) :
    (lines.flatMap (·.bytes labels)).length = Line.sizeAll lines := by
  induction lines with
  | nil => rfl
  | cons line lines ih =>
    obtain ⟨here, there⟩ := List.forall_mem_cons.mp exact
    rw [List.flatMap_cons, List.length_append, here, ih there]
    rfl

/-- The sections of the first pass become code in which everything is where the first pass takes it to be. -/
theorem placed_of_built {block : UInt16 × List Line} {s : Section} {part : Part} (built : Built block s)
    (emitted : s.emit = .ok part) : part.id = block.1 ∧ Placed s.labels block.2 part.code := by
  obtain ⟨id, statements, _, sized⟩ := Section.addAll_adds built
  have inOrder : s.statements.reverse = block.2.filterMap Line.statement? := by
    rw [statements]
    simp
  unfold Section.emit at emitted
  split at emitted
  · cases emitted
  rename_i code made
  cases emitted
  rw [inOrder] at made
  obtain ⟨each, whole⟩ := emitAll_emits made
  rw [flatMap_statements] at whole
  have own (line : Line) (member : line ∈ block.2) (statement : Statement) (stated : line.statement? = some statement) :
      statement.size = .ok line.size ∧ statement.emit s.labels = .ok (line.bytes s.labels) := by
    obtain ⟨bytes, known⟩ := each statement (List.mem_filterMap.mpr ⟨line, member, stated⟩)
    refine ⟨sized line member statement stated, ?_⟩
    simp [Line.bytes, stated, known, Except.toOption]
  have exact (line : Line) (member : line ∈ block.2) : (line.bytes s.labels).length = line.size := by
    rcases stated : line.statement? with _ | statement
    · simp [Line.bytes, Line.size, stated]
    · obtain ⟨size, known⟩ := own line member statement stated
      exact Statement.length_emit size known
  refine ⟨id, ?_, ?_, ?_, ?_⟩
  · intro line member statement stated
    rw [exact line member]
    exact own line member statement stated
  · exact whole
  · rw [← length_lines exact]
    exact congrArg List.length whole
  · intro before line after name split labelled letter
    have laid : ({ id := block.1 } : Section).addAll (before ++ line :: after) = .ok s := by
      rw [← split]
      exact built
    obtain ⟨offset, place, defined⟩ := Section.lookup_label laid labelled
    have front : (before.flatMap (·.bytes s.labels)).length = Line.sizeAll before := by
      apply length_lines
      intro line member
      exact exact line (by simp [split, member])
    have counted : offset.toNat = (before.flatMap (·.bytes s.labels)).length := by
      rw [front, place]
      exact Nat.zero_add _
    refine ⟨offset, beginAt_of_split (split ▸ whole) counted, ?_⟩
    intro other member statement stated named
    exact Statement.emit_ends (own other member statement stated).2 named letter defined

theorem emitSections_places {blocks : List (UInt16 × List Line)} {sections : List Section}
    (built : List.Forall₂ Built blocks sections) {done : List Part} {program : Program}
    (emitted : emitSections done sections = .ok program) :
    ∃ parts, program.parts = done.reverse ++ parts ∧
      List.Forall₂ (fun block part => part.id = block.1 ∧ ∃ labels, Placed labels block.2 part.code) blocks parts := by
  induction built generalizing done with
  | nil =>
    cases emitted
    exact ⟨[], by simp, .nil⟩
  | cons first _ ih =>
    rw [emitSections] at emitted
    split at emitted
    · cases emitted
    · rename_i part own
      obtain ⟨parts, order, others⟩ := ih emitted
      obtain ⟨id, placed⟩ := placed_of_built first own
      exact ⟨part :: parts, by simp [order], .cons ⟨id, _, placed⟩ others⟩

/-- A source text that is accepted becomes one part for each of its sections, and in each of them the two passes agree:
    every statement has the size that the first pass takes it to have, the code is the statements in order, and an
    address that names a label is the offset of the first statement behind that label. -/
theorem assemble_places {source : String} {program : Program} (accepted : assemble source = .ok program) :
    List.Forall₂ (fun block part => part.id = block.1 ∧ ∃ labels, Placed labels block.2 part.code)
      (sectionsOf (Line.ofSource source)) program.parts := by
  unfold assemble at accepted
  split at accepted
  · cases accepted
  · rename_i sections laid
    obtain ⟨parts, order, placed⟩ := emitSections_places (Layout.ofSource_built laid) accepted
    rw [order]
    exact placed

/-- A part whose labels are used on both sides of their lines, one of them at the end of the code, and another part. -/
theorem assemble_places_twoParts :
    let source := "loop: SET v1, 3\n  DJNZ v1, loop\n  JMP_IF v2 >= 300, end\n  JMP loop # again\nend:\n[part 0x3E81]\n" ++
      "  CALL far\nfar: KILL\n"
    let program : Program := ⟨[
      ⟨0x3E80, #[0x00, 1, 0, 3, 0x09, 1, 0, 0, 0x0A, 0x43, 2, 1, 44, 0, 18, 0x07, 0, 0]⟩,
      ⟨0x3E81, #[0x04, 0, 3, 0x11]⟩]⟩
    assemble source = .ok program ∧
      List.Forall₂ (fun block part => part.id = block.1 ∧ ∃ labels, Placed labels block.2 part.code)
        (sectionsOf (Line.ofSource source)) program.parts := by
  intro source program
  have accepted : assemble source = .ok program := by decide +kernel
  exact ⟨accepted, assemble_places accepted⟩

end Assembly

end Framescript
