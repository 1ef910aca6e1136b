import Framescript.Listing
import Framescript.Proofs.Boundaries
import Framescript.Proofs.Readback

/-!
A listing assembles to the code that it lists. The text of an instruction spells the words of a statement of it
(`Instr.spells_render`), so the lines of a listing lay out as its instructions (`assemble_source`). The code of a part is
instructions that a statement can say, one after the other, and a listing finds each of them (`ofCode_encode`), so that
disassembling undoes assembling (`assemble_source_ofCode`).
-/
namespace Framescript

/-! ### Words of a line -/

namespace Text

/-- The words of a text, if `word` is read of the first one, in reverse. -/
def wordsFrom (separates : Char → Bool) (word : List Char) : List Char → List (List Char)
  | [] => if word.isEmpty then [] else [word.reverse]
  | c :: cs =>
    if separates c then (if word.isEmpty then [] else [word.reverse]) ++ wordsFrom separates [] cs
    else wordsFrom separates (c :: word) cs

/-- The words of a text. -/
def words (separates : Char → Bool) (cs : List Char) : List (List Char) :=
  wordsFrom separates [] cs

variable {separates : Char → Bool}

/-- A text is cut in two at a separator. -/
theorem wordsFrom_separator {c : Char} (cuts : separates c = true) (word front back : List Char) :
    wordsFrom separates word (front ++ c :: back) = wordsFrom separates word front ++ words separates back := by
  induction front generalizing word with
  | nil => simp [wordsFrom, words, cuts]
  | cons d front ih =>
    rw [List.cons_append, wordsFrom, wordsFrom]
    split
    · rw [ih, List.append_assoc]
    · exact ih _

theorem words_gap {gap : List Char} (cuts : ∀ c ∈ gap, separates c = true) (some : gap ≠ []) (front back : List Char) :
    words separates (front ++ gap ++ back) = words separates front ++ words separates back := by
  induction gap generalizing front with
  | nil => exact absurd rfl some
  | cons c gap ih =>
    obtain ⟨here, there⟩ := List.forall_mem_cons.mp cuts
    have first : words separates (front ++ c :: (gap ++ back)) = words separates front ++ words separates (gap ++ back) :=
      wordsFrom_separator here [] front (gap ++ back)
    rw [List.append_assoc, List.cons_append, first]
    cases gap with
    | nil => rfl
    | cons d gap => exact congrArg (words separates front ++ ·) (ih there (by simp) [])

theorem wordsFrom_plain {text : List Char} (plain : ∀ c ∈ text, separates c = false) (word : List Char) :
    wordsFrom separates word text = if (text.reverse ++ word).isEmpty then [] else [word.reverse ++ text] := by
  induction text generalizing word with
  | nil => simp [wordsFrom]
  | cons c text ih =>
    obtain ⟨here, there⟩ := List.forall_mem_cons.mp plain
    rw [wordsFrom, here, if_neg (by decide), ih there]
    simp

end Text

namespace Assembly.Token

theorem map_text_scanFrom (separates : Char → Bool) (column : Nat) (word : List Char) (start : Nat) (done : List Token)
    (cs : List Char) : (scanFrom separates column word start done cs).map Token.text =
      (done.map Token.text).reverse ++ Text.wordsFrom separates word cs := by
  have closed (start : Nat) (word : List Char) (done : List Token) : ((close word start done).map Token.text).reverse =
      (done.map Token.text).reverse ++ if word.isEmpty then [] else [word.reverse] := by
    unfold close
    split <;> simp
  induction cs generalizing column word start done with
  | nil => rw [scanFrom, List.map_reverse, closed, Text.wordsFrom]
  | cons c cs ih =>
    rw [scanFrom, Text.wordsFrom]
    split
    · rw [ih, closed, List.append_assoc]
    · exact ih _ _ _ _

theorem map_text_scan (separates : Char → Bool) (cs : List Char) :
    (scan separates cs).map Token.text = Text.words separates cs :=
  map_text_scanFrom separates 1 [] 1 [] cs

/-- The characters of words that are neither in a comment nor in a label or a marker. -/
def isPlain (c : Char) : Bool :=
  !separator c && c ≠ '#' && c ≠ ':' && c ≠ '['

end Assembly.Token

open Assembly (Token)

/-- A text spells words if these are its words and nothing else is in it but commas and blanks. -/
structure Spells (text : List Char) (words : List (List Char)) : Prop where
  words : Text.words Token.separator text = words
  plain : ∀ c ∈ text, (Token.isPlain c || c = ',' || c = ' ') = true

/-- A text of plain characters, and of one at least. -/
def IsWord (text : List Char) : Prop :=
  text ≠ [] ∧ ∀ c ∈ text, Token.isPlain c = true

namespace Spells

theorem nil : Spells [] [] :=
  ⟨rfl, nofun⟩

theorem word {text : List Char} (isWord : IsWord text) : Spells text [text] := by
  obtain ⟨some, plain⟩ := isWord
  have unseparated : ∀ c ∈ text, Token.separator c = false := by
    intro c member
    have := plain c member
    simp only [Token.isPlain, Bool.and_eq_true, Bool.not_eq_true'] at this
    exact this.1.1.1
  refine ⟨?_, fun c member => by simp [plain c member]⟩
  rw [Text.words, Text.wordsFrom_plain unseparated]
  simp [some]

/-- The words of texts with a gap between them are the words of the one and then of the other. -/
theorem join {front back : List Char} {first second : List (List Char)} (here : Spells front first)
    (there : Spells back second) (gap : List Char) (cuts : ∀ c ∈ gap, c = ',' ∨ c = ' ') (some : gap ≠ []) :
    Spells (front ++ gap ++ back) (first ++ second) := by
  refine ⟨?_, ?_⟩
  · rw [Text.words_gap (fun c member => ?_) some, here.words, there.words]
    rcases cuts c member with rfl | rfl <;> rfl
  · intro c member
    rcases List.mem_append.mp member with before | behind
    · rcases List.mem_append.mp before with inFront | between
      · exact here.plain c inFront
      · rcases cuts c between with rfl | rfl <;> rfl
    · exact there.plain c behind

theorem intercalate {gap : List Char} (cuts : ∀ c ∈ gap, c = ',' ∨ c = ' ') (some : gap ≠ [])
    {texts : List (List Char)} {words : List (List (List Char))} (each : List.Forall₂ Spells texts words) :
    Spells (List.intercalate gap texts) words.flatten := by
  induction each with
  | nil => exact nil
  | cons here later ih =>
    cases later with
    | nil => simpa using here
    | cons next others =>
      rw [List.intercalate_cons_cons, List.flatten_cons]
      exact here.join ih gap cuts some

theorem commaSeparated {texts : List (List Char)} {words : List (List (List Char))}
    (each : List.Forall₂ Spells texts words) : Spells (commaSeparated texts) words.flatten :=
  intercalate (by simp) (by simp) each

end Spells

/-! ### Words of an instruction -/

theorem isWord_of_all {text : List Char} (some : text ≠ []) (plain : text.all Token.isPlain = true) : IsWord text :=
  ⟨some, List.all_eq_true.mp plain⟩

theorem isWord_decimal (n : Nat) : IsWord (Text.decimal n) :=
  ⟨Text.decimal_ne_nil n, Text.mem_decimal (by decide) n⟩

theorem isWord_cons {c : Char} {text : List Char} (plain : Token.isPlain c = true)
    (rest : ∀ c ∈ text, Token.isPlain c = true) : IsWord (c :: text) :=
  ⟨by simp, List.forall_mem_cons.mpr ⟨plain, rest⟩⟩

theorem isWord_varText (index : UInt8) : IsWord (varText index) :=
  isWord_cons rfl (isWord_decimal _).2

theorem isWord_wordText (value : UInt16) : IsWord (wordText value) := by
  unfold wordText Text.signedDecimal
  split
  · exact isWord_cons rfl (isWord_decimal _).2
  · exact isWord_decimal _

theorem isWord_addressText (offset : Nat) : IsWord (addressText offset) := by
  refine isWord_cons rfl (List.forall_mem_cons.mpr ⟨rfl, ?_⟩)
  exact Text.mem_hex (by decide) 4 offset

theorem isWord_symbol (c : Comparison) : IsWord c.symbol := by
  cases c with
  | unknown code => exact isWord_cons rfl (isWord_decimal _).2
  | _ => exact isWord_of_all (by decide) (by decide)

theorem isWord_comparand (r : Comparand) : IsWord r.render := by
  cases r with
  | var index => exact isWord_varText index
  | byte value => exact isWord_decimal _
  | word value => exact isWord_wordText value

theorem isWord_horizontal (x : Horizontal) : IsWord x.render := by
  cases x with
  | var index => exact isWord_varText index
  | byte value => exact isWord_decimal _
  | beyond value => exact isWord_decimal _
  | word value => exact isWord_wordText value

theorem isWord_vertical (y : Vertical) : IsWord y.render := by
  cases y with
  | var index => exact isWord_varText index
  | byte value => exact isWord_decimal _
  | word value => exact isWord_wordText value

theorem isWord_mnemonic (op : Opcode) : IsWord op.mnemonic.toList := by
  cases op <;> exact isWord_of_all (by decide) (by decide)

theorem isWord_name (instr : Instr) : IsWord instr.name := by
  have background : IsWord Instr.backgroundName.toList := isWord_of_all (by decide) (by decide)
  have sprite : IsWord Instr.spriteName.toList := isWord_of_all (by decide) (by decide)
  cases instr with
  | table op operands => exact isWord_mnemonic op
  | background halved x y => exact background
  | sprite halved x y zoom => exact sprite

/-- The text of an operand spells its words. -/
theorem OperandKind.spells_render (kind : OperandKind) (value : kind.Value) :
    Spells (kind.render value) (kind.words value) := by
  cases kind with
  | var => exact .word (isWord_varText value)
  | byte => exact .word (isWord_decimal _)
  | word => exact .word (isWord_wordText value)
  | address => exact .word (isWord_addressText _)
  | condition =>
    have compared : Spells (List.intercalate [' '] [varText value.var, value.comparison.symbol, value.comparand.render])
        [varText value.var, value.comparison.symbol, value.comparand.render] :=
      .intercalate (by simp) (by simp) (.cons (.word (isWord_varText _)) (.cons (.word (isWord_symbol _))
        (.cons (.word (isWord_comparand _)) .nil)))
    exact .commaSeparated (.cons compared (.cons (.word (isWord_addressText _)) .nil))
  | range =>
    exact .commaSeparated (.cons (.word (isWord_decimal _)) (.cons (.word (isWord_decimal _))
      (.cons (.word (isWord_decimal _)) .nil)))

theorem Operands.spells_render (kinds : List OperandKind) (values : Operands kinds) :
    ∃ words, List.Forall₂ Spells (Operands.render kinds values) words ∧ words.flatten = Operands.words kinds values := by
  induction kinds with
  | nil => exact ⟨[], .nil, rfl⟩
  | cons kind kinds ih =>
    obtain ⟨value, values⟩ := values
    obtain ⟨words, each, same⟩ := ih values
    exact ⟨kind.words value :: words, .cons (kind.spells_render value) each, congrArg (kind.words value ++ ·) same⟩

namespace Instr

theorem spells_withOperands {name : String} (isWord : IsWord name.toList) {texts : List (List Char)}
    {words : List (List (List Char))} (each : List.Forall₂ Spells texts words) :
    Spells (withOperands name texts) (name.toList :: words.flatten) := by
  cases each with
  | nil => exact .word isWord
  | cons here later =>
    have joined := (Spells.word isWord).join (Spells.commaSeparated (.cons here later)) [' '] (by simp) (by simp)
    simpa [withOperands] using joined

/-- The text of an instruction spells its name and its words. -/
theorem spells_render (instr : Instr) : Spells instr.render (instr.name :: instr.operandWords) := by
  have named := isWord_name instr
  cases instr with
  | table op operands =>
    obtain ⟨words, each, same⟩ := Operands.spells_render op.operands operands
    rw [operandWords, ← same]
    exact spells_withOperands named each
  | background halved x y =>
    exact spells_withOperands named (.cons (.word (isWord_addressText _)) (.cons (.word (isWord_decimal _))
      (.cons (.word (isWord_decimal _)) .nil)))
  | sprite halved x y zoom =>
    have scaled : ∃ words, List.Forall₂ Spells zoom.render words ∧ words.flatten = zoom.render := by
      cases zoom with
      | normal => exact ⟨[], .nil, rfl⟩
      | var index => exact ⟨[[varText index]], .cons (.word (isWord_varText index)) .nil, rfl⟩
      | byte value => exact ⟨[[byteText value]], .cons (.word (isWord_decimal _)) .nil, rfl⟩
      | alternate =>
        have isWord : IsWord Zoom.alternateName.toList := isWord_of_all (by decide) (by decide)
        exact ⟨[[Zoom.alternateName.toList]], .cons (.word isWord) .nil, rfl⟩
    obtain ⟨words, each, same⟩ := scaled
    rw [operandWords, ← same]
    exact spells_withOperands named (.cons (.word (isWord_addressText _)) (.cons (.word (isWord_horizontal x))
      (.cons (.word (isWord_vertical y)) each)))

end Instr

/-! ### Lines -/

namespace Text

theorem pieces_line {line : List Char} (unbroken : '\n' ∉ line) (rest : List Char) :
    pieces (line ++ '\n' :: rest) = (line, true) :: pieces rest := by
  induction line with
  | nil => rfl
  | cons c line ih =>
    obtain ⟨here, there⟩ := not_or.mp (mt List.mem_cons.mpr unbroken)
    have later := ih there
    unfold pieces at later ⊢
    rw [List.cons_append, List.foldr_cons, later]
    simp [Ne.symm here]

theorem pieces_last {line : List Char} (unbroken : '\n' ∉ line) (some : line ≠ []) : pieces line = [(line, false)] := by
  induction line with
  | nil => exact absurd rfl some
  | cons c line ih =>
    obtain ⟨here, there⟩ := not_or.mp (mt List.mem_cons.mpr unbroken)
    cases line with
    | nil => simp [pieces, Ne.symm here]
    | cons d line =>
      have later := ih there (by simp)
      unfold pieces at later ⊢
      rw [List.foldr_cons, later]
      simp [Ne.symm here]

theorem dropReturn_of_not_mem {line : List Char} (noReturn : '\r' ∉ line) : dropReturn line = line := by
  unfold dropReturn
  split
  · rename_i last
    exact absurd (List.mem_of_getLast? last) noReturn
  · rfl

/-- Lines that are joined with line feeds are the lines of the text. -/
theorem lines_intercalate {texts : List (List Char)}
    (each : ∀ text ∈ texts, text ≠ [] ∧ '\n' ∉ text ∧ '\r' ∉ text) :
    lines (List.intercalate ['\n'] texts) = texts := by
  induction texts with
  | nil => rfl
  | cons text texts ih =>
    obtain ⟨⟨some, unbroken, noReturn⟩, others⟩ := List.forall_mem_cons.mp each
    cases texts with
    | nil => simp [lines, pieces_last unbroken some]
    | cons next texts =>
      have later := ih others
      unfold lines at later ⊢
      rw [List.intercalate_cons_cons, List.append_assoc, List.singleton_append, pieces_line unbroken, List.map_cons, later]
      simp [dropReturn_of_not_mem noReturn]

end Text

namespace Spells

variable {text : List Char} {words : List (List Char)} (spells : Spells text words)

include spells

theorem not_mem {c : Char} (other : (Token.isPlain c || c = ',' || c = ' ') = false) : c ∉ text := by
  intro member
  rw [spells.plain c member] at other
  cases other

theorem codeOf_eq : Assembly.codeOf text = text := by
  have unlike : ∀ c ∈ text, decide (c ≠ '#') = true := by
    intro c member
    rw [decide_eq_true_eq]
    rintro rfl
    exact spells.not_mem (by decide) member
  have whole : (text ++ []).takeWhile (fun c => decide (c ≠ '#')) = text ++ [] := List.takeWhile_append_of_pos unlike
  rwa [List.append_nil] at whole

theorem map_text_ofLine : (Token.ofLine text).map Token.text = words := by
  rw [Token.ofLine, spells.codeOf_eq, Token.map_text_scan, spells.words]

/-- A text that spells words is no section marker. -/
theorem marker?_eq_none : Assembly.marker? text = none := by
  have inside {c : Char} (member : c ∈ Text.trim (Assembly.codeOf text)) : c ∈ text := by
    rw [spells.codeOf_eq, Text.trim, Text.dropEndWhile, List.mem_reverse] at member
    exact (List.dropWhile_sublist _).mem (List.mem_reverse.mp ((List.dropWhile_sublist _).mem member))
  have unmarked : Assembly.bracketed? (Text.trim (Assembly.codeOf text)) = none := by
    rcases header : Text.trim (Assembly.codeOf text) with _ | ⟨c, inner⟩
    · rfl
    · unfold Assembly.bracketed?
      split
      · rename_i bracket
        cases bracket
        exact absurd (inside (by rw [header]; exact List.mem_cons_self)) (spells.not_mem (by decide))
      · rfl
  simp only [Assembly.marker?, unmarked, Option.map_none]

end Spells

theorem Instr.render_line (instr : Instr) : instr.render ≠ [] ∧ '\n' ∉ instr.render ∧ '\r' ∉ instr.render := by
  have spells := instr.spells_render
  refine ⟨?_, spells.not_mem (by decide), spells.not_mem (by decide)⟩
  intro empty
  have silent := spells.words
  rw [empty] at silent
  cases silent

/-! ### Assembling a listing -/

namespace Assembly

theorem emitAll_append (labels : Labels) (done : Code) (front back : List Statement) :
    emitAll labels done (front ++ back) = (emitAll labels done front).bind fun done => emitAll labels done back := by
  induction front generalizing done with
  | nil => rfl
  | cons s front ih =>
    rw [List.cons_append, emitAll, emitAll]
    rcases s.emit labels with e | bytes
    · rfl
    · exact ih _

/-- A section whose statements have the given bytes. -/
def Section.Holds (s : Section) (bytes : Bytes) : Prop :=
  emitAll s.labels #[] s.statements.reverse = .ok bytes.toArray

/-- The text of an instruction adds its bytes to a section. -/
theorem Section.addLine_render {s : Section} {bytes : Bytes} (holds : s.Holds bytes) (number : Nat) {instr : Instr}
    (sayable : instr.Sayable) : ∃ after, s.addLine number (Token.ofLine instr.render) = .ok after ∧
      after.id = s.id ∧ after.Holds (bytes ++ instr.encode) := by
  have texts := instr.spells_render.map_text_ofLine
  obtain ⟨name, operands, tokens, named, same⟩ := List.map_eq_cons_iff.mp texts
  have unlabelled : label? name = none := by
    rw [label?, if_neg]
    rintro ⟨last, _⟩
    have member := List.mem_of_getLast? last
    rw [named] at member
    cases (isWord_name instr).2 ':' member
  let statement : Statement := ⟨number, name.column, name.text, operands.map (·.text)⟩
  have read := Statement.instr_words (s := statement) sayable named same s.labels
  have emitted : statement.emit s.labels = .ok instr.encode := by rw [Statement.emit, read]
  refine ⟨{ s with statements := statement :: s.statements, size := s.size + instr.encode.length }, ?_, rfl, ?_⟩
  · rw [tokens]
    simp only [addLine, unlabelled, addStatement]
    rw [show statement.size = _ from Statement.size_of_instr read]
  · show emitAll s.labels #[] (statement :: s.statements).reverse = _
    rw [List.reverse_cons, emitAll_append, show emitAll s.labels #[] s.statements.reverse = _ from holds]
    simp [Except.bind, emitAll, emitted]

namespace Layout

theorem addLine_render (layout : Layout) (number : Nat) (instr : Instr) :
    layout.addLine number instr.render = layout.addTokens number (Token.ofLine instr.render) := by
  rw [addLine, instr.spells_render.marker?_eq_none]

theorem isEmpty_ofLine_render (instr : Instr) : (Token.ofLine instr.render).isEmpty = false := by
  have texts := instr.spells_render.map_text_ofLine
  rcases tokens : Token.ofLine instr.render with _ | ⟨name, operands⟩
  · rw [tokens] at texts
    cases texts
  · rfl

/-- The texts of instructions add their bytes to the section of a layout. -/
theorem addLines_render {s : Section} {bytes : Bytes} (holds : s.Holds bytes) (number : Nat) {instrs : List Instr}
    (sayable : ∀ instr ∈ instrs, instr.Sayable) :
    ∃ after, addLines [s] number (instrs.map Instr.render) = .ok [after] ∧ after.id = s.id ∧
      after.Holds (bytes ++ instrs.flatMap Instr.encode) := by
  induction instrs generalizing s bytes number with
  | nil => exact ⟨s, rfl, rfl, by simpa using holds⟩
  | cons instr instrs ih =>
    obtain ⟨here, there⟩ := List.forall_mem_cons.mp sayable
    obtain ⟨next, added, id, holds⟩ := Section.addLine_render holds number here
    obtain ⟨after, laid, lastId, lastHolds⟩ := ih holds (number + 1) there
    refine ⟨after, ?_, lastId.trans id, ?_⟩
    · rw [List.map_cons, addLines, addLine_render, addTokens, isEmpty_ofLine_render]
      simp only [Bool.false_eq_true, if_false, added]
      exact laid
    · rwa [List.flatMap_cons, ← List.append_assoc]

/-- The texts of instructions lay out as one section of the first part, which has their bytes. -/
theorem ofSource_render {instrs : List Instr} (sayable : ∀ instr ∈ instrs, instr.Sayable) (some : instrs ≠ []) :
    ∃ s : Section, ofSource (List.intercalate ['\n'] (instrs.map Instr.render)) = .ok [s] ∧ s.id = Part.first ∧
      s.Holds (instrs.flatMap Instr.encode) := by
  have lines : Text.lines (List.intercalate ['\n'] (instrs.map Instr.render)) = instrs.map Instr.render := by
    apply Text.lines_intercalate
    intro text member
    obtain ⟨instr, _, rfl⟩ := List.mem_map.mp member
    exact instr.render_line
  obtain ⟨instr, instrs, rfl⟩ := List.exists_cons_of_ne_nil some
  obtain ⟨here, there⟩ := List.forall_mem_cons.mp sayable
  have empty : ({ id := Part.first } : Section).Holds [] := rfl
  obtain ⟨next, added, id, holds⟩ := Section.addLine_render empty 1 here
  obtain ⟨after, laid, lastId, lastHolds⟩ := addLines_render holds 2 there
  refine ⟨after, ?_, lastId.trans id, lastHolds⟩
  have all : addLines [] 1 ((instr :: instrs).map Instr.render) = .ok [after] := by
    rw [List.map_cons, addLines, addLine_render, addTokens, isEmpty_ofLine_render]
    simp only [Bool.false_eq_true, if_false, added]
    exact laid
  rw [ofSource, lines, all]
  rfl

end Layout

end Assembly

namespace Listing

/-- The texts of a listing, one in a line. -/
def source (lines : List ListingLine) : String :=
  "\n".intercalate (lines.map fun line => String.ofList line.text)

theorem toList_source {lines : List ListingLine} {instrs : List Instr}
    (texts : lines.map ListingLine.text = instrs.map Instr.render) :
    (source lines).toList = List.intercalate ['\n'] (instrs.map Instr.render) := by
  rw [source, String.toList_intercalate, ← texts, List.map_map]
  simp [Function.comp_def]

/-- The texts of instructions assemble to their bytes. -/
theorem assemble_source {lines : List ListingLine} {instrs : List Instr}
    (texts : lines.map ListingLine.text = instrs.map Instr.render) (sayable : ∀ instr ∈ instrs, instr.Sayable)
    (some : instrs ≠ []) :
    Assembly.assemble (source lines) = .ok ⟨[⟨Part.first, (instrs.flatMap Instr.encode).toArray⟩]⟩ := by
  obtain ⟨s, laid, id, holds⟩ := Assembly.Layout.ofSource_render sayable some
  have emitted : s.emit = .ok ⟨Part.first, (instrs.flatMap Instr.encode).toArray⟩ := by
    rw [Assembly.Section.emit, show Assembly.emitAll s.labels #[] s.statements.reverse = _ from holds, id]
  rw [Assembly.assemble, toList_source texts, laid]
  simp only [Assembly.emitSections, emitted, List.reverse_cons, List.reverse_nil, List.nil_append]

/-! ### Listing what was assembled -/

theorem length_encode_pos (instr : Instr) : 0 < instr.encode.length := by
  cases instr <;> simp [Instr.encode]

/-- From where the bytes of instructions begin, a listing lists the instructions as they are read. -/
theorem linesFrom_encode {instrs : List Instr} (encodable : ∀ instr ∈ instrs, instr.Encodable) (fuel : Nat)
    (done : List ListingLine) {s : Script} (rest : s.rest = instrs.flatMap Instr.encode)
    (enough : s.rest.length ≤ fuel) :
    ∃ lines, linesFrom fuel done s = .ok (done.reverse ++ lines) ∧
      lines.map (fun line => (line.bytes, line.text)) = instrs.map fun instr => (instr.encode, instr.kept.render) := by
  induction instrs generalizing fuel done s with
  | nil =>
    have atEnd : ¬ s.pc < s.code.size := by
      have none := congrArg List.length rest
      rw [Script.length_rest, List.flatMap_nil, List.length_nil] at none
      omega
    refine ⟨[], ?_, rfl⟩
    cases fuel with
    | zero => simp [linesFrom]
    | succ fuel => simp [linesFrom, atEnd]
  | cons instr instrs ih =>
    obtain ⟨here, there⟩ := List.forall_mem_cons.mp encodable
    rw [List.flatMap_cons] at rest
    have positive := length_encode_pos instr
    have length : instr.encode.length + (instrs.flatMap Instr.encode).length = s.rest.length := by
      rw [rest, List.length_append]
    have inside : s.pc < s.code.size := by
      rw [Script.length_rest] at length
      omega
    have front : instr.encode <+: s.rest := ⟨_, rest.symm⟩
    have line := lineAt_of_takes (Instr.takes_encode here .oneWord) front
    have behind : (s.advance instr.encode.length).rest = instrs.flatMap Instr.encode := by
      rw [Script.rest_advance, rest, List.drop_left]
    obtain ⟨fuel, rfl⟩ : ∃ less, fuel = less + 1 := ⟨fuel - 1, by omega⟩
    obtain ⟨lines, listed, same⟩ := ih there fuel (⟨s.pc, instr.encode, instr.kept.render⟩ :: done) behind
      (by rw [behind]; omega)
    refine ⟨⟨s.pc, instr.encode, instr.kept.render⟩ :: lines, ?_, congrArg ((instr.encode, instr.kept.render) :: ·) same⟩
    simp only [linesFrom, inside, if_true, line, listed, List.reverse_cons, List.append_assoc, List.singleton_append]

/-- A listing of the bytes of instructions has a line for each of them. -/
theorem ofCode_encode_lines {code : Code} {instrs : List Instr} (whole : code.toList = instrs.flatMap Instr.encode)
    (encodable : ∀ instr ∈ instrs, instr.Encodable) :
    ∃ lines, ofCode code = .ok lines ∧
      lines.map (fun line => (line.bytes, line.text)) = instrs.map fun instr => (instr.encode, instr.kept.render) := by
  obtain ⟨lines, listed, same⟩ := linesFrom_encode encodable code.size [] (s := { code }) whole
    (by rw [Script.length_rest]; exact Nat.sub_le _ _)
  rw [List.reverse_nil, List.nil_append] at listed
  exact ⟨lines, listed, same⟩

/-- A listing of the bytes of instructions has the texts of the instructions as they are read. -/
theorem ofCode_encode {code : Code} {instrs : List Instr} (whole : code.toList = instrs.flatMap Instr.encode)
    (encodable : ∀ instr ∈ instrs, instr.Encodable) :
    ∃ lines, ofCode code = .ok lines ∧ lines.map ListingLine.text = instrs.map fun instr => instr.kept.render := by
  obtain ⟨lines, listed, same⟩ := ofCode_encode_lines whole encodable
  have texts := congrArg (List.map Prod.snd) same
  rw [List.map_map, List.map_map] at texts
  exact ⟨lines, listed, texts⟩

end Listing

namespace Assembly

/-- Statements are read as instructions that a statement can say. -/
theorem Statement.sayable_of_instr {s : Statement} {labels : Labels} {instr : Instr}
    (read : s.instr labels = .ok instr) : instr.Sayable := by
  have chosen := s.toOption_instr labels
  rw [read] at chosen
  obtain ⟨meaning, _, rfl⟩ := Option.map_eq_some_iff.mp chosen.symm
  exact meaning.sayable_instr

/-- The code of placed lines is instructions that a statement can say. -/
theorem Placed.exists_instrs {labels : Labels} {lines : List Line} {code : Code} (placed : Placed labels lines code) :
    ∃ instrs : List Instr, code.toList = instrs.flatMap Instr.encode ∧ ∀ instr ∈ instrs, instr.Sayable := by
  have sizes := placed.sizes
  rw [placed.whole]
  clear placed
  induction lines with
  | nil => exact ⟨[], rfl, by simp⟩
  | cons line lines ih =>
    obtain ⟨here, there⟩ := List.forall_mem_cons.mp sizes
    obtain ⟨instrs, bytes, sayable⟩ := ih there
    rw [List.flatMap_cons, bytes]
    rcases stated : line.statement? with _ | statement
    · refine ⟨instrs, ?_, sayable⟩
      rw [Line.bytes, stated]
      rfl
    · obtain ⟨instr, read, same⟩ := Statement.instr_of_emit (here statement stated).2
      refine ⟨instr :: instrs, ?_, List.forall_mem_cons.mpr ⟨Statement.sayable_of_instr read, sayable⟩⟩
      rw [same, List.flatMap_cons]

theorem exists_instrs_of_assemble {source : String} {program : Program} (accepted : assemble source = .ok program)
    {part : Part} (member : part ∈ program.parts) :
    ∃ instrs : List Instr, part.code.toList = instrs.flatMap Instr.encode ∧ ∀ instr ∈ instrs, instr.Sayable := by
  unfold assemble at accepted
  split at accepted
  · cases accepted
  · rename_i sections laid
    obtain ⟨parts, order, placed⟩ := emitSections_places (Layout.ofSource_built laid) accepted
    rw [order, List.reverse_nil, List.nil_append] at member
    generalize sectionsOf (Line.ofSource source) = blocks at placed
    clear laid accepted order
    induction placed with
    | nil => cases member
    | cons own _ ih =>
      rcases List.mem_cons.mp member with rfl | later
      · obtain ⟨_, _, placed⟩ := own
        exact placed.exists_instrs
      · exact ih later

/-- Disassembling undoes assembling: the code of each part of a source text that is accepted has a listing, unless it is
    empty, and the texts of the listing, one in a line, assemble to the first part with the same code and nothing else. -/
theorem assemble_source_ofCode {source : String} {program : Program} (accepted : assemble source = .ok program)
    {part : Part} (member : part ∈ program.parts) (filled : part.code ≠ #[]) :
    ∃ lines, Listing.ofCode part.code = .ok lines ∧
      assemble (Listing.source lines) = .ok ⟨[⟨Part.first, part.code⟩]⟩ := by
  obtain ⟨instrs, whole, sayable⟩ := exists_instrs_of_assemble accepted member
  obtain ⟨lines, listed, texts⟩ := Listing.ofCode_encode whole fun instr member => (sayable instr member).encodable
  have some : instrs ≠ [] := by
    rintro rfl
    exact filled (Array.toList_eq_nil_iff.mp whole)
  have keptTexts : lines.map ListingLine.text = (instrs.map Instr.kept).map Instr.render := by
    rw [texts, List.map_map]
    rfl
  have keptSayable : ∀ instr ∈ instrs.map Instr.kept, instr.Sayable := by
    intro kept found
    obtain ⟨instr, member, rfl⟩ := List.mem_map.mp found
    exact (sayable instr member).kept
  have code : ((instrs.map Instr.kept).flatMap Instr.encode).toArray = part.code := by
    rw [List.flatMap_map, funext Instr.encode_kept, ← whole]
  refine ⟨lines, listed, ?_⟩
  rw [Listing.assemble_source keptTexts keptSayable (by simpa using some), code]

/-- A part with an empty range of threads, a comparison with a negative number, and a sprite beyond the first 256 columns
    whose data are behind the first 64 kilobytes. -/
theorem assemble_source_ofCode_widest :
    let source := "start: RESET_THREADS 9, 3, 1\n  JMP_IF v2 >= -300, start\n[part 0x3E81]\n" ++
      "  POLY 0x10004, 300, -5, alt # far\n"
    let part : Part := ⟨0x3E80, #[0x0C, 9, 3, 0x0A, 0x43, 2, 0xFE, 0xD4, 0, 0]⟩
    let other : Part := ⟨0x3E81, #[0x73, 0x80, 0x02, 44, 0xFF, 0xFB]⟩
    assemble source = .ok ⟨[part, other]⟩ ∧ part.code ≠ #[] ∧ other.code ≠ #[] ∧
      (∃ lines, Listing.ofCode part.code = .ok lines ∧
        assemble (Listing.source lines) = .ok ⟨[⟨Part.first, part.code⟩]⟩) ∧
      ∃ lines, Listing.ofCode other.code = .ok lines ∧
        assemble (Listing.source lines) = .ok ⟨[⟨Part.first, other.code⟩]⟩ := by
  intro source part other
  have accepted : assemble source = .ok ⟨[part, other]⟩ := by decide +kernel
  have filled : part.code ≠ #[] ∧ other.code ≠ #[] := by decide
  exact ⟨accepted, filled.1, filled.2, assemble_source_ofCode accepted (by simp) filled.1,
    assemble_source_ofCode accepted (by simp) filled.2⟩

end Assembly

end Framescript
