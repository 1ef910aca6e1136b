import Framescript.Proofs.Acceptance
import Framescript.Proofs.WordPlaces
import Mathlib.Data.List.DropRight

/-!
Where a source text is refused. Each pass goes through the lines of a text in order. In the first a line fails by its
marker, its label or the size of its statement, which depends on the lines before it (`layoutFault?`); in the second it
fails by its statement, which depends on the labels of its section (`emissionFault?`). A text is refused for the first
line that fails in the first pass, or else for the first that fails in the second (`refusal_assemble`), and the error
points at what fails in that line (`assemble_eq_error_iff`).
-/
namespace Framescript.Assembly

/-- The error of a computation that fails. -/
def refusal {ε α : Type} : Except ε α → Option ε
  | .error e => some e
  | .ok _ => none

theorem refusal_eq_some_iff {ε α : Type} {result : Except ε α} {e : ε} :
    refusal result = some e ↔ result = .error e := by
  cases result <;> simp [refusal]

/-! ### What can be wrong with a line -/

/-- What a line fails by. -/
inductive Piece where
  | marker
  | label
  | statement
  deriving DecidableEq, Repr

namespace Line

/-- The column at which a piece of a line begins. -/
def column (line : Line) : Piece → Nat
  | .marker => 1
  | .label => (line.tokens.head?.map Token.column).getD 1
  | .statement => (line.words.head?.map Token.column).getD 1

/-- The error that a piece of a line is refused with. -/
def errorAt (line : Line) (found : Piece × SourceFault) : SourceError :=
  ⟨line.number, line.column found.1, found.2⟩

/-- A column points at a piece of a line: at the first word, which is the label, or at the first word behind the label,
    which is the name of the instruction. -/
def PointsAt (line : Line) : Piece → Nat → Prop
  | .marker, column => column = 1
  | .label, column => ∃ name, line.label? = some name ∧ line.HasWord [] (name ++ [':']) column
  | .statement, column =>
    ∃ s, line.statement? = some s ∧ line.HasWord (line.label?.map (· ++ [':'])).toList s.name column

end Line

/-- The lines behind the last marker. -/
def openLines (lines : List Line) : List Line :=
  lines.rtakeWhile (·.part?.isNone)

/-- What is wrong with the label of a line behind the lines of its section. -/
def labelFault? (lines : List Line) (line : Line) : Option SourceFault :=
  line.label?.bind fun name =>
    if lines.any (·.label? = some name) then some (.duplicateLabel name)
    else if Line.sizeAll lines < 0x10000 then none
    else some (.labelOutOfRange (Line.sizeAll lines))

/-- What is wrong with the size of the statement of a line. -/
def sizeFault? (line : Line) : Option SourceFault :=
  line.statement?.bind fun s => refusal s.size

/-- What fails in a line in the first pass. -/
def layoutFault? (before : List Line) (line : Line) (_after : List Line) : Option (Piece × SourceFault) :=
  match marker? line.text with
  | some (.error fault) => some (.marker, fault)
  | some (.ok id) => if (sectionsOf before).any (·.1 = id) then some (.marker, .partDefinedTwice id) else none
  | none => ((labelFault? (openLines before) line).map (Piece.label, ·)).or ((sizeFault? line).map (Piece.statement, ·))

/-- What fails in a line in the second pass. -/
def emissionFault? (before : List Line) (line : Line) (after : List Line) : Option (Piece × SourceFault) :=
  if line.part?.isSome then none
  else
    line.statement?.bind fun s =>
      (refusal (s.instr (labelsFrom 0 (openLines before ++ line :: (divide after).1)))).map (Piece.statement, ·)

/-! ### The first line that fails -/

/-- The error of the first of some lines that fails, with the lines of `before` in front of them. -/
def firstFault? (fault? : List Line → Line → List Line → Option (Piece × SourceFault)) (before : List Line) :
    List Line → Option SourceError
  | [] => none
  | line :: lines => ((fault? before line lines).map line.errorAt).or (firstFault? fault? (before ++ [line]) lines)

/-- None of some lines fails, with the lines of `rest` behind them. -/
def NoneFails (fault? : List Line → Line → List Line → Option (Piece × SourceFault)) (lines rest : List Line) : Prop :=
  ∀ before line after, lines = before ++ line :: after → fault? before line (after ++ rest) = none

section first

variable {fault? : List Line → Line → List Line → Option (Piece × SourceFault)}

theorem firstFault?_eq_none_iff {before lines : List Line} : firstFault? fault? before lines = none ↔
    ∀ front line after, lines = front ++ line :: after → fault? (before ++ front) line after = none := by
  induction lines generalizing before with
  | nil => simp [firstFault?]
  | cons line lines ih =>
    rw [firstFault?, Option.or_eq_none_iff, Option.map_eq_none_iff, ih]
    constructor
    · rintro ⟨here, there⟩ front other after split
      rcases List.cons_eq_append_iff.mp split with ⟨rfl, same⟩ | ⟨front, rfl, rest⟩
      · cases same
        rw [List.append_nil]
        exact here
      · have later := there front other after rest
        rwa [List.append_assoc] at later
    · intro none
      refine ⟨?_, ?_⟩
      · have here := none [] line lines rfl
        rwa [List.append_nil] at here
      · intro front other after split
        rw [List.append_assoc]
        exact none (line :: front) other after (congrArg (line :: ·) split)

theorem firstFault?_eq_some_iff {before lines : List Line} {e : SourceError} :
    firstFault? fault? before lines = some e ↔ ∃ front line after found, lines = front ++ line :: after ∧
      fault? (before ++ front) line after = some found ∧ e = line.errorAt found ∧
      ∀ early other late, front = early ++ other :: late →
        fault? (before ++ early) other (late ++ line :: after) = none := by
  induction lines generalizing before with
  | nil => simp [firstFault?]
  | cons line lines ih =>
    rw [firstFault?, Option.or_eq_some_iff, Option.map_eq_some_iff, Option.map_eq_none_iff, ih]
    constructor
    · rintro (⟨found, here, rfl⟩ | ⟨none, front, other, after, found, rfl, there, rfl, earlier⟩)
      · refine ⟨[], line, lines, found, rfl, ?_, rfl, by simp⟩
        rw [List.append_nil]
        exact here
      · refine ⟨line :: front, other, after, found, rfl, ?_, rfl, ?_⟩
        · rw [List.append_assoc] at there
          exact there
        · intro early another late split
          rcases List.cons_eq_append_iff.mp split with ⟨rfl, same⟩ | ⟨early, rfl, rest⟩
          · cases same
            rw [List.append_nil]
            exact none
          · have before := earlier early another late rest
            rwa [List.append_assoc] at before
    · rintro ⟨front, other, after, found, split, fails, rfl, earlier⟩
      rcases List.cons_eq_append_iff.mp split with ⟨rfl, same⟩ | ⟨front, rfl, rfl⟩
      · cases same
        rw [List.append_nil] at fails
        exact .inl ⟨found, fails, rfl⟩
      · have none := earlier [] line front rfl
        rw [List.append_nil] at none
        refine .inr ⟨none, front, other, after, found, rfl, ?_, rfl, ?_⟩
        · rw [List.append_assoc]
          exact fails
        · intro early another late same
          rw [List.append_assoc]
          exact earlier (line :: early) another late (congrArg (line :: ·) same)

end first

/-! ### Lines of the last section -/

theorem openLines_plain {line : Line} (plain : line.part? = none) (lines : List Line) :
    openLines (lines ++ [line]) = openLines lines ++ [line] :=
  List.rtakeWhile_concat_pos _ _ _ (by rw [plain]; rfl)

theorem openLines_marker {line : Line} {id : UInt16} (marks : line.part? = some id) (lines : List Line) :
    openLines (lines ++ [line]) = [] :=
  List.rtakeWhile_concat_neg _ _ _ (by simp [marks])

theorem Line.sizeAll_append (front back : List Line) : sizeAll (front ++ back) = sizeAll front + sizeAll back := by
  induction front with
  | nil => exact (Nat.zero_add _).symm
  | cons line front ih =>
    show line.size + sizeAll (front ++ back) = line.size + sizeAll front + sizeAll back
    rw [ih, Nat.add_assoc]

theorem labelsFrom_append (offset : Nat) (front back : List Line) :
    labelsFrom offset (front ++ back) = labelsFrom (offset + Line.sizeAll front) back ++ labelsFrom offset front := by
  induction front generalizing offset with
  | nil => exact (List.append_nil _).symm
  | cons line front ih =>
    rw [List.cons_append, labelsFrom, labelsFrom, ih, List.append_assoc, Nat.add_assoc]
    rfl

/-! ### The first pass -/

namespace Section

theorem refusal_addStatement (s : Section) (line : Line) : refusal (s.addStatement line.number line.words) =
    ((sizeFault? line).map (Piece.statement, ·)).map line.errorAt := by
  unfold sizeFault? Line.statement? Line.errorAt Line.column
  rcases line.words with _ | ⟨name, operands⟩
  · rfl
  · simp only [addStatement, Option.bind_some]
    split <;> simp only [*] <;> rfl

/-- A section refuses a line for its label, or else for the size of its statement. -/
theorem refusal_addLine {s : Section} {lines : List Line} (size : s.size = Line.sizeAll lines)
    (labels : s.labels = labelsFrom 0 lines) (line : Line) : refusal (s.addLine line.number line.tokens) =
      (((labelFault? lines line).map (Piece.label, ·)).or
        ((sizeFault? line).map (Piece.statement, ·))).map line.errorAt := by
  rw [Option.map_or, ← s.refusal_addStatement, labelFault?]
  rcases tokens : line.tokens with _ | ⟨first, rest⟩
  · have unlabelled : line.label? = none := by simp [Line.label?, tokens]
    have words : line.words = [] := by simp [Line.words, unlabelled, tokens]
    rw [unlabelled, words]
    rfl
  · rcases labelled : Assembly.label? first with _ | name
    · have unlabelled : line.label? = none := by simp [Line.label?, tokens, labelled]
      have words : line.words = first :: rest := by simp [Line.words, unlabelled, tokens]
      rw [unlabelled, words, addLine, labelled]
      rfl
    · have own : line.label? = some name := by simp [Line.label?, tokens, labelled]
      have words : line.words = rest := by simp [Line.words, own, tokens]
      have refused (fault : SourceFault) : line.errorAt (.label, fault) = ⟨line.number, first.column, fault⟩ := by
        simp [Line.errorAt, Line.column, tokens]
      have stated (t : Section) :
          refusal (t.addStatement line.number rest) = refusal (s.addStatement line.number rest) := by
        rw [← words, refusal_addStatement, refusal_addStatement]
      simp only [addLine, labelled, addLabel, labels, isSome_lookup_labelsFrom, size, own, words, Option.bind_some]
      by_cases taken : (lines.any fun other => decide (other.label? = some name)) = true
      · rw [if_pos taken, if_pos taken, Option.map_some, Option.map_some, refused]
        rfl
      · rw [if_neg taken, if_neg taken]
        by_cases small : Line.sizeAll lines < 0x10000
        · rw [if_pos small, if_pos small]
          exact stated _
        · rw [if_neg small, if_neg small, Option.map_some, Option.map_some, refused]
          rfl

end Section

namespace Layout

/-- The section that lines go to. -/
def newest (layout : Layout) : Section :=
  layout.headD { id := Part.first }

theorem refusal_addTokens (layout : Layout) (number : Nat) (tokens : List Token) :
    refusal (layout.addTokens number tokens) = refusal (layout.newest.addLine number tokens) := by
  rcases tokens with _ | ⟨token, tokens⟩
  · rfl
  · rcases layout with _ | ⟨s, older⟩ <;> simp only [addTokens, List.isEmpty_cons, Bool.false_eq_true, if_false] <;>
      split <;> rename_i added <;> simp only [newest, List.headD_nil, List.headD_cons, added] <;> rfl

theorem newest_addTokens {layout after : Layout} {number : Nat} {tokens : List Token}
    (added : layout.addTokens number tokens = .ok after) : layout.newest.addLine number tokens = .ok after.newest := by
  rcases layout with _ | ⟨s, older⟩
  · by_cases silent : tokens = []
    · subst silent
      cases added
      rfl
    · obtain ⟨s, here, rfl⟩ := addTokens_nil silent added
      exact here
  · obtain ⟨s', here, rfl⟩ := addTokens_cons added
    exact here

theorem addLines_concat (layout : Layout) (number : Nat) (texts : List (List Char)) (text : List Char) :
    layout.addLines number (texts ++ [text]) =
      (layout.addLines number texts).bind fun layout => layout.addLine (number + texts.length) text := by
  induction texts generalizing layout number with
  | nil =>
    rw [List.nil_append, addLines, addLines]
    show _ = layout.addLine number text
    rcases layout.addLine number text with e | after <;> rfl
  | cons first texts ih =>
    rw [List.cons_append, addLines, addLines]
    rcases layout.addLine number first with e | after
    · rfl
    · rw [List.length_cons, Nat.add_comm texts.length, ← Nat.add_assoc]
      exact ih after (number + 1)

/-- The layout of the lines that were read, and what is known of its newest section. -/
structure Reached (texts : List (List Char)) (layout : Layout) : Prop where
  laid : addLines [] 1 texts = .ok layout
  size : layout.newest.size = Line.sizeAll (openLines (Line.numbered 1 texts))
  labels : layout.newest.labels = labelsFrom 0 (openLines (Line.numbered 1 texts))

end Layout

theorem Line.numbered_append (number : Nat) (front back : List (List Char)) :
    numbered number (front ++ back) = numbered number front ++ numbered (number + front.length) back := by
  induction front generalizing number with
  | nil => rfl
  | cons text front ih =>
    rw [List.cons_append, numbered, numbered, ih, List.cons_append, List.length_cons, Nat.add_right_comm, Nat.add_assoc]

namespace Layout.Reached

variable {texts : List (List Char)} {layout : Layout} (reached : Reached texts layout)

include reached

theorem any_id (id : UInt16) : layout.any (·.id = id) = (sectionsOf (Line.numbered 1 texts)).any (·.1 = id) := by
  have ids := congrArg (List.any · (· = id)) (ids_of_built (addLines_nil reached.laid))
  simpa only [List.any_map, List.any_reverse, Function.comp_def] using ids

/-- A line is refused for what fails in it. -/
theorem refusal_addLine (text : List Char) (after : List Line) :
    refusal (layout.addLine (1 + texts.length) text) =
      (layoutFault? (Line.numbered 1 texts) ⟨1 + texts.length, text⟩ after).map
        (⟨1 + texts.length, text⟩ : Line).errorAt := by
  unfold Layout.addLine layoutFault?
  rcases marker? text with _ | fault | id
  · show refusal (layout.addTokens _ _) = _
    rw [refusal_addTokens]
    exact Section.refusal_addLine reached.size reached.labels ⟨1 + texts.length, text⟩
  · rfl
  · show refusal (layout.addSection _ _) = _
    rw [addSection, reached.any_id]
    simp only
    split <;> rfl

theorem concat {text : List Char} {after : Layout} (added : layout.addLine (1 + texts.length) text = .ok after) :
    Reached (texts ++ [text]) after := by
  have laid : addLines [] 1 (texts ++ [text]) = .ok after := by
    rw [addLines_concat, reached.laid]
    exact added
  have lines : Line.numbered 1 (texts ++ [text]) = Line.numbered 1 texts ++ [⟨1 + texts.length, text⟩] :=
    Line.numbered_append 1 texts [text]
  rcases addLine_cases added with ⟨id, marks, rfl⟩ | ⟨plain, added⟩
  · refine ⟨laid, ?_, ?_⟩ <;> rw [lines, openLines_marker marks] <;> rfl
  · have adds := Section.adds_of_addLine (newest_addTokens added)
    refine ⟨laid, ?_, ?_⟩
    · rw [lines, openLines_plain plain, Line.sizeAll_append, adds.size, reached.size]
      rfl
    · rw [lines, openLines_plain plain, labelsFrom_append, adds.labels, reached.labels, reached.size, Nat.zero_add]
      rfl

/-- The first pass refuses lines for the first one that fails in it. -/
theorem refusal_addLines (rest : List (List Char)) : refusal (layout.addLines (1 + texts.length) rest) =
    firstFault? layoutFault? (Line.numbered 1 texts) (Line.numbered (1 + texts.length) rest) := by
  induction rest generalizing texts layout with
  | nil => rfl
  | cons text rest ih =>
    rw [addLines, Line.numbered, firstFault?, ← reached.refusal_addLine]
    rcases added : layout.addLine (1 + texts.length) text with e | after
    · rfl
    · have later := ih (reached.concat added)
      rw [Line.numbered_append, List.length_append] at later
      exact later

end Layout.Reached

/-! ### The second pass -/

/-- The error of the second pass for a line, given the labels of its section. -/
def emissionError? (labels : Labels) (line : Line) : Option SourceError :=
  line.statement?.bind fun s => refusal (s.emit labels)

theorem map_errorAt_emissionFault {line : Line} (plain : line.part? = none) (before after : List Line) :
    (emissionFault? before line after).map line.errorAt =
      emissionError? (labelsFrom 0 (openLines before ++ line :: (divide after).1)) line := by
  rw [emissionFault?, if_neg (by simp [plain]), emissionError?]
  unfold Line.statement? Line.errorAt Line.column
  rcases line.words with _ | ⟨name, operands⟩
  · rfl
  · simp only [Option.bind_some, Statement.emit]
    split <;> simp only [*] <;> rfl

theorem findSome?_emissionError_cons (labels : Labels) (line : Line) (lines : List Line) :
    (line :: lines).findSome? (emissionError? labels) =
      (emissionError? labels line).or (lines.findSome? (emissionError? labels)) := by
  rw [List.findSome?_cons]
  rcases emissionError? labels line with _ | e <;> rfl

theorem refusal_emitAll (labels : Labels) (done : Code) (lines : List Line) :
    refusal (emitAll labels done (lines.filterMap Line.statement?)) = lines.findSome? (emissionError? labels) := by
  induction lines generalizing done with
  | nil => rfl
  | cons line lines ih =>
    rw [findSome?_emissionError_cons, emissionError?]
    rcases stated : line.statement? with _ | s
    · rw [List.filterMap_cons_none stated]
      exact ih done
    · rw [List.filterMap_cons_some stated, emitAll, Option.bind_some]
      rcases s.emit labels with e | bytes
      · rfl
      · exact ih _

theorem refusal_emit {block : UInt16 × List Line} {s : Section} (built : Built block s) :
    refusal s.emit = block.2.findSome? (emissionError? (labelsFrom 0 block.2)) := by
  obtain ⟨_, statements, _, _⟩ := Section.addAll_adds built
  have inOrder : s.statements.reverse = block.2.filterMap Line.statement? := by
    rw [statements]
    simp
  rw [← refusal_emitAll (labelsFrom 0 block.2) #[], ← inOrder, ← labels_of_built built, Section.emit]
  rcases emitAll s.labels #[] s.statements.reverse with e | code <;> rfl

theorem refusal_emitSections {blocks : List (UInt16 × List Line)} {sections : List Section}
    (built : List.Forall₂ Built blocks sections) (done : List Part) : refusal (emitSections done sections) =
      blocks.findSome? fun block => block.2.findSome? (emissionError? (labelsFrom 0 block.2)) := by
  induction built generalizing done with
  | nil => rfl
  | cons here _ ih =>
    rw [emitSections, List.findSome?_cons, ← refusal_emit here]
    split
    · rename_i failed
      rw [failed]
      rfl
    · rename_i made
      rw [made]
      exact ih _

/-- The second pass goes through the lines in front of the next marker and then through the sections behind it. -/
theorem firstFault?_emission (before lines : List Line) : firstFault? emissionFault? before lines =
    ((divide lines).1.findSome? (emissionError? (labelsFrom 0 (openLines before ++ (divide lines).1)))).or
      ((divide lines).2.findSome? fun block => block.2.findSome? (emissionError? (labelsFrom 0 block.2))) := by
  induction lines generalizing before with
  | nil => rfl
  | cons line lines ih =>
    rw [firstFault?, ih]
    rcases marked : line.part? with _ | id
    · rw [map_errorAt_emissionFault marked, openLines_plain marked, divide_plain marked, findSome?_emissionError_cons,
        Option.or_assoc, List.append_assoc, List.singleton_append]
    · rw [openLines_marker marked, divide_marker marked, emissionFault?, if_pos (by simp [marked])]
      simp only [Option.map_none, Option.none_or, List.nil_append, List.findSome?_nil, List.findSome?_cons]
      split <;> simp only [*] <;> rfl

theorem findSome?_sectionsOf (lines : List Line) :
    ((sectionsOf lines).findSome? fun block => block.2.findSome? (emissionError? (labelsFrom 0 block.2))) =
      ((divide lines).1.findSome? (emissionError? (labelsFrom 0 (divide lines).1))).or
        ((divide lines).2.findSome? fun block => block.2.findSome? (emissionError? (labelsFrom 0 block.2))) := by
  rw [sectionsOf]
  split
  · rename_i silent
    have none : (divide lines).1.findSome? (emissionError? (labelsFrom 0 (divide lines).1)) = none := by
      rw [List.findSome?_eq_none_iff]
      intro line member
      have wordless := List.isEmpty_iff.mp (List.all_eq_true.mp silent line member)
      rw [emissionError?, (line.tokens_eq_nil_iff.mp wordless).2]
      rfl
    rw [none, Option.none_or]
  · rw [List.findSome?_cons]
    split <;> simp only [*] <;> rfl

/-- A text is refused for the first line that fails in the first pass, or else for the first that fails in the second. -/
theorem refusal_assemble (source : String) : refusal (assemble source) =
    (firstFault? layoutFault? [] (Line.ofSource source)).or (firstFault? emissionFault? [] (Line.ofSource source)) := by
  have first : refusal (Layout.addLines [] 1 (Text.lines source.toList)) =
      firstFault? layoutFault? [] (Line.ofSource source) :=
    (⟨rfl, rfl, rfl⟩ : Layout.Reached [] []).refusal_addLines (Text.lines source.toList)
  rw [← first, firstFault?_emission]
  rcases laid : Layout.addLines [] 1 (Text.lines source.toList) with e | layout
  · rw [assemble, Layout.ofSource, laid]
    rfl
  · have built := Layout.addLines_nil laid
    have second := refusal_emitSections built []
    rw [assemble, Layout.ofSource, laid]
    show refusal (emitSections [] layout.reverse) = Option.or none _
    rw [second, Option.none_or]
    exact findSome?_sectionsOf _

/-! ### What errors point at -/

theorem text_of_label {token : Token} {name : List Char} (labelled : label? token = some name) :
    token.text = name ++ [':'] := by
  unfold label? at labelled
  split at labelled
  · rename_i last
    cases labelled
    exact (List.dropLast_append_getLast? ':' last.1).symm
  · cases labelled

namespace Line

/-- A label is the first word of its line. -/
theorem hasWord_label {line : Line} {name : List Char} (labelled : line.label? = some name) :
    line.HasWord [] (name ++ [':']) (line.column .label) := by
  obtain ⟨first, head, own⟩ := Option.bind_eq_some_iff.mp labelled
  obtain ⟨rest, tokens⟩ := List.head?_eq_some_iff.mp head
  have column : line.column .label = first.column := by simp [column, tokens]
  have split : line.tokens = [] ++ first :: rest := tokens
  rw [column, ← text_of_label own]
  exact hasWord_of_tokens split

/-- The name of an instruction is the first word behind the label. -/
theorem hasWord_statement {line : Line} {s : Statement} (stated : line.statement? = some s) :
    line.HasWord (line.label?.map (· ++ [':'])).toList s.name (line.column .statement) := by
  unfold statement? at stated
  split at stated
  · cases stated
  · rename_i name operands said
    cases stated
    have column : line.column .statement = name.column := by simp [column, said]
    rw [column]
    rcases labelled : line.label? with _ | label
    · have split : line.tokens = [] ++ name :: operands := by
        rwa [words, labelled] at said
      exact hasWord_of_tokens split
    · obtain ⟨first, head, own⟩ := Option.bind_eq_some_iff.mp labelled
      obtain ⟨rest, tokens⟩ := List.head?_eq_some_iff.mp head
      have split : line.tokens = [first] ++ name :: operands := by
        rw [words, labelled, tokens] at said
        rw [tokens, show rest = _ from said]
        rfl
      have stands := hasWord_of_tokens split
      rw [List.map_singleton, text_of_label own] at stands
      exact stands

theorem pointsAt_label {line : Line} {name : List Char} (labelled : line.label? = some name) {column : Nat} :
    line.PointsAt .label column ↔ column = line.column .label := by
  constructor
  · rintro ⟨other, own, stands⟩
    exact stands.column_eq (hasWord_label own)
  · rintro rfl
    exact ⟨name, labelled, hasWord_label labelled⟩

theorem pointsAt_statement {line : Line} {s : Statement} (stated : line.statement? = some s) {column : Nat} :
    line.PointsAt .statement column ↔ column = line.column .statement := by
  constructor
  · rintro ⟨other, own, stands⟩
    exact stands.column_eq (hasWord_statement own)
  · rintro rfl
    exact ⟨s, stated, hasWord_statement stated⟩

end Line

theorem pointsAt_of_layoutFault {before : List Line} {line : Line} {after : List Line} {piece : Piece}
    {fault : SourceFault} (fails : layoutFault? before line after = some (piece, fault)) {column : Nat} :
    line.PointsAt piece column ↔ column = line.column piece := by
  unfold layoutFault? at fails
  split at fails
  · cases fails
    exact Iff.rfl
  · split at fails
    · cases fails
      exact Iff.rfl
    · cases fails
  · rcases Option.or_eq_some_iff.mp fails with label | ⟨_, statement⟩
    · obtain ⟨_, found, same⟩ := Option.map_eq_some_iff.mp label
      cases same
      obtain ⟨name, labelled, _⟩ := Option.bind_eq_some_iff.mp found
      exact Line.pointsAt_label labelled
    · obtain ⟨_, found, same⟩ := Option.map_eq_some_iff.mp statement
      cases same
      obtain ⟨s, stated, _⟩ := Option.bind_eq_some_iff.mp found
      exact Line.pointsAt_statement stated

theorem pointsAt_of_emissionFault {before : List Line} {line : Line} {after : List Line} {piece : Piece}
    {fault : SourceFault} (fails : emissionFault? before line after = some (piece, fault)) {column : Nat} :
    line.PointsAt piece column ↔ column = line.column piece := by
  unfold emissionFault? at fails
  split at fails
  · cases fails
  · obtain ⟨s, stated, found⟩ := Option.bind_eq_some_iff.mp fails
    obtain ⟨_, _, same⟩ := Option.map_eq_some_iff.mp found
    cases same
    exact Line.pointsAt_statement stated

theorem Line.number_of_split {number : Nat} {texts : List (List Char)} {before after : List Line} {line : Line}
    (split : numbered number texts = before ++ line :: after) : line.number = number + before.length := by
  induction before generalizing number texts with
  | nil =>
    cases texts with
    | nil => cases split
    | cons text texts =>
      cases split
      rfl
  | cons first before ih =>
    cases texts with
    | nil => cases split
    | cons text texts =>
      rw [ih (List.cons.inj split).2, List.length_cons]
      omega

theorem Line.length_numbered (number : Nat) (texts : List (List Char)) :
    (numbered number texts).length = texts.length := by
  induction texts generalizing number with
  | nil => rfl
  | cons text texts ih => rw [numbered, List.length_cons, List.length_cons, ih]

/-- The first line that fails: no line before it fails in the first pass, or else no line at all does and no line before
    it fails in the second. -/
inductive FirstFault (before : List Line) (line : Line) (after : List Line) (piece : Piece) (fault : SourceFault) : Prop
  | layout (earlier : NoneFails layoutFault? before (line :: after))
    (fails : layoutFault? before line after = some (piece, fault))
  | emission (laid : NoneFails layoutFault? (before ++ line :: after) [])
    (earlier : NoneFails emissionFault? before (line :: after))
    (fails : emissionFault? before line after = some (piece, fault))

theorem FirstFault.pointsAt_iff {before after : List Line} {line : Line} {piece : Piece} {fault : SourceFault}
    (first : FirstFault before line after piece fault) {column : Nat} :
    line.PointsAt piece column ↔ column = line.column piece := by
  cases first with
  | layout _ fails => exact pointsAt_of_layoutFault fails
  | emission _ _ fails => exact pointsAt_of_emissionFault fails

theorem refusal_assemble_eq_some_iff {source : String} {e : SourceError} : refusal (assemble source) = some e ↔
    ∃ before line after found, Line.ofSource source = before ++ line :: after ∧
      FirstFault before line after found.1 found.2 ∧ e = line.errorAt found := by
  rw [refusal_assemble, Option.or_eq_some_iff, firstFault?_eq_some_iff, firstFault?_eq_some_iff, firstFault?_eq_none_iff]
  constructor
  · rintro (⟨before, line, after, found, split, fails, rfl, earlier⟩ |
      ⟨laid, before, line, after, found, split, fails, rfl, earlier⟩)
    · exact ⟨before, line, after, found, split, .layout earlier fails, rfl⟩
    · refine ⟨before, line, after, found, split, .emission ?_ earlier fails, rfl⟩
      intro front other behind same
      rw [List.append_nil]
      exact laid front other behind (split.trans same)
  · rintro ⟨before, line, after, found, split, first, rfl⟩
    cases first with
    | layout earlier fails => exact .inl ⟨before, line, after, found, split, fails, rfl, earlier⟩
    | emission laid earlier fails =>
      refine .inr ⟨?_, before, line, after, found, split, fails, rfl, earlier⟩
      intro front other behind same
      have none := laid front other behind (split.symm.trans same)
      rwa [List.append_nil] at none

/-- Errors point at the right place. A source text is refused for the first of its lines whose marker, label or size of
    the statement fails in the first pass, or, if none does, for the first whose statement fails in the second. The error
    has the number of that line, and its column is that of the label or of the name of the instruction, whichever fails,
    and the first one for a marker. An overflow, which is not reported, stops the assembler at a line of the same kind. -/
theorem assemble_eq_error_iff (source : String) (e : SourceError) :
    assemble source = .error e ↔ ∃ before line after piece, Line.ofSource source = before ++ line :: after ∧
      FirstFault before line after piece e.fault ∧
      (e.line = before.length + 1 ∧ e.line ≤ (Text.lines source.toList).length) ∧
      line.PointsAt piece e.column := by
  rw [← refusal_eq_some_iff, refusal_assemble_eq_some_iff]
  constructor
  · rintro ⟨before, line, after, ⟨piece, fault⟩, split, first, rfl⟩
    have number : line.number = 1 + before.length := Line.number_of_split split
    have count : (Text.lines source.toList).length = before.length + (after.length + 1) := by
      rw [← Line.length_numbered 1, show Line.numbered 1 (Text.lines source.toList) = _ from split, List.length_append,
        List.length_cons]
    refine ⟨before, line, after, piece, split, first, ⟨?_, ?_⟩, first.pointsAt_iff.mpr rfl⟩
    · show line.number = before.length + 1
      omega
    · show line.number ≤ _
      omega
  · rintro ⟨before, line, after, piece, split, first, ⟨number, _⟩, points⟩
    have own : line.number = 1 + before.length := Line.number_of_split split
    refine ⟨before, line, after, (piece, e.fault), split, first, ?_⟩
    rw [Line.errorAt, ← first.pointsAt_iff.mp points, own, Nat.add_comm, ← number]

/-- The second line fails in the first pass, the first line only in the second. Its instruction is behind a label and a
    blank of three bytes. -/
theorem assemble_eq_error_iff_wideBlank :
    let source := "  JMP nowhere\nhere:\u3000JMB here # again\n"
    let e : SourceError := ⟨2, 9, .unknownName ['J', 'M', 'B']⟩
    assemble source = .error e ∧ ∃ before line after piece, Line.ofSource source = before ++ line :: after ∧
      FirstFault before line after piece e.fault ∧
      (e.line = before.length + 1 ∧ e.line ≤ (Text.lines source.toList).length) ∧
      line.PointsAt piece e.column := by
  intro source e
  have refused : assemble source = .error e := by decide +kernel
  exact ⟨refused, (assemble_eq_error_iff source e).mp refused⟩

end Framescript.Assembly
