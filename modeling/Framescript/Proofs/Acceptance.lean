import Framescript.Proofs.Placement
import Mathlib.Data.List.Nodup

/-!
What it takes to be accepted. What becomes of a section depends on its own lines and not on where they stand
(`partOf_unnumbered`), and a source text is accepted if its markers can be read, its parts are distinct, and each of its
sections becomes a part (`assemble_eq_ok_iff`).
-/
namespace Framescript.Assembly

/-! ### Line numbers -/

/-- A statement without the place where it stands. -/
def Statement.unnumbered (s : Statement) : Statement :=
  { s with line := 0 }

def Section.unnumbered (s : Section) : Section :=
  { s with statements := s.statements.map Statement.unnumbered }

def Line.unnumbered (line : Line) : Line :=
  { line with number := 0 }

theorem Statement.toOption_emit (s : Statement) (labels : Labels) :
    (s.emit labels).toOption = (s.instr labels).toOption.map Instr.encode := by
  rw [emit]
  rcases s.instr labels with fault | instr <;> rfl

theorem toOption_emitAll_cons (labels : Labels) (done : Code) (s : Statement) (statements : List Statement) :
    (emitAll labels done (s :: statements)).toOption =
      (s.emit labels).toOption.bind fun bytes => (emitAll labels (done ++ bytes) statements).toOption := by
  rw [emitAll]
  rcases s.emit labels with e | bytes <;> rfl

theorem toOption_emitAll_unnumbered (labels : Labels) (done : Code) (statements : List Statement) :
    (emitAll labels done (statements.map Statement.unnumbered)).toOption = (emitAll labels done statements).toOption := by
  induction statements generalizing done with
  | nil => rfl
  | cons s statements ih =>
    have same : s.unnumbered.instr labels = s.instr labels := rfl
    rw [List.map_cons, toOption_emitAll_cons, toOption_emitAll_cons, Statement.toOption_emit, Statement.toOption_emit,
      same]
    exact congrArg _ (funext fun bytes => ih (done ++ bytes))

namespace Section

theorem toOption_emit (s : Section) :
    s.emit.toOption = (emitAll s.labels #[] s.statements.reverse).toOption.map (Part.mk s.id) := by
  rw [emit]
  rcases emitAll s.labels #[] s.statements.reverse with e | code <;> rfl

theorem toOption_emit_unnumbered (s : Section) : s.unnumbered.emit.toOption = s.emit.toOption := by
  rw [toOption_emit, toOption_emit]
  show (emitAll s.labels #[] (s.statements.map Statement.unnumbered).reverse).toOption.map (Part.mk s.id) = _
  rw [← List.map_reverse, toOption_emitAll_unnumbered]

theorem toOption_addStatement_cons (s : Section) (number : Nat) (name : Token) (operands : List Token) :
    (s.addStatement number (name :: operands)).toOption =
      (Statement.mk number name.column name.text (operands.map (·.text))).size.toOption.map fun n =>
        { s with
          statements := ⟨number, name.column, name.text, operands.map (·.text)⟩ :: s.statements, size := s.size + n } := by
  simp only [addStatement]
  split <;> simp only [*] <;> rfl

theorem addStatement_unnumbered (s : Section) (number : Nat) (tokens : List Token) :
    (s.addStatement number tokens).toOption.map unnumbered = (s.unnumbered.addStatement 0 tokens).toOption := by
  cases tokens with
  | nil => rfl
  | cons name operands =>
    rw [toOption_addStatement_cons, toOption_addStatement_cons, Option.map_map]
    rfl

theorem toOption_addLine_cons (s : Section) (number : Nat) (first : Token) (rest : List Token) :
    (s.addLine number (first :: rest)).toOption = (label? first).elim (s.addStatement number (first :: rest)).toOption
      fun label => (s.addLabel label).toOption.bind fun s => (s.addStatement number rest).toOption := by
  rw [addLine]
  rcases label? first with _ | label
  · rfl
  · simp only [Option.elim_some]
    rcases s.addLabel label with fault | t <;> rfl

theorem addLabel_unnumbered (s : Section) (label : List Char) :
    (s.unnumbered.addLabel label) = (s.addLabel label).map unnumbered := by
  simp only [addLabel]
  show (if (s.labels.lookup label).isSome then _ else if s.size < 0x10000 then _ else _) = _
  split
  · rfl
  · split <;> rfl

theorem addLine_unnumbered (s : Section) (number : Nat) (tokens : List Token) :
    (s.addLine number tokens).toOption.map unnumbered = (s.unnumbered.addLine 0 tokens).toOption := by
  cases tokens with
  | nil => rfl
  | cons first rest =>
    rw [toOption_addLine_cons, toOption_addLine_cons]
    rcases label? first with _ | label
    · exact s.addStatement_unnumbered number (first :: rest)
    · simp only [Option.elim_some, addLabel_unnumbered]
      rcases s.addLabel label with fault | t
      · rfl
      · exact t.addStatement_unnumbered number rest

theorem toOption_addAll_cons (s : Section) (line : Line) (lines : List Line) :
    (s.addAll (line :: lines)).toOption =
      (s.addLine line.number line.tokens).toOption.bind fun s => (s.addAll lines).toOption := by
  rw [addAll]
  rcases s.addLine line.number line.tokens with e | t <;> rfl

theorem addAll_unnumbered (s : Section) (lines : List Line) :
    (s.addAll lines).toOption.map unnumbered = (s.unnumbered.addAll (lines.map Line.unnumbered)).toOption := by
  induction lines generalizing s with
  | nil => rfl
  | cons line lines ih =>
    have here : (s.unnumbered.addLine line.unnumbered.number line.unnumbered.tokens).toOption = _ :=
      (s.addLine_unnumbered line.number line.tokens).symm
    rw [List.map_cons, toOption_addAll_cons, toOption_addAll_cons, here, Option.bind_map, Option.map_bind]
    exact congrArg _ (funext ih)

end Section

/-- The part that a section becomes. -/
def partOf (block : UInt16 × List Line) : Option Part :=
  (({ id := block.1 } : Section).addAll block.2).toOption.bind fun s => s.emit.toOption

theorem partOf_eq_some_iff {block : UInt16 × List Line} {part : Part} :
    partOf block = some part ↔ ∃ s, Built block s ∧ s.emit = .ok part := by
  unfold partOf Built
  rcases ({ id := block.1 } : Section).addAll block.2 with e | s
  · simp [Except.toOption]
  · rcases made : s.emit with e | found <;> simp [Except.toOption, made]

theorem id_of_partOf {block : UInt16 × List Line} {part : Part} (becomes : partOf block = some part) :
    part.id = block.1 := by
  obtain ⟨s, built, emitted⟩ := partOf_eq_some_iff.mp becomes
  exact (placed_of_built built emitted).1

/-- A section becomes the same part wherever it stands. -/
theorem partOf_unnumbered (id : UInt16) (lines : List Line) :
    partOf (id, lines.map Line.unnumbered) = partOf (id, lines) := by
  have same := ({ id } : Section).addAll_unnumbered lines
  unfold partOf
  show (({ id } : Section).unnumbered.addAll (lines.map Line.unnumbered)).toOption.bind _ = _
  rw [← same]
  rcases (({ id } : Section).addAll lines).toOption with _ | s
  · rfl
  · exact s.toOption_emit_unnumbered

/-! ### Labels of lines -/

/-- The labels of lines that begin at an offset, newest first. -/
def labelsFrom (offset : Nat) : List Line → Labels
  | [] => []
  | line :: lines => labelsFrom (offset + line.size) lines ++ (line.label?.map (·, UInt16.ofNat offset)).toList

theorem isSome_lookup_labelsFrom (offset : Nat) (lines : List Line) (name : List Char) :
    ((labelsFrom offset lines).lookup name).isSome = lines.any (·.label? = some name) := by
  induction lines generalizing offset with
  | nil => rfl
  | cons line lines ih =>
    rw [labelsFrom, List.lookup_append, Option.isSome_or, ih, List.any_cons, Bool.or_comm]
    congr 1
    rcases line.label? with _ | label
    · rfl
    · by_cases same : name = label
      · simp [same]
      · simp [List.lookup_cons, beq_false_of_ne same, Ne.symm same]

theorem Section.labels_of_addAll {s after : Section} {lines : List Line} (added : s.addAll lines = .ok after) :
    after.labels = labelsFrom s.size lines ++ s.labels := by
  induction lines generalizing s with
  | nil =>
    cases added
    rfl
  | cons line lines ih =>
    obtain ⟨middle, here, there⟩ := addAll_cons added
    have adds := adds_of_addLine here
    rw [ih there, adds.labels, adds.size, labelsFrom, List.append_assoc]

theorem labels_of_built {block : UInt16 × List Line} {s : Section} (built : Built block s) :
    s.labels = labelsFrom 0 block.2 :=
  (Section.labels_of_addAll built).trans (List.append_nil _)

/-! ### Sections of a text -/

theorem Line.tokens_eq_nil_iff (line : Line) : line.tokens = [] ↔ line.label? = none ∧ line.statement? = none := by
  unfold statement? words label?
  rcases line.tokens with _ | ⟨first, rest⟩
  · simp
  · rcases own : Assembly.label? first with _ | name <;> simp [own]

/-- Whether a line is no section marker that cannot be read. -/
def Line.Legible (line : Line) : Prop :=
  ∀ fault, marker? line.text ≠ some (.error fault)

namespace Layout

theorem addLines_legible {layout after : Layout} {number : Nat} {texts : List (List Char)}
    (laid : layout.addLines number texts = .ok after) : ∀ line ∈ Line.numbered number texts, line.Legible := by
  induction texts generalizing layout number with
  | nil => simp [Line.numbered]
  | cons text texts ih =>
    obtain ⟨middle, line, rest⟩ := addLines_cons laid
    refine List.forall_mem_cons.mpr ⟨?_, ih rest⟩
    intro fault marks
    rw [addLine, show marker? text = _ from marks] at line
    cases line

/-- A line starts a part that is not there yet, or it leaves the parts as they are. -/
theorem addLine_nodup {layout after : Layout} {number : Nat} {text : List Char}
    (added : layout.addLine number text = .ok after) (distinct : (layout.map Section.id).Nodup) :
    (after.map Section.id).Nodup := by
  unfold addLine at added
  split at added
  · cases added
  · rename_i id marks
    rw [addSection] at added
    split at added
    · cases added
    · rename_i fresh
      cases added
      refine List.nodup_cons.mpr ⟨?_, distinct⟩
      intro member
      obtain ⟨s, among, same⟩ := List.mem_map.mp member
      exact fresh (List.any_eq_true.mpr ⟨s, among, by simpa using same⟩)
  · rename_i unmarked
    rcases layout with _ | ⟨newest, older⟩
    · by_cases silent : Token.ofLine text = []
      · rw [silent] at added
        cases added
        exact distinct
      · obtain ⟨s, _, rfl⟩ := addTokens_nil silent added
        exact List.nodup_singleton _
    · obtain ⟨s, here, rfl⟩ := addTokens_cons added
      have same : s.id = newest.id := (Section.adds_of_addLine (show newest.addLine (⟨number, text⟩ : Line).number
        (⟨number, text⟩ : Line).tokens = .ok s from here)).id
      rw [List.map_cons, same]
      exact distinct

theorem addLines_nodup {layout after : Layout} {number : Nat} {texts : List (List Char)}
    (laid : layout.addLines number texts = .ok after) (distinct : (layout.map Section.id).Nodup) :
    (after.map Section.id).Nodup := by
  induction texts generalizing layout number with
  | nil =>
    cases laid
    exact distinct
  | cons text texts ih =>
    obtain ⟨middle, line, rest⟩ := addLines_cons laid
    exact ih rest (addLine_nodup line distinct)

/-- A marker that can be read starts a part that is not there yet. -/
theorem addLine_marker {layout : Layout} {number : Nat} {text : List Char} {id : UInt16}
    (marks : (⟨number, text⟩ : Line).part? = some id) (fresh : id ∉ layout.map Section.id) :
    layout.addLine number text = .ok ({ id } :: layout) := by
  have read : marker? text = some (.ok id) := by
    obtain ⟨marked, found, read⟩ := Option.bind_eq_some_iff.mp marks
    rcases marked with fault | id'
    · cases read
    · cases read
      exact found
  rw [addLine, read]
  show addSection layout number id = _
  rw [addSection, if_neg]
  intro taken
  obtain ⟨s, among, same⟩ := List.any_eq_true.mp taken
  exact fresh (List.mem_map.mpr ⟨s, among, by simpa using same⟩)

theorem addLine_plain {layout : Layout} {number : Nat} {text : List Char} (legible : (⟨number, text⟩ : Line).Legible)
    (plain : (⟨number, text⟩ : Line).part? = none) :
    layout.addLine number text = layout.addTokens number (⟨number, text⟩ : Line).tokens := by
  have unmarked : marker? text = none := by
    rcases marked : marker? text with _ | fault | id
    · rfl
    · exact absurd marked (legible fault)
    · rw [Line.part?, show marker? (⟨number, text⟩ : Line).text = _ from marked] at plain
      cases plain
  rw [addLine, unmarked]
  rfl

theorem addTokens_newest {s after : Section} {number : Nat} {tokens : List Token}
    (added : s.addLine number tokens = .ok after) (older : Layout) :
    addTokens (s :: older) number tokens = .ok (after :: older) := by
  cases tokens with
  | nil =>
    cases added
    rfl
  | cons token tokens => simp only [addTokens, List.isEmpty_cons, Bool.false_eq_true, if_false, added]

/-- Lines behind a section are laid out if the rest of the section and the sections behind it are, and if no part comes
    twice. -/
theorem addLines_of_newest {s last : Section} {older : Layout} {later : List Section} {number : Nat}
    {texts : List (List Char)} (legible : ∀ line ∈ Line.numbered number texts, line.Legible)
    (own : s.addAll (divide (Line.numbered number texts)).1 = .ok last)
    (others : List.Forall₂ Built (divide (Line.numbered number texts)).2 later)
    (distinct : (((divide (Line.numbered number texts)).2.map Prod.fst).reverse ++ (s :: older).map Section.id).Nodup) :
    addLines (s :: older) number texts = .ok (later.reverse ++ last :: older) := by
  induction texts generalizing s last older later number with
  | nil =>
    cases own
    cases others
    rfl
  | cons text texts ih =>
    obtain ⟨here, there⟩ := List.forall_mem_cons.mp legible
    rcases marked : (⟨number, text⟩ : Line).part? with _ | id
    · rw [Line.numbered, divide_plain marked] at own others distinct
      obtain ⟨middle, added, rest⟩ := Section.addAll_cons own
      have same := (Section.adds_of_addLine added).id
      rw [addLines, addLine_plain here marked, addTokens_newest added]
      refine ih there rest others ?_
      rw [List.map_cons, same]
      exact distinct
    · rw [Line.numbered, divide_marker marked] at own others distinct
      have same : s = last := Except.ok.inj own
      subst same
      obtain ⟨first, behind, built, rest, rfl⟩ := List.forall₂_cons_left_iff.mp others
      rw [List.map_cons, List.reverse_cons, List.append_assoc] at distinct
      have fresh : id ∉ (s :: older).map Section.id :=
        (List.nodup_cons.mp (List.nodup_append.mp distinct).2.1).1
      rw [addLines, addLine_marker marked fresh, List.reverse_cons, List.append_assoc, List.singleton_append]
      exact ih there built rest distinct

end Layout

section wordless

variable {line : Line} (plain : line.part? = none) (wordless : line.tokens = [])

include plain wordless

theorem sectionsOf_wordless (lines : List Line) : sectionsOf (line :: lines) = sectionsOf lines ∨
    sectionsOf (line :: lines) = (Part.first, line :: (divide lines).1) :: (divide lines).2 ∧
      sectionsOf lines = (Part.first, (divide lines).1) :: (divide lines).2 := by
  have same : (line :: (divide lines).1).all (·.tokens.isEmpty) = (divide lines).1.all (·.tokens.isEmpty) := by
    simp [wordless]
  rw [sectionsOf, divide_plain plain, same, sectionsOf]
  by_cases silent : (divide lines).1.all (·.tokens.isEmpty) = true
  · rw [if_pos silent, if_pos silent]
    exact .inl rfl
  · rw [if_neg silent, if_neg silent]
    exact .inr ⟨rfl, rfl⟩

theorem ids_wordless (lines : List Line) :
    (sectionsOf (line :: lines)).map Prod.fst = (sectionsOf lines).map Prod.fst := by
  rcases sectionsOf_wordless plain wordless lines with same | ⟨here, there⟩
  · rw [same]
  · rw [here, there]
    rfl

theorem built_wordless {lines : List Line} {sections : List Section}
    (built : List.Forall₂ Built (sectionsOf (line :: lines)) sections) :
    List.Forall₂ Built (sectionsOf lines) sections := by
  rcases sectionsOf_wordless plain wordless lines with same | ⟨here, there⟩
  · rwa [same] at built
  · rw [here] at built
    rw [there]
    obtain ⟨first, later, own, others, rfl⟩ := List.forall₂_cons_left_iff.mp built
    rw [Built, Section.addAll_of_wordless wordless] at own
    exact .cons own others

end wordless

/-- A text is laid out if each of its sections is, and if no part comes twice. -/
theorem Layout.addLines_of_sections {sections : List Section} {number : Nat} {texts : List (List Char)}
    (legible : ∀ line ∈ Line.numbered number texts, line.Legible)
    (built : List.Forall₂ Built (sectionsOf (Line.numbered number texts)) sections)
    (distinct : ((sectionsOf (Line.numbered number texts)).map Prod.fst).Nodup) :
    addLines [] number texts = .ok sections.reverse := by
  have reversed {ids : List UInt16} {id : UInt16} (unlike : (id :: ids).Nodup) : (ids.reverse ++ [id]).Nodup := by
    rw [← List.reverse_cons]
    exact List.nodup_reverse.mpr unlike
  induction texts generalizing number with
  | nil =>
    cases built
    rfl
  | cons text texts ih =>
    obtain ⟨here, there⟩ := List.forall_mem_cons.mp legible
    rw [Line.numbered] at built distinct
    rcases marked : (⟨number, text⟩ : Line).part? with _ | id
    · by_cases wordless : (⟨number, text⟩ : Line).tokens = []
      · rw [ids_wordless marked wordless] at distinct
        rw [addLines, addLine_plain here marked, wordless]
        exact ih there (built_wordless marked wordless built) distinct
      · rw [sectionsOf, divide_plain marked, if_neg (by simp [wordless])] at built distinct
        obtain ⟨last, later, own, others, rfl⟩ := List.forall₂_cons_left_iff.mp built
        obtain ⟨middle, added, rest⟩ := Section.addAll_cons own
        have same := (Section.adds_of_addLine added).id
        have first : addTokens [] number (⟨number, text⟩ : Line).tokens = .ok [middle] := by
          rw [addTokens, if_neg (by simpa using wordless), added]
        rw [addLines, addLine_plain here marked, first, List.reverse_cons]
        refine addLines_of_newest there rest others ?_
        rw [List.map_singleton, same]
        exact reversed distinct
    · rw [sectionsOf, divide_marker marked] at built distinct
      obtain ⟨last, later, own, others, rfl⟩ := List.forall₂_cons_left_iff.mp built
      rw [addLines, addLine_marker marked (by simp), List.reverse_cons]
      exact addLines_of_newest there own others (reversed distinct)

/-! ### Accepted texts -/

theorem emitSections_eq_ok_iff {done : List Part} {sections : List Section} {program : Program} :
    emitSections done sections = .ok program ↔ ∃ parts, program.parts = done.reverse ++ parts ∧
      List.Forall₂ (fun s part => s.emit = .ok part) sections parts := by
  induction sections generalizing done with
  | nil =>
    rw [emitSections]
    constructor
    · rintro ⟨⟩
      exact ⟨[], (List.append_nil _).symm, .nil⟩
    · rintro ⟨parts, order, made⟩
      cases made
      rw [List.append_nil] at order
      rw [← order]
  | cons s sections ih =>
    rw [emitSections]
    rcases own : s.emit with e | part
    · refine iff_of_false (fun emitted => by cases emitted) ?_
      rintro ⟨parts, _, made⟩
      obtain ⟨_, _, here, _⟩ := List.forall₂_cons_left_iff.mp made
      cases own.symm.trans here
    · simp only [ih, List.reverse_cons, List.append_assoc, List.singleton_append]
      constructor
      · rintro ⟨parts, order, made⟩
        exact ⟨part :: parts, order, .cons own made⟩
      · rintro ⟨parts, order, made⟩
        obtain ⟨_, rest, here, there, rfl⟩ := List.forall₂_cons_left_iff.mp made
        cases own.symm.trans here
        exact ⟨rest, order, there⟩

theorem forall_partOf_iff {blocks : List (UInt16 × List Line)} {parts : List Part} :
    List.Forall₂ (fun block part => partOf block = some part) blocks parts ↔
      ∃ sections, List.Forall₂ Built blocks sections ∧ List.Forall₂ (fun s part => s.emit = .ok part) sections parts := by
  constructor
  · intro becomes
    induction becomes with
    | nil => exact ⟨[], .nil, .nil⟩
    | cons here _ ih =>
      obtain ⟨s, built, emitted⟩ := partOf_eq_some_iff.mp here
      obtain ⟨sections, all, made⟩ := ih
      exact ⟨s :: sections, .cons built all, .cons emitted made⟩
  · rintro ⟨sections, built, made⟩
    induction built generalizing parts with
    | nil =>
      cases made
      exact .nil
    | cons here _ ih =>
      obtain ⟨part, rest, emitted, others, rfl⟩ := List.forall₂_cons_left_iff.mp made
      exact .cons (partOf_eq_some_iff.mpr ⟨_, here, emitted⟩) (ih others)

theorem ids_of_built {blocks : List (UInt16 × List Line)} {sections : List Section}
    (built : List.Forall₂ Built blocks sections) : sections.map Section.id = blocks.map Prod.fst := by
  induction built with
  | nil => rfl
  | cons here _ ih => rw [List.map_cons, List.map_cons, ih, (Section.addAll_adds here).1]

/-- The lines of a text without their numbers. -/
def Line.ofText (cs : List Char) : List Line :=
  (Text.lines cs).map (Line.mk 0)

theorem Line.map_unnumbered_numbered (number : Nat) (texts : List (List Char)) :
    (numbered number texts).map unnumbered = texts.map (Line.mk 0) := by
  induction texts generalizing number with
  | nil => rfl
  | cons text texts ih => exact congrArg (Line.mk 0 text :: ·) (ih _)

theorem divide_unnumbered (lines : List Line) : divide (lines.map Line.unnumbered) =
    ((divide lines).1.map Line.unnumbered, (divide lines).2.map fun block => (block.1, block.2.map Line.unnumbered)) := by
  induction lines with
  | nil => rfl
  | cons line lines ih =>
    have same : line.unnumbered.part? = line.part? := rfl
    rw [List.map_cons, divide, divide, same, ih]
    rcases line.part? with _ | id <;> rfl

theorem sectionsOf_unnumbered (lines : List Line) : sectionsOf (lines.map Line.unnumbered) =
    (sectionsOf lines).map fun block => (block.1, block.2.map Line.unnumbered) := by
  have same : ((divide lines).1.map Line.unnumbered).all (·.tokens.isEmpty) =
      (divide lines).1.all (·.tokens.isEmpty) := by
    rw [List.all_map]
    rfl
  rw [sectionsOf, divide_unnumbered, same, sectionsOf]
  split <;> rfl

/-- A source text is accepted if its markers can be read, its parts are distinct, and each of its sections becomes a
    part. -/
theorem assemble_eq_ok_iff {source : String} {parts : List Part} :
    assemble source = .ok ⟨parts⟩ ↔ (∀ line ∈ Line.ofText source.toList, line.Legible) ∧
      ((sectionsOf (Line.ofText source.toList)).map Prod.fst).Nodup ∧
      List.Forall₂ (fun block part => partOf block = some part) (sectionsOf (Line.ofText source.toList)) parts := by
  have texts : Line.ofText source.toList = (Line.numbered 1 (Text.lines source.toList)).map Line.unnumbered :=
    (Line.map_unnumbered_numbered 1 _).symm
  have ids : (sectionsOf (Line.ofText source.toList)).map Prod.fst =
      (sectionsOf (Line.numbered 1 (Text.lines source.toList))).map Prod.fst := by
    rw [texts, sectionsOf_unnumbered, List.map_map]
    rfl
  have becomes : List.Forall₂ (fun block part => partOf block = some part) (sectionsOf (Line.ofText source.toList)) parts ↔
      List.Forall₂ (fun block part => partOf block = some part)
        (sectionsOf (Line.numbered 1 (Text.lines source.toList))) parts := by
    rw [texts, sectionsOf_unnumbered, List.forall₂_map_left_iff]
    simp only [partOf_unnumbered]
  have legible : (∀ line ∈ Line.ofText source.toList, line.Legible) ↔
      ∀ line ∈ Line.numbered 1 (Text.lines source.toList), line.Legible := by
    rw [texts, List.forall_mem_map]
    exact Iff.rfl
  rw [ids, becomes, legible, forall_partOf_iff, assemble]
  constructor
  · intro accepted
    split at accepted
    · cases accepted
    · rename_i sections laid
      obtain ⟨own, order, made⟩ := emitSections_eq_ok_iff.mp accepted
      have built : List.Forall₂ Built (sectionsOf (Line.numbered 1 (Text.lines source.toList))) sections :=
        Layout.ofSource_built laid
      rw [Layout.ofSource] at laid
      split at laid
      · cases laid
      · rename_i layout lines
        cases laid
        refine ⟨Layout.addLines_legible lines, ?_, _, built, ?_⟩
        · rw [← ids_of_built built, List.map_reverse]
          exact List.nodup_reverse.mpr (Layout.addLines_nodup lines List.nodup_nil)
        · rw [show parts = own from order]
          exact made
  · rintro ⟨legible, distinct, sections, built, made⟩
    rw [Layout.ofSource, Layout.addLines_of_sections legible built distinct]
    simp only [List.reverse_reverse]
    exact emitSections_eq_ok_iff.mpr ⟨parts, rfl, made⟩

end Framescript.Assembly
