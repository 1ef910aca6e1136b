import Framescript.Proofs.Acceptance
import Framescript.Proofs.Relisting

/-!
Parts are assembled one by one. A source text can be cut at its markers into a text for each section (`exists_cutInto`),
and it assembles to the parts that these texts assemble to by themselves (`assemble_separately`).
-/
namespace Framescript

/-! ### Lines of texts -/

namespace Text

theorem lines_line {line : List Char} (unbroken : '\n' ∉ line) (rest : List Char) :
    lines (line ++ '\n' :: rest) = dropReturn line :: lines rest := by
  rw [lines, pieces_line unbroken]
  rfl

theorem lines_last {line : List Char} (unbroken : '\n' ∉ line) (some : line ≠ []) : lines line = [line] := by
  rw [lines, pieces_last unbroken some]
  rfl

/-- A text is empty, or it has a first line with its end, or it is a line without an end. -/
theorem first_line (cs : List Char) :
    cs = [] ∨ (∃ line rest, '\n' ∉ line ∧ cs = line ++ '\n' :: rest) ∨ '\n' ∉ cs ∧ cs ≠ [] := by
  by_cases broken : '\n' ∈ cs
  · obtain ⟨line, rest, split, unbroken⟩ := List.eq_append_cons_of_mem broken
    exact .inr (.inl ⟨line, rest, unbroken, split⟩)
  · by_cases empty : cs = []
    · exact .inl empty
    · exact .inr (.inr ⟨broken, empty⟩)

/-- Whether a new line begins behind a text. -/
def EndsLine (cs : List Char) : Prop :=
  ∀ c, cs.getLast? = some c → c = '\n'

theorem lines_append {front : List Char} (ends : EndsLine front) (back : List Char) :
    lines (front ++ back) = lines front ++ lines back := by
  induction length : front.length using Nat.strongRecOn generalizing front with
  | ind n ih =>
    rcases first_line front with rfl | ⟨line, rest, unbroken, rfl⟩ | ⟨unbroken, some⟩
    · rfl
    · have later : EndsLine rest := by
        intro c last
        exact ends c (by rw [List.getLast?_append, List.getLast?_cons, last]; rfl)
      rw [List.append_assoc, List.cons_append, lines_line unbroken, lines_line unbroken,
        ih rest.length (by simp at length; omega) later rfl]
      rfl
    · have last := ends _ (List.getLast?_eq_some_getLast some)
      exact absurd (last ▸ List.getLast_mem some) unbroken

theorem EndsLine.line {rest : List Char} (ends : EndsLine rest) (line : List Char) : EndsLine (line ++ '\n' :: rest) := by
  intro c last
  rw [List.getLast?_append, List.getLast?_cons, Option.some_or] at last
  rcases ending : rest.getLast? with _ | d
  · rw [ending] at last
    exact (Option.some.inj last).symm
  · rw [ending] at last
    exact ends c (ending.trans last)

theorem EndsLine.line_dropLast {first : List Char} {texts : List (List Char)}
    (ends : ∀ text ∈ (first :: texts).dropLast, EndsLine text) (line : List Char) :
    ∀ text ∈ ((line ++ '\n' :: first) :: texts).dropLast, EndsLine text := by
  cases texts with
  | nil => simp
  | cons next texts =>
    obtain ⟨here, there⟩ := List.forall_mem_cons.mp ends
    exact List.forall_mem_cons.mpr ⟨here.line line, there⟩

/-- Texts that each end a line have their lines one after the other. -/
theorem lines_flatten {texts : List (List Char)} (ends : ∀ text ∈ texts.dropLast, EndsLine text) :
    lines texts.flatten = texts.flatMap lines := by
  induction texts with
  | nil => rfl
  | cons text texts ih =>
    cases texts with
    | nil => simp
    | cons next texts =>
      obtain ⟨here, there⟩ := List.forall_mem_cons.mp ends
      rw [List.flatten_cons, lines_append here, ih there]
      rfl

end Text

namespace Assembly

/-! ### Texts of sections -/

/-- The text of a section: the marker of its part and lines that are no markers. -/
def MarkedBy (id : UInt16) (text : List Char) : Prop :=
  ∃ marker lines, Line.ofText text = marker :: lines ∧ marker.part? = some id ∧ ∀ line ∈ lines, line.part? = none

/-- A source text is cut at its markers into the text in front of them and the texts of its sections. -/
structure CutInto (source lead : List Char) (sections : List (UInt16 × List Char)) : Prop where
  whole : source = (lead :: sections.map Prod.snd).flatten
  ends : ∀ text ∈ (lead :: sections.map Prod.snd).dropLast, Text.EndsLine text
  unmarked : ∀ line ∈ Line.ofText lead, line.part? = none
  marked : ∀ block ∈ sections, MarkedBy block.1 block.2

theorem Line.ofText_line {line : List Char} (unbroken : '\n' ∉ line) (rest : List Char) :
    ofText (line ++ '\n' :: rest) = ⟨0, Text.dropReturn line⟩ :: ofText rest := by
  rw [ofText, Text.lines_line unbroken]
  rfl

theorem Line.ofText_last {line : List Char} (unbroken : '\n' ∉ line) (some : line ≠ []) : ofText line = [⟨0, line⟩] := by
  rw [ofText, Text.lines_last unbroken some]
  rfl

namespace CutInto

/-- A line without a marker belongs to the text in front. -/
theorem cons_plain {source lead line : List Char} {sections : List (UInt16 × List Char)}
    (cut : CutInto source lead sections) (unbroken : '\n' ∉ line)
    (plain : (⟨0, Text.dropReturn line⟩ : Line).part? = none) :
    CutInto (line ++ '\n' :: source) (line ++ '\n' :: lead) sections := by
  refine ⟨?_, Text.EndsLine.line_dropLast cut.ends line, ?_, cut.marked⟩
  · rw [cut.whole]
    simp
  · rw [Line.ofText_line unbroken]
    exact List.forall_mem_cons.mpr ⟨plain, cut.unmarked⟩

/-- A marker starts a text, to which the lines go that were in front. -/
theorem cons_marker {source lead line : List Char} {sections : List (UInt16 × List Char)} {id : UInt16}
    (cut : CutInto source lead sections) (unbroken : '\n' ∉ line)
    (marks : (⟨0, Text.dropReturn line⟩ : Line).part? = some id) :
    CutInto (line ++ '\n' :: source) [] ((id, line ++ '\n' :: lead) :: sections) := by
  refine ⟨?_, ?_, ?_, ?_⟩
  · rw [cut.whole]
    simp
  · exact List.forall_mem_cons.mpr ⟨by simp [Text.EndsLine], Text.EndsLine.line_dropLast cut.ends line⟩
  · simp [Line.ofText, Text.lines, Text.pieces]
  · exact List.forall_mem_cons.mpr ⟨⟨_, _, Line.ofText_line unbroken lead, marks, cut.unmarked⟩, cut.marked⟩

end CutInto

/-- Every text can be cut at its markers. -/
theorem exists_cutInto (source : List Char) : ∃ lead sections, CutInto source lead sections := by
  induction length : source.length using Nat.strongRecOn generalizing source with
  | ind n ih =>
    have empty : ∀ line ∈ Line.ofText [], line.part? = none := by simp [Line.ofText, Text.lines, Text.pieces]
    rcases Text.first_line source with rfl | ⟨line, rest, unbroken, rfl⟩ | ⟨unbroken, some⟩
    · exact ⟨[], [], by simp, by simp, empty, by simp⟩
    · obtain ⟨lead, sections, cut⟩ := ih rest.length (by simp at length; omega) rest rfl
      rcases marked : (⟨0, Text.dropReturn line⟩ : Line).part? with _ | id
      · exact ⟨_, _, cut.cons_plain unbroken marked⟩
      · exact ⟨_, _, cut.cons_marker unbroken marked⟩
    · have single := Line.ofText_last unbroken some
      rcases marked : (⟨0, source⟩ : Line).part? with _ | id
      · exact ⟨source, [], by simp, by simp, by simpa [single] using marked, by simp⟩
      · refine ⟨[], [(id, source)], by simp, by simp [Text.EndsLine], empty, ?_⟩
        simpa using ⟨_, _, single, marked, by simp⟩

/-! ### Sections of a text that is cut -/

theorem divide_append {front : List Line} (plain : ∀ line ∈ front, line.part? = none) (lines : List Line) :
    divide (front ++ lines) = (front ++ (divide lines).1, (divide lines).2) := by
  induction front with
  | nil => rfl
  | cons line front ih =>
    obtain ⟨here, there⟩ := List.forall_mem_cons.mp plain
    rw [List.cons_append, divide_plain here, ih there]
    rfl

theorem divide_unmarked {lines : List Line} (plain : ∀ line ∈ lines, line.part? = none) : divide lines = (lines, []) := by
  have divided := divide_append plain []
  rwa [List.append_nil, divide, List.append_nil] at divided

/-- The lines of a section behind its marker, with its part. -/
def blockOf (block : UInt16 × List Char) : UInt16 × List Line :=
  (block.1, (Line.ofText block.2).tail)

theorem divide_marked {sections : List (UInt16 × List Char)} (marked : ∀ block ∈ sections, MarkedBy block.1 block.2) :
    divide (sections.flatMap fun block => Line.ofText block.2) = ([], sections.map blockOf) := by
  induction sections with
  | nil => rfl
  | cons block sections ih =>
    obtain ⟨⟨marker, lines, own, marks, plain⟩, there⟩ := List.forall_mem_cons.mp marked
    rw [List.flatMap_cons, own, List.cons_append, divide_marker marks, divide_append plain, ih there, List.map_cons,
      blockOf, own, List.append_nil]
    rfl

theorem sectionsOf_marked {id : UInt16} {text : List Char} (marked : MarkedBy id text) :
    sectionsOf (Line.ofText text) = [blockOf (id, text)] := by
  have divided := divide_marked (List.forall_mem_singleton.mpr (show MarkedBy (id, text).1 (id, text).2 from marked))
  rw [List.flatMap_singleton] at divided
  rw [sectionsOf, divided]
  rfl

theorem CutInto.lines {source lead : List Char} {sections : List (UInt16 × List Char)}
    (cut : CutInto source lead sections) :
    Line.ofText source = Line.ofText lead ++ sections.flatMap fun block => Line.ofText block.2 := by
  rw [Line.ofText, cut.whole, Text.lines_flatten cut.ends]
  simp [Line.ofText, List.map_flatMap, List.flatMap_map]

/-- The sections of a text that is cut are those of the text in front and then the others. -/
theorem CutInto.sectionsOf_eq {source lead : List Char} {sections : List (UInt16 × List Char)}
    (cut : CutInto source lead sections) :
    sectionsOf (Line.ofText source) = sectionsOf (Line.ofText lead) ++ sections.map blockOf := by
  rw [sectionsOf, sectionsOf, divide_unmarked cut.unmarked, cut.lines, divide_append cut.unmarked,
    divide_marked cut.marked, List.append_nil]
  split <;> rfl

/-! ### Parts of a text that is cut -/

/-- The text of a section assembles to the part that the section becomes. -/
theorem assemble_marked {id : UInt16} {text : List Char} (marked : MarkedBy id text) {part : Part} :
    assemble (String.ofList text) = .ok ⟨[part]⟩ ↔
      (∀ line ∈ Line.ofText text, line.Legible) ∧ partOf (blockOf (id, text)) = some part := by
  rw [assemble_eq_ok_iff, String.toList_ofList, sectionsOf_marked marked]
  simp

/-- The texts of sections assemble to the parts that the sections become. -/
theorem forall_marked_iff {sections : List (UInt16 × List Char)} (marked : ∀ block ∈ sections, MarkedBy block.1 block.2)
    {parts : List Part} :
    List.Forall₂ (fun block part => part.id = block.1 ∧ assemble (String.ofList block.2) = .ok ⟨[part]⟩) sections parts ↔
      (∀ block ∈ sections, ∀ line ∈ Line.ofText block.2, line.Legible) ∧
        List.Forall₂ (fun block part => partOf block = some part) (sections.map blockOf) parts := by
  rw [List.forall₂_map_left_iff]
  induction sections generalizing parts with
  | nil => simp
  | cons block sections ih =>
    obtain ⟨here, there⟩ := List.forall_mem_cons.mp marked
    rw [List.forall₂_cons_left_iff, List.forall₂_cons_left_iff, List.forall_mem_cons]
    constructor
    · rintro ⟨part, rest, ⟨_, own⟩, others, rfl⟩
      obtain ⟨legible, becomes⟩ := (assemble_marked here).mp own
      obtain ⟨all, made⟩ := (ih there).mp others
      exact ⟨⟨legible, all⟩, part, rest, becomes, made, rfl⟩
    · rintro ⟨⟨legible, all⟩, part, rest, becomes, made, rfl⟩
      exact ⟨part, rest, ⟨id_of_partOf becomes, (assemble_marked here).mpr ⟨legible, becomes⟩⟩,
        (ih there).mpr ⟨all, made⟩, rfl⟩

theorem ids_of_parts {blocks : List (UInt16 × List Line)} {parts : List Part}
    (become : List.Forall₂ (fun block part => partOf block = some part) blocks parts) :
    parts.map Part.id = blocks.map Prod.fst := by
  induction become with
  | nil => rfl
  | cons here _ ih => rw [List.map_cons, List.map_cons, ih, id_of_partOf here]

/-- The lines in front of the markers are a section of the first part, unless there is neither a label nor an
    instruction in them. -/
theorem sectionsOf_unmarked {lines : List Line} (unmarked : ∀ line ∈ lines, line.part? = none) :
    (sectionsOf lines = [] ∧ ∀ line ∈ lines, line.label? = none ∧ line.statement? = none) ∨
    sectionsOf lines = [(Part.first, lines)] ∧ ∃ line ∈ lines, line.label? ≠ none ∨ line.statement? ≠ none := by
  rw [sectionsOf, divide_unmarked unmarked]
  by_cases silent : lines.all (·.tokens.isEmpty) = true
  · rw [if_pos silent]
    refine .inl ⟨rfl, ?_⟩
    intro line member
    exact line.tokens_eq_nil_iff.mp (List.isEmpty_iff.mp (List.all_eq_true.mp silent line member))
  · rw [if_neg silent]
    refine .inr ⟨rfl, ?_⟩
    rw [List.all_eq_true] at silent
    push Not at silent
    obtain ⟨line, member, said⟩ := silent
    refine ⟨line, member, ?_⟩
    rw [← not_and_or, ← line.tokens_eq_nil_iff]
    simpa using said

/-- The labels that the addresses of lines name are labels of these lines. -/
def LabelsWithin (lines : List Line) : Prop :=
  ∀ line ∈ lines, ∀ s, line.statement? = some s → ∀ name, s.target? = some name →
    (name.head?.map Char.isDigit).getD false = false → ∃ other ∈ lines, other.label? = some name

theorem labelsWithin_of_partOf {block : UInt16 × List Line} {part : Part} (becomes : partOf block = some part) :
    LabelsWithin block.2 := by
  obtain ⟨s, built, emitted⟩ := partOf_eq_some_iff.mp becomes
  intro line member statement stated name named letter
  have own := ((placed_of_built built emitted).2.sizes line member statement stated).2
  obtain ⟨_, offset, reached, _⟩ := Statement.address_of_emit own named
  rw [address, letter, if_neg (by decide)] at reached
  split at reached
  · rename_i place found
    have among := isSome_lookup_labelsFrom 0 block.2 name
    rw [← labels_of_built built, found] at among
    obtain ⟨other, member, labelled⟩ := List.any_eq_true.mp among.symm
    exact ⟨other, member, of_decide_eq_true labelled⟩
  · cases reached

theorem labelsWithin_of_parts {blocks : List (UInt16 × List Line)} {parts : List Part}
    (become : List.Forall₂ (fun block part => partOf block = some part) blocks parts) :
    ∀ block ∈ blocks, LabelsWithin block.2 := by
  induction become with
  | nil => nofun
  | cons here _ ih => exact List.forall_mem_cons.mpr ⟨labelsWithin_of_partOf here, ih⟩

namespace CutInto

variable {source : String} {lead : List Char} {sections : List (UInt16 × List Char)}
  (cut : CutInto source.toList lead sections)

include cut

/-- A text that is cut assembles to the parts that its texts assemble to. -/
theorem assemble_iff {parts : List Part} : assemble source = .ok ⟨parts⟩ ↔ ∃ first own, parts = first ++ own ∧
    assemble (String.ofList lead) = .ok ⟨first⟩ ∧
    List.Forall₂ (fun block part => part.id = block.1 ∧ assemble (String.ofList block.2) = .ok ⟨[part]⟩) sections own ∧
    (parts.map Part.id).Nodup := by
  have legible : (∀ line ∈ Line.ofText source.toList, line.Legible) ↔ (∀ line ∈ Line.ofText lead, line.Legible) ∧
      ∀ block ∈ sections, ∀ line ∈ Line.ofText block.2, line.Legible := by
    rw [cut.lines, List.forall_mem_append]
    simp only [List.forall_mem_flatMap]
  rw [assemble_eq_ok_iff, legible]
  constructor
  · rintro ⟨⟨front, behind⟩, distinct, become⟩
    rw [← ids_of_parts become] at distinct
    rw [cut.sectionsOf_eq] at become
    have first := (List.forall₂_take_append _ _ _ become.flip).flip
    have own := (List.forall₂_drop_append _ _ _ become.flip).flip
    refine ⟨_, _, (List.take_append_drop _ parts).symm, ?_, (forall_marked_iff cut.marked).mpr ⟨behind, own⟩, distinct⟩
    rw [assemble_eq_ok_iff, String.toList_ofList, ← ids_of_parts first]
    exact ⟨front, (List.Sublist.map _ (List.take_sublist _ _)).nodup distinct, first⟩
  · rintro ⟨first, own, rfl, accepted, each, distinct⟩
    obtain ⟨front, _, becomeFirst⟩ := assemble_eq_ok_iff.mp accepted
    obtain ⟨behind, becomeOwn⟩ := (forall_marked_iff cut.marked).mp each
    rw [String.toList_ofList] at front becomeFirst
    have become : List.Forall₂ (fun block part => partOf block = some part) (sectionsOf (Line.ofText source.toList))
        (first ++ own) := by
      rw [cut.sectionsOf_eq]
      exact List.rel_append becomeFirst becomeOwn
    exact ⟨⟨front, behind⟩, ids_of_parts become ▸ distinct, become⟩

/-- The text in front of the markers assembles to the first part, or to nothing if it says nothing. -/
theorem lead_cases {first : List Part} (accepted : assemble (String.ofList lead) = .ok ⟨first⟩) :
    (first = [] ∧ ∀ line ∈ Line.ofText lead, line.label? = none ∧ line.statement? = none) ∨
    ((∃ part, first = [part] ∧ part.id = Part.first) ∧
      ∃ line ∈ Line.ofText lead, line.label? ≠ none ∨ line.statement? ≠ none) := by
  obtain ⟨_, _, become⟩ := assemble_eq_ok_iff.mp accepted
  rw [String.toList_ofList] at become
  rcases sectionsOf_unmarked cut.unmarked with ⟨none, silent⟩ | ⟨one, said⟩
  · rw [none] at become
    cases become
    exact .inl ⟨rfl, silent⟩
  · rw [one] at become
    obtain ⟨part, rest, own, others, rfl⟩ := List.forall₂_cons_left_iff.mp become
    cases others
    exact .inr ⟨⟨part, rfl, id_of_partOf own⟩, said⟩

/-- No text names a label of another. -/
theorem labelsWithin {parts : List Part} (accepted : assemble source = .ok ⟨parts⟩) :
    LabelsWithin (Line.ofText lead) ∧ ∀ block ∈ sections, LabelsWithin (Line.ofText block.2).tail := by
  obtain ⟨_, _, become⟩ := assemble_eq_ok_iff.mp accepted
  have within := labelsWithin_of_parts become
  rw [cut.sectionsOf_eq] at within
  obtain ⟨front, behind⟩ := List.forall_mem_append.mp within
  refine ⟨?_, fun block member => behind (blockOf block) (List.mem_map_of_mem member)⟩
  rcases sectionsOf_unmarked cut.unmarked with ⟨_, silent⟩ | ⟨one, _⟩
  · intro line member s stated
    rw [(silent line member).2] at stated
    cases stated
  · exact front (Part.first, Line.ofText lead) (by rw [one]; exact List.mem_singleton_self _)

end CutInto

/-- Parts assemble independently. Every source text can be cut at its markers, and it is accepted if and only if the text
    of each section assembles by itself to one part, the text in front to one part or none, and all parts are distinct:
    then it assembles to these parts in order. The text in front is the first part, unless it has neither a label nor an
    instruction. The labels that a section of an accepted text names are its own. -/
theorem assemble_separately (source : String) :
    (∃ lead sections, CutInto source.toList lead sections) ∧
    ∀ lead sections, CutInto source.toList lead sections →
      (∀ parts, assemble source = .ok ⟨parts⟩ ↔ ∃ first own, parts = first ++ own ∧
        assemble (String.ofList lead) = .ok ⟨first⟩ ∧
        List.Forall₂ (fun block part => part.id = block.1 ∧ assemble (String.ofList block.2) = .ok ⟨[part]⟩) sections own ∧
        (parts.map Part.id).Nodup) ∧
      (∀ first, assemble (String.ofList lead) = .ok ⟨first⟩ →
        (first = [] ∧ ∀ line ∈ Line.ofText lead, line.label? = none ∧ line.statement? = none) ∨
        ((∃ part, first = [part] ∧ part.id = Part.first) ∧
          ∃ line ∈ Line.ofText lead, line.label? ≠ none ∨ line.statement? ≠ none)) ∧
      ∀ parts, assemble source = .ok ⟨parts⟩ →
        LabelsWithin (Line.ofText lead) ∧ ∀ block ∈ sections, LabelsWithin (Line.ofText block.2).tail := by
  refine ⟨exists_cutInto source.toList, ?_⟩
  intro lead sections cut
  exact ⟨fun _ => cut.assemble_iff, fun _ => cut.lead_cases, fun _ => cut.labelsWithin⟩

/-- Two sections with a label of the same name, the first of them without a marker. -/
theorem assemble_separately_sameLabel :
    let lead := "# no marker\nloop: JMP loop\n".toList
    let text := "[ Part 0x3E81 ] # marked\n  KILL\nloop: JMP loop".toList
    let first : Part := ⟨0x3E80, #[0x07, 0, 0]⟩
    let second : Part := ⟨0x3E81, #[0x11, 0x07, 0, 1]⟩
    CutInto (lead ++ text) lead [(0x3E81, text)] ∧ assemble (String.ofList lead) = .ok ⟨[first]⟩ ∧
      assemble (String.ofList text) = .ok ⟨[second]⟩ ∧
      assemble (String.ofList (lead ++ text)) = .ok ⟨[first, second]⟩ := by
  intro lead text first second
  have leadLines : Text.lines lead = ["# no marker".toList, "loop: JMP loop".toList] := by decide +kernel
  have textLines : Text.lines text = ["[ Part 0x3E81 ] # marked".toList, "  KILL".toList, "loop: JMP loop".toList] := by
    decide +kernel
  have cut : CutInto (lead ++ text) lead [(0x3E81, text)] := by
    refine ⟨by simp, by simp [Text.EndsLine, lead], ?_, ?_⟩
    · rw [Line.ofText, leadLines]
      exact List.forall_mem_cons.mpr ⟨by decide +kernel, List.forall_mem_singleton.mpr (by decide +kernel)⟩
    · refine List.forall_mem_singleton.mpr ⟨_, _, congrArg (List.map (Line.mk 0)) textLines, by decide +kernel, ?_⟩
      exact List.forall_mem_cons.mpr ⟨by decide +kernel, List.forall_mem_singleton.mpr (by decide +kernel)⟩
  have here : assemble (String.ofList lead) = .ok ⟨[first]⟩ := by decide +kernel
  have there : assemble (String.ofList text) = .ok ⟨[second]⟩ := by decide +kernel
  rw [← String.toList_ofList (l := lead ++ text)] at cut
  have together := ((assemble_separately (String.ofList (lead ++ text))).2 lead _ cut).1 [first, second]
  rw [String.toList_ofList] at cut
  exact ⟨cut, here, there, together.mpr ⟨[first], [second], rfl, here, .cons ⟨rfl, there⟩ .nil, by decide⟩⟩

end Assembly

end Framescript
