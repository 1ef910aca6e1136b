import Framescript.Assembly
import Mathlib.Data.List.Forall2

/-!
The sections of a source text. Markers divide the lines of a text into blocks, one for each part, and the lines in
front of the first marker are a block of the first part if there is a word in them (`sectionsOf`). The layout of a
text is its blocks, laid out each on its own (`ofSource_built`).
-/
namespace Framescript.Assembly

/-- A line of a source text. -/
structure Line where
  number : Nat
  text : List Char

namespace Line

def numbered (first : Nat) : List (List Char) → List Line
  | [] => []
  | text :: texts => ⟨first, text⟩ :: numbered (first + 1) texts

def ofSource (source : String) : List Line :=
  numbered 1 (Text.lines source.toList)

def tokens (line : Line) : List Token :=
  Token.ofLine line.text

/-- The part that starts behind a line. -/
def part? (line : Line) : Option UInt16 :=
  (marker? line.text).bind Except.toOption

end Line

/-- The lines in front of the first marker, and the lines behind each marker with the part that it starts. -/
def divide : List Line → List Line × List (UInt16 × List Line)
  | [] => ([], [])
  | line :: lines =>
    match line.part? with
    | some id => ([], (id, (divide lines).1) :: (divide lines).2)
    | none => (line :: (divide lines).1, (divide lines).2)

/-- The parts of a source text with their lines. -/
def sectionsOf (lines : List Line) : List (UInt16 × List Line) :=
  if (divide lines).1.all (·.tokens.isEmpty) then (divide lines).2
  else (Part.first, (divide lines).1) :: (divide lines).2

theorem divide_marker {line : Line} {id : UInt16} (marks : line.part? = some id) (lines : List Line) :
    divide (line :: lines) = ([], (id, (divide lines).1) :: (divide lines).2) := by
  rw [divide, marks]

theorem divide_plain {line : Line} (plain : line.part? = none) (lines : List Line) :
    divide (line :: lines) = (line :: (divide lines).1, (divide lines).2) := by
  rw [divide, plain]

namespace Section

/-- The section with lines at its end. -/
def addAll (s : Section) : List Line → Except SourceError Section
  | [] => .ok s
  | line :: lines => (s.addLine line.number line.tokens).bind fun s => s.addAll lines

theorem addAll_cons {s after : Section} {line : Line} {lines : List Line} (added : s.addAll (line :: lines) = .ok after) :
    ∃ middle, s.addLine line.number line.tokens = .ok middle ∧ middle.addAll lines = .ok after := by
  rw [addAll] at added
  rcases here : s.addLine line.number line.tokens with e | middle
  · rw [here] at added
    cases added
  · rw [here] at added
    exact ⟨middle, rfl, added⟩

theorem addAll_of_wordless {line : Line} (wordless : line.tokens = []) (s : Section) (lines : List Line) :
    s.addAll (line :: lines) = s.addAll lines := by
  rw [addAll, wordless]
  rfl

end Section

/-- A section holds the lines of a block. -/
def Built (block : UInt16 × List Line) (s : Section) : Prop :=
  ({ id := block.1 } : Section).addAll block.2 = .ok s

namespace Layout

/-- All that a line can do to a layout: it starts a part, or it is laid out at the end of what is there. -/
theorem addLine_cases {layout after : Layout} {number : Nat} {text : List Char}
    (added : layout.addLine number text = .ok after) :
    (∃ id, (⟨number, text⟩ : Line).part? = some id ∧ after = { id } :: layout) ∨
    (⟨number, text⟩ : Line).part? = none ∧ layout.addTokens number (⟨number, text⟩ : Line).tokens = .ok after := by
  unfold addLine at added
  unfold Line.part?
  split at added
  · cases added
  · rename_i id marks
    simp only [addSection] at added
    split at added
    · cases added
    · cases added
      exact .inl ⟨id, by rw [marks]; rfl, rfl⟩
  · rename_i unmarked
    exact .inr ⟨by rw [unmarked]; rfl, added⟩

theorem addTokens_cons {s : Section} {older after : Layout} {number : Nat} {tokens : List Token}
    (added : addTokens (s :: older) number tokens = .ok after) :
    ∃ s', s.addLine number tokens = .ok s' ∧ after = s' :: older := by
  cases tokens with
  | nil =>
    cases added
    exact ⟨s, rfl, rfl⟩
  | cons token tokens =>
    simp only [addTokens, List.isEmpty_cons, Bool.false_eq_true, if_false] at added
    split at added
    · cases added
    · rename_i s' here
      cases added
      exact ⟨s', here, rfl⟩

theorem addTokens_nil {after : Layout} {number : Nat} {tokens : List Token} (said : tokens ≠ [])
    (added : addTokens [] number tokens = .ok after) :
    ∃ s, ({ id := Part.first } : Section).addLine number tokens = .ok s ∧ after = [s] := by
  rw [addTokens, if_neg (by simpa using said)] at added
  split at added
  · cases added
  · rename_i s here
    cases added
    exact ⟨s, here, rfl⟩

theorem addLines_cons {layout after : Layout} {number : Nat} {text : List Char} {texts : List (List Char)}
    (laid : layout.addLines number (text :: texts) = .ok after) :
    ∃ middle, layout.addLine number text = .ok middle ∧ middle.addLines (number + 1) texts = .ok after := by
  rw [addLines] at laid
  split at laid
  · cases laid
  · rename_i middle here
    exact ⟨middle, here, laid⟩

/-- Lines behind a section go to it up to the next marker, and then to the blocks behind. -/
theorem addLines_newest {s : Section} {older after : Layout} {number : Nat} {texts : List (List Char)}
    (laid : addLines (s :: older) number texts = .ok after) :
    ∃ s' later, s.addAll (divide (Line.numbered number texts)).1 = .ok s' ∧
      List.Forall₂ Built (divide (Line.numbered number texts)).2 later ∧
      after.reverse = older.reverse ++ s' :: later := by
  -- A marker makes the newest section an older one, so both change along the lines.
  induction texts generalizing s older number with
  | nil =>
    cases laid
    exact ⟨s, [], rfl, .nil, by simp⟩
  | cons text texts ih =>
    obtain ⟨middle, line, rest⟩ := addLines_cons laid
    rcases addLine_cases line with ⟨id, marks, rfl⟩ | ⟨plain, added⟩
    · obtain ⟨first, later, built, others, order⟩ := ih rest
      refine ⟨s, first :: later, ?_, ?_, ?_⟩
      · rw [Line.numbered, divide_marker marks]
        rfl
      · rw [Line.numbered, divide_marker marks]
        exact .cons built others
      · simp [order]
    · obtain ⟨s', here, rfl⟩ := addTokens_cons added
      obtain ⟨final, later, there, others, order⟩ := ih rest
      refine ⟨final, later, ?_, ?_, order⟩
      · rw [Line.numbered, divide_plain plain, Section.addAll, here]
        exact there
      · rw [Line.numbered, divide_plain plain]
        exact others

/-- A text starts with its first marker, or with its first word, which is in the first part. -/
theorem addLines_nil {after : Layout} {number : Nat} {texts : List (List Char)}
    (laid : addLines [] number texts = .ok after) :
    List.Forall₂ Built (sectionsOf (Line.numbered number texts)) after.reverse := by
  induction texts generalizing number with
  | nil =>
    cases laid
    exact .nil
  | cons text texts ih =>
    obtain ⟨middle, line, rest⟩ := addLines_cons laid
    rcases addLine_cases line with ⟨id, marks, rfl⟩ | ⟨plain, added⟩
    · obtain ⟨first, later, built, others, order⟩ := addLines_newest rest
      rw [order, Line.numbered, sectionsOf, divide_marker marks]
      exact .cons built others
    · by_cases wordless : (⟨number, text⟩ : Line).tokens = []
      · rw [wordless] at added
        cases added
        have blocks := ih rest
        rw [Line.numbered, sectionsOf, divide_plain plain]
        unfold sectionsOf at blocks
        by_cases silent : (divide (Line.numbered (number + 1) texts)).1.all (·.tokens.isEmpty) = true
        · rw [if_pos silent] at blocks
          rw [if_pos (by simp [wordless, silent])]
          exact blocks
        · rw [if_neg silent] at blocks
          rw [if_neg (by simpa [wordless] using silent)]
          obtain ⟨first, later, built, others, order⟩ := List.forall₂_cons_left_iff.mp blocks
          rw [order]
          refine .cons ?_ others
          rw [Built, Section.addAll_of_wordless wordless]
          exact built
      · obtain ⟨s, here, rfl⟩ := addTokens_nil wordless added
        obtain ⟨first, later, there, others, order⟩ := addLines_newest rest
        rw [order, Line.numbered, sectionsOf, divide_plain plain, if_neg (by simp [wordless])]
        refine .cons ?_ others
        rw [Built, Section.addAll, here]
        exact there

/-- The layout of a source text is its blocks, each laid out on its own. -/
theorem ofSource_built {source : String} {sections : List Section} (laid : ofSource source.toList = .ok sections) :
    List.Forall₂ Built (sectionsOf (Line.ofSource source)) sections := by
  unfold ofSource at laid
  rcases lines : addLines [] 1 (Text.lines source.toList) with e | layout
  · rw [lines] at laid
    cases laid
  · rw [lines] at laid
    cases laid
    exact addLines_nil lines

end Layout

end Framescript.Assembly
