import Framescript.Proofs.Relisting

/-!
Where the words of a line stand. The column of a word counts the bytes in front of it (`Stands`), and the words in front
of it leave it only one place in the line (`Stands.column_eq`). The tokens of a line are its words at their columns
(`Line.hasWord_of_tokens`).
-/
namespace Framescript

namespace Text

variable {separates : Char → Bool}

theorem words_append {front : List Char} (ends : ∀ c, front.getLast? = some c → separates c = true) (back : List Char) :
    words separates (front ++ back) = words separates front ++ words separates back := by
  rcases List.eq_nil_or_concat front with rfl | ⟨front, c, rfl⟩
  · rfl
  · have cuts : separates c = true := ends c (by simp)
    have whole : words separates (front ++ c :: back) = words separates front ++ words separates back :=
      wordsFrom_separator cuts [] front back
    have ended : words separates (front ++ c :: []) = words separates front ++ words separates [] :=
      wordsFrom_separator cuts [] front []
    rw [List.concat_eq_append, List.append_assoc, List.singleton_append, whole, ended]
    exact congrArg (· ++ _) (List.append_nil _).symm

theorem words_word {word : List Char} (plain : ∀ c ∈ word, separates c = false) (some : word ≠ []) :
    words separates word = [word] := by
  rw [words, wordsFrom_plain plain, if_neg (by simpa using some)]
  rfl

theorem wordsFrom_ne_nil {word : List Char} (some : word ≠ []) (cs : List Char) : wordsFrom separates word cs ≠ [] := by
  induction cs generalizing word with
  | nil => simp [wordsFrom, some]
  | cons c cs ih =>
    rw [wordsFrom]
    split
    · simp [some]
    · exact ih (by simp)

/-- A word stands in a text between `front` and `back`, behind the words `earlier`. Its column counts bytes from one. -/
structure Stands (separates : Char → Bool) (text : List Char) (earlier : List (List Char)) (word : List Char)
    (column : Nat) (front back : List Char) : Prop where
  split : text = front ++ word ++ back
  follows : words separates front = earlier
  counted : column = (String.ofList front).utf8ByteSize + 1
  filled : word ≠ []
  plain : ∀ c ∈ word, separates c = false
  before : ∀ c, front.getLast? = some c → separates c = true
  behind : ∀ c, back.head? = some c → separates c = true

namespace Stands

variable {text : List Char} {earlier : List (List Char)} {word front back other otherFront otherBack : List Char}
  {column otherColumn : Nat}

theorem front_eq_of_prefix (here : Stands separates text earlier word column front back)
    (there : Stands separates text earlier other otherColumn otherFront otherBack) (shorter : front <+: otherFront) :
    front = otherFront := by
  obtain ⟨between, rfl⟩ := shorter
  cases between with
  | nil => rw [List.append_nil]
  | cons c between =>
    -- The word would begin in what is between, and so be one of the words in front of itself.
    have same : word ++ back = c :: (between ++ other ++ otherBack) := by
      have whole := here.split.symm.trans there.split
      simpa using whole
    obtain ⟨d, rest, rfl⟩ := List.exists_cons_of_ne_nil here.filled
    cases (List.cons.inj same).1
    have more := there.follows
    rw [words_append here.before, here.follows, List.append_right_eq_self] at more
    rw [words, wordsFrom, here.plain c List.mem_cons_self] at more
    exact absurd more (wordsFrom_ne_nil (by simp) between)

/-- The words in front of a word leave it only one place. -/
theorem column_eq (here : Stands separates text earlier word column front back)
    (there : Stands separates text earlier other otherColumn otherFront otherBack) : column = otherColumn := by
  have same : front = otherFront := by
    have first : front <+: text := ⟨word ++ back, by rw [here.split, List.append_assoc]⟩
    have second : otherFront <+: text := ⟨other ++ otherBack, by rw [there.split, List.append_assoc]⟩
    rcases List.prefix_or_prefix_of_prefix first second with shorter | shorter
    · exact here.front_eq_of_prefix there shorter
    · exact (there.front_eq_of_prefix here shorter).symm
  rw [here.counted, there.counted, same]

end Stands

end Text

namespace Assembly

/-! ### Tokens -/

namespace Token

/-- Tokens, newest first, are the words of a text one behind the other. -/
def Standing (separates : Char → Bool) (line : List Char) : List Token → Prop
  | [] => True
  | token :: older =>
    (∃ front back, Text.Stands separates line (older.map text).reverse token.text token.column front back) ∧
      Standing separates line older

theorem Standing.of_append {separates : Char → Bool} {line : List Char} {newer older : List Token}
    (standing : Standing separates line (newer ++ older)) : Standing separates line older := by
  induction newer with
  | nil => exact standing
  | cons token newer ih => exact ih standing.2

section scanning

variable {separates : Char → Bool} {line front word : List Char} {start : Nat} {done : List Token}
  (startsAt : start = (String.ofList front).utf8ByteSize + 1)
  (earlier : Text.words separates front = (done.map text).reverse) (plain : ∀ c ∈ word, separates c = false)
  (ends : ∀ c, front.getLast? = some c → separates c = true) (standing : Standing separates line done)

include earlier plain ends

theorem words_close (start : Nat) :
    Text.words separates (front ++ word.reverse) = ((close word start done).map text).reverse := by
  rw [Text.words_append ends, earlier]
  unfold close
  split
  · rename_i empty
    rw [List.isEmpty_iff.mp empty]
    exact List.append_nil _
  · rename_i some
    rw [Text.words_word (by simpa using plain) (by simpa using some)]
    simp

include startsAt standing

/-- A word that ends where a separator or the end of the text is stands there. -/
theorem standing_close {cs : List Char} (split : line = front ++ word.reverse ++ cs)
    (behind : ∀ c, cs.head? = some c → separates c = true) : Standing separates line (close word start done) := by
  unfold close
  split
  · exact standing
  · rename_i some
    exact ⟨⟨front, cs, split, earlier, startsAt, by simpa using some, by simpa using plain, ends, behind⟩, standing⟩

/-- The scan of a text finds its words where they stand. -/
theorem standing_scanFrom {cs : List Char} (split : line = front ++ word.reverse ++ cs) {column : Nat}
    (columnAt : column = (String.ofList (front ++ word.reverse)).utf8ByteSize + 1) :
    Standing separates line (scanFrom separates column word start done cs).reverse := by
  induction cs generalizing front word start done column with
  | nil =>
    rw [scanFrom, List.reverse_reverse]
    exact standing_close startsAt earlier plain ends standing split (by simp)
  | cons c cs ih =>
    have next : column + c.utf8Size = (String.ofList (front ++ word.reverse ++ [c])).utf8ByteSize + 1 := by
      have more : String.ofList (front ++ word.reverse ++ [c]) =
          String.ofList (front ++ word.reverse) ++ String.singleton c := by
        rw [String.singleton_eq_ofList, String.ofList_append]
      rw [columnAt, more, String.utf8ByteSize_append, String.utf8ByteSize_singleton]
      omega
    rw [scanFrom]
    split
    · rename_i cuts
      have closed := words_close earlier plain ends start
      have cut : Text.words separates (front ++ word.reverse ++ [c]) = ((close word start done).map text).reverse := by
        rw [← closed]
        have separated : Text.words separates (front ++ word.reverse ++ c :: []) = _ :=
          Text.wordsFrom_separator cuts [] (front ++ word.reverse) []
        rw [separated]
        exact List.append_nil _
      refine ih next cut (by simp) (by simpa using cuts) ?_ ?_ ?_
      · exact standing_close startsAt earlier plain ends standing split (by simpa using cuts)
      · simpa using split
      · simpa using next
    · rename_i joins
      refine ih startsAt earlier (List.forall_mem_cons.mpr ⟨by simpa using joins, plain⟩) ends standing ?_ ?_
      · simpa using split
      · simpa using next

end scanning

theorem standing_scan (separates : Char → Bool) (cs : List Char) : Standing separates cs (scan separates cs).reverse := by
  have none : Text.words separates [] = (([] : List Token).map text).reverse := rfl
  have first : 1 = (String.ofList ([] ++ ([] : List Char).reverse)).utf8ByteSize + 1 := rfl
  have whole : cs = [] ++ ([] : List Char).reverse ++ cs := rfl
  exact standing_scanFrom first none (by simp) (by simp) trivial whole first

end Token

/-! ### Words of a line -/

/-- A word stands in a line at a column, behind the words `earlier` of the line and in front of its comment. -/
def Line.HasWord (line : Line) (earlier : List (List Char)) (word : List Char) (column : Nat) : Prop :=
  ∃ code comment, line.text = code ++ comment ∧ '#' ∉ code ∧ (∀ c, comment.head? = some c → c = '#') ∧
    ∃ front back, Text.Stands Token.separator code earlier word column front back

namespace Line

theorem codeOf_eq {code comment : List Char} (unmarked : '#' ∉ code) (marked : ∀ c, comment.head? = some c → c = '#') :
    codeOf (code ++ comment) = code := by
  have unlike : ∀ c ∈ code, decide (c ≠ '#') = true := by
    intro c member
    rw [decide_eq_true_eq]
    rintro rfl
    exact unmarked member
  rw [codeOf, List.takeWhile_append_of_pos unlike]
  cases comment with
  | nil => exact List.append_nil _
  | cons c comment =>
    cases marked c rfl
    exact List.append_nil _

/-- A word has one place behind the words in front of it. -/
theorem HasWord.column_eq {line : Line} {earlier : List (List Char)} {word other : List Char} {column otherColumn : Nat}
    (here : line.HasWord earlier word column) (there : line.HasWord earlier other otherColumn) :
    column = otherColumn := by
  obtain ⟨code, comment, split, unmarked, marked, _, _, stands⟩ := here
  obtain ⟨otherCode, otherComment, otherSplit, otherUnmarked, otherMarked, _, _, otherStands⟩ := there
  have same : code = otherCode := by
    rw [← codeOf_eq unmarked marked, ← split, otherSplit, codeOf_eq otherUnmarked otherMarked]
  subst same
  exact stands.column_eq otherStands

/-- The tokens of a line are its words, each at its column. -/
theorem hasWord_of_tokens {line : Line} {earlier later : List Token} {token : Token}
    (split : line.tokens = earlier ++ token :: later) : line.HasWord (earlier.map Token.text) token.text token.column := by
  have standing := Token.standing_scan Token.separator (codeOf line.text)
  rw [show Token.scan Token.separator (codeOf line.text) = _ from split, List.reverse_append, List.reverse_cons,
    List.append_assoc, List.singleton_append] at standing
  obtain ⟨⟨front, back, stands⟩, _⟩ := standing.of_append
  rw [List.map_reverse, List.reverse_reverse] at stands
  refine ⟨codeOf line.text, line.text.dropWhile (· ≠ '#'), List.takeWhile_append_dropWhile.symm, ?_, ?_, front, back,
    stands⟩
  · intro member
    have unlike := List.all_eq_true.mp List.all_takeWhile '#' member
    simp at unlike
  · intro c first
    have last := List.head?_dropWhile_not (fun c => decide (c ≠ '#')) line.text
    rw [first] at last
    simpa using last

end Line

end Assembly

end Framescript
