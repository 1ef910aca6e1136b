import Framescript.Proofs.Canonical

/-!
How a listing divides code. A listing reads one instruction after the other, and each takes at least a byte, so that it
comes to an end (`linesFrom_runs`). Its lines stand one behind the other from the start of the code to its end
(`Lists.divides`). Where an instruction cannot be read, the code in front of it has a listing of its own
(`Runs.exists_front`).
-/
namespace Framescript

open Reader (Takes)

/-- Why an instruction cannot be read: its opcode has no meaning, or the code ends in it. -/
theorem Instr.read_fault {how : CoordinateRead} {s : Script} {fault : Fault} (failed : Instr.read how s = .error fault) :
    (∃ opcode behind, s.rest = opcode :: behind ∧ Lead.ofByte? opcode = none ∧ fault = .invalidInstruction opcode s.pc) ∨
    fault.isEndOfCode := by
  rcases front : s.rest with _ | ⟨opcode, behind⟩
  · obtain ⟨other, failed', atEnd⟩ := Script.byte_of_end front
    simp only [Instr.read, failed'] at failed
    cases failed
    exact .inr atEnd
  · have first := Script.byte_of_rest front
    rcases meaning : Lead.ofByte? opcode with _ | lead
    · simp only [Instr.read, first, meaning] at failed
      cases failed
      exact .inl ⟨opcode, behind, rfl, meaning, rfl⟩
    · simp only [Instr.read, first, meaning] at failed
      exact .inr ((Instr.readAfter_alike how how opcode lead).fault failed)

namespace Listing

/-- All that a round of a listing can come to. -/
theorem lineAt_cases (s : Script) :
    (∃ fault, Instr.read .oneWord s = .error fault ∧ lineAt s = .error fault) ∨
    ∃ bytes instr, bytes ≠ [] ∧ bytes <+: s.rest ∧ Takes (Instr.read .oneWord) bytes instr ∧
      lineAt s = .ok (⟨s.pc, bytes, instr.render⟩, s.advance bytes.length) := by
  rcases Instr.read_cases s with ended | ⟨opcode, invalid⟩ | ⟨bytes, instr, filled, front, takes⟩
  · obtain ⟨fault, failed, _⟩ := ended .oneWord
    exact .inl ⟨fault, failed, lineAt_of_unread failed⟩
  · exact .inl ⟨_, invalid .oneWord, lineAt_of_unread (invalid .oneWord)⟩
  · exact .inr ⟨bytes, instr, filled, front, takes .oneWord, lineAt_of_takes (takes .oneWord) front⟩

/-- The rounds of a listing, however many there are: behind the lines of `done`, newest first, what is left of a script
    comes to a result. -/
inductive Runs : List ListingLine → Script → Except Fault (List ListingLine) → Prop
  | ended {done : List ListingLine} {s : Script} (outside : ¬ s.pc < s.code.size) : Runs done s (.ok done.reverse)
  | failed {done : List ListingLine} {s : Script} {fault : Fault} (inside : s.pc < s.code.size)
      (unread : lineAt s = .error fault) : Runs done s (.error fault)
  | next {done : List ListingLine} {s behind : Script} {line : ListingLine} {result : Except Fault (List ListingLine)}
      (inside : s.pc < s.code.size) (read : lineAt s = .ok (line, behind)) (later : Runs (line :: done) behind result) :
      Runs done s result

/-- As many rounds as there are bytes are enough, since each round takes a byte at least. -/
theorem linesFrom_runs {fuel : Nat} {s : Script} (enough : s.rest.length ≤ fuel) (done : List ListingLine) :
    Runs done s (linesFrom fuel done s) := by
  induction fuel generalizing done s with
  | zero =>
    rw [Script.length_rest] at enough
    exact .ended (by omega)
  | succ fuel ih =>
    rw [linesFrom]
    by_cases inside : s.pc < s.code.size
    · rw [if_pos inside]
      rcases lineAt_cases s with ⟨fault, _, failed⟩ | ⟨bytes, instr, filled, _, _, read⟩
      · rw [failed]
        exact .failed inside failed
      · rw [read]
        refine .next inside read (ih ?_ _)
        have := List.length_pos_iff.mpr filled
        rw [Script.rest_advance, List.length_drop]
        omega
    · rw [if_neg inside]
      exact .ended inside

theorem ofCode_runs (code : Code) : Runs [] { code } (ofCode code) :=
  linesFrom_runs (by rw [Script.length_rest]; exact Nat.sub_le _ _) []

/-- Lines that divide code: each has bytes, the first begins where the code begins and every other one where the line
    before it ends, and together they are the code. -/
structure Divides (lines : List ListingLine) (code : Code) : Prop where
  filled : ∀ line ∈ lines, line.bytes ≠ []
  first : ∀ line, lines.head? = some line → line.offset = 0
  next : lines.IsChain fun line next => next.offset = line.offset + line.bytes.length
  whole : lines.flatMap ListingLine.bytes = code.toList

namespace Lists

variable {s : Script} {lines : List ListingLine}

theorem filled (lists : Lists s lines) : ∀ line ∈ lines, line.bytes ≠ [] := by
  induction lists with
  | nil ended => simp
  | cons filled front takes later ih => exact List.forall_mem_cons.mpr ⟨filled, ih⟩

theorem offset_head (lists : Lists s lines) : ∀ line, lines.head? = some line → line.offset = s.pc := by
  cases lists with
  | nil ended => simp
  | cons filled front takes later => simp

theorem chain (lists : Lists s lines) :
    lines.IsChain fun line next => next.offset = line.offset + line.bytes.length := by
  induction lists with
  | nil ended => exact .nil
  | cons filled front takes later ih =>
    cases later with
    | nil ended => exact .singleton _
    | cons filled' front' takes' later' => exact .cons_cons rfl ih

theorem divides {code : Code} (lists : Lists { code } lines) : Divides lines code :=
  ⟨lists.filled, lists.offset_head, lists.chain, lists.flatMap_bytes⟩

/-- What is listed is what the rounds of a listing find. -/
theorem linesFrom_eq (lists : Lists s lines) {fuel : Nat} (enough : s.rest.length ≤ fuel) (done : List ListingLine) :
    linesFrom fuel done s = .ok (done.reverse ++ lines) := by
  induction lists generalizing fuel done with
  | @nil s ended =>
    have outside : ¬ s.pc < s.code.size := by
      have none := congrArg List.length ended
      rw [Script.length_rest, List.length_nil] at none
      omega
    cases fuel with
    | zero => simp [linesFrom]
    | succ fuel => simp [linesFrom, outside]
  | @cons s bytes instr lines filled front takes later ih =>
    have some := List.length_pos_iff.mpr filled
    have long := front.length_le
    have inside : s.pc < s.code.size := by
      rw [Script.length_rest] at long
      omega
    obtain ⟨fuel, rfl⟩ : ∃ less, fuel = less + 1 := ⟨fuel - 1, by omega⟩
    rw [linesFrom, if_pos inside, lineAt_of_takes takes front]
    simp only
    rw [ih (by rw [Script.rest_advance, List.length_drop]; omega)]
    simp

theorem ofCode_eq {code : Code} (lists : Lists { code } lines) : ofCode code = .ok lines :=
  lists.linesFrom_eq (by rw [Script.length_rest]; exact Nat.sub_le _ _) []

end Lists

/-- A listing that fails has an instruction that cannot be read, and what is in front of that can be listed wherever it
    stands. -/
theorem Runs.exists_front {done : List ListingLine} {s : Script} {fault : Fault} (runs : Runs done s (.error fault)) :
    ∃ front behind : Bytes, s.rest = front ++ behind ∧ behind ≠ [] ∧
      Instr.read .oneWord (s.advance front.length) = .error fault ∧
      ∀ t : Script, t.rest = front → ∃ lines, Lists t lines := by
  generalize result : (Except.error fault : Except Fault (List ListingLine)) = outcome at runs
  induction runs with
  | ended outside => cases result
  | @failed done s _ inside unread =>
    cases result
    have left : s.rest ≠ [] := by
      apply List.ne_nil_of_length_pos
      rw [Script.length_rest]
      omega
    refine ⟨[], s.rest, rfl, left, ?_, fun t nothing => ⟨[], .nil nothing⟩⟩
    rcases lineAt_cases s with ⟨fault, failed, unread'⟩ | ⟨_, _, _, _, _, read⟩
    · cases unread'.symm.trans unread
      exact failed
    · cases read.symm.trans unread
  | @next done s _ line result' inside read later ih =>
    rcases lineAt_cases s with ⟨fault, _, failed⟩ | ⟨bytes, instr, filled, start, takes, read'⟩
    · cases failed.symm.trans read
    · cases read'.symm.trans read
      obtain ⟨front, behind, split, left, unread, listed⟩ := ih result
      refine ⟨bytes ++ front, behind, ?_, left, ?_, ?_⟩
      · rw [List.append_assoc, ← split, Script.rest_advance]
        exact List.prefix_iff_eq_append.mp start |>.symm
      · rw [List.length_append, ← Script.advance_advance]
        exact unread
      · -- the bytes of the first line are taken wherever they stand, and the others are listed behind them
        intro t same
        have rest : (t.advance bytes.length).rest = front := by rw [Script.rest_advance, same, List.drop_left]
        obtain ⟨lines, lists⟩ := listed _ rest
        exact ⟨_, .cons filled (by rw [same]; exact List.prefix_append _ _) takes lists⟩

/-- No instruction can be read at an offset of some code, since its opcode has no meaning or the code ends in it. -/
structure Unreadable (code : Code) (offset : Nat) (fault : Fault) : Prop where
  unread : Instr.read .oneWord { code, pc := offset } = .error fault
  reason : (∃ opcode, code[offset]? = some opcode ∧ Lead.ofByte? opcode = none ∧ fault = .invalidInstruction opcode offset) ∨
    ∃ place requested available, fault = .endOfCode place requested available

theorem unreadable_of_read {code : Code} {offset : Nat} {fault : Fault}
    (unread : Instr.read .oneWord { code, pc := offset } = .error fault) : Unreadable code offset fault := by
  refine ⟨unread, ?_⟩
  rcases Instr.read_fault unread with ⟨opcode, behind, rest, meaningless, same⟩ | atEnd
  · have here := Script.getElem?_rest { code, pc := offset } 0
    rw [rest] at here
    exact .inl ⟨opcode, here.symm, meaningless, same⟩
  · exact .inr (Fault.exists_of_isEndOfCode atEnd)

/-- A listing comes to an end on any code. If it succeeds its lines divide the code. If it fails there is an instruction
    that cannot be read, for the reason that is given, and the code in front of that has a listing of its own, which
    divides it. -/
theorem ofCode_divides (code : Code) :
    Runs [] { code } (ofCode code) ∧
    (∀ lines, ofCode code = .ok lines → Divides lines code) ∧
    ∀ fault, ofCode code = .error fault → ∃ front behind : Bytes, code.toList = front ++ behind ∧ behind ≠ [] ∧
      Unreadable code front.length fault ∧ ∃ lines, ofCode front.toArray = .ok lines ∧ Divides lines front.toArray := by
  refine ⟨ofCode_runs code, fun lines listed => (ofCode_lists listed).divides, fun fault failed => ?_⟩
  have runs := ofCode_runs code
  rw [failed] at runs
  obtain ⟨front, behind, split, left, unread, listed⟩ := runs.exists_front
  have place : ({ code } : Script).advance front.length = { code, pc := front.length } := by
    rw [Script.advance, Nat.zero_add]
  rw [place] at unread
  obtain ⟨lines, lists⟩ := listed { code := front.toArray } rfl
  exact ⟨front, behind, split, left, unreadable_of_read unread, lines, lists.ofCode_eq, lists.divides⟩

/-- An empty range of threads takes three bytes with its opcode. A jump behind it, of whose target a byte is missing, stops
    the listing. -/
theorem ofCode_divides_cutJump :
    let code : Code := #[0x0C, 9, 3, 0x06]
    let cut : Code := #[0x0C, 9, 3, 0x07, 0x12]
    (∃ lines, ofCode code = .ok lines ∧ Divides lines code) ∧
    ofCode cut = .error (.endOfCode 4 2 1) ∧
    ∃ front behind : Bytes, cut.toList = front ++ behind ∧ behind ≠ [] ∧ Unreadable cut front.length (.endOfCode 4 2 1) ∧
      ∃ lines, ofCode front.toArray = .ok lines ∧ Divides lines front.toArray := by
  intro code cut
  have listed : ofCode code =
      .ok [⟨0, [0x0C, 9, 3], "RESET_THREADS 9, 3, 0".toList⟩, ⟨3, [0x06], "PAUSE".toList⟩] := by decide +kernel
  have failed : ofCode cut = .error (.endOfCode 4 2 1) := by decide +kernel
  exact ⟨⟨_, listed, (ofCode_divides code).2.1 _ listed⟩, failed, (ofCode_divides cut).2.2 _ failed⟩

end Listing

end Framescript
