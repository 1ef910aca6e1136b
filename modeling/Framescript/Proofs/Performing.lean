import Framescript.Proofs.Readback
import Framescript.Proofs.Requests

/-!
Statements do what they mean. The number that an operand stands for is the same in each of the forms that its
instruction may choose, so executing that instruction is what the meaning says (`Meaning.execute_instr`). Behind it
stands reading what was written, and so a machine at the bytes of a statement does what the statement means
(`step_of_meaning`).
-/
namespace Framescript

theorem Comparison.holds_eq_relates (c : Comparison) (a b : Int16) : c.holds a b = c.relates a.toInt b.toInt := by
  rw [Bool.eq_iff_iff]
  cases c <;> simp [holds, relates, Int16.lt_iff_toInt_lt, Int16.le_iff_toInt_le, Int16.toInt_inj]

namespace Assembly

theorem toInt16_eq_ofInt {u : UInt16} {n : Int} (same : (u.toNat : Int) = n % 65536) : u.toInt16 = Int16.ofInt n := by
  have bits : u = ⟨BitVec.ofInt 16 n⟩ := by
    apply UInt16.toNat_inj.mp
    show u.toNat = (BitVec.ofInt 16 n).toNat
    rw [BitVec.toNat_ofInt]
    show u.toNat = (n % 65536).toNat
    omega
  rw [bits]
  rfl

theorem toInt16_ofInt (n : Int) : (UInt16.ofInt n).toInt16 = Int16.ofInt n :=
  toInt16_eq_ofInt (toNat_ofInt n)

theorem widen_eq_ofInt (b : UInt8) : widen b = Int16.ofInt b.toNat := by
  apply toInt16_eq_ofInt
  have := b.toNat_lt
  rw [UInt8.toNat_toUInt16]
  omega

theorem widen_ofNat {n : Int} (small : 0 ≤ n ∧ n ≤ 255) : widen (UInt8.ofNat n.toNat) = Int16.ofInt n := by
  have below : n.toNat < 256 := by omega
  rw [widen_eq_ofInt, UInt8.toNat_ofNat_of_lt' below, Int.toNat_of_nonneg small.1]

theorem PolygonOffset.twice_half {most : Nat} (offset : PolygonOffset most) :
    UInt16.ofNat (offset.value / 2) * 2 = UInt16.ofNat offset.value := by
  have even := offset.even
  apply UInt16.toNat_inj.mp
  rw [UInt16.toNat_mul, UInt16.toNat_ofNat', UInt16.toNat_ofNat']
  show offset.value / 2 % 65536 * 2 % 65536 = _
  omega

/-! ### Performing -/

theorem kept_of_plain {kinds : List OperandKind} (plain : ∀ kind ∈ kinds, tokenCount kind = 1)
    (values : Operands kinds) : Operands.kept kinds values = values := by
  induction kinds with
  | nil => rfl
  | cons kind kinds ih =>
    obtain ⟨here, there⟩ := List.forall_mem_cons.mp plain
    obtain ⟨value, values⟩ := values
    have own : kind.kept value = value := by
      cases kind with
      | range => cases here
      | _ => rfl
    rw [Operands.kept, own, ih there]

theorem Meaning.encodable_instr (m : Meaning) : m.instr.Encodable :=
  m.sayable_instr.encodable

theorem Meaning.category_instr (m : Meaning) : m.instr.kept.lead.category = m.category := by
  cases m <;> rfl

section places

variable {H : Type} (w : World H)

theorem horizontal_horizontal (x : Scalar) : w.horizontal x.horizontal = x.valueIn w := by
  cases x with
  | var index => rfl
  | literal n =>
    unfold Scalar.horizontal
    simp only
    split
    · rename_i small
      exact widen_ofNat small
    · split
      · rename_i large
        show widen (UInt8.ofNat (n.value - 256).toNat) + 0x100 = Int16.ofInt n.value
        have sum : n.value = n.value - 256 + 256 := by omega
        rw [widen_ofNat (by omega), sum, Int16.ofInt_add, Int.add_sub_cancel]
        rfl
      · exact toInt16_ofInt n.value

theorem vertical_vertical (y : Scalar) : w.vertical y.vertical = y.valueIn w := by
  cases y with
  | var index => rfl
  | literal n =>
    unfold Scalar.vertical
    simp only
    split
    · rename_i small
      exact widen_ofNat small
    · exact toInt16_ofInt n.value

theorem comparand_comparand (r : Scalar) : w.comparand r.comparand = r.valueIn w := by
  cases r with
  | var index => rfl
  | literal n =>
    unfold Scalar.comparand
    simp only
    split
    · rename_i small
      exact widen_ofNat small
    · exact toInt16_ofInt n.value

end places

variable {H : Type} [Host H]

theorem toNat_masked (last : UInt8) : (last &&& 0x3F).toNat = last.toNat % 64 := by
  rw [UInt8.toNat_and]
  exact Nat.and_two_pow_sub_one_eq_mod last.toNat 6

theorem ofFn_eq_fillRange {α : Type} (row : Vector α threadCount) (first last : Nat) (value : α) (p : Prop) [Decidable p] :
    (Vector.ofFn fun thread : Fin threadCount =>
      if (first ≤ thread.val ∧ thread.val ≤ last) ∧ p then value else row.get thread) =
      if p then ThreadTable.fillRange row first last value else row := by
  ext index inside
  by_cases holds : p
  · simp [holds, ThreadTable.fillRange, Vector.get]
  · simp [holds, Vector.get]

theorem fillRange_of_empty {α : Type} (row : Vector α threadCount) {first last : Nat} (empty : last < first) (value : α) :
    ThreadTable.fillRange row first last value = row := by
  ext index inside
  simp only [ThreadTable.fillRange, Vector.getElem_mapIdx]
  rw [if_neg (by omega)]

/-- The threads of a table of requests, row by row, are those that the requests for a range leave. -/
theorem resetTable_eq (t : ThreadTable) (first last action : UInt8) :
    resetTable t first last action =
      if action = 0 ∨ action = 1 then t.requestPauseRange first.toNat (last.toNat % 64) (action = 1)
      else if action = 2 then t.requestStopRange first.toNat (last.toNat % 64) else t := by
  simp only [resetTable, ofFn_eq_fillRange]
  by_cases pause : action = 0 ∨ action = 1
  · rcases pause with rfl | rfl <;> rfl
  · by_cases stop : action = 2
    · subst stop
      rfl
    · have large : ¬ action.toNat < 2 ∧ ¬ action.toNat = 2 := by
        simp only [← UInt8.toNat_inj, UInt8.toNat_ofNat] at pause stop
        omega
      simp [pause, stop, large]

omit [Host H] in
/-- Resetting threads, whether or not their action was written, asks of each thread what the three numbers say. -/
theorem resetThreads_kept (w : World H) (origin : Nat) (first last action : UInt8) :
    w.resetThreads origin (ThreadRange.kept ⟨first, last, action⟩) =
      ((resetWarning? origin first last action).elim w (w.say .warn)).mapMachine fun m =>
        { m with threads := resetTable m.threads first last action } := by
  have masked := toNat_masked last
  -- Only a range without threads loses its action in the bytes, and then no thread is asked anything.
  by_cases empty : ThreadRange.isEmpty first last = true
  · have behind : last.toNat % 64 < first.toNat := by
      rw [← masked]
      exact UInt8.lt_iff_toNat_lt.mp (of_decide_eq_true empty)
    have untouched (t : ThreadTable) : resetTable t first last action = t := by
      rw [resetTable_eq]
      split
      · rw [ThreadTable.requestPauseRange, fillRange_of_empty _ behind]
      · split
        · rw [ThreadTable.requestStopRange, fillRange_of_empty _ behind]
        · rfl
    rw [ThreadRange.kept, if_pos empty]
    have text : (toString first, toString (last &&& 0x3F)) = (toString first.toNat, toString (last.toNat % 64)) := by
      rw [← masked]
      rfl
    simp only [World.resetThreads, empty, if_true, resetWarning?, if_pos behind, Option.elim_some, untouched]
    rw [(Prod.mk.inj text).1, (Prod.mk.inj text).2]
    rfl
  · have inside : ¬ last.toNat % 64 < first.toNat := by
      rw [← masked]
      exact fun behind => empty (decide_eq_true (UInt8.lt_iff_toNat_lt.mpr behind))
    rw [ThreadRange.kept, if_neg empty]
    simp only [World.resetThreads, World.resetRange, empty, resetWarning?, if_neg inside, resetTable_eq, masked]
    by_cases pause : action = 0 ∨ action = 1
    · have small : ¬ 2 < action.toNat := by
        rcases pause with rfl | rfl <;> decide
      simp [pause, small]
    · by_cases stop : action = 2
      · subst stop
        rfl
      · have large : 2 < action.toNat := by
          simp only [← UInt8.toNat_inj, UInt8.toNat_ofNat] at pause stop
          omega
        simp only [pause, stop, large, Bool.false_eq_true, if_false, if_true, Option.elim_some]
        rfl

theorem drawBackground_eq (w : World H) (offset : PolygonOffset 0x7FFF) (x y : UInt8) :
    let place := if y.toNat > 199 then (x.toNat + (y.toNat - 199), 199) else (x.toNat, y.toNat)
    w.drawBackground (UInt16.ofNat (offset.value / 2)) (widen x) (widen y) =
      w.call (.drawPolygon .cinematic (UInt16.ofNat offset.value) 0xFF 0x40 (Int16.ofNat place.1)
        (Int16.ofNat place.2)) := by
  have small := y.toNat_lt
  have difference : widen y - lowestRow = Int16.ofInt (y.toNat - 199) := by
    rw [widen_eq_ofInt, Int16.ofInt_sub]
    rfl
  have below : 0 < widen y - lowestRow ↔ y.toNat > 199 := by
    rw [difference, Int16.lt_iff_toInt_lt, Int16.toInt_ofInt, Int.bmod_eq_of_le (by simp; omega) (by simp; omega)]
    show (0 : Int) < _ ↔ _
    omega
  unfold World.drawBackground
  simp only
  by_cases under : y.toNat > 199
  · have moved : widen x + (widen y - lowestRow) = Int16.ofNat (x.toNat + (y.toNat - 199)) := by
      rw [difference, widen_eq_ofInt, ← Int16.ofInt_add, ← Int16.ofInt_eq_ofNat]
      congr 1
      omega
    rw [if_pos (below.mpr under), if_pos under, World.drawPolygon, offset.twice_half, moved]
    rfl
  · rw [if_neg (below.not.mpr under), if_neg under, World.drawPolygon, offset.twice_half, widen_eq_ofInt, widen_eq_ofInt,
      Int16.ofInt_eq_ofNat, Int16.ofInt_eq_ofNat]
    rfl

omit [Host H] in
theorem jumpIf_of_known (w : World H) (origin : Nat) {c : Condition} (known : c.comparison.isKnown = true) :
    w.jumpIf origin c =
      if c.comparison.holds (w.read c.var) (w.comparand c.comparand) then w.jump c.target else w := by
  have silent : w.warned origin c.comparison = w := by
    cases comparison : c.comparison with
    | unknown code =>
      rw [comparison] at known
      cases known
    | _ => rfl
  rw [World.jumpIf, silent]

/-- Executing what is chosen for a meaning, as it is read, does what the meaning says. -/
theorem Meaning.execute_instr (m : Meaning) (w : World H) (origin : Nat) :
    w.execute origin m.instr.kept = m.perform w origin := by
  cases m with
  | table op values plain =>
    show w.executeTable origin op (Operands.kept op.operands values) = w.executeTable origin op values
    rw [kept_of_plain (arity_of_plain plain).2 values]
  | jumpIf var comparison comparand target =>
    show (_, w.jumpIf origin ⟨comparison.val, var, comparand.comparand, target⟩) = _
    rw [jumpIf_of_known w origin comparison.property, Comparison.holds_eq_relates, comparand_comparand]
    rfl
  | resetThreads first last action =>
    show (_, w.resetThreads origin (ThreadRange.kept ⟨first, last, action⟩)) = _
    rw [resetThreads_kept]
    rfl
  | background offset x y =>
    show (_, w.drawBackground (UInt16.ofNat (offset.value / 2)) (widen x) (widen y)) = _
    rw [drawBackground_eq]
    rfl
  | sprite offset x y zoom =>
    show (_, w.drawSprite (UInt16.ofNat (offset.value / 2)) x.horizontal y.vertical zoom) = _
    rw [World.drawSprite, World.drawPolygon, horizontal_horizontal, vertical_vertical, offset.twice_half]
    rfl

/-- The world behind some bytes that were counted as an instruction. -/
def behind (w : World H) (count : Nat) (category : Category) : World H :=
  w.mapMachine fun m =>
    { m with
      script := m.script.advance count, instrOffset := m.script.pc, profile := m.profile.record category }

/-- A statement has bytes exactly if it has a meaning, and a machine that stands at its bytes does in one step what it
    means, on the values that stand in the source. -/
theorem step_of_meaning (s : Statement) (labels : Labels) :
    (s.meaning? labels = none → ∃ e, s.emit labels = .error e) ∧
    ∀ m, s.meaning? labels = some m →
      ∃ bytes, s.emit labels = .ok bytes ∧
        ∀ {H : Type} [Host H] (w : World H), bytes <+: w.machine.script.rest →
          w.step = m.perform (behind w bytes.length m.category) w.machine.script.pc := by
  have read := s.toOption_instr labels
  refine ⟨fun absent => ?_, fun m found => ?_⟩
  · rw [absent] at read
    rcases refused : s.instr labels with fault | instr
    · exact ⟨⟨s.line, s.column, fault⟩, by simp only [Statement.emit, refused]⟩
    · rw [refused] at read
      cases read
  · rw [found] at read
    rcases chosen : s.instr labels with fault | instr
    · rw [chosen] at read
      cases read
    · rw [chosen] at read
      cases read
      refine ⟨m.instr.encode, by simp only [Statement.emit, chosen], fun {H} _ w held => ?_⟩
      have taken := (Instr.takes_encode m.encodable_instr .twoBytes).whole _ held
      rw [World.step_of_read taken, m.execute_instr, World.fetched, World.begun, m.category_instr]
      rfl

/-- A sprite behind the end of its data, to the right of the first 256 columns and above the screen, from the alternate
    segment. -/
theorem step_of_meaning_sprite :
    let s : Statement :=
      ⟨1, 1, "POLY".toList, ["0x10004".toList, "300".toList, "-5".toList, "alt".toList]⟩
    let w : World Headless :=
      { machine := { script := { code := #[0x06, 0x73, 0x80, 0x02, 44, 0xFF, 0xFB], pc := 1 } }, host := {} }
    s.emit [] = .ok [0x73, 0x80, 0x02, 44, 0xFF, 0xFB] ∧
      w.step = (.ok (), (behind w 6 .polygons).call (.drawPolygon .alternate 4 0xFF 0x40 300 (-5))) := by
  intro s w
  have emitted : s.emit [] = .ok [0x73, 0x80, 0x02, 44, 0xFF, 0xFB] := rfl
  obtain ⟨bytes, accepted, performed⟩ := (step_of_meaning s []).2
    (.sprite ⟨0x10004, rfl, by decide⟩ (.literal ⟨300, by decide⟩) (.literal ⟨-5, by decide⟩) .alternate) rfl
  cases emitted.symm.trans accepted
  exact ⟨emitted, performed w (by decide)⟩

end Assembly

end Framescript
