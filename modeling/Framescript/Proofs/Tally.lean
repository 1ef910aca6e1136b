import Framescript.Proofs.Traced

/-!
What the counts say. Every instruction that goes well is counted once, in its own category, so after a run phase that
goes well each count is the number of instructions of its category, and the total is the number of all, unless there
are more than can be counted (`runAll_tallies`, `Profile.Tallies.exact`).
-/
namespace Framescript

theorem Category.all_index (category : Category) : all[category.index.val]? = some category := by
  cases category <;> rfl

theorem Category.index_inj {a b : Category} (same : a.index.val = b.index.val) : a = b := by
  have found := a.all_index
  rw [same, b.all_index] at found
  exact (Option.some.inj found).symm

/-- How many of some instructions are counted in a category. -/
def tally (category : Category) (instrs : List Instr) : Nat :=
  instrs.countP (·.lead.category = category)

theorem tally_append (category : Category) (first second : List Instr) :
    tally category (first ++ second) = tally category first + tally category second :=
  List.countP_append

/-- Whether an instruction draws a polygon. -/
def Instr.drawsPolygon : Instr → Bool
  | .table .. => false
  | .background .. | .sprite .. => true

theorem tally_polygons (instrs : List Instr) : tally .polygons instrs = instrs.countP Instr.drawsPolygon := by
  refine List.countP_congr fun instr _ => ?_
  cases instr with
  | table op operands => cases op <;> simp [Instr.lead, Instr.drawsPolygon, Lead.category, Opcode.category]
  | background | sprite => exact ⟨fun _ => rfl, fun _ => rfl⟩

/-- Whatever is in a category is in one category. -/
theorem Category.sum_countP {α : Type} (category? : α → Option Category) (xs : List α) :
    all.foldl (fun sum category => sum + xs.countP (category? · = some category)) 0 =
      xs.countP fun x => (category? x).isSome := by
  simp only [all, List.foldl]
  induction xs with
  | nil => rfl
  | cons x xs ih =>
    simp only [List.countP_cons] at ih ⊢
    rcases category? x with _ | category
    · simp
      omega
    · cases category <;> simp <;> omega

/-- Every instruction is in one category. -/
theorem sum_tally (instrs : List Instr) :
    Category.all.foldl (fun sum category => sum + tally category instrs) 0 = instrs.length := by
  have sum := Category.sum_countP (fun instr : Instr => some instr.lead.category) instrs
  simpa only [tally, Option.some.injEq, Option.isSome_some, List.countP_true] using sum

namespace Profile

/-- The largest count. -/
def largest : Nat := 0xFFFFFFFFFFFFFFFF

theorem toNat_saturatingAdd (a b : UInt64) : (saturatingAdd a b).toNat = min largest (a.toNat + b.toNat) := by
  have small := a.toNat_lt
  have small' := b.toNat_lt
  unfold saturatingAdd largest
  split
  · rename_i overflow
    rw [UInt64.lt_iff_toNat_lt, UInt64.toNat_add] at overflow
    show 0xFFFFFFFFFFFFFFFF = _
    omega
  · rename_i fits
    rw [UInt64.lt_iff_toNat_lt, UInt64.toNat_add] at fits
    rw [UInt64.toNat_add]
    omega

/-- A checked sum fails if it is more than the largest count, and is exact otherwise. -/
theorem checkedAdd_cases (a b : UInt64) :
    (largest < a.toNat + b.toNat ∧ checkedAdd a b = .error .overflow) ∨
    ∃ sum, checkedAdd a b = .ok sum ∧ sum.toNat = a.toNat + b.toNat := by
  rw [checkedAdd_eq]
  split
  · rename_i many
    exact .inl ⟨many, rfl⟩
  · rename_i fits
    refine .inr ⟨a + b, rfl, ?_⟩
    rw [UInt64.toNat_add]
    omega

theorem toList_counts (p : Profile) : p.counts.toList = Category.all.map p.count := by
  refine List.ext_getElem (by rw [Vector.length_toList]; rfl) fun index inside inside' => ?_
  simp only [Vector.getElem_toList, List.getElem_map]
  match index, inside' with
  | 0, _ | 1, _ | 2, _ | 3, _ | 4, _ | 5, _ | 6, _ => rfl

theorem toNat_total (p : Profile) :
    p.total.toNat = min largest (Category.all.foldl (fun sum category => sum + (p.count category).toNat) 0) := by
  rw [total, ← Vector.foldl_toList, toList_counts]
  simp only [Category.all, List.map, List.foldl, toNat_saturatingAdd, UInt64.toNat_zero]
  omega

theorem count_record (p : Profile) (category other : Category) :
    (p.record category).count other =
      if other = category then saturatingAdd (p.count category) 1 else p.count other := by
  split
  · rename_i same
    rw [same]
    exact Vector.getElem_set_self _
  · rename_i different
    exact Vector.getElem_set_ne category.index.isLt other.index.isLt
      fun same => different (Category.index_inj same.symm)

theorem count_empty (category : Category) : (({} : Profile).count category).toNat = 0 := by
  cases category <;> rfl

/-- Counts that have grown by some instructions, as far as they can be counted. -/
def Tallies (instrs : List Instr) (p q : Profile) : Prop :=
  ∀ category, (q.count category).toNat = min largest ((p.count category).toNat + tally category instrs)

theorem Tallies.refl (p : Profile) : Tallies [] p p := by
  intro category
  have small := (p.count category).toNat_lt
  simp only [tally, List.countP_nil, largest]
  omega

theorem Tallies.append {first second : List Instr} {p q r : Profile} (before : Tallies first p q)
    (behind : Tallies second q r) : Tallies (first ++ second) p r := by
  intro category
  rw [behind category, before category, tally_append]
  omega

theorem Tallies.record (p : Profile) (instr : Instr) : Tallies [instr] p (p.record instr.lead.category) := by
  intro category
  have small := (p.count category).toNat_lt
  rw [count_record, tally, List.countP_singleton]
  by_cases same : category = instr.lead.category
  · rw [if_pos same, if_pos (decide_eq_true same.symm), toNat_saturatingAdd, same]
    rfl
  · rw [if_neg same, if_neg (by simpa using Ne.symm same), largest]
    omega

/-- Counts from zero on are the numbers of instructions, as long as these can be counted. -/
theorem Tallies.exact {instrs : List Instr} {q : Profile} (tallies : Tallies instrs {} q)
    (few : instrs.length ≤ largest) :
    q.total.toNat = instrs.length ∧ ∀ category, (q.count category).toNat = tally category instrs := by
  have counts (category : Category) : (q.count category).toNat = tally category instrs := by
    -- no count is larger than the number of all instructions, so none saturates
    have some : tally category instrs ≤ instrs.length := List.countP_le_length
    rw [tallies category, count_empty]
    omega
  refine ⟨?_, counts⟩
  simp only [toNat_total, counts, sum_tally]
  exact Nat.min_eq_right few

end Profile

namespace World

open Profile (Tallies)

variable {H : Type} [Host H]

/-- An instruction that goes well is counted once. -/
theorem step_tallies {w : World H} (well : w.step.1 = .ok ()) :
    Tallies w.next?.toList w.machine.profile w.step.2.machine.profile := by
  obtain ⟨instr, script, read⟩ := read_of_ok well
  rw [step_of_read read, next_of_read read, (execute_consumes _ _ instr).profile]
  exact Tallies.record w.machine.profile instr

theorem traced_tallies : Traced fun result moments (w v : World H) =>
    result = .ok () → Tallies (instrs moments) w.machine.profile v.machine.profile where
  rests _ _ _ := Tallies.refl _
  ran well _ := by
    rw [instrs_of_ok well]
    exact step_tallies well
  failed _ := nofun
  turned _ _ := nofun
  begun _ _ _ := Tallies.refl _
  stored _ _ _ _ := Tallies.refl _
  append first second well := by
    rw [instrs_append]
    exact (first rfl).append (second well)

/-- The counts of a run phase that goes well are those of its instructions. -/
theorem runAll_tallies {w : World H} (well : w.runAll.1 = .ok ()) :
    Tallies w.frameInstrs {} w.runAll.2.machine.profile := by
  have tallies := traced_tallies.loop (w.mapMachine fun m => { m with profile := {} })
  unfold runAll at well ⊢
  rcases ran : runThreads ThreadTable.order (w.mapMachine fun m => { m with profile := {} }) with ⟨fault | _, after⟩
  · simp only [ran] at well
    cases well
  · rw [ran] at tallies
    exact tallies rfl

/-! ### How many there can be -/

theorem length_sliceMoments_le (fuel : Nat) (w : World H) : (sliceMoments fuel w).length ≤ fuel := by
  induction fuel generalizing w with
  | zero => exact Nat.le_refl 0
  | succ fuel ih =>
    rw [sliceMoments]
    split
    · exact Nat.zero_le _
    · rcases w.step with ⟨fault | _, after⟩
      · exact Nat.succ_le_succ (Nat.zero_le fuel)
      · exact Nat.succ_le_succ (ih after)

theorem length_slice_moments_le (s : Slice H) : s.moments.length ≤ s.before.machine.options.instructionLimit.toNat := by
  unfold Slice.moments
  split
  · exact Nat.zero_le _
  · exact length_sliceMoments_le _ _

/-- Slices have the limit in common. -/
theorem length_giveSlices_moments_le (threads : List (Fin threadCount)) (w : World H) :
    ((giveSlices threads w).1.flatMap Slice.moments).length ≤
      threads.length * w.machine.options.instructionLimit.toNat := by
  induction threads generalizing w with
  | nil => exact Nat.zero_le _
  | cons thread threads ih =>
    have slice := length_slice_moments_le ⟨thread, w⟩
    have keeps := w.runThread_keeps thread
    rw [List.length_cons, Nat.succ_mul, Nat.add_comm]
    obtain ⟨fault, after, ran, given⟩ | ⟨after, ran, given⟩ := giveSlices_cons thread threads w
    · rw [given, List.flatMap_singleton]
      exact Nat.le_trans slice (Nat.le_add_right _ _)
    · rw [ran] at keeps
      have others := ih after
      rw [keeps.options] at others
      rw [given, List.flatMap_cons, List.length_append]
      exact Nat.add_le_add slice others

theorem length_frameInstrs_le (w : World H) :
    w.frameInstrs.length ≤ threadCount * w.machine.options.instructionLimit.toNat := by
  have most : w.machine.threads.runnable.length ≤ threadCount :=
    Nat.le_trans (List.length_filter_le _ _) (Nat.le_of_eq (List.length_finRange))
  calc w.frameInstrs.length
    _ ≤ (w.mapMachine fun m => { m with profile := {} }).moments.length := List.length_filterMap_le _ _
    _ ≤ w.machine.threads.runnable.length * w.machine.options.instructionLimit.toNat :=
      length_giveSlices_moments_le w.machine.threads.runnable _
    _ ≤ threadCount * w.machine.options.instructionLimit.toNat := Nat.mul_le_mul_right _ most

end World

end Framescript
