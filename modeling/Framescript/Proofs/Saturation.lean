import Framescript.Proofs.Tally
import Mathlib.Data.List.Induction
import Mathlib.Data.Nat.Fib.Basic
import Mathlib.Tactic.NormNum.NatFib

/-!
What profiles show that are recorded in and merged into each other. Behind each of them stands the account of all that
was ever recorded in it or came with a merge (`Booking.accounts`). Two profiles that are merged into each other in turn
have accounts that grow like the Fibonacci numbers (`Profile.accounts_crossing`), so these soon outgrow every count. The
counts of instructions and their total then stay at the largest count. The number of slices does not: the booking that
brings an account beyond the largest count fails (`Profile.counts_saturate_slices_overflow`).
-/
namespace Framescript

namespace Profile

/-! ### Accounts -/

/-- What is counted in a profile. -/
inductive Occurrence where
  | instruction (category : Category)
  | slice
  deriving DecidableEq

/-- The category of an instruction. -/
def Occurrence.category? : Occurrence → Option Category
  | instruction category => some category
  | slice => none

/-- How many instructions there are in an account. -/
def instructions (account : List Occurrence) : Nat :=
  account.countP fun occurrence => occurrence.category?.isSome

/-- A change of one of several profiles, which go by names. -/
inductive Booking (ι : Type) where
  | record (target : ι) (category : Category)
  | recordSlice (target : ι)
  | merge (target source : ι)

namespace Booking

variable {ι : Type}

/-- The profile that is changed. -/
def target : Booking ι → ι
  | record target _ | recordSlice target | merge target _ => target

/-- What the profile is changed to. -/
def result (profiles : ι → Profile) : Booking ι → Except Fault Profile
  | record target category => .ok ((profiles target).record category)
  | recordSlice target => (profiles target).recordSlice
  | merge target source => (profiles target).merge (profiles source)

/-- What the account of the profile grows by. -/
def added (accounts : ι → List Occurrence) : Booking ι → List Occurrence
  | record _ category => [.instruction category]
  | recordSlice _ => [.slice]
  | merge _ source => accounts source

variable [DecidableEq ι]

/-- The profiles after one more booking. -/
def apply (profiles : ι → Profile) (booking : Booking ι) : Except Fault (ι → Profile) :=
  (booking.result profiles).map (Function.update profiles booking.target)

/-- The profiles after some bookings, unless one of these fails; all were empty. -/
def run (bookings : List (Booking ι)) : Except Fault (ι → Profile) :=
  bookings.foldlM apply fun _ => {}

/-- The accounts after some bookings, without a limit. -/
def accounts (bookings : List (Booking ι)) : ι → List Occurrence :=
  bookings.foldl (fun accounts booking =>
    Function.update accounts booking.target (accounts booking.target ++ booking.added accounts)) fun _ => []

theorem run_concat (bookings : List (Booking ι)) (booking : Booking ι) :
    run (bookings ++ [booking]) =
      match run bookings with
      | .error fault => .error fault
      | .ok profiles => booking.apply profiles := by
  unfold run
  rw [List.foldlM_append]
  rcases List.foldlM apply (fun _ => {}) bookings with fault | profiles
  · rfl
  · exact bind_pure (booking.apply profiles)

theorem accounts_concat (bookings : List (Booking ι)) (booking : Booking ι) :
    accounts (bookings ++ [booking]) = Function.update (accounts bookings) booking.target
      (accounts bookings booking.target ++ booking.added (accounts bookings)) :=
  List.foldl_concat ..

theorem accounts_grow (bookings : List (Booking ι)) (booking : Booking ι) (i : ι) :
    accounts bookings i <+: accounts (bookings ++ [booking]) i := by
  rw [accounts_concat, Function.update_apply]
  split
  · rename_i same
    rw [same]
    exact List.prefix_append ..
  · exact List.prefix_rfl

end Booking

/-! ### What a profile shows of its account -/

/-- Capping what is summed does not change the capped sum. -/
theorem min_sum_min {α : Type} (bound : Nat) (f : α → Nat) (xs : List α) {a b : Nat} (same : min bound a = min bound b) :
    min bound (xs.foldl (fun sum x => sum + min bound (f x)) a) = min bound (xs.foldl (fun sum x => sum + f x) b) := by
  induction xs generalizing a b with
  | nil => exact same
  | cons x xs ih =>
    have next : min bound (a + min bound (f x)) = min bound (b + f x) := by omega
    exact ih next

theorem sum_instructions (account : List Occurrence) :
    Category.all.foldl (fun sum category => sum + account.count (.instruction category)) 0 = instructions account := by
  have same (category : Category) :
      account.count (.instruction category) = account.countP (·.category? = some category) := by
    refine List.countP_congr fun occurrence _ => ?_
    cases occurrence <;> simp [Occurrence.category?]
  simp only [same]
  exact Category.sum_countP Occurrence.category? account

/-- The counts of a profile are those of an account, the instructions capped at the largest count. -/
structure Shows (account : List Occurrence) (p : Profile) : Prop where
  count : ∀ category, (p.count category).toNat = min largest (account.count (.instruction category))
  slices : p.slices.toNat = account.count .slice

namespace Shows

variable {account other : List Occurrence} {p q : Profile}

theorem empty : Shows [] {} where
  count := count_empty
  slices := rfl

theorem total (shown : Shows account p) : p.total.toNat = min largest (instructions account) := by
  simp only [toNat_total, shown.count]
  rw [min_sum_min largest _ Category.all rfl, sum_instructions]

theorem slices_le (shown : Shows account p) : account.count .slice ≤ largest := by
  rw [← shown.slices]
  exact Nat.le_of_lt_succ p.slices.toNat_lt

/-- A profile of which the account has grown shows at least as much as before. -/
theorem mono (shown : Shows account p) (later : Shows (account ++ other) q) :
    (∀ category, p.count category ≤ q.count category) ∧ p.total ≤ q.total ∧ p.slices ≤ q.slices := by
  refine ⟨fun category => ?_, ?_, ?_⟩
  · rw [UInt64.le_iff_toNat_le, shown.count, later.count, List.count_append]
    omega
  · rw [UInt64.le_iff_toNat_le, shown.total, later.total, instructions, instructions, List.countP_append]
    omega
  · rw [UInt64.le_iff_toNat_le, shown.slices, later.slices, List.count_append]
    omega

/-! ### One booking -/

theorem record (shown : Shows account p) (category : Category) :
    Shows (account ++ [.instruction category]) (p.record category) where
  count := by
    intro counted
    rw [count_record, List.count_append, List.count_singleton]
    by_cases same : counted = category
    · subst same
      have here := shown.count counted
      simp only [if_true, BEq.rfl, toNat_saturatingAdd, UInt64.toNat_one]
      omega
    · simp [same, Ne.symm same, shown.count counted]
  slices := by
    simp [Profile.record, shown.slices]

theorem recordSlice (shown : Shows account p) :
    (largest < (account ++ [Occurrence.slice]).count .slice ∧ p.recordSlice = .error .overflow) ∨
    ∃ q, p.recordSlice = .ok q ∧ Shows (account ++ [.slice]) q := by
  have sum : (account ++ [Occurrence.slice]).count .slice = p.slices.toNat + (1 : UInt64).toNat := by
    rw [List.count_append, List.count_singleton_self, shown.slices]
    rfl
  obtain ⟨many, added⟩ | ⟨slices, added, counted⟩ := checkedAdd_cases p.slices 1
  · exact .inl ⟨sum ▸ many, by rw [Profile.recordSlice, added]⟩
  · refine .inr ⟨{ p with slices }, by rw [Profile.recordSlice, added], fun category => ?_, counted.trans sum.symm⟩
    rw [List.count_append]
    exact shown.count category

theorem merge (shown : Shows account p) (shown' : Shows other q) :
    (largest < (account ++ other).count .slice ∧ p.merge q = .error .overflow) ∨
    ∃ merged, p.merge q = .ok merged ∧ Shows (account ++ other) merged := by
  have sum : (account ++ other).count .slice = p.slices.toNat + q.slices.toNat := by
    rw [List.count_append, shown.slices, shown'.slices]
  obtain ⟨many, added⟩ | ⟨slices, added, counted⟩ := checkedAdd_cases p.slices q.slices
  · exact .inl ⟨sum ▸ many, by rw [Profile.merge, added]⟩
  · refine .inr ⟨_, by rw [Profile.merge, added], fun category => ?_, counted.trans sum.symm⟩
    have count : (Profile.mk (p.counts.zipWith saturatingAdd q.counts) slices).count category =
        saturatingAdd (p.count category) (q.count category) := Vector.getElem_zipWith _
    rw [count, toNat_saturatingAdd, shown.count, shown'.count, List.count_append]
    omega

end Shows

/-! ### Sequences of bookings -/

namespace Booking

variable {ι : Type}

/-- A booking fails if the account has more slices than can be counted, and otherwise keeps the profile in step with
    it. -/
theorem result_cases {profiles : ι → Profile} {accounts : ι → List Occurrence}
    (shown : ∀ i, Shows (accounts i) (profiles i)) (booking : Booking ι) :
    (largest < (accounts booking.target ++ booking.added accounts).count .slice ∧
      booking.result profiles = .error .overflow) ∨
    ∃ p, booking.result profiles = .ok p ∧ Shows (accounts booking.target ++ booking.added accounts) p := by
  cases booking with
  | record target category => exact .inr ⟨_, rfl, (shown target).record category⟩
  | recordSlice target => exact (shown target).recordSlice
  | merge target source => exact (shown target).merge (shown source)

variable [DecidableEq ι]

/-- Bookings fail if an account has more slices than can be counted, and otherwise keep all profiles in step with their
    accounts. -/
theorem run_cases (bookings : List (Booking ι)) :
    ((∃ i, largest < (accounts bookings i).count .slice) ∧ run bookings = .error .overflow) ∨
    ∃ profiles, run bookings = .ok profiles ∧ ∀ i, Shows (accounts bookings i) (profiles i) := by
  induction bookings using List.reverseRecOn with
  | nil => exact .inr ⟨_, rfl, fun _ => Shows.empty⟩
  | append_singleton bookings booking ih =>
    rw [run_concat]
    obtain ⟨⟨i, many⟩, failed⟩ | ⟨profiles, ran, shown⟩ := ih
    · -- no account ever gets shorter
      have grown := (accounts_grow bookings booking i).sublist.count_le .slice
      rw [failed]
      exact .inl ⟨⟨i, Nat.lt_of_lt_of_le many grown⟩, rfl⟩
    · rw [ran, accounts_concat]
      obtain ⟨many, failed⟩ | ⟨p, well, shows⟩ := result_cases shown booking
      · refine .inl ⟨⟨booking.target, ?_⟩, by simp only [apply, failed]; rfl⟩
        rw [Function.update_self]
        exact many
      · refine .inr ⟨Function.update profiles booking.target p, by simp only [apply, well]; rfl, fun i => ?_⟩
        rw [Function.update_apply, Function.update_apply]
        split
        · exact shows
        · exact shown i

end Booking

open Booking (run accounts)

/-- However profiles are recorded in and merged into each other, that fails if and only if the account of one of them
    has more slices than can be counted. Otherwise the counts of instructions, and the total of these, are those of the
    accounts, capped at the largest count, and the numbers of slices are those of the accounts. The next booking fails if
    and only if it is the one that brings the slices of its account beyond the largest count, and takes nothing back if it
    does not. -/
theorem counts_saturate_slices_overflow {ι : Type} [DecidableEq ι] (bookings : List (Booking ι)) :
    (run bookings = .error .overflow ↔ ∃ i, largest < (accounts bookings i).count .slice) ∧
    ((∀ i, (accounts bookings i).count .slice ≤ largest) → ∃ profiles, run bookings = .ok profiles ∧
      (∀ i, (∀ category, ((profiles i).count category).toNat =
          min largest ((accounts bookings i).count (.instruction category))) ∧
        (profiles i).total.toNat = min largest (instructions (accounts bookings i)) ∧
        (profiles i).slices.toNat = (accounts bookings i).count .slice) ∧
      ∀ booking : Booking ι,
        (booking.result profiles = .error .overflow ∧
          largest < (accounts (bookings ++ [booking]) booking.target).count .slice) ∨
        (accounts (bookings ++ [booking]) booking.target).count .slice ≤ largest ∧
          ∃ p, booking.result profiles = .ok p ∧
            (∀ category, (profiles booking.target).count category ≤ p.count category) ∧
            (profiles booking.target).total ≤ p.total ∧ (profiles booking.target).slices ≤ p.slices) := by
  obtain ⟨⟨i, many⟩, failed⟩ | ⟨profiles, ran, shown⟩ := Booking.run_cases bookings
  · exact ⟨⟨fun _ => ⟨i, many⟩, fun _ => failed⟩, fun fits => absurd many (Nat.not_lt.mpr (fits i))⟩
  · refine ⟨⟨fun failed => ?_, fun ⟨i, many⟩ => ?_⟩, fun _ => ⟨profiles, ran, fun i => ?_, fun booking => ?_⟩⟩
    · cases ran.symm.trans failed
    · exact absurd many (Nat.not_lt.mpr (shown i).slices_le)
    · exact ⟨(shown i).count, (shown i).total, (shown i).slices⟩
    · rw [Booking.accounts_concat, Function.update_self]
      obtain ⟨many, failed⟩ | ⟨p, well, shows⟩ := Booking.result_cases shown booking
      · exact .inl ⟨failed, many⟩
      · exact .inr ⟨shows.slices_le, p, well, (shown booking.target).mono shows⟩

/-- An instruction, a slice if there are to be any, and then two profiles merged into each other in turn, the last time
    into `i`. -/
def crossing (sliced : Bool) : Bool → Nat → List (Booking Bool)
  | i, 0 => .record i .flow :: if sliced then [.recordSlice i] else []
  | i, merges + 1 => crossing sliced (!i) merges ++ [.merge i (!i)]

/-- How often something is in the first account of a crossing. -/
def inFirst (sliced : Bool) (occurrence : Occurrence) : Nat :=
  (.instruction .flow :: if sliced then [.slice] else []).count occurrence

theorem accounts_crossing (sliced : Bool) (occurrence : Occurrence) (i : Bool) (merges : Nat) :
    (accounts (crossing sliced i merges) i).count occurrence = inFirst sliced occurrence * Nat.fib (merges + 1) ∧
      (accounts (crossing sliced i merges) (!i)).count occurrence = inFirst sliced occurrence * Nat.fib merges := by
  induction merges generalizing i with
  | zero =>
    have first : accounts (crossing sliced i 0) i = .instruction .flow :: if sliced then [.slice] else [] := by
      cases sliced <;> cases i <;> rfl
    have none : accounts (crossing sliced i 0) (!i) = [] := by
      cases sliced <;> cases i <;> rfl
    rw [first, none]
    exact ⟨(Nat.mul_one _).symm, (Nat.mul_zero _).symm⟩
  | succ merges ih =>
    obtain ⟨last, first⟩ := ih (!i)
    rw [Bool.not_not] at first
    rw [crossing, Booking.accounts_concat]
    constructor
    · rw [Booking.target, Function.update_self, List.count_append, first, Booking.added, last, Nat.fib_add_two,
        Nat.mul_add]
    · rw [Booking.target, Function.update_of_ne (by simp), last]

/-- 92 merges make of an instruction and a slice as many as can still be counted, and the next one fails. Without the
    slice it does not, and the number of instructions stays at the largest count. -/
theorem counts_saturate_slices_overflow_crossing :
    (∃ profiles, run (crossing true true 92) = .ok profiles ∧ (profiles false).slices = 7540113804746346429 ∧
      (profiles true).slices = 12200160415121876738 ∧
      (Booking.merge false true).result profiles = .error .overflow) ∧
    crossing true false 93 = crossing true true 92 ++ [.merge false true] ∧
    run (crossing true false 93) = .error .overflow ∧
    (accounts (crossing true false 93) false).count .slice = 19740274219868223167 ∧
    (accounts (crossing false false 93) false).count (.instruction .flow) = 19740274219868223167 ∧
    ∃ profiles, run (crossing false false 93) = .ok profiles ∧ (profiles false).count .flow = 0xFFFFFFFFFFFFFFFF := by
  have first : (accounts (crossing true true 92) false).count .slice = 7540113804746346429 := by
    rw [← Bool.not_true, (accounts_crossing true .slice true 92).2, show inFirst true .slice = 1 from rfl]
    norm_num
  have second : (accounts (crossing true true 92) true).count .slice = 12200160415121876738 := by
    rw [(accounts_crossing true .slice true 92).1, show inFirst true .slice = 1 from rfl]
    norm_num
  have slices : (accounts (crossing true false 93) false).count .slice = 19740274219868223167 := by
    rw [(accounts_crossing true .slice false 93).1, show inFirst true .slice = 1 from rfl]
    norm_num
  have flow : (accounts (crossing false false 93) false).count (.instruction .flow) = 19740274219868223167 := by
    rw [(accounts_crossing false (.instruction .flow) false 93).1,
      show inFirst false (.instruction .flow) = 1 from rfl]
    norm_num
  have unsliced (i : Bool) : (accounts (crossing false false 93) i).count .slice ≤ largest := by
    have none : inFirst false .slice = 0 := rfl
    cases i with
    | false =>
      rw [(accounts_crossing false .slice false 93).1, none, Nat.zero_mul]
      exact Nat.zero_le _
    | true =>
      rw [← Bool.not_false, (accounts_crossing false .slice false 93).2, none, Nat.zero_mul]
      exact Nat.zero_le _
  have behind : crossing true false 93 = crossing true true 92 ++ [.merge false true] := rfl
  obtain ⟨-, before⟩ := counts_saturate_slices_overflow (crossing true true 92)
  obtain ⟨fails, -⟩ := counts_saturate_slices_overflow (crossing true false 93)
  obtain ⟨-, counted⟩ := counts_saturate_slices_overflow (crossing false false 93)
  obtain ⟨profiles, ran, shows, next⟩ := before fun i => by
    cases i with
    | false => rw [first]; decide
    | true => rw [second]; decide
  obtain ⟨profiles', ran', shows', -⟩ := counted unsliced
  have many : largest < (accounts (crossing true false 93) false).count .slice := by
    rw [slices]
    decide
  refine ⟨⟨profiles, ran, ?_, ?_, ?_⟩, behind, fails.mpr ⟨false, many⟩, slices, flow, profiles', ran', ?_⟩
  · rw [← UInt64.toNat_inj, (shows false).2.2, first]
    rfl
  · rw [← UInt64.toNat_inj, (shows true).2.2, second]
    rfl
  · obtain ⟨failed, -⟩ | ⟨few, -⟩ := next (.merge false true)
    · exact failed
    · rw [← behind] at few
      exact absurd many (Nat.not_lt.mpr few)
  · rw [← UInt64.toNat_inj, (shows' false).1, flow]
    rfl

end Profile

end Framescript
