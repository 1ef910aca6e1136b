import Framescript.Proofs.Numerals
import Mathlib.Data.Nat.Digits.Defs

/-!
Which tokens are numbers. A literal is decimal digits, or hexadecimal digits behind `0x`, and may have a minus sign in
front (`Denotes`). Every literal is read as the number that it denotes. But the digits are read with a sign of their own,
so that tokens with a second sign are read as well (`SignedWithin`), unless they ask for the negative of the least number
(`NegativeOverflows`), and these are all that is read (`integer_reads_literals`).
-/
namespace Framescript

namespace Text

/-- The place of a character among the digits, letters in either case. -/
def digitIndex (c : Char) : Nat :=
  "0123456789abcdef".toList.idxOf c.toLower

/-- One digit or more of a base, and the number that they denote. -/
structure Numeral (base : Nat) (cs : List Char) (n : Nat) : Prop where
  some : cs ≠ []
  digits : ∀ c ∈ cs, digitIndex c < base
  value : n = Nat.ofDigits base (cs.map digitIndex).reverse

theorem digitIndex_of_beyond {c : Char} (beyond : 128 ≤ c.toNat) : digitIndex c = 16 := by
  have kept : c.toLower = c := by
    refine dif_neg ?_
    rintro ⟨_, most⟩
    have : c.toNat ≤ 90 := most
    omega
  have ascii : ∀ d ∈ "0123456789abcdef".toList, d.toNat < 128 := by
    have all : "0123456789abcdef".toList.all (·.toNat < 128) = true := by decide
    exact fun d member => of_decide_eq_true (List.all_eq_true.mp all d member)
  have outside : c ∉ "0123456789abcdef".toList := fun member => absurd (ascii c member) (by omega)
  rw [digitIndex, kept, List.idxOf_eq_length outside]
  rfl

theorem digitValue?_eq {base : Nat} (small : base ≤ 16) (c : Char) :
    digitValue? base c = if digitIndex c < base then some (digitIndex c) else none := by
  have ascii : ∀ n < 128, ∀ base < 17, digitValue? base (Char.ofNat n) =
      if digitIndex (Char.ofNat n) < base then some (digitIndex (Char.ofNat n)) else none := by decide +kernel
  by_cases plain : c.toNat < 128
  · rw [← Char.ofNat_toNat c]
    exact ascii c.toNat plain base (by omega)
  · rw [digitIndex_of_beyond (by omega), if_neg (by omega)]
    have ranges : ¬ (0x30 ≤ c.toNat ∧ c.toNat ≤ 0x39) ∧ ¬ (0x41 ≤ c.toNat ∧ c.toNat ≤ 0x46) ∧
        ¬ (0x61 ≤ c.toNat ∧ c.toNat ≤ 0x66) := by omega
    simp only [digitValue?, if_neg ranges.1, if_neg ranges.2.1, if_neg ranges.2.2, Option.filter_none]

/-- Digits are read from the left, each time what was read so far goes one place up. -/
theorem readDigits?_eq_some_iff {base : Nat} (small : base ≤ 16) {acc n : Nat} {cs : List Char} :
    readDigits? base acc cs = some n ↔ (∀ c ∈ cs, digitIndex c < base) ∧
      n = Nat.ofDigits base (cs.map digitIndex).reverse + base ^ cs.length * acc := by
  induction cs generalizing acc with
  | nil => simp [readDigits?, eq_comm]
  | cons c cs ih =>
    rw [readDigits?, digitValue?_eq small]
    by_cases digit : digitIndex c < base
    · rw [if_pos digit, Option.bind_some, ih, List.forall_mem_cons, and_iff_right digit]
      simp only [List.map_cons, List.reverse_cons, Nat.ofDigits_append, Nat.ofDigits_singleton, List.length_reverse,
        List.length_map, List.length_cons]
      refine and_congr Iff.rfl (Eq.congr rfl ?_)
      ring
    · rw [if_neg digit]
      simp [digit]

theorem natural?_eq_some_iff {base : Nat} (small : base ≤ 16) {cs : List Char} {n : Nat} :
    natural? base cs = some n ↔ Numeral base cs n := by
  rw [natural?]
  by_cases empty : cs = []
  · rw [if_pos (by simp [empty])]
    refine iff_of_false ?_ fun numeral => numeral.some empty
    intro read
    cases read
  · rw [if_neg (by simpa using empty), readDigits?_eq_some_iff small, Nat.mul_zero, Nat.add_zero]
    constructor
    · rintro ⟨digits, value⟩
      exact ⟨empty, digits, value⟩
    · intro numeral
      exact ⟨numeral.digits, numeral.value⟩

/-- The sign in front of digits. -/
inductive Sign where
  | none
  | plus
  | minus

namespace Sign

def text : Sign → List Char
  | .none => []
  | .plus => ['+']
  | .minus => ['-']

/-- The number with the given sign. -/
def apply : Sign → Nat → Int
  | .minus, n => -n
  | _, n => n

end Sign

theorem Numeral.not_mem {base : Nat} (small : base ≤ 16) {cs : List Char} {n : Nat} (numeral : Numeral base cs n)
    {c : Char} (other : digitIndex c = 16) : c ∉ cs := by
  intro member
  have := numeral.digits c member
  omega

theorem signed?_eq_some_iff {base : Nat} (small : base ≤ 16) {cs : List Char} {m : Int} :
    signed? base cs = some m ↔
      ∃ (sign : Sign) (digits : List Char) (n : Nat), cs = sign.text ++ digits ∧ Numeral base digits n ∧ m = sign.apply n := by
  constructor
  · intro read
    unfold signed? at read
    split at read
    all_goals
      obtain ⟨n, natural, rfl⟩ := Option.map_eq_some_iff.mp read
      have numeral := (natural?_eq_some_iff small).mp natural
    · exact ⟨.plus, _, n, rfl, numeral, rfl⟩
    · exact ⟨.minus, _, n, rfl, numeral, rfl⟩
    · exact ⟨.none, _, n, rfl, numeral, rfl⟩
  · rintro ⟨sign, digits, n, rfl, numeral, rfl⟩
    have natural := (natural?_eq_some_iff small).mpr numeral
    cases sign with
    | none =>
      have unsigned : ∀ c ∈ digits, c ≠ '+' ∧ c ≠ '-' := by
        refine fun c member => ⟨?_, ?_⟩ <;> rintro rfl
        · exact numeral.not_mem small (by decide) member
        · exact numeral.not_mem small (by decide) member
      show signed? base digits = _
      rw [signed?_of_unsigned unsigned, natural]
      rfl
    | plus | minus =>
      simp only [Sign.text, List.singleton_append, signed?, natural, Option.map_some]
      rfl

end Text

namespace Assembly

open Text (Numeral Sign)

/-- A base and the mark in front of its digits. -/
inductive Radix : Nat → List Char → Prop
  | decimal : Radix 10 []
  | hexadecimal : Radix 16 ['0', 'x']
  | upper : Radix 16 ['0', 'X']

/-- A token of digits behind the mark of their base, with a sign between the two. -/
def Spelled (sign : Sign) (token : List Char) (n : Int) : Prop :=
  ∃ base mark digits m, Radix base mark ∧ Numeral base digits m ∧ token = mark ++ sign.text ++ digits ∧ n = sign.apply m

theorem Radix.small {base : Nat} {mark : List Char} (radix : Radix base mark) : base ≤ 16 := by
  cases radix <;> decide

theorem magnitude?_decimal_of_head {token : List Char} (lower : ∀ rest, token ≠ '0' :: 'x' :: rest)
    (upper : ∀ rest, token ≠ '0' :: 'X' :: rest) : magnitude? token = (Text.signed? 10 token).filter fits64 := by
  unfold magnitude?
  split
  · exact absurd rfl (lower _)
  · exact absurd rfl (upper _)
  · rfl

/-- A token without a minus sign in front is digits with at most one sign, behind the mark of their base. -/
theorem magnitude?_eq_some_iff {token : List Char} {n : Int} :
    magnitude? token = some n ↔ (∃ sign, Spelled sign token n) ∧ fits64 n = true := by
  constructor
  · intro read
    unfold magnitude? at read
    split at read
    all_goals
      obtain ⟨read, fits⟩ := Option.filter_eq_some_iff.mp read
      obtain ⟨sign, digits, m, rfl, numeral, rfl⟩ := (Text.signed?_eq_some_iff (by decide)).mp read
    · exact ⟨⟨sign, 16, _, digits, m, .hexadecimal, numeral, rfl, rfl⟩, fits⟩
    · exact ⟨⟨sign, 16, _, digits, m, .upper, numeral, rfl, rfl⟩, fits⟩
    · exact ⟨⟨sign, 10, [], digits, m, .decimal, numeral, rfl, rfl⟩, fits⟩
  · rintro ⟨⟨sign, base, mark, digits, m, radix, numeral, rfl, rfl⟩, fits⟩
    have read : Text.signed? base (sign.text ++ digits) = some (sign.apply m) :=
      (Text.signed?_eq_some_iff radix.small).mpr ⟨sign, digits, m, rfl, numeral, rfl⟩
    have kept := Option.filter_eq_some_iff.mpr ⟨read, fits⟩
    cases radix with
    | hexadecimal | upper => exact kept
    | decimal =>
      -- neither a sign nor a decimal digit is an `x`, so the digits are not taken for hexadecimal ones
      have plain (x : Char) (letter : Text.digitIndex x = 16) (rest : List Char) :
          sign.text ++ digits ≠ '0' :: x :: rest := by
        intro same
        cases sign with
        | none =>
          have member : x ∈ digits := by
            rw [show digits = '0' :: x :: rest from same]
            simp
          exact numeral.not_mem (by decide) letter member
        | plus | minus => cases same
      exact (magnitude?_decimal_of_head (plain 'x' (by decide)) (plain 'X' (by decide))).trans kept

/-- A literal denotes a number: digits without a sign of their own, with or without a minus sign in front. -/
inductive Denotes : List Char → Int → Prop
  | positive {token : List Char} {n : Int} (spelled : Spelled .none token n) (small : n < 0x8000000000000000) :
      Denotes token n
  | negative {token : List Char} {n : Int} (spelled : Spelled .none token n) (small : n < 0x8000000000000000) :
      Denotes ('-' :: token) (-n)

/-- A token whose digits have a sign of their own where a literal has none. Neither the number nor the negative of it that
    a minus sign in front asks for leaves 64 bits. -/
inductive SignedWithin : List Char → Int → Prop
  | positive {sign : Sign} {token : List Char} {n : Int} (signed : sign ≠ .none) (spelled : Spelled sign token n)
      (front : token.head? ≠ some '-') (fits : fits64 n = true) : SignedWithin token n
  | negative {sign : Sign} {token : List Char} {n : Int} (signed : sign ≠ .none) (spelled : Spelled sign token n)
      (fits : fits64 n = true) (fits' : fits64 (-n) = true) : SignedWithin ('-' :: token) (-n)

theorem Spelled.head_of_unsigned {token : List Char} {n : Int} (spelled : Spelled .none token n) :
    token.head? ≠ some '-' := by
  obtain ⟨base, mark, digits, m, radix, numeral, rfl, rfl⟩ := spelled
  cases radix with
  | hexadecimal | upper => simp
  | decimal =>
    intro head
    exact numeral.not_mem (by decide) (by decide) (List.mem_of_head? head)

theorem Spelled.fits_iff {token : List Char} {n : Int} (spelled : Spelled .none token n) :
    fits64 n = true ↔ n < 0x8000000000000000 := by
  obtain ⟨base, mark, digits, m, radix, numeral, rfl, rfl⟩ := spelled
  show fits64 (m : Int) = true ↔ (m : Int) < 0x8000000000000000
  simp only [fits64, Bool.and_eq_true, decide_eq_true_eq]
  omega

theorem Spelled.fits_neg {token : List Char} {n : Int} (spelled : Spelled .none token n)
    (small : n < 0x8000000000000000) : fits64 (-n) = true := by
  obtain ⟨base, mark, digits, m, radix, numeral, rfl, rfl⟩ := spelled
  simp only [Text.Sign.apply] at small ⊢
  simp only [fits64, Bool.and_eq_true, decide_eq_true_eq]
  omega

theorem integer?_minus {token : List Char} {n : Int} :
    integer? ('-' :: token) = some n ↔ ∃ m, magnitude? token = some m ∧ n = -m ∧ fits64 n = true := by
  rw [show integer? ('-' :: token) = ((magnitude? token).map (-·)).filter fits64 from rfl, Option.filter_eq_some_iff,
    Option.map_eq_some_iff]
  constructor
  · rintro ⟨⟨m, found, rfl⟩, fits⟩
    exact ⟨m, found, rfl, fits⟩
  · rintro ⟨m, found, rfl, fits⟩
    exact ⟨⟨m, found, rfl⟩, fits⟩

/-- What is read as a number is a literal, or it has a second sign. -/
theorem integer?_eq_some_iff {token : List Char} {n : Int} :
    integer? token = some n ↔ Denotes token n ∨ SignedWithin token n := by
  constructor
  · intro read
    by_cases minus : token.head? = some '-'
    · obtain ⟨rest, rfl⟩ := List.head?_eq_some_iff.mp minus
      obtain ⟨m, found, rfl, fits'⟩ := integer?_minus.mp read
      obtain ⟨⟨sign, spelled⟩, fits⟩ := magnitude?_eq_some_iff.mp found
      cases sign with
      | none => exact .inl (.negative spelled (spelled.fits_iff.mp fits))
      | plus | minus => exact .inr (.negative (by simp) spelled fits fits')
    · rw [integer?_of_head minus] at read
      obtain ⟨⟨sign, spelled⟩, fits⟩ := magnitude?_eq_some_iff.mp read
      cases sign with
      | none => exact .inl (.positive spelled (spelled.fits_iff.mp fits))
      | plus | minus => exact .inr (.positive (by simp) spelled minus fits)
  · rintro (literal | within)
    · cases literal with
      | positive spelled small =>
        rw [integer?_of_head spelled.head_of_unsigned]
        exact magnitude?_eq_some_iff.mpr ⟨⟨_, spelled⟩, spelled.fits_iff.mpr small⟩
      | negative spelled small =>
        exact integer?_minus.mpr
          ⟨_, magnitude?_eq_some_iff.mpr ⟨⟨_, spelled⟩, spelled.fits_iff.mpr small⟩, rfl, spelled.fits_neg small⟩
    · cases within with
      | positive signed spelled front fits =>
        rw [integer?_of_head front]
        exact magnitude?_eq_some_iff.mpr ⟨⟨_, spelled⟩, fits⟩
      | negative signed spelled fits fits' =>
        exact integer?_minus.mpr ⟨_, magnitude?_eq_some_iff.mpr ⟨⟨_, spelled⟩, fits⟩, rfl, fits'⟩

/-- No literal has a sign behind its first character, and none has a plus sign in front. -/
theorem Denotes.unsigned {token : List Char} {n : Int} (literal : Denotes token n) :
    token.head? ≠ some '+' ∧ ∀ c ∈ token.tail, c ≠ '+' ∧ c ≠ '-' := by
  have plain {token : List Char} {n : Int} (spelled : Spelled .none token n) : ∀ c ∈ token, c ≠ '+' ∧ c ≠ '-' := by
    obtain ⟨base, mark, digits, m, radix, numeral, rfl, rfl⟩ := spelled
    have marks : ∀ c ∈ mark, c ≠ '+' ∧ c ≠ '-' := by cases radix <;> simp
    intro c member
    rw [Text.Sign.text, List.append_nil] at member
    rcases List.mem_append.mp member with front | digit
    · exact marks c front
    · constructor <;> rintro rfl
      · exact numeral.not_mem radix.small (by decide) digit
      · exact numeral.not_mem radix.small (by decide) digit
  cases literal with
  | positive spelled small =>
    exact ⟨fun head => (plain spelled '+' (List.mem_of_head? head)).1 rfl,
      fun c member => plain spelled c (List.mem_of_mem_tail member)⟩
  | negative spelled small => exact ⟨by simp, plain spelled⟩

/-- Digits with a sign of their own are no literal, nor are they with a minus sign in front. -/
theorem SignedWithin.not_denotes {token : List Char} {n : Int} (within : SignedWithin token n) (m : Int) :
    ¬ Denotes token m := by
  intro literal
  obtain ⟨noPlus, plain⟩ := literal.unsigned
  have sign {sign : Sign} (signed : sign ≠ .none) : ∃ c, sign.text = [c] ∧ (c = '+' ∨ c = '-') := by
    cases sign with
    | none => exact absurd rfl signed
    | plus => exact ⟨'+', rfl, .inl rfl⟩
    | minus => exact ⟨'-', rfl, .inr rfl⟩
  cases within with
  | positive signed spelled front fits =>
    obtain ⟨base, mark, digits, k, radix, numeral, rfl, rfl⟩ := spelled
    obtain ⟨c, text, either⟩ := sign signed
    rw [text] at noPlus plain front
    cases radix with
    | decimal =>
      rcases either with rfl | rfl
      · exact noPlus rfl
      · exact front rfl
    | hexadecimal | upper =>
      obtain ⟨one, two⟩ := plain c (by simp)
      exact either.elim one two
  | negative signed spelled fits fits' =>
    obtain ⟨base, mark, digits, k, radix, numeral, rfl, rfl⟩ := spelled
    obtain ⟨c, text, either⟩ := sign signed
    obtain ⟨one, two⟩ := plain c (by simp [text])
    exact either.elim one two

/-- The negative of the least number, which takes a second minus sign to write. -/
def NegativeOverflows (token : List Char) : Prop :=
  ∃ base mark digits, Radix base mark ∧ Numeral base digits 0x8000000000000000 ∧ token = '-' :: mark ++ '-' :: digits

/-- Only the least number has no negative in 64 bits. -/
theorem fits64_neg {n : Int} (fits : fits64 n = true) : fits64 (-n) = false ↔ n = -0x8000000000000000 := by
  simp only [fits64, Bool.and_eq_true, Bool.and_eq_false_iff, decide_eq_true_eq, decide_eq_false_iff_not] at fits ⊢
  omega

theorem overflows_minus {token : List Char} :
    overflows ('-' :: token) = true ↔ ∃ n, magnitude? token = some n ∧ fits64 (-n) = false := by
  rw [show overflows ('-' :: token) = (magnitude? token).any fun n => !fits64 (-n) from rfl]
  rcases magnitude? token with _ | n <;> simp

theorem overflows_iff {token : List Char} : overflows token = true ↔ NegativeOverflows token := by
  constructor
  · intro beyond
    obtain ⟨rest, rfl⟩ : ∃ rest, token = '-' :: rest := by
      unfold overflows at beyond
      split at beyond
      · exact ⟨_, rfl⟩
      · cases beyond
    obtain ⟨n, read, least⟩ := overflows_minus.mp beyond
    obtain ⟨⟨sign, base, mark, digits, m, radix, numeral, rfl, rfl⟩, fits⟩ := magnitude?_eq_some_iff.mp read
    have same := (fits64_neg fits).mp least
    cases sign with
    | none | plus =>
      have : (m : Int) = -0x8000000000000000 := same
      omega
    | minus =>
      have whole : m = 0x8000000000000000 := by
        have : -(m : Int) = -0x8000000000000000 := same
        omega
      rw [whole] at numeral
      exact ⟨base, mark, digits, radix, numeral, by simp [Text.Sign.text]⟩
  · rintro ⟨base, mark, digits, radix, numeral, rfl⟩
    have spelled : Spelled .minus (mark ++ '-' :: digits) (-0x8000000000000000) :=
      ⟨base, mark, digits, _, radix, numeral, by simp [Text.Sign.text], rfl⟩
    exact overflows_minus.mpr ⟨_, magnitude?_eq_some_iff.mpr ⟨⟨_, spelled⟩, by decide⟩, by decide⟩

theorem integer?_of_overflows {token : List Char} (beyond : overflows token = true) : integer? token = none := by
  unfold overflows at beyond
  split at beyond
  · rename_i digits
    obtain ⟨n, read, least⟩ := overflows_minus.mp beyond
    rw [integer?, read, Option.map_some, Option.filter_some, if_neg (by simp [least])]
  · cases beyond

/-- Exactly which tokens are read as numbers: the literals, as the numbers that they denote, and beside them the tokens
    whose digits have a sign of their own, of which none is a literal. Such a sign can be a second minus sign, and the
    negative of the least number overflows. All other tokens are refused as operands that should be numbers. -/
theorem integer_reads_literals (token : List Char) :
    (∀ n, integer token = .ok n ↔ Denotes token n ∨ SignedWithin token n) ∧
    (∀ n, SignedWithin token n → ∀ m, ¬ Denotes token m) ∧
    (∀ fault, integer token = .error fault ↔
      (fault = .overflow ∧ NegativeOverflows token) ∨
      (fault = .operand token .integer ∧ ¬ NegativeOverflows token ∧
        ∀ n, ¬ Denotes token n ∧ ¬ SignedWithin token n)) := by
  refine ⟨fun n => ?_, fun n within => within.not_denotes, fun fault => ?_⟩
  · rw [← integer?_eq_some_iff, integer]
    rcases integer? token with _ | found <;> simp
  · simp only [← not_or, ← integer?_eq_some_iff, ← overflows_iff]
    rw [integer]
    by_cases beyond : overflows token = true
    · simp [beyond, integer?_of_overflows beyond, eq_comm]
    · rcases integer? token with _ | found <;> simp [beyond, eq_comm]

/-- A hexadecimal literal is read as it is written. Five with two minus signs is no literal, and is read as five. The
    least number in 64 bits overflows behind a second minus sign. -/
theorem integer_reads_literals_twoSigns :
    (Denotes "-0X1f".toList (-31) ∧ integer "-0X1f".toList = .ok (-31)) ∧
    (integer "--5".toList = .ok 5 ∧ ∀ n, ¬ Denotes "--5".toList n) ∧
    integer "--9223372036854775808".toList = .error .overflow := by
  have hexadecimal : Numeral 16 ['1', 'f'] 31 :=
    ⟨by simp, List.forall_mem_cons.mpr ⟨by decide, List.forall_mem_singleton.mpr (by decide)⟩, rfl⟩
  have literal : Denotes "-0X1f".toList (-31) :=
    .negative ⟨16, ['0', 'X'], ['1', 'f'], 31, .upper, hexadecimal, rfl, rfl⟩ (by decide)
  have five : Numeral 10 ['5'] 5 := ⟨by simp, List.forall_mem_singleton.mpr (by decide), rfl⟩
  have spelled : Spelled .minus ['-', '5'] (-5) := ⟨10, [], ['5'], 5, .decimal, five, rfl, rfl⟩
  have within : SignedWithin "--5".toList 5 := .negative (by simp) spelled (by decide) (by decide)
  have least : NegativeOverflows "--9223372036854775808".toList := overflows_iff.mp (by decide +kernel)
  exact ⟨⟨literal, ((integer_reads_literals _).1 _).mpr (.inl literal)⟩,
    ⟨((integer_reads_literals _).1 _).mpr (.inr within), (integer_reads_literals _).2.1 5 within⟩,
    ((integer_reads_literals _).2.2 _).mpr (.inl ⟨rfl, least⟩)⟩

end Assembly

end Framescript
