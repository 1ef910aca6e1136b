import Framescript.Assembly.Statement
import Framescript.Instruction.Render

/-!
Numbers read back. The digits of a number denote it in any base up to sixteen (`readDigits?_toDigits`), and so a token
that was written for a number is read as that number, in decimal with or without a sign, and in hexadecimal.
-/
namespace Framescript

namespace Text

theorem readDigits?_append (base acc : Nat) (cs ds : List Char) :
    readDigits? base acc (cs ++ ds) = (readDigits? base acc cs).bind fun n => readDigits? base n ds := by
  induction cs generalizing acc with
  | nil => rfl
  | cons c cs ih =>
    rw [List.cons_append, readDigits?, readDigits?]
    rcases digitValue? base c with _ | d
    · rfl
    · exact ih _

/-- All digits of a number are digits of its base. -/
theorem forall_mem_toDigits {base : Nat} (two : 1 < base) {p : Char → Prop} (digits : ∀ d < base, p d.digitChar)
    (n : Nat) : ∀ c ∈ Nat.toDigits base n, p c := by
  induction n using Nat.strongRecOn with
  | ind n ih =>
    by_cases single : n < base
    · rw [Nat.toDigits_of_lt_base single]
      simpa using digits n single
    · rw [Nat.toDigits_of_base_le two (Nat.le_of_not_lt single)]
      intro c member
      rcases List.mem_append.mp member with front | last
      · exact ih (n / base) (Nat.div_lt_self (by omega) two) c front
      · cases List.mem_singleton.mp last
        exact digits _ (Nat.mod_lt n (by omega))

/-- The digits of a number denote it, however the digits are written. -/
theorem readDigits?_toDigits {base : Nat} (two : 1 < base) (write : Char → Char)
    (digits : ∀ d < base, digitValue? base (write d.digitChar) = some d) (n : Nat) :
    readDigits? base 0 ((Nat.toDigits base n).map write) = some n := by
  induction n using Nat.strongRecOn with
  | ind n ih =>
    by_cases single : n < base
    · rw [Nat.toDigits_of_lt_base single]
      simp [readDigits?, digits n single]
    · have last : n % base < base := Nat.mod_lt n (by omega)
      rw [Nat.toDigits_of_base_le two (Nat.le_of_not_lt single), List.map_append, readDigits?_append,
        ih (n / base) (Nat.div_lt_self (by omega) two)]
      simp [readDigits?, digits _ last, Nat.div_add_mod']

theorem readDigits?_zeros {base : Nat} (positive : 0 < base) (count : Nat) (cs : List Char) :
    readDigits? base 0 (List.replicate count '0' ++ cs) = readDigits? base 0 cs := by
  have zero : digitValue? base '0' = some 0 := by
    simp [digitValue?, positive]
  induction count with
  | zero => rfl
  | succ count ih => simpa [List.replicate_succ, readDigits?, zero] using ih

theorem natural?_decimal (n : Nat) : natural? 10 (decimal n) = some n := by
  have digits : ∀ d < 10, digitValue? 10 d.digitChar = some d := by decide
  have read := readDigits?_toDigits (by decide) id digits n
  rw [List.map_id] at read
  rw [natural?, if_neg (by simp [decimal])]
  exact read

theorem natural?_hex (width n : Nat) : natural? 16 (hex width n) = some n := by
  have digits : ∀ d < 16, digitValue? 16 d.digitChar.toUpper = some d := by decide
  rw [natural?, if_neg (by simp [hex, padStart, upperDigits]), hex, padStart, readDigits?_zeros (by decide)]
  exact readDigits?_toDigits (by decide) Char.toUpper digits n

theorem signed?_of_unsigned {base : Nat} {cs : List Char} (unsigned : ∀ c ∈ cs, c ≠ '+' ∧ c ≠ '-') :
    signed? base cs = (natural? base cs).map Int.ofNat := by
  unfold signed?
  split
  · exact absurd rfl (unsigned '+' (by simp)).1
  · exact absurd rfl (unsigned '-' (by simp)).2
  · rfl

theorem mem_decimal {p : Char → Prop} (digits : ∀ d < 10, p d.digitChar) (n : Nat) : ∀ c ∈ decimal n, p c :=
  forall_mem_toDigits (by decide) digits n

theorem mem_hex {p : Char → Prop} (digits : ∀ d < 16, p d.digitChar.toUpper) (width n : Nat) :
    ∀ c ∈ hex width n, p c := by
  intro c member
  rcases List.mem_append.mp member with zero | digit
  · rw [List.eq_of_mem_replicate zero]
    exact digits 0 (by decide)
  · obtain ⟨lower, found, rfl⟩ := List.mem_map.mp digit
    have upper : ∀ c ∈ Nat.toDigits 16 n, p c.toUpper := forall_mem_toDigits (by decide) digits n
    exact upper lower found

theorem decimal_ne_nil (n : Nat) : decimal n ≠ [] :=
  Nat.toDigits_ne_nil

end Text

namespace Assembly

/-- A token of digits is a decimal number. -/
theorem magnitude?_of_digits {token : List Char} (digits : ∀ c ∈ token, c.isDigit = true) :
    magnitude? token = ((Text.natural? 10 token).map Int.ofNat).filter fits64 := by
  have unsigned : ∀ c ∈ token, c ≠ '+' ∧ c ≠ '-' := by
    intro c member
    have digit := digits c member
    constructor <;> (rintro rfl; cases digit)
  unfold magnitude?
  split
  · cases digits 'x' (by simp)
  · cases digits 'X' (by simp)
  · rw [Text.signed?_of_unsigned unsigned]

theorem fits64_natCast {n : Nat} (fits : n < 0x8000000000000000) : fits64 (n : Int) = true := by
  simp only [fits64, Bool.and_eq_true, decide_eq_true_eq]
  omega

theorem isDigit_decimal (n : Nat) : ∀ c ∈ Text.decimal n, c.isDigit = true :=
  Text.mem_decimal (by decide) n

theorem magnitude?_decimal {n : Nat} (fits : n < 0x8000000000000000) :
    magnitude? (Text.decimal n) = some (n : Int) := by
  rw [magnitude?_of_digits (isDigit_decimal n), Text.natural?_decimal]
  simp [fits64_natCast fits]

theorem integer?_of_head {token : List Char} (unsigned : token.head? ≠ some '-') :
    integer? token = magnitude? token := by
  unfold integer?
  split
  · exact absurd rfl unsigned
  · rfl

theorem head?_decimal (n : Nat) : ∃ c, (Text.decimal n).head? = some c ∧ c.isDigit = true := by
  obtain ⟨c, rest, same⟩ := List.exists_cons_of_ne_nil (Text.decimal_ne_nil n)
  exact ⟨c, by rw [same, List.head?_cons], isDigit_decimal n c (by simp [same])⟩

theorem integer?_decimal {n : Nat} (fits : n < 0x8000000000000000) :
    integer? (Text.decimal n) = some (n : Int) := by
  obtain ⟨c, head, digit⟩ := head?_decimal n
  rw [integer?_of_head, magnitude?_decimal fits]
  rw [head]
  rintro ⟨⟩
  cases digit

theorem integer?_signedDecimal {n : Int} (fits : -0x8000 ≤ n ∧ n < 0x8000) :
    integer? (Text.signedDecimal n) = some n := by
  have small : n.natAbs < 0x8000000000000000 := by omega
  unfold Text.signedDecimal
  split
  · rename_i negative
    have exact : -(n.natAbs : Int) = n := by omega
    have small' : fits64 n = true := by
      simp only [fits64, Bool.and_eq_true, decide_eq_true_eq]
      omega
    rw [integer?, magnitude?_decimal small, Option.map_some, exact, Option.filter_some, if_pos small']
  · rw [integer?_decimal small]
    congr 1
    omega

theorem integer?_addressText {n : Nat} (fits : n < 0x8000000000000000) :
    integer? (addressText n) = some (n : Int) := by
  have unsigned : ∀ c ∈ Text.hex 4 n, c ≠ '+' ∧ c ≠ '-' := Text.mem_hex (by decide) 4 n
  rw [addressText, integer?_of_head (by simp), magnitude?, Text.signed?_of_unsigned unsigned, Text.natural?_hex]
  simp [fits64_natCast fits]

end Assembly

end Framescript
