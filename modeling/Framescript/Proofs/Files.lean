import Framescript.Program
import Framescript.Proofs.Codecs
import Framescript.Snapshot.File
import Mathlib.Algebra.Group.Nat.Defs

/-!
Program files and state files. A file is parsed to a value if and only if it is what the value is written as and no
count in it is beyond the limit of the codec: `Program.ofBytes_exact` and `StateFile.ofBytes_eq_ok_iff`. Since the
codec is exact with any bytes behind a value, a file that is cut short or goes on is not one that is accepted.
-/
namespace Framescript

open Codec (encode decode)
open LawfulCodec (Fits toList_put decode_eq_ok_iff decode_encode decode_encode_last encode_append_inj)

instance : LawfulCodec Part := LawfulCodec.ofMembers (fun _ => rfl) (fun _ => rfl)

instance : LawfulCodec Program := LawfulCodec.ofMembers (fun _ => rfl) (fun _ => rfl)

instance : LawfulCodec StateFile := LawfulCodec.ofMembers (fun _ => rfl) (fun _ => rfl)

/-- Bytes have no count in front. -/
theorem fits_bytes {n : Nat} (bytes : Vector UInt8 n) : Fits bytes :=
  fun _ _ => trivial

namespace Program

theorem fits_iff {p : Program} :
    Fits p ↔ p.parts.length ≤ 2 ^ 24 ∧ ∀ part ∈ p.parts, part.code.size ≤ 2 ^ 24 := by
  constructor
  · rintro ⟨few, short⟩
    exact ⟨few, fun part inside => (short part inside).2⟩
  · rintro ⟨few, short⟩
    exact ⟨few, fun part inside => ⟨trivial, short part inside⟩⟩

/-- Only one version can be read: a later minor version is refused, and there is no earlier one. -/
theorem isSupported_iff {major minor : UInt8} : isSupported major minor = true ↔ (major, minor) = formatVersion := by
  have lowest : minor ≤ 0 ↔ minor = 0 := by
    rw [UInt8.le_iff_toNat_le, ← UInt8.toNat_inj]
    exact Nat.le_zero
  simp [isSupported, formatVersion, lowest]

/-- The bytes in front of the parts. -/
def header : Bytes := [0x52, 0x41, 0x57, 0x50, 1, 0]

theorem toBytes_pieces (p : Program) : p.toBytes = encode magic ++ (encode formatVersion ++ encode p) := by
  rw [toBytes, toList_put, toList_put, toList_put, List.append_assoc, List.append_assoc]
  rfl

theorem toBytes_eq (p : Program) : p.toBytes = header ++ encode p := by
  rw [toBytes_pieces, ← List.append_assoc]
  rfl

theorem ofBytes_toBytes {p : Program} (fits : Fits p) : ofBytes p.toBytes = .ok p := by
  have parts : decode (encode p) = .ok (p, []) := decode_encode_last fits
  have plain : Fits formatVersion := ⟨trivial, trivial⟩
  have version : decode (encode formatVersion ++ encode p) = .ok (formatVersion, encode p) := decode_encode plain _
  have front : decode p.toBytes = .ok (magic, encode formatVersion ++ encode p) := by
    rw [toBytes_pieces]
    exact decode_encode (fits_bytes magic) _
  have supported : isSupported formatVersion.1 formatVersion.2 = true := isSupported_iff.mpr rfl
  simp [ofBytes, front, version, supported, parts]

theorem eq_toBytes_of_ofBytes {input : Bytes} {p : Program} (parsed : ofBytes input = .ok p) :
    input = p.toBytes ∧ Fits p := by
  simp only [ofBytes] at parsed
  rcases front : (decode input : Except DecodeError (Vector UInt8 4 × Bytes)) with e | ⟨found, behind⟩
  · simp [front] at parsed
  · simp only [front] at parsed
    by_cases known : found = magic
    · rcases version : (decode behind : Except DecodeError ((UInt8 × UInt8) × Bytes)) with e | ⟨⟨major, minor⟩, body⟩
      · simp [known, version] at parsed
      · simp only [known, version, ne_eq, not_true_eq_false, if_false] at parsed
        by_cases supported : isSupported major minor = true
        · rcases parts : (decode body : Except DecodeError (Program × Bytes)) with e | ⟨program, rest⟩
          · simp [supported, parts] at parsed
          · simp only [supported, parts, Bool.not_true, Bool.false_eq_true, if_false] at parsed
            by_cases ended : rest = []
            · simp only [ended, List.isEmpty_nil, if_true, Except.ok.injEq] at parsed
              subst parsed known ended
              -- the three pieces that were read are the three that are written
              obtain ⟨rfl, -⟩ := decode_eq_ok_iff.mp front
              obtain ⟨rfl, -⟩ := decode_eq_ok_iff.mp version
              obtain ⟨rfl, fits⟩ := decode_eq_ok_iff.mp parts
              rw [isSupported_iff.mp supported, toBytes_pieces, List.append_nil]
              exact ⟨rfl, fits⟩
            · simp [ended] at parsed
        · simp [supported] at parsed
    · simp [known] at parsed

/-- A byte string is parsed to a program if and only if it is the file of that program, of which neither the number
    of parts nor the code of a part is beyond what counts in files can say. So it starts with the one magic word and
    version, and no other file goes on where it ends. -/
theorem ofBytes_exact (input : Bytes) (p : Program) :
    (ofBytes input = .ok p ↔
      input = p.toBytes ∧ p.parts.length ≤ 2 ^ 24 ∧ ∀ part ∈ p.parts, part.code.size ≤ 2 ^ 24) ∧
    (ofBytes input = .ok p →
      input.take 6 = header ∧ ∀ tail, tail ≠ [] → ∀ q, ofBytes (input ++ tail) ≠ .ok q) := by
  constructor
  · constructor
    · intro parsed
      obtain ⟨written, fits⟩ := eq_toBytes_of_ofBytes parsed
      exact ⟨written, fits_iff.mp fits⟩
    · rintro ⟨rfl, limits⟩
      exact ofBytes_toBytes (fits_iff.mpr limits)
  · intro parsed
    obtain ⟨rfl, fits⟩ := eq_toBytes_of_ofBytes parsed
    refine ⟨by rw [toBytes_eq]; rfl, ?_⟩
    intro tail more q parsed'
    obtain ⟨longer, fits'⟩ := eq_toBytes_of_ofBytes parsed'
    rw [toBytes_eq, toBytes_eq, List.append_assoc, List.append_cancel_left_eq] at longer
    have same : encode p ++ tail = encode q ++ [] := by rw [longer, List.append_nil]
    exact more (encode_append_inj fits fits' same).2

end Program

theorem checkVersion_eq_ok_iff {version : UInt16} :
    checkVersion version = .ok () ↔ 1 ≤ version ∧ version ≤ currentVersion := by
  have zero : version = 0 ↔ version.toNat = 0 := UInt16.toNat_inj.symm
  have lowest : 1 ≤ version ↔ 1 ≤ version.toNat := UInt16.le_iff_toNat_le
  unfold checkVersion
  split
  · rename_i refused
    rw [zero, UInt16.lt_iff_toNat_lt] at refused
    rw [lowest, UInt16.le_iff_toNat_le]
    simp only [reduceCtorEq, false_iff]
    omega
  · rename_i known
    rw [zero, UInt16.lt_iff_toNat_lt] at known
    rw [lowest, UInt16.le_iff_toNat_le]
    simp only [true_iff]
    omega

namespace StateFile

theorem fits_iff {f : StateFile} : Fits f ↔ f.payload.size ≤ 2 ^ 24 :=
  ⟨fun ⟨_, _, short⟩ => short, fun short => ⟨trivial, trivial, short⟩⟩

theorem toBytes_eq (f : StateFile) : f.toBytes = encode magic ++ encode f := by
  rw [toBytes, toList_put, toList_put]
  rfl

theorem ofBytes_toBytes {f : StateFile} (fits : Fits f) (known : checkVersion f.version = .ok ()) :
    ofBytes f.toBytes = .ok f := by
  have body : decode (encode f) = .ok (f, []) := decode_encode_last fits
  have front : decode f.toBytes = .ok (magic, encode f) := by
    rw [toBytes_eq]
    exact decode_encode (fits_bytes magic) _
  simp [ofBytes, front, body, known]

theorem eq_toBytes_of_ofBytes {input : Bytes} {f : StateFile} (parsed : ofBytes input = .ok f) :
    input = f.toBytes ∧ checkVersion f.version = .ok () ∧ Fits f := by
  simp only [ofBytes] at parsed
  rcases front : (decode input : Except DecodeError (Vector UInt8 4 × Bytes)) with e | ⟨found, behind⟩
  · simp [front] at parsed
  · simp only [front] at parsed
    by_cases known : found = magic
    · rcases body : (decode behind : Except DecodeError (StateFile × Bytes)) with e | ⟨file, rest⟩
      · simp [known, body] at parsed
      · simp only [known, body, ne_eq, not_true_eq_false, if_false] at parsed
        by_cases ended : rest = []
        · simp only [ended, List.isEmpty_nil, Bool.not_true, Bool.false_eq_true, if_false] at parsed
          rcases checked : checkVersion file.version with e | _
          · simp [checked] at parsed
          · simp only [checked, Except.ok.injEq] at parsed
            subst parsed known ended
            obtain ⟨rfl, -⟩ := decode_eq_ok_iff.mp front
            obtain ⟨rfl, fits⟩ := decode_eq_ok_iff.mp body
            rw [toBytes_eq, List.append_nil]
            exact ⟨rfl, checked, fits⟩
        · simp [ended] at parsed
    · simp [known] at parsed

/-- A byte string is parsed to a state file if and only if it is what that file is written as, with a format version
    that is known and a saved state that is not beyond what counts in files can say. -/
theorem ofBytes_eq_ok_iff (input : Bytes) (f : StateFile) :
    ofBytes input = .ok f ↔
      input = f.toBytes ∧ (1 ≤ f.version ∧ f.version ≤ currentVersion) ∧ f.payload.size ≤ 2 ^ 24 := by
  constructor
  · intro parsed
    obtain ⟨written, known, fits⟩ := eq_toBytes_of_ofBytes parsed
    exact ⟨written, checkVersion_eq_ok_iff.mp known, fits_iff.mp fits⟩
  · rintro ⟨rfl, versions, short⟩
    exact ofBytes_toBytes (fits_iff.mpr short) (checkVersion_eq_ok_iff.mpr versions)

end StateFile

end Framescript
