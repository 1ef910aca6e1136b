import Framescript.Proofs.SavedState

/-!
What the state hash depends on. The bytes that are hashed are those of the variables, without the low byte of one of
them. Two machines have the same of these bytes if and only if all other variables are the same and so is the high byte
of that one, so nothing else of a machine shows in its hash, and a state that is saved and loaded keeps it
(`Machine.stateHash_covers`).
-/
namespace Framescript

/-- Elements that are stored with at least their own width can be told apart by their bytes. -/
theorem Cells.storeElements_inj {kind : ScalarKind} {width : Width} (wide : kind.bytes ≤ width.bytes)
    {values others : List kind.Value} (count : values.length = others.length)
    (same : storeElements ⟨kind, values⟩ width = storeElements ⟨kind, others⟩ width) : values = others := by
  have read : load ⟨kind, values⟩ width (storeElements ⟨kind, values⟩ width ++ []) = ⟨kind, values⟩ :=
    load_storeElements ⟨rfl, rfl⟩ wide []
  have shape : SameShape ⟨kind, values⟩ ⟨kind, others⟩ := ⟨rfl, count⟩
  rw [same, load_storeElements shape wide] at read
  cases read
  rfl

/-! ### Words without a byte -/

namespace Variables

/-- Words one after the other, least significant byte first. -/
def words (values : List Int16) : Bytes :=
  values.flatMap fun value => Bytes.little 2 value.toUInt16.toNat

/-- The high byte of a word. -/
def high (value : Int16) : UInt8 :=
  UInt8.ofNat (value.toUInt16.toNat / 256)

theorem length_words (values : List Int16) : (words values).length = 2 * values.length :=
  (Cells.length_storeElements ⟨.i16, values⟩ .word).trans (Nat.mul_comm _ _)

theorem words_inj {values others : List Int16} (same : words values = words others) : values = others := by
  have count : values.length = others.length := by
    have sizes := congrArg List.length same
    rw [length_words, length_words] at sizes
    omega
  exact @Cells.storeElements_inj .i16 .word (Nat.le_refl 2) values others count same

theorem high_eq_iff {value other : Int16} :
    high value = high other ↔ value.toUInt16 >>> 8 = other.toUInt16 >>> 8 := by
  have bytes (n : Int16) : n.toUInt16.toNat / 256 < 256 := by
    have := n.toUInt16.toNat_lt
    omega
  rw [← UInt16.toNat_inj, UInt16.toNat_shiftRight, UInt16.toNat_shiftRight, high, high, ← UInt8.toNat_inj,
    UInt8.toNat_ofNat_of_lt' (bytes value), UInt8.toNat_ofNat_of_lt' (bytes other)]
  simp [Nat.shiftRight_eq_div_pow]

/-- Without its low byte, only the high byte of a word is left. -/
theorem eraseIdx_words (front : List Int16) (value : Int16) (back : List Int16) :
    (words (front ++ value :: back)).eraseIdx (2 * front.length) = words front ++ high value :: words back := by
  have split : words (front ++ value :: back) = words front ++ (Bytes.little 2 value.toUInt16.toNat ++ words back) := by
    simp only [words, List.flatMap_append, List.flatMap_cons]
  rw [split, ← length_words, List.eraseIdx_append_of_length_le (Nat.le_refl _), Nat.sub_self]
  rfl

theorem eraseIdx_words_inj {front front' back back' : List Int16} {value value' : Int16}
    (count : front.length = front'.length) :
    (words (front ++ value :: back)).eraseIdx (2 * front.length) =
        (words (front' ++ value' :: back')).eraseIdx (2 * front.length) ↔
      front = front' ∧ high value = high value' ∧ back = back' := by
  rw [eraseIdx_words, count, eraseIdx_words]
  constructor
  · intro same
    have sizes : (words front).length = (words front').length := by rw [length_words, length_words, count]
    obtain ⟨fronts, rest⟩ := List.append_inj same sizes
    obtain ⟨highs, backs⟩ := List.cons.inj rest
    exact ⟨words_inj fronts, highs, words_inj backs⟩
  · rintro ⟨rfl, highs, rfl⟩
    rw [highs]

/-! ### Variables without a byte -/

theorem getElem?_cells (v : Variables) (index : UInt8) : v.cells.toList[index.toNat]? = some (v.get index) := by
  simp [get]

theorem toBytes_split (v : Variables) (index : UInt8) :
    v.toBytes =
      words (v.cells.toList.take index.toNat ++ v.get index :: v.cells.toList.drop (index.toNat + 1)) := by
  have inside : index.toNat < v.cells.toList.length := by
    rw [v.cells.length_toList]
    exact index.toNat_lt
  have here : v.cells.toList[index.toNat] = v.get index := by simp [get]
  rw [← here, List.getElem_cons_drop inside, List.take_append_drop]
  rfl

/-- Variables are the same in front of an index and behind it if they are the same at every other index. -/
theorem take_drop_eq_iff (v w : Variables) (index : UInt8) :
    v.cells.toList.take index.toNat = w.cells.toList.take index.toNat ∧
        v.cells.toList.drop (index.toNat + 1) = w.cells.toList.drop (index.toNat + 1) ↔
      ∀ other, other ≠ index → v.get other = w.get other := by
  constructor
  · rintro ⟨fronts, backs⟩ other distinct
    apply Option.some.inj
    rw [← getElem?_cells, ← getElem?_cells]
    rcases Nat.lt_or_gt_of_ne (fun same => distinct (UInt8.toNat_inj.mp same)) with before | behind
    · rw [← List.getElem?_take_of_lt before, fronts, List.getElem?_take_of_lt before]
    · obtain ⟨k, reached⟩ := Nat.exists_eq_add_of_lt behind
      have place : index.toNat + 1 + k = other.toNat := by omega
      rw [← place, ← List.getElem?_drop, backs, List.getElem?_drop]
  · intro agree
    have places (i : Nat) (distinct : i ≠ index.toNat) : v.cells.toList[i]? = w.cells.toList[i]? := by
      by_cases inside : i < 256
      · have place : (UInt8.ofNat i).toNat = i := UInt8.toNat_ofNat_of_lt' inside
        have differs : UInt8.ofNat i ≠ index := fun same => distinct (by rw [← place, same])
        rw [← place, getElem?_cells, getElem?_cells, agree _ differs]
      · rw [List.getElem?_eq_none (by simpa using inside), List.getElem?_eq_none (by simpa using inside)]
    constructor
    · apply List.ext_getElem?
      intro i
      by_cases before : i < index.toNat
      · rw [List.getElem?_take_of_lt before, List.getElem?_take_of_lt before, places i (Nat.ne_of_lt before)]
      · rw [List.getElem?_take_eq_none (Nat.not_lt.mp before), List.getElem?_take_eq_none (Nat.not_lt.mp before)]
    · apply List.ext_getElem?
      intro i
      rw [List.getElem?_drop, List.getElem?_drop, places _ (by omega)]

/-- The bytes of the variables without the low byte of one tell all of the others, and the high byte of that one. -/
theorem eraseIdx_toBytes_eq_iff (v w : Variables) (index : UInt8) :
    v.toBytes.eraseIdx (2 * index.toNat) = w.toBytes.eraseIdx (2 * index.toNat) ↔
      (∀ other, other ≠ index → v.get other = w.get other) ∧
        (v.get index).toUInt16 >>> 8 = (w.get index).toUInt16 >>> 8 := by
  have size (u : Variables) : (u.cells.toList.take index.toNat).length = index.toNat := by
    rw [List.length_take, u.cells.length_toList]
    exact Nat.min_eq_left (Nat.le_of_lt index.toNat_lt)
  have split := @eraseIdx_words_inj _ _ (v.cells.toList.drop (index.toNat + 1)) (w.cells.toList.drop (index.toNat + 1))
    (v.get index) (w.get index) ((size v).trans (size w).symm)
  rw [size v, ← toBytes_split, ← toBytes_split] at split
  rw [split, ← take_drop_eq_iff, high_eq_iff]
  tauto

end Variables

/-! ### Hashes of machines -/

namespace Machine

/-- What is hashed is what stands in front of the byte that is left out, and what stands behind it. -/
theorem hashedBytes_eq (m : Machine) :
    m.hashedBytes = m.vars.toBytes.take hashExcluded ++ m.vars.toBytes.drop (hashExcluded + 1) :=
  List.eraseIdx_eq_take_drop_succ _ _

/-- Machines whose variables are the same but for the low byte of variable 0xC7. -/
structure SameHashed (a b : Machine) : Prop where
  others : ∀ index : UInt8, index ≠ 0xC7 → a.vars.get index = b.vars.get index
  high : (a.vars.get 0xC7).toUInt16 >>> 8 = (b.vars.get 0xC7).toUInt16 >>> 8

theorem hashedBytes_eq_iff {a b : Machine} : a.hashedBytes = b.hashedBytes ↔ SameHashed a b :=
  -- the byte that is left out is the low one of its word
  (Variables.eraseIdx_toBytes_eq_iff a.vars b.vars 0xC7).trans
    ⟨fun agree => ⟨agree.1, agree.2⟩, fun agree => ⟨agree.others, agree.high⟩⟩

/-- Loading the state at the front of a buffer into which another machine was saved gives that machine's variables. -/
theorem load_of_saved (a b : Machine) (rest : Bytes) :
    ∃ log, b.load ((a.image ++ rest).take (a.stateSize currentVersion)) currentVersion =
      (.ok (b.stateSize currentVersion), b.withSaved a, log) := by
  rw [List.take_left' (a.length_image.trans a.stateSize_eq.symm)]
  exact load_image a b

/-- The state hash covers the variables but for one byte, and nothing else. It is the digest of their bytes in front of
    that byte and behind it. These are the same for two machines exactly if all variables but one are, and the high byte
    of that one; then the hashes are the same too, whatever else the machines are. A state that is saved, into whatever
    buffer it fits, and loaded into any machine gives that machine the hash of the first. -/
theorem stateHash_covers (a b : Machine) :
    a.stateHash = .sha3 (a.vars.toBytes.take 0x18E ++ a.vars.toBytes.drop 0x18F) ∧
    (a.hashedBytes = b.hashedBytes ↔ SameHashed a b) ∧
    (SameHashed a b → a.stateHash = b.stateHash) ∧
    ∀ buffer : Bytes, a.stateSize currentVersion ≤ buffer.length →
      ∃ block saved m loaded,
        a.save (some buffer) = ⟨.ok (a.stateSize currentVersion), block, saved⟩ ∧
        b.load (block.take (a.stateSize currentVersion)) currentVersion =
          (.ok (b.stateSize currentVersion), m, loaded) ∧
        m.hashedBytes = a.hashedBytes ∧ m.stateHash = a.stateHash := by
  refine ⟨congrArg Digest.sha3 a.hashedBytes_eq, hashedBytes_eq_iff, fun same => ?_, fun buffer room => ?_⟩
  · exact congrArg Digest.sha3 (hashedBytes_eq_iff.mpr same)
  · obtain ⟨saved, save⟩ := a.save_of_room room
    obtain ⟨loaded, load⟩ := load_of_saved a b (buffer.drop (a.stateSize currentVersion))
    exact ⟨_, saved, b.withSaved a, loaded, save, load, rfl, rfl⟩

/-- Machines that differ in the low byte that is left out and in what is no variable, and a buffer that is too long. -/
theorem stateHash_covers_low_byte :
    let a : Machine := { vars := Variables.initial.set 0xC7 0x0105 }
    let b : Machine := { vars := Variables.initial.set 0xC7 0x01FE, requestedPart := some 0x3E89, aborted := true }
    let buffer : Bytes := List.replicate 1500 0xFF
    SameHashed a b ∧ a.hashedBytes = b.hashedBytes ∧ a.stateHash = b.stateHash ∧
    a.stateSize currentVersion ≤ buffer.length ∧
    ∃ block saved m loaded,
      a.save (some buffer) = ⟨.ok (a.stateSize currentVersion), block, saved⟩ ∧
      b.load (block.take (a.stateSize currentVersion)) currentVersion =
        (.ok (b.stateSize currentVersion), m, loaded) ∧
      m.hashedBytes = a.hashedBytes ∧ m.stateHash = a.stateHash := by
  intro a b buffer
  have same : SameHashed a b := by
    refine ⟨fun index distinct => ?_, ?_⟩
    · exact (Variables.get_set_of_ne _ _ distinct.symm).trans (Variables.get_set_of_ne _ _ distinct.symm).symm
    · rw [Variables.get_set_self, Variables.get_set_self]
      decide
  have room : a.stateSize currentVersion ≤ buffer.length := by
    rw [stateSize_eq, List.length_replicate]
    decide
  exact ⟨same, (stateHash_covers a b).2.1.mpr same, (stateHash_covers a b).2.2.1 same, room,
    (stateHash_covers a b).2.2.2 buffer room⟩

end Machine

end Framescript
