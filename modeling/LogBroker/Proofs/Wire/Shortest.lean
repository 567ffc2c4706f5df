import LogBroker.Proofs.Wire.Groups
import LogBroker.Proofs.Wire.Sizes
import Mathlib.Algebra.Order.Floor.Div
import Mathlib.Data.Nat.Size

/-!
# The shortest form of a number

Of all forms in which a variable-length number can be read, writing gives the shortest, and no
other form is as short. It takes a byte for each seven bits of the number, and one byte for zero
(`Varint.length_write`).

Signed numbers are folded into unsigned ones: `0, -1, 1, -2, 2, …` into `0, 1, 2, 3, 4, …`
(`Zigzag.toNat_encode`). Words do this by a shift and an exclusive or. The shift loses the sign,
and the other operand is the sign in all bits, so it puts the sign where the shift has made room.

Main statement: `Varint.shortest_folded`.
-/

namespace LogBroker.Wire

open Reader

/-! ## How long the form is -/

namespace Varint

/-- So many groups have room for the number just if it is written in no more. -/
theorem length_write_le_iff {n groups : Nat} (h : 0 < groups) :
    (write n).length ≤ groups ↔ n < 128 ^ groups := by
  constructor
  · intro short
    exact Nat.lt_of_lt_of_le (spells_write n).lt (Nat.pow_le_pow_right (by decide) short)
  · obtain ⟨groups, rfl⟩ := Nat.exists_eq_succ_of_ne_zero (Nat.ne_of_gt h)
    exact length_write_le

/-- A byte is written for each seven bits, and one if there are none. -/
theorem length_write (n : Nat) : (write n).length = max 1 (n.size ⌈/⌉ 7) := by
  refine eq_of_forall_ge_iff fun groups => ?_
  have bits : n.size ⌈/⌉ 7 ≤ groups ↔ n < 128 ^ groups := by
    rw [ceilDiv_le_iff_le_mul (by decide), Nat.size_le, Nat.pow_mul]
  rw [max_le_iff, bits]
  constructor
  · intro short
    have one : 1 ≤ groups := Nat.le_trans (length_write_pos n) short
    exact ⟨one, (length_write_le_iff one).mp short⟩
  · rintro ⟨one, below⟩
    exact (length_write_le_iff one).mpr below

/-- Numbers are written in their shortest form, and it is the only one of its length. -/
structure WritesShortest {α : Type} (read : Reader α) (write : α → Bytes) (toNat : α → Nat)
    (most : Nat) : Prop where
  /-- a byte for each seven bits, and one for zero -/
  length_eq (a : α) : (write a).length = max 1 ((toNat a).size ⌈/⌉ 7)
  /-- there are not too many of them for the reader -/
  length_le (a : α) : (write a).length ≤ most
  /-- the form is read wherever it stands, and what follows it is left -/
  read_write (a : α) (rest : Bytes) : read (write a ++ rest) = (.ok a, rest)
  /-- every other form is longer -/
  length_lt (a : α) (form : Bytes) :
    read form = (.ok a, []) → form ≠ write a → (write a).length < form.length

/-- What it takes to write numbers in their shortest form: the groups of the number that is read
are those that it is written for. -/
theorem WritesShortest.of_spells {α : Type} {read : Reader α} {toNat : α → Nat} {most : Nat}
    (takes : ∀ a, read.Takes (write (toNat a)) a)
    (spells : ∀ {form rest a}, read form = (.ok a, rest) →
      form = groups form ++ rest ∧ Spells (groups form) (toNat a))
    (few : ∀ a, toNat a < 128 ^ most) (some : 0 < most) :
    WritesShortest read (fun a => write (toNat a)) toNat most where
  length_eq a := length_write (toNat a)
  length_le a := (length_write_le_iff some).mpr (few a)
  read_write a rest := takes a rest
  length_lt a form h other := by
    obtain ⟨whole, spelled⟩ := spells h
    rw [List.append_nil] at whole
    rw [← whole] at spelled
    by_contra long
    exact other (spelled.eq_write (Nat.le_of_not_lt long)).symm

theorem writesShortest_writeUInt32 : WritesShortest readUInt32 writeUInt32 UInt32.toNat 5 :=
  .of_spells takes_writeUInt32 spells_of_readUInt32
    (fun n => Nat.lt_trans n.toNat_lt (by decide)) (by decide)

theorem writesShortest_writeUInt64 : WritesShortest readUInt64 writeUInt64 UInt64.toNat 10 :=
  .of_spells takes_writeUInt64 spells_of_readUInt64
    (fun n => Nat.lt_trans n.toNat_lt (by decide)) (by decide)

end Varint

/-! ## Signs -/

namespace Zigzag

variable {w : Nat}

/-- The sign in all bits. -/
theorem sshiftRight_pred (v : BitVec w) :
    v.sshiftRight (w - 1) = if v.msb then BitVec.allOnes w else 0#w := by
  apply BitVec.eq_of_getLsbD_eq
  intro i hi
  have sign : (if w - 1 + i < w then v.getLsbD (w - 1 + i) else v.msb) = v.msb := by
    split
    · rw [BitVec.msb_eq_getLsbD_last]
      congr 1
      omega
    · rfl
  rw [BitVec.getLsbD_sshiftRight, sign]
  cases v.msb <;> simp [hi]

/-- **The number for which a signed one is written**: twice the number if it is not negative, and
one less than twice its magnitude if it is. -/
theorem toNat_encode (v : BitVec w) :
    ((encode v).toNat : Int) = if v.toInt < 0 then -2 * v.toInt - 1 else 2 * v.toInt := by
  rcases Nat.eq_zero_or_pos w with rfl | positive
  · simp [BitVec.eq_nil v, encode]
  have half : 2 ^ w = 2 * 2 ^ (w - 1) := by
    rw [← Nat.pow_succ', Nat.succ_eq_add_one, Nat.sub_add_cancel positive]
  have bound := v.isLt
  have top : v.msb = decide (2 ^ (w - 1) ≤ v.toNat) := BitVec.msb_eq_decide v
  have shifted : (v <<< 1).toNat = 2 * v.toNat % 2 ^ w := by
    rw [BitVec.toNat_shiftLeft, Nat.shiftLeft_eq, Nat.mul_comm]
  rw [encode, sshiftRight_pred, BitVec.toInt_eq_msb_cond]
  cases sign : v.msb with
  | false =>
    rw [sign, eq_comm, decide_eq_false_iff_not] at top
    simp only [Bool.false_eq_true, if_false, BitVec.xor_zero, shifted]
    rw [Nat.mod_eq_of_lt (by omega)]
    omega
  | true =>
    rw [sign, eq_comm, decide_eq_true_iff] at top
    have wrapped : 2 * v.toNat % 2 ^ w = 2 * v.toNat - 2 ^ w := by
      rw [Nat.mod_eq_sub_mod (by omega), Nat.mod_eq_of_lt (by omega)]
    simp only [if_true, BitVec.xor_allOnes, BitVec.toNat_not, shifted, wrapped]
    omega

theorem bijective_encode : Function.Bijective (encode : BitVec w → BitVec w) :=
  Function.bijective_iff_has_inverse.mpr ⟨decode, decode_encode, encode_decode⟩

/-- Signed numbers `S` are written as unsigned ones `U` of the same width, each as another. -/
structure Folds {S U : Type} (fold : S → U) (toInt : S → Int) (toNat : U → Nat)
    (read : Reader S) (write : S → Bytes) (writeUnsigned : U → Bytes) : Prop where
  /-- the unsigned number stands for the signed one -/
  write_eq (n : S) : write n = writeUnsigned (fold n)
  /-- twice the number, if it is not negative -/
  of_nonneg (n : S) : 0 ≤ toInt n → (toNat (fold n) : Int) = 2 * toInt n
  /-- one less than twice the magnitude, if it is negative -/
  of_neg (n : S) : toInt n < 0 → (toNat (fold n) : Int) = -2 * toInt n - 1
  /-- no unsigned number is left out, and none is used twice -/
  bijective : Function.Bijective fold
  /-- the number is read wherever it stands, and what follows it is left -/
  read_write (n : S) (rest : Bytes) : read (write n ++ rest) = (.ok n, rest)

/-- The unsigned word for a signed one of 32 bits. -/
def fold32 (n : Int32) : UInt32 := UInt32.ofBitVec (encode n.toBitVec)

/-- The unsigned word for a signed one of 64 bits. -/
def fold64 (n : Int64) : UInt64 := UInt64.ofBitVec (encode n.toBitVec)

/-- What it takes: the bits of the words are folded, and the number that is read is the one whose
bits they were. -/
theorem Folds.of_bits {S U : Type} {read : Reader S} {writeUnsigned : U → Bytes}
    (signed : S ≃ BitVec w) (unsigned : BitVec w ≃ U)
    (takes : ∀ n, read.Takes (writeUnsigned (unsigned (encode (signed n)))) n) :
    Folds (fun n => unsigned (encode (signed n))) (fun n => (signed n).toInt)
      (fun u => (unsigned.symm u).toNat) read
      (fun n => writeUnsigned (unsigned (encode (signed n)))) writeUnsigned where
  write_eq n := rfl
  of_nonneg n nonneg := by
    rw [unsigned.symm_apply_apply, toNat_encode, if_neg (Int.not_lt.mpr nonneg)]
  of_neg n negative := by
    rw [unsigned.symm_apply_apply, toNat_encode, if_pos negative]
  bijective := unsigned.bijective.comp (bijective_encode.comp signed.bijective)
  read_write := takes

theorem folds_fold32 :
    Folds fold32 Int32.toInt UInt32.toNat readInt32 writeInt32 Varint.writeUInt32 :=
  .of_bits ⟨Int32.toBitVec, Int32.ofBitVec, fun _ => rfl, fun _ => rfl⟩
    ⟨UInt32.ofBitVec, UInt32.toBitVec, fun _ => rfl, fun _ => rfl⟩ takes_writeInt32

theorem folds_fold64 :
    Folds fold64 Int64.toInt UInt64.toNat readInt64 writeInt64 Varint.writeUInt64 :=
  .of_bits ⟨Int64.toBitVec, Int64.ofBitVec, fun _ => rfl, fun _ => rfl⟩
    ⟨UInt64.ofBitVec, UInt64.toBitVec, fun _ => rfl, fun _ => rfl⟩ takes_writeInt64

end Zigzag

/-- **Numbers are written in their shortest form, and signed ones as unsigned ones**, at both
widths. -/
theorem Varint.shortest_folded :
    WritesShortest readUInt32 writeUInt32 UInt32.toNat 5 ∧
      WritesShortest readUInt64 writeUInt64 UInt64.toNat 10 ∧
      Zigzag.Folds Zigzag.fold32 Int32.toInt UInt32.toNat Zigzag.readInt32 Zigzag.writeInt32
        writeUInt32 ∧
      Zigzag.Folds Zigzag.fold64 Int64.toInt UInt64.toNat Zigzag.readInt64 Zigzag.writeInt64
        writeUInt64 :=
  ⟨writesShortest_writeUInt32, writesShortest_writeUInt64, Zigzag.folds_fold32,
    Zigzag.folds_fold64⟩

/-- The ends of the ranges of 32 bits: the least number takes the place of the greatest. -/
example :
    Zigzag.writeInt32 Int32.minValue = Varint.writeUInt32 (2 ^ 32 - 1) ∧
      Zigzag.writeInt32 Int32.maxValue = Varint.writeUInt32 (2 ^ 32 - 2) := by
  decide +kernel

end LogBroker.Wire
