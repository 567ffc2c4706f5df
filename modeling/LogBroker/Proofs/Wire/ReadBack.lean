import LogBroker.Wire.Prefixed
import Mathlib.Algebra.Ring.Nat

/-!
# Reading back what was written

A reader *takes* a string of bytes with an answer if, whatever follows the string, it
reads exactly the string and gives the answer. Readers that take the bytes of their
writers compose: a sequence takes the bytes of its parts one after the other, and a
repetition takes the bytes of its elements.

On this the module builds up from bytes to lengths in front:

* words and single bytes, without a condition;
* variable-length numbers that are not too large for their groups, and hence all words
  of 32 and of 64 bits, signed or not;
* bytes and text whose length fits into its field.
-/

namespace LogBroker.Wire

namespace Reader

variable {α β : Type}

/-- `r` reads `bytes`, all of them and nothing behind them, and answers with `a`. -/
def Takes (r : Reader α) (bytes : Bytes) (a : α) : Prop :=
  ∀ rest, r (bytes ++ rest) = (.ok a, rest)

/-- What is taken can be taken as a whole input. -/
theorem Takes.eq {r : Reader α} {bytes : Bytes} {a : α} (h : r.Takes bytes a) :
    r bytes = (.ok a, []) := by
  have whole := h []
  rwa [List.append_nil] at whole

/-- Two readers in sequence take their bytes in sequence. -/
theorem Takes.bind {r : Reader α} {f : α → Reader β} {first second : Bytes} {a : α} {b : β}
    (hr : r.Takes first a) (hf : (f a).Takes second b) : (r >>= f).Takes (first ++ second) b := by
  intro rest
  rw [List.append_assoc, bind_ok (hr (second ++ rest)), hf rest]

/-- What is done with an answer takes no bytes. -/
theorem Takes.bind_pure {r : Reader α} {bytes : Bytes} {a : α} (h : r.Takes bytes a)
    (f : α → β) : (r >>= fun a => pure (f a)).Takes bytes (f a) := by
  intro rest
  rw [bind_ok (h rest), pure_apply]

/-- What is done with an answer takes nothing. -/
theorem Takes.map {r : Reader α} {bytes : Bytes} {a : α} (h : r.Takes bytes a) (f : α → β) :
    (f <$> r).Takes bytes (f a) := by
  rw [map_eq_pure_bind]
  exact h.bind_pure f

/-- So many bytes are taken as they are. -/
theorem takes_take (bytes : Bytes) : (take bytes.length).Takes bytes bytes := by
  intro rest
  rw [take_eq, if_pos (by simp), List.take_left, List.drop_left]

theorem takes_byte (b : UInt8) : byte.Takes [b] b := fun _ => rfl

/-- A repetition takes the bytes of its elements; `done` is what it has read before. -/
theorem timesFrom_append {r : Reader α} {write : α → Bytes} {as : List α}
    (h : ∀ a ∈ as, r.Takes (write a) a) (done : List α) (rest : Bytes) :
    timesFrom r as.length done (as.flatMap write ++ rest) = (.ok (done.reverse ++ as), rest) := by
  induction as generalizing done with
  | nil => simp [timesFrom]
  | cons a as ih =>
    obtain ⟨first, others⟩ := List.forall_mem_cons.mp h
    simp only [List.flatMap_cons, List.append_assoc, List.length_cons, timesFrom,
      first (as.flatMap write ++ rest)]
    rw [ih others, List.reverse_cons, List.append_assoc, List.singleton_append]

/-- A row is read as its elements are, one after the other. -/
theorem Takes.times {r : Reader α} {write : α → Bytes} {as : List α}
    (h : ∀ a ∈ as, r.Takes (write a) a) :
    (Reader.times as.length r).Takes (as.flatMap write) as := by
  intro rest
  exact timesFrom_append h [] rest

/-- A reader that is kept to the bytes it takes leaves what follows them. -/
theorem Takes.within {r : Reader α} {bytes : Bytes} {a : α} (h : r.Takes bytes a) :
    (Reader.within bytes.length r).Takes bytes a := by
  intro rest
  have taken : (take bytes.length >>= fun body => fun rest => ((r body).1, rest))
      (bytes ++ rest) = ((r bytes).1, rest) := bind_ok (takes_take bytes rest)
  rw [h.eq] at taken
  exact taken

end Reader

open Reader

/-- A word is read from the bytes that it is written in. -/
theorem Word.takes_write {α : Type} [Word α] (a : α) : Takes Word.read (Word.write a) a :=
  Word.read_write_append a

/-! ## Variable-length numbers -/

namespace Varint

/-- A number's shortest form is taken by every reader that allows as many groups. The
induction is on the groups: a group off the number leaves one seven bits shorter. -/
theorem takes_write_of_lt (groups n : Nat) (h : n < 128 ^ (groups + 1)) :
    (readGroups (groups + 1)).Takes (write n) n := by
  have toNat_byte {n : Nat} (h : n < 256) : (UInt8.ofNat n).toNat = n :=
    UInt8.toNat_ofNat_of_lt' h
  induction groups generalizing n with
  | zero =>
    have small : n < 128 := by simpa using h
    rw [write, if_pos small, readGroups]
    intro rest
    rw [bind_ok (takes_byte _ rest), toNat_byte (by omega), if_pos small, pure_apply]
  | succ groups ih =>
    rw [write, readGroups]
    split
    next small =>
      intro rest
      rw [bind_ok (takes_byte _ rest), toNat_byte (by omega), if_pos small, pure_apply]
    next big =>
      -- the group's high bit says that there are more, and comes off when it is read
      have fewer : n / 128 < 128 ^ (groups + 1) := by
        rw [Nat.div_lt_iff_lt_mul (by decide), ← Nat.pow_succ]
        exact h
      have group : (UInt8.ofNat (n % 128 + 128)).toNat = n % 128 + 128 :=
        toNat_byte (by omega)
      have sum : n % 128 + 128 - 128 + 128 * (n / 128) = n := by omega
      intro rest
      rw [List.cons_append, ← List.singleton_append, bind_ok (takes_byte _ _), group,
        if_neg (by omega), bind_ok (ih (n / 128) fewer rest), sum, pure_apply]

/-- A number is read from its groups, if the reader goes so far and the bound allows it. -/
theorem takes_write_below {bound groups n : Nat} (hn : n < bound)
    (hbound : bound ≤ 128 ^ (groups + 1)) : (readBelow bound (groups + 1)).Takes (write n) n := by
  intro rest
  rw [readBelow, bind_ok (takes_write_of_lt groups n (by omega) rest), if_pos hn, pure_apply]

/-- Five groups are enough for 32 bits. -/
theorem takes_writeUInt32 (n : UInt32) : readUInt32.Takes (writeUInt32 n) n := by
  have below : (readBelow UInt32.size maxGroups32).Takes (write n.toNat) n.toNat :=
    takes_write_below n.toNat_lt (by decide)
  have read := below.bind_pure UInt32.ofNat
  rwa [UInt32.ofNat_toNat] at read

/-- Ten groups are enough for 64 bits. -/
theorem takes_writeUInt64 (n : UInt64) : readUInt64.Takes (writeUInt64 n) n := by
  have below : (readBelow UInt64.size maxGroups64).Takes (write n.toNat) n.toNat :=
    takes_write_below n.toNat_lt (by decide)
  have read := below.bind_pure UInt64.ofNat
  rwa [UInt64.ofNat_toNat] at read

/-- Even zero takes a group. -/
theorem length_write_pos (n : Nat) : 0 < (write n).length := by
  rw [write]
  split <;> exact Nat.succ_pos _

end Varint

namespace Zigzag

/-- The lowest bit of a zigzag form is the sign. -/
theorem getLsbD_encode_zero {w : Nat} (hw : 0 < w) (v : BitVec w) :
    (encode v).getLsbD 0 = v.msb := by
  simp only [encode, BitVec.getLsbD_xor, BitVec.getLsbD_shiftLeft, BitVec.getLsbD_sshiftRight,
    BitVec.msb_eq_getLsbD_last]
  simp [hw, Nat.ne_of_gt hw]

/-- The bit above it is the value's own lowest bit, flipped under a sign. -/
theorem getLsbD_encode_succ {w i : Nat} (v : BitVec w) (h : i + 1 < w) :
    (encode v).getLsbD (i + 1) = (v.getLsbD i ^^ v.msb) := by
  have beyond : ¬ w - 1 + (i + 1) < w := by omega
  simp only [encode, BitVec.getLsbD_xor, BitVec.getLsbD_shiftLeft, BitVec.getLsbD_sshiftRight,
    beyond, if_false]
  simp [h]

/-- The last bit of a folded number becomes all bits of a mask. -/
theorem neg_and_one {w : Nat} (u : BitVec w) :
    -(u &&& 1#w) = if u.getLsbD 0 then BitVec.allOnes w else 0#w := by
  have low : u &&& 1#w = if u.getLsbD 0 then 1#w else 0#w := by
    apply BitVec.eq_of_getLsbD_eq
    intro i hi
    cases i with
    | zero => split <;> simp_all
    | succ i => split <;> simp
  rw [low]
  split
  · exact BitVec.neg_one_eq_allOnes
  · exact BitVec.neg_zero w

/-- **The sign's detour is no loss.** -/
theorem decode_encode {w : Nat} (v : BitVec w) : decode (encode v) = v := by
  apply BitVec.eq_of_getLsbD_eq
  intro i hi
  have low := getLsbD_encode_zero (Nat.zero_lt_of_lt hi) v
  rw [decode, neg_and_one, low, BitVec.getLsbD_xor, BitVec.getLsbD_ushiftRight, Nat.add_comm]
  -- below the top the sign is flipped in and out; at the top the value's bit is the sign
  by_cases last : i + 1 < w
  · rw [getLsbD_encode_succ v last]
    cases v.msb <;> simp [hi]
  · have sign : v.getLsbD i = v.msb := by
      rw [BitVec.msb_eq_getLsbD_last]
      congr 1
      omega
    rw [BitVec.getLsbD_of_ge _ _ (by omega), sign]
    cases v.msb <;> simp [hi]

theorem takes_writeInt32 (v : Int32) : readInt32.Takes (writeInt32 v) v := by
  have read := (Varint.takes_writeUInt32 (UInt32.ofBitVec (encode v.toBitVec))).bind_pure
    fun u => Int32.ofBitVec (decode u.toBitVec)
  rwa [decode_encode] at read

theorem takes_writeInt64 (v : Int64) : readInt64.Takes (writeInt64 v) v := by
  have read := (Varint.takes_writeUInt64 (UInt64.ofBitVec (encode v.toBitVec))).bind_pure
    fun u => Int64.ofBitVec (decode u.toBitVec)
  rwa [decode_encode] at read

end Zigzag

/-! ## Lengths in front -/

namespace Prefixed

/-- A length that is not negative is no null. -/
theorem not_ofNat_neg {n : Nat} (h : n < 2 ^ 31) : ¬ Int32.ofNat n < 0 := by
  rw [Int32.lt_iff_toInt_lt, Int32.toInt_ofNat_of_lt h]
  simp

/-- A length is read if its sign bit is free. -/
theorem takes_writeLength32 {n : Nat} (h : n < 2 ^ 31) :
    readLength32.Takes (writeLength32 n) n := by
  have read := (Word.takes_write (Int32.ofNat n)).bind_pure Int32.toNatClampNeg
  rwa [Int32.toNatClampNeg_ofNat_of_lt h] at read

theorem takes_writeLength16 {n : Nat} (h : n < 2 ^ 15) :
    readLength16.Takes (writeLength16 n) n := by
  have read := (Word.takes_write (Int16.ofNat n)).bind_pure Int16.toNatClampNeg
  rwa [Int16.toNatClampNeg_ofNat_of_lt h] at read

/-- A compact length is read if there is a word for the next number. -/
theorem takes_writeCompactLength {n : Nat} (h : n + 1 < 2 ^ 32) :
    readCompactLength.Takes (writeCompactLength n) n := by
  have read := (Varint.takes_writeUInt32 (UInt32.ofNat (n + 1))).bind_pure fun u => u.toNat - 1
  rwa [UInt32.toNat_ofNat_of_lt' h, Nat.add_sub_cancel] at read

theorem takes_writeBytes {bytes : Bytes} (h : bytes.length < 2 ^ 31) :
    readBytes.Takes (writeBytes bytes) bytes :=
  (takes_writeLength32 h).bind (takes_take bytes)

theorem takes_writeString16 {s : String} (h : (Utf8.encode s).length < 2 ^ 15) :
    readString16.Takes (writeString16 s) s := by
  have read := ((takes_writeLength16 h).bind (takes_take (Utf8.encode s))).bind_pure Utf8.decode
  rwa [Utf8.decode_encode] at read

theorem takes_writeCompactString {s : String} (h : (Utf8.encode s).length + 1 < 2 ^ 32) :
    readCompactString.Takes (writeCompactString s) s := by
  have read :=
    ((takes_writeCompactLength h).bind (takes_take (Utf8.encode s))).bind_pure Utf8.decode
  rwa [Utf8.decode_encode] at read

/-- Null is written as the length `-1`. -/
theorem takes_write_null : readNullableBytes.Takes (writeNullableBytes none) none := by
  intro rest
  rw [readNullableBytes, writeNullableBytes, bind_ok (Zigzag.takes_writeInt32 (-1) rest),
    if_pos (by decide), pure_apply]

theorem takes_write_notNull {bytes : Bytes} (h : bytes.length < 2 ^ 31) :
    readNullableBytes.Takes (writeNullableBytes (some bytes)) (some bytes) := by
  have taken := (takes_take bytes).bind_pure some
  intro rest
  rw [readNullableBytes, writeNullableBytes, List.append_assoc,
    bind_ok (Zigzag.takes_writeInt32 _ (bytes ++ rest)), if_neg (not_ofNat_neg h),
    Int32.toNatClampNeg_ofNat_of_lt h, taken rest]

end Prefixed

end LogBroker.Wire
