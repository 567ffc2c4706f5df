import LogBroker.Uuid
import LogBroker.Wire.Reader

/-!
# Words

A word is a number of known width, most significant byte first. `Word` says which types
of the library are such numbers, and `Word.read` and `Word.write` work for all of them
alike.

Two's complement needs no case of its own: a signed word and the unsigned word with the
same bits are written the same way.
-/

namespace LogBroker.Wire

/-- The values of `α` are the numbers of `width` bytes. -/
class Word (α : Type) where
  /-- how many bytes a value takes -/
  width : Nat
  /-- the bits of a value, as an unsigned number -/
  toNat : α → Nat
  /-- the value with these bits -/
  ofNat : Nat → α
  /-- no type of the library is empty on the wire -/
  width_pos : 0 < width
  /-- a value's bits fit into its width -/
  toNat_lt : ∀ a, toNat a < BigEndian.capacity width
  /-- a value is determined by its bits -/
  ofNat_toNat : ∀ a, ofNat (toNat a) = a
  /-- all numbers that fit are the bits of a value -/
  toNat_ofNat : ∀ n, n < BigEndian.capacity width → toNat (ofNat n) = n

instance : Word UInt8 where
  width := 1
  toNat := UInt8.toNat
  ofNat := UInt8.ofNat
  width_pos := by decide
  toNat_lt a := a.toNat_lt
  ofNat_toNat a := by simp
  toNat_ofNat n h := UInt8.toNat_ofNat_of_lt' h

instance : Word Int8 where
  width := 1
  toNat a := a.toUInt8.toNat
  ofNat n := (UInt8.ofNat n).toInt8
  width_pos := by decide
  toNat_lt a := a.toUInt8.toNat_lt
  ofNat_toNat a := by simp
  toNat_ofNat n h := by simpa using UInt8.toNat_ofNat_of_lt' h

instance : Word Int16 where
  width := 2
  toNat a := a.toUInt16.toNat
  ofNat n := (UInt16.ofNat n).toInt16
  width_pos := by decide
  toNat_lt a := a.toUInt16.toNat_lt
  ofNat_toNat a := by simp
  toNat_ofNat n h := by simpa using UInt16.toNat_ofNat_of_lt' h

instance : Word Int32 where
  width := 4
  toNat a := a.toUInt32.toNat
  ofNat n := (UInt32.ofNat n).toInt32
  width_pos := by decide
  toNat_lt a := a.toUInt32.toNat_lt
  ofNat_toNat a := by simp
  toNat_ofNat n h := by simpa using UInt32.toNat_ofNat_of_lt' h

instance : Word UInt32 where
  width := 4
  toNat := UInt32.toNat
  ofNat := UInt32.ofNat
  width_pos := by decide
  toNat_lt a := a.toNat_lt
  ofNat_toNat a := by simp
  toNat_ofNat n h := UInt32.toNat_ofNat_of_lt' h

instance : Word Int64 where
  width := 8
  toNat a := a.toUInt64.toNat
  ofNat n := (UInt64.ofNat n).toInt64
  width_pos := by decide
  toNat_lt a := a.toUInt64.toNat_lt
  ofNat_toNat a := by simp
  toNat_ofNat n h := by simpa using UInt64.toNat_ofNat_of_lt' h

instance : Word Uuid where
  width := Uuid.width
  toNat id := id.bits.toNat
  ofNat n := ⟨BitVec.ofNat 128 n⟩
  width_pos := by decide
  toNat_lt id := id.bits.isLt
  ofNat_toNat id := by simp
  toNat_ofNat n h := Nat.mod_eq_of_lt h

namespace Word

variable {α : Type} [Word α]

/-- The value that the next `width` bytes spell. -/
def read : Reader α := do
  let bytes ← Reader.take (width α)
  pure (ofNat (BigEndian.ofBytes bytes))

/-- A value as `width` bytes. -/
def write (a : α) : Bytes := BigEndian.toBytes (width α) (toNat a)

/-- A word is as long as it is wide. -/
@[simp] theorem length_write (a : α) : (write a).length = width α :=
  BigEndian.length_toBytes _ _

/-- A word takes exactly its own bytes, whatever follows. -/
theorem read_write_append (a : α) (rest : Bytes) : read (write a ++ rest) = (.ok a, rest) := by
  have taken : Reader.take (width α) (write a ++ rest) = (.ok (write a), rest) := by
    have len : (write a).length = width α := length_write a
    rw [Reader.take_eq, if_pos (by simp [len]), ← len, List.take_left, List.drop_left]
  rw [read, Reader.bind_ok taken, Reader.pure_apply, write, BigEndian.ofBytes_toBytes,
    Nat.mod_eq_of_lt (toNat_lt a), ofNat_toNat]

theorem forward_read : (read (α := α)).Forward :=
  (Reader.forward_take _).bind fun _ => Reader.forward_pure _

theorem advances_read : (read (α := α)).Advances :=
  (Reader.advances_take width_pos).bind fun _ => Reader.forward_pure _

end Word

end LogBroker.Wire
