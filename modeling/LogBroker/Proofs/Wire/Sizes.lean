import LogBroker.Wire.Layout
import Mathlib.Algebra.Order.BigOperators.Group.List
import Mathlib.Algebra.Order.Ring.Nat

/-!
# How many bytes a value takes

The size of a structure is the sum of the sizes of its fields (`Layout.size_andThen` and the
like), and a collection takes its count and its elements. Only variable-length numbers take
more or fewer bytes depending on their value, and a count is at most five bytes long
(`Prefixed.length_writeCompactLength_le`).
-/

namespace LogBroker.Wire

/-- Seven bits of a number lie in each byte. -/
theorem Varint.length_write_le {n groups : Nat} (h : n < 128 ^ (groups + 1)) :
    (write n).length ≤ groups + 1 := by
  induction groups generalizing n with
  | zero =>
    rw [write, if_pos (by omega)]
    exact Nat.le_refl 1
  | succ groups ih =>
    rw [write]
    split
    next => exact Nat.succ_pos _
    next =>
      refine Nat.succ_le_succ (ih ?_)
      rw [Nat.pow_succ] at h
      exact Nat.div_lt_of_lt_mul (by omega)

namespace Prefixed

/-- A compact count takes five bytes at most. -/
theorem length_writeCompactLength_le (n : Nat) : (writeCompactLength n).length ≤ 5 := by
  have bound : (UInt32.ofNat (n + 1)).toNat < 128 ^ (4 + 1) :=
    Nat.lt_trans (UInt32.toNat_lt _) (by decide)
  exact Varint.length_write_le bound

/-- One byte is enough for a small count. -/
theorem length_writeCompactLength_of_lt {n : Nat} (h : n < 127) :
    (writeCompactLength n).length = 1 := by
  have count : (UInt32.ofNat (n + 1)).toNat = n + 1 :=
    UInt32.toNat_ofNat_of_lt' (Nat.lt_trans (Nat.succ_lt_succ h) (by decide))
  rw [writeCompactLength, Varint.writeUInt32, count, Varint.write, if_pos (Nat.succ_lt_succ h),
    List.length_singleton]

/-- The count of an empty collection is one byte. -/
@[simp] theorem length_writeCompactLength_zero : (writeCompactLength 0).length = 1 :=
  length_writeCompactLength_of_lt (by decide)

/-- So is that of a collection of one. -/
@[simp] theorem length_writeCompactLength_one : (writeCompactLength 1).length = 1 :=
  length_writeCompactLength_of_lt (by decide)

end Prefixed

namespace Layout

variable {α β : Type}

/-- Fields in sequence add up. -/
@[simp] theorem size_andThen (first : Layout α) (second : Layout β) (a : α) (b : β) :
    (first.andThen second).size (a, b) = first.size a + second.size b := List.length_append

/-- Names for the fields take no bytes. -/
@[simp] theorem size_packed (fields : Layout α) (packing : Packing α β) (b : β) :
    (packed fields packing).size b = fields.size (packing.fields b) := rfl

/-- A marker is one byte. -/
@[simp] theorem size_closedBy (l : Layout α) (m : Marker) (a : α) :
    (l.closedBy m).size a = l.size a + 1 := List.length_append

/-- There are no tags, and one byte says so. -/
@[simp] theorem size_tagged (l : Layout α) (a : α) : l.tagged.size a = l.size a + 1 :=
  size_closedBy l .tagged a

/-- A count of four bytes stands in front of the elements. -/
@[simp] theorem size_array (element : Layout α) (as : List α) :
    (array element).size as = 4 + (as.map element.size).sum := by
  rw [size, write, List.length_append, Prefixed.writeLength32, Word.length_write,
    List.length_flatMap]
  rfl

/-- The count of a compact collection may be longer or shorter. -/
@[simp] theorem size_compactArray (element : Layout α) (as : List α) :
    (compactArray element).size as =
      (Prefixed.writeCompactLength as.length).length + (as.map element.size).sum := by
  rw [size, write, List.length_append, List.length_flatMap]
  rfl

/-! ## Words -/

/-- A word takes its width, whatever its value. -/
@[simp] theorem size_int8 (n : Int8) : int8.size n = 1 := Word.length_write n

@[simp] theorem size_int16 (n : Int16) : int16.size n = 2 := Word.length_write n

@[simp] theorem size_int32 (n : Int32) : int32.size n = 4 := Word.length_write n

@[simp] theorem size_uint32 (n : UInt32) : uint32.size n = 4 := Word.length_write n

@[simp] theorem size_int64 (n : Int64) : int64.size n = 8 := Word.length_write n

@[simp] theorem size_uuid (id : Uuid) : uuid.size id = 16 := Word.length_write id

/-- A text takes its bytes and a count of at most five. -/
theorem size_compactString_le (s : String) :
    compactString.size s ≤ 5 + (Utf8.encode s).length := by
  have count := Prefixed.length_writeCompactLength_le (Utf8.encode s).length
  rw [size, write, Primitive.write, Prefixed.writeCompactString, List.length_append]
  omega

/-- A truth value takes a byte. -/
@[simp] theorem size_bool (b : Bool) : bool.size b = 1 := Word.length_write (α := UInt8) _

end Layout

end LogBroker.Wire
