import LogBroker.Bytes

/-!
# Big-endian numbers

A number of known width is written with its most significant byte first. `ofBytes` and
`toBytes` are the two directions; they are inverse to each other on the numbers that the
width can hold, of which there are `capacity width`.
-/

namespace LogBroker.BigEndian

/-- How many numbers there are of so many bytes. -/
def capacity : (width : Nat) → Nat
  | 0 => 1
  | width + 1 => 256 * capacity width

/-- The number that the bytes spell. -/
def ofBytes (bs : Bytes) : Nat := bs.foldl (fun n b => 256 * n + b.toNat) 0

/-- The lowest `width` bytes of a number. -/
def toBytes : (width : Nat) → Nat → Bytes
  | 0, _ => []
  | width + 1, n => UInt8.ofNat (n / capacity width) :: toBytes width n

theorem capacity_pos (width : Nat) : 0 < capacity width := by
  induction width with
  | zero => decide
  | succ width ih => rw [capacity]; omega

@[simp] theorem length_toBytes (width n : Nat) : (toBytes width n).length = width := by
  induction width with
  | zero => rfl
  | succ width ih => rw [toBytes, List.length_cons, ih]

/-- Bytes behind a number move it up by their own width. -/
theorem foldl_ofBytes (bs : Bytes) (n : Nat) :
    bs.foldl (fun n b => 256 * n + b.toNat) n = n * capacity bs.length + ofBytes bs := by
  induction bs generalizing n with
  | nil => simp [ofBytes, capacity]
  | cons b bs ih =>
    simp only [List.foldl_cons, List.length_cons, ofBytes, capacity]
    rw [ih, ih (256 * 0 + b.toNat), Nat.add_mul, Nat.mul_zero, Nat.zero_add, Nat.mul_comm 256 n,
      Nat.mul_assoc, Nat.add_assoc]

theorem ofBytes_cons (b : UInt8) (bs : Bytes) :
    ofBytes (b :: bs) = b.toNat * capacity bs.length + ofBytes bs := by
  simpa [ofBytes] using foldl_ofBytes bs b.toNat

/-- A string of bytes spells a number that its length can hold. -/
theorem ofBytes_lt (bs : Bytes) : ofBytes bs < capacity bs.length := by
  induction bs with
  | nil => decide
  | cons b bs ih =>
    have hb : b.toNat + 1 ≤ 256 := b.toNat_lt
    have := Nat.mul_le_mul_right (capacity bs.length) hb
    rw [ofBytes_cons, List.length_cons, capacity]
    rw [Nat.add_mul] at this
    omega

/-- **Reading what was written** gives the number, cut to the width. -/
theorem ofBytes_toBytes (width n : Nat) : ofBytes (toBytes width n) = n % capacity width := by
  induction width with
  | zero => rw [capacity, Nat.mod_one]; rfl
  | succ width ih =>
    rw [toBytes, ofBytes_cons, ih, length_toBytes, UInt8.toNat_ofNat']
    show n / capacity width % 256 * capacity width + n % capacity width =
      n % (256 * capacity width)
    rw [Nat.mul_comm 256, Nat.mod_mul, Nat.mul_comm, Nat.add_comm]

/-- Bytes above the width do not show. -/
theorem toBytes_add_mul (width n k : Nat) :
    toBytes width (n + k * capacity width) = toBytes width n := by
  induction width generalizing k with
  | zero => rfl
  | succ width ih =>
    have split : k * capacity (width + 1) = k * 256 * capacity width := by
      rw [capacity, Nat.mul_assoc]
    rw [toBytes, toBytes, split, ih, Nat.add_mul_div_right _ _ (capacity_pos width)]
    congr 1
    apply UInt8.toNat_inj.mp
    rw [UInt8.toNat_ofNat', UInt8.toNat_ofNat']
    omega

/-- **Writing what was read** gives the bytes back. -/
theorem toBytes_ofBytes (bs : Bytes) : toBytes bs.length (ofBytes bs) = bs := by
  induction bs with
  | nil => rfl
  | cons b bs ih =>
    rw [List.length_cons, toBytes, ofBytes_cons, Nat.add_comm, toBytes_add_mul, ih,
      Nat.add_mul_div_right _ _ (capacity_pos _), Nat.div_eq_of_lt (ofBytes_lt bs)]
    simp

end LogBroker.BigEndian
