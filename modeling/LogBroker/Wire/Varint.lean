import LogBroker.Wire.Reader

/-!
# Variable-length numbers

A number is written in groups of seven bits, the lowest group first; every group but the
last carries a set high bit. The format fixes how many groups a number may have and
below which bound its value must lie:

* a *varint* has at most 5 groups and lies below `2 ^ 32`;
* a *varlong* has at most 10 groups and lies below `2 ^ 64`.

Writing uses as few groups as possible. Reading accepts more of them than needed, as
long as they are not too many: `0x80 0x00` is a zero too.

Signed numbers take the *zigzag* detour: the sign moves to the lowest bit, so that small
magnitudes have short forms on both sides of zero.
-/

namespace LogBroker.Wire

/-! ## Groups of seven bits -/

namespace Varint

/-- The number that at most `groups` groups spell. -/
def readGroups : (groups : Nat) → Reader Nat
  | 0 => Reader.fail .varintTooLong
  | groups + 1 => do
    let b ← Reader.byte
    if b.toNat < 128 then pure b.toNat
    else
      let higher ← readGroups groups
      pure (b.toNat - 128 + 128 * higher)

/-- A number of at most `groups` groups below `bound`. The bound is looked at when the
last group is taken. -/
def readBelow (bound groups : Nat) : Reader Nat := do
  let n ← readGroups groups
  if n < bound then pure n else Reader.fail .varintTooLong

/-- The shortest form of a number. -/
def write (n : Nat) : Bytes :=
  if n < 128 then [UInt8.ofNat n] else UInt8.ofNat (n % 128 + 128) :: write (n / 128)
termination_by n

/-- What is left behind groups is a suffix, also where they are too many. -/
theorem forward_readGroups : ∀ groups, (readGroups groups).Forward
  | 0 => Reader.forward_fail _
  | groups + 1 => Reader.forward_byte.bind fun b => by
    split
    · exact Reader.forward_pure _
    · exact (forward_readGroups groups).bind fun _ => Reader.forward_pure _

/-- A number takes a group. -/
theorem advances_readGroups : ∀ groups, (readGroups groups).Advances
  | 0 => fun _ _ _ h => by cases h
  | groups + 1 => Reader.advances_byte.bind fun b => by
    split
    · exact Reader.forward_pure _
    · exact (forward_readGroups groups).bind fun _ => Reader.forward_pure _

/-- The bound takes nothing. -/
theorem forward_readBelow (bound groups : Nat) : (readBelow bound groups).Forward :=
  (forward_readGroups groups).bind fun _ => by
    split
    · exact Reader.forward_pure _
    · exact Reader.forward_fail _

theorem advances_readBelow (bound groups : Nat) : (readBelow bound groups).Advances :=
  (advances_readGroups groups).bind fun _ => by
    split
    · exact Reader.forward_pure _
    · exact Reader.forward_fail _

/-- At most this many groups spell a number of 32 bits. -/
def maxGroups32 : Nat := 5

/-- At most this many groups spell a number of 64 bits. -/
def maxGroups64 : Nat := 10

/-- An unsigned varint. -/
def readUInt32 : Reader UInt32 := do
  let n ← readBelow UInt32.size maxGroups32
  pure (UInt32.ofNat n)

/-- An unsigned varlong. -/
def readUInt64 : Reader UInt64 := do
  let n ← readBelow UInt64.size maxGroups64
  pure (UInt64.ofNat n)

def writeUInt32 (n : UInt32) : Bytes := write n.toNat

def writeUInt64 (n : UInt64) : Bytes := write n.toNat

end Varint

/-! ## Zigzag -/

namespace Zigzag

/-- The sign to the lowest bit, and all other bits flipped if it is set. -/
def encode {w : Nat} (v : BitVec w) : BitVec w := (v <<< 1) ^^^ v.sshiftRight (w - 1)

/-- The lowest bit back to the sign. -/
def decode {w : Nat} (u : BitVec w) : BitVec w := (u >>> 1) ^^^ (-(u &&& 1#w))

/-- A signed varint. -/
def readInt32 : Reader Int32 := do
  let u ← Varint.readUInt32
  pure (Int32.ofBitVec (decode u.toBitVec))

/-- A signed varlong. -/
def readInt64 : Reader Int64 := do
  let u ← Varint.readUInt64
  pure (Int64.ofBitVec (decode u.toBitVec))

def writeInt32 (v : Int32) : Bytes := Varint.writeUInt32 (UInt32.ofBitVec (encode v.toBitVec))

def writeInt64 (v : Int64) : Bytes := Varint.writeUInt64 (UInt64.ofBitVec (encode v.toBitVec))

end Zigzag

/-! ## Going forward -/

theorem Varint.forward_readUInt32 : Varint.readUInt32.Forward :=
  (forward_readBelow _ _).bind fun _ => Reader.forward_pure _

theorem Varint.advances_readUInt32 : Varint.readUInt32.Advances :=
  (advances_readBelow _ _).bind fun _ => Reader.forward_pure _

theorem Varint.forward_readUInt64 : Varint.readUInt64.Forward :=
  (forward_readBelow _ _).bind fun _ => Reader.forward_pure _

theorem Varint.advances_readUInt64 : Varint.readUInt64.Advances :=
  (advances_readBelow _ _).bind fun _ => Reader.forward_pure _

theorem Zigzag.forward_readInt32 : Zigzag.readInt32.Forward :=
  Varint.forward_readUInt32.bind fun _ => Reader.forward_pure _

theorem Zigzag.advances_readInt32 : Zigzag.readInt32.Advances :=
  Varint.advances_readUInt32.bind fun _ => Reader.forward_pure _

theorem Zigzag.forward_readInt64 : Zigzag.readInt64.Forward :=
  Varint.forward_readUInt64.bind fun _ => Reader.forward_pure _

theorem Zigzag.advances_readInt64 : Zigzag.readInt64.Advances :=
  Varint.advances_readUInt64.bind fun _ => Reader.forward_pure _

end LogBroker.Wire
