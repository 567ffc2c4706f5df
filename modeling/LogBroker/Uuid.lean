import LogBroker.BigEndian

/-!
# Topic ids

A topic is known to the wire by an id of sixteen bytes. The library keeps it as the
number that these bytes spell with the most significant byte first, so that two ids
compare as their bytes do.
-/

namespace LogBroker

/-- An id of sixteen bytes. -/
structure Uuid where
  /-- the bytes, most significant first -/
  bits : BitVec 128
deriving DecidableEq, Repr, Hashable

namespace Uuid

/-- The id of all zeros, which stands for a topic that nobody knows. -/
def nil : Uuid := ⟨0⟩

instance : Inhabited Uuid := ⟨nil⟩

/-- Whether this is the id of all zeros. -/
def isNil (id : Uuid) : Bool := id == nil

/-- How many bytes an id has. -/
def width : Nat := 16

/-- The sixteen bytes. -/
def toBytes (id : Uuid) : Bytes := BigEndian.toBytes width id.bits.toNat

/-- The id that sixteen bytes spell. -/
def ofBytes (bs : Bytes) : Uuid := ⟨BitVec.ofNat 128 (BigEndian.ofBytes bs)⟩

/-- Whether `a` comes no later than `b` when ids are compared byte by byte. -/
def le (a b : Uuid) : Bool := a.bits.toNat ≤ b.bits.toNat

/-- The ids in ascending order. -/
def sort (ids : List Uuid) : List Uuid := ids.mergeSort le

/-- The five groups of the text form: 4, 2, 2, 2 and 6 bytes, with dashes between. -/
def toText (id : Uuid) : String :=
  let bytes := id.toBytes
  let group (start length : Nat) := Bytes.toHex ((bytes.drop start).take length)
  "-".intercalate [group 0 4, group 4 2, group 6 2, group 8 2, group 10 6]

end Uuid

end LogBroker
