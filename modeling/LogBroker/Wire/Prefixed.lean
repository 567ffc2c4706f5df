import LogBroker.Text.Utf8
import LogBroker.Wire.Varint
import LogBroker.Wire.Word

/-!
# Lengths in front

Bytes, text and collections of unknown size carry their length in front. The formats
know three kinds of length:

* a *fixed* one, a signed word, where a negative length reads as empty;
* a *compact* one, an unsigned varint that is one more than the length, where zero reads
  as empty;
* the length of a record's value, a signed varint, where a negative length is *null*,
  which differs from empty.

A length that does not fit into its field loses its high bits when it is written; the
bytes behind it are all written nevertheless.
-/

namespace LogBroker.Wire

namespace Prefixed

/-! ## Lengths -/

/-- A length of four bytes. -/
def readLength32 : Reader Nat := do
  let n ← (Word.read : Reader Int32)
  pure n.toNatClampNeg

/-- A length of two bytes. -/
def readLength16 : Reader Nat := do
  let n ← (Word.read : Reader Int16)
  pure n.toNatClampNeg

/-- A length behind its successor. -/
def readCompactLength : Reader Nat := do
  let n ← Varint.readUInt32
  pure (n.toNat - 1)

def writeLength32 (n : Nat) : Bytes := Word.write (Int32.ofNat n)

def writeLength16 (n : Nat) : Bytes := Word.write (Int16.ofNat n)

def writeCompactLength (n : Nat) : Bytes := Varint.writeUInt32 (UInt32.ofNat (n + 1))

/-! ## Bytes and text -/

/-- Bytes behind a length of four bytes. -/
def readBytes : Reader Bytes := readLength32 >>= Reader.take

/-- Text behind a length of two bytes. -/
def readString16 : Reader String := do
  let bytes ← readLength16 >>= Reader.take
  pure (Utf8.decode bytes)

/-- Text behind a compact length. -/
def readCompactString : Reader String := do
  let bytes ← readCompactLength >>= Reader.take
  pure (Utf8.decode bytes)

/-- Bytes behind a signed varint, or null. -/
def readNullableBytes : Reader (Option Bytes) := do
  let n ← Zigzag.readInt32
  if n < 0 then pure none else
    let bytes ← Reader.take n.toNatClampNeg
    pure (some bytes)

def writeBytes (bs : Bytes) : Bytes := writeLength32 bs.length ++ bs

def writeString16 (s : String) : Bytes :=
  let bytes := Utf8.encode s
  writeLength16 bytes.length ++ bytes

def writeCompactString (s : String) : Bytes :=
  let bytes := Utf8.encode s
  writeCompactLength bytes.length ++ bytes

def writeNullableBytes : Option Bytes → Bytes
  | none => Zigzag.writeInt32 (-1)
  | some bs => Zigzag.writeInt32 (Int32.ofNat bs.length) ++ bs

/-! ## Going forward -/

theorem forward_readLength32 : readLength32.Forward :=
  Word.forward_read.bind fun _ => Reader.forward_pure _

theorem advances_readLength32 : readLength32.Advances :=
  Word.advances_read.bind fun _ => Reader.forward_pure _

theorem forward_readLength16 : readLength16.Forward :=
  Word.forward_read.bind fun _ => Reader.forward_pure _

theorem advances_readLength16 : readLength16.Advances :=
  Word.advances_read.bind fun _ => Reader.forward_pure _

theorem forward_readCompactLength : readCompactLength.Forward :=
  Varint.forward_readUInt32.bind fun _ => Reader.forward_pure _

theorem advances_readCompactLength : readCompactLength.Advances :=
  Varint.advances_readUInt32.bind fun _ => Reader.forward_pure _

theorem forward_readBytes : readBytes.Forward :=
  forward_readLength32.bind Reader.forward_take

theorem advances_readBytes : readBytes.Advances :=
  advances_readLength32.bind Reader.forward_take

theorem forward_readString16 : readString16.Forward :=
  (forward_readLength16.bind Reader.forward_take).bind fun _ => Reader.forward_pure _

theorem advances_readString16 : readString16.Advances :=
  (advances_readLength16.bind Reader.forward_take).bind fun _ => Reader.forward_pure _

theorem forward_readCompactString : readCompactString.Forward :=
  (forward_readCompactLength.bind Reader.forward_take).bind fun _ => Reader.forward_pure _

theorem advances_readCompactString : readCompactString.Advances :=
  (advances_readCompactLength.bind Reader.forward_take).bind fun _ => Reader.forward_pure _

theorem forward_readNullableBytes : readNullableBytes.Forward :=
  Zigzag.forward_readInt32.bind fun n => by
    split
    · exact Reader.forward_pure _
    · exact (Reader.forward_take _).bind fun _ => Reader.forward_pure _

theorem advances_readNullableBytes : readNullableBytes.Advances :=
  Zigzag.advances_readInt32.bind fun n => by
    split
    · exact Reader.forward_pure _
    · exact (Reader.forward_take _).bind fun _ => Reader.forward_pure _

end Prefixed

end LogBroker.Wire
