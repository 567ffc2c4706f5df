import LogBroker.Wire.Prefixed

/-!
# Primitives

The leaves of every format: a `Primitive α` is one of the ways in which the wire spells
a value of type `α`. `Primitive.read` and `Primitive.write` are the two directions.

A primitive always takes at least one byte (`Primitive.advances_read`).
-/

namespace LogBroker.Wire

/-- The spellings of single values. -/
inductive Primitive : Type → Type where
  /-- a byte -/
  | uint8 : Primitive UInt8
  /-- a signed byte -/
  | int8 : Primitive Int8
  /-- a byte that is read as true unless it is zero, and written as one or zero -/
  | bool : Primitive Bool
  /-- two bytes, big-endian, as are all words -/
  | int16 : Primitive Int16
  /-- four bytes -/
  | int32 : Primitive Int32
  /-- four bytes, unsigned -/
  | uint32 : Primitive UInt32
  /-- eight bytes -/
  | int64 : Primitive Int64
  /-- the sixteen bytes of a topic id -/
  | uuid : Primitive Uuid
  /-- an unsigned varint -/
  | unsignedVarint : Primitive UInt32
  /-- an unsigned varlong -/
  | unsignedVarlong : Primitive UInt64
  /-- a zigzag varint -/
  | varint : Primitive Int32
  /-- a zigzag varlong -/
  | varlong : Primitive Int64
  /-- bytes behind a length of four bytes -/
  | bytes : Primitive Bytes
  /-- text behind a length of two bytes -/
  | nullableString : Primitive String
  /-- text behind a compact length -/
  | compactString : Primitive String
  /-- bytes behind a zigzag length, or null -/
  | nullableBytes : Primitive (Option Bytes)
  /-- a byte that has only one admissible value -/
  | marker (m : Marker) : Primitive Unit

namespace Primitive

/-- A marker's byte, and nothing else in its place. -/
def readMarker (m : Marker) : Reader Unit := do
  let b ← Reader.byte
  if b = m.byte then pure () else Reader.fail (.unexpected m b)

/-- A value in its spelling, off the front of the input. -/
def read {α : Type} : Primitive α → Reader α
  | uint8 => Word.read
  | int8 => Word.read
  | bool => do
    let b ← (Word.read : Reader UInt8)
    pure (b != 0)
  | int16 => Word.read
  | int32 => Word.read
  | uint32 => Word.read
  | int64 => Word.read
  | uuid => Word.read
  | unsignedVarint => Varint.readUInt32
  | unsignedVarlong => Varint.readUInt64
  | varint => Zigzag.readInt32
  | varlong => Zigzag.readInt64
  | bytes => Prefixed.readBytes
  | nullableString => Prefixed.readString16
  | compactString => Prefixed.readCompactString
  | nullableBytes => Prefixed.readNullableBytes
  | marker m => readMarker m

/-- The spelling of a value. -/
def write {α : Type} : Primitive α → α → Bytes
  | uint8, n => Word.write n
  | int8, n => Word.write n
  | bool, b => Word.write (if b then 1 else 0 : UInt8)
  | int16, n => Word.write n
  | int32, n => Word.write n
  | uint32, n => Word.write n
  | int64, n => Word.write n
  | uuid, id => Word.write id
  | unsignedVarint, n => Varint.writeUInt32 n
  | unsignedVarlong, n => Varint.writeUInt64 n
  | varint, n => Zigzag.writeInt32 n
  | varlong, n => Zigzag.writeInt64 n
  | bytes, bs => Prefixed.writeBytes bs
  | nullableString, s => Prefixed.writeString16 s
  | compactString, s => Prefixed.writeCompactString s
  | nullableBytes, bs => Prefixed.writeNullableBytes bs
  | marker m, () => [m.byte]

theorem forward_readMarker (m : Marker) : (readMarker m).Forward :=
  Reader.forward_byte.bind fun b => by
    split
    · exact Reader.forward_pure _
    · exact Reader.forward_fail _

theorem advances_readMarker (m : Marker) : (readMarker m).Advances :=
  Reader.advances_byte.bind fun b => by
    split
    · exact Reader.forward_pure _
    · exact Reader.forward_fail _

theorem forward_read {α : Type} : (p : Primitive α) → p.read.Forward
  | uint8 | int8 | int16 | int32 | uint32 | int64 | uuid => Word.forward_read
  | bool => Word.forward_read.bind fun _ => Reader.forward_pure _
  | unsignedVarint => Varint.forward_readUInt32
  | unsignedVarlong => Varint.forward_readUInt64
  | varint => Zigzag.forward_readInt32
  | varlong => Zigzag.forward_readInt64
  | bytes => Prefixed.forward_readBytes
  | nullableString => Prefixed.forward_readString16
  | compactString => Prefixed.forward_readCompactString
  | nullableBytes => Prefixed.forward_readNullableBytes
  | marker m => forward_readMarker m

/-- **No primitive is empty.** -/
theorem advances_read {α : Type} : (p : Primitive α) → p.read.Advances
  | uint8 | int8 | int16 | int32 | uint32 | int64 | uuid => Word.advances_read
  | bool => Word.advances_read.bind fun _ => Reader.forward_pure _
  | unsignedVarint => Varint.advances_readUInt32
  | unsignedVarlong => Varint.advances_readUInt64
  | varint => Zigzag.advances_readInt32
  | varlong => Zigzag.advances_readInt64
  | bytes => Prefixed.advances_readBytes
  | nullableString => Prefixed.advances_readString16
  | compactString => Prefixed.advances_readCompactString
  | nullableBytes => Prefixed.advances_readNullableBytes
  | marker m => advances_readMarker m

end Primitive

end LogBroker.Wire
