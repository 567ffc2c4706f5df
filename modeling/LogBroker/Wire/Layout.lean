import LogBroker.Wire.Primitive

/-!
# Layouts

A layout describes once how a structure lies on the wire; reading and writing are two
functions on the description. So the two directions of a message cannot drift apart, and
what holds of all layouts, by one induction, holds of every message.

* `primitive` is a leaf, `andThen` puts two layouts one after the other;
* `array` and `compactArray` are collections behind a count;
* `packed` turns the fields of a structure, which lie in a nested tuple, into the
  structure. A `Packing` goes both ways and loses nothing either way.

No layout is empty on the wire (`Layout.advances_read`): every element of a collection
takes at least one byte, so a count cannot make a reader run longer than its input.
-/

namespace LogBroker.Wire

/-- A structure `β` and the tuple `α` of its fields, each made from the other. -/
structure Packing (α β : Type) where
  /-- the structure with these fields -/
  pack : α → β
  /-- the fields of a structure -/
  fields : β → α
  /-- a structure is determined by its fields -/
  pack_fields : ∀ b, pack (fields b) = b := by intro b; rfl
  /-- a structure keeps its fields -/
  fields_pack : ∀ a, fields (pack a) = a := by intro a; rfl

/-- How values of a type lie on the wire. -/
inductive Layout : Type → Type 1 where
  /-- a single value -/
  | primitive {α : Type} (p : Primitive α) : Layout α
  /-- one value and right behind it another -/
  | andThen {α β : Type} (first : Layout α) (second : Layout β) : Layout (α × β)
  /-- a structure that lies as its fields do -/
  | packed {α β : Type} (fields : Layout α) (packing : Packing α β) : Layout β
  /-- a collection behind a count of four bytes; a negative count reads as none -/
  | array {α : Type} (element : Layout α) : Layout (List α)
  /-- a collection behind a compact count -/
  | compactArray {α : Type} (element : Layout α) : Layout (List α)

namespace Layout

variable {α β : Type}

/-! ## The two directions -/

/-- A value off the front of the input. -/
def read {α : Type} : Layout α → Reader α
  | primitive p => p.read
  | andThen first second => do
    let a ← first.read
    let b ← second.read
    pure (a, b)
  | packed fields packing => do
    let a ← fields.read
    pure (packing.pack a)
  | array element => do
    let n ← Prefixed.readLength32
    Reader.times n element.read
  | compactArray element => do
    let n ← Prefixed.readCompactLength
    Reader.times n element.read

/-- The bytes of a value. -/
def write {α : Type} : Layout α → α → Bytes
  | primitive p, a => p.write a
  | andThen first second, (a, b) => first.write a ++ second.write b
  | packed fields packing, b => fields.write (packing.fields b)
  | array element, as => Prefixed.writeLength32 as.length ++ as.flatMap element.write
  | compactArray element, as =>
    Prefixed.writeCompactLength as.length ++ as.flatMap element.write

/-- How many bytes a value takes. -/
def size (l : Layout α) (a : α) : Nat := (l.write a).length

/-! ## Vocabulary of the formats -/

abbrev uint8 : Layout UInt8 := primitive .uint8
abbrev int8 : Layout Int8 := primitive .int8
abbrev bool : Layout Bool := primitive .bool
abbrev int16 : Layout Int16 := primitive .int16
abbrev int32 : Layout Int32 := primitive .int32
abbrev uint32 : Layout UInt32 := primitive .uint32
abbrev int64 : Layout Int64 := primitive .int64
abbrev uuid : Layout Uuid := primitive .uuid
abbrev unsignedVarint : Layout UInt32 := primitive .unsignedVarint
abbrev unsignedVarlong : Layout UInt64 := primitive .unsignedVarlong
abbrev varint : Layout Int32 := primitive .varint
abbrev varlong : Layout Int64 := primitive .varlong
abbrev bytes : Layout Bytes := primitive .bytes
abbrev nullableString : Layout String := primitive .nullableString
abbrev compactString : Layout String := primitive .compactString
abbrev nullableBytes : Layout (Option Bytes) := primitive .nullableBytes
abbrev marker (m : Marker) : Layout Unit := primitive (.marker m)

/-- The layout, and a marker behind it. -/
def closedBy (l : Layout α) (m : Marker) : Layout α :=
  packed (l.andThen (marker m)) { pack := fun (a, ()) => a, fields := fun a => (a, ()) }

/-- The fields, and behind them an empty section of tagged fields. -/
def tagged (l : Layout α) : Layout α := l.closedBy .tagged

/-! ## Going forward -/

theorem forward_read {α : Type} : (l : Layout α) → l.read.Forward
  | primitive p => p.forward_read
  | andThen first second =>
    first.forward_read.bind fun _ => second.forward_read.bind fun _ => Reader.forward_pure _
  | packed fields _ => fields.forward_read.bind fun _ => Reader.forward_pure _
  | array element => Prefixed.forward_readLength32.bind fun n => element.forward_read.times n
  | compactArray element =>
    Prefixed.forward_readCompactLength.bind fun n => element.forward_read.times n

/-- **No layout is empty.** -/
theorem advances_read {α : Type} : (l : Layout α) → l.read.Advances
  | primitive p => p.advances_read
  | andThen first second =>
    first.advances_read.bind fun _ => second.forward_read.bind fun _ => Reader.forward_pure _
  | packed fields _ => fields.advances_read.bind fun _ => Reader.forward_pure _
  | array element => Prefixed.advances_readLength32.bind fun n => element.forward_read.times n
  | compactArray element =>
    Prefixed.advances_readCompactLength.bind fun n => element.forward_read.times n

end Layout

end LogBroker.Wire
