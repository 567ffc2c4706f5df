import LogBroker.Proofs.Wire.RoundTrip

/-!
# Rows of values

Values of different kinds are written one behind the other, and nothing in the bytes says where
one ends or of which kind it is. Who knows the kinds can read them again: each reader takes the
bytes of its own value and none of its neighbour's, so the next one begins where the next value
does. A value must only fit its kind, that is, its lengths and counts their fields.

Main statement: `readRow_writeRow`.
-/

namespace LogBroker.Wire

open Reader Layout

/-! ## Kinds -/

/-- The kinds of values in a row. -/
inductive Kind where
  | uint8
  | int8
  | bool
  | int16
  | int32
  | uint32
  | int64
  | uuid
  | bytes
  | nullableString
  | compactString
  | unsignedVarint
  | unsignedVarlong
  | varint
  | varlong
  /-- the marker of a section of tagged fields, which is empty -/
  | taggedFields
  /-- values of one kind behind a count of four bytes -/
  | array (element : Kind)
  /-- values of one kind behind a compact count -/
  | compactArray (element : Kind)
deriving DecidableEq, Repr

namespace Kind

/-- The values of a kind. -/
def Value : Kind → Type
  | uint8 => UInt8
  | int8 => Int8
  | bool => Bool
  | int16 => Int16
  | int32 | varint => Int32
  | uint32 | unsignedVarint => UInt32
  | int64 | varlong => Int64
  | unsignedVarlong => UInt64
  | uuid => Uuid
  | bytes => Bytes
  | nullableString | compactString => String
  | taggedFields => Unit
  | array element | compactArray element => List element.Value

/-- How the values of a kind lie on the wire. -/
def layout : (kind : Kind) → Layout kind.Value
  | uint8 => Layout.uint8
  | int8 => Layout.int8
  | bool => Layout.bool
  | int16 => Layout.int16
  | int32 => Layout.int32
  | uint32 => Layout.uint32
  | int64 => Layout.int64
  | uuid => Layout.uuid
  | bytes => Layout.bytes
  | nullableString => Layout.nullableString
  | compactString => Layout.compactString
  | unsignedVarint => Layout.unsignedVarint
  | unsignedVarlong => Layout.unsignedVarlong
  | varint => Layout.varint
  | varlong => Layout.varlong
  | taggedFields => Layout.marker .tagged
  | array element => Layout.array element.layout
  | compactArray element => Layout.compactArray element.layout

end Kind

/-- A value and its kind. -/
structure Item where
  /-- how it is written -/
  kind : Kind
  /-- what is written -/
  value : kind.Value

namespace Item

/-- The bytes of an item. -/
def write (item : Item) : Bytes := item.kind.layout.write item.value

/-- Its lengths and counts can be held by their fields. -/
def Fits (item : Item) : Prop := item.kind.layout.Fits item.value

end Item

/-! ## Rows -/

/-- The items, one behind the other. -/
def writeRow (items : List Item) : Bytes := items.flatMap Item.write

/-- Items of these kinds, one after the other. -/
def readRow : List Kind → Reader (List Item)
  | [] => pure []
  | kind :: kinds => do
    let value ← kind.layout.read
    let items ← readRow kinds
    pure (⟨kind, value⟩ :: items)

/-- A row takes its own bytes. -/
theorem takes_writeRow {items : List Item} (h : ∀ item ∈ items, item.Fits) :
    (readRow (items.map Item.kind)).Takes (writeRow items) items := by
  induction items with
  | nil => exact fun _ => rfl
  | cons item items ih =>
    obtain ⟨first, others⟩ := List.forall_mem_cons.mp h
    have value : item.kind.layout.read.Takes item.write item.value :=
      item.kind.layout.takes_write first
    exact value.bind ((ih others).bind_pure fun items => item :: items)

/-- **A row is read as it was written.** Reading the kinds in turn gives the values in order and
leaves nothing; and wherever the reading stops, what is left are the bytes of the items that have
not been read, and what follows the row. -/
theorem readRow_writeRow {items : List Item} (h : ∀ item ∈ items, item.Fits) :
    readRow (items.map Item.kind) (writeRow items) = (.ok items, []) ∧
      ∀ (count : Nat) (rest : Bytes),
        readRow ((items.take count).map Item.kind) (writeRow items ++ rest) =
          (.ok (items.take count), writeRow (items.drop count) ++ rest) := by
  refine ⟨(takes_writeRow h).eq, ?_⟩
  intro count rest
  have before : ∀ item ∈ items.take count, item.Fits :=
    fun item mem => h item (List.mem_of_mem_take mem)
  have split : writeRow items = writeRow (items.take count) ++ writeRow (items.drop count) := by
    rw [writeRow, writeRow, writeRow, ← List.flatMap_append, List.take_append_drop]
  rw [split, List.append_assoc, takes_writeRow before]

/-- Neighbours that could be taken for each other: numbers at the ends of their ranges, text that is
longer in bytes, empty and nested collections, and a marker. -/
def mixedItems : List Item :=
  [⟨.int8, (-128 : Int8)⟩, ⟨.unsignedVarint, (4294967295 : UInt32)⟩,
    ⟨.varint, (-2147483648 : Int32)⟩, ⟨.bool, true⟩, ⟨.compactString, "é"⟩,
    ⟨.nullableString, ""⟩, ⟨.array .uuid, []⟩, ⟨.bytes, ([0, 255] : Bytes)⟩,
    ⟨.compactArray (.array .varlong), ([[-1], [], [300, 0]] : List (List Int64))⟩,
    ⟨.taggedFields, ()⟩, ⟨.compactArray .compactString, ["", "a"]⟩]

theorem readRow_writeRow_mixedItems :
    (∀ item ∈ mixedItems, item.Fits) ∧
      readRow (mixedItems.map Item.kind) (writeRow mixedItems) = (.ok mixedItems, []) ∧
      readRow [.int8, .unsignedVarint] (writeRow mixedItems) =
        (.ok (mixedItems.take 2), writeRow (mixedItems.drop 2)) := by
  have fits : ∀ item ∈ mixedItems, item.Fits := by
    have accent : (Utf8.encode "é").length + 1 < 2 ^ 32 := by decide +kernel
    have nothing : (Utf8.encode "").length < 2 ^ 15 := by decide +kernel
    have two : ([0, 255] : Bytes).length < 2 ^ 31 := by decide
    have rows : ∀ row ∈ ([[-1], [], [300, 0]] : List (List Int64)),
        (Layout.array Layout.varlong).Fits row := by
      simp [Layout.Fits, Primitive.Fits]
    have texts : ∀ text ∈ ["", "a"], (Utf8.encode text).length + 1 < 2 ^ 32 := by decide +kernel
    simp only [mixedItems, List.forall_mem_cons]
    exact ⟨trivial, trivial, trivial, trivial, accent, nothing,
      ⟨by decide, List.forall_mem_nil _⟩, two, ⟨by decide, rows⟩, trivial,
      ⟨by decide, texts⟩, List.forall_mem_nil _⟩
  obtain ⟨whole, parts⟩ := readRow_writeRow fits
  have two := parts 2 []
  rw [List.append_nil, List.append_nil] at two
  exact ⟨fits, whole, two⟩

end LogBroker.Wire
