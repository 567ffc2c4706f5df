import LogBroker.Proofs.Wire.ReadBack
import LogBroker.Wire.Layout

/-!
# Values survive the wire

The only thing that writing can lose is a length: one that its field cannot hold is cut.
A value *fits* a layout if none of its lengths is, and then reading takes exactly the
bytes that were written and gives the value back (`Layout.takes_write`).

Whether a value fits rarely has to be looked at field by field. A layout has *room* for
values of a size if each of its length fields can count to that size, and a value that is
no larger fits (`Layout.fits_of_size_le`): what a length counts is on the wire behind it,
and no element of a collection is empty.
-/

namespace LogBroker.Wire

open Reader

/-! ## Fitting -/

/-- The length in front of the value, if there is one, can be held by its field. -/
def Primitive.Fits {α : Type} : Primitive α → α → Prop
  | uint8, _ | int8, _ | bool, _ | int16, _ | int32, _ | uint32, _ | int64, _ | uuid, _ => True
  | unsignedVarint, _ | unsignedVarlong, _ | varint, _ | varlong, _ => True
  | bytes, bs => bs.length < 2 ^ 31
  | nullableString, s => (Utf8.encode s).length < 2 ^ 15
  | compactString, s => (Utf8.encode s).length + 1 < 2 ^ 32
  | nullableBytes, bs => ∀ present ∈ bs, present.length < 2 ^ 31
  | marker _, _ => True

/-- All lengths and counts of the value can be held by their fields. -/
def Layout.Fits {α : Type} : Layout α → α → Prop
  | primitive p, a => p.Fits a
  | andThen first second, (a, b) => first.Fits a ∧ second.Fits b
  | packed fields packing, b => fields.Fits (packing.fields b)
  | array element, as => as.length < 2 ^ 31 ∧ ∀ a ∈ as, element.Fits a
  | compactArray element, as => as.length + 1 < 2 ^ 32 ∧ ∀ a ∈ as, element.Fits a

/-! ## Reading back -/

/-- A byte that is read for truth is zero only if it was written for falsehood. -/
theorem Primitive.takes_writeBool (b : Bool) : bool.read.Takes (bool.write b) b := by
  have read := (Word.takes_write (if b then 1 else 0 : UInt8)).bind_pure fun n => n != 0
  cases b <;> exact read

theorem Primitive.takes_marker (m : Marker) : (readMarker m).Takes [m.byte] () := by
  intro rest
  rw [readMarker, bind_ok (takes_byte m.byte rest), if_pos rfl, pure_apply]

theorem Primitive.takes_write {α : Type} (p : Primitive α) {a : α} (h : p.Fits a) :
    p.read.Takes (p.write a) a := by
  cases p with
  | uint8 | int8 | int16 | int32 | uint32 | int64 | uuid => exact Word.takes_write a
  | bool => exact takes_writeBool a
  | unsignedVarint => exact Varint.takes_writeUInt32 a
  | unsignedVarlong => exact Varint.takes_writeUInt64 a
  | varint => exact Zigzag.takes_writeInt32 a
  | varlong => exact Zigzag.takes_writeInt64 a
  | bytes => exact Prefixed.takes_writeBytes h
  | nullableString => exact Prefixed.takes_writeString16 h
  | compactString => exact Prefixed.takes_writeCompactString h
  | nullableBytes =>
    cases a with
    | none => exact Prefixed.takes_write_null
    | some bs => exact Prefixed.takes_write_notNull (h bs rfl)
  | marker m => exact takes_marker m

/-- **What fits is read back.** Reading takes exactly the bytes that were written and
gives the value; the induction is on the layout. -/
theorem Layout.takes_write {α : Type} (l : Layout α) {a : α} (h : l.Fits a) :
    l.read.Takes (l.write a) a := by
  induction l with
  | primitive p => exact p.takes_write h
  | andThen first second ih₁ ih₂ =>
    obtain ⟨a, b⟩ := a
    obtain ⟨h₁, h₂⟩ := h
    exact (ih₁ h₁).bind ((ih₂ h₂).bind_pure fun b => (a, b))
  | packed fields packing ih =>
    have read := (ih h).bind_pure packing.pack
    rwa [packing.pack_fields] at read
  | array element ih =>
    obtain ⟨hcount, helements⟩ := h
    exact (Prefixed.takes_writeLength32 hcount).bind (Takes.times fun a ha => ih (helements a ha))
  | compactArray element ih =>
    obtain ⟨hcount, helements⟩ := h
    exact (Prefixed.takes_writeCompactLength hcount).bind
      (Takes.times fun a ha => ih (helements a ha))

/-! ## Fitting by size -/

/-- The length field, if there is one, can count to `bound`. -/
def Primitive.Roomy {α : Type} (bound : Nat) : Primitive α → Prop
  | uint8 | int8 | bool | int16 | int32 | uint32 | int64 | uuid => True
  | unsignedVarint | unsignedVarlong | varint | varlong => True
  | bytes | nullableBytes => bound < 2 ^ 31
  | nullableString => bound < 2 ^ 15
  | compactString => bound < 2 ^ 32
  | marker _ => True

/-- All length fields and counts can count to `bound`. -/
def Layout.Roomy {α : Type} (bound : Nat) : Layout α → Prop
  | primitive p => p.Roomy bound
  | andThen first second => first.Roomy bound ∧ second.Roomy bound
  | packed fields _ => fields.Roomy bound
  | array element => bound < 2 ^ 31 ∧ element.Roomy bound
  | compactArray element => bound < 2 ^ 32 ∧ element.Roomy bound

theorem Primitive.fits_of_length_le {α : Type} (p : Primitive α) {bound : Nat}
    (room : p.Roomy bound) {a : α} (h : (p.write a).length ≤ bound) : p.Fits a := by
  cases p with
  | uint8 | int8 | bool | int16 | int32 | uint32 | int64 | uuid => trivial
  | unsignedVarint | unsignedVarlong | varint | varlong => trivial
  | bytes =>
    rw [write, Prefixed.writeBytes, List.length_append] at h
    exact Nat.lt_of_le_of_lt (Nat.le_of_add_left_le h) room
  | nullableString =>
    rw [write, Prefixed.writeString16, List.length_append] at h
    exact Nat.lt_of_le_of_lt (Nat.le_of_add_left_le h) room
  | compactString =>
    -- the field counts one more than the length, and that one is a byte of the field
    have prefixed := Varint.length_write_pos
      (UInt32.ofNat ((Utf8.encode a).length + 1)).toNat
    rw [write, Prefixed.writeCompactString, List.length_append, Prefixed.writeCompactLength,
      Varint.writeUInt32] at h
    simp only [Roomy] at room
    simp only [Fits]
    omega
  | nullableBytes =>
    intro bs hbs
    cases hbs
    rw [write, Prefixed.writeNullableBytes, List.length_append] at h
    exact Nat.lt_of_le_of_lt (Nat.le_of_add_left_le h) room
  | marker _ => trivial

/-- No value is written as nothing. -/
theorem Primitive.length_write_pos {α : Type} (p : Primitive α) (a : α) :
    0 < (p.write a).length := by
  cases p with
  | uint8 | int8 | bool | int16 | int32 | uint32 | int64 | uuid =>
    rw [write, Word.length_write]
    exact Word.width_pos
  | unsignedVarint | unsignedVarlong | varint | varlong => exact Varint.length_write_pos _
  | bytes =>
    rw [write, Prefixed.writeBytes, List.length_append, Prefixed.writeLength32, Word.length_write]
    exact Nat.lt_of_lt_of_le (Word.width_pos (α := Int32)) (Nat.le_add_right _ _)
  | nullableString =>
    rw [write, Prefixed.writeString16, List.length_append, Prefixed.writeLength16,
      Word.length_write]
    exact Nat.lt_of_lt_of_le (Word.width_pos (α := Int16)) (Nat.le_add_right _ _)
  | compactString =>
    rw [write, Prefixed.writeCompactString, List.length_append]
    exact Nat.lt_of_lt_of_le (Varint.length_write_pos _) (Nat.le_add_right _ _)
  | nullableBytes =>
    cases a with
    | none => exact Varint.length_write_pos _
    | some bs =>
      rw [write, Prefixed.writeNullableBytes, List.length_append]
      exact Nat.lt_of_lt_of_le (Varint.length_write_pos _) (Nat.le_add_right _ _)
  | marker m => exact Nat.one_pos

theorem Layout.size_pos {α : Type} (l : Layout α) (a : α) : 0 < l.size a := by
  unfold size
  induction l with
  | primitive p => exact p.length_write_pos a
  | andThen first second ih₁ _ =>
    rw [write, List.length_append]
    exact Nat.lt_of_lt_of_le (ih₁ a.1) (Nat.le_add_right _ _)
  | packed fields packing ih => exact ih (packing.fields a)
  | array element _ =>
    rw [write, List.length_append, Prefixed.writeLength32, Word.length_write]
    exact Nat.lt_of_lt_of_le (Word.width_pos (α := Int32)) (Nat.le_add_right _ _)
  | compactArray element _ =>
    rw [write, List.length_append]
    exact Nat.lt_of_lt_of_le (Varint.length_write_pos _) (Nat.le_add_right _ _)

namespace Layout

variable {α : Type}

/-- An element takes no more than the collection. -/
theorem size_le_of_mem (element : Layout α) {a : α} {as : List α} (h : a ∈ as) :
    element.size a ≤ (as.flatMap element.write).length := by
  obtain ⟨before, after, rfl⟩ := List.append_of_mem h
  rw [List.flatMap_append, List.flatMap_cons, List.length_append, List.length_append, size]
  omega

/-- A collection has no more elements than bytes. -/
theorem length_le_length_flatMap (element : Layout α) (as : List α) :
    as.length ≤ (as.flatMap element.write).length := by
  induction as with
  | nil => exact Nat.le_refl 0
  | cons a as ih =>
    have first : 0 < (element.write a).length := element.size_pos a
    rw [List.flatMap_cons, List.length_append, List.length_cons]
    omega

/-- **What is small enough fits.** -/
theorem fits_of_size_le {α : Type} (l : Layout α) {bound : Nat} (room : l.Roomy bound) {a : α}
    (h : l.size a ≤ bound) : l.Fits a := by
  unfold size at h
  induction l with
  | primitive p => exact p.fits_of_length_le room h
  | andThen first second ih₁ ih₂ =>
    obtain ⟨a, b⟩ := a
    obtain ⟨room₁, room₂⟩ := room
    rw [write, List.length_append] at h
    exact ⟨ih₁ room₁ (Nat.le_trans (Nat.le_add_right _ _) h),
      ih₂ room₂ (Nat.le_trans (Nat.le_add_left _ _) h)⟩
  | packed fields packing ih => exact ih room h
  | array element ih =>
    obtain ⟨roomCount, roomElement⟩ := room
    rw [write, List.length_append] at h
    have count := element.length_le_length_flatMap a
    refine ⟨by omega, ?_⟩
    intro b hb
    have one := element.size_le_of_mem hb
    rw [size] at one
    exact ih roomElement (by omega)
  | compactArray element ih =>
    obtain ⟨roomCount, roomElement⟩ := room
    rw [write, List.length_append] at h
    have count := element.length_le_length_flatMap a
    -- the field counts one more than the elements, as it does for text
    have prefixed : 0 < (Prefixed.writeCompactLength a.length).length :=
      Varint.length_write_pos _
    refine ⟨by omega, ?_⟩
    intro b hb
    have one := element.size_le_of_mem hb
    rw [size] at one
    exact ih roomElement (by omega)

/-- A value that is small enough is read back. -/
theorem takes_write_of_size_le (l : Layout α) {bound : Nat} (room : l.Roomy bound) {a : α}
    (h : l.size a ≤ bound) : l.read.Takes (l.write a) a :=
  l.takes_write (l.fits_of_size_le room h)

end Layout

end LogBroker.Wire
