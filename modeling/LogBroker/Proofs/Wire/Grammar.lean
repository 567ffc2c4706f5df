import LogBroker.Proofs.Wire.Rewriting
import Mathlib.Data.List.Forall2

/-!
# Readers and grammars

A grammar says which strings of bytes are forms of which value: of some values there are
several. A reader *accepts* a grammar if it reads a value just if its input begins with a form
of it, and then leaves what stands behind the form (`Reader.Accepts`). Readers that are made
of others accept the grammars that are made of theirs in the same way.

`Layout.Form` is the grammar of a layout. It says nothing of how to read: in a sequence the
input is cut somewhere, in a collection anyhow, and a number is any row of groups that spells
it. Main statement: every layout's reader accepts its grammar (`Layout.accepts_read`).
-/

namespace LogBroker.Wire

namespace Reader

variable {α β : Type}

/-- `r` reads a value just if the input begins with one of its forms, and leaves the rest. -/
def Accepts (r : Reader α) (form : Bytes → α → Prop) : Prop :=
  ∀ bs a rest, r bs = (.ok a, rest) ↔ ∃ bytes, bs = bytes ++ rest ∧ form bytes a

/-! ## Readers made of readers -/

section

variable {r : Reader α} {form : Bytes → α → Prop}

/-- Forms can be said in other words. -/
theorem Accepts.congr {form' : Bytes → α → Prop} (h : r.Accepts form)
    (same : ∀ bytes a, form bytes a ↔ form' bytes a) : r.Accepts form' := by
  intro bs a rest
  rw [h]
  exact exists_congr fun bytes => and_congr_right fun _ => same bytes a

/-- A form of a value is read wherever it stands. -/
theorem Accepts.takes (h : r.Accepts form) {bytes : Bytes} {a : α} (hf : form bytes a) :
    r.Takes bytes a :=
  fun rest => (h _ a rest).mpr ⟨bytes, rfl, hf⟩

/-- An answer that is there has an empty form. -/
theorem accepts_pure (a : α) :
    (pure a : Reader α).Accepts fun bytes a' => bytes = [] ∧ a' = a := by
  intro bs a' rest
  rw [pure_apply]
  constructor
  · rintro ⟨⟩
    exact ⟨[], rfl, rfl, rfl⟩
  · rintro ⟨_, rfl, rfl, rfl⟩
    rfl

/-- What always fails has no form. -/
theorem accepts_fail (e : DecodeError) : (fail e : Reader α).Accepts fun _ _ => False := by
  intro bs a rest
  rw [fail_apply]
  constructor
  · rintro ⟨⟩
  · rintro ⟨_, _, ⟨⟩⟩

theorem accepts_byte : byte.Accepts fun bytes b => bytes = [b] := by
  intro bs b rest
  constructor
  · intro h
    cases bs with
    | nil => cases h
    | cons c bs =>
      cases h
      exact ⟨[b], rfl, rfl⟩
  · rintro ⟨_, rfl, rfl⟩
    rfl

theorem accepts_take (n : Nat) :
    (take n).Accepts fun bytes taken => taken = bytes ∧ bytes.length = n := by
  intro bs taken rest
  constructor
  · intro h
    obtain ⟨whole, size⟩ := take_eq_ok h
    exact ⟨taken, whole, rfl, size⟩
  · rintro ⟨bytes, rfl, rfl, rfl⟩
    exact takes_take taken rest

/-- A form of a sequence is a form of the first value and a form of the second one. -/
theorem Accepts.bind {f : α → Reader β} {form' : α → Bytes → β → Prop} (hr : r.Accepts form)
    (hf : ∀ a, (f a).Accepts (form' a)) :
    (r >>= f).Accepts fun bytes b =>
      ∃ a first second, bytes = first ++ second ∧ form first a ∧ form' a second b := by
  intro bs b rest
  constructor
  · intro h
    obtain ⟨a, mid, ha, hb⟩ := bind_eq_ok h
    obtain ⟨first, rfl, formed⟩ := (hr _ _ _).mp ha
    obtain ⟨second, rfl, formed'⟩ := (hf a _ _ _).mp hb
    exact ⟨first ++ second, (List.append_assoc _ _ _).symm, a, first, second, rfl, formed, formed'⟩
  · rintro ⟨_, rfl, a, first, second, rfl, formed, formed'⟩
    exact (hr.takes formed).bind ((hf a).takes formed') rest

/-- What is done with an answer does not change the forms. -/
theorem Accepts.bind_pure (hr : r.Accepts form) (f : α → β) :
    (r >>= fun a => pure (f a)).Accepts fun bytes b => ∃ a, form bytes a ∧ b = f a := by
  refine (hr.bind fun a => accepts_pure (f a)).congr ?_
  intro bytes b
  constructor
  · rintro ⟨a, first, _, rfl, formed, rfl, rfl⟩
    exact ⟨a, by rwa [List.append_nil], rfl⟩
  · rintro ⟨a, formed, rfl⟩
    exact ⟨a, bytes, [], (List.append_nil _).symm, formed, rfl, rfl⟩

/-- The form of an answer is that of what it was made from. -/
theorem Accepts.map (hr : r.Accepts form) (f : α → β) :
    (f <$> r).Accepts fun bytes b => ∃ a, form bytes a ∧ b = f a := by
  rw [map_eq_pure_bind]
  exact hr.bind_pure f

/-- A reader that chooses accepts what it has chosen. -/
theorem Accepts.ite {p : Prop} [Decidable p] {r' : Reader α} {form' : Bytes → α → Prop}
    (h : r.Accepts form) (h' : r'.Accepts form') :
    (if p then r else r').Accepts fun bytes a => if p then form bytes a else form' bytes a := by
  split
  · exact h
  · exact h'

/-- A form of a row is a form of each of its values, one after the other. -/
theorem Accepts.times (hr : r.Accepts form) (n : Nat) :
    (Reader.times n r).Accepts fun bytes as =>
      ∃ pieces, bytes = pieces.flatten ∧ List.Forall₂ form pieces as ∧ as.length = n := by
  induction n with
  | zero =>
    rw [times_zero]
    refine (accepts_pure []).congr ?_
    intro bytes as
    constructor
    · rintro ⟨rfl, rfl⟩
      exact ⟨[], rfl, .nil, rfl⟩
    · rintro ⟨pieces, rfl, formed, size⟩
      obtain rfl := List.eq_nil_of_length_eq_zero size
      cases formed
      exact ⟨rfl, rfl⟩
  | succ n ih =>
    rw [times_succ]
    refine (hr.bind fun a => ih.bind_pure (a :: ·)).congr ?_
    intro bytes as
    constructor
    · rintro ⟨a, first, _, rfl, formed, others, ⟨pieces, rfl, formed', rfl⟩, rfl⟩
      exact ⟨first :: pieces, rfl, .cons formed formed', rfl⟩
    · rintro ⟨pieces, rfl, formed, size⟩
      cases formed with
      | nil => cases size
      | @cons first a pieces others formed formed' =>
        exact ⟨a, first, pieces.flatten, rfl, formed, others,
          ⟨pieces, rfl, formed', Nat.succ.inj size⟩, rfl⟩

end

end Reader

open Reader

/-! ## Numbers -/

/-- The one form of a word. -/
def Word.Form {α : Type} [Word α] (bytes : Bytes) (a : α) : Prop := bytes = Word.write a

/-- A word has one form, the bytes that it is written in. -/
theorem Word.accepts_read {α : Type} [Word α] : (Word.read : Reader α).Accepts Word.Form := by
  intro bs a rest
  constructor
  · intro h
    exact ⟨Word.write a, Word.eq_write_of_read h, rfl⟩
  · rintro ⟨_, rfl, rfl⟩
    exact Word.takes_write a rest

namespace Varint

/-- The forms of a number of 32 bits: at most five groups, the fewest or not. -/
def Form32 (bytes : Bytes) (n : Nat) : Prop := Spells bytes n ∧ bytes.length ≤ 5 ∧ n < 2 ^ 32

/-- The forms of a number of 64 bits: at most ten groups, the fewest or not. -/
def Form64 (bytes : Bytes) (n : Nat) : Prop := Spells bytes n ∧ bytes.length ≤ 10 ∧ n < 2 ^ 64

/-- A number is read from its groups, padded or not, as long as there are not too many. -/
theorem accepts_readGroups (groups : Nat) :
    (readGroups groups).Accepts fun bytes n => Spells bytes n ∧ bytes.length ≤ groups := by
  induction groups with
  | zero =>
    refine (accepts_fail _).congr ?_
    intro bytes n
    rw [false_iff]
    rintro ⟨spelled, none⟩
    exact absurd spelled.length_pos (Nat.not_lt.mpr none)
  | succ groups ih =>
    rw [readGroups]
    refine (accepts_byte.bind fun b =>
      (accepts_pure b.toNat).ite (ih.bind_pure (b.toNat - 128 + 128 * ·))).congr ?_
    intro bytes n
    constructor
    · rintro ⟨b, first, second, rfl, rfl, choice⟩
      split at choice
      next small =>
        obtain ⟨rfl, rfl⟩ := choice
        exact ⟨.last small, Nat.le_add_left 1 groups⟩
      next big =>
        obtain ⟨higher, ⟨spelled, few⟩, rfl⟩ := choice
        exact ⟨.more (Nat.le_of_not_lt big) spelled, Nat.succ_le_succ few⟩
    · rintro ⟨spelled, few⟩
      cases spelled with
      | @last b small => exact ⟨b, [b], [], rfl, rfl, by rw [if_pos small]; exact ⟨rfl, rfl⟩⟩
      | @more b second higher big spelled =>
        refine ⟨b, [b], second, rfl, rfl, ?_⟩
        rw [if_neg (Nat.not_lt.mpr big)]
        exact ⟨higher, ⟨spelled, Nat.le_of_succ_le_succ few⟩, rfl⟩

/-- It is accepted below the bound. -/
theorem accepts_readBelow (bound groups : Nat) :
    (readBelow bound groups).Accepts fun bytes n =>
      Spells bytes n ∧ bytes.length ≤ groups ∧ n < bound := by
  refine ((accepts_readGroups groups).bind fun n =>
    (accepts_pure n).ite (accepts_fail .varintTooLong)).congr ?_
  intro bytes n
  constructor
  · rintro ⟨m, first, second, rfl, ⟨spelled, few⟩, choice⟩
    split at choice
    next below =>
      obtain ⟨rfl, rfl⟩ := choice
      rw [List.append_nil]
      exact ⟨spelled, few, below⟩
    next => exact choice.elim
  · rintro ⟨spelled, few, below⟩
    refine ⟨n, bytes, [], (List.append_nil _).symm, ⟨spelled, few⟩, ?_⟩
    rw [if_pos below]
    exact ⟨rfl, rfl⟩

theorem accepts_readUInt32 : readUInt32.Accepts fun bytes n => Form32 bytes n.toNat := by
  refine ((accepts_readBelow UInt32.size maxGroups32).bind_pure UInt32.ofNat).congr ?_
  intro bytes n
  constructor
  · rintro ⟨m, ⟨spelled, few, below⟩, rfl⟩
    rw [Form32, UInt32.toNat_ofNat_of_lt' below]
    exact ⟨spelled, few, below⟩
  · intro form
    exact ⟨n.toNat, form, UInt32.ofNat_toNat.symm⟩

theorem accepts_readUInt64 : readUInt64.Accepts fun bytes n => Form64 bytes n.toNat := by
  refine ((accepts_readBelow UInt64.size maxGroups64).bind_pure UInt64.ofNat).congr ?_
  intro bytes n
  constructor
  · rintro ⟨m, ⟨spelled, few, below⟩, rfl⟩
    rw [Form64, UInt64.toNat_ofNat_of_lt' below]
    exact ⟨spelled, few, below⟩
  · intro form
    exact ⟨n.toNat, form, UInt64.ofNat_toNat.symm⟩

end Varint

namespace Zigzag

/-- The forms of a signed number of 32 bits, its sign in the lowest bit. -/
def Form32 (bytes : Bytes) (v : Int32) : Prop := Varint.Form32 bytes (encode v.toBitVec).toNat

/-- The forms of a signed number of 64 bits, its sign in the lowest bit. -/
def Form64 (bytes : Bytes) (v : Int64) : Prop := Varint.Form64 bytes (encode v.toBitVec).toNat

/-- A signed number has the forms of the number that it is folded to. -/
theorem accepts_readInt32 : readInt32.Accepts Form32 := by
  refine (Varint.accepts_readUInt32.bind_pure fun u => Int32.ofBitVec (decode u.toBitVec)).congr ?_
  intro bytes v
  constructor
  · rintro ⟨u, form, rfl⟩
    show Varint.Form32 bytes (encode (decode u.toBitVec)).toNat
    rwa [encode_decode]
  · intro form
    exact ⟨UInt32.ofBitVec (encode v.toBitVec), form,
      (congrArg Int32.ofBitVec (decode_encode v.toBitVec)).symm⟩

theorem accepts_readInt64 : readInt64.Accepts Form64 := by
  refine (Varint.accepts_readUInt64.bind_pure fun u => Int64.ofBitVec (decode u.toBitVec)).congr ?_
  intro bytes v
  constructor
  · rintro ⟨u, form, rfl⟩
    show Varint.Form64 bytes (encode (decode u.toBitVec)).toNat
    rwa [encode_decode]
  · intro form
    exact ⟨UInt64.ofBitVec (encode v.toBitVec), form,
      (congrArg Int64.ofBitVec (decode_encode v.toBitVec)).symm⟩

end Zigzag

/-! ## Lengths in front -/

namespace Prefixed

/-- The forms of a length of two bytes: any negative one stands for zero. -/
def Length16 (bytes : Bytes) (n : Nat) : Prop :=
  ∃ k : Int16, Word.Form bytes k ∧ (k < 0 ∧ n = 0 ∨ k.toInt = n)

/-- The forms of a length of four bytes: any negative one stands for zero. -/
def Length32 (bytes : Bytes) (n : Nat) : Prop :=
  ∃ k : Int32, Word.Form bytes k ∧ (k < 0 ∧ n = 0 ∨ k.toInt = n)

/-- The forms of a compact length: zero stands for zero, and so does one. -/
def CompactLength (bytes : Bytes) (n : Nat) : Prop :=
  ∃ k, Varint.Form32 bytes k ∧ (k = 0 ∧ n = 0 ∨ k = n + 1)

/-- Bytes behind their number. -/
def Behind (length : Bytes → Nat → Prop) (bytes value : Bytes) : Prop :=
  ∃ front, bytes = front ++ value ∧ length front value.length

/-- Text behind the number of its bytes; what they are is decided by decoding. -/
def TextBehind (length : Bytes → Nat → Prop) (bytes : Bytes) (s : String) : Prop :=
  ∃ text, Behind length bytes text ∧ s = Utf8.decode text

/-- A collection behind the number of its elements. -/
def RowBehind {α : Type} (length : Bytes → Nat → Prop) (form : Bytes → α → Prop) (bytes : Bytes)
    (as : List α) : Prop :=
  ∃ front pieces, bytes = front ++ pieces.flatten ∧ length front as.length ∧
    List.Forall₂ form pieces as

/-- A length of two bytes is not negative, or it stands for an empty text. -/
theorem accepts_readLength16 : readLength16.Accepts Length16 := by
  refine (Word.accepts_read.bind_pure Int16.toNatClampNeg).congr ?_
  intro bytes n
  refine exists_congr fun k => and_congr_right fun _ => ?_
  rw [← Int16.toNat_toInt, Int16.lt_iff_toInt_lt, Int16.toInt_zero]
  omega

/-- A length of four bytes is not negative, or it stands for an empty row. -/
theorem accepts_readLength32 : readLength32.Accepts Length32 := by
  refine (Word.accepts_read.bind_pure Int32.toNatClampNeg).congr ?_
  intro bytes n
  refine exists_congr fun k => and_congr_right fun _ => ?_
  rw [← Int32.toNat_toInt, Int32.lt_iff_toInt_lt, Int32.toInt_zero]
  omega

/-- A compact length is one more than it says, or zero for null. -/
theorem accepts_readCompactLength : readCompactLength.Accepts CompactLength := by
  refine (Varint.accepts_readUInt32.bind_pure fun k => k.toNat - 1).congr ?_
  intro bytes n
  constructor
  · rintro ⟨k, form, rfl⟩
    exact ⟨k.toNat, form, by omega⟩
  · rintro ⟨k, form, counted⟩
    have below : k < UInt32.size := form.2.2
    refine ⟨UInt32.ofNat k, ?_, ?_⟩
    · rwa [UInt32.toNat_ofNat_of_lt' below]
    · rw [UInt32.toNat_ofNat_of_lt' below]
      omega

section

variable {α : Type} {length : Reader Nat} {form : Bytes → Nat → Prop}

/-- Behind a form of their length any bytes are accepted. -/
theorem accepts_behind (h : length.Accepts form) :
    (length >>= take).Accepts (Behind form) := by
  refine (h.bind accepts_take).congr ?_
  intro bytes value
  constructor
  · rintro ⟨_, front, second, rfl, formed, rfl, rfl⟩
    exact ⟨front, rfl, formed⟩
  · rintro ⟨front, rfl, formed⟩
    exact ⟨value.length, front, value, rfl, formed, rfl, rfl⟩

/-- Behind a form of its length any bytes are read as text. -/
theorem accepts_textBehind (h : length.Accepts form) :
    (do let bytes ← length >>= take; pure (Utf8.decode bytes)).Accepts (TextBehind form) :=
  (accepts_behind h).bind_pure Utf8.decode

/-- Behind a form of its length a row is the forms of its elements. -/
theorem accepts_rowBehind (h : length.Accepts form) {r : Reader α} {form' : Bytes → α → Prop}
    (hr : r.Accepts form') :
    (length >>= fun n => times n r).Accepts (RowBehind form form') := by
  refine (h.bind fun n => hr.times n).congr ?_
  intro bytes as
  constructor
  · rintro ⟨n, front, _, rfl, formed, pieces, rfl, formed', rfl⟩
    exact ⟨front, pieces, rfl, formed, formed'⟩
  · rintro ⟨front, pieces, rfl, formed, formed'⟩
    exact ⟨as.length, front, pieces.flatten, rfl, formed, pieces, rfl, formed', rfl⟩

end

/-- The forms of a value that can be null: any negative length says that it is. -/
def NullableBytes (bytes : Bytes) (value : Option Bytes) : Prop :=
  (∃ k, k < 0 ∧ value = none ∧ Zigzag.Form32 bytes k) ∨
    ∃ present, value = some present ∧
      Behind (fun front n => ∃ k : Int32, Zigzag.Form32 front k ∧ k.toInt = n) bytes present

/-- A negative length is the whole form, and any other one stands in front of the bytes. -/
theorem accepts_readNullableBytes : readNullableBytes.Accepts NullableBytes := by
  refine (Zigzag.accepts_readInt32.bind fun k =>
    (accepts_pure none).ite ((accepts_take k.toNatClampNeg).bind_pure some)).congr ?_
  intro bytes value
  constructor
  · rintro ⟨k, front, _, rfl, formed, choice⟩
    split at choice
    next negative =>
      obtain ⟨rfl, rfl⟩ := choice
      rw [List.append_nil]
      exact .inl ⟨k, negative, rfl, formed⟩
    next nonneg =>
      obtain ⟨present, ⟨rfl, size⟩, rfl⟩ := choice
      refine .inr ⟨present, rfl, front, rfl, k, formed, ?_⟩
      rw [Int32.lt_iff_toInt_lt, Int32.toInt_zero] at nonneg
      rw [size, ← Int32.toNat_toInt, Int.toNat_of_nonneg (Int.not_lt.mp nonneg)]
  · rintro (⟨k, negative, rfl, formed⟩ | ⟨present, rfl, front, rfl, k, formed, counted⟩)
    · refine ⟨k, bytes, [], (List.append_nil _).symm, formed, ?_⟩
      rw [if_pos negative]
      exact ⟨rfl, rfl⟩
    · refine ⟨k, front, present, rfl, formed, ?_⟩
      have nonneg : ¬ k < 0 := by
        rw [Int32.lt_iff_toInt_lt, counted]
        exact Int.not_lt.mpr (Int.natCast_nonneg _)
      rw [if_neg nonneg]
      exact ⟨present, ⟨rfl, by rw [← Int32.toNat_toInt, counted, Int.toNat_natCast]⟩, rfl⟩

end Prefixed

/-! ## Layouts -/

/-- The forms of a single value. -/
@[simp] def Primitive.Form {α : Type} : Primitive α → Bytes → α → Prop
  | uint8 | int8 | int16 | int32 | uint32 | int64 | uuid => Word.Form
  | bool => fun taken b => ∃ n : UInt8, Word.Form taken n ∧ b = (n != 0)
  | unsignedVarint => fun taken n => Varint.Form32 taken n.toNat
  | unsignedVarlong => fun taken n => Varint.Form64 taken n.toNat
  | varint => Zigzag.Form32
  | varlong => Zigzag.Form64
  | bytes => Prefixed.Behind Prefixed.Length32
  | nullableString => Prefixed.TextBehind Prefixed.Length16
  | compactString => Prefixed.TextBehind Prefixed.CompactLength
  | nullableBytes => Prefixed.NullableBytes
  | marker m => fun taken _ => taken = [m.byte]

/-- The forms of a structure. -/
@[simp] def Layout.Form {α : Type} : Layout α → Bytes → α → Prop
  | primitive p => p.Form
  | andThen first second => fun bytes ab =>
    ∃ x, first.Form x ab.1 ∧ ∃ y, second.Form y ab.2 ∧ x ++ y = bytes
  | packed fields packing => fun bytes b => fields.Form bytes (packing.fields b)
  | array element => Prefixed.RowBehind Prefixed.Length32 element.Form
  | compactArray element => Prefixed.RowBehind Prefixed.CompactLength element.Form

/-- A marker has one form. -/
theorem Primitive.accepts_readMarker (m : Marker) :
    (readMarker m).Accepts fun bytes _ => bytes = [m.byte] := by
  intro bs _ rest
  constructor
  · intro h
    exact ⟨_, eq_of_readMarker h, rfl⟩
  · rintro ⟨_, rfl, rfl⟩
    exact takes_marker m rest

/-- **Primitives are read just from their forms.** -/
theorem Primitive.accepts_read {α : Type} : (p : Primitive α) → p.read.Accepts p.Form
  | uint8 | int8 | int16 | int32 | uint32 | int64 | uuid => Word.accepts_read
  | bool => Word.accepts_read.bind_pure (· != 0)
  | unsignedVarint => Varint.accepts_readUInt32
  | unsignedVarlong => Varint.accepts_readUInt64
  | varint => Zigzag.accepts_readInt32
  | varlong => Zigzag.accepts_readInt64
  | bytes => Prefixed.accepts_behind Prefixed.accepts_readLength32
  | nullableString => Prefixed.accepts_textBehind Prefixed.accepts_readLength16
  | compactString => Prefixed.accepts_textBehind Prefixed.accepts_readCompactLength
  | nullableBytes => Prefixed.accepts_readNullableBytes
  | marker m => accepts_readMarker m

/-- **The reader of a layout accepts its grammar.** -/
theorem Layout.accepts_read {α : Type} : (l : Layout α) → l.read.Accepts l.Form
  | primitive p => p.accepts_read
  | andThen first second => by
    refine (first.accepts_read.bind fun a => second.accepts_read.bind_pure fun b => (a, b)).congr ?_
    intro bytes ab
    constructor
    · rintro ⟨a, x, y, rfl, hx, b, hy, rfl⟩
      exact ⟨x, hx, y, hy, rfl⟩
    · rintro ⟨x, hx, y, hy, rfl⟩
      exact ⟨ab.1, x, y, rfl, hx, ab.2, hy, rfl⟩
  | packed fields packing => by
    refine (fields.accepts_read.bind_pure packing.pack).congr ?_
    intro bytes b
    constructor
    · rintro ⟨a, ha, rfl⟩
      show fields.Form bytes (packing.fields (packing.pack a))
      rwa [packing.fields_pack]
    · intro h
      exact ⟨packing.fields b, h, (packing.pack_fields b).symm⟩
  | array element => Prefixed.accepts_rowBehind Prefixed.accepts_readLength32 element.accepts_read
  | compactArray element =>
    Prefixed.accepts_rowBehind Prefixed.accepts_readCompactLength element.accepts_read

/-! ## Markers behind a structure -/

@[simp] theorem Layout.form_closedBy {α : Type} (l : Layout α) (m : Marker) (bytes : Bytes)
    (a : α) :
    (l.closedBy m).Form bytes a ↔ ∃ front, l.Form front a ∧ front ++ [m.byte] = bytes := by
  simp [closedBy]

@[simp] theorem Layout.form_tagged {α : Type} (l : Layout α) (bytes : Bytes) (a : α) :
    (tagged l).Form bytes a ↔ ∃ front, l.Form front a ∧ front ++ [0x00] = bytes :=
  l.form_closedBy .tagged bytes a

end LogBroker.Wire
