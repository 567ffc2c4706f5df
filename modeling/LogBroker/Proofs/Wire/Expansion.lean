import LogBroker.Proofs.Wire.Grammar
import LogBroker.Proofs.Wire.Sizes

/-!
# What writing can add

A value that was read need not be written in the bytes that it was read from, and it can take
more of them: a byte that is no text is written as a replacement character of three bytes, and
with the text its length grows. Nothing else grows, and three for one is the most.

* `Utf8.length_encode_decode_le`: reading text makes at most three bytes of one. A sequence
  that has begun counts three already, as it may have to be replaced, and so the step that
  completes it with a character of four bytes adds one only.
* `Layout.size_le_of_read`: so does reading any structure.

A length that was read can be written again, because it came out of a field of the same kind;
only that of text is a new one. Main statement: what was read from `2 ^ 30` bytes fits, as long
as the structure has no text behind a length of two bytes (`Layout.fits_of_form`).
-/

namespace LogBroker

/-! ## Text -/

namespace Utf8

/-- How many bytes the characters take. -/
def sizeOf (cs : List Char) : Nat := (cs.map Char.utf8Size).sum

@[simp] theorem sizeOf_cons (c : Char) (cs : List Char) :
    sizeOf (c :: cs) = c.utf8Size + sizeOf cs := by
  simp [sizeOf]

@[simp] theorem sizeOf_reverse (cs : List Char) : sizeOf cs.reverse = sizeOf cs := by
  simp [sizeOf]

/-- A text takes the bytes of its characters. -/
theorem length_encode_ofList (cs : List Char) :
    (encode (String.ofList cs)).length = sizeOf cs := by
  simp [encode, sizeOf, List.length_flatMap]

@[simp] theorem utf8Size_replacement : replacement.utf8Size = 3 := by decide

/-- How many bytes the machine has to write so far, if a sequence that has begun is replaced. -/
def weight : Option Partial × List Char → Nat
  | (none, done) => sizeOf done
  | (some _, done) => sizeOf done + 3

theorem utf8Size_ofNat_of_lt : ∀ n < 0x80, (Char.ofNat n).utf8Size = 1 := by decide +kernel

/-- A byte between two characters is a character of one byte, is replaced, or begins a
sequence. -/
theorem weight_readFirst_le (done : List Char) (b : UInt8) :
    weight (readFirst done b) ≤ sizeOf done + 3 := by
  simp only [readFirst]
  split
  next ascii =>
    rw [weight, sizeOf_cons, utf8Size_ofNat_of_lt _ ascii]
    omega
  split
  next => rw [weight, sizeOf_cons, utf8Size_replacement, Nat.add_comm]
  split
  next => exact Nat.le_refl _
  split
  next => exact Nat.le_refl _
  split
  next => exact Nat.le_refl _
  next => rw [weight, sizeOf_cons, utf8Size_replacement, Nat.add_comm]

/-- A byte within a sequence completes a character or goes on. Otherwise the sequence is replaced,
which was counted when it began. -/
theorem weight_readNext_le (p : Partial) (done : List Char) (b : UInt8) :
    weight (readNext p done b) ≤ sizeOf done + 3 + 3 := by
  simp only [readNext]
  split
  next =>
    split
    next =>
      have most := (Char.ofNat (p.bits * 64 + b.toNat % 64)).utf8Size_le_four
      rw [weight, sizeOf_cons]
      omega
    next => exact Nat.le_add_right _ _
  next =>
    have replaced := weight_readFirst_le (replacement :: done) b
    rw [sizeOf_cons, utf8Size_replacement] at replaced
    omega

/-- A byte adds a replacement character at most. -/
theorem weight_step_le (state : Option Partial × List Char) (b : UInt8) :
    weight (step state b) ≤ weight state + 3 := by
  obtain ⟨_ | p, done⟩ := state
  · exact weight_readFirst_le done b
  · exact weight_readNext_le p done b

/-- So do all bytes together. -/
theorem weight_foldl_step_le (state : Option Partial × List Char) (bs : Bytes) :
    weight (bs.foldl step state) ≤ weight state + 3 * bs.length := by
  induction bs generalizing state with
  | nil => exact Nat.le_refl _
  | cons b bs ih =>
    have first := weight_step_le state b
    have others := ih (step state b)
    rw [List.foldl_cons, List.length_cons]
    omega

/-- What is not complete at the end has been counted as a replacement. -/
theorem sizeOf_finish (state : Option Partial × List Char) :
    sizeOf (finish state) = weight state := by
  obtain ⟨_ | p, done⟩ := state
  · exact sizeOf_reverse done
  · rw [finish, sizeOf_reverse, sizeOf_cons, utf8Size_replacement, Nat.add_comm]
    rfl

/-- **A byte makes three at most.** -/
theorem length_encode_decode_le (bs : Bytes) :
    (encode (decode bs)).length ≤ 3 * bs.length := by
  have run := weight_foldl_step_le (none, []) bs
  have start : weight (none, []) = 0 := rfl
  rw [decode, length_encode_ofList, sizeOf_finish]
  omega

end Utf8

namespace Wire

open Reader

/-! ## Lengths in front -/

namespace Prefixed

theorem length_writeLength16 (n : Nat) : (writeLength16 n).length = 2 := Word.length_write _

theorem length_writeLength32 (n : Nat) : (writeLength32 n).length = 4 := Word.length_write _

/-- A length that is not negative is the number that it counts. -/
theorem ofNat_of_toInt_eq {k : Int32} {n : Nat} (h : k.toInt = n) : Int32.ofNat n = k := by
  have bound := k.toInt_lt
  apply Int32.toInt_inj.mp
  rw [Int32.toInt_ofNat_of_lt (by omega), h]

section

variable {bytes : Bytes} {n : Nat}

theorem Length16.length_eq (h : Length16 bytes n) : bytes.length = 2 := by
  obtain ⟨k, rfl, -⟩ := h
  exact Word.length_write k

theorem Length32.length_eq (h : Length32 bytes n) : bytes.length = 4 := by
  obtain ⟨k, rfl, -⟩ := h
  exact Word.length_write k

/-- A length of four bytes leaves the sign bit free. -/
theorem Length32.lt (h : Length32 bytes n) : n < 2 ^ 31 := by
  obtain ⟨k, -, counted⟩ := h
  have bound := k.toInt_lt
  omega

/-- A compact length has a word for the next number. -/
theorem CompactLength.succ_lt (h : CompactLength bytes n) : n + 1 < 2 ^ 32 := by
  obtain ⟨k, ⟨-, -, bound⟩, counted⟩ := h
  omega

/-- A compact length is written in no more bytes than it was read from. -/
theorem CompactLength.length_write_le (h : CompactLength bytes n) :
    (writeCompactLength n).length ≤ bytes.length := by
  have bound := h.succ_lt
  obtain ⟨k, ⟨spelled, -, -⟩, ⟨rfl, rfl⟩ | rfl⟩ := h
  · rw [length_writeCompactLength_zero]
    exact spelled.length_pos
  · rw [writeCompactLength, Varint.writeUInt32, UInt32.toNat_ofNat_of_lt' bound]
    exact spelled.length_write_le

/-- The length of text can take more. Two bytes are enough for what came out of one, and five
are always enough. -/
theorem CompactLength.length_write_le_of_le (h : CompactLength bytes n) {m : Nat}
    (hm : m ≤ 3 * n) : (writeCompactLength m).length ≤ 3 * bytes.length := by
  obtain ⟨k, ⟨spelled, -, -⟩, counted⟩ := h
  rcases Nat.lt_or_ge 1 bytes.length with long | short
  · have most := length_writeCompactLength_le m
    omega
  · have one : bytes.length = 1 := Nat.le_antisymm short spelled.length_pos
    have below := spelled.lt
    rw [one] at below ⊢
    have small : m + 1 < 128 ^ (1 + 1) := by omega
    have fits : m + 1 < UInt32.size := Nat.lt_trans small (by decide)
    rw [writeCompactLength, Varint.writeUInt32, UInt32.toNat_ofNat_of_lt' fits]
    exact Nat.le_succ_of_le (Varint.length_write_le small)

end

end Prefixed

/-! ## Single values -/

/-- It is text behind a length of two bytes. -/
def Primitive.isShortText {α : Type} : Primitive α → Bool
  | nullableString => true
  | _ => false

/-- A primitive grows threefold at most. -/
theorem Primitive.length_write_le_of_form {α : Type} (p : Primitive α) {bytes : Bytes} {a : α}
    (h : p.Form bytes a) : (p.write a).length ≤ 3 * bytes.length := by
  cases p with
  | uint8 | int8 | int16 | int32 | uint32 | int64 | uuid =>
    obtain rfl : bytes = Word.write a := h
    exact Nat.le_mul_of_pos_left _ (by decide)
  | bool =>
    obtain ⟨n, rfl, rfl⟩ := h
    rw [write, Word.length_write, Word.length_write]
    exact Nat.le_mul_of_pos_left _ (by decide)
  | unsignedVarint | unsignedVarlong | varint | varlong =>
    exact Nat.le_trans h.1.length_write_le (Nat.le_mul_of_pos_left _ (by decide))
  | bytes =>
    obtain ⟨front, rfl, counted⟩ := h
    rw [write, Prefixed.writeBytes, List.length_append, List.length_append,
      Prefixed.length_writeLength32, counted.length_eq]
    omega
  | nullableString =>
    obtain ⟨text, ⟨front, rfl, counted⟩, rfl⟩ := h
    have grown := Utf8.length_encode_decode_le text
    rw [write, Prefixed.writeString16, List.length_append, List.length_append,
      Prefixed.length_writeLength16, counted.length_eq]
    omega
  | compactString =>
    obtain ⟨text, ⟨front, rfl, counted⟩, rfl⟩ := h
    have grown := Utf8.length_encode_decode_le text
    have length := counted.length_write_le_of_le grown
    rw [write, Prefixed.writeCompactString, List.length_append, List.length_append]
    omega
  | nullableBytes =>
    rcases h with ⟨k, -, rfl, spelled, -⟩ | ⟨present, rfl, front, rfl, k, ⟨spelled, -⟩, counted⟩
    · have one : (Zigzag.writeInt32 (-1)).length = 1 := by decide +kernel
      have some := spelled.length_pos
      rw [write, Prefixed.writeNullableBytes, one]
      omega
    · have length : (Zigzag.writeInt32 k).length ≤ front.length := spelled.length_write_le
      rw [write, Prefixed.writeNullableBytes, Prefixed.ofNat_of_toInt_eq counted,
        List.length_append, List.length_append]
      omega
  | marker m =>
    obtain rfl : bytes = [m.byte] := h
    exact Nat.le_mul_of_pos_left 1 (by decide)

theorem Primitive.fits_of_form {α : Type} (p : Primitive α) (long : p.isShortText = false)
    {bytes : Bytes} {a : α} (h : p.Form bytes a) (small : bytes.length ≤ 2 ^ 30) : p.Fits a := by
  cases p with
  | uint8 | int8 | bool | int16 | int32 | uint32 | int64 | uuid => trivial
  | unsignedVarint | unsignedVarlong | varint | varlong | marker _ => trivial
  | bytes =>
    obtain ⟨front, rfl, counted⟩ := h
    exact counted.lt
  | nullableString => cases long
  | compactString =>
    obtain ⟨text, ⟨front, rfl, -⟩, rfl⟩ := h
    have grown := Utf8.length_encode_decode_le text
    rw [List.length_append] at small
    show (Utf8.encode (Utf8.decode text)).length + 1 < 2 ^ 32
    omega
  | nullableBytes =>
    rcases h with ⟨k, -, rfl, -⟩ | ⟨present, rfl, front, rfl, k, -, counted⟩
    · rintro _ ⟨⟩
    · rintro _ ⟨⟩
      have bound := k.toInt_lt
      omega

/-! ## Structures -/

/-- Somewhere in the structure is text behind a length of two bytes. -/
def Layout.hasShortText {α : Type} : Layout α → Bool
  | primitive p => p.isShortText
  | andThen first second => first.hasShortText || second.hasShortText
  | packed fields _ => fields.hasShortText
  | array element | compactArray element => element.hasShortText

section

variable {α : Type} {form : Bytes → α → Prop} {pieces : List Bytes} {as : List α}

/-- What holds of each piece holds of all of them together. -/
theorem sum_map_le_of_forms {size : α → Nat}
    (each : ∀ bytes a, form bytes a → size a ≤ 3 * bytes.length)
    (h : List.Forall₂ form pieces as) : (as.map size).sum ≤ 3 * pieces.flatten.length := by
  induction h with
  | nil => exact Nat.le_refl 0
  | cons first _ ih =>
    have one := each _ _ first
    rw [List.map_cons, List.sum_cons, List.flatten_cons, List.length_append]
    omega

/-- No piece is longer than all of them together. -/
theorem forall_of_forms {P : α → Prop} {bound : Nat}
    (each : ∀ bytes a, form bytes a → bytes.length ≤ bound → P a)
    (h : List.Forall₂ form pieces as) (small : pieces.flatten.length ≤ bound) :
    ∀ a ∈ as, P a := by
  induction h with
  | nil => simp
  | cons first _ ih =>
    rw [List.flatten_cons, List.length_append] at small
    rw [List.forall_mem_cons]
    exact ⟨each _ _ first (by omega), ih (by omega)⟩

end

namespace Layout

/-- **A structure makes three bytes of one at most.** -/
theorem size_le_of_form {α : Type} (l : Layout α) {bytes : Bytes} {a : α} (h : l.Form bytes a) :
    l.size a ≤ 3 * bytes.length := by
  induction l generalizing bytes with
  | primitive p => exact p.length_write_le_of_form h
  | andThen first second ih₁ ih₂ =>
    obtain ⟨a, b⟩ := a
    obtain ⟨x, hx, y, hy, rfl⟩ := h
    have one : first.size a ≤ 3 * x.length := ih₁ hx
    have other : second.size b ≤ 3 * y.length := ih₂ hy
    rw [size_andThen, List.length_append]
    omega
  | packed fields packing ih => exact ih h
  | array element ih =>
    obtain ⟨front, pieces, rfl, counted, formed⟩ := h
    have elements : (a.map element.size).sum ≤ 3 * pieces.flatten.length :=
      sum_map_le_of_forms (fun _ _ => ih) formed
    rw [size_array, List.length_append, counted.length_eq]
    omega
  | compactArray element ih =>
    obtain ⟨front, pieces, rfl, counted, formed⟩ := h
    have elements : (a.map element.size).sum ≤ 3 * pieces.flatten.length :=
      sum_map_le_of_forms (fun _ _ => ih) formed
    have count := counted.length_write_le
    rw [size_compactArray, List.length_append]
    omega

/-- **What was read from few bytes fits**, unless a new length of text has only two bytes. -/
theorem fits_of_form {α : Type} (l : Layout α) (long : l.hasShortText = false) {bytes : Bytes}
    {a : α} (h : l.Form bytes a) (small : bytes.length ≤ 2 ^ 30) : l.Fits a := by
  induction l generalizing bytes with
  | primitive p => exact p.fits_of_form long h small
  | andThen first second ih₁ ih₂ =>
    obtain ⟨a, b⟩ := a
    obtain ⟨long₁, long₂⟩ := Bool.or_eq_false_iff.mp long
    obtain ⟨x, hx, y, hy, rfl⟩ := h
    rw [List.length_append] at small
    exact ⟨ih₁ long₁ hx (by omega), ih₂ long₂ hy (by omega)⟩
  | packed fields packing ih => exact ih long h small
  | array element ih =>
    obtain ⟨front, pieces, rfl, counted, formed⟩ := h
    rw [List.length_append] at small
    exact ⟨counted.lt, forall_of_forms (fun _ _ => ih long) formed (by omega)⟩
  | compactArray element ih =>
    obtain ⟨front, pieces, rfl, counted, formed⟩ := h
    rw [List.length_append] at small
    exact ⟨counted.succ_lt, forall_of_forms (fun _ _ => ih long) formed (by omega)⟩

section

variable {α : Type} (l : Layout α) {bs rest : Bytes} {a : α}

theorem size_le_of_read (h : l.read bs = (.ok a, rest)) :
    l.size a + 3 * rest.length ≤ 3 * bs.length := by
  obtain ⟨bytes, rfl, formed⟩ := (l.accepts_read bs a rest).mp h
  have grown := l.size_le_of_form formed
  rw [List.length_append]
  omega

/-- What was read from few bytes is read back when it is written. -/
theorem takes_write_of_read (long : l.hasShortText = false) (small : bs.length ≤ 2 ^ 30)
    (h : l.read bs = (.ok a, rest)) : l.read.Takes (l.write a) a := by
  obtain ⟨bytes, rfl, formed⟩ := (l.accepts_read bs a rest).mp h
  rw [List.length_append] at small
  exact l.takes_write (l.fits_of_form long formed (by omega))

end

end Layout

end Wire

end LogBroker
