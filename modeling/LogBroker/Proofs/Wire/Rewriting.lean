import LogBroker.Proofs.Wire.Decision
import LogBroker.Proofs.Wire.Groups
import LogBroker.Proofs.Wire.RoundTrip

/-!
# Writing again what was read

Where the format leaves a choice, reading forgets which one was made. What a log is made of
leaves three: a variable-length number may have more groups than it needs, every negative
length of a value says that it is null, and every negative count says that there is nothing.
`Layout.spellings` lists the choices that an input made, in the order in which they stand
there, and `Spelling.Canonical` says which of them are those that writing makes.

Main statement: what was read is written in no more bytes, and in the same bytes just if all
choices were canonical (`Layout.rewrites_of_read`). A choice that was not makes its own field
shorter or of other bytes, and nothing that follows makes up for it, because no field gets
longer (`Rewrites.append`).
-/

namespace LogBroker.Wire

open Reader

/-! ## Choices -/

/-- A choice that an input made. -/
inductive Spelling where
  /-- a variable-length number stands there in these groups -/
  | groups (bytes : Bytes)
  /-- this is the length of a value -/
  | valueLength (n : Int32)
  /-- this is the count of a collection, in four bytes -/
  | count (n : Int32)
deriving DecidableEq, Repr

/-- The choice is the one that writing makes: the shortest form of a number, `-1` for a null
value, and no negative count. -/
def Spelling.Canonical : Spelling → Prop
  | groups bytes => Varint.Shortest bytes
  | valueLength n => n < 0 → n = -1
  | count n => ¬ n < 0

/-- What a log is made of: there is no text and no truth value in it, and no compact count. -/
def Primitive.Stored {α : Type} : Primitive α → Prop
  | bool | bytes | nullableString | compactString => False
  | uint8 | int8 | int16 | int32 | uint32 | int64 | uuid => True
  | unsignedVarint | unsignedVarlong | varint | varlong | nullableBytes | marker _ => True

/-- The structure is made of what a log is made of. -/
def Layout.Stored {α : Type} : Layout α → Prop
  | primitive p => p.Stored
  | andThen first second => first.Stored ∧ second.Stored
  | packed fields _ => fields.Stored
  | array element => element.Stored
  | compactArray _ => False

/-- The choices in the field that an input begins with. -/
def Primitive.spellings {α : Type} : Primitive α → Bytes → List Spelling
  | unsignedVarint, bs | unsignedVarlong, bs | varint, bs | varlong, bs =>
    [.groups (Varint.groups bs)]
  | nullableBytes, bs =>
    .groups (Varint.groups bs) ::
      match Zigzag.readInt32 bs with
      | (.ok n, _) => [.valueLength n]
      | (.error _, _) => []
  | _, _ => []

/-- The choices in `n` elements, of which the first stands in front; `r` finds the next. -/
def spellingsOfTimes {α : Type} (r : Reader α) (spellings : Bytes → List Spelling) :
    Nat → Bytes → List Spelling
  | 0, _ => []
  | n + 1, bs => spellings bs ++ spellingsOfTimes r spellings n (r bs).2

/-- The choices in the structure that an input begins with. -/
def Layout.spellings {α : Type} : Layout α → Bytes → List Spelling
  | primitive p, bs => p.spellings bs
  | andThen first second, bs => first.spellings bs ++ second.spellings (first.read bs).2
  | packed fields _, bs => fields.spellings bs
  | array element, bs =>
    match (Word.read : Reader Int32) bs with
    | (.ok n, rest) =>
      .count n :: spellingsOfTimes element.read element.spellings n.toNatClampNeg rest
    | (.error _, _) => []
  | compactArray _, _ => []

/-! ## Taken and written -/

/-- For `taken` were read values that are written as `written`: this is no longer, and it is
the same just if all choices in `taken` are canonical. -/
structure Rewrites (taken written : Bytes) (choices : List Spelling) : Prop where
  /-- nothing gets longer -/
  length_le : written.length ≤ taken.length
  /-- only the choices matter -/
  eq_iff : written = taken ↔ ∀ s ∈ choices, s.Canonical

theorem Rewrites.refl (taken : Bytes) : Rewrites taken taken [] :=
  ⟨Nat.le_refl _, by simp⟩

/-- Fields in a row are written as they were taken just if each of them is: what one of them
loses in length the other one does not gain. -/
theorem Rewrites.append {taken taken' written written' : Bytes} {choices choices' : List Spelling}
    (h : Rewrites taken written choices) (h' : Rewrites taken' written' choices') :
    Rewrites (taken ++ taken') (written ++ written') (choices ++ choices') := by
  have shorter := h.length_le
  have shorter' := h'.length_le
  constructor
  · rw [List.length_append, List.length_append]
    omega
  · rw [List.forall_mem_append, ← h.eq_iff, ← h'.eq_iff]
    constructor
    · intro same
      have lengths := congrArg List.length same
      rw [List.length_append, List.length_append] at lengths
      exact List.append_inj same (by omega)
    · rintro ⟨rfl, rfl⟩
      rfl

/-- A choice that is canonical makes no difference. -/
theorem Rewrites.of_canonical (taken : Bytes) {s : Spelling} (h : s.Canonical) :
    Rewrites taken taken [s] :=
  ⟨Nat.le_refl _, by simp [h]⟩

/-! ## Fields -/

theorem Reader.take_eq_ok {n : Nat} {bs rest bytes : Bytes} (h : take n bs = (.ok bytes, rest)) :
    bs = bytes ++ rest ∧ bytes.length = n := by
  rw [take_eq] at h
  split at h
  next enough =>
    cases h
    rw [List.take_append_drop, List.length_take, Nat.min_eq_left enough]
    exact ⟨rfl, rfl⟩
  next => cases h

theorem Word.write_injective {α : Type} [Word α] {a b : α} (h : Word.write a = Word.write b) :
    a = b := by
  have read := (Word.takes_write a).eq
  rw [h, (Word.takes_write b).eq] at read
  exact (Except.ok.inj (Prod.mk.inj read).1).symm

/-- A word is read from the bytes that are written for it. -/
theorem Word.eq_write_of_read {α : Type} [Word α] {bs rest : Bytes} {a : α}
    (h : Word.read bs = (.ok a, rest)) : bs = Word.write a ++ rest := by
  obtain ⟨bytes, mid, taken, answer⟩ := bind_eq_ok h
  obtain ⟨rfl, size⟩ := take_eq_ok taken
  cases answer
  have bound := BigEndian.ofBytes_lt bytes
  have written := BigEndian.toBytes_ofBytes bytes
  rw [size] at bound written
  rw [Word.write, Word.toNat_ofNat _ bound, written]

theorem Varint.Spells.rewrites {bytes : Bytes} {n : Nat} (h : Spells bytes n) :
    Rewrites bytes (write n) [.groups bytes] := by
  refine ⟨h.length_write_le, ?_⟩
  rw [List.forall_mem_singleton]
  exact h.write_eq_iff

namespace Prefixed

/-- A length that is not negative is written as it was read. -/
theorem ofNat_toNatClampNeg {n : Int32} (h : ¬ n < 0) : Int32.ofNat n.toNatClampNeg = n := by
  have nonneg : 0 ≤ n.toInt := by
    rw [Int32.lt_iff_toInt_lt] at h
    exact Int.not_lt.mp h
  apply Int32.toInt_inj.mp
  rw [Int32.toInt_ofNat_of_lt (Int32.toNatClampNeg_lt n)]
  exact Int.toNat_of_nonneg nonneg

theorem rewrites_count (n : Int32) :
    Rewrites (Word.write n) (writeLength32 n.toNatClampNeg) [.count n] := by
  rw [writeLength32]
  constructor
  · rw [Word.length_write, Word.length_write]
  · rw [List.forall_mem_singleton]
    constructor
    · intro same negative
      rw [← Word.write_injective same] at negative
      exact not_ofNat_neg (Int32.toNatClampNeg_lt n) negative
    · intro nonneg
      rw [ofNat_toNatClampNeg nonneg]

section

variable {bs mid : Bytes} {n : Int32}

/-- Null is written as the length `-1`, whatever negative length stood for it. -/
theorem rewrites_null (h : Zigzag.readInt32 bs = (.ok n, mid)) (negative : n < 0) :
    Rewrites (Varint.groups bs) (writeNullableBytes none)
      [.groups (Varint.groups bs), .valueLength n] := by
  obtain ⟨whole, spelled⟩ := Zigzag.spells_of_readInt32 h
  have one : (Zigzag.writeInt32 (-1)).length = 1 := by decide +kernel
  rw [writeNullableBytes]
  constructor
  · rw [one]
    exact spelled.length_pos
  · rw [List.forall_mem_cons, List.forall_mem_singleton]
    constructor
    · intro same
      rw [whole, ← same, Zigzag.takes_writeInt32 (-1) mid] at h
      cases h
      exact ⟨spelled.write_eq_iff.mp same, fun _ => rfl⟩
    · rintro ⟨shortest, null⟩
      obtain rfl := null negative
      exact spelled.write_eq_iff.mpr shortest

/-- The length of a value that is there can be padded, and nothing else. -/
theorem rewrites_notNull (h : Zigzag.readInt32 bs = (.ok n, mid)) (nonneg : ¬ n < 0)
    {bytes : Bytes} (size : bytes.length = n.toNatClampNeg) :
    Rewrites (Varint.groups bs ++ bytes) (writeNullableBytes (some bytes))
      [.groups (Varint.groups bs), .valueLength n] := by
  obtain ⟨_, spelled⟩ := Zigzag.spells_of_readInt32 h
  rw [writeNullableBytes, size, ofNat_toNatClampNeg nonneg]
  exact spelled.rewrites.append
    (.of_canonical bytes fun negative => absurd negative nonneg)

end

theorem rewrites_of_readNullableBytes {bs rest : Bytes} {value : Option Bytes}
    (h : readNullableBytes bs = (.ok value, rest)) :
    ∃ taken, bs = taken ++ rest ∧ (∀ present ∈ value, present.length < 2 ^ 31) ∧
      Rewrites taken (writeNullableBytes value) (Primitive.nullableBytes.spellings bs) := by
  obtain ⟨n, mid, hn, hv⟩ := bind_eq_ok h
  obtain ⟨whole, _⟩ := Zigzag.spells_of_readInt32 hn
  simp only [Primitive.spellings, hn]
  split at hv
  next negative =>
    cases hv
    exact ⟨_, whole, by simp, rewrites_null hn negative⟩
  next nonneg =>
    obtain ⟨bytes, left, ht, hp⟩ := bind_eq_ok hv
    cases hp
    obtain ⟨rfl, size⟩ := take_eq_ok ht
    refine ⟨Varint.groups bs ++ bytes, ?_, ?_, rewrites_notNull hn nonneg size⟩
    · rw [List.append_assoc, ← whole]
    · rintro present ⟨⟩
      rw [size]
      exact Int32.toNatClampNeg_lt n

end Prefixed

theorem Primitive.eq_of_readMarker {m : Marker} {bs rest : Bytes}
    (h : readMarker m bs = (.ok (), rest)) : bs = [m.byte] ++ rest := by
  obtain ⟨b, mid, hb, hm⟩ := bind_eq_ok h
  split at hm
  next same =>
    cases hm
    subst same
    cases bs with
    | nil => cases hb
    | cons c cs => cases hb; rfl
  next => cases hm

theorem Primitive.rewrites_of_read {α : Type} (p : Primitive α) (stored : p.Stored)
    {bs rest : Bytes} {a : α} (h : p.read bs = (.ok a, rest)) :
    ∃ taken, bs = taken ++ rest ∧ p.Fits a ∧ Rewrites taken (p.write a) (p.spellings bs) := by
  cases p with
  | uint8 | int8 | int16 | int32 | uint32 | int64 | uuid =>
    exact ⟨Word.write a, Word.eq_write_of_read h, trivial, .refl _⟩
  | unsignedVarint =>
    obtain ⟨whole, spelled⟩ := Varint.spells_of_readUInt32 h
    exact ⟨_, whole, trivial, spelled.rewrites⟩
  | unsignedVarlong =>
    obtain ⟨whole, spelled⟩ := Varint.spells_of_readUInt64 h
    exact ⟨_, whole, trivial, spelled.rewrites⟩
  | varint =>
    obtain ⟨whole, spelled⟩ := Zigzag.spells_of_readInt32 h
    exact ⟨_, whole, trivial, spelled.rewrites⟩
  | varlong =>
    obtain ⟨whole, spelled⟩ := Zigzag.spells_of_readInt64 h
    exact ⟨_, whole, trivial, spelled.rewrites⟩
  | nullableBytes => exact Prefixed.rewrites_of_readNullableBytes h
  | marker m => exact ⟨[m.byte], eq_of_readMarker h, trivial, .refl _⟩
  | bool | bytes | nullableString | compactString => exact absurd stored id

/-! ## Structures -/

/-- The elements of a collection in a row. -/
theorem rewrites_of_times {α : Type} {r : Reader α} {write : α → Bytes}
    {spellings : Bytes → List Spelling} {Fits : α → Prop}
    (each : ∀ {bs rest : Bytes} {a : α}, r bs = (.ok a, rest) →
      ∃ taken, bs = taken ++ rest ∧ Fits a ∧ Rewrites taken (write a) (spellings bs))
    {n : Nat} {bs rest : Bytes} {as : List α} (h : times n r bs = (.ok as, rest)) :
    as.length = n ∧ ∃ taken, bs = taken ++ rest ∧ (∀ a ∈ as, Fits a) ∧
      Rewrites taken (as.flatMap write) (spellingsOfTimes r spellings n bs) := by
  induction n generalizing bs as with
  | zero =>
    cases h
    exact ⟨rfl, [], rfl, by simp, .refl []⟩
  | succ n ih =>
    rw [times_succ] at h
    obtain ⟨a, mid, ha, hmid⟩ := bind_eq_ok h
    obtain ⟨others, left, hothers, hp⟩ := bind_eq_ok hmid
    cases hp
    obtain ⟨taken, rfl, fits, first⟩ := each ha
    obtain ⟨rfl, taken', rfl, fits', behind⟩ := ih hothers
    refine ⟨rfl, taken ++ taken', by rw [List.append_assoc], ?_, ?_⟩
    · exact List.forall_mem_cons.mpr ⟨fits, fits'⟩
    · rw [List.flatMap_cons, spellingsOfTimes, ha]
      exact first.append behind

/-- **What was read is written in no more bytes**, and its lengths fit into their fields. It
is written in the same bytes just if all choices were canonical. -/
theorem Layout.rewrites_of_read {α : Type} (l : Layout α) (stored : l.Stored) {bs rest : Bytes}
    {a : α} (h : l.read bs = (.ok a, rest)) :
    ∃ taken, bs = taken ++ rest ∧ l.Fits a ∧ Rewrites taken (l.write a) (l.spellings bs) := by
  induction l generalizing bs rest with
  | primitive p => exact p.rewrites_of_read stored h
  | andThen first second ih₁ ih₂ =>
    obtain ⟨stored₁, stored₂⟩ := stored
    obtain ⟨a, mid, ha, hmid⟩ := bind_eq_ok h
    obtain ⟨b, left, hb, hp⟩ := bind_eq_ok hmid
    cases hp
    obtain ⟨taken, whole, fits, rewrites⟩ := ih₁ stored₁ ha
    obtain ⟨taken', rfl, fits', rewrites'⟩ := ih₂ stored₂ hb
    refine ⟨taken ++ taken', by rw [List.append_assoc, ← whole], ⟨fits, fits'⟩, ?_⟩
    rw [spellings, ha]
    exact rewrites.append rewrites'
  | packed fields packing ih =>
    obtain ⟨a, mid, ha, hp⟩ := bind_eq_ok h
    cases hp
    rw [Layout.Fits, write, packing.fields_pack]
    exact ih stored ha
  | array element ih =>
    obtain ⟨count, mid, hcount, helements⟩ := bind_eq_ok h
    obtain ⟨n, mid', hn, hp⟩ := bind_eq_ok hcount
    cases hp
    obtain ⟨size, taken, rfl, fits, rewrites⟩ := rewrites_of_times (ih stored) helements
    refine ⟨Word.write n ++ taken, ?_, ⟨?_, fits⟩, ?_⟩
    · rw [List.append_assoc]
      exact Word.eq_write_of_read hn
    · rw [size]
      exact Int32.toNatClampNeg_lt n
    · simp only [spellings, hn, write, size]
      exact (Prefixed.rewrites_count n).append rewrites
  | compactArray element => exact absurd stored id

end LogBroker.Wire
