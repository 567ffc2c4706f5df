import LogBroker.Proofs.Wire.RoundTrip

/-!
# Where values lie

The bytes of a value are known when it has been read: they are those that are no longer left
(`Reader.taken`). So whoever reads an input learns where the values lie in it:

* `Layout.pieces` are the bytes of the values that stand in a row in the input;
* `Layout.elements` are those of the elements of the collections in the first value.

Both follow the reader and look at nothing else. Main statements: values that were written in a
row lie where they were written (`Layout.pieces_flatMap`), and so do the elements of their
collections (`Layout.elements_write`).
-/

namespace LogBroker.Wire

open Reader

variable {α β : Type}

namespace Reader

/-- The bytes that the reader takes off the front of the input. -/
def taken (r : Reader α) (bs : Bytes) : Bytes := bs.take (bs.length - (r bs).2.length)

/-- The bytes that each of `n` values takes, one behind the other. -/
def takenTimes (r : Reader α) : Nat → Bytes → List Bytes
  | 0, _ => []
  | n + 1, bs => r.taken bs :: takenTimes r n (r bs).2

/-- What a reader takes is what it was given, whatever follows. -/
theorem Takes.taken {r : Reader α} {bytes : Bytes} {a : α} (h : r.Takes bytes a) (rest : Bytes) :
    r.taken (bytes ++ rest) = bytes := by
  rw [Reader.taken, h rest, List.length_append, Nat.add_sub_cancel, List.take_left]

/-- The pieces of a row are what was written for its elements. -/
theorem takenTimes_append {r : Reader α} {write : α → Bytes} {as : List α}
    (h : ∀ a ∈ as, r.Takes (write a) a) (rest : Bytes) :
    takenTimes r as.length (as.flatMap write ++ rest) = as.map write := by
  induction as with
  | nil => rfl
  | cons a as ih =>
    obtain ⟨first, others⟩ := List.forall_mem_cons.mp h
    rw [List.flatMap_cons, List.append_assoc, List.length_cons, takenTimes, first.taken,
      first (as.flatMap write ++ rest), ih others, List.map_cons]

end Reader

namespace Layout

/-! ## Values in a row -/

/-- The bytes of each value at the front of the input, up to the first that cannot be read. -/
def pieces (l : Layout α) (bs : Bytes) : List Bytes :=
  match h : l.read bs with
  | (.ok _, rest) =>
    have : rest.length < bs.length := l.advances_read h
    l.read.taken bs :: l.pieces rest
  | (.error _, _) => []
termination_by bs.length

section

variable {l : Layout α} {bs rest : Bytes}

theorem pieces_of_ok {a : α} (h : l.read bs = (.ok a, rest)) :
    l.pieces bs = l.read.taken bs :: l.pieces rest := by
  rw [pieces]
  split
  next a' rest' h' =>
    rw [h] at h'
    cases h'
    rfl
  next e rest' h' =>
    rw [h] at h'
    cases h'

theorem pieces_of_error {e : DecodeError} (h : l.read bs = (.error e, rest)) :
    l.pieces bs = [] := by
  rw [pieces]
  split
  next a rest' h' =>
    rw [h] at h'
    cases h'
  next => rfl

/-- A value at the front is a piece of its own. -/
theorem pieces_append_of_takes {bytes : Bytes} {a : α} (h : l.read.Takes bytes a) (rest : Bytes) :
    l.pieces (bytes ++ rest) = bytes :: l.pieces rest := by
  rw [pieces_of_ok (h rest), h.taken]

/-- No value lies in nothing. -/
theorem pieces_nil : l.pieces [] = [] := by
  rcases h : l.read [] with ⟨e | a, rest⟩
  · exact pieces_of_error h
  · exact absurd (l.advances_read h) (Nat.not_lt_zero _)

/-- **Values lie where they were written**, by whatever it was, if each of them is taken. -/
theorem pieces_flatMap {write : β → Bytes} {bs : List β}
    (h : ∀ b ∈ bs, ∃ a, l.read.Takes (write b) a) : l.pieces (bs.flatMap write) = bs.map write := by
  induction bs with
  | nil => exact pieces_nil
  | cons b bs ih =>
    obtain ⟨⟨a, first⟩, others⟩ := List.forall_mem_cons.mp h
    rw [List.flatMap_cons, pieces_append_of_takes first, ih others, List.map_cons]

end

/-! ## Collections -/

/-- The bytes of each element of the collections in the value that an input begins with. What
lies in an element belongs to the element. -/
def elements {α : Type} : Layout α → Bytes → List Bytes
  | primitive _, _ => []
  | andThen first second, bs => first.elements bs ++ second.elements (first.read bs).2
  | packed fields _, bs => fields.elements bs
  | array element, bs =>
    match Prefixed.readLength32 bs with
    | (.ok n, rest) => takenTimes element.read n rest
    | (.error _, _) => []
  | compactArray element, bs =>
    match Prefixed.readCompactLength bs with
    | (.ok n, rest) => takenTimes element.read n rest
    | (.error _, _) => []

/-- The bytes that are written for each element of the collections in a value. -/
def writeElements {α : Type} : Layout α → α → List Bytes
  | primitive _, _ => []
  | andThen first second, (a, b) => first.writeElements a ++ second.writeElements b
  | packed fields packing, b => fields.writeElements (packing.fields b)
  | array element, as | compactArray element, as => as.map element.write

/-- **Elements lie where they were written.** The induction is on the layout. -/
theorem elements_write {α : Type} (l : Layout α) {a : α} (h : l.Fits a) (rest : Bytes) :
    l.elements (l.write a ++ rest) = l.writeElements a := by
  induction l generalizing rest with
  | primitive p => rfl
  | andThen first second ih₁ ih₂ =>
    obtain ⟨a, b⟩ := a
    obtain ⟨h₁, h₂⟩ := h
    rw [elements, write, List.append_assoc, ih₁ h₁, first.takes_write h₁, ih₂ h₂, writeElements]
  | packed fields packing ih => exact ih h rest
  | array element ih =>
    obtain ⟨count, each⟩ := h
    simp only [elements, write, List.append_assoc, Prefixed.takes_writeLength32 count _]
    exact takenTimes_append (fun a ha => element.takes_write (each a ha)) rest
  | compactArray element ih =>
    obtain ⟨count, each⟩ := h
    simp only [elements, write, List.append_assoc, Prefixed.takes_writeCompactLength count _]
    exact takenTimes_append (fun a ha => element.takes_write (each a ha)) rest

end Layout

end LogBroker.Wire
