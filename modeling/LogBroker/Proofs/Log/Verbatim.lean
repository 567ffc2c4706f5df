import LogBroker.Proofs.Log.Truncation
import LogBroker.Proofs.Wire.Pieces
import LogBroker.Proofs.Wire.Rewriting
import Mathlib.Data.List.Forall2

/-!
# Batches that are sent on

A fetch answers with the batches of a segment, written again. The checksum and the length in
a batch's header were made for the bytes that the segment holds, so they are of use to the
reader of the answer only if the same bytes are written.

A segment begins with the bytes of its batches, one piece for each (`RecordBatch.pieces`); what
is left behind them begins with no batch (`RecordBatch.Ends`).

Main statement: the batches are never written in more bytes than they were read from, they
are read from these as the same batches, and the bytes are the same just if all choices in the
pieces are those that writing makes (`RecordBatch.writeAll_readAll`).
-/

namespace LogBroker.RecordBatch

open Wire Layout

/-! ## Pieces -/

/-- The bytes of each batch of a segment, up to the first that cannot be read. -/
def pieces (segment : Bytes) : List Bytes :=
  match h : layout.read segment with
  | (.ok _, rest) =>
    have : rest.length < segment.length := layout.advances_read h
    segment.take (segment.length - rest.length) :: pieces rest
  | (.error _, _) => []
termination_by segment.length

/-- The input begins with no batch. -/
def Ends (left : Bytes) : Prop := ∀ batch rest, layout.read left ≠ (.ok batch, rest)

/-- The batches of a segment are values in a row. -/
theorem pieces_eq (segment : Bytes) : pieces segment = layout.pieces segment := by
  fun_induction pieces segment with
  | case1 segment batch rest h _ ih => rw [Layout.pieces_of_ok h, ih, Reader.taken, h]
  | case2 segment e rest h => rw [Layout.pieces_of_error h]

section

variable {segment : Bytes}

theorem pieces_of_ends (h : Ends segment) : pieces segment = [] := by
  rw [pieces_eq]
  rcases hread : layout.read segment with ⟨e | batch, rest⟩
  · exact Layout.pieces_of_error hread
  · exact absurd hread (h batch rest)

theorem readAll_of_ends (h : Ends segment) : readAll segment = [] := by
  rcases hread : layout.read segment with ⟨e | batch, rest⟩
  · rw [readAll, scan_error hread]
  · exact absurd hread (h batch rest)

theorem pieces_append_of_takes {taken : Bytes} {batch : RecordBatch}
    (h : layout.read.Takes taken batch) (rest : Bytes) :
    pieces (taken ++ rest) = taken :: pieces rest := by
  rw [pieces_eq, pieces_eq, Layout.pieces_append_of_takes h]

/-- Induction along the batches of a segment. -/
theorem segment_induction {motive : Bytes → Prop} (ends : ∀ left, Ends left → motive left)
    (batch : ∀ taken rest batch, layout.read.Takes taken batch → motive rest →
      motive (taken ++ rest)) (segment : Bytes) : motive segment := by
  rcases h : layout.read segment with ⟨e | b, rest⟩
  · refine ends segment ?_
    intro b rest' h'
    rw [h] at h'
    cases h'
  · have shorter : rest.length < segment.length := layout.advances_read h
    obtain ⟨taken, rfl, takes⟩ := layout.decisive_read.takes h
    exact batch taken rest b takes (segment_induction ends batch rest)
termination_by segment.length

end

/-- A segment is its pieces, and behind them what is no batch. -/
theorem exists_left (segment : Bytes) :
    ∃ left, segment = (pieces segment).flatten ++ left ∧ Ends left := by
  induction segment using segment_induction with
  | ends left h => exact ⟨left, by rw [pieces_of_ends h]; rfl, h⟩
  | batch taken rest b takes ih =>
    obtain ⟨left, whole, h⟩ := ih
    refine ⟨left, ?_, h⟩
    rw [pieces_append_of_takes takes, List.flatten_cons, List.append_assoc, ← whole]

/-- Each batch is read from its piece. -/
theorem forall₂_takes_pieces (segment : Bytes) :
    List.Forall₂ layout.read.Takes (pieces segment) (readAll segment) := by
  induction segment using segment_induction with
  | ends left h =>
    rw [pieces_of_ends h, readAll_of_ends h]
    exact .nil
  | batch taken rest b takes ih =>
    rw [pieces_append_of_takes takes, readAll_append_of_takes takes]
    exact .cons takes ih

/-! ## Writing again -/

theorem stored : layout.Stored := by
  simp only [layout, Record.layout, Record.bodyLayout, closedBy, Layout.Stored, Primitive.Stored,
    and_self]

/-- A batch is written again for its piece, and it can be. -/
theorem rewrites_of_takes {taken : Bytes} {batch : RecordBatch}
    (h : layout.read.Takes taken batch) :
    layout.Fits batch ∧ Rewrites taken (layout.write batch) (layout.spellings taken) := by
  obtain ⟨taken', whole, fits, rewrites⟩ := layout.rewrites_of_read stored h.eq
  rw [List.append_nil] at whole
  subst whole
  exact ⟨fits, rewrites⟩

theorem fits_of_mem_readAll {segment : Bytes} : ∀ b ∈ readAll segment, layout.Fits b := by
  induction segment using segment_induction with
  | ends left h =>
    rw [readAll_of_ends h]
    exact List.forall_mem_nil _
  | batch taken rest b takes ih =>
    rw [readAll_append_of_takes takes]
    exact List.forall_mem_cons.mpr ⟨(rewrites_of_takes takes).1, ih⟩

/-- The batches are written again for the pieces in a row. -/
theorem rewrites_pieces (segment : Bytes) :
    Rewrites (pieces segment).flatten (writeAll (readAll segment))
      ((pieces segment).flatMap layout.spellings) := by
  induction segment using segment_induction with
  | ends left h =>
    rw [pieces_of_ends h, readAll_of_ends h]
    exact .refl []
  | batch taken rest b takes ih =>
    rw [pieces_append_of_takes takes, readAll_append_of_takes takes, List.flatten_cons,
      writeAll_cons, List.flatMap_cons]
    exact (rewrites_of_takes takes).2.append ih

/-- **When batches are sent on verbatim.** Of a segment, whatever is in it, let the pieces be
the bytes that its batches were read from. The batches written again are read as the same
batches. They take no more bytes than the pieces; and these are the bytes of the pieces just if,
throughout the pieces, each variable-length number is in its shortest form, each negative length
of a value is `-1`, and no count is negative. -/
theorem writeAll_readAll (segment : Bytes) :
    let batches := readAll segment
    let occupied := (pieces segment).flatten
    (List.Forall₂ layout.read.Takes (pieces segment) batches ∧
        ∃ left, segment = occupied ++ left ∧ Ends left) ∧
      readAll (writeAll batches) = batches ∧
      (writeAll batches).length ≤ occupied.length ∧
      (writeAll batches = occupied ↔
        ∀ piece ∈ pieces segment, ∀ s ∈ layout.spellings piece, s.Canonical) := by
  intro batches occupied
  obtain ⟨shorter, same⟩ := rewrites_pieces segment
  refine ⟨⟨forall₂_takes_pieces segment, exists_left segment⟩,
    readAll_writeAll fits_of_mem_readAll, shorter, ?_⟩
  rw [same, List.forall_mem_flatMap]

/-- A batch of one record. Its timestamp has a group too many, and its value is null by a length
that is not `-1`. -/
def paddedBatch : Bytes :=
  (layout.write (ofRecords 0 [])).take 57 ++ Word.write (1 : Int32) ++
    [14, 0, 0x80, 0x00, 0, 1, 3, 0]

example : pieces paddedBatch = [paddedBatch] ∧ layout.spellings paddedBatch =
    [.count 1, .groups [14], .groups [0x80, 0x00], .groups [0], .groups [3],
      .valueLength (-2)] := by
  decide +kernel

end LogBroker.RecordBatch
