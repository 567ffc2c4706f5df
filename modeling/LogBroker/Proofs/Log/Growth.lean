import LogBroker.Proofs.Log.Verbatim

/-!
# Logs that grow

A log grows at its end while others read it. What a scan has found is found again, because
each batch is read from its own bytes. What it finds then depends on why it ended before
(`RecordBatch.stop`):

* at the end of the segment: what is appended is scanned as if it stood alone;
* at a batch whose bytes have run out: what is appended may be the rest of that batch;
* at a batch that cannot be read for another cause: what is appended is never reached.

Main statement: `RecordBatch.readAll_append`.
-/

namespace LogBroker.RecordBatch

open Wire Layout

/-! ## Why a scan ends -/

/-- The cause for which the next batch cannot be read where the scan of a segment ends;
nothing if it ends because all of the segment has been read. -/
def stop (segment : Bytes) : Option DecodeError :=
  if segment.isEmpty then none else
    match h : layout.read segment with
    | (.ok _, rest) =>
      have : rest.length < segment.length := layout.advances_read h
      stop rest
    | (.error e, _) => some e
termination_by segment.length

section

variable {segment rest : Bytes} {e : DecodeError}

@[simp] theorem stop_nil : stop [] = none := by rw [stop]; rfl

/-- Behind a batch the scan goes on. -/
theorem stop_append_of_takes {taken : Bytes} {batch : RecordBatch}
    (h : layout.read.Takes taken batch) (rest : Bytes) : stop (taken ++ rest) = stop rest := by
  have nonempty : taken ++ rest ≠ [] := by
    intro empty
    have shorter := layout.advances_read (h rest)
    rw [empty] at shorter
    exact absurd shorter (Nat.not_lt_zero _)
  rw [stop, List.isEmpty_eq_false_iff.mpr nonempty]
  simp only [Bool.false_eq_true, if_false]
  split
  next batch' rest' h' =>
    rw [h rest] at h'
    cases h'
    rfl
  next e rest' h' =>
    rw [h rest] at h'
    cases h'

/-- Where no batch can be read, it ends. -/
theorem stop_of_error (nonempty : segment ≠ []) (h : layout.read segment = (.error e, rest)) :
    stop segment = some e := by
  rw [stop, List.isEmpty_eq_false_iff.mpr nonempty]
  simp only [Bool.false_eq_true, if_false]
  split
  next batch' rest' h' =>
    rw [h] at h'
    cases h'
  next e' rest' h' =>
    rw [h] at h'
    cases h'
    rfl

theorem Ends.exists_error (h : Ends segment) :
    ∃ e rest, layout.read segment = (.error e, rest) := by
  rcases hread : layout.read segment with ⟨e | batch, rest⟩
  · exact ⟨e, rest, rfl⟩
  · exact absurd hread (h batch rest)

end

/-- The scan ends behind the pieces of a segment: either nothing is left there, or no batch can
be read there for the cause that `stop` names. -/
theorem exists_left_stop (segment : Bytes) :
    ∃ left, segment = (pieces segment).flatten ++ left ∧
      (left = [] ∧ stop segment = none ∨
        left ≠ [] ∧ ∃ e rest, layout.read left = (.error e, rest) ∧ stop segment = some e) := by
  induction segment using segment_induction with
  | ends left h =>
    refine ⟨left, by rw [pieces_of_ends h]; rfl, ?_⟩
    rcases eq_or_ne left [] with rfl | nonempty
    · exact .inl ⟨rfl, stop_nil⟩
    · obtain ⟨e, rest, failed⟩ := h.exists_error
      exact .inr ⟨nonempty, e, rest, failed, stop_of_error nonempty failed⟩
  | batch taken rest b takes ih =>
    obtain ⟨left, whole, ended⟩ := ih
    refine ⟨left, ?_, ?_⟩
    · rw [pieces_append_of_takes takes, List.flatten_cons, List.append_assoc, ← whole]
    · rwa [stop_append_of_takes takes]

/-! ## What is appended -/

/-- No batch that was found is lost. -/
theorem prefix_readAll_append (segment more : Bytes) :
    readAll segment <+: readAll (segment ++ more) := by
  induction segment using segment_induction with
  | ends left h =>
    rw [readAll_of_ends h]
    exact List.nil_prefix
  | batch taken rest b takes ih =>
    rw [List.append_assoc, readAll_append_of_takes takes, readAll_append_of_takes takes]
    exact (List.prefix_cons_inj b).mpr ih

section

variable {segment : Bytes} (more : Bytes)

/-- Behind a segment that was read to its end the scan starts anew. -/
theorem readAll_append_of_stop_eq_none (h : stop segment = none) :
    readAll (segment ++ more) = readAll segment ++ readAll more := by
  induction segment using segment_induction with
  | ends left ends =>
    -- a cause would be named if anything were left
    have empty : left = [] := by
      by_contra nonempty
      obtain ⟨e, rest, failed⟩ := ends.exists_error
      rw [stop_of_error nonempty failed] at h
      cases h
    rw [readAll_of_ends ends, empty, List.nil_append, List.nil_append]
  | batch taken rest b takes ih =>
    rw [stop_append_of_takes takes] at h
    rw [List.append_assoc, readAll_append_of_takes takes, readAll_append_of_takes takes, ih h,
      List.cons_append]

/-- A batch that cannot be read, though its bytes have not run out, cannot be read in front of
more bytes either. -/
theorem ends_append {e : DecodeError} {rest : Bytes}
    (failed : layout.read segment = (.error e, rest))
    (decided : ¬ Reader.RanOut (.error e : Except DecodeError RecordBatch)) :
    Ends (segment ++ more) := by
  have settled := layout.decisive_read segment
  rw [failed] at settled
  obtain ⟨taken, whole, again⟩ := settled decided
  intro batch left read
  rw [whole, List.append_assoc, again (rest ++ more)] at read
  cases read

theorem readAll_append_of_stop_eq_some {e : DecodeError} (h : stop segment = some e)
    (decided : ¬ Reader.RanOut (.error e : Except DecodeError RecordBatch)) :
    readAll (segment ++ more) = readAll segment := by
  induction segment using segment_induction with
  | ends left ends =>
    obtain ⟨e', rest, failed⟩ := ends.exists_error
    have nonempty : left ≠ [] := by
      rintro rfl
      rw [stop_nil] at h
      cases h
    rw [stop_of_error nonempty failed] at h
    cases h
    rw [readAll_of_ends ends, readAll_of_ends (ends_append more failed decided)]
  | batch taken rest b takes ih =>
    rw [stop_append_of_takes takes] at h
    rw [List.append_assoc, readAll_append_of_takes takes, readAll_append_of_takes takes, ih h]

end

/-- **A log that grows loses nothing.** Whatever is in a segment and whatever is appended to it,
the batches of the segment are still read, in front of all others. If the scan had read the
whole segment, the others are the batches of what is appended. If it had ended for a cause
other than that the bytes ran out, there are no others. Behind the pieces of the segment
nothing is left in the first case, and in the second something that fails for the cause. -/
theorem readAll_append (segment more : Bytes) :
    readAll segment <+: readAll (segment ++ more) ∧
      (stop segment = none → readAll (segment ++ more) = readAll segment ++ readAll more) ∧
      (∀ e, stop segment = some e → (∀ needed available, e ≠ .underflow needed available) →
        readAll (segment ++ more) = readAll segment) ∧
      ∃ left, segment = (pieces segment).flatten ++ left ∧
        (left = [] ∧ stop segment = none ∨
          left ≠ [] ∧ ∃ e rest, layout.read left = (.error e, rest) ∧ stop segment = some e) := by
  refine ⟨prefix_readAll_append segment more, readAll_append_of_stop_eq_none more, ?_,
    exists_left_stop segment⟩
  intro e h other
  refine readAll_append_of_stop_eq_some more h ?_
  rintro ⟨needed, available, same⟩
  exact other needed available (Except.error.inj same)

/-- A batch of one record. -/
def wholeBatch : RecordBatch := ofRecords 3 [Record.ofValue 0 [7]]

/-- A batch whose only record has a key, which is not understood. -/
def keyedBatch : Bytes :=
  (layout.write (ofRecords 0 [])).take 57 ++ Word.write (1 : Int32) ++ [14, 0, 0, 0, 2]

/-- The three ways in which a scan ends: all is read, the next batch is not understood, and the
next batch is not there in full. What is appended is read for itself, or not at all, or as the
rest of that batch. -/
theorem readAll_append_threeEnds :
    let whole := layout.write wholeBatch
    (stop whole = none ∧ readAll (whole ++ whole) = [wholeBatch, wholeBatch]) ∧
      (stop (whole ++ keyedBatch) = some (.unexpected .key 2) ∧
        readAll (whole ++ keyedBatch ++ whole) = [wholeBatch]) ∧
      (stop (whole ++ whole.take 60) = some (.underflow 4 3) ∧
        readAll (whole ++ whole.take 60) <+: [wholeBatch, wholeBatch]) := by
  intro whole
  have read : readAll whole = [wholeBatch] := by decide +kernel
  have complete : stop whole = none := by decide +kernel
  have keyed : stop (whole ++ keyedBatch) = some (.unexpected .key 2) := by decide +kernel
  have readKeyed : readAll (whole ++ keyedBatch) = [wholeBatch] := by decide +kernel
  have cut : stop (whole ++ whole.take 60) = some (.underflow 4 3) := by decide +kernel
  have twice := (readAll_append whole whole).2.1 complete
  rw [read] at twice
  refine ⟨⟨complete, twice⟩, ⟨keyed, ?_⟩, cut, ?_⟩
  · rw [(readAll_append (whole ++ keyedBatch) whole).2.2.1 _ keyed (by simp), readKeyed]
  · have grown := (readAll_append (whole ++ whole.take 60) (whole.drop 60)).1
    rwa [List.append_assoc, List.take_append_drop, twice] at grown

end LogBroker.RecordBatch
