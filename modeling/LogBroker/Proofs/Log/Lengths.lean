import LogBroker.Proofs.Log.Verbatim
import LogBroker.Proofs.Message.RoundTrip

/-!
# The lengths in a log

Records and batches say in front how long they are, and decoding does not look: it follows the
fields, and these have an end of their own. Others go by the lengths and do not know the fields.
For them a batch is an offset and bytes behind a length of four bytes, and a record is bytes behind
a varint (`RecordBatch.frameLayout`, `Record.frameLayout`). What `Record.ofValue` and
`RecordBatch.ofRecords` build is written alike in both layouts, so that both ways find the same
ends.

Main statement: `RecordBatch.walks_agree`. The length of a batch is right whatever the lengths in
its records are, because it counts the bytes that are written for these. A log is given by what its
batches are built from (`RecordBatch.Contents`), so that each record that is found is the one of an
entry that was given.
-/

namespace LogBroker

open Wire Layout

/-- The length field says how many bytes there are. -/
structure Tells (n : Int32) (bytes : Bytes) : Prop where
  /-- it was taken from them -/
  eq : n = Int32.ofNat bytes.length
  /-- they are not too many for it -/
  lt : bytes.length < 2 ^ 31

/-- As a number the length is that of the bytes. -/
theorem Tells.toInt {n : Int32} {bytes : Bytes} (h : Tells n bytes) : n.toInt = bytes.length := by
  rw [h.eq, Int32.toInt_ofNat_of_lt h.lt]

/-! ## Records -/

namespace Record

/-- A record for those who go by its length. -/
def frameLayout : Layout (Option Bytes) := nullableBytes

/-- The bytes of a record behind its length. -/
def body (r : Record) : Bytes :=
  bodyLayout.write (r.attributes, r.timestampDelta, r.offsetDelta, r.value)

/-- The record is its length in front of so many bytes. -/
def Measured (r : Record) : Prop :=
  ∃ body, layout.write r = Zigzag.writeInt32 r.length ++ body ∧ (body.length : Int) = r.length.toInt

theorem write_eq (r : Record) : layout.write r = Zigzag.writeInt32 r.length ++ r.body := rfl

variable {r : Record}

/-- The bytes behind the length are some of the record. -/
theorem length_body_le {bound : Nat} (h : layout.size r ≤ bound) : r.body.length ≤ bound := by
  rw [size, write_eq, List.length_append] at h
  exact Nat.le_of_add_left_le h

/-- The length of a record that was built was taken from its body. -/
theorem tells_ofValue {offsetDelta : Int32} {value : Bytes}
    (h : layout.size (ofValue offsetDelta value) ≤ 2147483647) :
    Tells (ofValue offsetDelta value).length (ofValue offsetDelta value).body :=
  ⟨rfl, Nat.lt_succ_of_le (length_body_le h)⟩

/-- Such a record is its length and so many bytes. -/
theorem measured_of_tells (h : Tells r.length r.body) : r.Measured :=
  ⟨r.body, write_eq r, h.toInt.symm⟩

/-- Fields behind a length that is right are bytes behind their length. -/
theorem takes_of_tells (h : Tells r.length r.body) :
    frameLayout.read.Takes (layout.write r) (some r.body) := by
  rw [write_eq, h.eq]
  exact Prefixed.takes_write_notNull h.lt

end Record

/-! ## Batches -/

namespace RecordBatch

/-- A batch for those who go by its length. -/
def frameLayout : Layout (Int64 × Bytes) := int64.andThen bytes

/-- The header of a batch behind its length, and the count of its records. -/
def headerAfterLength (b : RecordBatch) : Bytes :=
  Word.write b.partitionLeaderEpoch ++ Word.write b.magic ++ Word.write b.crc ++
    Word.write b.attributes ++ Word.write b.lastOffsetDelta ++ Word.write b.baseTimestamp ++
    Word.write b.maxTimestamp ++ Word.write b.producerId ++ Word.write b.producerEpoch ++
    Word.write b.baseSequence ++ Prefixed.writeLength32 b.records.length

/-- The bytes of a batch behind its length. -/
def body (b : RecordBatch) : Bytes := b.headerAfterLength ++ b.records.flatMap Record.layout.write

/-- The batch takes twelve bytes, of which four say how many there are behind them. -/
def Measured (b : RecordBatch) : Prop :=
  ((layout.write b).length : Int) = 12 + b.batchLength.toInt

section

variable (b : RecordBatch)

/-- The fields of the header add up to the size that is counted for them. -/
theorem length_headerAfterLength : b.headerAfterLength.length = headerSizeAfterLength := by
  simp only [headerAfterLength, Prefixed.writeLength32, List.length_append, Word.length_write]
  rfl

theorem write_eq :
    layout.write b = Word.write b.baseOffset ++ (Word.write b.batchLength ++ b.body) := by
  simp only [body, headerAfterLength, List.append_assoc]
  rfl

theorem length_write_eq : (layout.write b).length = 12 + b.body.length := by
  rw [write_eq, List.length_append, List.length_append, Word.length_write, Word.length_write,
    ← Nat.add_assoc]
  rfl

/-- The records stand behind both parts of the header. -/
theorem drop_header : (layout.write b).drop (12 + headerSizeAfterLength) =
    b.records.flatMap Record.layout.write := by
  rw [write_eq, body, ← List.append_assoc, ← List.append_assoc]
  refine List.drop_left' ?_
  simp only [List.length_append, Word.length_write, length_headerAfterLength]
  rfl

end

/-- The lengths in the records do not matter. -/
theorem tells_ofRecords {baseOffset : Int64} {records : List Record}
    (h : layout.size (ofRecords baseOffset records) ≤ 2147483647) :
    Tells (ofRecords baseOffset records).batchLength (ofRecords baseOffset records).body := by
  rw [size, length_write_eq] at h
  refine ⟨?_, by omega⟩
  rw [body, List.length_append, length_headerAfterLength]
  rfl

section

variable {b : RecordBatch}

/-- Such a batch has twelve bytes more than it says. -/
theorem measured_of_tells (h : Tells b.batchLength b.body) : b.Measured := by
  rw [Measured, length_write_eq, h.toInt]
  omega

/-- So are the fields of a batch, and in front of the length there is the offset. -/
theorem takes_of_tells (h : Tells b.batchLength b.body) :
    frameLayout.read.Takes (layout.write b) (b.baseOffset, b.body) := by
  have behind := (Prefixed.takes_writeBytes h.lt).bind_pure (Prod.mk b.baseOffset)
  rw [write_eq, h.eq]
  exact (Word.takes_write b.baseOffset).bind behind

end

/-! ## Building -/

/-- What a batch is built from. -/
structure Contents where
  /-- the offset of the first record -/
  baseOffset : Int64
  /-- for each record its offset behind that, and its value -/
  entries : List (Int32 × Bytes)
deriving DecidableEq, Repr

namespace Contents

/-- The records of the entries. -/
def records (c : Contents) : List Record := c.entries.map fun entry => .ofValue entry.1 entry.2

/-- The batch of these records. -/
def batch (c : Contents) : RecordBatch := .ofRecords c.baseOffset c.records

/-- The batch is not too long for its length, which is a signed number of four bytes. -/
def Fits (c : Contents) : Prop := layout.size c.batch ≤ 2147483647

instance (c : Contents) : Decidable c.Fits := inferInstanceAs (Decidable (_ ≤ _))

end Contents

/-- The batch has the records of these contents, each where its entry is. -/
structure Holds (b : RecordBatch) (c : Contents) : Prop where
  /-- it begins where it was said to begin -/
  baseOffset : b.baseOffset = c.baseOffset
  /-- the records have the offsets and the values of the entries -/
  entries : b.records.map (fun r => (r.offsetDelta, r.value)) =
    c.entries.map fun entry => (entry.1, some entry.2)

namespace Contents

variable {c : Contents}

/-- Building a batch loses nothing. -/
theorem holds_batch (c : Contents) : c.batch.Holds c where
  baseOffset := rfl
  entries := by
    show (c.entries.map _).map _ = _
    rw [List.map_map]
    rfl

theorem Fits.tells (h : c.Fits) : Tells c.batch.batchLength c.batch.body := tells_ofRecords h

/-- A record is no longer than the batch around it. -/
theorem Fits.tells_records (h : c.Fits) : ∀ entry ∈ c.entries,
    Tells (Record.ofValue entry.1 entry.2).length (Record.ofValue entry.1 entry.2).body := by
  intro entry mem
  have one : Record.layout.size (.ofValue entry.1 entry.2) ≤
      (c.records.flatMap Record.layout.write).length :=
    Record.layout.size_le_of_mem (List.mem_map_of_mem mem)
  have all : layout.size c.batch ≤ 2147483647 := h
  rw [size, length_write_eq, body, List.length_append] at all
  refine Record.tells_ofValue (Nat.le_trans one ?_)
  exact Nat.le_of_add_left_le (Nat.le_of_add_left_le all)

/-- No count and no length in the batch is too large for its field. -/
theorem Fits.layout_fits (h : c.Fits) : layout.Fits c.batch :=
  layout.fits_of_size_le (roomy (by decide)) h

end Contents

/-! ## Two walks -/

/-- The bytes of each batch and of each of its records, as decoding goes through them. -/
def fieldWalk (segment : Bytes) : List (Bytes × List Bytes) :=
  (pieces segment).map fun piece => (piece, layout.elements piece)

/-- The bytes of each batch and of each of its records, as their lengths tell them: twelve bytes
and the length of the batch, and in it, behind the header, each record's length and so many bytes
up to the end of the batch. -/
def lengthWalk (segment : Bytes) : List (Bytes × List Bytes) :=
  (frameLayout.pieces segment).map fun piece =>
    (piece, Record.frameLayout.pieces (piece.drop (12 + headerSizeAfterLength)))

section

variable {log : List Contents}

/-- The bytes of the batches in a row. -/
theorem writeAll_map_batch (log : List Contents) :
    writeAll (log.map Contents.batch) = log.flatMap fun c => layout.write c.batch :=
  List.flatMap_map _ _ log

/-- Decoding finds what was written. -/
theorem fieldWalk_writeAll (h : ∀ c ∈ log, c.Fits) :
    fieldWalk (writeAll (log.map Contents.batch)) =
      log.map fun c => (layout.write c.batch, c.records.map Record.layout.write) := by
  have batches : layout.pieces (writeAll (log.map Contents.batch)) =
      log.map fun c => layout.write c.batch := by
    rw [writeAll_map_batch]
    exact pieces_flatMap fun c hc => ⟨c.batch, layout.takes_write (h c hc).layout_fits⟩
  rw [fieldWalk, pieces_eq, batches, List.map_map]
  refine List.map_congr_left fun c hc => ?_
  have elements := layout.elements_write (h c hc).layout_fits []
  rw [List.append_nil] at elements
  exact congrArg (Prod.mk (layout.write c.batch)) elements

/-- So do those who go by the lengths. -/
theorem lengthWalk_writeAll (h : ∀ c ∈ log, c.Fits) :
    lengthWalk (writeAll (log.map Contents.batch)) =
      log.map fun c => (layout.write c.batch, c.records.map Record.layout.write) := by
  have batches : frameLayout.pieces (writeAll (log.map Contents.batch)) =
      log.map fun c => layout.write c.batch := by
    rw [writeAll_map_batch]
    exact pieces_flatMap fun c hc => ⟨_, takes_of_tells (h c hc).tells⟩
  rw [lengthWalk, batches, List.map_map]
  refine List.map_congr_left fun c hc => ?_
  have records : Record.frameLayout.pieces (c.records.flatMap Record.layout.write) =
      c.records.map Record.layout.write := by
    refine pieces_flatMap fun r hr => ?_
    obtain ⟨entry, mem, rfl⟩ := List.mem_map.mp hr
    exact ⟨_, Record.takes_of_tells ((h c hc).tells_records entry mem)⟩
  rw [Function.comp_apply, drop_header]
  exact congrArg (Prod.mk (layout.write c.batch)) records

/-- What is read from the bytes of the batches is what they were built from. -/
theorem holds_readAll (h : ∀ c ∈ log, c.Fits) :
    List.Forall₂ Holds (readAll (writeAll (log.map Contents.batch))) log := by
  rw [readAll_writeAll (List.forall_mem_map.mpr fun c hc => (h c hc).layout_fits),
    List.forall₂_map_left_iff, List.forall₂_same]
  exact fun c _ => c.holds_batch

end

/-- **Lengths describe the bytes.** A batch of any records keeps them, is as long as it says, and
names the offset of its last record. A record of a value keeps its offset and the value, and is as
long as it says, too. In a log of batches that were built from values, decoding finds these values;
it goes through each batch and, behind its header, through the record of each entry up to the end,
as they were written; and to go by the lengths alone is to go the same way. -/
theorem walks_agree :
    (∀ baseOffset records, let batch := ofRecords baseOffset records
      (batch.baseOffset = baseOffset ∧ batch.records = records) ∧
        (layout.size batch ≤ 2147483647 → batch.Measured) ∧
        (records = [] → batch.lastOffsetDelta = 0) ∧
        ∀ front last, records = front ++ [last] → batch.lastOffsetDelta = last.offsetDelta) ∧
      (∀ offsetDelta value, let record := Record.ofValue offsetDelta value
        (record.offsetDelta = offsetDelta ∧ record.value = some value) ∧
          (Record.layout.size record ≤ 2147483647 → record.Measured)) ∧
      ∀ log : List Contents, (∀ c ∈ log, c.Fits) →
        let segment := writeAll (log.map Contents.batch)
        List.Forall₂ Holds (readAll segment) log ∧
          (∀ c ∈ log, c.batch.Measured ∧
            ∀ entry ∈ c.entries, (Record.ofValue entry.1 entry.2).Measured) ∧
          (fieldWalk segment = log.map fun c => (layout.write c.batch,
            c.entries.map fun entry => Record.layout.write (.ofValue entry.1 entry.2))) ∧
          lengthWalk segment = fieldWalk segment ∧
          ∀ batch ∈ fieldWalk segment,
            batch.1.drop (12 + headerSizeAfterLength) = batch.2.flatten := by
  refine ⟨?_, ?_, ?_⟩
  · intro baseOffset records batch
    refine ⟨⟨rfl, rfl⟩, fun small => measured_of_tells (tells_ofRecords small), ?_, ?_⟩
    · rintro rfl
      rfl
    · rintro front last rfl
      show ((front ++ [last]).getLast?.map Record.offsetDelta).getD 0 = last.offsetDelta
      rw [List.getLast?_concat]
      rfl
  · intro offsetDelta value record
    exact ⟨⟨rfl, rfl⟩, fun small => Record.measured_of_tells (Record.tells_ofValue small)⟩
  · intro log fits segment
    have fields := fieldWalk_writeAll fits
    refine ⟨holds_readAll fits, ?_, ?_, ?_, ?_⟩
    · intro c hc
      exact ⟨measured_of_tells (fits c hc).tells,
        fun entry mem => Record.measured_of_tells ((fits c hc).tells_records entry mem)⟩
    · simp only [segment, fields, Contents.records, List.map_map, Function.comp_def]
    · rw [lengthWalk_writeAll fits, fields]
    · rw [fields, List.forall_mem_map]
      intro c _
      rw [drop_header, ← List.flatMap_def]
      rfl

/-- A batch without records, and one of two records. The second one has a length of two groups. -/
def twoContents : List Contents :=
  [{ baseOffset := -3, entries := [] },
    { baseOffset := 5, entries := [(0, [104, 105]), (7, List.replicate 64 9)] }]

/-- A batch of a record whose length is wrong. -/
def mislabelled : RecordBatch := .ofRecords 0 [{ Record.ofValue 4 [104] with length := 100 }]

/-- By their lengths batches of 61 and of 143 bytes are found, and in the second one records of 9
and of 73 bytes; the length of a batch is right around a wrong one. -/
theorem walks_agree_twoContents :
    (∀ c ∈ twoContents, c.Fits) ∧
      ((lengthWalk (writeAll (twoContents.map Contents.batch))).map fun batch =>
        (batch.1.length, batch.2.map List.length)) = [(61, []), (143, [9, 73])] ∧
      List.Forall₂ Holds (readAll (writeAll (twoContents.map Contents.batch))) twoContents ∧
      mislabelled.Measured ∧ mislabelled.lastOffsetDelta = 4 := by
  have fits : ∀ c ∈ twoContents, c.Fits := by decide +kernel
  obtain ⟨any, -, log⟩ := walks_agree
  obtain ⟨-, around, -, last⟩ := any 0 [{ Record.ofValue 4 [104] with length := 100 }]
  obtain ⟨held, -, fields, same, -⟩ := log twoContents fits
  refine ⟨fits, ?_, held, around (by decide +kernel), last [] _ rfl⟩
  rw [same, fields]
  decide +kernel

end RecordBatch

end LogBroker
