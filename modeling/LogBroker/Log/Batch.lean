import LogBroker.Log.Record

/-!
# Record batches

A log segment of a Kafka broker is a row of batches, each a header and the records that
share it. The header says how long the batch is, and a checksum protects it; reading uses
neither, it follows the fields. So a batch may carry a length and a checksum that do not
fit it, and they are kept as stored.

* `RecordBatch.ofRecords` builds a batch whose header describes its records;
* `RecordBatch.scan` reads a segment up to the first batch that cannot be read.
-/

namespace LogBroker

open Wire Layout

/-- Records under a common header. -/
structure RecordBatch where
  /-- offset of the first record -/
  baseOffset : Int64
  /-- how many bytes follow this field, as stored -/
  batchLength : Int32
  /-- epoch of the leader that took the batch -/
  partitionLeaderEpoch : Int32
  /-- version of the format -/
  magic : Int8
  /-- checksum, as stored; it is not verified -/
  crc : UInt32
  /-- flags; none are understood -/
  attributes : Int16
  /-- offset of the last record after the base offset, as stored -/
  lastOffsetDelta : Int32
  /-- timestamp of the first record -/
  baseTimestamp : Int64
  /-- greatest timestamp of a record -/
  maxTimestamp : Int64
  /-- who wrote the batch, or `-1` -/
  producerId : Int64
  /-- the writer's epoch, or `-1` -/
  producerEpoch : Int16
  /-- the writer's sequence number, or `-1` -/
  baseSequence : Int32
  /-- the entries, first offset first -/
  records : List Record
deriving DecidableEq, Repr

namespace RecordBatch

/-- A batch on the wire and in a segment. -/
def layout : Layout RecordBatch :=
  packed (int64.andThen <| int32.andThen <| int32.andThen <| int8.andThen <| uint32.andThen <|
      int16.andThen <| int32.andThen <| int64.andThen <| int64.andThen <| int64.andThen <|
      int16.andThen <| int32.andThen <| array Record.layout) {
    pack := fun (baseOffset, batchLength, partitionLeaderEpoch, magic, crc, attributes,
        lastOffsetDelta, baseTimestamp, maxTimestamp, producerId, producerEpoch, baseSequence,
        records) =>
      { baseOffset, batchLength, partitionLeaderEpoch, magic, crc, attributes,
        lastOffsetDelta, baseTimestamp, maxTimestamp, producerId, producerEpoch, baseSequence,
        records }
    fields := fun b =>
      (b.baseOffset, b.batchLength, b.partitionLeaderEpoch, b.magic, b.crc, b.attributes,
        b.lastOffsetDelta, b.baseTimestamp, b.maxTimestamp, b.producerId, b.producerEpoch,
        b.baseSequence, b.records) }

/-! ## Building a batch -/

/-- The version of the format that is written. -/
def currentMagic : Int8 := 2

/-- The bytes of the header from the one behind the batch length up to the record count:
epoch, magic, checksum, attributes, last offset delta, two timestamps, producer id and
epoch, sequence number, count. -/
def headerSizeAfterLength : Nat := 4 + 1 + 4 + 2 + 4 + 8 + 8 + 8 + 2 + 4 + 4

/-- The batch of the given records, with no known producer. Length and last offset delta
describe the records; the checksum is left zero. -/
def ofRecords (baseOffset : Int64) (records : List Record) : RecordBatch where
  baseOffset := baseOffset
  batchLength := Int32.ofNat (headerSizeAfterLength + (records.flatMap Record.layout.write).length)
  partitionLeaderEpoch := 0
  magic := currentMagic
  crc := 0
  attributes := 0
  lastOffsetDelta := (records.getLast?.map Record.offsetDelta).getD 0
  baseTimestamp := 0
  maxTimestamp := 0
  producerId := -1
  producerEpoch := -1
  baseSequence := -1
  records := records

/-- The offset behind the last record, where the next batch would begin. The sum is a number of
64 bits: where it does not fit it wraps, as it does in a build that checks no overflow. A build
with such checks stops there. -/
def nextOffset (b : RecordBatch) : Int64 := b.baseOffset + b.lastOffsetDelta.toInt64 + 1

/-! ## Reading a segment -/

/-- The batches at the front of a segment, and what is left. The end of the input and a
batch that cannot be read both end the scan; what the failed batch took is gone. -/
def scan (bs : Bytes) : List RecordBatch × Bytes :=
  if bs.isEmpty then ([], bs) else
    match h : layout.read bs with
    | (.ok batch, rest) =>
      have : rest.length < bs.length := layout.advances_read h
      let (batches, left) := scan rest
      (batch :: batches, left)
    | (.error _, rest) => ([], rest)
termination_by bs.length

/-- The batches of a segment. -/
def readAll (segment : Bytes) : List RecordBatch := (scan segment).1

/-- A row of batches as a segment holds it. -/
def writeAll (batches : List RecordBatch) : Bytes := batches.flatMap layout.write

@[simp] theorem scan_nil : scan [] = ([], []) := by rw [scan]; rfl

/-- A batch that can be read stands in front of what the scan finds behind it. -/
theorem scan_ok {bs rest : Bytes} {batch : RecordBatch}
    (h : layout.read bs = (.ok batch, rest)) :
    scan bs = (batch :: (scan rest).1, (scan rest).2) := by
  have shorter := layout.advances_read h
  have nonempty : bs.isEmpty = false := by
    cases bs with
    | nil => exact absurd shorter (Nat.not_lt_zero _)
    | cons b bs => rfl
  rw [scan, nonempty]
  simp only [Bool.false_eq_true, if_false]
  split
  next batch' rest' h' => rw [h] at h'; cases h'; rfl
  next e rest' h' => rw [h] at h'; cases h'

/-- A batch that cannot be read ends the scan where its reading stopped. -/
theorem scan_error {bs rest : Bytes} {e : DecodeError}
    (h : layout.read bs = (.error e, rest)) : scan bs = ([], if bs = [] then [] else rest) := by
  cases bs with
  | nil => simp
  | cons b bs =>
    rw [scan]
    simp only [List.isEmpty_cons, Bool.false_eq_true, if_false, reduceCtorEq]
    split
    next batch' rest' h' => rw [h] at h'; cases h'
    next e rest' h' => rw [h] at h'; cases h'; rfl

end RecordBatch

end LogBroker
