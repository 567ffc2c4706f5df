import LogBroker.Log.Batch
import LogBroker.Proofs.Wire.Counts

/-!
# How long a scan goes on

A log has no count in front. Its batches are read until the input is used up or one of them cannot
be read, and nothing but the bytes themselves ends the loop. Each batch takes the 61 bytes of its
header (`RecordBatch.pays_header`); so there is a batch for every 61 bytes at most
(`RecordBatch.length_readAll_le`), and the loop has looked for its last one after as many rounds
and one more.

`RecordBatch.ScansWithin` says of the loop what a round does and nothing of why it ends. Main
statement: it ends, and has read what the scan finds (`RecordBatch.scansWithin`).
-/

namespace LogBroker.RecordBatch

open Wire Layout

/-- A batch takes the 61 bytes of its header, whatever is in it. -/
theorem pays_header : layout.read.Pays fun _ => 61 :=
  layout.pays_read.mono fun _ => Nat.le_add_right 61 _

/-- The loop that reads a segment, round by round: off the front of `bs` it reads the batches, and
it ends before the bytes `left` when it has looked for a batch no more than `rounds` times. -/
inductive ScansWithin :
    (rounds : Nat) → (bs : Bytes) → List RecordBatch → (left : Bytes) → Prop where
  /-- there is nothing to read -/
  | ended {rounds : Nat} : ScansWithin rounds [] [] []
  /-- what is there is no batch -/
  | failed {rounds : Nat} {bs left : Bytes} {e : DecodeError} (nonempty : bs ≠ [])
      (h : layout.read bs = (.error e, left)) : ScansWithin (rounds + 1) bs [] left
  /-- a batch is read, and the loop goes on behind it -/
  | more {rounds : Nat} {bs rest left : Bytes} {b : RecordBatch} {batches : List RecordBatch}
      (h : layout.read bs = (.ok b, rest)) (others : ScansWithin rounds rest batches left) :
      ScansWithin (rounds + 1) bs (b :: batches) left

/-- Each batch that the loop reads has taken its header off the segment. -/
theorem ScansWithin.length_le {rounds : Nat} {bs left : Bytes} {batches : List RecordBatch}
    (scans : ScansWithin rounds bs batches left) :
    61 * batches.length + left.length ≤ bs.length := by
  induction scans with
  | ended => exact Nat.le_refl 0
  | @failed _ bs _ _ _ failed =>
    have shorter := (layout.forward_read bs).length_le
    rw [failed] at shorter
    rwa [List.length_nil, Nat.mul_zero, Nat.zero_add]
  | @more _ bs rest _ _ _ read _ ih =>
    have header : 61 + rest.length ≤ bs.length := pays_header read
    rw [List.length_cons]
    omega

section

variable {segment : Bytes}

/-- **The loop ends** with what the scan finds, after one round more than there is room for
headers. The induction is on the rounds: each batch takes the header of one of them. -/
theorem scansWithin {rounds : Nat} (h : segment.length / 61 < rounds) :
    ScansWithin rounds segment (readAll segment) (scan segment).2 := by
  rw [readAll]
  induction rounds generalizing segment with
  | zero => exact absurd h (Nat.not_lt_zero _)
  | succ rounds ih =>
    rcases read : layout.read segment with ⟨e | b, rest⟩
    · rw [scan_error read]
      split
      next empty =>
        subst empty
        exact .ended
      next nonempty => exact .failed nonempty read
    · have header : 61 + rest.length ≤ segment.length := pays_header read
      rw [scan_ok read]
      exact .more read (ih (by omega))

theorem length_readAll_le : (readAll segment).length ≤ segment.length / 61 := by
  have taken := (scansWithin (Nat.lt_succ_self (segment.length / 61))).length_le
  omega

end

end LogBroker.RecordBatch
