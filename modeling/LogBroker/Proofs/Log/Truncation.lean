import LogBroker.Log.Batch
import LogBroker.Proofs.Wire.Decision
import LogBroker.Proofs.Wire.RoundTrip
import Mathlib.Order.Bounds.Basic

/-!
# Logs that are cut off

A log that ends in the middle of a batch, because its writer stopped there, is read up to
that batch. A batch is read from its own bytes and from no beginning of them
(`RecordBatch.readAll_of_cut`), so the scan finds all batches that are there in full and
nothing else.

Main statement: `RecordBatch.readAll_take_writeAll`.
-/

namespace LogBroker.RecordBatch

open Wire Layout

/-! ## Batches that can be stored -/

/-- No count and no length of the batch is too large for its field. -/
structure Storable (b : RecordBatch) : Prop where
  /-- the records can be counted -/
  count : b.records.length ≤ 2147483647
  /-- the length of each value that is not null can be told -/
  values : ∀ r ∈ b.records, ∀ value ∈ r.value, value.length ≤ 2147483647

instance (b : RecordBatch) : Decidable b.Storable :=
  decidable_of_iff
    (b.records.length ≤ 2147483647 ∧
      ∀ r ∈ b.records, ∀ value ∈ r.value, value.length ≤ 2147483647)
    ⟨fun ⟨count, values⟩ => ⟨count, values⟩, fun ⟨count, values⟩ => ⟨count, values⟩⟩

theorem Storable.fits {b : RecordBatch} (h : b.Storable) : layout.Fits b := by
  have records : ∀ r ∈ b.records, Record.layout.Fits r := by
    intro r hr
    have value : ∀ present ∈ r.value, present.length < 2 ^ 31 := by
      intro present hp
      exact Nat.lt_succ_of_le (h.values r hr present hp)
    simp only [Record.layout, Record.bodyLayout, closedBy, Layout.Fits, Primitive.Fits, and_true,
      true_and]
    exact value
  have count : b.records.length < 2 ^ 31 := Nat.lt_succ_of_le h.count
  simp only [layout, Layout.Fits, Primitive.Fits, true_and]
  exact ⟨count, records⟩

theorem Storable.takes_write {b : RecordBatch} (h : b.Storable) :
    layout.read.Takes (layout.write b) b :=
  Layout.takes_write _ h.fits

/-! ## Scanning -/

section

variable {bytes rest : Bytes} {batch : RecordBatch}

theorem readAll_append_of_takes (h : layout.read.Takes bytes batch) (rest : Bytes) :
    readAll (bytes ++ rest) = batch :: readAll rest := by
  rw [readAll, scan_ok (h rest)]
  rfl

/-- What is there of a batch without its end holds no batch. -/
theorem readAll_of_cut {cut more : Bytes} (h : layout.read.Takes (cut ++ more) batch)
    (hm : more ≠ []) : readAll cut = [] := by
  obtain ⟨needed, available, he⟩ := layout.decisive_read.ranOut_of_cut h hm
  have failed : layout.read cut = (.error (.underflow needed available), (layout.read cut).2) := by
    rw [← he]
  rw [readAll, scan_error failed]

end

theorem writeAll_cons (b : RecordBatch) (bs : List RecordBatch) :
    writeAll (b :: bs) = layout.write b ++ writeAll bs := List.flatMap_cons

/-- A row of batches is read as it was written. -/
theorem readAll_writeAll {bs : List RecordBatch} (h : ∀ b ∈ bs, layout.Fits b) :
    readAll (writeAll bs) = bs := by
  induction bs with
  | nil => rw [writeAll, List.flatMap_nil, readAll, scan_nil]
  | cons b bs ih =>
    obtain ⟨first, others⟩ := List.forall_mem_cons.mp h
    rw [writeAll_cons, readAll_append_of_takes (Layout.takes_write _ first), ih others]

/-! ## The cut -/

/-- So many of the batches at the front of a row lie in its first `k` bytes. -/
def FitsIn (bs : List RecordBatch) (k n : Nat) : Prop :=
  n ≤ bs.length ∧ (writeAll (bs.take n)).length ≤ k

section

variable {b : RecordBatch} {bs : List RecordBatch} {k : Nat}

/-- If the first batch does not lie in the first `k` bytes, none does. -/
theorem isGreatest_fitsIn_zero (h : k < (layout.write b).length) :
    IsGreatest {n | FitsIn (b :: bs) k n} 0 := by
  constructor
  · exact ⟨Nat.zero_le _, Nat.zero_le _⟩
  · rintro n ⟨_, hn⟩
    cases n with
    | zero => exact Nat.le_refl 0
    | succ n =>
      rw [List.take_succ_cons, writeAll_cons, List.length_append] at hn
      omega

/-- If it does, the batches behind it have what is left of the `k` bytes. -/
theorem isGreatest_fitsIn_succ {n : Nat} (h : (layout.write b).length ≤ k)
    (hn : IsGreatest {n | FitsIn bs (k - (layout.write b).length) n} n) :
    IsGreatest {n | FitsIn (b :: bs) k n} (n + 1) := by
  obtain ⟨⟨bound, fits⟩, greatest⟩ := hn
  constructor
  · refine ⟨Nat.succ_le_succ bound, ?_⟩
    rw [List.take_succ_cons, writeAll_cons, List.length_append]
    omega
  · rintro m ⟨bound', fits'⟩
    cases m with
    | zero => exact Nat.zero_le _
    | succ m =>
      rw [List.take_succ_cons, writeAll_cons, List.length_append] at fits'
      exact Nat.succ_le_succ (greatest ⟨Nat.le_of_succ_le_succ bound', by omega⟩)

end

/-- **A cut loses the batch that it goes through** and those behind it, and no other: of the
first `k` bytes of a row of batches just the longest beginning of the row is read that lies in
them. The row as a whole is read as it was written. -/
theorem readAll_take_writeAll {bs : List RecordBatch} (h : ∀ b ∈ bs, b.Storable) :
    (∀ k, ∃ n, IsGreatest {n | FitsIn bs k n} n ∧
      readAll ((writeAll bs).take k) = bs.take n) ∧ readAll (writeAll bs) = bs := by
  refine ⟨?_, readAll_writeAll fun b hb => (h b hb).fits⟩
  induction bs with
  | nil =>
    intro k
    refine ⟨0, ⟨⟨Nat.le_refl 0, Nat.zero_le k⟩, fun n hn => hn.1⟩, ?_⟩
    rw [writeAll, List.flatMap_nil, List.take_nil, readAll, scan_nil, List.take_nil]
  | cons b bs ih =>
    obtain ⟨first, others⟩ := List.forall_mem_cons.mp h
    intro k
    rw [writeAll_cons, List.take_append]
    rcases Nat.lt_or_ge k (layout.write b).length with cut | whole
    · -- the cut goes through the first batch, of which something is missing
      have missing : (layout.write b).drop k ≠ [] := by
        rw [ne_eq, List.drop_eq_nil_iff]
        omega
      have taken := first.takes_write
      rw [← List.take_append_drop k (layout.write b)] at taken
      refine ⟨0, isGreatest_fitsIn_zero cut, ?_⟩
      rw [Nat.sub_eq_zero_of_le (Nat.le_of_lt cut), List.take_zero, List.append_nil,
        readAll_of_cut taken missing, List.take_zero]
    · obtain ⟨n, greatest, behind⟩ := ih others (k - (layout.write b).length)
      refine ⟨n + 1, isGreatest_fitsIn_succ whole greatest, ?_⟩
      rw [List.take_of_length_le whole, readAll_append_of_takes first.takes_write, behind,
        List.take_succ_cons]

/-- Two batches of which the second has a value and a null. -/
def twoBatches : List RecordBatch :=
  [.ofRecords (-3) [],
    .ofRecords 5 [.ofValue 0 [104, 105], { Record.ofValue (-1) [] with value := none }]]

/-- A cut in the marker behind the second batch's null leaves the first batch. -/
theorem readAll_take_writeAll_twoBatches :
    (∀ b ∈ twoBatches, b.Storable) ∧ (writeAll twoBatches).length = 138 ∧
      readAll ((writeAll twoBatches).take 137) = twoBatches.take 1 := by
  have storable : ∀ b ∈ twoBatches, b.Storable := by decide +kernel
  refine ⟨storable, by decide +kernel, ?_⟩
  obtain ⟨n, greatest, read⟩ := (readAll_take_writeAll storable).1 137
  have one : IsGreatest {n | FitsIn twoBatches 137 n} 1 := by
    refine ⟨⟨by decide, by decide +kernel⟩, ?_⟩
    rintro m ⟨bound, fits⟩
    by_contra more
    obtain rfl : m = 2 := Nat.le_antisymm bound (Nat.lt_of_not_le more)
    exact absurd fits (by decide +kernel)
  rw [read, greatest.unique one]

end LogBroker.RecordBatch
