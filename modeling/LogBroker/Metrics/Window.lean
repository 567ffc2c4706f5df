/-!
# A window over the latest measurements

Percentiles are taken over the latest measurements only. The window keeps them in two
lists, both latest first: `recent` grows until it holds a whole window, then it becomes
`older` and a new list begins. So a measurement is added in constant time, at most two
windows are kept, and the latest measurements are always at hand: they are the front of
`recent ++ older`.
-/

namespace LogBroker

/-- How many measurements a window holds. -/
def LatencyWindow.capacity : Nat := 10000

/-- The latest measurements, in microseconds. -/
structure LatencyWindow where
  /-- measurements since the last exchange of the lists, latest first -/
  recent : List UInt64 := []
  /-- how many of them there are -/
  recentCount : Nat := 0
  /-- measurements before those, latest first -/
  older : List UInt64 := []
  /-- the count is kept and not taken anew each time -/
  recentCount_eq : recentCount = recent.length := by rfl
  /-- the lists are exchanged as soon as a whole window has come -/
  recent_lt : recent.length < LatencyWindow.capacity := by decide
  /-- there is no older window, or a whole one -/
  older_length : older = [] ∨ older.length = LatencyWindow.capacity := by exact .inl rfl

namespace LatencyWindow

/-- A window without measurements. -/
def empty : LatencyWindow := {}

/-- The window with one more measurement. -/
def add (w : LatencyWindow) (latency : UInt64) : LatencyWindow :=
  if h : w.recentCount + 1 < capacity then
    { recent := latency :: w.recent
      recentCount := w.recentCount + 1
      older := w.older
      recentCount_eq := by rw [w.recentCount_eq, List.length_cons]
      recent_lt := by rwa [List.length_cons, ← w.recentCount_eq]
      older_length := w.older_length }
  else
    { older := latency :: w.recent
      older_length := by
        have := w.recent_lt
        rw [w.recentCount_eq] at h
        exact .inr (by rw [List.length_cons]; omega) }

/-- The measurements in the window, latest first. -/
def toList (w : LatencyWindow) : List UInt64 := (w.recent ++ w.older).take capacity

@[simp] theorem toList_empty : empty.toList = [] := rfl

/-- **A new measurement** comes in front, and the oldest one falls out of a window that
is full. -/
theorem toList_add (w : LatencyWindow) (latency : UInt64) :
    (w.add latency).toList = (latency :: w.toList).take capacity := by
  have step (xs : List UInt64) :
      (latency :: xs.take capacity).take capacity = (latency :: xs).take capacity := by
    rw [capacity, List.take_succ_cons, List.take_succ_cons, List.take_take, Nat.min_eq_left]
    decide
  by_cases h : w.recentCount + 1 < capacity
  · simp only [toList, add, h, dif_pos, step, List.cons_append]
  · have full : w.recent.length = capacity - 1 := by
      have := w.recent_lt
      rw [w.recentCount_eq] at h
      omega
    simp only [toList, add, h, dif_neg, not_false_iff, step, List.nil_append]
    rw [capacity, List.take_succ_cons, List.take_succ_cons, List.take_append_of_le_length]
    rw [full]
    decide

/-- The place of the 99th percentile among `n` measurements in ascending order, counted
from zero. -/
def percentileIndex (n : Nat) : Nat := min (99 * n / 100) (n - 1)

/-- The measurement that 99 of 100 do not exceed; zero if there is none. -/
def percentile99 (w : LatencyWindow) : UInt64 :=
  let sorted := w.toList.mergeSort (fun a b => a ≤ b)
  sorted[percentileIndex sorted.length]?.getD 0

end LatencyWindow

end LogBroker
