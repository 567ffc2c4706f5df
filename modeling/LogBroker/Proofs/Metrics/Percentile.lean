import LogBroker.Proofs.Metrics.Binary64
import LogBroker.Proofs.Metrics.Counting

/-!
# What a report shows

A report is taken after any row of events. Its counters show the events, as far as words of 64 bits
can tell, and its percentile is that of the latest requests (`Metrics.latest`), in whatever order
these came. How long a request took is said here from its nanoseconds (`Metrics.durations`): so many
whole microseconds, as far as a word can tell that.

A place in ascending order says how many measurements are no larger than the one there and how many
are no smaller (`Ranks`). This names the measurement without sorting anything, so the order of the
measurements cannot matter (`Ranks.unique`). Main statement: `Metrics.report_exact`.
-/

namespace LogBroker

/-! ## Places in ascending order -/

/-- `v` has the place `k` among the measurements `xs`, counted from zero. -/
structure Ranks (xs : List UInt64) (k : Nat) (v : UInt64) : Prop where
  /-- it is one of them -/
  mem : v ∈ xs
  /-- those up to this place are no larger -/
  below : k + 1 ≤ xs.countP (· ≤ v)
  /-- those from this place on are no smaller -/
  above : xs.length - k ≤ xs.countP (v ≤ ·)

namespace Ranks

variable {xs ys : List UInt64} {k : Nat} {v w : UInt64}

/-- A place does not depend on the order. -/
theorem perm (same : xs.Perm ys) (h : Ranks xs k v) : Ranks ys k v where
  mem := same.mem_iff.mp h.mem
  below := by rw [← same.countP_eq]; exact h.below
  above := by rw [← same.length_eq, ← same.countP_eq]; exact h.above

/-- What has a place is no smaller than what else has it: there are not enough measurements for
those below the one and those above the other. -/
theorem le (hk : k < xs.length) (h : Ranks xs k v) (h' : Ranks xs k w) : w ≤ v := by
  by_contra less
  have apart : xs.countP (w ≤ ·) ≤ xs.countP fun x => ¬ x ≤ v := by
    refine List.countP_mono_left fun x _ hx => ?_
    rw [decide_eq_true_eq] at hx ⊢
    exact fun hv => less (UInt64.le_trans hx hv)
  have all := List.length_eq_countP_add_countP (fun x => decide (x ≤ v)) (l := xs)
  have below := h.below
  have above := h'.above
  simp only [decide_eq_true_eq] at all
  omega

/-- A place is taken by one measurement only. -/
theorem unique (hk : k < xs.length) (h : Ranks xs k v) (h' : Ranks xs k w) : v = w :=
  UInt64.le_antisymm (h'.le hk h) (h.le hk h')

theorem getElem_le_getElem (sorted : xs.Pairwise (· ≤ ·)) {i j : Nat} (h : i ≤ j)
    (hj : j < xs.length) : xs[i] ≤ xs[j] := by
  rcases Nat.lt_or_eq_of_le h with less | rfl
  · exact List.pairwise_iff_getElem.mp sorted i j _ hj less
  · exact UInt64.le_refl _

/-- Sorting puts each measurement at its place. -/
theorem getElem (sorted : xs.Pairwise (· ≤ ·)) (hk : k < xs.length) : Ranks xs k xs[k] where
  mem := List.getElem_mem hk
  below := by
    have front : (xs.take (k + 1)).countP (· ≤ xs[k]) = (xs.take (k + 1)).length := by
      refine List.countP_eq_length.mpr fun x hx => decide_eq_true ?_
      obtain ⟨i, hi, rfl⟩ := List.mem_take_iff_getElem.mp hx
      exact getElem_le_getElem sorted (by omega) hk
    have part := (List.take_sublist (k + 1) xs).countP_le (p := fun x => x ≤ xs[k])
    rw [front, List.length_take] at part
    omega
  above := by
    have back : (xs.drop k).countP (xs[k] ≤ ·) = (xs.drop k).length := by
      refine List.countP_eq_length.mpr fun x hx => decide_eq_true ?_
      obtain ⟨i, hi, rfl⟩ := List.mem_drop_iff_getElem.mp hx
      exact getElem_le_getElem sorted (Nat.le_add_right k i) _
    have part := (List.drop_sublist k xs).countP_le (p := fun x => xs[k] ≤ x)
    rwa [back, List.length_drop] at part

end Ranks

/-! ## The percentile of a window -/

namespace LatencyWindow

/-- The place is there if anything is. -/
theorem percentileIndex_eq {n : Nat} (pos : 0 < n) : percentileIndex n = 99 * n / 100 := by
  rw [percentileIndex]
  omega

/-- **The percentile has its place** in the window. -/
theorem ranks_percentile99 (w : LatencyWindow) (pos : 0 < w.toList.length) :
    Ranks w.toList (99 * w.toList.length / 100) w.percentile99 := by
  have perm := List.mergeSort_perm w.toList fun a b => a ≤ b
  have ascending := @List.pairwise_mergeSort UInt64 (fun a b => a ≤ b)
    (fun a b c => by simpa only [decide_eq_true_eq] using UInt64.le_trans)
    (fun a b => by simpa only [Bool.or_eq_true, decide_eq_true_eq] using UInt64.le_total a b)
    w.toList
  simp only [decide_eq_true_eq] at ascending
  rw [percentile99]
  generalize (w.toList.mergeSort fun a b => a ≤ b) = sorted at perm ascending
  have length := perm.length_eq
  have place : 99 * w.toList.length / 100 < sorted.length := by omega
  simp only [length, percentileIndex_eq pos, List.getElem?_eq_getElem place, Option.getD_some]
  exact (Ranks.getElem ascending place).perm perm

/-- Without measurements it is zero. -/
theorem percentile99_of_nil {w : LatencyWindow} (h : w.toList = []) : w.percentile99 = 0 := by
  simp [percentile99, h]

/-- The place as it is computed in floating point: `0.99` of the count, without what lies behind
the point. As the product is not negative, this is to round it down. -/
def floatPlace (n : Nat) : Nat := ((UInt64.ofNat n).toFloat * 0.99).toUInt64.toNat

open Binary64 in
/-- The nearest to `0.99` in 53 bits is a little less than that. -/
theorem unpack_hundredths :
    (0.99 : Float).toModel.unpack =
      .finite .positive 8917127262193582 (-(53 : Nat)) (by decide) := by
  have packed :
      (0.99 : Float).toModel =
        .pack (.finite .positive 8917127262193582 (-(53 : Nat)) (by decide)) := by
    decide +kernel
  have full : Full 8917127262193582 := by decide
  rw [packed]
  exact unpack_pack full (by decide) (by decide)

/-- What is near the product has its whole part. The mantissa of `0.99` is `99 * 2 ^ 53 / 100`, less
a small part of one. So if the hundredth part is not whole, the product is far from the next whole
number on either side; if it is, it is the only multiple of the unit that is near the product. -/
theorem div_eq_of_near {n v x unit : Nat} (hv : 2 ^ 39 ≤ v) (hm : n * v < 2 ^ 53)
    (hu : unit = 2 ^ 52 ∨ unit = 2 ^ 53)
    (near : Binary64.Near (n * v * 8917127262193582) (x * unit) unit) :
    x * unit / (v * 2 ^ 53) = 99 * n / 100 := by
  obtain ⟨q, hq⟩ : ∃ q, 99 * n / 100 = q := ⟨_, rfl⟩
  obtain ⟨r, hr⟩ : ∃ r, 99 * n % 100 = r := ⟨_, rfl⟩
  have split : 99 * n = 100 * q + r := by omega
  have scaled : 99 * (n * v) = 100 * (q * v) + r * v := by
    rw [← Nat.mul_assoc, split, Nat.add_mul, Nat.mul_assoc]
  have above : r * v ≤ 99 * v := Nat.mul_le_mul_right v (by omega)
  have whole : r = 0 → r * v = 0 := by
    rintro rfl
    exact Nat.zero_mul v
  have broken : r = 0 ∨ v ≤ r * v :=
    (Nat.eq_zero_or_pos r).imp id (Nat.le_mul_of_pos_left v)
  obtain ⟨lower, upper⟩ := near
  rw [hq]
  refine Nat.div_eq_of_lt_le ?_ ?_
  · rw [← Nat.mul_assoc]
    rcases hu with rfl | rfl <;> omega
  · rw [Nat.succ_mul, ← Nat.mul_assoc]
    rcases hu with rfl | rfl <;> omega

/-- **Floating point finds the place**, for every count that a window can have. -/
theorem floatPlace_eq {n : Nat} (h : n ≤ capacity) : floatPlace n = 99 * n / 100 := by
  rw [capacity] at h
  rcases Nat.eq_zero_or_pos n with rfl | pos
  · decide +kernel
  obtain ⟨s, full, small, number⟩ := Binary64.unpack_toFloat pos (by omega)
  have large : 39 ≤ s := by
    by_contra few
    have power : 2 ^ s ≤ 2 ^ 38 := Nat.pow_le_pow_right (by decide) (by omega)
    have product := Nat.mul_le_mul h power
    have bound := full.1
    omega
  obtain ⟨x, unit, hu, near, whole⟩ :=
    Binary64.toUInt64_mul full (by decide) number unpack_hundredths (by omega) (by omega)
  rw [floatPlace, whole, Nat.pow_add]
  exact div_eq_of_near (Nat.pow_le_pow_right (by decide) large) full.2 hu near

end LatencyWindow

/-! ## Histories -/

namespace Metrics

/-- How long a request took, in nanoseconds. -/
def Event.nanoseconds? : Event → Option Nat
  | request _ nanoseconds => some nanoseconds
  | decodeError | opened | closed | batchesFetched _ => none

/-- How long the requests took in nanoseconds, first first. -/
def times (events : List Event) : List Nat := events.filterMap Event.nanoseconds?

/-- How many whole microseconds the requests took, first first. They are counted in words, which
wrap. -/
def durations (events : List Event) : List UInt64 :=
  (times events).map fun nanoseconds => UInt64.ofNat (nanoseconds / 1000)

/-- How long the latest requests took: as many as the window holds, if there were so many. -/
def latest (events : List Event) : List UInt64 :=
  (durations events).drop ((durations events).length - LatencyWindow.capacity)

/-- As numbers they are the remainders of the microseconds. -/
theorem map_toNat_durations (events : List Event) :
    (durations events).map UInt64.toNat =
      (times events).map fun nanoseconds => nanoseconds / 1000 % 2 ^ 64 := by
  rw [durations, List.map_map]
  refine List.map_congr_left fun nanoseconds _ => ?_
  exact UInt64.toNat_ofNat'

theorem durations_cons_of_none {e : Event} (h : e.nanoseconds? = none) (events : List Event) :
    durations (e :: events) = durations events := by
  rw [durations, durations, times, times, List.filterMap_cons_none h]

theorem durations_cons_of_some {e : Event} {nanoseconds : Nat}
    (h : e.nanoseconds? = some nanoseconds) (events : List Event) :
    durations (e :: events) = UInt64.ofNat (nanoseconds / 1000) :: durations events := by
  rw [durations, durations, times, times, List.filterMap_cons_some h, List.map_cons]

/-- A request adds how long it took to the window, and nothing else does. -/
theorem latencies_record (m : Metrics) (e : Event) :
    (m.record e).latencies =
      match e.nanoseconds? with
      | none => m.latencies
      | some nanoseconds => m.latencies.add (UInt64.ofNat (nanoseconds / 1000)) := by
  cases e with
  | request api nanoseconds => cases api <;> rfl
  | decodeError | opened | closed | batchesFetched => rfl

/-- **The window holds the latest requests**, on top of what it held before. -/
theorem toList_recordAll (m : Metrics) (events : List Event) :
    (m.recordAll events).latencies.toList =
      ((durations events).reverse ++ m.latencies.toList).take LatencyWindow.capacity := by
  have cut (xs ys : List UInt64) (n : Nat) : (xs ++ ys.take n).take n = (xs ++ ys).take n := by
    rw [List.take_append, List.take_append, List.take_take, Nat.min_eq_left (Nat.sub_le n _)]
  induction events generalizing m with
  | nil =>
    show m.latencies.toList = m.latencies.toList.take LatencyWindow.capacity
    rw [LatencyWindow.toList, List.take_take, Nat.min_self]
  | cons e events ih =>
    have later := ih (m.record e)
    rw [latencies_record] at later
    rw [recordAll, List.foldl_cons, ← recordAll, later]
    rcases h : e.nanoseconds? with _ | nanoseconds
    · rw [durations_cons_of_none h]
    · rw [durations_cons_of_some h, List.reverse_cons, List.append_assoc, List.singleton_append,
        LatencyWindow.toList_add, cut]

/-- The window is that of the latest requests, latest first. -/
theorem toList_latest (events : List Event) :
    (zero.recordAll events).latencies.toList = (latest events).reverse := by
  rw [toList_recordAll, latest, ← List.take_reverse]
  exact congrArg (List.take _) (List.append_nil _)

theorem length_durations (events : List Event) :
    (durations events).length = weight events .requests := by
  induction events with
  | nil => rfl
  | cons e events ih =>
    rw [weight_cons, ← ih]
    cases e with
    | request => exact Nat.add_comm _ 1
    | decodeError | opened | closed | batchesFetched => exact (Nat.zero_add _).symm

/-- The window grows with the requests until it is full. -/
theorem length_latest (events : List Event) :
    (latest events).length = min (weight events .requests) LatencyWindow.capacity := by
  rw [latest, List.length_drop, length_durations]
  omega

/-- Each request is one to an api. -/
theorem weight_requests (events : List Event) :
    weight events .requests =
      weight events (.requestsTo .apiVersions) + weight events (.requestsTo .fetch) +
        weight events (.requestsTo .describeTopicPartitions) := by
  induction events with
  | nil => rfl
  | cons e events ih =>
    simp only [weight_cons, ih]
    cases e with
    | request api =>
      cases api <;> simp only [Event.weight, reduceCtorEq, if_true, if_false] <;> omega
    | decodeError | opened | closed | batchesFetched => simp only [Event.weight]; omega

/-- Each counter shows its events, and wraps. -/
theorem toNat_get (events : List Event) (k : Counter) :
    ((zero.recordAll events).get k).toNat = weight events k % 2 ^ 64 := by
  have fresh : zero.get k = 0 := by
    cases k with
    | requestsTo api => cases api <;> rfl
    | requests | decodeErrors | opened | closed | fetchBatches => rfl
  rw [get_recordAll, fresh, UInt64.zero_add, UInt64.toNat_ofNat']

/-- As each request counts for its api too, the sums agree even where counters have wrapped. -/
theorem toNat_requests (events : List Event) :
    (zero.recordAll events).requests.toNat =
      ((zero.recordAll events).apiVersions.toNat + (zero.recordAll events).fetch.toNat +
        (zero.recordAll events).describeTopicPartitions.toNat) % 2 ^ 64 := by
  have all := toNat_get events .requests
  have apiVersions := toNat_get events (.requestsTo .apiVersions)
  have fetch := toNat_get events (.requestsTo .fetch)
  have describe := toNat_get events (.requestsTo .describeTopicPartitions)
  rw [weight_requests] at all
  simp only [get] at all apiVersions fetch describe
  omega

/-- The percentile has its place among the latest requests. -/
theorem ranks_latest {events : List Event} (pos : 0 < weight events .requests) :
    Ranks (latest events) (99 * (latest events).length / 100)
      (zero.recordAll events).latencies.percentile99 := by
  have length := length_latest events
  have window := toList_latest events
  have place := (zero.recordAll events).latencies.ranks_percentile99
  rw [window, List.length_reverse, length] at place
  rw [length]
  exact (place (Nat.lt_min.mpr ⟨pos, by decide⟩)).perm (List.reverse_perm _)

/-- Without requests there is nothing in the window. -/
theorem percentile99_of_none {events : List Event} (none : weight events .requests = 0) :
    (zero.recordAll events).latencies.percentile99 = 0 := by
  have empty : latest events = [] := by
    rw [← List.length_eq_zero_iff, length_latest, none]
    rfl
  refine LatencyWindow.percentile99_of_nil ?_
  rw [toList_latest, empty, List.reverse_nil]

/-- The order of the latest requests does not matter, and nothing before them. -/
theorem percentile99_congr {events others : List Event}
    (same : (latest events).Perm (latest others)) :
    (zero.recordAll events).latencies.percentile99 =
      (zero.recordAll others).latencies.percentile99 := by
  have length := same.length_eq
  rcases Nat.eq_zero_or_pos (latest events).length with empty | pos
  · have idle := length_latest events
    have idle' := length_latest others
    rw [LatencyWindow.capacity] at idle idle'
    rw [percentile99_of_none (by omega), percentile99_of_none (by omega)]
  · have busy := length_latest events
    have busy' := length_latest others
    have place : Ranks (latest events) _ _ := ranks_latest (by omega)
    have place' : Ranks (latest others) _ _ := ranks_latest (by omega)
    rw [← length] at place'
    exact place.unique (by omega) (place'.perm same.symm)

/-- **A report is exact**, whatever has happened. Each counter shows its events, and all requests
are those to the three apis. The window holds how many whole microseconds the latest requests took,
as far as words can tell. The percentile is zero if there was no request; else it has its place
among these, which is also the one that floating point finds. So it is the same wherever the same
latest requests come in another order, or behind others. -/
theorem report_exact :
    (∀ n ≤ 10000, LatencyWindow.floatPlace n = 99 * n / 100) ∧
      ∀ events, let metrics := zero.recordAll events
        (∀ k, (metrics.get k).toNat = weight events k % 2 ^ 64) ∧
        metrics.requests.toNat =
          (metrics.apiVersions.toNat + metrics.fetch.toNat +
            metrics.describeTopicPartitions.toNat) % 2 ^ 64 ∧
        (metrics.latencies.toList = (latest events).reverse ∧ latest events <:+ durations events ∧
          (latest events).length = min (weight events .requests) 10000 ∧
          (durations events).map UInt64.toNat =
            (times events).map fun nanoseconds => nanoseconds / 1000 % 2 ^ 64) ∧
        (weight events .requests = 0 → metrics.latencies.percentile99 = 0) ∧
        (0 < weight events .requests →
          Ranks (latest events) (99 * (latest events).length / 100)
            metrics.latencies.percentile99) ∧
        ∀ others, (latest events).Perm (latest others) →
          (zero.recordAll others).latencies.percentile99 = metrics.latencies.percentile99 := by
  refine ⟨fun n h => LatencyWindow.floatPlace_eq h, ?_⟩
  intro events metrics
  exact ⟨toNat_get events, toNat_requests events,
    ⟨toList_latest events, List.drop_suffix _ _, length_latest events,
      map_toNat_durations events⟩,
    percentile99_of_none, ranks_latest, fun others same => (percentile99_congr same).symm⟩

/-- More requests than the window holds, of which the first took longest. The others took from `0`
to `9999` microseconds, and almost one more. -/
def longHistory : List Event :=
  .opened :: .request .fetch 20000000000 ::
    (List.range 10000).map fun i => .request .apiVersions (1000 * i + 999)

/-- As many requests as the window holds, the last of the others first. Each took so many
microseconds more as a word cannot tell. -/
def shortHistory : List Event :=
  (List.range 10000).reverse.map fun i => .request .describeTopicPartitions ((2 ^ 64 + i) * 1000)

theorem durations_map_request (api : ApiKey) (time : Nat → Nat) (is : List Nat) :
    durations (is.map fun i => .request api (time i)) =
      is.map fun i => UInt64.ofNat (time i / 1000) := by
  have times : times (is.map fun i => .request api (time i)) = is.map time := by
    rw [times, List.filterMap_map]
    exact congrFun List.filterMap_eq_map' is
  rw [durations, times, List.map_map]
  rfl

/-- The request that took longest has left the window. -/
theorem latest_longHistory : latest longHistory = (List.range 10000).map UInt64.ofNat := by
  have others : durations longHistory =
      UInt64.ofNat (20000000000 / 1000) :: (List.range 10000).map UInt64.ofNat := by
    rw [longHistory, durations_cons_of_none rfl, durations_cons_of_some rfl, durations_map_request]
    refine congrArg (List.cons _) (List.map_congr_left fun i _ => ?_)
    exact congrArg UInt64.ofNat (by omega)
  rw [latest, others, List.length_cons, List.length_map, List.length_range, LatencyWindow.capacity,
    Nat.add_sub_cancel_left, List.drop_one, List.tail_cons]

/-- What a word cannot tell makes no difference. -/
theorem latest_shortHistory :
    latest shortHistory = ((List.range 10000).map UInt64.ofNat).reverse := by
  have wraps (i : Nat) : UInt64.ofNat ((2 ^ 64 + i) * 1000 / 1000) = UInt64.ofNat i := by
    rw [Nat.mul_div_cancel _ (by decide), ← UInt64.toNat_inj, UInt64.toNat_ofNat',
      UInt64.toNat_ofNat', Nat.add_mod_left]
  rw [latest, shortHistory, durations_map_request, List.length_map, List.length_reverse,
    List.length_range, LatencyWindow.capacity, Nat.sub_self, List.drop_zero, ← List.map_reverse]
  exact List.map_congr_left fun i _ => wraps i

/-- Of the numbers from zero on each has its own place. -/
theorem ranks_range {n k : Nat} (hn : n ≤ 2 ^ 64) (hk : k < n) :
    Ranks ((List.range n).map UInt64.ofNat) k (UInt64.ofNat k) := by
  have sorted : ((List.range n).map UInt64.ofNat).Pairwise (· ≤ ·) := by
    rw [List.pairwise_map]
    refine List.pairwise_le_range.imp_of_mem ?_
    intro i j hi hj h
    have hi := List.mem_range.mp hi
    have hj := List.mem_range.mp hj
    rwa [UInt64.le_iff_toNat_le, UInt64.toNat_ofNat_of_lt' (Nat.lt_of_lt_of_le hi hn),
      UInt64.toNat_ofNat_of_lt' (Nat.lt_of_lt_of_le hj hn)]
  have place : k < ((List.range n).map UInt64.ofNat).length := by
    rwa [List.length_map, List.length_range]
  have ranks := Ranks.getElem sorted place
  rwa [List.getElem_map, List.getElem_range] at ranks

/-- Of the latest requests 9900 took less than 9900 whole microseconds and 99 took more. The one
that took longest is gone, and the order makes no difference. Without requests the percentile is
zero. -/
theorem report_exact_longHistory :
    (zero.recordAll longHistory).latencies.percentile99 = 9900 ∧
      (zero.recordAll shortHistory).latencies.percentile99 = 9900 ∧
      (zero.recordAll [.opened]).latencies.percentile99 = 0 := by
  have size : ((List.range 10000).map UInt64.ofNat).length = 10000 := by
    rw [List.length_map, List.length_range]
  obtain ⟨-, reported⟩ := report_exact
  obtain ⟨-, -, ⟨-, -, length, -⟩, -, place, same⟩ := reported longHistory
  obtain ⟨-, -, -, idle, -⟩ := reported [.opened]
  rw [latest_longHistory, size] at length place
  have long : (zero.recordAll longHistory).latencies.percentile99 = 9900 :=
    (place (by omega)).unique (by omega) (ranks_range (by omega) (by omega))
  refine ⟨long, ?_, idle rfl⟩
  rw [← long]
  refine same shortHistory ?_
  rw [latest_longHistory, latest_shortHistory]
  exact (List.reverse_perm _).symm

end Metrics

end LogBroker
