import LogBroker.Metrics.Counters
import Mathlib.Algebra.Ring.Nat

/-!
# What the counters count

Each counter grows with an event by the event's weight for it, so over a row of events it
grows by the sum of the weights, as far as a word of 64 bits can tell. In this the
counters are alike, and `Counter` lets one statement speak of all of them.
-/

namespace LogBroker

/-- The counters. -/
inductive Counter where
  /-- requests answered -/
  | requests
  /-- requests to one api -/
  | requestsTo (api : ApiKey)
  /-- connections ended by what cannot be read -/
  | decodeErrors
  /-- connections opened -/
  | opened
  /-- connections closed -/
  | closed
  /-- batches returned by fetches -/
  | fetchBatches

namespace Metrics

/-- What a counter shows. -/
def get (m : Metrics) : Counter → UInt64
  | .requests => m.requests
  | .requestsTo .apiVersions => m.apiVersions
  | .requestsTo .fetch => m.fetch
  | .requestsTo .describeTopicPartitions => m.describeTopicPartitions
  | .decodeErrors => m.decodeErrors
  | .opened => m.connectionsOpened
  | .closed => m.connectionsClosed
  | .fetchBatches => m.fetchBatches

/-- By how much an event moves a counter. -/
def Event.weight : Event → Counter → Nat
  | request _ _, .requests => 1
  | request api _, .requestsTo api' => if api = api' then 1 else 0
  | decodeError, .decodeErrors => 1
  | opened, .opened => 1
  | closed, .closed => 1
  | batchesFetched count, .fetchBatches => count
  | _, _ => 0

/-- The weight of a row of events. -/
def weight (events : List Event) (k : Counter) : Nat := (events.map fun e => e.weight k).sum

@[simp] theorem weight_nil (k : Counter) : weight [] k = 0 := rfl

@[simp] theorem weight_cons (e : Event) (events : List Event) (k : Counter) :
    weight (e :: events) k = e.weight k + weight events k := rfl

/-- What happens later is added. -/
@[simp] theorem weight_append (es es' : List Event) (k : Counter) :
    weight (es ++ es') k = weight es k + weight es' k := by
  rw [weight, List.map_append, List.sum_append]
  rfl

/-- An event adds its weight to each counter. -/
theorem get_record (m : Metrics) (e : Event) (k : Counter) :
    (m.record e).get k = m.get k + UInt64.ofNat (e.weight k) := by
  cases e with
  | request api nanoseconds =>
    cases k with
    | requestsTo api' => cases api <;> cases api' <;> simp [record, countApi, get, Event.weight]
    | requests | decodeErrors | opened | closed | fetchBatches =>
      cases api <;> simp [record, countApi, get, Event.weight]
  | decodeError | opened | closed | batchesFetched =>
    cases k with
    | requestsTo api => cases api <;> simp [record, get, Event.weight]
    | requests | decodeErrors | opened | closed | fetchBatches =>
      simp [record, get, Event.weight]

/-- **A counter shows its events**, on top of what it showed before. -/
theorem get_recordAll (m : Metrics) (events : List Event) (k : Counter) :
    (m.recordAll events).get k = m.get k + UInt64.ofNat (weight events k) := by
  induction events generalizing m with
  | nil => simp [recordAll]
  | cons e events ih =>
    have later := ih (m.record e)
    rw [recordAll, List.foldl_cons, ← recordAll, later, get_record, weight_cons, UInt64.ofNat_add,
      UInt64.add_assoc]

end Metrics

end LogBroker
