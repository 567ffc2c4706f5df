import LogBroker.Api
import LogBroker.Metrics.Window

/-!
# Counters

A server counts what it does: requests in all and by api, connections that ended by a
request that could not be read, connections opened and closed, and the batches of
records that fetches returned. Counters are words of 64 bits and wrap. The time that
each request took goes into a window, from which a percentile is taken.

All of this is a fold over the events of the server's life.
-/

namespace LogBroker

/-- What has been counted. -/
structure Metrics where
  /-- requests answered -/
  requests : UInt64 := 0
  /-- of those, requests for the apis -/
  apiVersions : UInt64 := 0
  /-- of those, requests for records -/
  fetch : UInt64 := 0
  /-- of those, requests for topics -/
  describeTopicPartitions : UInt64 := 0
  /-- connections ended by a frame that is too large or a request that cannot be read -/
  decodeErrors : UInt64 := 0
  /-- connections opened -/
  connectionsOpened : UInt64 := 0
  /-- connections closed -/
  connectionsClosed : UInt64 := 0
  /-- batches returned by fetches -/
  fetchBatches : UInt64 := 0
  /-- how long the latest requests took -/
  latencies : LatencyWindow := LatencyWindow.empty

namespace Metrics

/-- What can be counted. -/
inductive Event where
  /-- a request to the api was answered within so many nanoseconds -/
  | request (api : ApiKey) (nanoseconds : Nat)
  /-- a connection ended because its next request cannot be read -/
  | decodeError
  /-- a connection was opened -/
  | opened
  /-- a connection was closed -/
  | closed
  /-- so many batches were read for a fetch -/
  | batchesFetched (count : Nat)
deriving DecidableEq, Repr

/-- Nothing has been counted. -/
def zero : Metrics := {}

/-- One more request to the api in its own counter. -/
def countApi (m : Metrics) : ApiKey → Metrics
  | .apiVersions => { m with apiVersions := m.apiVersions + 1 }
  | .fetch => { m with fetch := m.fetch + 1 }
  | .describeTopicPartitions =>
    { m with describeTopicPartitions := m.describeTopicPartitions + 1 }

/-- Whole microseconds; above 64 bits the count wraps. -/
def microseconds (nanoseconds : Nat) : UInt64 := UInt64.ofNat (nanoseconds / 1000)

/-- The counters after an event. -/
def record (m : Metrics) : Event → Metrics
  | .request api nanoseconds =>
    let counted := m.countApi api
    { counted with
      requests := counted.requests + 1
      latencies := counted.latencies.add (microseconds nanoseconds) }
  | .decodeError => { m with decodeErrors := m.decodeErrors + 1 }
  | .opened => { m with connectionsOpened := m.connectionsOpened + 1 }
  | .closed => { m with connectionsClosed := m.connectionsClosed + 1 }
  | .batchesFetched count => { m with fetchBatches := m.fetchBatches + UInt64.ofNat count }

/-- The counters after a row of events. -/
def recordAll (m : Metrics) (events : List Event) : Metrics := events.foldl record m

end Metrics

end LogBroker
