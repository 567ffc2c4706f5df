import LogBroker.Metrics.Counters

/-!
# The report

The counters as text for a monitor that collects them: for each measure a line that
tells its kind and a line that tells its value.
-/

namespace LogBroker

namespace Report

/-- Each name begins with this. -/
def namespaceName : String := "kraftlet"

/-- How a monitor reads a measure. -/
inductive Kind where
  /-- it only grows -/
  | counter
  /-- it goes up and down -/
  | gauge
deriving DecidableEq, Repr

/-- What the report calls a kind. -/
def Kind.text : Kind → String
  | counter => "counter"
  | gauge => "gauge"

/-- The two lines of a measure. -/
def measure (name : String) (kind : Kind) (value : UInt64) : String :=
  let full := namespaceName ++ "_" ++ name
  "# TYPE " ++ full ++ " " ++ kind.text ++ "\n" ++
    full ++ " " ++ toString value.toNat ++ "\n"

end Report

open Report in
/-- All measures, in a fixed order. -/
def Metrics.report (m : Metrics) : String :=
  String.join
    [measure "requests_total" .counter m.requests,
      measure "api_versions_requests_total" .counter m.apiVersions,
      measure "fetch_requests_total" .counter m.fetch,
      measure "describe_topic_partitions_requests_total" .counter m.describeTopicPartitions,
      measure "decode_errors_total" .counter m.decodeErrors,
      measure "connections_opened_total" .counter m.connectionsOpened,
      measure "connections_closed_total" .counter m.connectionsClosed,
      measure "fetch_batches_total" .counter m.fetchBatches,
      measure "request_latency_p99_us" .gauge m.latencies.percentile99]

end LogBroker
