import LogBroker.Message.ApiVersions
import LogBroker.Message.DescribeTopicPartitions
import LogBroker.Message.Fetch
import LogBroker.Message.Header
import LogBroker.Wire.Frame

/-!
# Responses

The responses of the Kafka protocol that the broker gives. A response message is a header
and a response. Nothing in it says which api it answers: whoever reads it knows what was
asked.
-/

namespace LogBroker

open Wire

/-- A response of one of the apis. -/
inductive Response where
  /-- lists the apis -/
  | apiVersions (response : ApiVersionsResponse)
  /-- answers with records -/
  | fetch (response : FetchResponse)
  /-- answers with topics -/
  | describeTopicPartitions (response : DescribeTopicPartitionsResponse)
deriving DecidableEq, Repr

namespace Response

/-- The api of a response. -/
def api : Response → ApiKey
  | apiVersions _ => .apiVersions
  | fetch _ => .fetch
  | describeTopicPartitions _ => .describeTopicPartitions

/-- The response of an api. -/
def read : ApiKey → Reader Response
  | .apiVersions => apiVersions <$> ApiVersionsResponse.layout.read
  | .fetch => fetch <$> FetchResponse.layout.read
  | .describeTopicPartitions =>
    describeTopicPartitions <$> DescribeTopicPartitionsResponse.layout.read

/-- The bytes of a response. -/
def write : Response → Bytes
  | apiVersions response => ApiVersionsResponse.layout.write response
  | fetch response => FetchResponse.layout.write response
  | describeTopicPartitions response => DescribeTopicPartitionsResponse.layout.write response

/-- The batches of records that a response carries. -/
def batches : Response → List RecordBatch
  | fetch response => response.batches
  | apiVersions _ | describeTopicPartitions _ => []

end Response

/-- A response with its header. -/
structure ResponseMessage where
  /-- says which request is answered -/
  header : ResponseHeader
  /-- the answer -/
  response : Response
deriving DecidableEq, Repr

namespace ResponseMessage

/-- A response to the request with this correlation id. -/
def answering (correlationId : Int32) (response : Response) : ResponseMessage :=
  { header := { correlationId }, response }

/-- A message of the given api off the front of the input. -/
def read (api : ApiKey) : Reader ResponseMessage := do
  let header ← (ResponseHeader.layout api).read
  let response ← Response.read api
  pure { header, response }

/-- The bytes of a message. -/
def write (m : ResponseMessage) : Bytes :=
  (ResponseHeader.layout m.response.api).write m.header ++ m.response.write

/-- A message in a frame. -/
def toFrame (m : ResponseMessage) : Bytes := Frame.encode m.write

end ResponseMessage

end LogBroker
