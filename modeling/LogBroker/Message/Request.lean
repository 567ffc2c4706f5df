import LogBroker.Message.ApiVersions
import LogBroker.Message.DescribeTopicPartitions
import LogBroker.Message.Fetch
import LogBroker.Message.Header
import LogBroker.Wire.Frame

/-!
# Requests

The requests of the Kafka protocol that the broker serves. A request message is a header
and a request; the number of the api in the header says which request follows when the
message is read. When it is written the two go out as they are, even if they do not
agree.
-/

namespace LogBroker

open Wire

/-- A request to one of the apis. -/
inductive Request where
  /-- asks for the apis -/
  | apiVersions (request : ApiVersionsRequest)
  /-- asks for records -/
  | fetch (request : FetchRequest)
  /-- asks for topics -/
  | describeTopicPartitions (request : DescribeTopicPartitionsRequest)
deriving DecidableEq, Repr

namespace Request

/-- The api of a request. -/
def api : Request → ApiKey
  | apiVersions _ => .apiVersions
  | fetch _ => .fetch
  | describeTopicPartitions _ => .describeTopicPartitions

/-- The request to an api. -/
def read : ApiKey → Reader Request
  | .apiVersions => apiVersions <$> ApiVersionsRequest.layout.read
  | .fetch => fetch <$> FetchRequest.layout.read
  | .describeTopicPartitions =>
    describeTopicPartitions <$> DescribeTopicPartitionsRequest.layout.read

/-- The bytes of a request. -/
def write : Request → Bytes
  | apiVersions request => ApiVersionsRequest.layout.write request
  | fetch request => FetchRequest.layout.write request
  | describeTopicPartitions request => DescribeTopicPartitionsRequest.layout.write request

end Request

/-- A request with its header. -/
structure RequestMessage where
  /-- says to which api the request goes and how to answer -/
  header : RequestHeader
  /-- what is asked -/
  request : Request
deriving DecidableEq, Repr

namespace RequestMessage

/-- A message off the front of the input. The header is taken before its api is looked
at; bytes behind the request are left. -/
def read : Reader RequestMessage := do
  let header ← RequestHeader.layout.read
  match ApiKey.ofCode? header.apiKey with
  | none => Reader.fail (.unsupportedRequest header.apiKey)
  | some api =>
    let request ← Request.read api
    pure { header, request }

/-- The bytes of a message. -/
def write (m : RequestMessage) : Bytes := RequestHeader.layout.write m.header ++ m.request.write

/-- A message in a frame, off the front of a complete input. -/
def readFrame : Reader RequestMessage := Frame.read read

/-- A message in a frame. -/
def toFrame (m : RequestMessage) : Bytes := Frame.encode m.write

end RequestMessage

end LogBroker
