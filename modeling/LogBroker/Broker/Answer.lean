import LogBroker.Broker.Config
import LogBroker.Message.Request
import LogBroker.Message.Response
import LogBroker.Metadata.Index

/-!
# Answering requests

A broker is its configuration and the topic index that it had when it started. It
answers a request from the index and from what the disk holds at that time; nothing of
the answer is kept, so the same request on the same disk has the same answer.

* The apis are listed for one version of the listing request and refused for others.
* A topic is described from the index alone.
* Records are fetched by topic id: the index gives the name, and each requested partition
  is answered with all batches of its log, whatever offsets and limits the request has.
  A log that is not there counts as one without batches.

Whatever the index does not know becomes an error code in the response.
-/

namespace LogBroker

/-- A broker that serves. -/
structure Broker where
  /-- the operator's choices -/
  config : BrokerConfig := {}
  /-- the topics and partitions that it knows -/
  index : TopicIndex := TopicIndex.empty

namespace Broker

/-- The topic of the log in which the cluster describes itself. -/
def metadataTopic : String := "__cluster_metadata"

/-- The partition of that log. -/
def metadataPartition : Int32 := 0

/-- The index of the metadata log on the disk, empty if there is none. -/
def replay (logs : LogDirectory) (disk : Disk) : TopicIndex :=
  match logs.readBatches disk metadataTopic metadataPartition with
  | some batches => TopicIndex.ofBatches batches
  | none => TopicIndex.empty

/-- A broker that knows what the metadata log says now. -/
def start (config : BrokerConfig) (disk : Disk) : Broker :=
  { config, index := replay config.logs disk }

/-! ## Answers by api -/

/-- The apis, for the version of the request that is served. -/
def listApis (apiVersion : Int16) : ApiVersionsResponse :=
  if apiVersion = ApiVersion.listingVersion then ApiVersionsResponse.listing
  else ApiVersionsResponse.error .unsupportedVersion

/-- A topic by its name. A topic of which no partition is known has none. -/
def describeTopic (broker : Broker) (name : String) : ResponseTopic :=
  match broker.index.topicIdByName name with
  | .error _ => ResponseTopic.unknown name
  | .ok id => ResponseTopic.found name id ((broker.index.partitionsByTopic id).toOption.getD [])

/-- The topics of a request, in its order. -/
def describe (broker : Broker) (request : DescribeTopicPartitionsRequest) :
    DescribeTopicPartitionsResponse :=
  { throttleTimeMs := 0, topics := request.topics.map fun t => broker.describeTopic t.name }

/-- A partition of a topic by the topic's name. -/
def fetchPartition (broker : Broker) (disk : Disk) (topic : String) (partition : Int32) :
    PartitionData :=
  PartitionData.ofBatches partition
    ((broker.config.logs.readBatches disk topic partition).getD [])

/-- The partitions of a request's topic, in its order; a single error if no topic has
the id. -/
def fetchTopic (broker : Broker) (disk : Disk) (topic : FetchTopic) : FetchableTopicResponse :=
  match broker.index.topicNameById topic.topicId with
  | .error _ =>
    { topicId := topic.topicId, partitions := [PartitionData.error 0 .unknownTopicId] }
  | .ok name =>
    { topicId := topic.topicId
      partitions := topic.partitions.map fun p => broker.fetchPartition disk name p.partition }

/-- The topics of a request, in its order. -/
def fetch (broker : Broker) (disk : Disk) (request : FetchRequest) : FetchResponse where
  throttleTimeMs := 0
  errorCode := ErrorCode.none.code
  sessionId := 0
  responses := request.topics.map (broker.fetchTopic disk)

/-! ## Answers to messages -/

/-- The response to a request; of its header it needs the version. -/
def respond (broker : Broker) (disk : Disk) (header : RequestHeader) : Request → Response
  | .apiVersions _ => .apiVersions (listApis header.apiVersion)
  | .fetch request => .fetch (broker.fetch disk request)
  | .describeTopicPartitions request => .describeTopicPartitions (broker.describe request)

/-- The answer to a message. The request decides which api answers, not the number in
the header. -/
def answer (broker : Broker) (disk : Disk) (m : RequestMessage) : ResponseMessage :=
  ResponseMessage.answering m.header.correlationId (broker.respond disk m.header m.request)

end Broker

end LogBroker
