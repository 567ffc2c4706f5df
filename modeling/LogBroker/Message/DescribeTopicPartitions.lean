import LogBroker.Api
import LogBroker.Wire.Layout

/-!
# The api that describes topics

A request names topics; the response tells the id and the partitions of each. Results
could come in pages, but they never do: a request must ask for the first page, and a
response is always complete, so the cursor of both is the null marker.
-/

namespace LogBroker

open Wire Layout

/-! ## Requests -/

/-- A topic to describe. -/
structure TopicRequest where
  /-- name of the topic -/
  name : String
deriving DecidableEq, Repr

/-- A topic of a request on the wire. -/
def TopicRequest.layout : Layout TopicRequest :=
  tagged <| packed compactString { pack := fun name => { name }, fields := fun t => t.name }

/-- Asks for topics by name. -/
structure DescribeTopicPartitionsRequest where
  /-- topics of interest -/
  topics : List TopicRequest
  /-- how many partitions the client wants at most -/
  responsePartitionLimit : Int32 := 2000
deriving DecidableEq, Repr

namespace DescribeTopicPartitionsRequest

/-- The request on the wire. -/
def layout : Layout DescribeTopicPartitionsRequest :=
  tagged <| closedBy
    (packed ((compactArray TopicRequest.layout).andThen int32) {
      pack := fun (topics, responsePartitionLimit) => { topics, responsePartitionLimit }
      fields := fun r => (r.topics, r.responsePartitionLimit) })
    .cursor

/-- The request for topics of these names. -/
def ofNames (names : List String) : DescribeTopicPartitionsRequest :=
  { topics := names.map TopicRequest.mk }

end DescribeTopicPartitionsRequest

/-! ## Responses -/

/-- A partition of a described topic. Only its number is known: it is reported as led by
node zero and as without replicas. -/
structure ResponsePartition where
  /-- whether the partition was answered -/
  errorCode : Int16 := ErrorCode.none.code
  /-- number of the partition -/
  partitionIndex : Int32
  /-- node that leads it -/
  leaderId : Int32 := 0
  /-- epoch of the leader -/
  leaderEpoch : Int32 := 0
  /-- nodes that hold it -/
  replicaNodes : List Int32 := []
  /-- nodes that are up to date -/
  isrNodes : List Int32 := []
  /-- nodes that may lead it -/
  eligibleLeaderReplicas : List Int32 := []
  /-- nodes that last might have led it -/
  lastKnownElr : List Int32 := []
  /-- nodes that are down -/
  offlineReplicas : List Int32 := []
deriving DecidableEq, Repr

/-- A partition of a response on the wire. -/
def ResponsePartition.layout : Layout ResponsePartition :=
  tagged <| packed
    (int16.andThen <| int32.andThen <| int32.andThen <| int32.andThen <|
      (compactArray int32).andThen <| (compactArray int32).andThen <|
      (compactArray int32).andThen <| (compactArray int32).andThen <| compactArray int32) {
        pack := fun (errorCode, partitionIndex, leaderId, leaderEpoch, replicaNodes, isrNodes,
            eligibleLeaderReplicas, lastKnownElr, offlineReplicas) =>
          { errorCode, partitionIndex, leaderId, leaderEpoch, replicaNodes, isrNodes,
            eligibleLeaderReplicas, lastKnownElr, offlineReplicas }
        fields := fun p =>
          (p.errorCode, p.partitionIndex, p.leaderId, p.leaderEpoch, p.replicaNodes,
            p.isrNodes, p.eligibleLeaderReplicas, p.lastKnownElr, p.offlineReplicas) }

/-- A described topic. -/
structure ResponseTopic where
  /-- whether the topic is known -/
  errorCode : Int16
  /-- name of the topic, repeated from the request -/
  name : String
  /-- id of the topic, nil if it is not known -/
  topicId : Uuid
  /-- whether the topic is the broker's own; always false -/
  isInternal : Bool
  /-- its partitions -/
  partitions : List ResponsePartition
  /-- operations that the client may do -/
  topicAuthorizedOperations : Int32
deriving DecidableEq, Repr

namespace ResponseTopic

/-- A topic of a response on the wire. -/
def layout : Layout ResponseTopic :=
  tagged <| packed
    (int16.andThen <| compactString.andThen <| uuid.andThen <| bool.andThen <|
      (compactArray ResponsePartition.layout).andThen int32) {
        pack := fun (errorCode, name, topicId, isInternal, partitions,
            topicAuthorizedOperations) =>
          { errorCode, name, topicId, isInternal, partitions, topicAuthorizedOperations }
        fields := fun t =>
          (t.errorCode, t.name, t.topicId, t.isInternal, t.partitions,
            t.topicAuthorizedOperations) }

/-- Says that the operations a client may do were not looked up. -/
def operationsOmitted : Int32 := Int32.minValue

/-- A topic of which only the name is known. -/
def unknown (name : String) : ResponseTopic where
  errorCode := ErrorCode.unknownTopicOrPartition.code
  name := name
  topicId := Uuid.nil
  isInternal := false
  partitions := []
  topicAuthorizedOperations := operationsOmitted

/-- A topic with its id and the numbers of its partitions. -/
def found (name : String) (topicId : Uuid) (partitionIds : List Int32) : ResponseTopic :=
  { unknown name with
    errorCode := ErrorCode.none.code
    topicId := topicId
    partitions := partitionIds.map fun i => { partitionIndex := i } }

end ResponseTopic

/-- Answers with topics. -/
structure DescribeTopicPartitionsResponse where
  /-- milliseconds for which the client should wait; always zero -/
  throttleTimeMs : Int32
  /-- the topics, as requested -/
  topics : List ResponseTopic
deriving DecidableEq, Repr

/-- The response on the wire. -/
def DescribeTopicPartitionsResponse.layout : Layout DescribeTopicPartitionsResponse :=
  tagged <| closedBy
    (packed (int32.andThen (compactArray ResponseTopic.layout)) {
      pack := fun (throttleTimeMs, topics) => { throttleTimeMs, topics }
      fields := fun r => (r.throttleTimeMs, r.topics) })
    .cursor

end LogBroker
