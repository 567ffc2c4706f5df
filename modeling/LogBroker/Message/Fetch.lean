import LogBroker.Api
import LogBroker.Log.Batch

/-!
# The api that fetches records

A request names topics by id, and for each of them partitions. The response has one
entry for each topic and within it one for each partition, with the batches of that
partition's log.

What else a request carries (offsets, limits, a session, topics to forget) is read and
written, but it has no influence on the answer.
-/

namespace LogBroker

open Wire Layout

/-! ## Requests -/

/-- A partition from which records are asked. -/
structure FetchPartition where
  /-- number of the partition -/
  partition : Int32
  /-- epoch of the leader as the client knows it, or `-1` -/
  currentLeaderEpoch : Int32 := -1
  /-- first offset of interest -/
  fetchOffset : Int64 := 0
  /-- epoch of the last record that the client has, or `-1` -/
  lastFetchedEpoch : Int32 := -1
  /-- start of the client's own log, or `-1` -/
  logStartOffset : Int64 := -1
  /-- how many bytes the client wants at most -/
  partitionMaxBytes : Int32 := 1024 * 1024
deriving DecidableEq, Repr

/-- A partition of a request on the wire. -/
def FetchPartition.layout : Layout FetchPartition :=
  tagged <| packed
    (int32.andThen <| int32.andThen <| int64.andThen <| int32.andThen <| int64.andThen int32) {
      pack := fun (partition, currentLeaderEpoch, fetchOffset, lastFetchedEpoch, logStartOffset,
          partitionMaxBytes) =>
        { partition, currentLeaderEpoch, fetchOffset, lastFetchedEpoch, logStartOffset,
          partitionMaxBytes }
      fields := fun p =>
        (p.partition, p.currentLeaderEpoch, p.fetchOffset, p.lastFetchedEpoch,
          p.logStartOffset, p.partitionMaxBytes) }

/-- A topic from which records are asked. -/
structure FetchTopic where
  /-- id of the topic -/
  topicId : Uuid
  /-- its partitions of interest -/
  partitions : List FetchPartition
deriving DecidableEq, Repr

/-- A topic of a request on the wire. -/
def FetchTopic.layout : Layout FetchTopic :=
  tagged <| packed (uuid.andThen (compactArray FetchPartition.layout)) {
    pack := fun (topicId, partitions) => { topicId, partitions }
    fields := fun t => (t.topicId, t.partitions) }

/-- Partitions that the client's session shall drop. -/
structure ForgottenTopic where
  /-- id of the topic -/
  topicId : Uuid
  /-- numbers of the partitions -/
  partitions : List Int32
deriving DecidableEq, Repr

/-- Partitions to drop on the wire. -/
def ForgottenTopic.layout : Layout ForgottenTopic :=
  tagged <| packed (uuid.andThen (compactArray int32)) {
    pack := fun (topicId, partitions) => { topicId, partitions }
    fields := fun t => (t.topicId, t.partitions) }

/-- Asks for records. A request that names only its topics has no session and the limits
that clients use. -/
structure FetchRequest where
  /-- milliseconds for which the client would wait for records -/
  maxWaitMs : Int32 := 500
  /-- how many bytes the client wants at least -/
  minBytes : Int32 := 1
  /-- how many bytes the client wants at most -/
  maxBytes : Int32 := 50 * 1024 * 1024
  /-- whether records of open transactions are wanted -/
  isolationLevel : Int8 := 0
  /-- the session, or zero -/
  sessionId : Int32 := 0
  /-- the session's epoch, or `-1` -/
  sessionEpoch : Int32 := -1
  /-- topics of interest -/
  topics : List FetchTopic
  /-- partitions that the session shall drop -/
  forgottenTopics : List ForgottenTopic := []
  /-- where the client is -/
  rackId : String := ""
deriving DecidableEq, Repr

/-- The request on the wire. -/
def FetchRequest.layout : Layout FetchRequest :=
  tagged <| packed
    (int32.andThen <| int32.andThen <| int32.andThen <| int8.andThen <| int32.andThen <|
      int32.andThen <| (compactArray FetchTopic.layout).andThen <|
      (compactArray ForgottenTopic.layout).andThen compactString) {
        pack := fun (maxWaitMs, minBytes, maxBytes, isolationLevel, sessionId, sessionEpoch,
            topics, forgottenTopics, rackId) =>
          { maxWaitMs, minBytes, maxBytes, isolationLevel, sessionId, sessionEpoch, topics,
            forgottenTopics, rackId }
        fields := fun r =>
          (r.maxWaitMs, r.minBytes, r.maxBytes, r.isolationLevel, r.sessionId, r.sessionEpoch,
            r.topics, r.forgottenTopics, r.rackId) }

/-! ## Responses -/

/-- A transaction that was given up; the broker reports none. -/
structure AbortedTransaction where
  /-- who wrote it -/
  producerId : Int64
  /-- its first offset -/
  firstOffset : Int64
deriving DecidableEq, Repr

/-- An aborted transaction on the wire. -/
def AbortedTransaction.layout : Layout AbortedTransaction :=
  tagged <| packed (int64.andThen int64) {
    pack := fun (producerId, firstOffset) => { producerId, firstOffset }
    fields := fun t => (t.producerId, t.firstOffset) }

/-- The records of a partition. -/
structure PartitionData where
  /-- number of the partition -/
  partitionIndex : Int32
  /-- whether the partition was answered -/
  errorCode : Int16
  /-- offset behind the last record -/
  highWatermark : Int64
  /-- offset behind the last record that no open transaction covers -/
  lastStableOffset : Int64
  /-- offset of the first record -/
  logStartOffset : Int64
  /-- transactions that were given up -/
  abortedTransactions : List AbortedTransaction
  /-- where to read instead, or `-1` -/
  preferredReadReplica : Int32
  /-- the batches of the partition's log -/
  records : List RecordBatch
deriving DecidableEq, Repr

namespace PartitionData

/-- A partition of a response on the wire. -/
def layout : Layout PartitionData :=
  tagged <| packed
    (int32.andThen <| int16.andThen <| int64.andThen <| int64.andThen <| int64.andThen <|
      (compactArray AbortedTransaction.layout).andThen <| int32.andThen <|
      compactArray RecordBatch.layout) {
        pack := fun (partitionIndex, errorCode, highWatermark, lastStableOffset, logStartOffset,
            abortedTransactions, preferredReadReplica, records) =>
          { partitionIndex, errorCode, highWatermark, lastStableOffset, logStartOffset,
            abortedTransactions, preferredReadReplica, records }
        fields := fun p =>
          (p.partitionIndex, p.errorCode, p.highWatermark, p.lastStableOffset,
            p.logStartOffset, p.abortedTransactions, p.preferredReadReplica, p.records) }

/-- A partition without records, with an error code or with the code for none. -/
def error (partitionIndex : Int32) (e : ErrorCode) : PartitionData where
  partitionIndex := partitionIndex
  errorCode := e.code
  highWatermark := 0
  lastStableOffset := 0
  logStartOffset := 0
  abortedTransactions := []
  preferredReadReplica := -1
  records := []

/-- A partition that holds these batches. Its log starts where the first batch does and
ends behind the last; a log without batches is at zero. -/
def ofBatches (partitionIndex : Int32) (batches : List RecordBatch) : PartitionData :=
  let finish := (batches.getLast?.map RecordBatch.nextOffset).getD 0
  { error partitionIndex .none with
    highWatermark := finish
    lastStableOffset := finish
    logStartOffset := (batches.head?.map RecordBatch.baseOffset).getD 0
    records := batches }

end PartitionData

/-- The partitions of a topic. -/
structure FetchableTopicResponse where
  /-- id of the topic, repeated from the request -/
  topicId : Uuid
  /-- its partitions -/
  partitions : List PartitionData
deriving DecidableEq, Repr

/-- A topic of a response on the wire. -/
def FetchableTopicResponse.layout : Layout FetchableTopicResponse :=
  tagged <| packed (uuid.andThen (compactArray PartitionData.layout)) {
    pack := fun (topicId, partitions) => { topicId, partitions }
    fields := fun t => (t.topicId, t.partitions) }

/-- Answers with records. -/
structure FetchResponse where
  /-- milliseconds for which the client should wait; always zero -/
  throttleTimeMs : Int32
  /-- whether the request as a whole was answered -/
  errorCode : Int16
  /-- the session, or zero -/
  sessionId : Int32
  /-- the topics, as requested -/
  responses : List FetchableTopicResponse
deriving DecidableEq, Repr

namespace FetchResponse

/-- The response on the wire. -/
def layout : Layout FetchResponse :=
  tagged <| packed
    (int32.andThen <| int16.andThen <| int32.andThen <|
      compactArray FetchableTopicResponse.layout) {
        pack := fun (throttleTimeMs, errorCode, sessionId, responses) =>
          { throttleTimeMs, errorCode, sessionId, responses }
        fields := fun r => (r.throttleTimeMs, r.errorCode, r.sessionId, r.responses) }

/-- The batches that the response carries, over all topics and partitions. -/
def batches (r : FetchResponse) : List RecordBatch :=
  r.responses.flatMap fun topic => topic.partitions.flatMap fun p => p.records

end FetchResponse

end LogBroker
