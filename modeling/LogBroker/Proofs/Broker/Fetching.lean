import LogBroker.Proofs.Broker.Agreement
import LogBroker.Proofs.Broker.AnswerSize
import LogBroker.Proofs.Server.Interleaving

/-!
# What a fetch returns

A fetch names topics by id, and of each of them partitions by number. All of the answer comes
from the logs that are named so.

* Each topic is answered in its place, with its id: if the id is known, with each partition as
  its log has it (`PartitionData.FromLog`), and otherwise with one error (`Broker.Fetches`).
* A server counts the batches in the logs of the topics that it knows
  (`Server.fetchBatches_step`).
* Offsets, limits, epochs and whatever else stands in a request have no part in it, and neither
  has any other file: requests that name the same get the same (`Broker.fetch_congr`).

The log of a partition is found from the name of the topic and the number
(`LogDirectory.segmentPath_eq_directory`).

Main statement: `Broker.fetch_named`.
-/

namespace LogBroker

open Metrics

/-! ## From a log to the data of a partition -/

/-- The batches in the file at a path, none if there is no file. -/
def Disk.batches (disk : Disk) (path : String) : List RecordBatch :=
  ((disk.read path).map RecordBatch.readAll).getD []

namespace RecordBatch

/-- The offset of the batch's last record is a number of 64 bits, and so is the next one. -/
def EndsInRange (b : RecordBatch) : Prop :=
  Int64.minValue.toInt ≤ b.baseOffset.toInt + b.lastOffsetDelta.toInt ∧
    b.baseOffset.toInt + b.lastOffsetDelta.toInt + 1 ≤ Int64.maxValue.toInt

/-- Where the offsets do not overflow, the next one is the sum. -/
theorem toInt_nextOffset {b : RecordBatch} (h : b.EndsInRange) :
    b.nextOffset.toInt = b.baseOffset.toInt + b.lastOffsetDelta.toInt + 1 := by
  obtain ⟨above, below⟩ := h
  have least : Int64.minValue.toInt = -9223372036854775808 := rfl
  have greatest : Int64.maxValue.toInt = 9223372036854775807 := rfl
  have last : (b.baseOffset + b.lastOffsetDelta.toInt64).toInt =
      b.baseOffset.toInt + b.lastOffsetDelta.toInt := by
    rw [Int64.toInt_add, Int32.toInt_toInt64]
    exact Int.bmod_eq_of_le (by omega) (by omega)
  rw [nextOffset, Int64.toInt_add, last, Int64.toInt_one]
  exact Int.bmod_eq_of_le (by omega) (by omega)

end RecordBatch

/-- The data of the partition with this number as a log of these batches gives it. -/
structure PartitionData.FromLog (log : List RecordBatch) (number : Int32)
    (data : PartitionData) : Prop where
  /-- the number is repeated -/
  partitionIndex : data.partitionIndex = number
  /-- there is no error, even if there is no log -/
  errorCode : data.errorCode = 0
  /-- all batches are returned -/
  records : data.records = log
  /-- a log without batches is at zero -/
  empty : log = [] → data.logStartOffset = 0 ∧ data.highWatermark = 0
  /-- a log starts with its first batch -/
  logStartOffset : ∀ first ∈ log.head?, data.logStartOffset = first.baseOffset
  /-- a log ends behind the last record of its last batch, unless the offsets overflow -/
  highWatermark : ∀ last ∈ log.getLast?, last.EndsInRange →
    data.highWatermark.toInt = last.baseOffset.toInt + last.lastOffsetDelta.toInt + 1
  /-- there are no transactions that might still be open -/
  lastStableOffset : data.lastStableOffset = data.highWatermark

/-- A partition is answered as its log has it. -/
theorem PartitionData.fromLog_ofBatches (number : Int32) (log : List RecordBatch) :
    FromLog log number (ofBatches number log) where
  partitionIndex := rfl
  errorCode := rfl
  records := rfl
  empty := by
    rintro rfl
    exact ⟨rfl, rfl⟩
  logStartOffset := by
    intro first hfirst
    rw [ofBatches, Option.mem_def.mp hfirst]
    rfl
  highWatermark := by
    intro last hlast inRange
    rw [ofBatches, Option.mem_def.mp hlast]
    exact RecordBatch.toInt_nextOffset inRange
  lastStableOffset := rfl

namespace Broker

variable {broker : Broker} {disk : Disk}

/-- The answer to a requested topic comes from the logs of the partitions that are asked for, or
says that the id is not known. -/
structure Fetches (broker : Broker) (disk : Disk) (asked : FetchTopic)
    (answered : FetchableTopicResponse) : Prop where
  /-- the id is repeated -/
  topicId : answered.topicId = asked.topicId
  /-- an id without a name has one error, however many partitions were asked for -/
  unknown : (∀ name, broker.index.topicNameById asked.topicId ≠ .ok name) →
    ∃ data, answered.partitions = [data] ∧ data.partitionIndex = 0 ∧ data.errorCode = 100 ∧
      data.records = []
  /-- an id with a name has the data of each partition, in the order of the request -/
  known : ∀ name, broker.index.topicNameById asked.topicId = .ok name →
    List.Forall₂
      (fun p data => PartitionData.FromLog
        (disk.batches (broker.config.logs.segmentPath name p.partition)) p.partition data)
      asked.partitions answered.partitions

theorem topicId_fetchTopic (asked : FetchTopic) :
    (broker.fetchTopic disk asked).topicId = asked.topicId := by
  unfold fetchTopic
  split <;> rfl

/-- **Each topic is answered from the logs of its partitions**, or with one error. -/
theorem fetches_fetchTopic (asked : FetchTopic) :
    broker.Fetches disk asked (broker.fetchTopic disk asked) := by
  refine ⟨topicId_fetchTopic asked, ?_, ?_⟩
  · intro none
    rcases broker.fetchTopic_cases disk asked with ⟨name, known, _⟩ | ⟨e, _, answered⟩
    · exact absurd known (none name)
    · exact ⟨.error 0 .unknownTopicId, answered, rfl, rfl, rfl⟩
  · intro name known
    rcases broker.fetchTopic_cases disk asked with ⟨name', known', answered⟩ | ⟨e, unknown, _⟩
    · obtain rfl : name' = name := Except.ok.inj (known'.symm.trans known)
      rw [answered, List.forall₂_map_right_iff, List.forall₂_same]
      intro p _
      exact PartitionData.fromLog_ofBatches p.partition _
    · rw [unknown] at known
      cases known

/-- The batches in the logs on which the answer to a request depends. -/
def storedBatches (broker : Broker) (disk : Disk) (request : Request) : List RecordBatch :=
  (broker.segments request).flatMap disk.batches

/-- The batches of a topic are those of its logs, in the order of the request. -/
theorem batches_fetchTopic (asked : FetchTopic) :
    (broker.fetchTopic disk asked).partitions.flatMap PartitionData.records =
      (broker.topicSegments asked).flatMap disk.batches := by
  rcases broker.fetchTopic_cases disk asked with ⟨name, known, answered⟩ | ⟨e, unknown, answered⟩
  · rw [answered, topicSegments, known, List.flatMap_map, List.flatMap_map]
    rfl
  · rw [answered, topicSegments, unknown]
    rfl

/-- An answer carries the batches in these logs, each as often as it was asked for. -/
theorem batches_respond (header : RequestHeader) (request : Request) :
    (broker.respond disk header request).batches = broker.storedBatches disk request := by
  cases request with
  | apiVersions _ => rfl
  | describeTopicPartitions _ => rfl
  | fetch request =>
    show (broker.fetch disk request).batches = _
    rw [FetchResponse.batches, fetch, List.flatMap_map, storedBatches, segments,
      List.flatMap_assoc]
    exact List.flatMap_congr fun asked _ => batches_fetchTopic asked

end Broker

/-! ## Requests that name the same -/

/-- What a request names: ids of topics, and of each the numbers of the partitions. -/
def FetchRequest.named (request : FetchRequest) : List (Uuid × List Int32) :=
  request.topics.map fun asked => (asked.topicId, asked.partitions.map FetchPartition.partition)

namespace Broker

/-- The answer to a topic that says no more than what it names. -/
def fetchNamed (broker : Broker) (disk : Disk) (named : Uuid × List Int32) :
    FetchableTopicResponse :=
  broker.fetchTopic disk
    { topicId := named.1, partitions := named.2.map fun number => { partition := number } }

variable {broker : Broker} {disk : Disk}

/-- No more than what it names is looked at. -/
theorem responses_fetch (request : FetchRequest) :
    (broker.fetch disk request).responses = request.named.map (broker.fetchNamed disk) := by
  rw [fetch, FetchRequest.named, List.map_map]
  refine List.map_congr_left ?_
  intro asked _
  simp only [Function.comp_def, fetchNamed, fetchTopic, List.map_map]

/-- Topics are answered alike where their ids have the same name and their logs are alike. -/
theorem fetchNamed_congr {broker' : Broker} {disk' : Disk} {id : Uuid} {numbers : List Int32}
    (index : broker'.index.topicNameById id = broker.index.topicNameById id)
    (logs : ∀ number ∈ numbers, ∀ name, broker.index.topicNameById id = .ok name →
      disk'.read (broker'.config.logs.segmentPath name number) =
        disk.read (broker.config.logs.segmentPath name number)) :
    broker'.fetchNamed disk' (id, numbers) = broker.fetchNamed disk (id, numbers) := by
  rcases h : broker.index.topicNameById id with e | name
  · simp only [fetchNamed, fetchTopic, index, h]
  · simp only [fetchNamed, fetchTopic, index, h, List.map_map]
    congr 1
    refine List.map_congr_left ?_
    intro number mem
    simp only [Function.comp_apply, fetchPartition, LogDirectory.readBatches,
      logs number mem name h]

/-- **Requests that name the same get the same**, as long as the logs that they name are alike. -/
theorem fetch_congr {broker' : Broker} {disk' : Disk} {request request' : FetchRequest}
    (index : ∀ id, broker'.index.topicNameById id = broker.index.topicNameById id)
    (named : request'.named = request.named)
    (logs : ∀ topic ∈ request.named, ∀ number ∈ topic.2, ∀ name,
      broker.index.topicNameById topic.1 = .ok name →
        disk'.read (broker'.config.logs.segmentPath name number) =
          disk.read (broker.config.logs.segmentPath name number)) :
    broker'.fetch disk' request' = broker.fetch disk request := by
  have responses : (broker'.fetch disk' request').responses =
      (broker.fetch disk request).responses := by
    rw [responses_fetch, responses_fetch, named]
    refine List.map_congr_left ?_
    intro topic mem
    exact fetchNamed_congr (index topic.1) (logs topic mem)
  exact congrArg (FetchResponse.mk 0 ErrorCode.none.code 0) responses

end Broker

/-! ## What is counted -/

namespace Connection

variable {limit : Nat} {answer : RequestMessage → ResponseMessage}

/-- The requests that are answered because of a piece. -/
def heardIn (limit : Nat) (c : Connection) (piece : Bytes) : List RequestMessage :=
  if c.standing = .live then requests limit (c.buffer ++ piece) else []

/-- What is answered because of a piece are the requests that are now there in full. -/
theorem exchanges_receive (c : Connection) (piece : Bytes) :
    (c.receive limit answer piece).2 = (c.heardIn limit piece).map (exchange answer) := by
  unfold receive heardIn
  rcases h : c.standing with _ | _ | _
  · simp only [drain_eq, if_true]
    split <;> rfl
  · rfl
  · rfl

end Connection

namespace Server

/-- The requests that are answered because of a happening. -/
def heardIn (s : Server) (id : Nat) : Happening → List RequestMessage
  | .received piece =>
    match s.connections[id]? with
    | some c => c.heardIn s.limit piece
    | none => []
  | .opened | .finished => []

/-- No batches are counted when a connection ends. -/
theorem weight_standingEvents (before after : Standing) :
    weight (standingEvents before after) .fetchBatches = 0 := by
  cases before <;> cases after <;> rfl

/-- By itself a connection counts the batches in the logs of its requests. -/
theorem tally_fetchBatches (s : Server) (id : Nat) (h : Happening) :
    Connection.tally s.limit s.answer .fetchBatches s.connections[id]? h =
      ((s.heardIn id h).map fun m => (s.broker.storedBatches s.disk m.request).length).sum := by
  rcases hc : s.connections[id]? with _ | c
  · cases h <;> simp [Connection.tally, heardIn, hc, Event.weight]
  · cases h with
    | opened => rfl
    | finished => exact weight_standingEvents _ _
    | received piece =>
      simp only [Connection.tally, weight_standingEvents, Connection.exchanges_receive, heardIn, hc,
        List.map_map, Nat.add_zero]
      congr 1
      refine List.map_congr_left ?_
      intro m _
      show (s.broker.respond s.disk m.header m.request).batches.length + 0 = _
      rw [Broker.batches_respond, Nat.add_zero]

/-- **A happening counts the batches in the logs of the requests that are answered.** -/
theorem fetchBatches_step (clock : Nat → Nat) (s : Server) (id : Nat) (h : Happening) :
    (s.step clock id h).metrics.fetchBatches = s.metrics.fetchBatches + UInt64.ofNat
      ((s.heardIn id h).map fun m => (s.broker.storedBatches s.disk m.request).length).sum := by
  have counted := get_step clock s id h .fetchBatches
  rw [tally_fetchBatches] at counted
  exact counted

end Server

/-! ## All of it -/

namespace Broker

/-- **A fetch returns the logs that it names, and nothing else matters.** The response has an entry
for each requested topic, in the order of the request: with the data of each partition from its
log if the id is known, and with one error otherwise. Whenever a server with this broker and this
disk answers requests, its counter of batches grows by the number of batches in their logs. And
another request that names the same gets the same response from a broker that knows the same
names, on a disk on which the logs of the named partitions are the same. -/
theorem fetch_named (broker : Broker) (disk : Disk) (request : FetchRequest) :
    ((broker.fetch disk request).errorCode = 0 ∧
      List.Forall₂ (broker.Fetches disk) request.topics (broker.fetch disk request).responses) ∧
    (∀ (clock : Nat → Nat) (s : Server) (id : Nat) (h : Happening),
      s.broker = broker → s.disk = disk →
      (s.step clock id h).metrics.fetchBatches = s.metrics.fetchBatches + UInt64.ofNat
        ((s.heardIn id h).map fun m => (broker.storedBatches disk m.request).length).sum) ∧
    ∀ (broker' : Broker) (disk' : Disk) (request' : FetchRequest),
      (∀ id, broker'.index.topicNameById id = broker.index.topicNameById id) →
      request'.named = request.named →
      (∀ topic ∈ request.named, ∀ number ∈ topic.2, ∀ name,
        broker.index.topicNameById topic.1 = .ok name →
          disk'.read (broker'.config.logs.segmentPath name number) =
            disk.read (broker.config.logs.segmentPath name number)) →
      broker'.fetch disk' request' = broker.fetch disk request := by
  refine ⟨⟨rfl, forall₂_responses fetches_fetchTopic request⟩, ?_, ?_⟩
  · rintro clock s id h rfl rfl
    exact Server.fetchBatches_step clock s id h
  · intro broker' disk' request'
    exact fetch_congr

/-- A request for a partition that has a log, for one that has none, and for two partitions of a
topic that nobody knows. -/
def mixedFetch (maxBytes : Int32) (fetchOffset : Int64) : FetchRequest where
  maxBytes := maxBytes
  topics := [
    { topicId := someTopic, partitions := [{ partition := 0, fetchOffset }, { partition := 5 }] },
    { topicId := Uuid.nil, partitions := [{ partition := 0 }, { partition := 1 }] }]

/-- The request in a message. -/
def mixedMessage : RequestMessage where
  header := .forApi .fetch 16 1
  request := .fetch (mixedFetch 0 0)

/-- A server to which a peer is connected. -/
def connectedServer : Server :=
  { broker := ofOneTopic, disk := oneLog
    connections := (∅ : Std.HashMap Nat Connection).insert 1 {} }

theorem topicNameById_nil :
    ofOneTopic.index.topicNameById Uuid.nil = .error (.topicId Uuid.nil) := by
  simp [TopicIndex.topicNameById, ofOneTopic, TopicIndex.apply, TopicIndex.empty, someTopic,
    Uuid.nil]

theorem batches_oneLog :
    oneLog.batches (ofOneTopic.config.logs.segmentPath "a" 0) = [storedBatch] ∧
      oneLog.batches (ofOneTopic.config.logs.segmentPath "a" 5) = [] := by
  have scanned : RecordBatch.readAll (RecordBatch.layout.write storedBatch ++ [0, 0]) =
      [storedBatch] := by decide +kernel
  constructor
  · rw [Disk.batches, oneLog, Disk.read_write, if_pos rfl, Option.map_some, scanned,
      Option.getD_some]
  · rw [Disk.batches, oneLog, Disk.read_write, if_neg (by decide +kernel), Disk.read,
      Disk.empty, Std.HashMap.getElem?_empty]
    rfl

/-- The logs of the topic lie in directories with its name. -/
theorem segmentPath_ofOneTopic (n : Int32) :
    ofOneTopic.config.logs.segmentPath "a" n =
      "/tmp/kraft-combined-logs/a-" ++ toString n.toInt ++ "/00000000000000000000.log" := by
  have directory : Path.front ofOneTopic.config.logs.root ++ ("a" ++ "-") =
      "/tmp/kraft-combined-logs/a-" := by decide +kernel
  have file : "/" ++ "00000000000000000000.log" = "/00000000000000000000.log" := by decide +kernel
  rw [LogDirectory.segmentPath_eq_directory (by decide +kernel), ← directory, ← file]
  simp only [String.append_assoc]

theorem storedBatches_mixedMessage :
    ofOneTopic.storedBatches oneLog mixedMessage.request = [storedBatch] := by
  obtain ⟨stored, missing⟩ := batches_oneLog
  simp [storedBatches, segments, topicSegments, mixedMessage, mixedFetch, topicNameById_someTopic,
    topicNameById_nil, stored, missing]

theorem heardIn_mixedMessage :
    connectedServer.heardIn 1 (.received mixedMessage.toFrame) = [mixedMessage] := by
  have audible : ∀ m ∈ [mixedMessage], m.Audible connectedServer.limit := by decide +kernel
  have requests := Connection.requests_row audible
  rw [List.flatMap_singleton] at requests
  have connected : connectedServer.connections[1]? = some ({} : Connection) := by
    simp [connectedServer]
  simp only [Server.heardIn, connected]
  exact requests

/-- The one batch is in the directory `a-0`. It is returned and counted, the log that is missing and
the topic that is unknown are answered in their places; and with other limits, and another log of
the topic on the disk, the response is the same. -/
theorem fetch_named_mixed :
    (∃ stored missing unknown,
      (ofOneTopic.fetch oneLog (mixedFetch 0 0)).responses =
        [{ topicId := someTopic, partitions := [stored, missing] },
          { topicId := Uuid.nil, partitions := [unknown] }] ∧
      (stored.records = [storedBatch] ∧ stored.highWatermark.toInt = 4) ∧
      (missing.records = [] ∧ missing.errorCode = 0) ∧ unknown.errorCode = 100) ∧
    oneLog.batches "/tmp/kraft-combined-logs/a-0/00000000000000000000.log" = [storedBatch] ∧
    (connectedServer.step id 1 (.received mixedMessage.toFrame)).metrics.fetchBatches = 1 ∧
    ofOneTopic.fetch (oneLog.write "/tmp/kraft-combined-logs/a-1/00000000000000000000.log" [1])
        (mixedFetch 1 99) =
      ofOneTopic.fetch oneLog (mixedFetch 0 0) := by
  obtain ⟨⟨-, answered⟩, counted, same⟩ := fetch_named ofOneTopic oneLog (mixedFetch 0 0)
  have nameless (name : String) : ofOneTopic.index.topicNameById Uuid.nil ≠ .ok name := by
    rw [topicNameById_nil]
    rintro ⟨⟩
  refine ⟨?_, ?_, ?_, ?_⟩
  · obtain ⟨⟨topicId, partitions⟩, _, first, rest, responses⟩ :=
      List.forall₂_cons_left_iff.mp answered
    obtain ⟨⟨topicId', partitions'⟩, _, second, last, rfl⟩ := List.forall₂_cons_left_iff.mp rest
    obtain rfl := List.forall₂_nil_left_iff.mp last
    obtain rfl : topicId = someTopic := first.topicId
    obtain rfl : topicId' = Uuid.nil := second.topicId
    obtain ⟨unknown, rfl, -, refused, -⟩ := second.unknown nameless
    obtain ⟨stored, _, hstored, rest, rfl⟩ :=
      List.forall₂_cons_left_iff.mp (first.known "a" topicNameById_someTopic)
    obtain ⟨missing, _, hmissing, last, rfl⟩ := List.forall₂_cons_left_iff.mp rest
    obtain rfl := List.forall₂_nil_left_iff.mp last
    rw [batches_oneLog.1] at hstored
    rw [batches_oneLog.2] at hmissing
    have inRange : storedBatch.EndsInRange := ⟨by decide, by decide⟩
    exact ⟨stored, missing, unknown, responses,
      ⟨hstored.records, hstored.highWatermark storedBatch rfl inRange⟩,
      ⟨hmissing.records, hmissing.errorCode⟩, refused⟩
  · have stored := batches_oneLog.1
    rw [segmentPath_ofOneTopic] at stored
    exact stored
  · have grown := counted id connectedServer 1 (.received mixedMessage.toFrame) rfl rfl
    rw [heardIn_mixedMessage, List.map_singleton, storedBatches_mixedMessage] at grown
    exact grown
  · refine same ofOneTopic _ (mixedFetch 1 99) (fun _ => rfl) rfl ?_
    intro topic mem number hnumber name known
    rcases List.mem_cons.mp mem with rfl | mem
    · obtain rfl : "a" = name := Except.ok.inj (topicNameById_someTopic.symm.trans known)
      rw [Disk.read_write, if_neg]
      rw [segmentPath_ofOneTopic]
      rcases List.mem_pair.mp hnumber with rfl | rfl <;> decide +kernel
    · obtain rfl := List.mem_singleton.mp mem
      exact absurd known (nameless name)

end Broker

end LogBroker
