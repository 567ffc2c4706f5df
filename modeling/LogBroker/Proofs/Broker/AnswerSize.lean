import LogBroker.Broker.Segments
import LogBroker.Proofs.Log.Verbatim
import LogBroker.Proofs.Server.Transparency
import LogBroker.Proofs.Wire.Sizes

/-!
# How long answers are

The broker puts no limit on an answer. A fetch is answered with all of a segment for each
time that it names the partition, so a short request can have a long answer, and the
length in front of the answer has room for 31 bits only.

* A partition is answered as often as it is named (`Broker.size_fetch_repeated`).
* `Broker.answerBound` is how long an answer can be: it adds up over the topics and
  partitions that the request names (`Broker.length_write_answer_le`).
* The answer's frame is one that comes off with the body that it was put around, just if
  the body has less than `2 ^ 31` bytes (`Broker.framed_iff`). A log of a megabyte that is
  asked for 2048 times has more (`Broker.not_framed_manyTimes`).
-/

namespace LogBroker

open Wire Layout

/-! ## Sizes of messages -/

namespace RecordBatch

/-- Batches in a row are as long as all of them together. -/
theorem sum_map_size (batches : List RecordBatch) :
    (batches.map layout.size).sum = (writeAll batches).length :=
  List.length_flatMap.symm

/-- The batches of a segment are written in no more bytes than the segment has. -/
theorem length_writeAll_readAll_le (segment : Bytes) :
    (writeAll (readAll segment)).length ≤ segment.length := by
  obtain ⟨left, whole, _⟩ := exists_left segment
  have shorter := (rewrites_pieces segment).length_le
  have lengths := congrArg List.length whole
  rw [List.length_append] at lengths
  omega

end RecordBatch

/-- The numbers of a partition take 36 bytes beside its batches. -/
theorem PartitionData.size_ofBatches (i : Int32) (batches : List RecordBatch) :
    layout.size (ofBatches i batches) =
      36 + (Prefixed.writeCompactLength batches.length).length +
        (RecordBatch.writeAll batches).length := by
  simp only [layout, ofBatches, error, size_tagged, size_packed, size_andThen, size_int16,
    size_int32, size_int64, size_compactArray, List.length_nil, List.map_nil, List.sum_nil,
    Prefixed.length_writeCompactLength_zero, RecordBatch.sum_map_size]
  omega

/-- An error takes as much as a partition without batches. -/
theorem PartitionData.size_error (i : Int32) (e : ErrorCode) : layout.size (error i e) = 37 := by
  simp [layout, error]

theorem FetchableTopicResponse.size_eq (t : FetchableTopicResponse) :
    layout.size t =
      17 + (Prefixed.writeCompactLength t.partitions.length).length +
        (t.partitions.map PartitionData.layout.size).sum := by
  simp only [layout, size_tagged, size_packed, size_andThen, size_uuid, size_compactArray]
  omega

theorem FetchResponse.size_eq (r : FetchResponse) :
    layout.size r =
      11 + (Prefixed.writeCompactLength r.responses.length).length +
        (r.responses.map FetchableTopicResponse.layout.size).sum := by
  simp only [layout, size_tagged, size_packed, size_andThen, size_int16, size_int32,
    size_compactArray]
  omega

/-- A partition that is described has no nodes. -/
theorem ResponsePartition.size_mk (i : Int32) : layout.size { partitionIndex := i } = 20 := by
  simp [layout]

theorem ResponseTopic.size_le (t : ResponseTopic) :
    layout.size t ≤ 34 + (Utf8.encode t.name).length +
      (t.partitions.map ResponsePartition.layout.size).sum := by
  have count := Prefixed.length_writeCompactLength_le t.partitions.length
  have name := size_compactString_le t.name
  simp only [layout, size_tagged, size_packed, size_andThen, size_int16, size_uuid, size_bool,
    size_compactArray, size_int32]
  omega

theorem DescribeTopicPartitionsResponse.size_eq (r : DescribeTopicPartitionsResponse) :
    layout.size r =
      6 + (Prefixed.writeCompactLength r.topics.length).length +
        (r.topics.map ResponseTopic.layout.size).sum := by
  simp only [layout, size_tagged, size_closedBy, size_packed, size_andThen, size_int32,
    size_compactArray]
  omega

/-- Header and response. Only the header in front of the list of apis is without tagged fields. -/
theorem ResponseMessage.length_write (m : ResponseMessage) :
    m.write.length =
      (if m.response.api = .apiVersions then 4 else 5) + m.response.write.length := by
  have header (api : ApiKey) : (ResponseHeader.layout api).size m.header =
      if api = .apiVersions then 4 else 5 := by
    cases api <;> simp [ResponseHeader.layout, ResponseHeader.bareLayout]
  rw [write, List.length_append, ← header, size]

namespace FetchRequest

/-- Asks for a partition so many times. -/
def repeated (id : Uuid) (p : FetchPartition) (n : Nat) : FetchRequest where
  topics := [{ topicId := id, partitions := List.replicate n p }]

theorem size_repeated (id : Uuid) (p : FetchPartition) (n : Nat) :
    layout.size (repeated id p n) = 42 + (Prefixed.writeCompactLength n).length + n * 33 := by
  have noName : compactString.size "" = 1 := by decide +kernel
  have each : FetchPartition.layout.size p = 33 := by simp [FetchPartition.layout]
  have topic : FetchTopic.layout.size { topicId := id, partitions := List.replicate n p } =
      17 + (Prefixed.writeCompactLength n).length + n * 33 := by
    simp only [FetchTopic.layout, size_tagged, size_packed, size_andThen, size_uuid,
      size_compactArray, List.length_replicate, List.map_replicate, List.sum_replicate_nat, each]
    omega
  simp only [layout, repeated, size_tagged, size_packed, size_andThen, size_int8, size_int32,
    size_compactArray, List.length_singleton, List.map_singleton, List.sum_singleton,
    List.length_nil, List.map_nil, List.sum_nil, Prefixed.length_writeCompactLength_zero,
    Prefixed.length_writeCompactLength_one, topic, noName]
  omega

end FetchRequest

/-! ## The bound -/

/-- How many bytes the file at a path has; none if there is no file. -/
def Disk.sizeAt (disk : Disk) (path : String) : Nat := ((disk.read path).getD []).length

namespace Broker

variable (broker : Broker) (disk : Disk)

/-- An answer has no more bytes than this. A fetch counts a segment once for each time that
it names the partition. -/
def answerBound : Request → Nat
  | .apiVersions _ => 33
  | .fetch request =>
    21 + 55 * request.topics.length +
      ((broker.segments (.fetch request)).map fun path => 41 + disk.sizeAt path).sum
  | .describeTopicPartitions request =>
    16 + (request.topics.map fun t => 34 + (Utf8.encode t.name).length +
      20 * (broker.describeTopic t.name).partitions.length).sum

theorem size_listApis_le (apiVersion : Int16) :
    ApiVersionsResponse.layout.size (listApis apiVersion) ≤ 29 := by
  unfold listApis
  split <;> decide +kernel

/-- A partition takes 41 bytes more than its log at most. -/
theorem size_fetchPartition_le (topic : String) (partition : Int32) :
    PartitionData.layout.size (broker.fetchPartition disk topic partition) ≤
      41 + disk.sizeAt (broker.config.logs.segmentPath topic partition) := by
  rw [fetchPartition, PartitionData.size_ofBatches, LogDirectory.readBatches, Disk.sizeAt]
  cases disk.read (broker.config.logs.segmentPath topic partition) with
  | none =>
    rw [Option.map_none, Option.getD_none, List.length_nil,
      Prefixed.length_writeCompactLength_zero]
    decide
  | some segment =>
    have count := Prefixed.length_writeCompactLength_le (RecordBatch.readAll segment).length
    have batches := RecordBatch.length_writeAll_readAll_le segment
    rw [Option.map_some, Option.getD_some, Option.getD_some]
    omega

/-- A topic takes 55 bytes more than its partitions at most, in which one error has room. -/
theorem size_fetchTopic_le (topic : FetchTopic) :
    FetchableTopicResponse.layout.size (broker.fetchTopic disk topic) ≤
      55 + ((broker.topicSegments topic).map fun path => 41 + disk.sizeAt path).sum := by
  rw [FetchableTopicResponse.size_eq, fetchTopic, topicSegments]
  cases broker.index.topicNameById topic.topicId with
  | error _ =>
    simp only [List.map_singleton, List.sum_singleton, PartitionData.size_error,
      List.length_singleton, Prefixed.length_writeCompactLength_one]
    exact Nat.le_refl 55
  | ok name =>
    have count := Prefixed.length_writeCompactLength_le topic.partitions.length
    have each : (topic.partitions.map fun p => PartitionData.layout.size
        (broker.fetchPartition disk name p.partition)).sum ≤ (topic.partitions.map fun p =>
          41 + disk.sizeAt (broker.config.logs.segmentPath name p.partition)).sum :=
      List.sum_le_sum fun p _ => broker.size_fetchPartition_le disk name p.partition
    simp only [List.length_map, List.map_map, Function.comp_def]
    omega

/-- A description takes 20 bytes for each partition. -/
theorem size_describeTopic_le (name : String) :
    ResponseTopic.layout.size (broker.describeTopic name) ≤
      34 + (Utf8.encode name).length + 20 * (broker.describeTopic name).partitions.length := by
  have each (numbers : List Int32) : ((ResponseTopic.found name Uuid.nil numbers).partitions.map
      ResponsePartition.layout.size).sum = 20 * numbers.length := by
    induction numbers with
    | nil => rfl
    | cons i numbers ih =>
      rw [ResponseTopic.found, List.map_cons, List.map_cons, List.sum_cons,
        ResponsePartition.size_mk, List.length_cons, Nat.mul_succ, Nat.add_comm]
      exact congrArg (· + 20) ih
  have bound := ResponseTopic.size_le (broker.describeTopic name)
  revert bound
  rw [describeTopic]
  cases broker.index.topicIdByName name with
  | error _ => exact id
  | ok id =>
    intro bound
    have partitions := each ((broker.index.partitionsByTopic id).toOption.getD [])
    simp only [ResponseTopic.found, ResponseTopic.unknown, List.length_map] at partitions bound ⊢
    rwa [partitions] at bound

/-- What the topics cost is 55 bytes each, and what their segments cost. -/
theorem sum_topicSegments (topics : List FetchTopic) (cost : String → Nat) :
    (topics.map fun t => 55 + ((broker.topicSegments t).map cost).sum).sum =
      55 * topics.length + ((topics.flatMap broker.topicSegments).map cost).sum := by
  induction topics with
  | nil => rfl
  | cons t topics ih =>
    rw [List.map_cons, List.sum_cons, ih, List.flatMap_cons, List.map_append, List.sum_append,
      List.length_cons]
    omega

theorem size_fetch_le (request : FetchRequest) :
    FetchResponse.layout.size (broker.fetch disk request) ≤
      16 + 55 * request.topics.length +
        ((broker.segments (.fetch request)).map fun path => 41 + disk.sizeAt path).sum := by
  have count := Prefixed.length_writeCompactLength_le request.topics.length
  have topics := List.sum_le_sum fun t (_ : t ∈ request.topics) =>
    broker.size_fetchTopic_le disk t
  rw [sum_topicSegments] at topics
  simp only [FetchResponse.size_eq, fetch, segments, List.length_map, List.map_map,
    Function.comp_def]
  omega

theorem size_describe_le (request : DescribeTopicPartitionsRequest) :
    DescribeTopicPartitionsResponse.layout.size (broker.describe request) ≤
      11 + (request.topics.map fun t => 34 + (Utf8.encode t.name).length +
        20 * (broker.describeTopic t.name).partitions.length).sum := by
  have count := Prefixed.length_writeCompactLength_le request.topics.length
  have topics := List.sum_le_sum fun t (_ : t ∈ request.topics) =>
    broker.size_describeTopic_le t.name
  simp only [DescribeTopicPartitionsResponse.size_eq, describe, List.length_map, List.map_map,
    Function.comp_def]
  omega

/-- **An answer is no longer than the bound.** -/
theorem length_write_answer_le (m : RequestMessage) :
    (broker.answer disk m).write.length ≤ broker.answerBound disk m.request := by
  rcases m with ⟨header, request⟩
  rw [ResponseMessage.length_write]
  cases request with
  | apiVersions _ => exact Nat.add_le_add_left (size_listApis_le header.apiVersion) 4
  | fetch request =>
    have response := Nat.add_le_add_left (broker.size_fetch_le disk request) 5
    rw [← Nat.add_assoc, ← Nat.add_assoc] at response
    exact response
  | describeTopicPartitions request =>
    have response := Nat.add_le_add_left (broker.size_describe_le request) 5
    rw [← Nat.add_assoc] at response
    exact response

/-! ## Partitions that are named again and again -/

section

variable {id : Uuid} {name : String}

/-- A partition that is named again is answered again. -/
theorem fetch_repeated (h : broker.index.topicNameById id = .ok name) (p : FetchPartition)
    (n : Nat) :
    (broker.fetch disk (.repeated id p n)).responses =
      [{ topicId := id
         partitions := List.replicate n (broker.fetchPartition disk name p.partition) }] := by
  simp only [fetch, FetchRequest.repeated, List.map_singleton, fetchTopic, h, List.map_replicate]

/-- **A partition is answered as often as it is named**, each time with all of its log. -/
theorem size_fetch_repeated (h : broker.index.topicNameById id = .ok name) (p : FetchPartition)
    (n : Nat) :
    FetchResponse.layout.size (broker.fetch disk (.repeated id p n)) =
      29 + (Prefixed.writeCompactLength n).length +
        n * PartitionData.layout.size (broker.fetchPartition disk name p.partition) := by
  rw [FetchResponse.size_eq, broker.fetch_repeated disk h, List.map_singleton,
    List.sum_singleton, FetchableTopicResponse.size_eq, List.length_replicate,
    List.map_replicate, List.sum_replicate_nat, List.length_singleton,
    Prefixed.length_writeCompactLength_one]
  omega

end

/-! ## Frames -/

/-- **An answer is in a frame just if its body has less than `2 ^ 31` bytes.** Behind the
length the body lies as it is; only then the length is the body's and the peer, if it accepts
frames of this size, takes off the body and nothing is left. How long the body can be depends
on what is asked and on the segments behind it. -/
theorem framed_iff (m : RequestMessage) :
    let body := (broker.answer disk m).write
    let frame := (broker.answer disk m).toFrame
    frame.drop Frame.lengthSize = body ∧
      ((Frame.declared frame).toInt = body.length ↔ body.length < 2 ^ 31) ∧
      (∀ limit, Frame.split limit frame = .body body [] ↔
        body.length < 2 ^ 31 ∧ body.length ≤ limit) ∧
      body.length ≤ broker.answerBound disk m.request := by
  intro body frame
  have whole : Frame.encode body ++ [] = frame := List.append_nil _
  refine ⟨?_, ?_, ?_, broker.length_write_answer_le disk m⟩
  · rw [← whole, Frame.drop_encode, List.append_nil]
  · rw [← whole]
    exact Frame.declared_encode_iff body []
  · intro limit
    rw [← whole]
    exact Frame.split_encode_iff body []

/-! ### An answer that is too long -/

/-- A batch of one record. -/
def batchOf (value : Bytes) : RecordBatch := .ofRecords 0 [.ofValue 0 value]

/-- A disk where the topic's log is this batch. -/
def logOf (value : Bytes) : Disk :=
  Disk.empty.write (ofOneTopic.config.logs.segmentPath "a" 0)
    (RecordBatch.layout.write (batchOf value))

/-- A request that names the topic's partition 2048 times. -/
def manyTimes : RequestMessage where
  header := .forApi .fetch 16 1
  request := .fetch (.repeated someTopic { partition := 0 } 2048)

/-- The request has 70 kilobytes at most. -/
theorem audible_manyTimes : manyTimes.Audible ofOneTopic.config.maxFrameLength := by
  have header : (RequestHeader.layout.write manyTimes.header).length = 11 := by decide +kernel
  have request : manyTimes.request.write.length =
      42 + (Prefixed.writeCompactLength 2048).length + 2048 * 33 :=
    FetchRequest.size_repeated _ _ _
  have count := Prefixed.length_writeCompactLength_le 2048
  have short : manyTimes.write.length ≤ 70000 := by
    rw [RequestMessage.write, List.length_append]
    omega
  exact ⟨by decide +kernel, Nat.le_trans short (by decide), Nat.le_trans short (by decide)⟩

theorem topicNameById_someTopic : ofOneTopic.index.topicNameById someTopic = .ok "a" := by
  simp [TopicIndex.topicNameById, ofOneTopic, TopicIndex.apply]

section

variable {value : Bytes}

theorem storable_batchOf (h : value.length ≤ 2147483647) : (batchOf value).Storable := by
  constructor
  · exact Nat.succ_le_of_lt (by decide)
  · rintro r hr present hp
    obtain rfl := List.mem_singleton.mp hr
    cases hp
    exact h

/-- The partition is answered with the batch. -/
theorem fetchPartition_logOf (h : value.length ≤ 2147483647) :
    ofOneTopic.fetchPartition (logOf value) "a" 0 = .ofBatches 0 [batchOf value] := by
  have fits : ∀ b ∈ [batchOf value], RecordBatch.layout.Fits b :=
    List.forall_mem_singleton.mpr (storable_batchOf h).fits
  have scanned := RecordBatch.readAll_writeAll fits
  rw [RecordBatch.writeAll, List.flatMap_singleton] at scanned
  rw [fetchPartition, LogDirectory.readBatches, logOf, Disk.read_write, if_pos rfl,
    Option.map_some, scanned, Option.getD_some]

/-- No offset of the answer overflows. -/
theorem nextOffset_manyTimes (h : value.length ≤ 2147483647) :
    ∀ b ∈ (ofOneTopic.answer (logOf value) manyTimes).response.batches,
      b.nextOffset.toInt = b.baseOffset.toInt + b.lastOffsetDelta.toInt + 1 := by
  intro b hb
  have batches : b ∈ (ofOneTopic.fetch (logOf value)
      (.repeated someTopic { partition := 0 } 2048)).batches := hb
  rw [FetchResponse.batches, fetch_repeated _ _ topicNameById_someTopic, List.flatMap_singleton,
    fetchPartition_logOf h] at batches
  obtain ⟨p, hp, hb⟩ := List.mem_flatMap.mp batches
  obtain rfl := List.eq_of_mem_replicate hp
  obtain rfl := List.mem_singleton.mp hb
  rfl

/-- Of a value of a megabyte, the length takes four bytes, and so does the record's. -/
theorem size_ofValue (h : value.length = 2 ^ 20) :
    Record.layout.size (.ofValue 0 value) = 2 ^ 20 + 13 := by
  have body : Record.bodyLayout.size (0, 0, 0, some value) = 2 ^ 20 + 9 := by
    have length : (Zigzag.writeInt32 (Int32.ofNat (2 ^ 20))).length = 4 := by decide +kernel
    have present : nullableBytes.size (some value) = 4 + 2 ^ 20 := by
      rw [size, write, Primitive.write, Prefixed.writeNullableBytes, List.length_append, h, length]
    have timestamp : varlong.size 0 = 1 := by decide +kernel
    have offset : varint.size 0 = 1 := by decide +kernel
    simp only [Record.bodyLayout, size_andThen, size_closedBy, size_int8, present, timestamp,
      offset]
    omega
  have length : varint.size (Int32.ofNat (2 ^ 20 + 9)) = 4 := by decide +kernel
  simp only [Record.layout, Record.ofValue, size_packed, size_andThen, body, length]
  omega

/-- The answer has all of the value 2048 times. -/
theorem length_write_manyTimes (h : value.length = 2 ^ 20) :
    (ofOneTopic.answer (logOf value) manyTimes).write.length = 2147711012 := by
  have record := size_ofValue h
  have batch : RecordBatch.layout.size (batchOf value) = 2 ^ 20 + 74 := by
    simp [RecordBatch.layout, batchOf, RecordBatch.ofRecords, record]
  have partition : PartitionData.layout.size
      (ofOneTopic.fetchPartition (logOf value) "a" 0) = 2 ^ 20 + 111 := by
    rw [fetchPartition_logOf (by omega), PartitionData.size_ofBatches, ← RecordBatch.sum_map_size,
      List.map_singleton, List.sum_singleton, batch, List.length_singleton,
      Prefixed.length_writeCompactLength_one]
    omega
  have many : (Prefixed.writeCompactLength 2048).length = 2 := by decide +kernel
  have response := ofOneTopic.size_fetch_repeated (logOf value) topicNameById_someTopic
    { partition := 0 } 2048
  rw [many, partition] at response
  rw [ResponseMessage.length_write]
  exact congrArg (5 + ·) response

end

/-- **An answer whose frame is refused.** The log has a value of a megabyte, and a request of
70 kilobytes names it 2048 times. The length in front of the answer is read as negative, so no
peer takes the answer off, whatever size of frames it accepts. -/
theorem not_framed_manyTimes :
    let disk := logOf (List.replicate (2 ^ 20) 0)
    let body := (ofOneTopic.answer disk manyTimes).write
    let frame := (ofOneTopic.answer disk manyTimes).toFrame
    manyTimes.Audible ofOneTopic.config.maxFrameLength ∧
      (∀ b ∈ (ofOneTopic.answer disk manyTimes).response.batches,
        b.nextOffset.toInt = b.baseOffset.toInt + b.lastOffsetDelta.toInt + 1) ∧
      body.length = 2147711012 ∧ frame.take Frame.lengthSize = [0x80, 0x03, 0x78, 0x24] ∧
      (Frame.declared frame).toInt = -2147256284 ∧
      ∀ limit, Frame.split limit frame = .tooLarge (-2147256284) := by
  intro disk body frame
  have size : (List.replicate (2 ^ 20) (0 : UInt8)).length = 2 ^ 20 := List.length_replicate
  have length : body.length = 2147711012 := length_write_manyTimes size
  have whole : Frame.encode body ++ [] = frame := List.append_nil _
  have declared : Frame.declared frame = -2147256284 := by
    rw [← whole, Frame.declared_encode, length]
    decide
  refine ⟨audible_manyTimes, nextOffset_manyTimes (by omega), length, ?_, ?_, ?_⟩
  · have prefixed := Frame.take_encode body []
    rw [whole, length] at prefixed
    rw [prefixed]
    decide +kernel
  · rw [declared]
    decide
  · intro limit
    have long : Frame.lengthSize ≤ frame.length := by
      rw [← whole, List.append_nil, Frame.length_encode]
      exact Nat.le_add_right _ _
    rw [← declared]
    refine Frame.split_of_refuses long (.inl ?_)
    rw [declared]
    decide

end Broker

end LogBroker
