import LogBroker.Message.Request
import LogBroker.Message.Response
import LogBroker.Proofs.Wire.Framing
import LogBroker.Proofs.Wire.RoundTrip

/-!
# Messages survive the wire

Requests have compact lengths only, so a request of less than `2 ^ 32` bytes is read as it
was written; its header has one short length too, the client's name. The batches of a
response have lengths of 31 bits, so a response survives below `2 ^ 31` bytes.

Main statements: a request message in a frame is read back from the front of any input,
both by the reader for complete inputs and from a connection's buffer
(`RequestMessage.frame_round_trip`), and so is a response message by a peer that knows what
it asked (`ResponseMessage.response_frame_round_trip`).
-/

namespace LogBroker

open Wire Layout Reader

/-! ## Requests -/

section

variable {bound : Nat}

theorem ApiVersionsRequest.roomy (h : bound < 2 ^ 32) : ApiVersionsRequest.layout.Roomy bound := by
  simp only [layout, tagged, closedBy, Layout.Roomy, Primitive.Roomy, h, and_self]

theorem FetchRequest.roomy (h : bound < 2 ^ 32) : FetchRequest.layout.Roomy bound := by
  simp only [layout, FetchTopic.layout, FetchPartition.layout, ForgottenTopic.layout, tagged,
    closedBy, Layout.Roomy, Primitive.Roomy, h, and_self]

theorem DescribeTopicPartitionsRequest.roomy (h : bound < 2 ^ 32) :
    DescribeTopicPartitionsRequest.layout.Roomy bound := by
  simp only [layout, TopicRequest.layout, tagged, closedBy, Layout.Roomy, Primitive.Roomy, h,
    and_self]

/-- A request of less than `2 ^ 32` bytes is read back by its own api. -/
theorem Request.takes_write (r : Request) (h : r.write.length < 2 ^ 32) :
    (Request.read r.api).Takes r.write r := by
  cases r with
  | apiVersions r =>
    exact (takes_write_of_size_le _ (ApiVersionsRequest.roomy h) (Nat.le_refl _)).map apiVersions
  | fetch r => exact (takes_write_of_size_le _ (FetchRequest.roomy h) (Nat.le_refl _)).map fetch
  | describeTopicPartitions r =>
    exact (takes_write_of_size_le _ (DescribeTopicPartitionsRequest.roomy h) (Nat.le_refl _)).map
      describeTopicPartitions

end

/-- A request header is read back if the client's name is short enough for its length. -/
theorem RequestHeader.takes_write (header : RequestHeader)
    (h : (Utf8.encode header.clientId).length < 2 ^ 15) :
    RequestHeader.layout.read.Takes (RequestHeader.layout.write header) header := by
  refine Layout.takes_write _ ?_
  simp only [layout, tagged, closedBy, Layout.Fits, Primitive.Fits, h, and_self]

namespace RequestMessage

/-- What a client promises of a message that it sends: the header names the api of the
request, and the client's name is short enough for its length field. -/
structure WellFormed (m : RequestMessage) : Prop where
  /-- the header's number is that of the request -/
  apiKey : m.header.apiKey = m.request.api.code
  /-- the name has at most 32767 bytes -/
  clientId : (Utf8.encode m.header.clientId).length ≤ 32767

instance (m : RequestMessage) : Decidable m.WellFormed :=
  decidable_of_iff
    (m.header.apiKey = m.request.api.code ∧ (Utf8.encode m.header.clientId).length ≤ 32767)
    ⟨fun ⟨apiKey, clientId⟩ => ⟨apiKey, clientId⟩, fun ⟨apiKey, clientId⟩ => ⟨apiKey, clientId⟩⟩

/-- A well-formed message is read back from its own bytes. -/
theorem takes_write {m : RequestMessage} (wf : m.WellFormed) (h : m.write.length < 2 ^ 32) :
    read.Takes m.write m := by
  have header := RequestHeader.takes_write m.header (Nat.lt_succ_of_le wf.clientId)
  have size : m.request.write.length < 2 ^ 32 := by
    rw [write, List.length_append] at h
    omega
  have request := (m.request.takes_write size).bind_pure fun r => RequestMessage.mk m.header r
  refine header.bind ?_
  rw [wf.apiKey, ApiKey.ofCode?_code]
  exact request

/-- **Request frames are read back.** Whatever follows the frame is left, whether the input
is complete or a buffer that bytes are still being added to. The buffer's reader takes the
length for signed, so there the body has a bit less room. -/
theorem frame_round_trip {m : RequestMessage} (wf : m.WellFormed) (small : m.write.length < 2 ^ 32)
    (rest : Bytes) :
    readFrame (m.toFrame ++ rest) = (.ok m, rest) ∧
      (m.write.length ≤ 2147483647 → ∀ limit, m.write.length ≤ limit →
        ∃ body, Frame.split limit (m.toFrame ++ rest) = .body body rest ∧
          read body = (.ok m, [])) := by
  have taken := takes_write wf small
  refine ⟨Frame.takes_encode taken small rest, ?_⟩
  intro signed limit hl
  exact ⟨m.write, Frame.split_encode (Nat.lt_succ_of_le signed) hl rest, taken.eq⟩

/-- A request that nests, with names beyond ASCII. -/
def nestedFetch : RequestMessage where
  header := { apiKey := 1, apiVersion := 16, correlationId := 7, clientId := "kä" }
  request := .fetch {
    topics := [
      { topicId := ⟨7⟩, partitions := [{ partition := 0 }, { partition := -1 }] },
      { topicId := Uuid.nil, partitions := [] }]
    forgottenTopics := [{ topicId := Uuid.nil, partitions := [3, 4] }]
    rackId := "é" }

/-- The nesting request in front of the beginning of another frame. -/
theorem frame_round_trip_nestedFetch :
    readFrame (nestedFetch.toFrame ++ [0, 0]) = (.ok nestedFetch, [0, 0]) ∧
      ∃ body, Frame.split 200 (nestedFetch.toFrame ++ [0, 0]) = .body body [0, 0] ∧
        read body = (.ok nestedFetch, []) := by
  have wf : nestedFetch.WellFormed := by decide +kernel
  have size : nestedFetch.write.length ≤ 200 := by decide +kernel
  obtain ⟨complete, buffered⟩ := frame_round_trip wf (by omega) [0, 0]
  exact ⟨complete, buffered (by omega) 200 size⟩

end RequestMessage

/-! ## Responses -/

section

variable {bound : Nat}

theorem RecordBatch.roomy (h : bound < 2 ^ 31) : RecordBatch.layout.Roomy bound := by
  simp only [layout, Record.layout, Record.bodyLayout, closedBy, Layout.Roomy, Primitive.Roomy, h,
    and_self]

theorem ApiVersionsResponse.roomy (h : bound < 2 ^ 32) :
    ApiVersionsResponse.layout.Roomy bound := by
  simp only [layout, ApiVersion.layout, tagged, closedBy, Layout.Roomy, Primitive.Roomy, h,
    and_self]

theorem FetchResponse.roomy (h : bound < 2 ^ 31) : FetchResponse.layout.Roomy bound := by
  have compact : bound < 2 ^ 32 := by omega
  have batches := RecordBatch.roomy h
  simp only [layout, FetchableTopicResponse.layout, PartitionData.layout,
    AbortedTransaction.layout, tagged, closedBy, Layout.Roomy, Primitive.Roomy, batches, compact,
    and_self]

theorem DescribeTopicPartitionsResponse.roomy (h : bound < 2 ^ 32) :
    DescribeTopicPartitionsResponse.layout.Roomy bound := by
  simp only [layout, ResponseTopic.layout, ResponsePartition.layout, tagged, closedBy,
    Layout.Roomy, Primitive.Roomy, h, and_self]

end

/-- A response of less than `2 ^ 31` bytes is read back by its own api. -/
theorem Response.takes_write (r : Response) (h : r.write.length < 2 ^ 31) :
    (Response.read r.api).Takes r.write r := by
  have compact : r.write.length < 2 ^ 32 := by omega
  cases r with
  | apiVersions r =>
    exact (takes_write_of_size_le _ (ApiVersionsResponse.roomy compact) (Nat.le_refl _)).map
      apiVersions
  | fetch r => exact (takes_write_of_size_le _ (FetchResponse.roomy h) (Nat.le_refl _)).map fetch
  | describeTopicPartitions r =>
    exact (takes_write_of_size_le _ (DescribeTopicPartitionsResponse.roomy compact)
      (Nat.le_refl _)).map describeTopicPartitions

/-- A response header has no length. -/
theorem ResponseHeader.takes_write (api : ApiKey) (header : ResponseHeader) :
    (ResponseHeader.layout api).read.Takes ((ResponseHeader.layout api).write header) header := by
  refine Layout.takes_write _ ?_
  cases api <;>
    simp only [layout, bareLayout, tagged, closedBy, Layout.Fits, Primitive.Fits, and_self]

/-- Behind the correlation id stands an empty section of tagged fields, except in the answer
to a client that asks for the apis. -/
theorem ResponseHeader.write_layout (api : ApiKey) (header : ResponseHeader) :
    (ResponseHeader.layout api).write header =
      Word.write header.correlationId ++
        if api = .apiVersions then [] else [Marker.tagged.byte] := by
  cases api with
  | apiVersions =>
    rw [if_pos rfl, List.append_nil]
    rfl
  | fetch => rfl
  | describeTopicPartitions => rfl

namespace ResponseMessage

/-- A response message is read back by whoever knows the api of the request. -/
theorem takes_write (m : ResponseMessage) (h : m.write.length < 2 ^ 31) :
    (read m.response.api).Takes m.write m := by
  have size : m.response.write.length < 2 ^ 31 := by
    rw [write, List.length_append] at h
    omega
  have response := (m.response.takes_write size).bind_pure fun r => ResponseMessage.mk m.header r
  exact (ResponseHeader.takes_write m.response.api m.header).bind response

/-- **Response frames are read back.** The body comes off a peer's buffer as it was written,
whatever follows the frame, and a peer that knows the api reads the message from it to the
last byte. It has to know the api: the body does not say whether its header has tagged
fields. -/
theorem response_frame_round_trip (m : ResponseMessage) (small : m.write.length ≤ 2147483647)
    {limit : Nat} (hl : m.write.length ≤ limit) (rest : Bytes) :
    (m.write = Word.write m.header.correlationId ++
        (if m.response.api = .apiVersions then [] else [Marker.tagged.byte]) ++
        m.response.write) ∧
      Frame.split limit (m.toFrame ++ rest) = .body m.write rest ∧
      read m.response.api m.write = (.ok m, []) := by
  have signed : m.write.length < 2 ^ 31 := Nat.lt_succ_of_le small
  refine ⟨?_, Frame.split_encode signed hl rest, (takes_write m signed).eq⟩
  rw [write, ResponseHeader.write_layout]

/-- A batch in which little is as one expects: the length, the checksum and the offsets fit
nothing, and one of the values is null. -/
def oddBatch : RecordBatch where
  baseOffset := -3
  batchLength := -1
  partitionLeaderEpoch := -1
  magic := 7
  crc := 0xffffffff
  attributes := -1
  lastOffsetDelta := Int32.minValue
  baseTimestamp := Int64.minValue
  maxTimestamp := Int64.maxValue
  producerId := -1
  producerEpoch := -1
  baseSequence := -1
  records :=
    [{ length := 0, attributes := -128, timestampDelta := Int64.minValue, offsetDelta := -1,
       value := none },
      { length := -9, attributes := 0, timestampDelta := 1, offsetDelta := Int32.minValue,
        value := some [] }]

/-- A response that nests as deep as responses do. -/
def nestedFetchResponse : ResponseMessage :=
  answering (-1) (.fetch {
    throttleTimeMs := -1, errorCode := 99, sessionId := 5
    responses := [
      { topicId := ⟨7⟩
        partitions := [
          { PartitionData.ofBatches 0 [oddBatch, oddBatch] with
            abortedTransactions := [{ producerId := -1, firstOffset := -1 }] },
          PartitionData.error 1 .unknownTopicId] },
      { topicId := Uuid.nil, partitions := [] }] })

/-- The list of the apis has the header without tagged fields. -/
def listingResponse : ResponseMessage := answering 7 (.apiVersions .listing)

/-- Both forms of the header, each in front of the beginning of another frame. -/
theorem response_frame_round_trip_bothHeaders :
    (Frame.split 400 (nestedFetchResponse.toFrame ++ [0, 0]) =
        .body nestedFetchResponse.write [0, 0] ∧
      read .fetch nestedFetchResponse.write = (.ok nestedFetchResponse, [])) ∧
    (Frame.split 400 (listingResponse.toFrame ++ [0, 0]) = .body listingResponse.write [0, 0] ∧
      read .apiVersions listingResponse.write = (.ok listingResponse, [])) := by
  have nested : nestedFetchResponse.write.length ≤ 400 := by decide +kernel
  have listing : listingResponse.write.length ≤ 400 := by decide +kernel
  exact ⟨(response_frame_round_trip _ (by omega) nested [0, 0]).2,
    (response_frame_round_trip _ (by omega) listing [0, 0]).2⟩

end ResponseMessage

end LogBroker
