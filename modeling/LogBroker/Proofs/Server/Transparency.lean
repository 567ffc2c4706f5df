import LogBroker.Broker.Answer
import LogBroker.Proofs.Message.RoundTrip
import LogBroker.Proofs.Server.Cuts
import Mathlib.Data.List.Forall2

/-!
# The wire is transparent

A peer that sends requests in frames gets what the broker answers, as if it had called
the broker itself. On the way are the frames of both directions, the cuts of the stream,
and the bytes of the messages.

* A row of requests in frames is heard as these requests, and nothing stays in the buffer
  (`Connection.heard_row`).
* The frames that are sent hold the answers. The batches in them come from logs of which
  nothing is known, but all that a log can give is read back as it was written
  (`ResponseMessage.takes_write`).

Main statement: `Broker.transparent`.
-/

namespace LogBroker

open Wire

/-! ## A row of requests -/

namespace RequestMessage

/-- A message that a connection can hear: it is well-formed, and its body is accepted and
has a length that is not read as negative. -/
structure Audible (limit : Nat) (m : RequestMessage) : Prop where
  /-- the message can be read -/
  wf : m.WellFormed
  /-- the body is not longer than the frames that are accepted -/
  accepted : m.write.length ≤ limit
  /-- the length of the body has 31 bits -/
  signed : m.write.length ≤ 2147483647

instance (limit : Nat) (m : RequestMessage) : Decidable (m.Audible limit) :=
  decidable_of_iff (m.WellFormed ∧ m.write.length ≤ limit ∧ m.write.length ≤ 2147483647)
    ⟨fun ⟨wf, accepted, signed⟩ => ⟨wf, accepted, signed⟩,
      fun ⟨wf, accepted, signed⟩ => ⟨wf, accepted, signed⟩⟩

variable {limit : Nat} {ms : List RequestMessage}

/-- A request that can be heard is read from its body. -/
theorem Audible.read_write {m : RequestMessage} (h : m.Audible limit) :
    read m.write = (.ok m, []) := by
  have small : m.write.length < 2 ^ 32 := Nat.lt_of_le_of_lt h.signed (by decide)
  exact (takes_write h.wf small).eq

theorem Audible.fits {m : RequestMessage} (h : m.Audible limit) :
    m.write.length < 2 ^ 31 ∧ m.write.length ≤ limit :=
  ⟨Nat.lt_succ_of_le h.signed, h.accepted⟩

/-- The bodies that messages were written to hold these messages. -/
theorem ofBodies_map_write (h : ∀ m ∈ ms, m.Audible limit) : ofBodies (ms.map write) = ms := by
  induction ms with
  | nil => rfl
  | cons m ms ih =>
    obtain ⟨first, others⟩ := List.forall_mem_cons.mp h
    rw [List.map_cons, ofBodies_cons_of_ok first.read_write, ih others]

end RequestMessage

namespace Connection

variable {limit : Nat} {ms : List RequestMessage}

theorem bodies_requests (h : ∀ m ∈ ms, m.Audible limit) :
    Frame.bodies limit (ms.flatMap RequestMessage.toFrame) = ms.map RequestMessage.write :=
  Frame.bodies_row fun m hm => (h m hm).fits

theorem remainder_requests (h : ∀ m ∈ ms, m.Audible limit) :
    Frame.remainder limit (ms.flatMap RequestMessage.toFrame) = [] :=
  Frame.remainder_row fun m hm => (h m hm).fits

/-- Requests in a row are heard in their order. -/
theorem requests_row (h : ∀ m ∈ ms, m.Audible limit) :
    requests limit (ms.flatMap RequestMessage.toFrame) = ms := by
  rw [requests, bodies_requests h, RequestMessage.ofBodies_map_write h]

/-- They leave nothing behind, and so nothing fails. -/
theorem not_fails_row (h : ∀ m ∈ ms, m.Audible limit) :
    ¬ Fails limit (ms.flatMap RequestMessage.toFrame) := by
  rintro (⟨body, hb, e, he⟩ | ⟨length, refused⟩)
  · rw [bodies_requests h] at hb
    obtain ⟨m, hm, rfl⟩ := List.mem_map.mp hb
    rw [(h m hm).read_write] at he
    cases he
  · rw [remainder_requests h, Frame.split_of_short (by decide)] at refused
    cases refused

/-- A row of requests is answered to its end, and the connection waits for more. -/
theorem heard_row (answer : RequestMessage → ResponseMessage) (h : ∀ m ∈ ms, m.Audible limit) :
    heard limit answer (ms.flatMap RequestMessage.toFrame) =
      { standing := .live, buffer := [], sent := ms.flatMap fun m => (answer m).toFrame } := by
  rw [heard, answers, requests_row h, if_neg (not_fails_row h), if_neg (not_fails_row h),
    remainder_requests h]

end Connection

/-! ## What the peer reads -/

namespace Broker

variable {broker : Broker} {disk : Disk}

/-- The response is of the api that was asked. -/
theorem api_answer (broker : Broker) (disk : Disk) (m : RequestMessage) :
    (broker.answer disk m).response.api = m.request.api := by
  rcases m with ⟨header, request⟩
  cases request <;> rfl

/-- The body is read by the peer as the broker's answer to the message. The answer is for
the message's number and of its api. -/
structure AnswersIn (broker : Broker) (disk : Disk) (m : RequestMessage) (body : Bytes) :
    Prop where
  /-- the peer knows the api, and reads the answer and nothing behind it -/
  read : ResponseMessage.read m.request.api body = (.ok (broker.answer disk m), [])
  /-- the answer repeats the number -/
  correlationId : (broker.answer disk m).header.correlationId = m.header.correlationId
  /-- the answer is of the api that was asked -/
  api : (broker.answer disk m).response.api = m.request.api

/-- An answer is read as it was given, if its length has 31 bits. -/
theorem answersIn_write {m : RequestMessage}
    (h : (broker.answer disk m).write.length ≤ 2147483647) :
    broker.AnswersIn disk m (broker.answer disk m).write := by
  have read := (ResponseMessage.takes_write _ (Nat.lt_succ_of_le h)).eq
  rw [api_answer] at read
  exact ⟨read, rfl, api_answer broker disk m⟩

/-- **The wire is transparent.** Let requests arrive in frames that the broker accepts,
however the stream is cut, and let the answers fit into frames that the peer accepts. Then
the bytes that the broker sends are one frame for each request, in the order of the
requests, and nothing else; and each frame is read as what the broker answers. -/
theorem transparent {ms : List RequestMessage} {pieces : List Bytes} {accepts : Nat}
    (audible : ∀ m ∈ ms, m.Audible broker.config.maxFrameLength)
    (whole : pieces.flatten = ms.flatMap RequestMessage.toFrame)
    (signed : ∀ m ∈ ms, (broker.answer disk m).write.length ≤ 2147483647)
    (accepted : ∀ m ∈ ms, (broker.answer disk m).write.length ≤ accepts) :
    let c := Connection.hear broker.config.maxFrameLength (broker.answer disk) {} pieces
    (c.standing = .live ∧ c.buffer = []) ∧ Frame.remainder accepts c.sent = [] ∧
      List.Forall₂ (broker.AnswersIn disk) ms (Frame.bodies accepts c.sent) := by
  intro c
  -- the pieces count as the stream that they were cut from, and that is the row of requests
  have hc : c = Connection.heard broker.config.maxFrameLength (broker.answer disk)
      (ms.flatMap RequestMessage.toFrame) := by
    rw [← whole, ← List.nil_append pieces.flatten, ← Connection.hear_heard, Connection.heard_nil]
  rw [Connection.heard_row _ audible] at hc
  have fits : ∀ m ∈ ms, (broker.answer disk m).write.length < 2 ^ 31 ∧
      (broker.answer disk m).write.length ≤ accepts := by
    intro m hm
    exact ⟨Nat.lt_succ_of_le (signed m hm), accepted m hm⟩
  rw [hc]
  refine ⟨⟨rfl, rfl⟩, Frame.remainder_row fits, ?_⟩
  have bodies : Frame.bodies accepts (ms.flatMap fun m => (broker.answer disk m).toFrame) =
      ms.map fun m => (broker.answer disk m).write := Frame.bodies_row fits
  rw [bodies, List.forall₂_map_right_iff, List.forall₂_same]
  intro m hm
  exact answersIn_write (signed m hm)

/-- The id of a topic. -/
def someTopic : Uuid := ⟨7⟩

/-- A broker that knows one topic. -/
def ofOneTopic : Broker := { index := TopicIndex.empty.apply (.topic "a" someTopic) }

/-- A batch of one record. -/
def storedBatch : RecordBatch := RecordBatch.ofRecords 3 [Record.ofValue 0 [104, 105]]

/-- A disk where the topic's log is the batch and the beginning of another one. -/
def oneLog : Disk :=
  Disk.empty.write (ofOneTopic.config.logs.segmentPath "a" 0)
    (RecordBatch.layout.write storedBatch ++ [0, 0])

/-- Requests for the apis and for the log. -/
def twoRequests : List RequestMessage :=
  [{ header := RequestHeader.forApi .apiVersions 4 1, request := .apiVersions {} },
    { header := RequestHeader.forApi .fetch 16 2
      request := .fetch {
        topics := [{ topicId := someTopic, partitions := [{ partition := 0 }] }] } }]

theorem answer_twoRequests : twoRequests.map (ofOneTopic.answer oneLog) =
    [.answering 1 (.apiVersions .listing),
      .answering 2 (.fetch {
        throttleTimeMs := 0, errorCode := 0, sessionId := 0
        responses :=
          [{ topicId := someTopic, partitions := [.ofBatches 0 [storedBatch]] }] })] := by
  have name : ofOneTopic.index.topicNameById someTopic = .ok "a" := by
    simp [TopicIndex.topicNameById, ofOneTopic, TopicIndex.apply]
  have scanned : RecordBatch.readAll (RecordBatch.layout.write storedBatch ++ [0, 0]) =
      [storedBatch] := by decide +kernel
  have batches : ofOneTopic.config.logs.readBatches oneLog "a" 0 = some [storedBatch] := by
    rw [LogDirectory.readBatches, oneLog, Disk.read_write, if_pos rfl, Option.map_some, scanned]
  simp [twoRequests, answer, respond, fetch, fetchTopic, name, fetchPartition, batches,
    RequestHeader.forApi, listApis, ApiVersion.listingVersion, ErrorCode.code]

/-- The peer whose requests were cut into two pieces reads the apis and the stored batch. -/
theorem transparent_twoRequests :
    let stream := twoRequests.flatMap RequestMessage.toFrame
    let c := Connection.hear ofOneTopic.config.maxFrameLength (ofOneTopic.answer oneLog) {}
      [stream.take 25, stream.drop 25]
    Frame.remainder 1000 c.sent = [] ∧
      List.Forall₂ (ofOneTopic.AnswersIn oneLog) twoRequests (Frame.bodies 1000 c.sent) := by
  intro stream c
  have audible : ∀ m ∈ twoRequests, m.Audible ofOneTopic.config.maxFrameLength := by
    decide +kernel
  have whole : [stream.take 25, stream.drop 25].flatten = stream := by simp
  have small : ∀ response ∈ twoRequests.map (ofOneTopic.answer oneLog),
      response.write.length ≤ 1000 := by
    rw [answer_twoRequests]
    decide +kernel
  rw [List.forall_mem_map] at small
  have signed : ∀ m ∈ twoRequests, (ofOneTopic.answer oneLog m).write.length ≤ 2147483647 := by
    intro m hm
    exact Nat.le_trans (small m hm) (by decide)
  exact (transparent audible whole signed small).2

end Broker

end LogBroker
