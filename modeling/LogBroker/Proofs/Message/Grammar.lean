import LogBroker.Message.Request
import LogBroker.Proofs.Wire.Grammar

/-!
# The grammar of requests

What a peer may send as a request, field by field and without a word on how it is read. A
number of known width has one form. What has several:

* a compact length, which may have more groups than it needs;
* an empty text or collection, whose length may stand for null as well;
* text with replacement characters, which may stand for bytes that are no UTF-8.

Main statement: the broker reads a message just if the input begins with a form of it, and
never looks at what stands behind the form (`RequestMessage.read_eq_ok_iff`).
-/

namespace LogBroker

open Wire Layout Prefixed Reader

/-! ## The grammar -/

/-- The one form of a partition to fetch. -/
def FetchPartition.Form (bytes : Bytes) (p : FetchPartition) : Prop :=
  bytes =
    Word.write p.partition ++ Word.write p.currentLeaderEpoch ++ Word.write p.fetchOffset ++
      Word.write p.lastFetchedEpoch ++ Word.write p.logStartOffset ++
      Word.write p.partitionMaxBytes ++ [0x00]

/-- The forms of a topic to fetch. -/
def FetchTopic.Form (bytes : Bytes) (t : FetchTopic) : Prop :=
  ∃ partitions, RowBehind CompactLength FetchPartition.Form partitions t.partitions ∧
    bytes = Word.write t.topicId ++ partitions ++ [0x00]

/-- The forms of partitions to drop. -/
def ForgottenTopic.Form (bytes : Bytes) (t : ForgottenTopic) : Prop :=
  ∃ partitions, RowBehind CompactLength Word.Form partitions t.partitions ∧
    bytes = Word.write t.topicId ++ partitions ++ [0x00]

/-- The forms of a request for records. -/
def FetchRequest.Form (bytes : Bytes) (r : FetchRequest) : Prop :=
  ∃ topics forgotten rack,
    RowBehind CompactLength FetchTopic.Form topics r.topics ∧
    RowBehind CompactLength ForgottenTopic.Form forgotten r.forgottenTopics ∧
    TextBehind CompactLength rack r.rackId ∧
    bytes =
      Word.write r.maxWaitMs ++ Word.write r.minBytes ++ Word.write r.maxBytes ++
        Word.write r.isolationLevel ++ Word.write r.sessionId ++ Word.write r.sessionEpoch ++
        topics ++ forgotten ++ rack ++ [0x00]

/-- The forms of a request for the apis. -/
def ApiVersionsRequest.Form (bytes : Bytes) (r : ApiVersionsRequest) : Prop :=
  ∃ name version,
    TextBehind CompactLength name r.clientSoftwareName ∧
    TextBehind CompactLength version r.clientSoftwareVersion ∧
    bytes = name ++ version ++ [0x00]

/-- The forms of a topic to describe. -/
def TopicRequest.Form (bytes : Bytes) (t : TopicRequest) : Prop :=
  ∃ name, TextBehind CompactLength name t.name ∧ bytes = name ++ [0x00]

/-- The forms of a request for topics. Its cursor is null. -/
def DescribeTopicPartitionsRequest.Form (bytes : Bytes) (r : DescribeTopicPartitionsRequest) :
    Prop :=
  ∃ topics, RowBehind CompactLength TopicRequest.Form topics r.topics ∧
    bytes = topics ++ Word.write r.responsePartitionLimit ++ [0xff] ++ [0x00]

/-- The forms of a request header. The length of the client's name has two bytes. -/
def RequestHeader.Form (bytes : Bytes) (h : RequestHeader) : Prop :=
  ∃ client, TextBehind Length16 client h.clientId ∧
    bytes =
      Word.write h.apiKey ++ Word.write h.apiVersion ++ Word.write h.correlationId ++ client ++
        [0x00]

/-- The forms of a request, and the number of its api. -/
def Request.Form (apiKey : Int16) (bytes : Bytes) : Request → Prop
  | .fetch r => apiKey = 1 ∧ r.Form bytes
  | .apiVersions r => apiKey = 18 ∧ r.Form bytes
  | .describeTopicPartitions r => apiKey = 75 ∧ r.Form bytes

/-- The forms of a message. The number in the header is that of the request's api. -/
def RequestMessage.Form (bytes : Bytes) (m : RequestMessage) : Prop :=
  ∃ header body, m.header.Form header ∧ m.request.Form m.header.apiKey body ∧
    bytes = header ++ body

/-! ## Layouts of requests -/

/-- All fields of a partition to fetch are words, and words have one form. -/
theorem FetchPartition.form_layout : FetchPartition.layout.Form = FetchPartition.Form := by
  funext bytes p
  simp [layout, FetchPartition.Form, Word.Form, eq_comm]

/-- The forms of a topic to fetch differ in those of the count of its partitions. -/
theorem FetchTopic.form_layout : FetchTopic.layout.Form = FetchTopic.Form := by
  funext bytes t
  simp [layout, FetchTopic.Form, Word.Form, FetchPartition.form_layout, eq_comm]

/-- A topic to drop has the numbers of its partitions and nothing else of them. -/
theorem ForgottenTopic.form_layout : ForgottenTopic.layout.Form = ForgottenTopic.Form := by
  funext bytes t
  simp [layout, ForgottenTopic.Form, Word.Form, eq_comm]

/-- A request for records has two collections and a text that have several forms. -/
theorem FetchRequest.form_layout : FetchRequest.layout.Form = FetchRequest.Form := by
  funext bytes r
  simp [layout, FetchRequest.Form, Word.Form, FetchTopic.form_layout, ForgottenTopic.form_layout,
    and_assoc, eq_comm]

/-- A request for the apis is two texts. -/
theorem ApiVersionsRequest.form_layout :
    ApiVersionsRequest.layout.Form = ApiVersionsRequest.Form := by
  funext bytes r
  simp [layout, ApiVersionsRequest.Form, and_assoc, eq_comm]

theorem TopicRequest.form_layout : TopicRequest.layout.Form = TopicRequest.Form := by
  funext bytes t
  simp [layout, TopicRequest.Form, eq_comm]

/-- The cursor of a request for topics is the marker that it is null. -/
theorem DescribeTopicPartitionsRequest.form_layout :
    DescribeTopicPartitionsRequest.layout.Form = DescribeTopicPartitionsRequest.Form := by
  funext bytes r
  simp [layout, DescribeTopicPartitionsRequest.Form, Word.Form, TopicRequest.form_layout,
    Marker.byte, eq_comm]

/-- The header alone has a text with a length of two bytes. -/
theorem RequestHeader.form_layout : RequestHeader.layout.Form = RequestHeader.Form := by
  funext bytes h
  simp [layout, RequestHeader.Form, Word.Form, eq_comm]

/-! ## Messages -/

/-- Requests for records are read just from their forms. -/
theorem FetchRequest.accepts_read : FetchRequest.layout.read.Accepts FetchRequest.Form := by
  rw [← form_layout]
  exact layout.accepts_read

/-- Requests for the apis are read just from their forms. -/
theorem ApiVersionsRequest.accepts_read :
    ApiVersionsRequest.layout.read.Accepts ApiVersionsRequest.Form := by
  rw [← form_layout]
  exact layout.accepts_read

/-- Requests for topics are read just from their forms. -/
theorem DescribeTopicPartitionsRequest.accepts_read :
    DescribeTopicPartitionsRequest.layout.read.Accepts DescribeTopicPartitionsRequest.Form := by
  rw [← form_layout]
  exact layout.accepts_read

/-- Headers are read just from their forms. -/
theorem RequestHeader.accepts_read : RequestHeader.layout.read.Accepts RequestHeader.Form := by
  rw [← form_layout]
  exact layout.accepts_read

namespace Request

/-- A form of a request names the api of the request. -/
theorem Form.apiKey {apiKey : Int16} {bytes : Bytes} {r : Request} (h : r.Form apiKey bytes) :
    apiKey = r.api.code := by
  cases r <;> exact h.1

/-- The reader of an api accepts the requests that name the api. -/
theorem accepts_read (api : ApiKey) : (read api).Accepts fun bytes r => r.Form api.code bytes := by
  cases api with
  | fetch =>
    refine (FetchRequest.accepts_read.map fetch).congr ?_
    intro bytes r
    cases r <;> simp [Form, ApiKey.code]
  | apiVersions =>
    refine (ApiVersionsRequest.accepts_read.map apiVersions).congr ?_
    intro bytes r
    cases r <;> simp [Form, ApiKey.code]
  | describeTopicPartitions =>
    refine (DescribeTopicPartitionsRequest.accepts_read.map describeTopicPartitions).congr ?_
    intro bytes r
    cases r <;> simp [Form, ApiKey.code]

end Request

namespace RequestMessage

/-- What is read behind a header. -/
theorem accepts_request (header : RequestHeader) :
    Accepts
      (match ApiKey.ofCode? header.apiKey with
        | none => Reader.fail (.unsupportedRequest header.apiKey)
        | some api => do
          let request ← Request.read api
          pure { header, request })
      fun bytes (m : RequestMessage) => m.header = header ∧ m.request.Form header.apiKey bytes := by
  rcases served : ApiKey.ofCode? header.apiKey with _ | api
  · -- a number that no request names has no form
    refine (accepts_fail _).congr ?_
    intro bytes m
    rw [false_iff]
    rintro ⟨rfl, form⟩
    rw [form.apiKey, ApiKey.ofCode?_code] at served
    cases served
  · refine ((Request.accepts_read api).bind_pure (RequestMessage.mk header)).congr ?_
    intro bytes m
    rw [← ApiKey.code_of_ofCode? served]
    constructor
    · rintro ⟨r, form, rfl⟩
      exact ⟨rfl, form⟩
    · rintro ⟨rfl, form⟩
      exact ⟨m.request, form, rfl⟩

/-- **The broker accepts the grammar of requests.** It reads a message just if the input begins
with a form of the message, and leaves what stands behind the form. -/
theorem read_eq_ok_iff (input : Bytes) (m : RequestMessage) (rest : Bytes) :
    read input = (.ok m, rest) ↔ ∃ bytes, input = bytes ++ rest ∧ m.Form bytes := by
  have accepts := RequestHeader.accepts_read.bind accepts_request
  refine accepts.congr ?_ input m rest
  intro bytes m
  constructor
  · rintro ⟨_, header, body, rfl, hheader, rfl, hbody⟩
    exact ⟨header, body, hheader, hbody, rfl⟩
  · rintro ⟨header, body, hheader, hbody, rfl⟩
    exact ⟨m.header, header, body, rfl, hheader, rfl, hbody⟩

/-- A nameless client, a length of two groups, a byte that is no text, and a byte behind. -/
example : read ([0, 18, 0, 4, 0, 0, 0, 7, 0xff, 0xff, 0] ++ [0x80, 0x00, 0x02, 0xff, 0] ++ [0xab]) =
    (.ok {
      header := { apiKey := 18, apiVersion := 4, correlationId := 7, clientId := "" }
      request := .apiVersions { clientSoftwareVersion := "\ufffd" } }, [0xab]) := by
  decide +kernel

end RequestMessage

end LogBroker
