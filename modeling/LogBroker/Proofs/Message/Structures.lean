import LogBroker.Message.Request
import LogBroker.Message.Response
import LogBroker.Metadata.Record
import LogBroker.Proofs.Wire.Decision

/-!
# Where a structure ends

Nothing on the wire says how long a structure is: it ends where its last field does. So its
reader must find the end by itself, and must not look behind it. `Reader.SelfDelimiting` says
what this means for the three outcomes of a reader:

* a value is read from the same bytes whatever follows them;
* it is not read from a beginning of them, for there the input runs out;
* a failure stays the same failure whatever follows, unless it is that the input has run out.

Every decisive reader is of this kind (`Decisive.selfDelimiting`). `Structure` lists the
structures that have a reader and a writer of their own. Main statement:
`Structure.selfDelimiting_read`, for them and for whole messages.
-/

namespace LogBroker

open Wire Layout Reader

namespace Wire.Reader

variable {α : Type}

/-- The reader takes bytes up to an end that it finds in them. -/
structure SelfDelimiting (r : Reader α) : Prop where
  /-- what follows a value is left, whatever it is -/
  ok_append : ∀ {bs rest a}, r bs = (.ok a, rest) →
    ∀ more, r (bs ++ more) = (.ok a, rest ++ more)
  /-- of the bytes that a value was read from none is missing -/
  ranOut_of_cut : ∀ {bs rest a}, r bs = (.ok a, rest) →
    ∃ taken, bs = taken ++ rest ∧
      ∀ front missing, taken = front ++ missing → missing ≠ [] → RanOut (r front).1
  /-- what follows cannot turn a failure into anything else, unless bytes were missing -/
  error_append : ∀ {bs rest e}, r bs = (.error e, rest) →
    (∀ needed available, e ≠ .underflow needed available) →
    ∀ more, r (bs ++ more) = (.error e, rest ++ more)

variable {r : Reader α}

/-- A result that rests on the bytes that were taken is there again in front of others. -/
theorem Decisive.append (hr : r.Decisive) {bs rest : Bytes} {result : Except DecodeError α}
    (h : r bs = (result, rest)) (settled : ¬ RanOut result) (more : Bytes) :
    r (bs ++ more) = (result, rest ++ more) := by
  have decided := hr bs
  rw [h] at decided
  obtain ⟨bytes, rfl, decides⟩ := decided settled
  rw [List.append_assoc]
  exact decides (rest ++ more)

theorem Decisive.selfDelimiting (hr : r.Decisive) : r.SelfDelimiting where
  ok_append h := hr.append h (not_ranOut_ok _)
  ranOut_of_cut h := by
    obtain ⟨taken, whole, takes⟩ := hr.takes h
    refine ⟨taken, whole, ?_⟩
    rintro front missing rfl hm
    exact hr.ranOut_of_cut takes hm
  error_append h other := by
    refine hr.append h ?_
    rintro ⟨needed, available, he⟩
    exact other needed available (Except.error.inj he)

end Wire.Reader

/-! ## The structures -/

/-- The two directions of a structure. -/
structure Codec (α : Type) where
  /-- the structure off the front of the input -/
  read : Reader α
  /-- the bytes of the structure -/
  write : α → Bytes

/-- The two directions of a layout. -/
def Wire.Layout.codec {α : Type} (l : Layout α) : Codec α := ⟨l.read, l.write⟩

/-- The structures that are read and written on their own, by the type of their values. -/
inductive Structure : Type → Type where
  /-- the id of a topic -/
  | uuid : Structure Uuid
  /-- the header of a request -/
  | requestHeader : Structure RequestHeader
  /-- asks for the apis -/
  | apiVersionsRequest : Structure ApiVersionsRequest
  /-- the versions of an api -/
  | apiVersion : Structure ApiVersion
  /-- lists the apis -/
  | apiVersionsResponse : Structure ApiVersionsResponse
  /-- a partition to fetch -/
  | fetchPartition : Structure FetchPartition
  /-- a topic to fetch -/
  | fetchTopic : Structure FetchTopic
  /-- partitions to drop -/
  | forgottenTopic : Structure ForgottenTopic
  /-- asks for records -/
  | fetchRequest : Structure FetchRequest
  /-- a transaction that was given up -/
  | abortedTransaction : Structure AbortedTransaction
  /-- the records of a partition -/
  | partitionData : Structure PartitionData
  /-- the partitions of a topic with their records -/
  | fetchableTopicResponse : Structure FetchableTopicResponse
  /-- answers with records -/
  | fetchResponse : Structure FetchResponse
  /-- a topic to describe -/
  | topicRequest : Structure TopicRequest
  /-- asks for topics -/
  | describeTopicPartitionsRequest : Structure DescribeTopicPartitionsRequest
  /-- a partition of a described topic -/
  | responsePartition : Structure ResponsePartition
  /-- a described topic -/
  | responseTopic : Structure ResponseTopic
  /-- answers with topics -/
  | describeTopicPartitionsResponse : Structure DescribeTopicPartitionsResponse
  /-- an entry of a log -/
  | record : Structure Record
  /-- entries of a log under a common header -/
  | recordBatch : Structure RecordBatch
  /-- the value of an entry in the cluster's own log -/
  | metadataRecord : Structure MetadataRecord

namespace Structure

/-- How the structure is read and written. All but one have a layout; what follows the envelope
of a metadata record depends on the type in it. -/
def codec {α : Type} : Structure α → Codec α
  | uuid => Layout.uuid.codec
  | requestHeader => RequestHeader.layout.codec
  | apiVersionsRequest => ApiVersionsRequest.layout.codec
  | apiVersion => ApiVersion.layout.codec
  | apiVersionsResponse => ApiVersionsResponse.layout.codec
  | fetchPartition => FetchPartition.layout.codec
  | fetchTopic => FetchTopic.layout.codec
  | forgottenTopic => ForgottenTopic.layout.codec
  | fetchRequest => FetchRequest.layout.codec
  | abortedTransaction => AbortedTransaction.layout.codec
  | partitionData => PartitionData.layout.codec
  | fetchableTopicResponse => FetchableTopicResponse.layout.codec
  | fetchResponse => FetchResponse.layout.codec
  | topicRequest => TopicRequest.layout.codec
  | describeTopicPartitionsRequest => DescribeTopicPartitionsRequest.layout.codec
  | responsePartition => ResponsePartition.layout.codec
  | responseTopic => ResponseTopic.layout.codec
  | describeTopicPartitionsResponse => DescribeTopicPartitionsResponse.layout.codec
  | record => Record.layout.codec
  | recordBatch => RecordBatch.layout.codec
  | metadataRecord => ⟨MetadataRecord.read, MetadataRecord.write⟩

end Structure

/-! ## Readers that choose -/

namespace Wire.Reader.Compositional

variable {P : {α : Type} → Reader α → Prop} (hP : Compositional P)
include hP

/-- The type in the envelope is read before it is looked at. -/
theorem metadataRecord : P MetadataRecord.read :=
  hP.holds_bind (hP.layout _) fun (_, type, _) => by
    dsimp only
    split
    · exact hP.bind_pure (hP.layout _) _
    split
    · exact hP.bind_pure (hP.layout _) _
    · exact hP.holds_pure _

theorem structured {α : Type} (s : Structure α) : P s.codec.read := by
  cases s with
  | metadataRecord => exact hP.metadataRecord
  | _ => exact hP.layout _

theorem request : (api : ApiKey) → P (Request.read api)
  | .apiVersions | .fetch | .describeTopicPartitions => hP.map (hP.layout _) _

theorem response : (api : ApiKey) → P (Response.read api)
  | .apiVersions | .fetch | .describeTopicPartitions => hP.map (hP.layout _) _

theorem responseMessage (api : ApiKey) : P (ResponseMessage.read api) :=
  hP.holds_bind (hP.layout _) fun _ => hP.bind_pure (hP.response api) _

end Wire.Reader.Compositional

/-- So is the header, and an api that nobody knows is found out without a byte behind it. -/
theorem RequestMessage.decisive_read : read.Decisive :=
  RequestHeader.layout.decisive_read.bind fun header => by
    split
    · exact decisive_fail _
    · exact compositional_decisive.bind_pure (compositional_decisive.request _) _

namespace Structure

/-- **Every structure ends where its reader says**, and so does every message. -/
theorem selfDelimiting_read :
    (∀ {α : Type} (s : Structure α), s.codec.read.SelfDelimiting) ∧
      RequestMessage.read.SelfDelimiting ∧
      ∀ api, (ResponseMessage.read api).SelfDelimiting :=
  ⟨fun s => (compositional_decisive.structured s).selfDelimiting,
    RequestMessage.decisive_read.selfDelimiting,
    fun api => (compositional_decisive.responseMessage api).selfDelimiting⟩

/-- A record of one byte before its last byte, which says that there are no headers. -/
def headlessRecord : Bytes := [0x0e, 0, 0, 0, 0x01, 0x02, 0x61]

/-- The record in front of another byte, without its last byte, and with a wrong last byte. -/
theorem selfDelimiting_read_headlessRecord :
    Record.layout.read (headlessRecord ++ [0] ++ [7]) = (.ok (.ofValue 0 [0x61]), [7]) ∧
      RanOut (Record.layout.read headlessRecord).1 ∧
      Record.layout.read (headlessRecord ++ [9] ++ [7]) =
        (.error (.unexpected .headers 9), [7]) := by
  have record := selfDelimiting_read.1 record
  have whole : Record.layout.read (headlessRecord ++ [0]) = (.ok (.ofValue 0 [0x61]), []) := by
    decide +kernel
  have wrong : Record.layout.read (headlessRecord ++ [9]) =
      (.error (.unexpected .headers 9), []) := by decide +kernel
  obtain ⟨taken, all, cut⟩ := record.ranOut_of_cut whole
  rw [List.append_nil] at all
  exact ⟨record.ok_append whole [7], cut headlessRecord [0] all.symm (by simp),
    record.error_append wrong (by simp) [7]⟩

end Structure

end LogBroker
