import LogBroker.Proofs.Log.Rounds
import LogBroker.Proofs.Message.Structures

/-!
# What an input of so many bytes can hold

The collections of a structure nest: a response has topics, these have partitions, these have
batches, and these have records. Each level has its own counts, and they come off the wire before
the bytes that they speak of. `Structure.elementCount` says how many elements a structure has on
all levels together, field by field; it is what the layout of the structure counts
(`FetchResponse.elementCount_layout` and its neighbours), and so it is paid for in bytes
(`Structure.pays_read`).

Main statement: `Structure.counts_covered`, for structures, messages, single collections and logs.
-/

namespace LogBroker

open Wire Layout Reader

/-! ## Elements on all levels

A collection counts as its elements and what is in these; text and bytes are no collections. -/

def ApiVersionsResponse.elementCount (r : ApiVersionsResponse) : Nat := r.apiKeys.length

def FetchTopic.elementCount (t : FetchTopic) : Nat := t.partitions.length

def ForgottenTopic.elementCount (t : ForgottenTopic) : Nat := t.partitions.length

/-- The topics to fetch and those to forget, and the partitions of both. -/
def FetchRequest.elementCount (r : FetchRequest) : Nat :=
  nested FetchTopic.elementCount r.topics + nested ForgottenTopic.elementCount r.forgottenTopics

def RecordBatch.elementCount (b : RecordBatch) : Nat := b.records.length

/-- The transactions, the batches, and the records in these. -/
def PartitionData.elementCount (p : PartitionData) : Nat :=
  p.abortedTransactions.length + nested RecordBatch.elementCount p.records

def FetchableTopicResponse.elementCount (t : FetchableTopicResponse) : Nat :=
  nested PartitionData.elementCount t.partitions

def FetchResponse.elementCount (r : FetchResponse) : Nat :=
  nested FetchableTopicResponse.elementCount r.responses

def DescribeTopicPartitionsRequest.elementCount (r : DescribeTopicPartitionsRequest) : Nat :=
  r.topics.length

/-- The nodes, in each of the roles that a node can have. -/
def ResponsePartition.elementCount (p : ResponsePartition) : Nat :=
  p.replicaNodes.length + p.isrNodes.length + p.eligibleLeaderReplicas.length +
    p.lastKnownElr.length + p.offlineReplicas.length

def ResponseTopic.elementCount (t : ResponseTopic) : Nat :=
  nested ResponsePartition.elementCount t.partitions

def DescribeTopicPartitionsResponse.elementCount (r : DescribeTopicPartitionsResponse) : Nat :=
  nested ResponseTopic.elementCount r.topics

/-- How many elements the collections of a structure have, on all levels together. -/
def Structure.elementCount {α : Type} : Structure α → α → Nat
  | apiVersionsResponse => ApiVersionsResponse.elementCount
  | fetchTopic => FetchTopic.elementCount
  | forgottenTopic => ForgottenTopic.elementCount
  | fetchRequest => FetchRequest.elementCount
  | partitionData => PartitionData.elementCount
  | fetchableTopicResponse => FetchableTopicResponse.elementCount
  | fetchResponse => FetchResponse.elementCount
  | describeTopicPartitionsRequest => DescribeTopicPartitionsRequest.elementCount
  | responsePartition => ResponsePartition.elementCount
  | responseTopic => ResponseTopic.elementCount
  | describeTopicPartitionsResponse => DescribeTopicPartitionsResponse.elementCount
  | recordBatch => RecordBatch.elementCount
  | uuid | requestHeader | apiVersionsRequest | apiVersion | fetchPartition => fun _ => 0
  | abortedTransaction | topicRequest | record | metadataRecord => fun _ => 0

def Request.elementCount : Request → Nat
  | apiVersions _ => 0
  | fetch request => request.elementCount
  | describeTopicPartitions request => request.elementCount

def RequestMessage.elementCount (m : RequestMessage) : Nat := m.request.elementCount

def Response.elementCount : Response → Nat
  | apiVersions response => response.elementCount
  | fetch response => response.elementCount
  | describeTopicPartitions response => response.elementCount

def ResponseMessage.elementCount (m : ResponseMessage) : Nat := m.response.elementCount

/-! ## The elements that a layout counts -/

/-- The apis that are listed have no collections of their own. -/
theorem ApiVersionsResponse.elementCount_layout : layout.elementCount = elementCount := by
  funext r
  simp [layout, ApiVersion.layout, elementCount]

/-- A partition to fetch is made of numbers only. -/
@[simp] theorem FetchTopic.elementCount_layout : layout.elementCount = elementCount := by
  funext t
  simp [layout, FetchPartition.layout, elementCount]

@[simp] theorem ForgottenTopic.elementCount_layout : layout.elementCount = elementCount := by
  funext t
  simp [layout, elementCount]

/-- Both collections of topics count, each with what is in its topics. -/
theorem FetchRequest.elementCount_layout : layout.elementCount = elementCount := by
  funext r
  simp [layout, elementCount]

/-- A value of a record is bytes, which are no collection. -/
@[simp] theorem RecordBatch.elementCount_layout : layout.elementCount = elementCount := by
  funext b
  simp [layout, Record.layout, Record.bodyLayout, elementCount]

/-- Transactions are numbers; batches have records. -/
@[simp] theorem PartitionData.elementCount_layout : layout.elementCount = elementCount := by
  funext p
  simp [layout, AbortedTransaction.layout, elementCount]

@[simp] theorem FetchableTopicResponse.elementCount_layout :
    layout.elementCount = elementCount := by
  funext t
  simp [layout, elementCount]

/-- The layout counts on all four levels: topics, partitions, batches and records. -/
theorem FetchResponse.elementCount_layout : layout.elementCount = elementCount := by
  funext r
  simp [layout, elementCount]

/-- A topic is asked for by its name, which is text and no collection. -/
theorem DescribeTopicPartitionsRequest.elementCount_layout :
    layout.elementCount = elementCount := by
  funext r
  simp [layout, TopicRequest.layout, elementCount]

/-- The five collections of nodes stand beside each other. -/
@[simp] theorem ResponsePartition.elementCount_layout : layout.elementCount = elementCount := by
  funext p
  simp [layout, elementCount, Nat.add_assoc]

@[simp] theorem ResponseTopic.elementCount_layout : layout.elementCount = elementCount := by
  funext t
  simp [layout, elementCount]

/-- The layout counts on all three levels: topics, partitions and nodes. -/
theorem DescribeTopicPartitionsResponse.elementCount_layout :
    layout.elementCount = elementCount := by
  funext r
  simp [layout, elementCount]

/-! ## Structures and messages -/

/-- **No structure has more elements than it took bytes.** -/
theorem Structure.pays_read {α : Type} (s : Structure α) : s.codec.read.Pays s.elementCount := by
  cases s with
  | apiVersionsResponse => exact pays_elements _ ApiVersionsResponse.elementCount_layout
  | fetchTopic => exact pays_elements _ FetchTopic.elementCount_layout
  | forgottenTopic => exact pays_elements _ ForgottenTopic.elementCount_layout
  | fetchRequest => exact pays_elements _ FetchRequest.elementCount_layout
  | partitionData => exact pays_elements _ PartitionData.elementCount_layout
  | fetchableTopicResponse => exact pays_elements _ FetchableTopicResponse.elementCount_layout
  | fetchResponse => exact pays_elements _ FetchResponse.elementCount_layout
  | describeTopicPartitionsRequest =>
    exact pays_elements _ DescribeTopicPartitionsRequest.elementCount_layout
  | responsePartition => exact pays_elements _ ResponsePartition.elementCount_layout
  | responseTopic => exact pays_elements _ ResponseTopic.elementCount_layout
  | describeTopicPartitionsResponse =>
    exact pays_elements _ DescribeTopicPartitionsResponse.elementCount_layout
  | recordBatch => exact pays_elements _ RecordBatch.elementCount_layout
  | _ => exact (compositional_forward.structured _).pays

/-- The reader of an api is paid as the structure of its request is. -/
theorem Request.pays_read (api : ApiKey) : (read api).Pays elementCount := by
  cases api with
  | apiVersions => exact ApiVersionsRequest.layout.forward_read.pays.map fun _ => Nat.le_refl 0
  | fetch => exact (Structure.pays_read .fetchRequest).map fun _ => Nat.le_refl _
  | describeTopicPartitions =>
    exact (Structure.pays_read .describeTopicPartitionsRequest).map fun _ => Nat.le_refl _

/-- A header has no elements, so the request alone pays for the message. -/
theorem RequestMessage.pays_read : read.Pays elementCount :=
  .behind RequestHeader.layout.forward_read fun header => by
    split
    · exact pays_fail _
    · exact (Request.pays_read _).bind_pure fun _ => Nat.le_refl _

/-- The reader of an api is paid as the structure of its response is. -/
theorem Response.pays_read (api : ApiKey) : (read api).Pays elementCount := by
  cases api with
  | apiVersions => exact (Structure.pays_read .apiVersionsResponse).map fun _ => Nat.le_refl _
  | fetch => exact (Structure.pays_read .fetchResponse).map fun _ => Nat.le_refl _
  | describeTopicPartitions =>
    exact (Structure.pays_read .describeTopicPartitionsResponse).map fun _ => Nat.le_refl _

/-- The header of a response has no elements either. -/
theorem ResponseMessage.pays_read (api : ApiKey) : (read api).Pays elementCount :=
  .behind (ResponseHeader.layout api).forward_read fun _ =>
    (Response.pays_read api).bind_pure fun _ => Nat.le_refl _

namespace Structure

/-- **Counts cannot outrun the input.** A structure or a message has no more elements, on all
levels of its collections together, than its reader took bytes. A collection that announces more
elements than there are bytes behind its count cannot be read: one step later than there are bytes,
at the latest, an element has failed, and the collection fails as it does. A log has one batch for
every 61 of its bytes at most, and the loop that reads them ends. -/
theorem counts_covered :
    ((∀ {α : Type} (s : Structure α), s.codec.read.Pays s.elementCount) ∧
      RequestMessage.read.Pays RequestMessage.elementCount ∧
      ∀ api, (ResponseMessage.read api).Pays ResponseMessage.elementCount) ∧
    (∀ {α : Type} (element : Layout α) (bs rest : Bytes) (n : Nat), rest.length < n →
      (Prefixed.readLength32 bs = (.ok n, rest) →
        ∃ e left, element.read.FailsWithin (rest.length + 1) rest e left ∧
          (array element).read bs = (.error e, left)) ∧
      (Prefixed.readCompactLength bs = (.ok n, rest) →
        ∃ e left, element.read.FailsWithin (rest.length + 1) rest e left ∧
          (compactArray element).read bs = (.error e, left))) ∧
    (RecordBatch.layout.read.Pays fun _ => 61) ∧
    ∀ segment,
      61 * (RecordBatch.readAll segment).length + (RecordBatch.scan segment).2.length ≤
        segment.length ∧
      (RecordBatch.readAll segment).length ≤ segment.length / 61 ∧
      RecordBatch.ScansWithin (segment.length / 61 + 1) segment (RecordBatch.readAll segment)
        (RecordBatch.scan segment).2 := by
  refine ⟨⟨pays_read, RequestMessage.pays_read, ResponseMessage.pays_read⟩, ?_,
    RecordBatch.pays_header, ?_⟩
  · intro α element bs rest n many
    exact ⟨fun declared => element.advances_read.overcounted declared many,
      fun declared => element.advances_read.overcounted declared many⟩
  · intro segment
    have scans := RecordBatch.scansWithin (Nat.lt_succ_self (segment.length / 61))
    exact ⟨scans.length_le, RecordBatch.length_readAll_le, scans⟩

/-- A topic of two partitions. The first has two replicas, and one of them is up to date. -/
def nestedTopic : ResponseTopic :=
  { ResponseTopic.found "a" Uuid.nil [] with
    partitions := [{ partitionIndex := 0, replicaNodes := [1, 2], isrNodes := [2] },
      { partitionIndex := 1 }] }

/-- The greatest count that a collection can announce, in five bytes. -/
def greatestCount : Bytes := [0xff, 0xff, 0xff, 0xff, 0x0f]

/-- Two batches without records, and a third without its last byte. -/
def cutHeaders : Bytes := (RecordBatch.writeAll (List.replicate 3 (.ofRecords 0 []))).take 182

/-- A topic with five elements on two levels; a collection of `2 ^ 32 - 2` numbers with two of them
and a byte behind its count; and a log that has as many batches as there is room for. -/
theorem counts_covered_greatestCount :
    (ResponseTopic.layout.read (ResponseTopic.layout.write nestedTopic ++ [9]) =
        (.ok nestedTopic, [9]) ∧
      nestedTopic.elementCount = 5 ∧
      5 + 1 ≤ (ResponseTopic.layout.write nestedTopic ++ [9]).length) ∧
    (∃ e left, int32.read.FailsWithin 10 [0, 0, 0, 1, 0, 0, 0, 2, 0] e left ∧
      (compactArray int32).read (greatestCount ++ [0, 0, 0, 1, 0, 0, 0, 2, 0]) =
        (.error e, left)) ∧
    ((RecordBatch.readAll cutHeaders).length = 2 ∧ 2 ≤ cutHeaders.length / 61 ∧
      RecordBatch.ScansWithin 3 cutHeaders (RecordBatch.readAll cutHeaders)
        (RecordBatch.scan cutHeaders).2) := by
  obtain ⟨⟨structures, -⟩, collections, -, logs⟩ := counts_covered
  have topic : ResponseTopic.layout.read (ResponseTopic.layout.write nestedTopic ++ [9]) =
      (.ok nestedTopic, [9]) := by decide +kernel
  have declared : Prefixed.readCompactLength (greatestCount ++ [0, 0, 0, 1, 0, 0, 0, 2, 0]) =
      (.ok (2 ^ 32 - 2), [0, 0, 0, 1, 0, 0, 0, 2, 0]) := by decide +kernel
  have size : cutHeaders.length = 182 := by decide +kernel
  have batches : (RecordBatch.readAll cutHeaders).length = 2 := by decide +kernel
  obtain ⟨-, room, scans⟩ := logs cutHeaders
  rw [batches] at room
  rw [size] at scans
  exact ⟨⟨topic, by decide +kernel, structures responseTopic topic⟩,
    (collections int32 _ _ _ (by decide)).2 declared, batches, room, scans⟩

end Structure

end LogBroker
