import LogBroker.Broker.Segments
import LogBroker.Proofs.Broker.Agreement
import LogBroker.Proofs.Log.Growth

/-!
# Starting again on a log that has grown

A broker replays the metadata log when it starts. If the log has grown since, then the scan finds
the batches that it found before and some *newer* ones behind them, even if it ended before at a
batch that was cut or corrupt. So the records that are replayed begin with those that were
replayed before, and the new index keeps all that the old one knew (`TopicIndex.GrowsTo`): what
was resolved is resolved, though a newer topic may have taken its place.

Main statement: `Broker.replay_grown`.
-/

namespace LogBroker

namespace TopicIndex

/-! ## Records behind others -/

/-- Topics that do not have the key do not count for it. -/
theorem lastWith_append_of_forall_ne {κ : Type} [DecidableEq κ] {key : String × Uuid → κ} {k : κ}
    (ts : List (String × Uuid)) {more : List (String × Uuid)} (h : ∀ topic ∈ more, key topic ≠ k) :
    lastWith key k (ts ++ more) = lastWith key k ts := by
  have none : (more.filter fun topic => key topic = k) = [] :=
    List.filter_eq_nil_iff.mpr fun topic mem => by simpa using h topic mem
  rw [lastWith, lastWith, List.filter_append, none, List.append_nil]

/-- A metadata record lies in a batch. -/
theorem exists_batch_of_mem {record : MetadataRecord} {batches : List RecordBatch}
    (h : record ∈ metadataRecords batches) :
    ∃ batch ∈ batches, record ∈ metadataRecords [batch] := by
  obtain ⟨batch, mem, within⟩ := mem_metadataRecords.mp h
  exact ⟨batch, mem, mem_metadataRecords.mpr ⟨batch, List.mem_singleton_self batch, within⟩⟩

/-! ## Growing -/

/-- The later index knows all that the earlier one knows. Where the two tell different things
about a topic, the topic is in one of the newer batches. -/
structure GrowsTo (index later : TopicIndex) (newer : List RecordBatch) : Prop where
  /-- a name that has an id keeps having one -/
  name_resolved (name : String) (id : Uuid) :
    index.topicIdByName name = .ok id → ∃ id', later.topicIdByName name = .ok id'
  /-- an id that has a name keeps having one -/
  id_resolved (id : Uuid) (name : String) :
    index.topicNameById id = .ok name → ∃ name', later.topicNameById id = .ok name'
  /-- there are no fewer names -/
  topicCount_le : index.topicCount ≤ later.topicCount
  /-- partitions are added behind those of their id -/
  partitions_prefix (id : Uuid) (numbers : List Int32) :
    index.partitionsByTopic id = .ok numbers →
      ∃ more, later.partitionsByTopic id = .ok (numbers ++ more)
  /-- a name that has another id, or has got one, is that of a newer topic -/
  id_changed (name : String) : index.topicIdByName name ≠ later.topicIdByName name →
    ∃ batch ∈ newer, ∃ id, .topic name id ∈ metadataRecords [batch]
  /-- an id that has another name, or has got one, is that of a newer topic -/
  name_changed (id : Uuid) : index.topicNameById id ≠ later.topicNameById id →
    ∃ batch ∈ newer, ∃ name, .topic name id ∈ metadataRecords [batch]

section

variable {index later : TopicIndex} {log more : List MetadataRecord}

theorem Answers.topicCount_le (h : index.Answers log) (h' : later.Answers (log ++ more)) :
    index.topicCount ≤ later.topicCount := by
  rw [h.topicCount, h'.topicCount, topics_append]
  refine Finset.card_le_card fun name mem => ?_
  simp only [namesIn, List.map_append, List.toFinset_append, Finset.mem_union]
  exact .inl mem

theorem Answers.partitions_prefix (h : index.Answers log) (h' : later.Answers (log ++ more))
    {id : Uuid} {numbers : List Int32} (known : index.partitionsByTopic id = .ok numbers) :
    later.partitionsByTopic id = .ok (numbers ++ partitionsOf id more) := by
  rw [h.partitionsByTopic] at known
  rw [h'.partitionsByTopic, partitionsOf_append]
  rcases old : partitionsOf id log with _ | ⟨number, others⟩ <;> rw [old] at known
  · cases known
  · cases known
    rfl

/-- A name whose answer changes is that of a newer topic. -/
theorem Answers.exists_newer_of_name (h : index.Answers log) (h' : later.Answers (log ++ more))
    {name : String} (changed : index.topicIdByName name ≠ later.topicIdByName name) :
    ∃ id, .topic name id ∈ more := by
  by_contra none
  refine changed ?_
  rw [h.topicIdByName, h'.topicIdByName, topics_append, lastWith_append_of_forall_ne]
  rintro ⟨_, id⟩ mem rfl
  exact none ⟨id, mem_topics_iff.mp mem⟩

/-- An id whose answer changes is that of a newer topic. -/
theorem Answers.exists_newer_of_id (h : index.Answers log) (h' : later.Answers (log ++ more))
    {id : Uuid} (changed : index.topicNameById id ≠ later.topicNameById id) :
    ∃ name, .topic name id ∈ more := by
  by_contra none
  refine changed ?_
  rw [h.topicNameById, h'.topicNameById, topics_append, lastWith_append_of_forall_ne]
  rintro ⟨name, _⟩ mem rfl
  exact none ⟨name, mem_topics_iff.mp mem⟩

end

/-- **More batches, more knowledge.** -/
theorem growsTo_append (batches newer : List RecordBatch) :
    (ofBatches batches).GrowsTo (ofBatches (batches ++ newer)) newer := by
  have earlier := (describes_ofBatches batches).answers
  have grown := (describes_ofBatches (batches ++ newer)).answers
  rw [metadataRecords_append] at grown
  refine
    { name_resolved := ?_, id_resolved := ?_, topicCount_le := earlier.topicCount_le grown,
      partitions_prefix := ?_, id_changed := ?_, name_changed := ?_ }
  · intro name id known
    exact grown.exists_topicIdByName (List.mem_append_left _ (earlier.mem_of_topicIdByName known))
  · intro id name known
    exact grown.exists_topicNameById (List.mem_append_left _ (earlier.mem_of_topicNameById known))
  · intro id numbers known
    exact ⟨_, earlier.partitions_prefix grown known⟩
  · intro name changed
    obtain ⟨id, mem⟩ := earlier.exists_newer_of_name grown changed
    obtain ⟨batch, newest, within⟩ := exists_batch_of_mem mem
    exact ⟨batch, newest, id, within⟩
  · intro id changed
    obtain ⟨name, mem⟩ := earlier.exists_newer_of_id grown changed
    obtain ⟨batch, newest, within⟩ := exists_batch_of_mem mem
    exact ⟨batch, newest, name, within⟩

end TopicIndex

/-! ## Replaying -/

namespace Broker

/-- What a broker knows is read off the batches of the metadata log. -/
theorem replay_of_read {logs : LogDirectory} {disk : Disk} {segment : Bytes}
    (h : disk.read (metadataSegment logs) = some segment) :
    replay logs disk = TopicIndex.ofBatches (RecordBatch.readAll segment) := by
  have batches : logs.readBatches disk metadataTopic metadataPartition =
      some (RecordBatch.readAll segment) := by
    rw [metadataSegment] at h
    rw [LogDirectory.readBatches, h, Option.map_some]
  rw [replay, batches]

/-- **A restart forgets nothing.** Whatever is in the metadata log, which may end in the middle of
a batch or in bytes that are none, and whatever is appended to it: the scan finds what it found
before and newer batches behind, and the index grows by these. -/
theorem replay_grown (logs : LogDirectory) {disk later : Disk} {log more : Bytes}
    (before : disk.read (metadataSegment logs) = some log)
    (after : later.read (metadataSegment logs) = some (log ++ more)) :
    ∃ newer, RecordBatch.readAll (log ++ more) = RecordBatch.readAll log ++ newer ∧
      (replay logs disk).GrowsTo (replay logs later) newer := by
  obtain ⟨newer, grown⟩ := RecordBatch.prefix_readAll_append log more
  refine ⟨newer, grown.symm, ?_⟩
  rw [replay_of_read before, replay_of_read after, ← grown]
  exact TopicIndex.growsTo_append (RecordBatch.readAll log) newer

/-- A topic and a partition of it. -/
def firstBatch : RecordBatch :=
  .ofRecords 0 ([.topic "a" ⟨7⟩, .partition 0 ⟨7⟩].map
    fun record => Record.ofValue 0 (MetadataRecord.write record))

/-- Another partition of it, and another id for its name. -/
def secondBatch : RecordBatch :=
  .ofRecords 2 ([.partition 1 ⟨7⟩, .topic "a" ⟨9⟩].map
    fun record => Record.ofValue 0 (MetadataRecord.write record))

/-- The bytes of both batches. -/
def bothBatches : Bytes := RecordBatch.writeAll [firstBatch, secondBatch]

/-- The first start finds the second batch without its last bytes, the next one finds all of it. -/
theorem replay_grown_cutBatch :
    let disk := Disk.empty.write (metadataSegment {}) (bothBatches.take 220)
    let later := disk.write (metadataSegment {}) bothBatches
    (replay {} disk).GrowsTo (replay {} later) [secondBatch] ∧
      (replay {} disk).topicIdByName "a" = .ok ⟨7⟩ ∧
      (replay {} later).topicIdByName "a" = .ok ⟨9⟩ ∧
      (replay {} disk).partitionsByTopic ⟨7⟩ = .ok [0] ∧
      (replay {} later).partitionsByTopic ⟨7⟩ = .ok [0, 1] := by
  intro disk later
  have before : disk.read (metadataSegment {}) = some (bothBatches.take 220) := by
    rw [Disk.read_write, if_pos rfl]
  have after : later.read (metadataSegment {}) =
      some (bothBatches.take 220 ++ bothBatches.drop 220) := by
    rw [Disk.read_write, if_pos rfl, List.take_append_drop]
  have cut : RecordBatch.readAll (bothBatches.take 220) = [firstBatch] := by decide +kernel
  have whole : RecordBatch.readAll bothBatches = [firstBatch, secondBatch] := by decide +kernel
  have replayed : TopicIndex.metadataRecords [firstBatch] =
      [.topic "a" ⟨7⟩, .partition 0 ⟨7⟩] := by decide +kernel
  have replayedLater : TopicIndex.metadataRecords [firstBatch, secondBatch] =
      [.topic "a" ⟨7⟩, .partition 0 ⟨7⟩, .partition 1 ⟨7⟩, .topic "a" ⟨9⟩] := by decide +kernel
  have known := (TopicIndex.describes_ofBatches [firstBatch]).answers
  have knownLater := (TopicIndex.describes_ofBatches [firstBatch, secondBatch]).answers
  rw [replayed, ← cut, ← replay_of_read before] at known
  rw [replayedLater, ← whole, ← List.take_append_drop 220 bothBatches,
    ← replay_of_read after] at knownLater
  obtain ⟨newer, grown, grows⟩ := replay_grown {} before after
  rw [List.take_append_drop, whole, cut] at grown
  obtain rfl : [secondBatch] = newer := (List.cons.inj grown).2
  exact ⟨grows, known.topicIdByName "a", knownLater.topicIdByName "a",
    known.partitionsByTopic ⟨7⟩, knownLater.partitionsByTopic ⟨7⟩⟩

end Broker

end LogBroker
