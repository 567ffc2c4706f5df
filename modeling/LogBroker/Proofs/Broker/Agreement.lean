import LogBroker.Broker.Answer
import LogBroker.Proofs.Log.Naming
import LogBroker.Proofs.Metadata.Replay
import Mathlib.Data.List.Forall2

/-!
# Describing a topic and fetching from it

A description goes from a name to an id, and a fetch goes from an id to a name. The two
tables behind them are not inverse to each other once a name has got another id, or an id
another name: each keeps the last topic of its own key. They agree as far as both are about
the topics of one log (`TopicIndex.Answers`): the id that a name has is the id of some topic
in the log, so it has a name too, and the other way round.

What is fetched are the batches in the directory of the described topic
(`LogDirectory.segmentPath_eq_directory`).

Main statement: `Broker.agree_ofBatches`.
-/

namespace LogBroker

/-! ## Names and ids of a log -/

namespace TopicIndex

section

variable {κ : Type} [DecidableEq κ] {key : String × Uuid → κ} {k : κ}
  {ts : List (String × Uuid)} {topic : String × Uuid}

/-- The last topic of a key is a topic, and it has the key. -/
theorem mem_of_lastWith (h : lastWith key k ts = some topic) : topic ∈ ts ∧ key topic = k := by
  obtain ⟨mem, same⟩ := List.mem_filter.mp (List.mem_of_getLast? h)
  exact ⟨mem, of_decide_eq_true same⟩

/-- A key of a topic has a last topic. -/
theorem exists_lastWith (mem : topic ∈ ts) (hk : key topic = k) :
    ∃ last, lastWith key k ts = some last := by
  have kept : topic ∈ ts.filter fun topic => key topic = k :=
    List.mem_filter.mpr ⟨mem, decide_eq_true hk⟩
  exact ⟨_, List.getLast?_eq_some_getLast (List.ne_nil_of_mem kept)⟩

end

theorem mem_topics_iff {log : List MetadataRecord} {name : String} {id : Uuid} :
    (name, id) ∈ topics log ↔ MetadataRecord.topic name id ∈ log := by
  rw [topics, List.mem_filterMap]
  constructor
  · rintro ⟨record, mem, h⟩
    cases record with
    | topic name' id' =>
      cases h
      exact mem
    | partition _ _ => cases h
    | other _ => cases h
  · intro mem
    exact ⟨_, mem, rfl⟩

/-- No two topics of the log have this id and different names. -/
def OneName (log : List MetadataRecord) (id : Uuid) : Prop :=
  ∀ name name', MetadataRecord.topic name id ∈ log → MetadataRecord.topic name' id ∈ log →
    name = name'

namespace Answers

variable {index : TopicIndex} {log : List MetadataRecord} {name : String} {id : Uuid}

/-- The id of a name comes from a topic of the log. -/
theorem mem_of_topicIdByName (h : index.Answers log) (hid : index.topicIdByName name = .ok id) :
    .topic name id ∈ log := by
  rw [h.topicIdByName] at hid
  rcases hlast : lastWith Prod.fst name (topics log) with _ | ⟨name', id'⟩ <;> rw [hlast] at hid
  · cases hid
  · cases hid
    obtain ⟨mem, rfl⟩ := mem_of_lastWith hlast
    exact mem_topics_iff.mp mem

/-- The name of a topic of the log has an id. -/
theorem exists_topicIdByName (h : index.Answers log) (mem : .topic name id ∈ log) :
    ∃ id', index.topicIdByName name = .ok id' := by
  obtain ⟨⟨_, id'⟩, hlast⟩ : ∃ last, lastWith Prod.fst name (topics log) = some last :=
    exists_lastWith (mem_topics_iff.mpr mem) rfl
  exact ⟨id', by rw [h.topicIdByName, hlast]⟩

/-- The name of an id comes from a topic of the log. -/
theorem mem_of_topicNameById (h : index.Answers log)
    (hname : index.topicNameById id = .ok name) : .topic name id ∈ log := by
  rw [h.topicNameById] at hname
  rcases hlast : lastWith Prod.snd id (topics log) with _ | ⟨name', id'⟩ <;> rw [hlast] at hname
  · cases hname
  · cases hname
    obtain ⟨mem, rfl⟩ := mem_of_lastWith hlast
    exact mem_topics_iff.mp mem

/-- The id of a topic of the log has a name. -/
theorem exists_topicNameById (h : index.Answers log) (mem : .topic name id ∈ log) :
    ∃ name', index.topicNameById id = .ok name' := by
  obtain ⟨⟨name', _⟩, hlast⟩ : ∃ last, lastWith Prod.snd id (topics log) = some last :=
    exists_lastWith (mem_topics_iff.mpr mem) rfl
  exact ⟨name', by rw [h.topicNameById, hlast]⟩

/-- The partitions of an id are those of the log, none if there are none. -/
theorem toOption_partitionsByTopic (h : index.Answers log) (id : Uuid) :
    (index.partitionsByTopic id).toOption.getD [] = partitionsOf id log := by
  rw [h.partitionsByTopic]
  rcases partitionsOf id log with _ | ⟨number, numbers⟩ <;> rfl

end Answers

end TopicIndex

/-! ## The two answers -/

/-- An entry of a description stands for the requested topic of this log. -/
structure DescribedFrom (log : List MetadataRecord) (asked : TopicRequest)
    (entry : ResponseTopic) : Prop where
  /-- the name is repeated -/
  name : entry.name = asked.name
  /-- there is no error just if a topic of the log has the name -/
  found_iff : entry.errorCode = 0 ↔ ∃ id, .topic asked.name id ∈ log
  /-- of a topic that is not in the log only that is told -/
  unknown : entry.errorCode ≠ 0 →
    entry.errorCode = 3 ∧ entry.topicId = Uuid.nil ∧ entry.partitions = []

/-- The answer says that no topic has the id. -/
def FetchableTopicResponse.Refused (answered : FetchableTopicResponse) : Prop :=
  ∃ data ∈ answered.partitions, data.errorCode = 100

namespace Broker

/-- The answers about topics go together, and they go by this log. -/
structure Agree (broker : Broker) (disk : Disk) (log : List MetadataRecord) : Prop where
  /-- a description has an entry for each requested name, in the order of the request -/
  described (request : DescribeTopicPartitionsRequest) :
    List.Forall₂ (DescribedFrom log) request.topics (broker.describe request).topics
  /-- an id that a description tells can be fetched -/
  fetchable (request : DescribeTopicPartitionsRequest) (fetch : FetchRequest) :
    ∀ entry ∈ (broker.describe request).topics, entry.errorCode = 0 →
      List.Forall₂ (fun asked answered => asked.topicId = entry.topicId → ¬ answered.Refused)
        fetch.topics (broker.fetch disk fetch).responses
  /-- an id that can be fetched is that of a topic whose name is described -/
  describable (fetch : FetchRequest) :
    List.Forall₂
      (fun asked answered => ¬ answered.Refused → ∃ name, .topic name asked.topicId ∈ log ∧
        ∀ request, ∀ entry ∈ (broker.describe request).topics, entry.name = name →
          entry.errorCode = 0)
      fetch.topics (broker.fetch disk fetch).responses
  /-- the partitions in a description are those of the id, in the order of the log -/
  partitions (request : DescribeTopicPartitionsRequest) :
    ∀ entry ∈ (broker.describe request).topics, entry.errorCode = 0 →
      entry.partitions.map ResponsePartition.partitionIndex =
        TopicIndex.partitionsOf entry.topicId log
  /-- if the id has one name only, a fetch returns the batches of the described topic -/
  records (request : DescribeTopicPartitionsRequest) (fetch : FetchRequest) :
    ∀ entry ∈ (broker.describe request).topics, entry.errorCode = 0 →
      TopicIndex.OneName log entry.topicId →
      List.Forall₂
        (fun asked answered => asked.topicId = entry.topicId →
          List.Forall₂
            (fun p data => data.partitionIndex = p.partition ∧ data.errorCode = 0 ∧
              data.records =
                (broker.config.logs.readBatches disk entry.name p.partition).getD [])
            asked.partitions answered.partitions)
        fetch.topics (broker.fetch disk fetch).responses

section

variable {broker : Broker} {disk : Disk} {log : List MetadataRecord}

/-- A topic is described as found or as unknown, as the index has it. -/
theorem describeTopic_cases (broker : Broker) (name : String) :
    (∃ id, broker.index.topicIdByName name = .ok id ∧
      broker.describeTopic name =
        .found name id ((broker.index.partitionsByTopic id).toOption.getD [])) ∨
    ∃ e, broker.index.topicIdByName name = .error e ∧
      broker.describeTopic name = .unknown name := by
  rcases h : broker.index.topicIdByName name with e | id
  · exact .inr ⟨e, rfl, by rw [describeTopic, h]⟩
  · exact .inl ⟨id, rfl, by rw [describeTopic, h]⟩

/-- A topic is fetched by the name that the index has for its id, or it is refused. -/
theorem fetchTopic_cases (broker : Broker) (disk : Disk) (asked : FetchTopic) :
    (∃ name, broker.index.topicNameById asked.topicId = .ok name ∧
      (broker.fetchTopic disk asked).partitions =
        asked.partitions.map fun p => broker.fetchPartition disk name p.partition) ∨
    ∃ e, broker.index.topicNameById asked.topicId = .error e ∧
      (broker.fetchTopic disk asked).partitions = [.error 0 .unknownTopicId] := by
  rcases h : broker.index.topicNameById asked.topicId with e | name
  · exact .inr ⟨e, rfl, by rw [fetchTopic, h]⟩
  · exact .inl ⟨name, rfl, by rw [fetchTopic, h]⟩

/-- A property of each answer to a fetch, by the topic that it answers. -/
theorem forall₂_responses {R : FetchTopic → FetchableTopicResponse → Prop}
    (h : ∀ asked, R asked (broker.fetchTopic disk asked)) (fetch : FetchRequest) :
    List.Forall₂ R fetch.topics (broker.fetch disk fetch).responses := by
  rw [Broker.fetch, List.forall₂_map_right_iff, List.forall₂_same]
  intro asked _
  exact h asked

/-- An entry without an error tells what the index has for its name. -/
theorem entry_of_found (h : broker.index.Answers log) {request : DescribeTopicPartitionsRequest}
    {entry : ResponseTopic} (mem : entry ∈ (broker.describe request).topics)
    (found : entry.errorCode = 0) :
    .topic entry.name entry.topicId ∈ log ∧
      entry.partitions.map ResponsePartition.partitionIndex =
        TopicIndex.partitionsOf entry.topicId log := by
  obtain ⟨asked, _, rfl⟩ := List.mem_map.mp mem
  rcases broker.describeTopic_cases asked.name with ⟨id, hid, hentry⟩ | ⟨_, _, hentry⟩ <;>
    rw [hentry] at found ⊢
  · refine ⟨h.mem_of_topicIdByName hid, ?_⟩
    rw [ResponseTopic.found, h.toOption_partitionsByTopic, List.map_map]
    exact List.map_id _
  · exact absurd found (show (3 : Int16) ≠ 0 by decide)

theorem describedFrom_describeTopic (h : broker.index.Answers log) (asked : TopicRequest) :
    DescribedFrom log asked (broker.describeTopic asked.name) := by
  rcases broker.describeTopic_cases asked.name with ⟨id, hid, hentry⟩ | ⟨e, hid, hentry⟩ <;>
    rw [hentry]
  · exact {
      name := rfl
      found_iff := ⟨fun _ => ⟨id, h.mem_of_topicIdByName hid⟩, fun _ => rfl⟩
      unknown := fun failed => absurd rfl failed }
  · refine { name := rfl, found_iff := ⟨?_, ?_⟩, unknown := fun _ => ⟨rfl, rfl, rfl⟩ }
    · intro none
      exact absurd none (show (3 : Int16) ≠ 0 by decide)
    · rintro ⟨id, mem⟩
      obtain ⟨id', found⟩ := h.exists_topicIdByName mem
      rw [hid] at found
      cases found

/-- A topic of the log is not refused. -/
theorem not_refused_of_mem (h : broker.index.Answers log) {name : String} {asked : FetchTopic}
    (mem : .topic name asked.topicId ∈ log) : ¬ (broker.fetchTopic disk asked).Refused := by
  rintro ⟨data, hdata, refused⟩
  rcases broker.fetchTopic_cases disk asked with ⟨_, _, answered⟩ | ⟨e, unknown, _⟩
  · rw [answered] at hdata
    obtain ⟨p, _, rfl⟩ := List.mem_map.mp hdata
    exact absurd refused (show (0 : Int16) ≠ 100 by decide)
  · obtain ⟨name', known⟩ := h.exists_topicNameById mem
    rw [unknown] at known
    cases known

/-- A topic that is not refused is fetched by its name in the log. -/
theorem mem_of_not_refused (h : broker.index.Answers log) {asked : FetchTopic}
    (accepted : ¬ (broker.fetchTopic disk asked).Refused) :
    ∃ name, .topic name asked.topicId ∈ log := by
  rcases broker.fetchTopic_cases disk asked with ⟨name, known, _⟩ | ⟨_, _, answered⟩
  · exact ⟨name, h.mem_of_topicNameById known⟩
  · refine absurd ⟨.error 0 .unknownTopicId, ?_, rfl⟩ accepted
    rw [answered]
    exact List.mem_singleton_self _

/-- A topic whose id has one name is fetched from the logs of this name. -/
theorem records_of_oneName (h : broker.index.Answers log) {name : String} {asked : FetchTopic}
    (mem : .topic name asked.topicId ∈ log) (one : TopicIndex.OneName log asked.topicId) :
    List.Forall₂
      (fun p data => data.partitionIndex = p.partition ∧ data.errorCode = 0 ∧
        data.records = (broker.config.logs.readBatches disk name p.partition).getD [])
      asked.partitions (broker.fetchTopic disk asked).partitions := by
  rcases broker.fetchTopic_cases disk asked with ⟨name', known, answered⟩ | ⟨_, unknown, _⟩
  · obtain rfl := one _ _ (h.mem_of_topicNameById known) mem
    rw [answered, List.forall₂_map_right_iff, List.forall₂_same]
    intro p _
    exact ⟨rfl, rfl, rfl⟩
  · obtain ⟨name', known⟩ := h.exists_topicNameById mem
    rw [unknown] at known
    cases known

/-- An index that answers from a log makes a broker that does. -/
theorem agree_of_answers (h : broker.index.Answers log) (disk : Disk) :
    broker.Agree disk log where
  described request := by
    rw [describe, List.forall₂_map_right_iff, List.forall₂_same]
    intro asked _
    exact describedFrom_describeTopic h asked
  fetchable request fetch := by
    intro entry hentry found
    have mem := (entry_of_found h hentry found).1
    refine forall₂_responses ?_ fetch
    intro asked same
    rw [← same] at mem
    exact not_refused_of_mem h mem
  describable fetch := by
    refine forall₂_responses ?_ fetch
    intro asked accepted
    obtain ⟨name, mem⟩ := mem_of_not_refused h accepted
    refine ⟨name, mem, ?_⟩
    intro request entry hentry same
    obtain ⟨asked', _, rfl⟩ := List.mem_map.mp hentry
    have described := describedFrom_describeTopic h asked'
    refine described.found_iff.mpr ⟨asked.topicId, ?_⟩
    rwa [← described.name, same]
  partitions request := by
    intro entry hentry found
    exact (entry_of_found h hentry found).2
  records request fetch := by
    intro entry hentry found one
    have mem := (entry_of_found h hentry found).1
    refine forall₂_responses ?_ fetch
    intro asked same
    rw [← same] at mem one
    exact records_of_oneName h mem one

end

/-- **Describing and fetching agree.** Let the index be that of a metadata log. A description
has one entry for each requested name; it has no error just if the log has a topic of the name,
and otherwise tells nothing but that. An id that is told so can be fetched, and an id that can
be fetched belongs to a name that is described without an error. The partitions that are told
are those of the id in the log; and as long as the log has one name only for the id, a fetch by
it returns the batches of the partitions of the described topic. -/
theorem agree_ofBatches (config : BrokerConfig) (batches : List RecordBatch) (disk : Disk) :
    Broker.Agree { config, index := TopicIndex.ofBatches batches } disk
      (TopicIndex.metadataRecords batches) :=
  agree_of_answers (TopicIndex.describes_ofBatches batches).answers disk

/-- The broker of a log in which a topic gets another id. -/
def ofRenumbered : Broker := { index := TopicIndex.ofBatches TopicIndex.renumbered }

/-- A disk where a partition of the topic has a log of one batch. -/
def renumberedDisk : Disk :=
  Disk.empty.write "/tmp/kraft-combined-logs/a-3/00000000000000000000.log"
    (RecordBatch.layout.write (.ofRecords 0 []))

/-- A fetch of that partition by the topic's new id. -/
def fetchRenumbered : FetchRequest :=
  { topics := [{ topicId := ⟨9⟩, partitions := [{ partition := 3 }] }] }

theorem metadataRecords_renumbered : TopicIndex.metadataRecords TopicIndex.renumbered =
    [.topic "a" ⟨7⟩, .partition 0 ⟨7⟩, .topic "a" ⟨9⟩, .partition 0 ⟨7⟩] := by decide +kernel

theorem describe_renumbered :
    (ofRenumbered.describe (.ofNames ["a", "b"])).topics =
      [.found "a" ⟨9⟩ [], .unknown "b"] := by
  have answers : ofRenumbered.index.Answers _ :=
    (TopicIndex.describes_ofBatches TopicIndex.renumbered).answers
  rw [metadataRecords_renumbered] at answers
  have found : ofRenumbered.index.topicIdByName "a" = .ok ⟨9⟩ := answers.topicIdByName "a"
  have missing : ofRenumbered.index.topicIdByName "b" = .error (.topicName "b") :=
    answers.topicIdByName "b"
  have none : (ofRenumbered.index.partitionsByTopic ⟨9⟩).toOption.getD [] = [] :=
    answers.toOption_partitionsByTopic ⟨9⟩
  show [ofRenumbered.describeTopic "a", ofRenumbered.describeTopic "b"] = _
  rw [describeTopic, describeTopic, found, missing]
  exact congrArg (fun ids => [ResponseTopic.found "a" ⟨9⟩ ids, .unknown "b"]) none

/-- The topic is described with its new id, for which the log has no partitions; and as this id
has no other name, the batches of the topic are fetched by it. -/
theorem agree_ofBatches_renumbered :
    (ofRenumbered.describe (.ofNames ["a", "b"])).topics = [.found "a" ⟨9⟩ [], .unknown "b"] ∧
      (ofRenumbered.fetch renumberedDisk fetchRenumbered).responses.map
        (fun answered => answered.partitions.map PartitionData.records) =
          [[[.ofRecords 0 []]]] := by
  have agree : ofRenumbered.Agree renumberedDisk _ :=
    agree_ofBatches {} TopicIndex.renumbered renumberedDisk
  rw [metadataRecords_renumbered] at agree
  have mem : ResponseTopic.found "a" ⟨9⟩ [] ∈
      (ofRenumbered.describe (.ofNames ["a", "b"])).topics := by
    rw [describe_renumbered]
    exact List.mem_cons_self
  have one : TopicIndex.OneName
      [.topic "a" ⟨7⟩, .partition 0 ⟨7⟩, .topic "a" ⟨9⟩, .partition 0 ⟨7⟩] ⟨9⟩ := by
    intro name name' h h'
    simp_all
  have scanned : RecordBatch.readAll (RecordBatch.layout.write (.ofRecords 0 [])) =
      [.ofRecords 0 []] := by decide +kernel
  have directory : ofRenumbered.config.logs.segmentPath "a" 3 =
      "/tmp/kraft-combined-logs/a-3/00000000000000000000.log" :=
    (LogDirectory.segmentPath_eq_directory (by decide +kernel) _ 3).trans (by decide +kernel)
  have batches : (ofRenumbered.config.logs.readBatches renumberedDisk "a" 3).getD [] =
      [.ofRecords 0 []] := by
    rw [LogDirectory.readBatches, renumberedDisk, Disk.read_write, if_pos directory.symm,
      Option.map_some, scanned, Option.getD_some]
  obtain ⟨fetched, _⟩ := List.forall₂_cons.mp (agree.records _ fetchRenumbered _ mem rfl one)
  obtain ⟨data, _, ⟨_, _, records⟩, last, answered⟩ :=
    List.forall₂_cons_left_iff.mp (fetched rfl)
  obtain rfl := List.forall₂_nil_left_iff.mp last
  refine ⟨describe_renumbered, ?_⟩
  show [List.map PartitionData.records _] = _
  rw [answered, List.map_singleton, records]
  exact congrArg (fun found => [[found]]) batches

end Broker

end LogBroker
