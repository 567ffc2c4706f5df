import LogBroker.Broker.Segments
import LogBroker.Proofs.Broker.AnswerSize
import LogBroker.Proofs.Log.Naming

/-!
# Partitions that do not disturb each other

What a fetch returns of a partition comes from one file. Whatever is done to the logs of
other partitions (`LogChange`) leaves that file as it is, as long as theirs are other files,
and two partitions have one file only if they are twins. Twins do disturb each other: what is
written for the one is returned for the other.

Main statement: `Broker.fetch_isolated`.
-/

namespace LogBroker

/-! ## Changes of logs -/

/-- Something that is done to the log of a partition from outside. -/
structure LogChange where
  /-- name of the topic -/
  topic : String
  /-- number of the partition -/
  partition : Int32
  /-- what the log is then, if it is not removed -/
  content : Option Bytes

theorem Disk.read_empty (path : String) : Disk.empty.read path = none :=
  Std.HashMap.getElem?_empty

namespace LogDirectory

/-- The disk after a change of a log. -/
def change (logs : LogDirectory) (disk : Disk) (c : LogChange) : Disk :=
  match c.content with
  | some content => disk.write (logs.segmentPath c.topic c.partition) content
  | none => disk.remove (logs.segmentPath c.topic c.partition)

variable {logs : LogDirectory} {disk : Disk} {path : String}

theorem read_change (c : LogChange) :
    (logs.change disk c).read path =
      if logs.segmentPath c.topic c.partition = path then c.content else disk.read path := by
  rcases c with ⟨topic, n, _ | content⟩
  · exact Disk.read_remove _ _ _
  · exact Disk.read_write _ _ _ _

/-- Changes of other files leave a file as it is. -/
theorem read_foldl_change {changes : List LogChange}
    (h : ∀ c ∈ changes, logs.segmentPath c.topic c.partition ≠ path) :
    (changes.foldl logs.change disk).read path = disk.read path := by
  induction changes generalizing disk with
  | nil => rfl
  | cons c changes ih =>
    obtain ⟨first, others⟩ := List.forall_mem_cons.mp h
    rw [List.foldl_cons, ih others, read_change, if_neg first]

end LogDirectory

/-! ## Places of a request -/

/-- The id of the topic and the number of the partition at a place of a request. -/
def FetchRequest.partition? (request : FetchRequest) (i j : Nat) : Option (Uuid × Int32) := do
  let topic ← request.topics[i]?
  let p ← topic.partitions[j]?
  return (topic.topicId, p.partition)

/-- What is returned at a place of a response. -/
def FetchResponse.partition? (response : FetchResponse) (i j : Nat) : Option PartitionData := do
  let topic ← response.responses[i]?
  topic.partitions[j]?

namespace Broker

variable {broker : Broker} {request : FetchRequest} {i j : Nat} {id : Uuid} {topic : String}
  {n : Int32}

/-- At the place of a partition that can be fetched stands the data of its log. -/
theorem partition?_fetch (asked : request.partition? i j = some (id, n))
    (known : broker.index.topicNameById id = .ok topic) (disk : Disk) :
    (broker.fetch disk request).partition? i j = some (broker.fetchPartition disk topic n) := by
  obtain ⟨t, ht, asked⟩ := Option.bind_eq_some_iff.mp asked
  obtain ⟨p, hp, asked⟩ := Option.bind_eq_some_iff.mp asked
  cases asked
  rw [FetchResponse.partition?, fetch, List.getElem?_map, ht, Option.map_some, fetchTopic, known]
  show (t.partitions.map _)[j]? = _
  rw [List.getElem?_map, hp, Option.map_some]

/-- What is returned does not depend on changes of other files. -/
theorem partition?_fetch_foldl_change (asked : request.partition? i j = some (id, n))
    (known : broker.index.topicNameById id = .ok topic) (disk : Disk) {changes : List LogChange}
    (others : ∀ c ∈ changes, broker.config.logs.segmentPath c.topic c.partition ≠
      broker.config.logs.segmentPath topic n) :
    (broker.fetch (changes.foldl broker.config.logs.change disk) request).partition? i j =
      (broker.fetch disk request).partition? i j := by
  have same : (changes.foldl broker.config.logs.change disk).read _ = disk.read _ :=
    LogDirectory.read_foldl_change others
  rw [partition?_fetch asked known, partition?_fetch asked known, broker.fetchPartition_congr same]

/-- What is in the file is returned. -/
theorem partition?_fetch_write (asked : request.partition? i j = some (id, n))
    (known : broker.index.topicNameById id = .ok topic) (disk : Disk) (content : Bytes) :
    (broker.fetch (disk.write (broker.config.logs.segmentPath topic n) content)
        request).partition? i j =
      some (.ofBatches n (RecordBatch.readAll content)) := by
  rw [partition?_fetch asked known, fetchPartition, LogDirectory.readBatches, Disk.read_write,
    if_pos rfl, Option.map_some, Option.getD_some]

/-- **Partitions are isolated, unless they are twins.** Let a fetch ask for a partition of a
topic that the index knows. Another partition has its log in another file, and whatever is done
to the logs of such partitions, the fetch returns the same; of a twin the log is the same file,
and what is written there is returned. -/
theorem fetch_isolated (asked : request.partition? i j = some (id, n))
    (known : broker.index.topicNameById id = .ok topic) (named : Path.Component topic) :
    let logs := broker.config.logs
    let returned := fun disk => (broker.fetch disk request).partition? i j
    (∀ other m, Path.Component other → (other, m) ≠ (topic, n) →
      (logs.segmentPath other m = logs.segmentPath topic n ↔
        LogDirectory.Twins other m topic n)) ∧
    (∀ (disk : Disk) (changes : List LogChange),
      (∀ c ∈ changes, Path.Component c.topic ∧ (c.topic, c.partition) ≠ (topic, n) ∧
        ¬ LogDirectory.Twins c.topic c.partition topic n) →
      returned (changes.foldl logs.change disk) = returned disk) ∧
    ∀ other m, Path.Component other → LogDirectory.Twins other m topic n →
      ∀ (disk : Disk) (content : Bytes),
        returned (disk.write (logs.segmentPath other m) content) =
          some (.ofBatches n (RecordBatch.readAll content)) := by
  intro logs returned
  refine ⟨?_, ?_, ?_⟩
  · intro other m named' distinct
    exact LogDirectory.segmentPath_eq_iff_twins named' named logs distinct
  · intro disk changes others
    refine partition?_fetch_foldl_change asked known disk ?_
    intro c hc one
    obtain ⟨named', distinct, single⟩ := others c hc
    exact single ((LogDirectory.segmentPath_eq_iff_twins named' named logs distinct).mp one)
  · intro other m named' twins disk content
    rw [(LogDirectory.segmentPath_eq_iff named' named logs).mpr (.inr twins)]
    exact partition?_fetch_write asked known disk content

/-- A fetch of a partition with a negative number. -/
def fetchNegative : FetchRequest :=
  { topics := [{ topicId := someTopic, partitions := [{ partition := -1 }] }] }

/-- Changes of logs that are close by. -/
def closeBy : List LogChange :=
  [{ topic := "a-", partition := 2, content := some [0] },
    { topic := "a", partition := 1, content := none },
    { topic := "a-", partition := -1, content := none },
    { topic := "a-1", partition := -1, content := some [] }]

/-- They leave the partition -1 alone; what is written to its twin is returned. -/
theorem fetch_isolated_closeBy :
    let logs := ofOneTopic.config.logs
    let returned := fun disk => (ofOneTopic.fetch disk fetchNegative).partition? 0 0
    logs.segmentPath "a-" 2 ≠ logs.segmentPath "a" (-1) ∧
    returned (closeBy.foldl logs.change oneLog) = returned oneLog ∧
    returned (oneLog.write (logs.segmentPath "a-" 1) (RecordBatch.layout.write storedBatch)) =
      some (.ofBatches (-1) [storedBatch]) := by
  intro logs returned
  have asked : fetchNegative.partition? 0 0 = some (someTopic, -1) := rfl
  obtain ⟨apart, isolated, twins⟩ :=
    fetch_isolated asked topicNameById_someTopic (by decide +kernel)
  have scanned : RecordBatch.readAll (RecordBatch.layout.write storedBatch) = [storedBatch] := by
    decide +kernel
  have written := twins "a-" 1 (by decide +kernel) (by decide +kernel) oneLog
    (RecordBatch.layout.write storedBatch)
  rw [scanned] at written
  refine ⟨?_, isolated oneLog closeBy (by decide +kernel), written⟩
  rw [Ne, apart "a-" 2 (by decide +kernel) (by decide +kernel)]
  decide +kernel

/-- Batches of a topic whose name ends with a dash are not isolated from the topic without it:
its partition -1 has none until the other's partition 1 gets some. -/
theorem not_isolated_trailingDash :
    let logs := ofOneTopic.config.logs
    let returned := fun disk => (ofOneTopic.fetch disk fetchNegative).partition? 0 0
    (ofOneTopic.index.topicNameById someTopic = .ok "a" ∧
      fetchNegative.partition? 0 0 = some (someTopic, -1)) ∧
    (Path.Component "a" ∧ Path.Component "a-" ∧ ("a-", (1 : Int32)) ≠ ("a", -1)) ∧
    logs.segmentPath "a-" 1 = logs.segmentPath "a" (-1) ∧
    returned (Disk.empty.write (logs.segmentPath "a-" 1) (RecordBatch.layout.write storedBatch)) ≠
      returned Disk.empty := by
  intro logs returned
  have one : logs.segmentPath "a-" 1 = logs.segmentPath "a" (-1) := by decide +kernel
  have asked : fetchNegative.partition? 0 0 = some (someTopic, -1) := rfl
  have scanned : RecordBatch.readAll (RecordBatch.layout.write storedBatch) = [storedBatch] := by
    decide +kernel
  have before : ofOneTopic.fetchPartition Disk.empty "a" (-1) = .ofBatches (-1) [] := by
    rw [fetchPartition, LogDirectory.readBatches, Disk.read_empty]
    rfl
  have after : ofOneTopic.fetchPartition (Disk.empty.write (logs.segmentPath "a-" 1)
      (RecordBatch.layout.write storedBatch)) "a" (-1) = .ofBatches (-1) [storedBatch] := by
    rw [fetchPartition, LogDirectory.readBatches, ← one, Disk.read_write, if_pos rfl,
      Option.map_some, scanned]
    rfl
  refine ⟨⟨topicNameById_someTopic, asked⟩, by decide +kernel, one, ?_⟩
  show FetchResponse.partition? _ 0 0 ≠ FetchResponse.partition? _ 0 0
  rw [partition?_fetch asked topicNameById_someTopic,
    partition?_fetch asked topicNameById_someTopic, before, after]
  decide +kernel

end Broker

end LogBroker
