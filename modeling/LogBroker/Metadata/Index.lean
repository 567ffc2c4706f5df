import LogBroker.Log.Batch
import LogBroker.Metadata.Record
import Std.Data.HashMap

/-!
# The topic index

Replaying the metadata log gives an index with three tables: the id of a name, the name
of an id, and the partitions of an id. Later topics replace earlier ones in the table of
names and in the table of ids alike, each by its own key. Partitions pile up in log
order, also those of an id that no topic has.

Looking something up fails with a `LookupError`, which says what was looked for.
-/

namespace LogBroker

/-! ## Lookups that fail -/

/-- What the index does not know. -/
inductive LookupError where
  /-- a topic of this name -/
  | topicName (name : String)
  /-- a topic with this id -/
  | topicId (id : Uuid)
  /-- partitions of a topic with this id -/
  | partitions (id : Uuid)
deriving DecidableEq, Repr

/-- The text of a failed lookup. -/
def LookupError.message : LookupError → String
  | topicName name => "Not found: topic name " ++ name
  | topicId id => "Not found: topic id " ++ id.toText
  | partitions id => "Not found: partitions of topic " ++ id.toText

/-! ## The index -/

/-- What the metadata log says about topics and partitions. -/
structure TopicIndex where
  /-- the id of each name -/
  ids : Std.HashMap String Uuid := ∅
  /-- the name of each id -/
  names : Std.HashMap Uuid String := ∅
  /-- the partitions of each id, in log order -/
  partitions : Std.HashMap Uuid (Array Int32) := ∅

namespace TopicIndex

/-- The index of an empty log. -/
def empty : TopicIndex := {}

/-- The index with one more metadata record. -/
def apply (index : TopicIndex) : MetadataRecord → TopicIndex
  | .topic name id =>
    { index with ids := index.ids.insert name id, names := index.names.insert id name }
  | .partition number topicId =>
    { index with
      partitions := index.partitions.insert topicId
        ((index.partitions.getD topicId #[]).push number) }
  | .other _ => index

/-! ## Metadata records in a log -/

/-- The metadata record in a record of the log, if there is one. -/
def metadata? (record : Record) : Option MetadataRecord :=
  record.value.bind MetadataRecord.ofValue?

/-- The metadata records of a log: those in the values of its records, in order. -/
def metadataRecords (batches : List RecordBatch) : List MetadataRecord :=
  batches.flatMap fun batch => batch.records.filterMap metadata?

section

variable {record : Record} {value rest : Bytes} {m : MetadataRecord}

/-- A null value counts for nothing. -/
theorem metadata?_of_null (h : record.value = none) : metadata? record = none := by
  rw [metadata?, h, Option.bind_none]

/-- A value that cannot be read counts for nothing. -/
theorem metadata?_of_unreadable {e : Wire.DecodeError} (h : record.value = some value)
    (he : MetadataRecord.read value = (.error e, rest)) : metadata? record = none := by
  rw [metadata?, h, Option.bind_some, MetadataRecord.ofValue?, he]
  rfl

/-- Any other value counts for what is read from its front. -/
theorem metadata?_of_readable (h : record.value = some value)
    (hm : MetadataRecord.read value = (.ok m, rest)) : metadata? record = some m := by
  rw [metadata?, h, Option.bind_some, MetadataRecord.ofValue?, hm]
  rfl

theorem metadata?_eq_some_iff : metadata? record = some m ↔
    ∃ value rest, record.value = some value ∧ MetadataRecord.read value = (.ok m, rest) := by
  constructor
  · intro h
    rcases hv : record.value with _ | value
    · rw [metadata?_of_null hv] at h
      cases h
    · rcases hr : MetadataRecord.read value with ⟨e | m', rest⟩
      · rw [metadata?_of_unreadable hv hr] at h
        cases h
      · rw [metadata?_of_readable hv hr] at h
        cases h
        exact ⟨value, rest, rfl, hr⟩
  · rintro ⟨value, rest, hv, hm⟩
    exact metadata?_of_readable hv hm

/-- The metadata records of a log are those that can be read from the values in its batches. -/
theorem mem_metadataRecords {batches : List RecordBatch} : m ∈ metadataRecords batches ↔
    ∃ batch ∈ batches, ∃ record ∈ batch.records, ∃ value rest,
      record.value = some value ∧ MetadataRecord.read value = (.ok m, rest) := by
  simp only [metadataRecords, List.mem_flatMap, List.mem_filterMap, metadata?_eq_some_iff]

end

/-- Batches that are added count behind the others. -/
theorem metadataRecords_append (batches more : List RecordBatch) :
    metadataRecords (batches ++ more) = metadataRecords batches ++ metadataRecords more :=
  List.flatMap_append

/-! ## Replaying -/

/-- The index of a log with these batches. -/
def ofBatches (batches : List RecordBatch) : TopicIndex :=
  (metadataRecords batches).foldl apply empty

/-! ## Looking up -/

/-- The id of the topic with this name. -/
def topicIdByName (index : TopicIndex) (name : String) : Except LookupError Uuid :=
  match index.ids[name]? with
  | some id => .ok id
  | none => .error (.topicName name)

/-- The name of the topic with this id. -/
def topicNameById (index : TopicIndex) (id : Uuid) : Except LookupError String :=
  match index.names[id]? with
  | some name => .ok name
  | none => .error (.topicId id)

/-- The partitions of the topic with this id, in log order and with repetitions. -/
def partitionsByTopic (index : TopicIndex) (id : Uuid) : Except LookupError (List Int32) :=
  match index.partitions[id]? with
  | some numbers => .ok numbers.toList
  | none => .error (.partitions id)

/-- How many names there are. -/
def topicCount (index : TopicIndex) : Nat := index.ids.size

end TopicIndex

end LogBroker
