import LogBroker.Metadata.Index
import Mathlib.Data.Finset.Card
import Mathlib.Data.Finset.Dedup

/-!
# What a replay knows

The index is built by going through the metadata log record by record. Here is what it
answers in terms of the log as a whole: the last topic of a name, the last topic of an id,
all partitions of an id, and how many names there are (`TopicIndex.Answers`).

`TopicIndex.Describes` says the same of the tables. It holds of the empty index, a record
preserves it (`Describes.apply`), and so it holds after a replay (`Describes.foldl`).
-/

namespace LogBroker.TopicIndex

/-! ## What a log says -/

/-- The topics of a log in order, each with its name and its id. -/
def topics (log : List MetadataRecord) : List (String × Uuid) :=
  log.filterMap fun
    | .topic name id => some (name, id)
    | .partition _ _ | .other _ => none

/-- The partitions of the topic with this id in order, wherever in the log they are. -/
def partitionsOf (id : Uuid) (log : List MetadataRecord) : List Int32 :=
  log.filterMap fun
    | .partition number topicId => if topicId = id then some number else none
    | .topic _ _ | .other _ => none

/-- The last of the topics that have this key. The key of a topic is its name, or its id. -/
def lastWith {κ : Type} [DecidableEq κ] (key : String × Uuid → κ) (k : κ)
    (topics : List (String × Uuid)) : Option (String × Uuid) :=
  (topics.filter fun topic => key topic = k).getLast?

/-- The names of the topics, each of them once. -/
def namesIn (topics : List (String × Uuid)) : Finset String := (topics.map Prod.fst).toFinset

section

variable {κ : Type} [DecidableEq κ] (key : String × Uuid → κ) (k : κ)
  (ts : List (String × Uuid)) (topic : String × Uuid)

/-- The topics of more records come behind the others. -/
theorem topics_append (log more : List MetadataRecord) :
    topics (log ++ more) = topics log ++ topics more := List.filterMap_append

theorem topics_append_of_nil (log : List MetadataRecord) {more : List MetadataRecord}
    (h : topics more = []) : topics (log ++ more) = topics log := by
  rw [topics_append, h, List.append_nil]

/-- So do the partitions of each id. -/
theorem partitionsOf_append (id : Uuid) (log more : List MetadataRecord) :
    partitionsOf id (log ++ more) = partitionsOf id log ++ partitionsOf id more :=
  List.filterMap_append

theorem partitionsOf_append_of_nil {id : Uuid} (log : List MetadataRecord)
    {more : List MetadataRecord} (h : partitionsOf id more = []) :
    partitionsOf id (log ++ more) = partitionsOf id log := by
  rw [partitionsOf_append, h, List.append_nil]

/-- A topic takes the place of the last one with its key. -/
theorem lastWith_append :
    lastWith key k (ts ++ [topic]) = if key topic = k then some topic else lastWith key k ts := by
  by_cases h : key topic = k <;> simp [lastWith, h]

/-- A topic adds its name, if that is new. -/
theorem namesIn_append : namesIn (ts ++ [topic]) = insert topic.1 (namesIn ts) := by
  ext name
  simp [namesIn]

/-- A name has a last topic if it is among the names. -/
theorem isSome_lastWith_iff (name : String) :
    (lastWith Prod.fst name ts).isSome ↔ name ∈ namesIn ts := by
  simp [lastWith, namesIn]

end

/-! ## The tables -/

/-- The tables of the index say what the log says. -/
structure Describes (index : TopicIndex) (log : List MetadataRecord) : Prop where
  /-- a name has the id of its last topic -/
  ids (name : String) :
    index.ids[name]? = (lastWith Prod.fst name (topics log)).map Prod.snd
  /-- an id has the name of its last topic -/
  names (id : Uuid) :
    index.names[id]? = (lastWith Prod.snd id (topics log)).map Prod.fst
  /-- an id has all its partitions, if there is one -/
  partitions (id : Uuid) :
    index.partitions[id]? =
      if partitionsOf id log = [] then none else some (partitionsOf id log).toArray
  /-- there is one entry for each name -/
  size : index.ids.size = (namesIn (topics log)).card

/-- An empty index says nothing, and so does an empty log. -/
theorem describes_empty : empty.Describes [] where
  ids name := by simp [empty, topics, lastWith]
  names id := by simp [empty, topics, lastWith]
  partitions id := by simp [empty, partitionsOf]
  size := rfl

namespace Describes

variable {index : TopicIndex} {log : List MetadataRecord}

/-- A name is in the table if it is among the names of the log. -/
theorem mem_ids_iff (h : index.Describes log) (name : String) :
    name ∈ index.ids ↔ name ∈ namesIn (topics log) := by
  rw [← isSome_lastWith_iff, ← Option.isSome_map (f := Prod.snd), ← h.ids name,
    Std.HashMap.isSome_getElem?_iff_mem]

theorem getD_partitions (h : index.Describes log) (id : Uuid) :
    index.partitions.getD id #[] = (partitionsOf id log).toArray := by
  rw [Std.HashMap.getD_eq_getD_getElem?, h.partitions]
  split
  next none => rw [none]; rfl
  next => rfl

/-- A topic is the last one of its name and of its id. -/
theorem apply_topic (h : index.Describes log) (name : String) (id : Uuid) :
    (index.apply (.topic name id)).Describes (log ++ [.topic name id]) := by
  have grown : topics (log ++ [.topic name id]) = topics log ++ [(name, id)] := topics_append _ _
  refine { ids := ?_, names := ?_, partitions := ?_, size := ?_ }
  · intro other
    rw [grown, lastWith_append, apply, Std.HashMap.getElem?_insert, h.ids]
    by_cases same : name = other <;> simp [same]
  · intro other
    rw [grown, lastWith_append, apply, Std.HashMap.getElem?_insert, h.names]
    by_cases same : id = other <;> simp [same]
  · intro other
    rw [partitionsOf_append_of_nil log rfl]
    exact h.partitions other
  -- the table grows if the name is new to it, and then it is new to the log
  · rw [grown, namesIn_append, apply, Std.HashMap.size_insert, h.size]
    by_cases known : name ∈ namesIn (topics log)
    · rw [if_pos ((h.mem_ids_iff name).mpr known), Finset.insert_eq_of_mem known]
    · rw [if_neg (mt (h.mem_ids_iff name).mp known), Finset.card_insert_of_notMem known]

/-- A partition comes behind those of its id, and changes nothing else. -/
theorem apply_partition (h : index.Describes log) (number : Int32) (topicId : Uuid) :
    (index.apply (.partition number topicId)).Describes (log ++ [.partition number topicId]) := by
  have same : topics (log ++ [.partition number topicId]) = topics log :=
    topics_append_of_nil log rfl
  refine { ids := ?_, names := ?_, partitions := ?_, size := ?_ }
  · rw [same]
    exact h.ids
  · rw [same]
    exact h.names
  · intro id
    rw [partitionsOf_append, apply, Std.HashMap.getElem?_insert, h.getD_partitions]
    by_cases this : topicId = id
    · simp [this, partitionsOf]
    · simp [this, partitionsOf, h.partitions]
  · rw [same]
    exact h.size

/-- The tables know of a log its topics and the partitions of each id, and nothing else. -/
theorem congr (h : index.Describes log) {other : List MetadataRecord}
    (sameTopics : topics other = topics log)
    (samePartitions : ∀ id, partitionsOf id other = partitionsOf id log) :
    index.Describes other where
  ids name := by rw [sameTopics, h.ids]
  names id := by rw [sameTopics, h.names]
  partitions id := by rw [samePartitions, h.partitions]
  size := by rw [sameTopics, h.size]

/-- **A record keeps the tables true.** -/
theorem apply (h : index.Describes log) (record : MetadataRecord) :
    (index.apply record).Describes (log ++ [record]) := by
  cases record with
  | topic name id => exact h.apply_topic name id
  | partition number topicId => exact h.apply_partition number topicId
  | other type =>
    refine h.congr (topics_append_of_nil log rfl) ?_
    intro id
    exact partitionsOf_append_of_nil log rfl

/-- After a replay the tables say what they said before and what has been replayed. -/
theorem foldl (h : index.Describes log) (records : List MetadataRecord) :
    (records.foldl TopicIndex.apply index).Describes (log ++ records) := by
  induction records generalizing index log with
  | nil =>
    rw [List.append_nil]
    exact h
  | cons record records ih =>
    have later := ih (h.apply record)
    rw [List.append_assoc, List.singleton_append] at later
    exact later

end Describes

/-- The index of a log says what the log says. -/
theorem describes_ofBatches (batches : List RecordBatch) :
    (ofBatches batches).Describes (metadataRecords batches) :=
  describes_empty.foldl (metadataRecords batches)

/-! ## The lookups -/

/-- The index answers as one reads it off the log. -/
structure Answers (index : TopicIndex) (log : List MetadataRecord) : Prop where
  /-- a name has the id of the last topic with this name -/
  topicIdByName (name : String) :
    index.topicIdByName name =
      match lastWith Prod.fst name (topics log) with
      | some (_, id) => .ok id
      | none => .error (.topicName name)
  /-- an id has the name of the last topic with this id -/
  topicNameById (id : Uuid) :
    index.topicNameById id =
      match lastWith Prod.snd id (topics log) with
      | some (name, _) => .ok name
      | none => .error (.topicId id)
  /-- an id has all partitions with this id, whether it is a topic's or not -/
  partitionsByTopic (id : Uuid) :
    index.partitionsByTopic id =
      match partitionsOf id log with
      | [] => .error (.partitions id)
      | number :: numbers => .ok (number :: numbers)
  /-- each name counts once -/
  topicCount : index.topicCount = (namesIn (topics log)).card

/-- Two indexes of which every question has the same answer. -/
structure Alike (index other : TopicIndex) : Prop where
  /-- by name -/
  topicIdByName (name : String) : index.topicIdByName name = other.topicIdByName name
  /-- by id -/
  topicNameById (id : Uuid) : index.topicNameById id = other.topicNameById id
  /-- partitions by id -/
  partitionsByTopic (id : Uuid) : index.partitionsByTopic id = other.partitionsByTopic id
  /-- the number of names -/
  topicCount : index.topicCount = other.topicCount

section

variable {index other : TopicIndex} {log : List MetadataRecord}

/-- Looking up is looking into the tables. -/
theorem Describes.answers (h : index.Describes log) : index.Answers log where
  topicIdByName name := by
    rw [topicIdByName, h.ids]
    rcases lastWith Prod.fst name (topics log) with _ | ⟨_, id⟩ <;> rfl
  topicNameById id := by
    rw [topicNameById, h.names]
    rcases lastWith Prod.snd id (topics log) with _ | ⟨name, _⟩ <;> rfl
  partitionsByTopic id := by
    rw [partitionsByTopic, h.partitions]
    rcases partitionsOf id log with _ | ⟨number, numbers⟩ <;> rfl
  topicCount := h.size

/-- The log determines the answers. -/
theorem Answers.alike (h : index.Answers log) (h' : other.Answers log) : index.Alike other where
  topicIdByName name := by rw [h.topicIdByName, h'.topicIdByName]
  topicNameById id := by rw [h.topicNameById, h'.topicNameById]
  partitionsByTopic id := by rw [h.partitionsByTopic, h'.partitionsByTopic]
  topicCount := by rw [h.topicCount, h'.topicCount]

end

/-- **A replay reads the log.** What the index answers can be read off the metadata records
in the log. So two logs are alike for it if they have the same topics in the same order,
and for each id the same partitions in the same order: how topics stand to partitions does
not matter, nor what the batches are, nor what else is in them. -/
theorem ofBatches_answers (batches : List RecordBatch) :
    (ofBatches batches).Answers (metadataRecords batches) ∧
      ∀ others : List RecordBatch,
        topics (metadataRecords others) = topics (metadataRecords batches) →
        (∀ id, partitionsOf id (metadataRecords others) =
          partitionsOf id (metadataRecords batches)) →
        (ofBatches others).Alike (ofBatches batches) := by
  have described := describes_ofBatches batches
  refine ⟨described.answers, ?_⟩
  intro others sameTopics samePartitions
  have same := (describes_ofBatches others).congr sameTopics.symm fun id => (samePartitions id).symm
  exact same.answers.alike described.answers

/-- A topic that gets another id, and partitions of its first one. -/
def renumbered : List RecordBatch :=
  [.ofRecords 0 ([.topic "a" ⟨7⟩, .partition 0 ⟨7⟩, .topic "a" ⟨9⟩, .partition 0 ⟨7⟩].map
    fun record => Record.ofValue 0 (MetadataRecord.write record))]

/-- The same in two batches, with the partitions first and with records that do not count. -/
def rearranged : List RecordBatch :=
  [.ofRecords 5 [.ofValue 0 (MetadataRecord.write (.partition 0 ⟨7⟩)), .ofValue 1 [1, 2],
      { Record.ofValue 2 [] with value := none }, .ofValue 3 (MetadataRecord.write (.other 12)),
      .ofValue 4 (MetadataRecord.write (.partition 0 ⟨7⟩))],
    .ofRecords 0 ([.topic "a" ⟨7⟩, .topic "a" ⟨9⟩].map
      fun record => Record.ofValue 8 (MetadataRecord.write record))]

/-- The two logs are alike, and the answers are read off the first: the name has its second id, the
first id has kept the name and its partitions, and there is one name. -/
theorem ofBatches_answers_rearranged :
    (ofBatches rearranged).Alike (ofBatches renumbered) ∧
      (ofBatches renumbered).topicIdByName "a" = .ok ⟨9⟩ ∧
      (ofBatches renumbered).topicNameById ⟨7⟩ = .ok "a" ∧
      (ofBatches renumbered).partitionsByTopic ⟨7⟩ = .ok [0, 0] ∧
      (ofBatches renumbered).partitionsByTopic ⟨9⟩ = .error (.partitions ⟨9⟩) ∧
      (ofBatches renumbered).topicCount = 1 := by
  obtain ⟨answers, alike⟩ := ofBatches_answers renumbered
  have first : metadataRecords renumbered =
      [.topic "a" ⟨7⟩, .partition 0 ⟨7⟩, .topic "a" ⟨9⟩, .partition 0 ⟨7⟩] := by decide +kernel
  have second : metadataRecords rearranged =
      [.partition 0 ⟨7⟩, .other 12, .partition 0 ⟨7⟩, .topic "a" ⟨7⟩, .topic "a" ⟨9⟩] := by
    decide +kernel
  have alike := alike rearranged
  rw [first] at answers
  rw [first, second] at alike
  exact ⟨alike rfl fun _ => rfl, answers.topicIdByName "a", answers.topicNameById ⟨7⟩,
    answers.partitionsByTopic ⟨7⟩, answers.partitionsByTopic ⟨9⟩, answers.topicCount⟩

end LogBroker.TopicIndex
