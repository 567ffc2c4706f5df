import LogBroker.Broker.Answer

/-!
# The segments behind an answer

Of all that is on the disk an answer depends on few files: the segments of the partitions
that a fetch names, as far as the index knows their topics. `Broker.segments` lists them,
and `Broker.answer_congr` says that no other file matters.
-/

namespace LogBroker.Broker

/-- The paths of the segments of a requested topic. -/
def topicSegments (broker : Broker) (topic : FetchTopic) : List String :=
  match broker.index.topicNameById topic.topicId with
  | .error _ => []
  | .ok name => topic.partitions.map fun p => broker.config.logs.segmentPath name p.partition

/-- The paths of the segments on which the answer to a request depends. -/
def segments (broker : Broker) : Request → List String
  | .fetch request => request.topics.flatMap broker.topicSegments
  | .apiVersions _ | .describeTopicPartitions _ => []

/-- The path of the metadata log. -/
def metadataSegment (logs : LogDirectory) : String :=
  logs.segmentPath metadataTopic metadataPartition

/-- A partition is answered from its own segment. -/
theorem fetchPartition_congr (broker : Broker) {disk disk' : Disk} {topic : String}
    {partition : Int32}
    (h : disk.read (broker.config.logs.segmentPath topic partition) =
      disk'.read (broker.config.logs.segmentPath topic partition)) :
    broker.fetchPartition disk topic partition = broker.fetchPartition disk' topic partition := by
  rw [fetchPartition, fetchPartition, LogDirectory.readBatches, LogDirectory.readBatches, h]

/-- A topic is answered from the segments of its partitions. -/
theorem fetchTopic_congr (broker : Broker) {disk disk' : Disk} (topic : FetchTopic)
    (h : ∀ path ∈ broker.topicSegments topic, disk.read path = disk'.read path) :
    broker.fetchTopic disk topic = broker.fetchTopic disk' topic := by
  unfold fetchTopic
  unfold topicSegments at h
  split
  · rfl
  · next name hname =>
    simp only [hname, List.mem_map, forall_exists_index, and_imp,
      forall_apply_eq_imp_iff₂] at h
    congr 1
    exact List.map_congr_left fun p hp => broker.fetchPartition_congr (h p hp)

/-- **An answer depends on its segments only.** -/
theorem answer_congr (broker : Broker) {disk disk' : Disk} (m : RequestMessage)
    (h : ∀ path ∈ broker.segments m.request, disk.read path = disk'.read path) :
    broker.answer disk m = broker.answer disk' m := by
  rcases m with ⟨header, request⟩
  cases request with
  | apiVersions _ => rfl
  | describeTopicPartitions _ => rfl
  | fetch request =>
    have same : request.topics.map (broker.fetchTopic disk) =
        request.topics.map (broker.fetchTopic disk') :=
      List.map_congr_left fun topic htopic => broker.fetchTopic_congr topic
        fun path hpath => h path (List.mem_flatMap.mpr ⟨topic, htopic, hpath⟩)
    simp only [answer, respond, fetch, same]

end LogBroker.Broker
