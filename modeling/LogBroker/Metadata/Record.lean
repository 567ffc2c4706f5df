import LogBroker.Wire.Layout

/-!
# Metadata records

The cluster describes itself in a log of its own, and the values of that log's records
are metadata records: an envelope of three bytes (version of the frame, type, version of
the schema), and fields that depend on the type. Topics and partitions are understood;
of the fields behind an envelope of any other type nothing is read.

The versions are not looked at. The versions that are written are those of the fields
that are written with them.
-/

namespace LogBroker

open Wire Layout

/-- The value of a record in the cluster's metadata log. -/
inductive MetadataRecord where
  /-- there is a topic of this name and id -/
  | topic (name : String) (id : Uuid)
  /-- the topic with this id has a partition of this number -/
  | partition (index : Int32) (topicId : Uuid)
  /-- something else -/
  | other (type : Int8)
deriving DecidableEq, Repr

namespace MetadataRecord

/-- The type in the envelope of a topic. -/
def topicType : Int8 := 2

/-- The type in the envelope of a partition. -/
def partitionType : Int8 := 3

/-- Version of the frame, type, version of the schema. -/
def envelopeLayout : Layout (Int8 × Int8 × Int8) := int8.andThen <| int8.andThen int8

/-- The fields of a topic: name, id. -/
def topicLayout : Layout (String × Uuid) := compactString.andThen uuid

/-- The fields of a partition: number, id of the topic. -/
def partitionLayout : Layout (Int32 × Uuid) := int32.andThen uuid

/-- A metadata record off the front of the input. -/
def read : Reader MetadataRecord := do
  let (_, type, _) ← envelopeLayout.read
  if type = topicType then
    let (name, id) ← topicLayout.read
    pure (topic name id)
  else if type = partitionType then
    let (index, topicId) ← partitionLayout.read
    pure (partition index topicId)
  else pure (other type)

/-- The bytes of a metadata record. -/
def write : MetadataRecord → Bytes
  | topic name id => envelopeLayout.write (1, topicType, 0) ++ topicLayout.write (name, id)
  | partition index topicId =>
    envelopeLayout.write (1, partitionType, 1) ++ partitionLayout.write (index, topicId)
  | other type => envelopeLayout.write (1, type, 0)

/-- The metadata record in a log record's value, if there is one. What follows it in the
value does not matter. -/
def ofValue? (value : Bytes) : Option MetadataRecord := (read value).1.toOption

end MetadataRecord

end LogBroker
