import LogBroker.Wire.Layout

/-!
# Records

A record is one entry of a partition's log. The log keeps its offset and its timestamp
relative to those of the batch around it. Only records with a null key and without
headers are understood, so neither is a field: on the wire their two markers stand where
a key and headers would be.

A record carries the length of its own body in front. Reading does not use it, and a
record built elsewhere keeps whatever length it was given; `Record.ofValue` fills in the
length that is right.
-/

namespace LogBroker

open Wire Layout

/-- One entry of a partition's log. -/
structure Record where
  /-- the length of the body, as stored -/
  length : Int32
  /-- flags; none are understood -/
  attributes : Int8
  /-- milliseconds after the batch's base timestamp -/
  timestampDelta : Int64
  /-- offset after the batch's base offset -/
  offsetDelta : Int32
  /-- the entry itself, or null -/
  value : Option Bytes
deriving DecidableEq, Repr

namespace Record

/-- What follows the length: attributes, the two deltas, a null key, the value, and no
headers. -/
def bodyLayout : Layout (Int8 × Int64 × Int32 × Option Bytes) :=
  int8.andThen <| varlong.andThen <|
    (varint.closedBy .key).andThen <| nullableBytes.closedBy .headers

/-- A record on the wire. -/
def layout : Layout Record :=
  packed (varint.andThen bodyLayout) {
    pack := fun (length, attributes, timestampDelta, offsetDelta, value) =>
      { length, attributes, timestampDelta, offsetDelta, value }
    fields := fun r => (r.length, r.attributes, r.timestampDelta, r.offsetDelta, r.value) }

/-- The record at an offset that holds a value, with the length of its body. -/
def ofValue (offsetDelta : Int32) (value : Bytes) : Record where
  length := Int32.ofNat (bodyLayout.size (0, 0, offsetDelta, some value))
  attributes := 0
  timestampDelta := 0
  offsetDelta := offsetDelta
  value := some value

end Record

end LogBroker
