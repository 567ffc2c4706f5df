import LogBroker.Bytes

/-!
# Why a reading fails

A reader gives up for one of four causes: the bytes ran out, a variable-length number
is too long, a byte that has only one admissible value has another, or a request asks
for an api that nobody serves. The single-valued bytes are named by `Marker`, so that
one cause covers all four of them.
-/

namespace LogBroker.Wire

/-- The bytes of the formats that admit one value only. -/
inductive Marker where
  /-- the count of tagged fields behind a structure; none are understood -/
  | tagged
  /-- the length of a record's key; only the null key is understood -/
  | key
  /-- the count of a record's headers; none are understood -/
  | headers
  /-- the pagination cursor; only the null cursor is understood -/
  | cursor
deriving DecidableEq, Repr

namespace Marker

/-- The one value each marker may have: an empty count, the zigzag form of the key
length `-1`, an empty count, and the null cursor. -/
def byte : Marker → UInt8
  | tagged => 0x00
  | key => 0x01
  | headers => 0x00
  | cursor => 0xff

/-- What an error text calls the marker. -/
def description : Marker → String
  | tagged => "tagged fields marker"
  | key => "key marker"
  | headers => "record header marker"
  | cursor => "cursor byte"

end Marker

/-- The causes for which a reader gives up. -/
inductive DecodeError where
  /-- `needed` bytes had to be there, but only `available` were left -/
  | underflow (needed available : Nat)
  /-- a variable-length number has too many groups or too large a value -/
  | varintTooLong
  /-- where the marker's byte had to be, `found` was -/
  | unexpected (marker : Marker) (found : UInt8)
  /-- no api has this key -/
  | unsupportedRequest (apiKey : Int16)
deriving DecidableEq, Repr

/-- The text of a cause. -/
def DecodeError.message : DecodeError → String
  | underflow needed available =>
    s!"buffer underflow: needed {needed} bytes, {available} available"
  | varintTooLong => "varint is longer than its maximum encoded width"
  | unexpected marker found =>
    "unexpected " ++ marker.description ++ " 0x" ++ Bytes.toHex [found]
  | unsupportedRequest apiKey => "unsupported request type " ++ toString apiKey.toInt

end LogBroker.Wire
