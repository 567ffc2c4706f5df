import LogBroker.Wire.Word

/-!
# Frames

On a connection each message lies in a frame: four bytes that say how long the body is,
and the body.

* `Frame.encode` puts a body into a frame;
* `Frame.split` looks for the first frame of a buffer to which bytes are still being added.
  The length is signed there, so that a length with its high bit set is refused and not
  waited for;
* `Frame.splitOff` takes that frame off the buffer, and answers with what then is in it;
* `Frame.read` is for an input that is complete. The length is unsigned there: bytes that
  are not there are an underflow, however many they are.
-/

namespace LogBroker.Wire.Frame

/-- How many bytes say how long the body is. -/
def lengthSize : Nat := 4

/-- A frame around a body. Of a length above 31 bits only the low 32 bits are written. -/
def encode (body : Bytes) : Bytes := Word.write (Int32.ofNat body.length) ++ body

/-! ## Taking frames off a growing buffer -/

/-- What a buffer begins with. -/
inductive Split where
  /-- the first frame has not arrived in full -/
  | incomplete
  /-- the first frame has this length, which is negative or above the limit -/
  | tooLarge (declared : Int32)
  /-- the body of the first frame, and what follows the frame -/
  | body (frame rest : Bytes)
deriving DecidableEq, Repr

/-- The first frame of the buffer, if it is no longer than `limit`. The length alone
decides whether a frame is refused. -/
def split (limit : Nat) (buffer : Bytes) : Split :=
  match (Word.read : Reader Int32) buffer with
  | (.error _, _) => .incomplete
  | (.ok declared, behind) =>
    if declared < 0 ∨ limit < declared.toNatClampNeg then .tooLarge declared
    else
      match Reader.take declared.toNatClampNeg behind with
      | (.error _, _) => .incomplete
      | (.ok frame, rest) => .body frame rest

/-- The text for a frame that is refused. -/
def tooLargeMessage (declared : Int32) (limit : Nat) : String :=
  "Frame of " ++ toString declared.toInt ++ " bytes exceeds limit of " ++ toString limit

/-- **A frame takes at least its own length**: what follows it is shorter than the
buffer. -/
theorem length_rest_of_split {limit : Nat} {buffer frame rest : Bytes}
    (h : split limit buffer = .body frame rest) : rest.length < buffer.length := by
  unfold split at h
  split at h
  · cases h
  · next declared behind hlen =>
    split at h
    · cases h
    · split at h
      · cases h
      · next frame' rest' htake =>
        cases h
        have first : behind.length < buffer.length := Word.advances_read hlen
        have second := (Reader.forward_take declared.toNatClampNeg behind).length_le
        rw [htake] at second
        exact Nat.lt_of_le_of_lt second first

/-- Takes the first frame off the buffer, if it is no longer than `limit`. It answers with
the body, with nothing as long as the frame has not arrived in full, or with the length that
is refused; and in all cases with what then is in the buffer. A frame is taken with its
length, and nothing is taken where there is no frame. -/
def splitOff (limit : Nat) (buffer : Bytes) : Except Int32 (Option Bytes) × Bytes :=
  match split limit buffer with
  | .incomplete => (.ok none, buffer)
  | .tooLarge declared => (.error declared, buffer)
  | .body frame rest => (.ok (some frame), rest)

section

variable {limit : Nat} {buffer : Bytes}

/-- What has arrived of a frame stays where it is. -/
theorem splitOff_of_incomplete (h : split limit buffer = .incomplete) :
    splitOff limit buffer = (.ok none, buffer) := by rw [splitOff, h]

/-- A frame that is refused stays where it is. -/
theorem splitOff_of_tooLarge {declared : Int32} (h : split limit buffer = .tooLarge declared) :
    splitOff limit buffer = (.error declared, buffer) := by rw [splitOff, h]

/-- A frame comes off, and what follows it stays. -/
theorem splitOff_of_body {frame rest : Bytes} (h : split limit buffer = .body frame rest) :
    splitOff limit buffer = (.ok (some frame), rest) := by rw [splitOff, h]

/-- What comes off a buffer is what it begins with. -/
theorem split_of_splitOff {frame rest : Bytes}
    (h : splitOff limit buffer = (.ok (some frame), rest)) :
    split limit buffer = .body frame rest := by
  unfold splitOff at h
  split at h
  · cases h
  · cases h
  · next body => rw [body]; cases h; rfl

/-- What is left of a buffer off which a frame came is shorter. -/
theorem length_rest_of_splitOff {frame rest : Bytes}
    (h : splitOff limit buffer = (.ok (some frame), rest)) : rest.length < buffer.length :=
  length_rest_of_split (split_of_splitOff h)

end

/-! ## Reading a frame of a complete input -/

/-- Reads one frame with `r`, which sees the body and nothing behind it. The frame is
taken as a whole, whether or not `r` succeeds and however much of the body it uses. -/
def read {α : Type} (r : Reader α) : Reader α := do
  let length ← (Word.read : Reader UInt32)
  Reader.within length.toNat r

end LogBroker.Wire.Frame
