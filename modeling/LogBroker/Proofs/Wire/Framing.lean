import LogBroker.Proofs.Wire.ReadBack
import LogBroker.Wire.Frame

/-!
# Streams of frames

A stream is cut into frames by splitting one off after the other. `Frame.bodies` are the
bodies that come off a stream, up to the first frame that is incomplete or too large;
`Frame.remainder` is what then is left.

* What a frame was put around comes off again (`takes_encode`, `split_encode`), unless its
  length needs more than 31 bits (`split_encode_iff`). So a row of frames is cut into the
  bodies that it was made of (`bodies_row`).
* A frame that comes off a buffer also comes off when more has arrived, and so does a
  refusal (`split_append_of_body`, `split_append_of_tooLarge`). So a stream can be cut as
  it arrives (`bodies_append`).
-/

namespace LogBroker.Wire

open Reader

namespace Word

variable {α : Type} [Word α]

theorem read_of_le {bs : Bytes} (h : width α ≤ bs.length) :
    read (α := α) bs =
      (.ok (ofNat (BigEndian.ofBytes (bs.take (width α)))), bs.drop (width α)) := by
  have taken := take_eq (width α) bs
  rw [if_pos h] at taken
  rw [read, bind_ok taken, pure_apply]

theorem read_of_lt {bs : Bytes} (h : bs.length < width α) :
    read (α := α) bs = (.error (.underflow (width α) bs.length), bs) := by
  have taken := take_eq (width α) bs
  rw [if_neg (Nat.not_le.mpr h)] at taken
  rw [read, bind_error taken]

end Word

namespace Frame

/-! ## One frame -/

/-- The length that a buffer begins with, if all four bytes of it are there. -/
def declared (buffer : Bytes) : Int32 :=
  Word.ofNat (BigEndian.ofBytes (buffer.take lengthSize))

/-- A declared length that is refused. -/
def Refuses (limit : Nat) (length : Int32) : Prop := length < 0 ∨ limit < length.toNatClampNeg

section

variable {limit : Nat} {buffer : Bytes}

/-- As long as the length is not there, nothing is known of the frame. -/
theorem split_of_short (h : buffer.length < lengthSize) : split limit buffer = .incomplete := by
  simp only [split, Word.read_of_lt (α := Int32) h]

theorem read_declared (h : lengthSize ≤ buffer.length) :
    (Word.read : Reader Int32) buffer = (.ok (declared buffer), buffer.drop lengthSize) :=
  Word.read_of_le h

/-- Once the length is there, it can be refused, whether or not the body is there. -/
theorem split_of_refuses (h : lengthSize ≤ buffer.length) (hr : Refuses limit (declared buffer)) :
    split limit buffer = .tooLarge (declared buffer) := by
  simp only [split, read_declared h]
  exact if_pos hr

/-- A length that is accepted waits for its body. -/
theorem split_of_missing (h : lengthSize ≤ buffer.length)
    (hr : ¬ Refuses limit (declared buffer))
    (hm : buffer.length < lengthSize + (declared buffer).toNatClampNeg) :
    split limit buffer = .incomplete := by
  have behind := take_eq (declared buffer).toNatClampNeg (buffer.drop lengthSize)
  rw [List.length_drop, if_neg (by omega)] at behind
  simp only [split, read_declared h, behind]
  exact if_neg hr

/-- A body that is there comes off. -/
theorem split_of_complete (h : lengthSize ≤ buffer.length)
    (hr : ¬ Refuses limit (declared buffer))
    (hc : lengthSize + (declared buffer).toNatClampNeg ≤ buffer.length) :
    split limit buffer = .body ((buffer.drop lengthSize).take (declared buffer).toNatClampNeg)
      (buffer.drop (lengthSize + (declared buffer).toNatClampNeg)) := by
  have behind := take_eq (declared buffer).toNatClampNeg (buffer.drop lengthSize)
  rw [List.length_drop, if_pos (by omega), List.drop_drop] at behind
  simp only [split, read_declared h, behind]
  exact if_neg hr

/-- Inversion for a body that comes off. -/
theorem split_eq_body {frame rest : Bytes} (h : split limit buffer = .body frame rest) :
    lengthSize + (declared buffer).toNatClampNeg ≤ buffer.length ∧
      ¬ Refuses limit (declared buffer) ∧
      frame = (buffer.drop lengthSize).take (declared buffer).toNatClampNeg ∧
      rest = buffer.drop (lengthSize + (declared buffer).toNatClampNeg) := by
  rcases Nat.lt_or_ge buffer.length lengthSize with short | long
  · rw [split_of_short short] at h
    cases h
  by_cases hr : Refuses limit (declared buffer)
  · rw [split_of_refuses long hr] at h
    cases h
  rcases Nat.lt_or_ge buffer.length (lengthSize + (declared buffer).toNatClampNeg) with hm | hc
  · rw [split_of_missing long hr hm] at h
    cases h
  · rw [split_of_complete long hr hc] at h
    cases h
    exact ⟨hc, hr, rfl, rfl⟩

/-- Inversion for a refusal. -/
theorem split_eq_tooLarge {length : Int32} (h : split limit buffer = .tooLarge length) :
    lengthSize ≤ buffer.length ∧ Refuses limit (declared buffer) ∧ length = declared buffer := by
  rcases Nat.lt_or_ge buffer.length lengthSize with short | long
  · rw [split_of_short short] at h
    cases h
  by_cases hr : Refuses limit (declared buffer)
  · rw [split_of_refuses long hr] at h
    cases h
    exact ⟨long, hr, rfl⟩
  rcases Nat.lt_or_ge buffer.length (lengthSize + (declared buffer).toNatClampNeg) with hm | hc
  · rw [split_of_missing long hr hm] at h
    cases h
  · rw [split_of_complete long hr hc] at h
    cases h

/-! ### More has arrived -/

/-- A length that is there stays as it is. -/
theorem declared_append (h : lengthSize ≤ buffer.length) (more : Bytes) :
    declared (buffer ++ more) = declared buffer := by
  rw [declared, declared, List.take_append_of_le_length h]

/-- A frame that comes off a buffer comes off whatever follows. -/
theorem split_append_of_body {frame rest : Bytes} (h : split limit buffer = .body frame rest)
    (more : Bytes) : split limit (buffer ++ more) = .body frame (rest ++ more) := by
  obtain ⟨hc, hr, rfl, rfl⟩ := split_eq_body h
  have long : lengthSize ≤ buffer.length := Nat.le_of_add_right_le hc
  have same := declared_append long more
  -- the length and the body both lie in the buffer, so neither is cut elsewhere
  rw [split_of_complete, same, List.drop_append_of_le_length long, List.take_append_of_le_length,
    List.drop_append_of_le_length hc]
  · rw [List.length_drop]
    omega
  · rw [List.length_append]
    omega
  · rw [same]
    exact hr
  · rw [same, List.length_append]
    omega

/-- A frame that is refused is refused whatever follows. -/
theorem split_append_of_tooLarge {length : Int32} (h : split limit buffer = .tooLarge length)
    (more : Bytes) : split limit (buffer ++ more) = .tooLarge length := by
  obtain ⟨long, hr, rfl⟩ := split_eq_tooLarge h
  have same := declared_append long more
  rw [split_of_refuses, same]
  · rw [List.length_append]
    omega
  · rw [same]
    exact hr

end

/-! ### A frame around a body -/

section

variable {body : Bytes}

/-- A frame begins with the low bits of the length of its body. -/
theorem declared_encode (body rest : Bytes) :
    declared (encode body ++ rest) = Int32.ofNat body.length := by
  have taken := Word.read_write_append (Int32.ofNat body.length) (body ++ rest)
  have long : Word.width Int32 ≤ (encode body ++ rest).length := by
    simp only [encode, List.length_append, Word.length_write]
    omega
  rw [← List.append_assoc, ← encode, Word.read_of_le long] at taken
  exact Except.ok.inj (Prod.mk.inj taken).1

theorem length_encode (body : Bytes) : (encode body).length = lengthSize + body.length := by
  rw [encode, List.length_append, Word.length_write]
  rfl

/-- Behind the length there is the body. -/
theorem drop_encode (body rest : Bytes) :
    (encode body ++ rest).drop lengthSize = body ++ rest := by
  have size : (Word.write (Int32.ofNat body.length)).length = lengthSize := Word.length_write _
  rw [encode, List.append_assoc, ← size, List.drop_left]

theorem take_encode (body rest : Bytes) :
    (encode body ++ rest).take lengthSize = Word.write (Int32.ofNat body.length) := by
  have size : (Word.write (Int32.ofNat body.length)).length = lengthSize := Word.length_write _
  rw [encode, List.append_assoc, ← size, List.take_left]

/-- **A frame comes off** as the body that it was put around. -/
theorem split_encode {limit : Nat} (small : body.length < 2 ^ 31) (hl : body.length ≤ limit)
    (rest : Bytes) : split limit (encode body ++ rest) = .body body rest := by
  have length : (declared (encode body ++ rest)).toNatClampNeg = body.length := by
    rw [declared_encode, Int32.toNatClampNeg_ofNat_of_lt small]
  have accepted : ¬ Refuses limit (declared (encode body ++ rest)) := by
    rintro (negative | longer)
    · rw [declared_encode] at negative
      exact Prefixed.not_ofNat_neg small negative
    · omega
  have whole : (encode body ++ rest).length = lengthSize + body.length + rest.length := by
    rw [List.length_append, length_encode]
  rw [split_of_complete (by omega) accepted (by omega), length, drop_encode, List.take_left,
    ← List.drop_drop, drop_encode, List.drop_left]

/-- The length in front of a body is that of the body just if it has 31 bits. -/
theorem declared_encode_iff (body rest : Bytes) :
    (declared (encode body ++ rest)).toInt = body.length ↔ body.length < 2 ^ 31 := by
  rw [declared_encode]
  constructor
  · intro same
    have bound := Int32.toInt_lt (Int32.ofNat body.length)
    omega
  · intro small
    exact Int32.toInt_ofNat_of_lt small

/-- What was put around a longer body is not a frame, however long the frames are that are
accepted. -/
theorem split_encode_iff {limit : Nat} (body rest : Bytes) :
    split limit (encode body ++ rest) = .body body rest ↔
      body.length < 2 ^ 31 ∧ body.length ≤ limit := by
  constructor
  · intro h
    obtain ⟨_, accepted, whole, _⟩ := split_eq_body h
    have bound := Int32.toNatClampNeg_lt (declared (encode body ++ rest))
    have cut := List.length_take_le (declared (encode body ++ rest)).toNatClampNeg
      ((encode body ++ rest).drop lengthSize)
    rw [← whole] at cut
    refine ⟨Nat.lt_of_le_of_lt cut bound, ?_⟩
    by_contra longer
    exact accepted (.inr (by omega))
  · rintro ⟨small, hl⟩
    exact split_encode small hl rest

/-- A frame is read as the message that its body is read as. The length is written as a
signed word and read as an unsigned one, so all 32 bits of it count. -/
theorem takes_encode {α : Type} {r : Reader α} {a : α} (h : r.Takes body a)
    (small : body.length < 2 ^ 32) : (read r).Takes (encode body) a := by
  -- a word's bytes do not say whether it has a sign
  have length : Word.write (Int32.ofNat body.length) = Word.write (UInt32.ofNat body.length) := rfl
  have whole := h.within
  rw [← UInt32.toNat_ofNat_of_lt' small] at whole
  rw [encode, length]
  exact (Word.takes_write (UInt32.ofNat body.length)).bind whole

end

/-! ## A stream of frames -/

/-- The bodies of the frames at the front of a stream, up to the first that is incomplete
or refused. -/
def bodies (limit : Nat) (stream : Bytes) : List Bytes :=
  match h : split limit stream with
  | .body frame rest =>
    have : rest.length < stream.length := length_rest_of_split h
    frame :: bodies limit rest
  | .incomplete | .tooLarge _ => []
termination_by stream.length

/-- What is left of a stream behind these frames. -/
def remainder (limit : Nat) (stream : Bytes) : Bytes :=
  match h : split limit stream with
  | .body _ rest =>
    have : rest.length < stream.length := length_rest_of_split h
    remainder limit rest
  | .incomplete | .tooLarge _ => stream
termination_by stream.length

section

variable {limit : Nat} {stream : Bytes}

/-- The first frame gives the first body. -/
theorem bodies_of_body {frame rest : Bytes} (h : split limit stream = .body frame rest) :
    bodies limit stream = frame :: bodies limit rest := by
  rw [bodies]
  split
  next h' => rw [h] at h'; cases h'; rfl
  next h' => rw [h] at h'; cases h'
  next h' => rw [h] at h'; cases h'

/-- What is left is behind all frames. -/
theorem remainder_of_body {frame rest : Bytes} (h : split limit stream = .body frame rest) :
    remainder limit stream = remainder limit rest := by
  rw [remainder]
  split
  next h' => rw [h] at h'; cases h'; rfl
  next h' => rw [h] at h'; cases h'
  next h' => rw [h] at h'; cases h'

/-- At the front of the stream there is no frame that comes off. -/
def Stuck (limit : Nat) (stream : Bytes) : Prop :=
  split limit stream = .incomplete ∨ ∃ length, split limit stream = .tooLarge length

/-- A stream that is stuck gives no bodies. -/
theorem bodies_of_stuck (h : Stuck limit stream) : bodies limit stream = [] := by
  rw [bodies]
  rcases h with h | ⟨length, h⟩ <;> split <;> simp_all

theorem remainder_of_stuck (h : Stuck limit stream) : remainder limit stream = stream := by
  rw [remainder]
  rcases h with h | ⟨length, h⟩ <;> split <;> simp_all

/-- A stream begins with a frame, or it is stuck. -/
theorem body_or_stuck (limit : Nat) (stream : Bytes) :
    (∃ frame rest, split limit stream = .body frame rest ∧ rest.length < stream.length) ∨
      Stuck limit stream := by
  rcases h : split limit stream with _ | length | ⟨frame, rest⟩
  · exact .inr (.inl h)
  · exact .inr (.inr ⟨length, h⟩)
  · exact .inl ⟨frame, rest, rfl, length_rest_of_split h⟩

/-- Induction along the frames of a stream. -/
theorem stream_induction {motive : Bytes → Prop} (limit : Nat)
    (stuck : ∀ stream, Stuck limit stream → motive stream)
    (body : ∀ stream frame rest, split limit stream = .body frame rest → motive rest →
      motive stream) (stream : Bytes) : motive stream := by
  rcases body_or_stuck limit stream with ⟨frame, rest, h, shorter⟩ | h
  · exact body stream frame rest h (stream_induction limit stuck body rest)
  · exact stuck stream h
termination_by stream.length

/-- **A stream can be cut as it arrives**: what is left of its beginning is cut further
when more has arrived. -/
theorem bodies_append (limit : Nat) (stream more : Bytes) :
    bodies limit (stream ++ more) =
      bodies limit stream ++ bodies limit (remainder limit stream ++ more) := by
  induction stream using stream_induction limit with
  | stuck stream h => rw [bodies_of_stuck h, remainder_of_stuck h, List.nil_append]
  | body stream frame rest h ih =>
    rw [bodies_of_body h, remainder_of_body h, bodies_of_body (split_append_of_body h more), ih,
      List.cons_append]

/-- What is left of a longer stream is left of what was left. -/
theorem remainder_append (limit : Nat) (stream more : Bytes) :
    remainder limit (stream ++ more) = remainder limit (remainder limit stream ++ more) := by
  induction stream using stream_induction limit with
  | stuck stream h => rw [remainder_of_stuck h]
  | body stream frame rest h ih =>
    rw [remainder_of_body h, remainder_of_body (split_append_of_body h more), ih]

end

/-! ### A row of frames -/

theorem stuck_nil (limit : Nat) : Stuck limit [] := .inl (split_of_short (by decide))

section

variable {α : Type} {f : α → Bytes} {limit : Nat}

/-- **A row of frames** that are not too long is cut into the bodies that they were put
around. -/
theorem bodies_row {as : List α} (h : ∀ a ∈ as, (f a).length < 2 ^ 31 ∧ (f a).length ≤ limit) :
    bodies limit (as.flatMap fun a => encode (f a)) = as.map f := by
  induction as with
  | nil => exact bodies_of_stuck (stuck_nil limit)
  | cons a as ih =>
    obtain ⟨⟨small, hl⟩, others⟩ := List.forall_mem_cons.mp h
    rw [List.flatMap_cons, bodies_of_body (split_encode small hl _), ih others, List.map_cons]

/-- Behind a row of frames nothing is left. -/
theorem remainder_row {as : List α}
    (h : ∀ a ∈ as, (f a).length < 2 ^ 31 ∧ (f a).length ≤ limit) :
    remainder limit (as.flatMap fun a => encode (f a)) = [] := by
  induction as with
  | nil => exact remainder_of_stuck (stuck_nil limit)
  | cons a as ih =>
    obtain ⟨⟨small, hl⟩, others⟩ := List.forall_mem_cons.mp h
    rw [List.flatMap_cons, remainder_of_body (split_encode small hl _), ih others]

end

end Frame

end LogBroker.Wire
