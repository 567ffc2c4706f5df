import LogBroker.Wire.Layout

/-!
# Readers made of readers

All readers of the library are made of a few: those that answer at once, take bytes, or look at
one byte, and sequences of them. So what holds of these few and passes to sequences holds of all
(`Reader.Compositional`), and this is proved once, along the definition of the readers.

Main statement: `Reader.Compositional.layout`.
-/

namespace LogBroker.Wire

namespace Reader

variable {α β : Type}

/-! ## Repetitions -/

/-- The values read before stand in front of those that a repetition reads. -/
theorem timesFrom_eq (r : Reader α) (n : Nat) (done : List α) (bs : Bytes) :
    timesFrom r n done bs = ((times n r bs).1.map (done.reverse ++ ·), (times n r bs).2) := by
  rw [times]
  induction n generalizing done bs with
  | zero => simp [timesFrom, Except.map]
  | succ n ih =>
    rcases h : r bs with ⟨e | a, rest⟩ <;> simp only [timesFrom, h]
    · rfl
    · rw [ih (a :: done), ih [a]]
      rcases timesFrom r n [] rest with ⟨e | as, left⟩ <;> simp [Except.map]

/-- Nothing is read no times. -/
theorem times_zero (r : Reader α) : times 0 r = pure [] := rfl

/-- A repetition reads its first value, and then the others. -/
theorem times_succ (r : Reader α) (n : Nat) :
    times (n + 1) r = r >>= fun a => times n r >>= fun as => pure (a :: as) := by
  funext bs
  rcases h : r bs with ⟨e | a, rest⟩
  · rw [bind_error h]
    simp only [times, timesFrom, h]
  · rw [bind_ok h]
    have step : times (n + 1) r bs = timesFrom r n [a] rest := by simp only [times, timesFrom, h]
    rw [step, timesFrom_eq]
    rcases hn : times n r rest with ⟨e | as, left⟩
    · rw [bind_error hn]
      rfl
    · rw [bind_ok hn]
      rfl

/-! ## Sequences -/

/-- What holds of the readers of which all others are made, and passes to readers in sequence. -/
structure Compositional (P : {α : Type} → Reader α → Prop) : Prop where
  /-- answering takes nothing -/
  holds_pure : ∀ {α : Type} (a : α), P (pure a : Reader α)
  /-- a number that is too long is given up where that shows -/
  holds_tooLong : ∀ {α : Type}, P (fail .varintTooLong : Reader α)
  /-- one byte -/
  holds_byte : P byte
  /-- so many bytes -/
  holds_take : ∀ n, P (take n)
  /-- one byte, if it is the marker -/
  holds_marker : ∀ m, P (Primitive.readMarker m)
  /-- one reader, and another that the answer chooses -/
  holds_bind : ∀ {α β : Type} {r : Reader α} {f : α → Reader β},
    P r → (∀ a, P (f a)) → P (r >>= f)

namespace Compositional

variable {P : {α : Type} → Reader α → Prop} (hP : Compositional P)
include hP

/-- What is done with an answer makes no difference. -/
theorem bind_pure {r : Reader α} (hr : P r) (f : α → β) : P (r >>= fun a => pure (f a)) :=
  hP.holds_bind hr fun a => hP.holds_pure (f a)

/-- What is done with an answer takes nothing. -/
theorem map {r : Reader α} (hr : P r) (f : α → β) : P (f <$> r) := by
  rw [map_eq_pure_bind]
  exact hP.bind_pure hr f

/-- A repetition is a sequence. -/
theorem times {r : Reader α} (hr : P r) (n : Nat) : P (Reader.times n r) := by
  induction n with
  | zero =>
    rw [times_zero]
    exact hP.holds_pure []
  | succ n ih =>
    rw [times_succ]
    exact hP.holds_bind hr fun a => hP.bind_pure ih (a :: ·)

/-! ## Numbers and lengths -/

/-- A word is so many bytes. -/
theorem word [Word α] : P (Word.read : Reader α) := hP.bind_pure (hP.holds_take _) _

/-- One group is a byte, and behind it there are more groups or none. -/
theorem groups : ∀ n, P (Varint.readGroups n)
  | 0 => hP.holds_tooLong
  | n + 1 => hP.holds_bind hP.holds_byte fun b => by
    split
    · exact hP.holds_pure _
    · exact hP.bind_pure (groups n) _

/-- The bound is looked at when all groups have been read. -/
theorem below (bound n : Nat) : P (Varint.readBelow bound n) :=
  hP.holds_bind (hP.groups n) fun _ => by
    split
    · exact hP.holds_pure _
    · exact hP.holds_tooLong

theorem uint32 : P Varint.readUInt32 := hP.bind_pure (hP.below _ _) _

theorem uint64 : P Varint.readUInt64 := hP.bind_pure (hP.below _ _) _

/-- A length is a word, or a number in groups of seven bits. -/
theorem length32 : P Prefixed.readLength32 := hP.bind_pure hP.word _

theorem length16 : P Prefixed.readLength16 := hP.bind_pure hP.word _

theorem compactLength : P Prefixed.readCompactLength := hP.bind_pure hP.uint32 _

/-- A folded number is read unfolded. -/
theorem int32 : P Zigzag.readInt32 := hP.bind_pure hP.uint32 _

theorem int64 : P Zigzag.readInt64 := hP.bind_pure hP.uint64 _

/-- A negative length has no bytes behind it. -/
theorem nullableBytes : P Prefixed.readNullableBytes :=
  hP.holds_bind hP.int32 fun n => by
    split
    · exact hP.holds_pure _
    · exact hP.bind_pure (hP.holds_take _) _

/-! ## Layouts -/

/-- What composes holds of every primitive: each is a number, or a length and so many bytes. -/
theorem primitive : ∀ {α : Type} (p : Primitive α), P p.read
  | _, .uint8 | _, .int8 | _, .int16 | _, .int32 | _, .uint32 | _, .int64 | _, .uuid => hP.word
  | _, .bool => hP.bind_pure hP.word _
  | _, .unsignedVarint => hP.uint32
  | _, .unsignedVarlong => hP.uint64
  | _, .varint => hP.int32
  | _, .varlong => hP.int64
  | _, .bytes => hP.holds_bind hP.length32 hP.holds_take
  | _, .nullableString => hP.bind_pure (hP.holds_bind hP.length16 hP.holds_take) _
  | _, .compactString => hP.bind_pure (hP.holds_bind hP.compactLength hP.holds_take) _
  | _, .nullableBytes => hP.nullableBytes
  | _, .marker m => hP.holds_marker m

/-- **What composes holds of every layout.** -/
theorem layout : ∀ {α : Type} (l : Layout α), P l.read
  | _, .primitive p => hP.primitive p
  | _, .andThen first second =>
    hP.holds_bind (layout first) fun _ => hP.bind_pure (layout second) _
  | _, .packed fields _ => hP.bind_pure (layout fields) _
  | _, .array element => hP.holds_bind hP.length32 fun n => hP.times (layout element) n
  | _, .compactArray element => hP.holds_bind hP.compactLength fun n => hP.times (layout element) n

end Compositional

end Reader

end LogBroker.Wire
