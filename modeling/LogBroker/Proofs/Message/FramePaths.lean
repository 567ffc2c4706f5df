import LogBroker.Message.Request
import LogBroker.Proofs.Wire.Framing
import LogBroker.Proofs.Wire.Rewriting

/-!
# Two ways to a frame

A frame is split off a buffer to which bytes are still being added (`Frame.split`), or it is read
from an input that is complete (`Frame.read`). The first way takes the length for signed, has a
limit, and leaves the buffer as it is until there is a frame. The second one takes the length for
unsigned, has no limit, and takes the length before it looks whether the body is there.

* What comes off a buffer was in a frame (`Frame.eq_encode_of_split`), and from a frame around a
  body the body is read, whatever follows it (`Frame.read_encode`).
* Where nothing comes off, the reader misses the length (`Frame.read_of_short`) or the body
  (`Frame.read_of_missing`). A negative length is among these cases, because without its sign it
  is larger than any input that is not huge.

Main statement: `RequestMessage.readFrame_of_split`.
-/

namespace LogBroker

open Wire Reader

namespace Wire.Frame

/-! ## Lengths with and without a sign -/

/-- Without its sign a negative length is larger by `2 ^ 32`, and any other one is the same. -/
theorem toNat_toUInt32 (n : Int32) :
    (n.toUInt32.toNat : Int) = if n < 0 then n.toInt + 4294967296 else n.toInt := by
  have bits := BitVec.toInt_eq_toNat_cond n.toBitVec
  have bound := n.toBitVec.isLt
  have same : n.toUInt32.toNat = n.toBitVec.toNat := rfl
  rw [Int32.toInt_toBitVec] at bits
  simp only [Int32.lt_iff_toInt_lt, Int32.toInt_zero]
  omega

/-- A length that is not negative counts as many bytes either way. -/
theorem toNatClampNeg_eq {n : Int32} (h : ¬ n < 0) : n.toNatClampNeg = n.toUInt32.toNat := by
  have unsigned := toNat_toUInt32 n
  rw [if_neg h] at unsigned
  rw [← Int32.toNat_toInt, ← unsigned, Int.toNat_natCast]

section

variable {limit : Nat} {buffer : Bytes}

/-! ## Off a buffer -/

/-- Inversion for a frame that has not arrived in full: the length is missing, or the length is
accepted and the body is missing. -/
theorem split_eq_incomplete (h : split limit buffer = .incomplete) :
    buffer.length < lengthSize ∨
      lengthSize ≤ buffer.length ∧ ¬ Refuses limit (declared buffer) ∧
        buffer.length < lengthSize + (declared buffer).toNatClampNeg := by
  rcases Nat.lt_or_ge buffer.length lengthSize with short | long
  · exact .inl short
  by_cases hr : Refuses limit (declared buffer)
  · rw [split_of_refuses long hr] at h
    cases h
  rcases Nat.lt_or_ge buffer.length (lengthSize + (declared buffer).toNatClampNeg) with hm | hc
  · exact .inr ⟨long, hr, hm⟩
  · rw [split_of_complete long hr hc] at h
    cases h

/-- What comes off a buffer was in a frame. -/
theorem eq_encode_of_split {body rest : Bytes} (h : split limit buffer = .body body rest) :
    buffer = encode body ++ rest ∧ body.length < 2 ^ 31 := by
  obtain ⟨hc, hr, rfl, rfl⟩ := split_eq_body h
  have long : lengthSize ≤ buffer.length := Nat.le_of_add_right_le hc
  have nonneg : ¬ declared buffer < 0 := fun negative => hr (.inl negative)
  have size : ((buffer.drop lengthSize).take (declared buffer).toNatClampNeg).length =
      (declared buffer).toNatClampNeg := by
    rw [List.length_take, List.length_drop]
    omega
  constructor
  · rw [encode, size, Prefixed.ofNat_toNatClampNeg nonneg, List.append_assoc, ← List.drop_drop,
      List.take_append_drop]
    exact Word.eq_write_of_read (read_declared long)
  · rw [size]
    exact Int32.toNatClampNeg_lt _

/-! ## Off a complete input -/

/-- The length as it is read there. -/
theorem read_unsigned (h : lengthSize ≤ buffer.length) :
    (Word.read : Reader UInt32) buffer =
      (.ok (declared buffer).toUInt32, buffer.drop lengthSize) :=
  Word.read_of_le h

/-- Inversion for a length that is read there. -/
theorem read_unsigned_eq_ok {length : UInt32} {behind : Bytes}
    (h : (Word.read : Reader UInt32) buffer = (.ok length, behind)) :
    lengthSize ≤ buffer.length ∧ length = (declared buffer).toUInt32 ∧
      behind = buffer.drop lengthSize := by
  rcases Nat.lt_or_ge buffer.length lengthSize with short | long
  · rw [Word.read_of_lt short] at h
    cases h
  · rw [read_unsigned long] at h
    cases h
    exact ⟨long, rfl, rfl⟩

variable {α : Type} (r : Reader α)

/-- **A frame is read as its body is**, whatever follows it and however much of the body is
used. -/
theorem read_encode {body : Bytes} (small : body.length < 2 ^ 32) (rest : Bytes) :
    read r (encode body ++ rest) = ((r body).1, rest) := by
  have length : (Word.read : Reader UInt32) (encode body ++ rest) =
      (.ok (UInt32.ofNat body.length), body ++ rest) := by
    rw [encode, List.append_assoc]
    exact Word.takes_write (UInt32.ofNat body.length) (body ++ rest)
  rw [read, bind_ok length, UInt32.toNat_ofNat_of_lt' small]
  exact bind_ok (takes_take body rest)

/-- The length is not there, and nothing is taken. -/
theorem read_of_short (h : buffer.length < lengthSize) :
    read r buffer = (.error (.underflow lengthSize buffer.length), buffer) :=
  bind_error (Word.read_of_lt h)

/-- The body is not there. The length is taken nevertheless. -/
theorem read_of_missing (h : lengthSize ≤ buffer.length)
    (hm : buffer.length < lengthSize + (declared buffer).toUInt32.toNat) :
    read r buffer =
      (.error (.underflow (declared buffer).toUInt32.toNat (buffer.length - lengthSize)),
        buffer.drop lengthSize) := by
  have missing := take_eq (declared buffer).toUInt32.toNat (buffer.drop lengthSize)
  rw [List.length_drop, if_neg (by omega)] at missing
  rw [read, bind_ok (read_unsigned h)]
  exact bind_error missing

/-! ## One after the other -/

theorem read_of_split_body {body rest : Bytes} (h : split limit buffer = .body body rest) :
    read r buffer = ((r body).1, rest) := by
  obtain ⟨whole, small⟩ := eq_encode_of_split h
  rw [whole]
  exact read_encode r (Nat.lt_trans small (by decide)) rest

/-- The reader misses the bytes that have not arrived. -/
theorem read_of_split_incomplete (h : split limit buffer = .incomplete)
    (long : lengthSize ≤ buffer.length) :
    ∃ n : Nat, (declared buffer).toInt = n ∧
      read r buffer =
        (.error (.underflow n (buffer.length - lengthSize)), buffer.drop lengthSize) := by
  rcases split_eq_incomplete h with short | ⟨_, accepted, missing⟩
  · exact absurd short (Nat.not_lt.mpr long)
  · have nonneg : ¬ declared buffer < 0 := fun negative => accepted (.inl negative)
    have unsigned := toNat_toUInt32 (declared buffer)
    rw [if_neg nonneg] at unsigned
    rw [toNatClampNeg_eq nonneg] at missing
    exact ⟨_, unsigned.symm, read_of_missing r long missing⟩

/-- The reader misses the bytes that a negative length counts without its sign. -/
theorem read_of_split_negative {length : Int32} (h : split limit buffer = .tooLarge length)
    (negative : length < 0) (small : buffer.length < 2 ^ 31 + lengthSize) :
    read r buffer =
      (.error (.underflow length.toUInt32.toNat (buffer.length - lengthSize)),
        buffer.drop lengthSize) := by
  obtain ⟨long, _, rfl⟩ := split_eq_tooLarge h
  have unsigned := toNat_toUInt32 (declared buffer)
  have least := Int32.le_toInt (declared buffer)
  rw [if_pos negative] at unsigned
  exact read_of_missing r long (by omega)

/-- If the reader gets as far as the body, and the length is accepted, the body comes off. -/
theorem exists_split_body {length : UInt32} {behind : Bytes}
    (hlength : (Word.read : Reader UInt32) buffer = (.ok length, behind))
    (hbehind : ensure length.toNat behind = (.ok (), behind))
    (nonneg : 0 ≤ (declared buffer).toInt) (accepted : (declared buffer).toInt ≤ limit) :
    ∃ body rest, split limit buffer = .body body rest ∧ behind = body ++ rest ∧
      body.length = length.toNat := by
  obtain ⟨long, rfl, rfl⟩ := read_unsigned_eq_ok hlength
  have positive : ¬ declared buffer < 0 := by
    rw [Int32.lt_iff_toInt_lt, Int32.toInt_zero]
    exact Int.not_lt.mpr nonneg
  rw [← toNatClampNeg_eq positive] at hbehind ⊢
  have there : (declared buffer).toNatClampNeg ≤ (buffer.drop lengthSize).length := by
    by_contra missing
    rw [ensure_eq, if_neg missing] at hbehind
    cases hbehind
  refine ⟨_, _, split_of_complete long ?_ ?_, ?_, ?_⟩
  · rintro (negative | longer)
    · exact positive negative
    · rw [← Int32.toNat_toInt] at longer
      omega
  · rw [List.length_drop] at there
    omega
  · rw [← List.drop_drop, List.take_append_drop]
  · rw [List.length_take, Nat.min_eq_left there]

end

end Wire.Frame

namespace RequestMessage

/-- **The two ways to a frame agree.** Let a buffer be split, and let it be read as if it were
complete. If a body comes off, then what is read from the body is what is read from the buffer,
message or failure, and what follows the frame is left; other bytes that follow the frame make no
difference. If the frame has not arrived in full, the reader fails for want of the bytes that are
missing. So it does if the length is negative, as long as the buffer is not so long that it holds
what the length counts without its sign. The other way round: if the reader gets as far as the
body, and the length is accepted with its sign, then the body comes off. -/
theorem readFrame_of_split (limit : Nat) (buffer : Bytes) :
    (∀ body rest, Frame.split limit buffer = .body body rest →
      readFrame buffer = ((read body).1, rest) ∧
        buffer = Frame.encode body ++ rest ∧
        ∀ other, readFrame (Frame.encode body ++ other) = ((read body).1, other)) ∧
    (Frame.split limit buffer = .incomplete →
      (buffer.length < 4 → readFrame buffer = (.error (.underflow 4 buffer.length), buffer)) ∧
      (4 ≤ buffer.length → ∃ n : Nat, (Frame.declared buffer).toInt = n ∧
        readFrame buffer = (.error (.underflow n (buffer.length - 4)), buffer.drop 4))) ∧
    (∀ length, Frame.split limit buffer = .tooLarge length → length < 0 →
      buffer.length < 2 ^ 31 + 4 →
      readFrame buffer =
        (.error (.underflow length.toUInt32.toNat (buffer.length - 4)), buffer.drop 4)) ∧
    (∀ length behind, (Word.read : Reader UInt32) buffer = (.ok length, behind) →
      ensure length.toNat behind = (.ok (), behind) →
      0 ≤ (Frame.declared buffer).toInt → (Frame.declared buffer).toInt ≤ limit →
      ∃ body rest, Frame.split limit buffer = .body body rest ∧ behind = body ++ rest ∧
        body.length = length.toNat) := by
  refine ⟨?_, ?_, ?_, ?_⟩
  · intro body rest h
    obtain ⟨whole, small⟩ := Frame.eq_encode_of_split h
    exact ⟨Frame.read_of_split_body read h, whole,
      Frame.read_encode read (Nat.lt_trans small (by decide))⟩
  · intro h
    exact ⟨Frame.read_of_short read, Frame.read_of_split_incomplete read h⟩
  · intro length
    exact Frame.read_of_split_negative read
  · intro length behind
    exact Frame.exists_split_body

/-- A request for the apis, and a byte behind it. -/
def listingAndMore : Bytes := [0, 18, 0, 4, 0, 0, 0, 7, 0xff, 0xff, 0, 1, 1, 0, 0xab]

/-- Its frame in front of the beginning of another one, and three buffers off which nothing comes:
the length is cut, the body is cut, and the length is negative. -/
theorem readFrame_of_split_fourBuffers :
    (readFrame (Frame.encode listingAndMore ++ [0, 0]) =
        (.ok { header := .forApi .apiVersions 4 7, request := .apiVersions {} }, [0, 0]) ∧
      ∃ body rest, Frame.split 15 (Frame.encode listingAndMore ++ [0, 0]) = .body body rest ∧
        listingAndMore ++ [0, 0] = body ++ rest ∧ body.length = 15) ∧
    readFrame [0, 0] = (.error (.underflow 4 2), [0, 0]) ∧
    (∃ n : Nat, (5 : Int) = n ∧ readFrame [0, 0, 0, 5, 9] = (.error (.underflow n 1), [9])) ∧
    readFrame [0xff, 0xff, 0xff, 0xfe, 9] = (.error (.underflow 4294967294 1), [9]) := by
  have body : (read listingAndMore).1 =
      .ok { header := .forApi .apiVersions 4 7, request := .apiVersions {} } := by decide +kernel
  obtain ⟨comesOff, _, _, conversely⟩ :=
    readFrame_of_split 15 (Frame.encode listingAndMore ++ [0, 0])
  have read := (comesOff listingAndMore [0, 0] (by decide +kernel)).1
  rw [body] at read
  refine ⟨⟨read, ?_⟩, ?_, ?_, ?_⟩
  · exact conversely 15 (listingAndMore ++ [0, 0]) (by decide +kernel) (by decide +kernel)
      (by decide +kernel) (by decide +kernel)
  · exact ((readFrame_of_split 15 [0, 0]).2.1 (by decide +kernel)).1 (by decide)
  · exact ((readFrame_of_split 15 [0, 0, 0, 5, 9]).2.1 (by decide +kernel)).2 (by decide)
  · exact (readFrame_of_split 15 [0xff, 0xff, 0xff, 0xfe, 9]).2.2.1 (-2) (by decide +kernel)
      (by decide) (by decide)

end RequestMessage

end LogBroker
