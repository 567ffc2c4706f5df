import LogBroker.Bytes

/-!
# Text in bytes

Names and ids travel as UTF-8. Writing is the standard encoding. Reading never fails:
a stretch that is no UTF-8 becomes the replacement character U+FFFD, one for each
*maximal subpart*, which is the longest beginning of a well-formed sequence that stands
there, or a single byte if there is none.

Reading is a machine that looks at one byte at a time. Between two characters it is at
rest; within a sequence it knows the bits so far, how many bytes are missing, and the
range in which the next one must lie. The range is narrower than "a continuation byte"
only behind `E0`, `ED`, `F0` and `F4`, where it rules out overlong forms, surrogates and
numbers above U+10FFFF at the first byte that shows them.
-/

namespace LogBroker.Utf8

/-- The bytes of a text. -/
def encode (s : String) : Bytes := s.toList.flatMap String.utf8EncodeChar

/-! ## Reading -/

/-- A sequence that has begun and is not complete. -/
structure Partial where
  /-- the bits of the character that are known -/
  bits : Nat
  /-- how many bytes are missing, at least one -/
  missing : Nat
  /-- the least byte that may follow -/
  low : Nat
  /-- the greatest byte that may follow -/
  high : Nat

/-- Stands for what cannot be read. -/
def replacement : Char := '\ufffd'

/-- Reads a byte between two characters. `done` holds the characters so far, last first. -/
def readFirst (done : List Char) (b : UInt8) : Option Partial × List Char :=
  let n := b.toNat
  if n < 0x80 then (none, Char.ofNat n :: done)
  else if n < 0xc2 then (none, replacement :: done)
  else if n < 0xe0 then (some ⟨n % 32, 1, 0x80, 0xbf⟩, done)
  else if n < 0xf0 then
    (some ⟨n % 16, 2, if n = 0xe0 then 0xa0 else 0x80, if n = 0xed then 0x9f else 0xbf⟩, done)
  else if n < 0xf5 then
    (some ⟨n % 8, 3, if n = 0xf0 then 0x90 else 0x80, if n = 0xf4 then 0x8f else 0xbf⟩, done)
  else (none, replacement :: done)

/-- Reads a byte within a sequence. A byte that cannot continue the sequence ends it
with a replacement and is then read as the first of the next character. -/
def readNext (p : Partial) (done : List Char) (b : UInt8) : Option Partial × List Char :=
  let n := b.toNat
  if p.low ≤ n ∧ n ≤ p.high then
    let bits := p.bits * 64 + n % 64
    if p.missing ≤ 1 then (none, Char.ofNat bits :: done)
    else (some ⟨bits, p.missing - 1, 0x80, 0xbf⟩, done)
  else readFirst (replacement :: done) b

/-- Reads one byte in either state. -/
def step (state : Option Partial × List Char) (b : UInt8) : Option Partial × List Char :=
  match state with
  | (none, done) => readFirst done b
  | (some p, done) => readNext p done b

/-- The characters when the input has ended; a sequence that it cuts is replaced. -/
def finish : Option Partial × List Char → List Char
  | (none, done) => done.reverse
  | (some _, done) => (replacement :: done).reverse

/-- The text that the bytes spell, with replacements for what is no text. -/
def decode (bs : Bytes) : String := String.ofList (finish (bs.foldl step (none, [])))

/-! ## Written text reads back -/

/-- **A character's own bytes** take the machine from rest to rest and yield the
character. -/
theorem foldl_step_encodeChar (c : Char) (done : List Char) :
    (String.utf8EncodeChar c).foldl step (none, done) = (none, c :: done) := by
  have ofNat : Char.ofNat c.val.toNat = c := Char.ofNat_toNat c
  have bound : c.val.toNat < 0xd800 ∨ 0xdfff < c.val.toNat ∧ c.val.toNat < 0x110000 := c.valid
  have byte {n : Nat} (h : n < 256) : (UInt8.ofNat n).toNat = n := UInt8.toNat_ofNat_of_lt' h
  unfold String.utf8EncodeChar
  generalize c.val.toNat = v at *
  have last : (UInt8.ofNat (v % 64 + 128)).toNat = v % 64 + 128 := byte (by omega)
  have lastIn : 0x80 ≤ v % 64 + 128 ∧ v % 64 + 128 ≤ 0xbf := by omega
  have middle : (UInt8.ofNat (v / 64 % 64 + 128)).toNat = v / 64 % 64 + 128 := byte (by omega)
  by_cases one : v ≤ 127
  · have : v < 0x80 := by omega
    simp [one, step, readFirst, byte (by omega : v < 256), this, ofNat]
  by_cases two : v ≤ 2047
  · have first : (UInt8.ofNat (v / 64 % 32 + 192)).toNat = v / 64 % 32 + 192 := byte (by omega)
    have h₁ : ¬ v / 64 % 32 + 192 < 0x80 := by omega
    have h₂ : ¬ v / 64 % 32 + 192 < 0xc2 := by omega
    have h₃ : v / 64 % 32 + 192 < 0xe0 := by omega
    have bits : (v / 64 % 32 + 192) % 32 * 64 + (v % 64 + 128) % 64 = v := by omega
    simp only [one, two, if_false, if_true, List.foldl, step, readFirst, readNext, first, last,
      h₁, h₂, h₃, lastIn, bits, ofNat, Nat.le_refl, and_self]
  by_cases three : v ≤ 65535
  · have first : (UInt8.ofNat (v / 4096 % 16 + 224)).toNat = v / 4096 % 16 + 224 :=
      byte (by omega)
    have h₁ : ¬ v / 4096 % 16 + 224 < 0x80 := by omega
    have h₂ : ¬ v / 4096 % 16 + 224 < 0xc2 := by omega
    have h₃ : ¬ v / 4096 % 16 + 224 < 0xe0 := by omega
    have h₄ : v / 4096 % 16 + 224 < 0xf0 := by omega
    have inRange :
        (if v / 4096 % 16 + 224 = 0xe0 then 0xa0 else 0x80) ≤ v / 64 % 64 + 128 ∧
          v / 64 % 64 + 128 ≤ if v / 4096 % 16 + 224 = 0xed then 0x9f else 0xbf := by
      constructor <;> split <;> omega
    have bits : ((v / 4096 % 16 + 224) % 16 * 64 + (v / 64 % 64 + 128) % 64) * 64
        + (v % 64 + 128) % 64 = v := by omega
    have missing : ¬ 2 ≤ 1 := by decide
    simp only [one, two, three, if_false, if_true, List.foldl, step, readFirst, readNext, first,
      middle, last, h₁, h₂, h₃, h₄, inRange, missing, lastIn, bits, ofNat, Nat.le_refl,
      Nat.add_one_sub_one, and_self]
  · have first : (UInt8.ofNat (v / 262144 % 8 + 240)).toNat = v / 262144 % 8 + 240 :=
      byte (by omega)
    have second : (UInt8.ofNat (v / 4096 % 64 + 128)).toNat = v / 4096 % 64 + 128 :=
      byte (by omega)
    have h₁ : ¬ v / 262144 % 8 + 240 < 0x80 := by omega
    have h₂ : ¬ v / 262144 % 8 + 240 < 0xc2 := by omega
    have h₃ : ¬ v / 262144 % 8 + 240 < 0xe0 := by omega
    have h₄ : ¬ v / 262144 % 8 + 240 < 0xf0 := by omega
    have h₅ : v / 262144 % 8 + 240 < 0xf5 := by omega
    have inRange :
        (if v / 262144 % 8 + 240 = 0xf0 then 0x90 else 0x80) ≤ v / 4096 % 64 + 128 ∧
          v / 4096 % 64 + 128 ≤ if v / 262144 % 8 + 240 = 0xf4 then 0x8f else 0xbf := by
      constructor <;> split <;> omega
    have middleIn : 0x80 ≤ v / 64 % 64 + 128 ∧ v / 64 % 64 + 128 ≤ 0xbf := by omega
    have bits : (((v / 262144 % 8 + 240) % 8 * 64 + (v / 4096 % 64 + 128) % 64) * 64
        + (v / 64 % 64 + 128) % 64) * 64 + (v % 64 + 128) % 64 = v := by omega
    have missing₃ : ¬ 3 ≤ 1 := by decide
    have missing₂ : ¬ 3 - 1 ≤ 1 := by decide
    have missing₁ : 3 - 1 - 1 ≤ 1 := by decide
    simp only [one, two, three, if_false, if_true, List.foldl, step, readFirst, readNext, first,
      second, middle, last, h₁, h₂, h₃, h₄, h₅, inRange, missing₃, missing₂, missing₁, middleIn,
      lastIn, bits, ofNat, and_self]

theorem foldl_step_encode (cs : List Char) (done : List Char) :
    (cs.flatMap String.utf8EncodeChar).foldl step (none, done) = (none, cs.reverse ++ done) := by
  induction cs generalizing done with
  | nil => rfl
  | cons c cs ih => simp [List.foldl_append, foldl_step_encodeChar, ih]

/-- **Text is read as it was written.** -/
@[simp] theorem decode_encode (s : String) : decode (encode s) = s := by
  simp [decode, encode, foldl_step_encode, finish]

end LogBroker.Utf8
