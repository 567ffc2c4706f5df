import LogBroker.Proofs.Wire.Groups
import Mathlib.Algebra.BigOperators.Group.Finset.Basic
import Mathlib.Algebra.BigOperators.Ring.Finset
import Mathlib.Data.Nat.Bitwise

/-!
# What a variable-length number spells

A number ends at the first byte with a clear high bit (`Varint.last?`), and up to there the bytes
spell the sum of their groups, each times a power of 128 (`Varint.spelled`). Reading gives that
number or refuses it, and takes what it has looked at (`Varint.Exact`): this is read off the bytes
alone, in terms of the first byte that ends a number, and no reader occurs in it.

The readers of the library add up natural numbers. A machine puts the groups into a word of 64
bits by shifts (`Varint.gather`), where bits can fall off. They do not, because a group is looked
at before it is shifted out of the word: the word is the sum of its groups as long as there is
room for the sum, and otherwise the number is refused (`Varint.gather_eq`).

Main statement: `Varint.readUInt_exact`.
-/

namespace LogBroker.Wire

open Reader

theorem Reader.byte_cons (b : UInt8) (bs : Bytes) : byte (b :: bs) = (.ok b, bs) := rfl

namespace Varint

/-! ## What the bytes say -/

/-- Where the first byte with a clear high bit stands. -/
def last? (bs : Bytes) : Option Nat := bs.findIdx? fun b => b.toNat < 128

/-- The number that the first `count` groups spell, the lowest group first. -/
def spelled (bs : Bytes) (count : Nat) : Nat :=
  ∑ j ∈ Finset.range count, (bs.getD j 0).toNat % 128 * 128 ^ j

/-- All these bytes say that there are more. -/
def AllMore (bs : Bytes) : Prop := ∀ b ∈ bs, 128 ≤ b.toNat

section

variable {b : UInt8} {bs : Bytes}

theorem last?_nil : last? [] = none := rfl

/-- A byte below 128 is the last group. -/
theorem last?_cons_of_lt (h : b.toNat < 128) : last? (b :: bs) = some 0 := by
  simp [last?, List.findIdx?_cons, h]

/-- Behind any other byte the search goes on. -/
theorem last?_cons_of_le (h : 128 ≤ b.toNat) : last? (b :: bs) = (last? bs).map (· + 1) := by
  simp [last?, List.findIdx?_cons, Nat.not_lt.mpr h]

/-- The last group is the first one that has a clear high bit. -/
theorem last?_eq_some_iff {i : Nat} :
    last? bs = some i ↔ AllMore (bs.take i) ∧ ∃ b, bs[i]? = some b ∧ b.toNat < 128 := by
  induction bs generalizing i with
  | nil => simp [last?_nil]
  | cons b bs ih =>
    rcases Nat.lt_or_ge b.toNat 128 with last | more
    · rw [last?_cons_of_lt last]
      cases i with
      | zero => simp [AllMore, last]
      | succ i => simp [AllMore, last]
    · rw [last?_cons_of_le more]
      cases i with
      | zero => simp [more]
      | succ i => simp [AllMore, more, ih]

/-- A further group counts for the next power. -/
theorem spelled_succ (bs : Bytes) (count : Nat) :
    spelled bs (count + 1) =
      spelled bs count + (bs.getD count 0).toNat % 128 * 128 ^ count := by
  rw [spelled, Finset.sum_range_succ, ← spelled]

/-- A group in front moves the others up by seven bits. -/
theorem spelled_cons (b : UInt8) (bs : Bytes) (count : Nat) :
    spelled (b :: bs) (count + 1) = b.toNat % 128 + 128 * spelled bs count := by
  rw [spelled, spelled, Finset.sum_range_succ', Finset.mul_sum, Nat.add_comm]
  congr 1
  · simp
  · refine Finset.sum_congr rfl fun j _ => ?_
    rw [List.getD_cons_succ, Nat.pow_succ, Nat.mul_comm (128 ^ j), Nat.mul_left_comm]

theorem spelled_lt (bs : Bytes) (count : Nat) : spelled bs count < 128 ^ count := by
  induction count with
  | zero => exact Nat.one_pos
  | succ count ih =>
    have group : (bs.getD count 0).toNat % 128 ≤ 127 := by omega
    have shifted := Nat.mul_le_mul_right (128 ^ count) group
    rw [spelled_succ, Nat.pow_succ]
    omega

end

/-! ## Groups -/

section

variable {bs : Bytes} {groups i : Nat}

theorem readGroups_cons_of_lt {b : UInt8} (h : b.toNat < 128) :
    readGroups (groups + 1) (b :: bs) = (.ok b.toNat, bs) := by
  rw [readGroups, bind_ok (byte_cons b bs), if_pos h, pure_apply]

theorem readGroups_cons_of_le {b : UInt8} (h : 128 ≤ b.toNat) :
    readGroups (groups + 1) (b :: bs) =
      (readGroups groups >>= fun higher => pure (b.toNat - 128 + 128 * higher)) bs := by
  rw [readGroups, bind_ok (byte_cons b bs), if_neg (Nat.not_lt.mpr h)]

/-- A number is read up to its last group. -/
theorem readGroups_of_last (h : last? bs = some i) (few : i < groups) :
    readGroups groups bs = (.ok (spelled bs (i + 1)), bs.drop (i + 1)) := by
  induction bs generalizing i groups with
  | nil => cases h
  | cons b bs ih =>
    obtain ⟨groups, rfl⟩ := Nat.exists_eq_succ_of_ne_zero (Nat.ne_zero_of_lt few)
    rw [spelled_cons]
    rcases Nat.lt_or_ge b.toNat 128 with small | big
    · rw [last?_cons_of_lt small] at h
      cases h
      rw [readGroups_cons_of_lt small, Nat.mod_eq_of_lt small]
      rfl
    · rw [last?_cons_of_le big] at h
      obtain ⟨j, above, rfl⟩ := Option.map_eq_some_iff.mp h
      have bound := b.toNat_lt
      have group : b.toNat % 128 = b.toNat - 128 := by omega
      rw [readGroups_cons_of_le big, bind_ok (ih above (Nat.lt_of_succ_lt_succ few)), group]
      rfl

/-- Where there is no last group among so many, they are all taken. -/
theorem readGroups_of_more (h : AllMore (bs.take groups)) (enough : groups ≤ bs.length) :
    readGroups groups bs = (.error .varintTooLong, bs.drop groups) := by
  induction groups generalizing bs with
  | zero => rfl
  | succ groups ih =>
    cases bs with
    | nil => cases enough
    | cons b bs =>
      obtain ⟨more, others⟩ := List.forall_mem_cons.mp h
      rw [readGroups_cons_of_le more, bind_error (ih others (Nat.le_of_succ_le_succ enough))]
      rfl

/-- Where the bytes end before the groups do, one more is wanted. -/
theorem readGroups_of_ended (h : AllMore bs) (short : bs.length < groups) :
    readGroups groups bs = (.error (.underflow 1 0), []) := by
  induction bs generalizing groups with
  | nil =>
    obtain ⟨groups, rfl⟩ := Nat.exists_eq_succ_of_ne_zero (Nat.ne_zero_of_lt short)
    rfl
  | cons b bs ih =>
    obtain ⟨groups, rfl⟩ := Nat.exists_eq_succ_of_ne_zero (Nat.ne_zero_of_lt short)
    obtain ⟨more, others⟩ := List.forall_mem_cons.mp h
    rw [readGroups_cons_of_le more, bind_error (ih others (Nat.lt_of_succ_lt_succ short))]

/-- A number ends within so many groups, or all of them say that there are more, or the bytes end
before. -/
theorem last_or_more_or_ended (bs : Bytes) (groups : Nat) :
    (∃ i, last? bs = some i ∧ i < groups) ∨ (AllMore (bs.take groups) ∧ groups ≤ bs.length) ∨
      (AllMore bs ∧ bs.length < groups) := by
  induction groups generalizing bs with
  | zero => exact .inr (.inl ⟨fun _ mem => absurd mem List.not_mem_nil, Nat.zero_le _⟩)
  | succ groups ih =>
    cases bs with
    | nil => exact .inr (.inr ⟨fun _ mem => absurd mem List.not_mem_nil, Nat.succ_pos _⟩)
    | cons b bs =>
      rcases Nat.lt_or_ge b.toNat 128 with small | big
      · exact .inl ⟨0, last?_cons_of_lt small, Nat.succ_pos _⟩
      · rcases ih bs with ⟨i, last, few⟩ | ⟨more, enough⟩ | ⟨more, short⟩
        · refine .inl ⟨i + 1, ?_, Nat.succ_lt_succ few⟩
          rw [last?_cons_of_le big, last, Option.map_some]
        · exact .inr (.inl ⟨List.forall_mem_cons.mpr ⟨big, more⟩, Nat.succ_le_succ enough⟩)
        · exact .inr (.inr ⟨List.forall_mem_cons.mpr ⟨big, more⟩, Nat.succ_lt_succ short⟩)

end

/-! ## Outcomes -/

/-- The bytes spell no number below the bound in so many groups: the number that they spell is too
large, or there are too many groups. What is read of them is gone. -/
inductive Refused (bound groups : Nat) (bs : Bytes) : Bytes → Prop where
  /-- it ends in time, with a number that is not below the bound -/
  | large {i : Nat} (last : last? bs = some i) (few : i < groups)
      (big : bound ≤ spelled bs (i + 1)) : Refused bound groups bs (bs.drop (i + 1))
  /-- none of so many groups is the last one -/
  | long (more : AllMore (bs.take groups)) (enough : groups ≤ bs.length) :
      Refused bound groups bs (bs.drop groups)

/-- Reading has the outcome that the bytes call for. -/
structure Exact {α : Type} (toNat : α → Nat) (bound groups : Nat) (bs : Bytes)
    (outcome : Except DecodeError α × Bytes) : Prop where
  /-- there is a number just if the bytes spell it in time and it is below the bound -/
  ok_iff (a : α) (rest : Bytes) : outcome = (.ok a, rest) ↔
    ∃ i, last? bs = some i ∧ i < groups ∧ spelled bs (i + 1) < bound ∧
      toNat a = spelled bs (i + 1) ∧ rest = bs.drop (i + 1)
  /-- the number is refused just if it is too large or has too many groups -/
  tooLong_iff (rest : Bytes) :
    outcome = (.error .varintTooLong, rest) ↔ Refused bound groups bs rest
  /-- otherwise the bytes end first, and all of them are read -/
  otherwise : (∀ a rest, outcome ≠ (.ok a, rest)) →
    (∀ rest, outcome ≠ (.error .varintTooLong, rest)) →
      outcome = (.error (.underflow 1 0), []) ∧ AllMore bs ∧ bs.length < groups

section

variable {bound groups : Nat} {bs : Bytes}

theorem readBelow_of_lt {i : Nat} (h : last? bs = some i) (few : i < groups)
    (below : spelled bs (i + 1) < bound) :
    readBelow bound groups bs = (.ok (spelled bs (i + 1)), bs.drop (i + 1)) := by
  rw [readBelow, bind_ok (readGroups_of_last h few), if_pos below, pure_apply]

theorem readBelow_of_refused {rest : Bytes} (h : Refused bound groups bs rest) :
    readBelow bound groups bs = (.error .varintTooLong, rest) := by
  cases h with
  | large last few big =>
    rw [readBelow, bind_ok (readGroups_of_last last few), if_neg (Nat.not_lt.mpr big), fail_apply]
  | long more enough => rw [readBelow, bind_error (readGroups_of_more more enough)]

theorem readBelow_of_ended (h : AllMore bs) (short : bs.length < groups) :
    readBelow bound groups bs = (.error (.underflow 1 0), []) := by
  rw [readBelow, bind_error (readGroups_of_ended h short)]

/-- A number is read, or refused, or cut. -/
theorem readBelow_cases (bound groups : Nat) (bs : Bytes) :
    (∃ i, last? bs = some i ∧ i < groups ∧ spelled bs (i + 1) < bound) ∨
      (∃ rest, Refused bound groups bs rest) ∨ (AllMore bs ∧ bs.length < groups) := by
  rcases last_or_more_or_ended bs groups with ⟨i, last, few⟩ | ⟨more, enough⟩ | ended
  · rcases Nat.lt_or_ge (spelled bs (i + 1)) bound with below | big
    · exact .inl ⟨i, last, few, below⟩
    · exact .inr (.inl ⟨_, .large last few big⟩)
  · exact .inr (.inl ⟨_, .long more enough⟩)
  · exact .inr (.inr ended)

/-- **The outcome is the one that the bytes call for**, whatever the words are in which the number
is given. -/
theorem exact_readBelow {α : Type} {toNat : α → Nat} {ofNat : Nat → α}
    (toNat_ofNat : ∀ n, n < bound → toNat (ofNat n) = n) (ofNat_toNat : ∀ a, ofNat (toNat a) = a)
    (bs : Bytes) :
    Exact toNat bound groups bs ((readBelow bound groups >>= fun n => pure (ofNat n)) bs) := by
  have given {i : Nat} (last : last? bs = some i) (few : i < groups)
      (below : spelled bs (i + 1) < bound) :
      (readBelow bound groups >>= fun n => pure (ofNat n)) bs =
        (.ok (ofNat (spelled bs (i + 1))), bs.drop (i + 1)) := by
    rw [bind_ok (readBelow_of_lt last few below), pure_apply]
  have refused {rest : Bytes} (h : Refused bound groups bs rest) :
      (readBelow bound groups >>= fun n => pure (ofNat n)) bs = (.error .varintTooLong, rest) :=
    bind_error (readBelow_of_refused h)
  have cut (h : AllMore bs) (short : bs.length < groups) :
      (readBelow bound groups >>= fun n => pure (ofNat n)) bs = (.error (.underflow 1 0), []) :=
    bind_error (readBelow_of_ended h short)
  refine { ok_iff := ?_, tooLong_iff := ?_, otherwise := ?_ }
  · intro a rest
    constructor
    · intro read
      rcases readBelow_cases bound groups bs with ⟨i, last, few, below⟩ | ⟨_, h⟩ | ⟨more, short⟩
      · rw [given last few below] at read
        cases read
        exact ⟨i, last, few, below, toNat_ofNat _ below, rfl⟩
      · rw [refused h] at read
        cases read
      · rw [cut more short] at read
        cases read
    · rintro ⟨i, last, few, below, same, rfl⟩
      rw [given last few below, ← same, ofNat_toNat]
  · intro rest
    refine ⟨?_, refused⟩
    intro read
    rcases readBelow_cases bound groups bs with ⟨i, last, few, below⟩ | ⟨_, h⟩ | ⟨more, short⟩
    · rw [given last few below] at read
      cases read
    · rw [refused h] at read
      cases read
      exact h
    · rw [cut more short] at read
      cases read
  · intro noNumber notRefused
    rcases readBelow_cases bound groups bs with ⟨i, last, few, below⟩ | ⟨_, h⟩ | ⟨more, short⟩
    · exact absurd (given last few below) (noNumber _ _)
    · exact absurd (refused h) (notRefused _)
    · exact ⟨cut more short, more, short⟩

/-- With ten groups a number is too large for 64 bits just if the tenth one has more than the one
bit that there is room for. -/
theorem refused_iff_tenth (bs rest : Bytes) :
    Refused (2 ^ 64) 10 bs rest ↔
      AllMore (bs.take 9) ∧ (∃ tenth, bs[9]? = some tenth ∧ tenth ≠ 0 ∧ tenth ≠ 1) ∧
        rest = bs.drop 10 := by
  have below := spelled_lt bs 9
  constructor
  · intro h
    cases h with
    | @large i last few big =>
      -- nine groups have 63 bits, and a tenth one that is 0 or 1 makes them 64
      have all := spelled_lt bs (i + 1)
      have top : i = 9 := by
        by_contra lower
        have room : 128 ^ (i + 1) ≤ 128 ^ 9 := Nat.pow_le_pow_right (by decide) (by omega)
        omega
      subst top
      obtain ⟨more, tenth, found, _⟩ := last?_eq_some_iff.mp last
      rw [spelled_succ, List.getD_eq_getElem?_getD, found, Option.getD_some] at big
      have two : 2 ≤ tenth.toNat % 128 := by omega
      refine ⟨more, ⟨tenth, found, ?_, ?_⟩, rfl⟩
      · rintro rfl
        exact absurd two (by decide)
      · rintro rfl
        exact absurd two (by decide)
    | long more enough =>
      have found : bs[9]? = some bs[9] := List.getElem?_eq_getElem enough
      rw [List.take_add_one, found] at more
      obtain ⟨first, last⟩ := List.forall_mem_append.mp more
      have high := last bs[9] (List.mem_singleton_self _)
      refine ⟨first, ⟨bs[9], found, ?_, ?_⟩, rfl⟩
      · intro zero
        rw [zero] at high
        exact absurd high (by decide)
      · intro one
        rw [one] at high
        exact absurd high (by decide)
  · rintro ⟨more, ⟨tenth, found, notZero, notOne⟩, rfl⟩
    have two : 2 ≤ tenth.toNat := by
      have := mt UInt8.toNat_inj.mp notZero
      have := mt UInt8.toNat_inj.mp notOne
      simp only [UInt8.reduceToNat] at *
      omega
    rcases Nat.lt_or_ge tenth.toNat 128 with small | high
    · refine .large (last?_eq_some_iff.mpr ⟨more, tenth, found, small⟩) (by decide) ?_
      rw [spelled_succ, List.getD_eq_getElem?_getD, found, Option.getD_some,
        Nat.mod_eq_of_lt small]
      omega
    · obtain ⟨enough, -⟩ := List.getElem?_eq_some_iff.mp found
      refine .long ?_ enough
      rw [List.take_add_one, found]
      exact List.forall_mem_append.mpr ⟨more, List.forall_mem_singleton.mpr high⟩

end

/-! ## Groups in a word -/

/-- The seven bits of a group, in a word of 64 bits. -/
def payload (b : UInt8) : BitVec 64 := (b &&& 0x7f).toBitVec.setWidth 64

/-- The number as it comes together in a word of 64 bits: each group is shifted to its place,
above the groups that are there. What a shift moves out of the word is lost, so a group that
stands at the upper end is looked at before. -/
def gather : (groups shift : Nat) → BitVec 64 → Reader (BitVec 64)
  | 0, _, _ => Reader.fail .varintTooLong
  | groups + 1, shift, value => do
    let b ← Reader.byte
    if 57 < shift ∧ payload b >>> (64 - shift) ≠ 0#64 then Reader.fail .varintTooLong
    else if b &&& 0x80 = 0 then pure (value ||| payload b <<< shift)
    else gather groups (shift + 7) (value ||| payload b <<< shift)

/-- Without its high bit a byte is a group. -/
theorem toNat_payload (b : UInt8) : (payload b).toNat = b.toNat % 128 := by
  have low : b.toNat &&& (0x7f : UInt8).toNat = b.toNat % 128 :=
    Nat.and_two_pow_sub_one_eq_mod b.toNat 7
  rw [payload, BitVec.toNat_setWidth, UInt8.toNat_toBitVec, UInt8.toNat_and, low]
  omega

/-- The high bit of a byte. -/
theorem and_high_eq_zero_iff (b : UInt8) : b &&& 0x80 = 0 ↔ b.toNat < 128 := by
  have high : b.toNat &&& (0x80 : UInt8).toNat = (b.toNat.testBit 7).toNat * 2 ^ 7 :=
    Nat.and_two_pow b.toNat 7
  have bound := b.toNat_lt
  rw [← UInt8.toNat_inj, UInt8.toNat_and, high, Nat.testBit_eq_decide_div_mod_eq]
  by_cases set : b.toNat / 2 ^ 7 % 2 = 1 <;> simp <;> omega

section

variable {groups done v : Nat} {b : UInt8} {bs : Bytes}

/-- The look at a group finds out whether it has bits that would be lost. -/
theorem lost_iff (h : done ≤ 9) (small : v < 128 ^ done) :
    (57 < 7 * done ∧ payload b >>> (64 - 7 * done) ≠ 0#64) ↔
      2 ^ 64 ≤ v + 128 ^ done * (b.toNat % 128) := by
  have group : b.toNat % 128 ≤ 127 := Nat.le_of_lt_succ (Nat.mod_lt _ (by decide))
  rcases Nat.lt_or_eq_of_le h with lower | rfl
  · -- below the upper end all of a group is in the word
    have room : 128 ^ (done + 1) ≤ 128 ^ 9 := Nat.pow_le_pow_right (by decide) lower
    have placed := Nat.mul_le_mul_left (128 ^ done) group
    rw [Nat.pow_succ] at room
    omega
  · have half : (payload b >>> (64 - 7 * 9)).toNat = b.toNat % 128 / 2 := by
      rw [BitVec.toNat_ushiftRight, Nat.shiftRight_eq_div_pow, toNat_payload]
    rw [ne_eq, ← BitVec.toNat_inj, half, BitVec.toNat_zero]
    omega

/-- No bit is lost from a group that passes. -/
theorem or_payload (small : v < 128 ^ done)
    (fits : v + 128 ^ done * (b.toNat % 128) < 2 ^ 64) :
    BitVec.ofNat 64 v ||| payload b <<< (7 * done) =
      BitVec.ofNat 64 (v + 128 ^ done * (b.toNat % 128)) := by
  have place : 128 ^ done = 2 ^ (7 * done) := by rw [Nat.pow_mul]
  rw [place] at small fits ⊢
  have shifted : (payload b <<< (7 * done)).toNat = b.toNat % 128 * 2 ^ (7 * done) := by
    rw [BitVec.toNat_shiftLeft, Nat.shiftLeft_eq, toNat_payload, Nat.mul_comm,
      Nat.mod_eq_of_lt (by omega)]
  apply BitVec.eq_of_toNat_eq
  rw [BitVec.toNat_or, shifted, BitVec.toNat_ofNat, BitVec.toNat_ofNat, Nat.mod_eq_of_lt fits,
    Nat.mod_eq_of_lt (Nat.lt_of_add_right_lt fits), Nat.or_comm, ← Nat.shiftLeft_eq,
    ← Nat.shiftLeft_add_eq_or_of_lt small, Nat.shiftLeft_eq, Nat.mul_comm, Nat.add_comm]

/-- One group into the word. -/
theorem gather_cons (h : done ≤ 9) (small : v < 128 ^ done) :
    gather (groups + 1) (7 * done) (BitVec.ofNat 64 v) (b :: bs) =
      if 2 ^ 64 ≤ v + 128 ^ done * (b.toNat % 128) then (.error .varintTooLong, bs)
      else if b.toNat < 128 then (.ok (BitVec.ofNat 64 (v + 128 ^ done * (b.toNat % 128))), bs)
      else gather groups (7 * (done + 1))
        (BitVec.ofNat 64 (v + 128 ^ done * (b.toNat % 128))) bs := by
  rw [gather, bind_ok (byte_cons b bs)]
  by_cases exceeds : 2 ^ 64 ≤ v + 128 ^ done * (b.toNat % 128)
  · rw [if_pos ((lost_iff h small).mpr exceeds), if_pos exceeds, fail_apply]
  rw [if_neg (mt (lost_iff h small).mp exceeds), if_neg exceeds,
    or_payload small (Nat.lt_of_not_le exceeds)]
  by_cases last : b.toNat < 128
  · rw [if_pos ((and_high_eq_zero_iff b).mpr last), if_pos last, pure_apply]
  · rw [if_neg (mt (and_high_eq_zero_iff b).mp last), if_neg last, Nat.mul_succ]

/-- **The word is the sum of its groups**, as long as the sum fits into it. The induction is on the
groups that may still come; `done` of them are in the word already. -/
theorem gather_eq (h : groups + done ≤ 10) (small : v < 128 ^ done) :
    gather groups (7 * done) (BitVec.ofNat 64 v) = readGroups groups >>= fun n =>
      if v + 128 ^ done * n < 2 ^ 64 then pure (BitVec.ofNat 64 (v + 128 ^ done * n))
      else Reader.fail .varintTooLong := by
  induction groups generalizing done v with
  | zero => rfl
  | succ groups ih =>
    funext bs
    rcases bs with _ | ⟨b, bs⟩
    · rfl
    have bound := b.toNat_lt
    rw [gather_cons (by omega) small]
    rcases Nat.lt_or_ge b.toNat 128 with last | more
    · rw [bind_ok (readGroups_cons_of_lt last), Nat.mod_eq_of_lt last]
      by_cases exceeds : 2 ^ 64 ≤ v + 128 ^ done * b.toNat
      · rw [if_pos exceeds, if_neg (Nat.not_lt.mpr exceeds), fail_apply]
      · rw [if_neg exceeds, if_pos last, if_pos (Nat.lt_of_not_le exceeds), pure_apply]
    have digit : b.toNat - 128 = b.toNat % 128 := by omega
    have group : b.toNat % 128 ≤ 127 := Nat.le_of_lt_succ (Nat.mod_lt _ (by decide))
    have placed := Nat.mul_le_mul_left (128 ^ done) group
    by_cases exceeds : 2 ^ 64 ≤ v + 128 ^ done * (b.toNat % 128)
    · -- at the upper end of the word no other group may come
      have top := ((lost_iff (b := b) (by omega) small).mpr exceeds).1
      obtain rfl : groups = 0 := by omega
      rw [if_pos exceeds, bind_error (readGroups_cons_of_le more)]
    · have above (n : Nat) : v + 128 ^ done * (b.toNat - 128 + 128 * n) =
          v + 128 ^ done * (b.toNat % 128) + 128 ^ (done + 1) * n := by
        rw [digit, Nat.mul_add, Nat.pow_succ, Nat.mul_assoc, Nat.add_assoc]
      rw [if_neg exceeds, if_neg (Nat.not_lt.mpr more),
        ih (by omega) (by rw [Nat.pow_succ]; omega)]
      rcases higher : readGroups groups bs with ⟨e | n, rest⟩
      · rw [bind_error higher, bind_error ((readGroups_cons_of_le more).trans (bind_error higher))]
      · rw [bind_ok higher, bind_ok ((readGroups_cons_of_le more).trans (bind_ok higher)), above]

end

/-- The word of a number from its first group on. -/
theorem gather_zero {groups : Nat} (h : groups ≤ 10) :
    gather groups 0 0#64 = readGroups groups >>= fun n =>
      if n < 2 ^ 64 then pure (BitVec.ofNat 64 n) else Reader.fail .varintTooLong := by
  have whole : gather groups (7 * 0) (BitVec.ofNat 64 0) = _ := gather_eq h (by decide)
  simpa using whole

/-- A number of 32 bits is read as a word that must not use its upper half. -/
theorem readUInt32_eq_gather :
    readUInt32 = gather maxGroups32 0 0#64 >>= fun v =>
      if v.toNat < UInt32.size then pure (UInt32.ofNat v.toNat)
      else Reader.fail .varintTooLong := by
  rw [gather_zero (by decide), bind_assoc, readUInt32, readBelow, bind_assoc]
  congr 1
  funext n
  by_cases fits : n < 2 ^ 64
  · rw [if_pos fits, pure_bind, BitVec.toNat_ofNat, Nat.mod_eq_of_lt fits]
    split <;> rfl
  · have large : ¬ n < UInt32.size := fun small => fits (Nat.lt_trans small (by decide))
    rw [if_neg fits, if_neg large]
    rfl

/-- A number of 64 bits is read as a word. -/
theorem readUInt64_eq_gather :
    readUInt64 = gather maxGroups64 0 0#64 >>= fun v => pure (UInt64.ofBitVec v) := by
  rw [gather_zero (by decide), bind_assoc, readUInt64, readBelow, bind_assoc]
  congr 1
  funext n
  rw [show UInt64.size = 2 ^ 64 from rfl]
  by_cases fits : n < 2 ^ 64
  · rw [if_pos fits, if_pos fits, pure_bind, pure_bind]
    rfl
  · rw [if_neg fits, if_neg fits]
    rfl

/-! ## Both widths -/

/-- **A variable-length number is read as the bytes spell it.** The number ends at the first byte
with a clear high bit, and it is the sum of its groups. It is read if it ends within five (ten)
groups and has 32 (64) bits; it is refused if it does not, which for 64 bits shows at the tenth
group; and if neither can be told, the bytes have ended. A reader that shifts the groups into a
word of 64 bits does the same, so no bit of a number that is read is lost by a shift. -/
theorem readUInt_exact (bs : Bytes) :
    Exact UInt32.toNat (2 ^ 32) 5 bs (readUInt32 bs) ∧
      Exact UInt64.toNat (2 ^ 64) 10 bs (readUInt64 bs) ∧
      (∀ rest, readUInt64 bs = (.error .varintTooLong, rest) ↔
        AllMore (bs.take 9) ∧ (∃ tenth, bs[9]? = some tenth ∧ tenth ≠ 0 ∧ tenth ≠ 1) ∧
          rest = bs.drop 10) ∧
      readUInt32 bs =
        (gather 5 0 0#64 >>= fun v =>
          if v.toNat < 2 ^ 32 then pure (UInt32.ofNat v.toNat)
          else Reader.fail .varintTooLong) bs ∧
      readUInt64 bs = (gather 10 0 0#64 >>= fun v => pure (UInt64.ofBitVec v)) bs := by
  have exact32 : Exact UInt32.toNat (2 ^ 32) 5 bs (readUInt32 bs) :=
    exact_readBelow (fun _ below => UInt32.toNat_ofNat_of_lt' below)
      (fun _ => UInt32.ofNat_toNat) bs
  have exact64 : Exact UInt64.toNat (2 ^ 64) 10 bs (readUInt64 bs) :=
    exact_readBelow (fun _ below => UInt64.toNat_ofNat_of_lt' below)
      (fun _ => UInt64.ofNat_toNat) bs
  refine ⟨exact32, exact64, ?_, congrFun readUInt32_eq_gather bs,
    congrFun readUInt64_eq_gather bs⟩
  intro rest
  rw [exact64.tooLong_iff, refused_iff_tenth]

/-- The tenth group has room for one bit. -/
example :
    readUInt64 (List.replicate 9 0xff ++ [1]) = (.ok 18446744073709551615, []) ∧
      readUInt64 (List.replicate 9 0xff ++ [2, 0]) = (.error .varintTooLong, [0]) := by
  decide +kernel

end Varint

end LogBroker.Wire
