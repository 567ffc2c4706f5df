import LogBroker.Proofs.Wire.ReadBack

/-!
# The forms of a variable-length number

Any number of groups without bits may stand above the groups that a number needs, so it has
many forms. `Varint.Spells` says which strings of groups spell a number, `Varint.groups` is
the one that an input begins with.

* Reading accepts every form and forgets which one it was (`spells_of_readUInt32` and the
  like).
* Writing gives a form than which none is shorter (`Spells.length_write_le`), and it is the
  only one of its length (`Spells.eq_write`). So a form is written again just if it is
  `Shortest` (`Spells.write_eq_iff`).
-/

namespace LogBroker.Wire

open Reader

namespace Varint

/-- The groups spell the number, the lowest group first. -/
inductive Spells : Bytes → Nat → Prop where
  /-- the last group has a clear high bit -/
  | last {b : UInt8} (h : b.toNat < 128) : Spells [b] b.toNat
  /-- a group with a set high bit has others above it -/
  | more {b : UInt8} {higher : Bytes} {n : Nat} (h : 128 ≤ b.toNat) (hn : Spells higher n) :
      Spells (b :: higher) (b.toNat - 128 + 128 * n)

/-- The groups that an input begins with, up to the first with a clear high bit. -/
def groups : Bytes → Bytes
  | [] => []
  | b :: bs => if b.toNat < 128 then [b] else b :: groups bs

/-- The groups spell a number, and no fewer groups spell it. -/
def Shortest (bytes : Bytes) : Prop :=
  ∃ n, Spells bytes n ∧ ∀ other, Spells other n → bytes.length ≤ other.length

/-! ## Writing -/

theorem spells_write (n : Nat) : Spells (write n) n := by
  have toNat_byte {n : Nat} (h : n < 256) : (UInt8.ofNat n).toNat = n :=
    UInt8.toNat_ofNat_of_lt' h
  induction n using Nat.strongRecOn with
  | ind n ih =>
    rw [write]
    split
    next small =>
      have byte := toNat_byte (by omega : n < 256)
      have spelled := Spells.last (b := UInt8.ofNat n) (by rwa [byte])
      rwa [byte] at spelled
    next big =>
      have byte := toNat_byte (by omega : n % 128 + 128 < 256)
      have spelled := Spells.more (b := UInt8.ofNat (n % 128 + 128)) (by omega)
        (ih (n / 128) (by omega))
      have sum : n % 128 + 128 - 128 + 128 * (n / 128) = n := by omega
      rwa [byte, sum] at spelled

section

variable {bytes : Bytes} {n : Nat}

theorem Spells.length_pos (h : Spells bytes n) : 0 < bytes.length := by
  cases h with
  | last _ => exact Nat.one_pos
  | more _ _ => exact Nat.succ_pos _

/-- Groups have room for seven bits each. -/
theorem Spells.lt (h : Spells bytes n) : n < 128 ^ bytes.length := by
  induction h with
  | last small => exact small
  | @more b higher n big hn ih =>
    have bound := b.toNat_lt
    rw [List.length_cons, Nat.pow_succ]
    omega

/-- A number above a group is written behind the group, unless nothing is above it. -/
theorem write_more {b : UInt8} (h : 128 ≤ b.toNat) (hn : 0 < n) :
    write (b.toNat - 128 + 128 * n) = b :: write n := by
  have bound := b.toNat_lt
  have low : (b.toNat - 128 + 128 * n) % 128 + 128 = b.toNat := by omega
  have high : (b.toNat - 128 + 128 * n) / 128 = n := by omega
  rw [write, if_neg (by omega), low, high, UInt8.ofNat_toNat]

/-- No form of a number is shorter than the one that is written. -/
theorem Spells.length_write_le (h : Spells bytes n) : (write n).length ≤ bytes.length := by
  induction h with
  | @last b small =>
    rw [write, if_pos small]
    exact Nat.le_refl 1
  | @more b higher n big hn ih =>
    rcases Nat.eq_zero_or_pos n with rfl | above
    · have bound := b.toNat_lt
      rw [write, if_pos (by omega)]
      exact Nat.succ_pos _
    · rw [write_more big above]
      exact Nat.succ_le_succ ih

/-- No other form of a number is as short as the one that is written. -/
theorem Spells.eq_write (h : Spells bytes n) (short : bytes.length ≤ (write n).length) :
    write n = bytes := by
  induction h with
  | @last b small => rw [write, if_pos small, UInt8.ofNat_toNat]
  | @more b higher n big hn ih =>
    rcases Nat.eq_zero_or_pos n with rfl | above
    · -- the groups above spell nothing and could have been left out
      have bound := b.toNat_lt
      have needless := hn.length_pos
      rw [write, if_pos (by omega), List.length_cons, List.length_singleton] at short
      omega
    · rw [write_more big above] at short ⊢
      rw [ih (Nat.le_of_succ_le_succ short)]

/-! ## Reading -/

/-- Groups spell one number. -/
theorem Spells.unique (h : Spells bytes n) {m : Nat} (hm : Spells bytes m) : n = m := by
  induction h generalizing m with
  | last small =>
    cases hm with
    | last _ => rfl
    | more big _ => omega
  | more big hn ih =>
    cases hm with
    | last small => omega
    | more _ hm => rw [ih hm]

/-- **Only the shortest form is written again.** -/
theorem Spells.write_eq_iff (h : Spells bytes n) : write n = bytes ↔ Shortest bytes := by
  constructor
  · rintro rfl
    exact ⟨n, h, fun other ho => ho.length_write_le⟩
  · rintro ⟨m, hm, least⟩
    obtain rfl := h.unique hm
    exact h.eq_write (least _ (spells_write n))

end

section

variable {bs rest : Bytes}

/-- A number is read from the groups that the input begins with. -/
theorem spells_of_readGroups {k n : Nat} (h : readGroups k bs = (.ok n, rest)) :
    bs = groups bs ++ rest ∧ Spells (groups bs) n := by
  induction k generalizing bs n with
  | zero => cases h
  | succ k ih =>
    rw [readGroups] at h
    obtain ⟨b, mid, hb, hn⟩ := bind_eq_ok h
    cases bs with
    | nil => cases hb
    | cons c cs =>
      cases hb
      rw [groups]
      split at hn
      next small =>
        cases hn
        rw [if_pos small]
        exact ⟨rfl, Spells.last small⟩
      next big =>
        obtain ⟨higher, left, hhigher, hpure⟩ := bind_eq_ok hn
        cases hpure
        obtain ⟨split', spelled⟩ := ih hhigher
        rw [if_neg big, List.cons_append, ← split']
        exact ⟨rfl, Spells.more (Nat.le_of_not_lt big) spelled⟩

theorem spells_of_readBelow {bound k n : Nat} (h : readBelow bound k bs = (.ok n, rest)) :
    bs = groups bs ++ rest ∧ Spells (groups bs) n ∧ n < bound := by
  obtain ⟨m, mid, hm, hn⟩ := bind_eq_ok h
  split at hn
  next below =>
    cases hn
    obtain ⟨split', spelled⟩ := spells_of_readGroups hm
    exact ⟨split', spelled, below⟩
  next => cases hn

theorem spells_of_readUInt32 {n : UInt32} (h : readUInt32 bs = (.ok n, rest)) :
    bs = groups bs ++ rest ∧ Spells (groups bs) n.toNat := by
  obtain ⟨m, mid, hm, hn⟩ := bind_eq_ok h
  obtain ⟨split', spelled, below⟩ := spells_of_readBelow hm
  cases hn
  rw [UInt32.toNat_ofNat_of_lt' below]
  exact ⟨split', spelled⟩

theorem spells_of_readUInt64 {n : UInt64} (h : readUInt64 bs = (.ok n, rest)) :
    bs = groups bs ++ rest ∧ Spells (groups bs) n.toNat := by
  obtain ⟨m, mid, hm, hn⟩ := bind_eq_ok h
  obtain ⟨split', spelled, below⟩ := spells_of_readBelow hm
  cases hn
  rw [UInt64.toNat_ofNat_of_lt' below]
  exact ⟨split', spelled⟩

end

end Varint

namespace Zigzag

/-- **The sign's detour reaches every word.** -/
theorem encode_decode {w : Nat} (u : BitVec w) : encode (decode u) = u := by
  have bit {i : Nat} (h : i < w) :
      (decode u).getLsbD i = (u.getLsbD (i + 1) ^^ u.getLsbD 0) := by
    rw [decode, neg_and_one, BitVec.getLsbD_xor, BitVec.getLsbD_ushiftRight, Nat.add_comm]
    cases u.getLsbD 0 <;> simp [h]
  apply BitVec.eq_of_getLsbD_eq
  intro i hi
  -- the sign of the value is the lowest bit, so it is flipped in and out of all others
  have sign : (decode u).msb = u.getLsbD 0 := by
    rw [BitVec.msb_eq_getLsbD_last, bit (by omega), BitVec.getLsbD_of_ge _ _ (by omega),
      Bool.false_xor]
  cases i with
  | zero => rw [getLsbD_encode_zero hi, sign]
  | succ i =>
    rw [getLsbD_encode_succ _ hi, bit (by omega), sign, Bool.xor_assoc, Bool.xor_self,
      Bool.xor_false]

section

variable {bs rest : Bytes}

/-- The number whose groups are written for a signed value. -/
theorem spells_of_readInt32 {v : Int32} (h : readInt32 bs = (.ok v, rest)) :
    bs = Varint.groups bs ++ rest ∧
      Varint.Spells (Varint.groups bs) (UInt32.ofBitVec (encode v.toBitVec)).toNat := by
  obtain ⟨u, mid, hu, hv⟩ := bind_eq_ok h
  cases hv
  rw [show (Int32.ofBitVec (decode u.toBitVec)).toBitVec = decode u.toBitVec from rfl,
    encode_decode]
  exact Varint.spells_of_readUInt32 hu

theorem spells_of_readInt64 {v : Int64} (h : readInt64 bs = (.ok v, rest)) :
    bs = Varint.groups bs ++ rest ∧
      Varint.Spells (Varint.groups bs) (UInt64.ofBitVec (encode v.toBitVec)).toNat := by
  obtain ⟨u, mid, hu, hv⟩ := bind_eq_ok h
  cases hv
  rw [show (Int64.ofBitVec (decode u.toBitVec)).toBitVec = decode u.toBitVec from rfl,
    encode_decode]
  exact Varint.spells_of_readUInt64 hu

end

end Zigzag

end LogBroker.Wire
