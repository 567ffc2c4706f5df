import Mathlib

/-!
# Products in binary64

A positive number in binary64 is a mantissa of 53 bits and an exponent of two. The product of two
such numbers has more bits than that, and is rounded to the nearest number that has not
(`Binary64.Near`); a tie is broken so that the last bit is zero, which does not matter here.

`Float.Model` says what the operations do with the bits. Main statement: the whole part of a
product of two numbers that are not too large is that of a number within half a unit of the exact
product (`Binary64.toUInt64_mul`).
-/

namespace LogBroker.Binary64

open Float.Model UnpackedFloat

/-- `y` is no more than half a unit away from `x`. -/
def Near (x y unit : Nat) : Prop := 2 * x ≤ 2 * y + unit ∧ 2 * y ≤ 2 * x + unit

/-- The mantissa has all its bits. -/
def Full (m : Nat) : Prop := 2 ^ 52 ≤ m ∧ m < 2 ^ 53

instance (m : Nat) : Decidable (Full m) := inferInstanceAs (Decidable (_ ∧ _))

theorem Full.pos {m : Nat} (h : Full m) : 0 < m := Nat.lt_of_lt_of_le (by decide) h.1

/-! ## Shifting -/

section

variable {m k : Nat} {em : ExtendedMantissa}

/-- What is left of `m` without its lowest `k` bits. The first of these is kept as the round bit,
and whether there is any other, as the sticky bit: together they tell on which side of one half
the bits lie. -/
structure Shifted (m k : Nat) (em : ExtendedMantissa) : Prop where
  /-- the higher bits -/
  mantissa : em.mantissa = m / 2 ^ k
  /-- the lower ones are one half or more -/
  round : em.roundBit = true ↔ 2 ^ k ≤ 2 * (m % 2 ^ k)
  /-- they are neither zero nor one half -/
  sticky : em.stickyBit = true ↔ 2 * (m % 2 ^ k) ≠ 0 ∧ 2 * (m % 2 ^ k) ≠ 2 ^ k

theorem Shifted.one (h : Shifted m k em) : Shifted m (k + 1) em.shiftRightOne := by
  have pos : 0 < 2 ^ k := Nat.two_pow_pos k
  have small : m % 2 ^ k < 2 ^ k := Nat.mod_lt m pos
  have residue : m % 2 ^ (k + 1) = m % 2 ^ k + 2 ^ k * (m / 2 ^ k % 2) := by
    rw [Nat.pow_succ, Nat.mod_mul]
  have bit : m / 2 ^ k % 2 = 0 ∨ m / 2 ^ k % 2 = 1 := Nat.mod_two_eq_zero_or_one _
  constructor
  · rw [ExtendedMantissa.shiftRightOne, h.mantissa, Nat.div_div_eq_div_mul, Nat.pow_succ]
  · rw [ExtendedMantissa.shiftRightOne, h.mantissa, residue, Nat.pow_succ, bne_iff_ne]
    rcases bit with bit | bit <;> rw [bit] <;> omega
  · rw [ExtendedMantissa.shiftRightOne, Bool.or_eq_true, h.round, h.sticky, residue, Nat.pow_succ]
    rcases bit with bit | bit <;> rw [bit] <;> omega

theorem shifted (m k : Nat) : Shifted m k ((⟨m, false, false⟩ : ExtendedMantissa) >>> k) := by
  induction k with
  | zero => constructor <;> simp [HShiftRight.hShiftRight, Nat.repeat, Nat.mod_one]
  | succ k ih => exact ih.one

/-- Rounding goes to the nearest mantissa. The cases are those of the two bits. -/
theorem Shifted.near (h : Shifted m k em) : Near m (em.roundedMantissa * 2 ^ k) (2 ^ k) := by
  have whole := Nat.div_add_mod m (2 ^ k)
  have small : m % 2 ^ k < 2 ^ k := Nat.mod_lt m (Nat.two_pow_pos k)
  obtain ⟨mantissa, round, sticky⟩ := h
  rw [← mantissa, Nat.mul_comm] at whole
  obtain ⟨q, r, s⟩ := em
  have more : (q + 1) * 2 ^ k = q * 2 ^ k + 2 ^ k := Nat.succ_mul q (2 ^ k)
  cases r <;> cases s <;>
    simp only [Bool.false_eq_true, false_iff, true_iff, Nat.not_le, not_and_or, not_not]
      at whole round sticky
  · show Near m (q * 2 ^ k) (2 ^ k)
    constructor <;> omega
  · show Near m (q * 2 ^ k) (2 ^ k)
    constructor <;> omega
  · -- a tie, which is as far from the one side as from the other
    show Near m ((q + q % 2) * 2 ^ k) (2 ^ k)
    rcases Nat.mod_two_eq_zero_or_one q with even | odd
    · rw [even, Nat.add_zero]
      constructor <;> omega
    · rw [odd, more]
      constructor <;> omega
  · show Near m ((q + 1) * 2 ^ k) (2 ^ k)
    rw [more]
    constructor <;> omega

/-- What is near a number with so many bits has so many, or is the next power of two. -/
theorem Near.bounds {x unit : Nat} (h : Near m (x * unit) unit) (pos : 0 < unit)
    (low : 2 ^ 52 * unit ≤ m) (high : m < 2 ^ 53 * unit) : 2 ^ 52 ≤ x ∧ x ≤ 2 ^ 53 := by
  obtain ⟨below, above⟩ := h
  constructor
  · by_contra few
    have next := Nat.mul_le_mul_right unit (Nat.succ_le_of_lt (Nat.lt_of_not_le few))
    rw [Nat.succ_mul] at next
    omega
  · by_contra many
    have next := Nat.mul_le_mul_right unit (Nat.succ_le_of_lt (Nat.lt_of_not_le many))
    rw [Nat.succ_mul] at next
    omega

end

/-! ## Rounding -/

section

variable {m t : Nat} {e : Int}

/-- A mantissa of `t` bits too many goes with an exponent that is `t` too small. -/
theorem targetExponent_eq (low : 2 ^ (52 + t) ≤ m) (high : m < 2 ^ (53 + t)) (he : -1074 ≤ e) :
    Format.binary64.targetExponent (totalExponent m e) = e + t := by
  have pos : m ≠ 0 := by
    rintro rfl
    exact absurd low (Nat.not_le.mpr (Nat.two_pow_pos _))
  have bits : m.log2 = 52 + t := by
    refine (Nat.log2_eq_iff pos).mpr ⟨low, ?_⟩
    rwa [Nat.add_right_comm]
  simp only [Format.targetExponent, totalExponent, bits, Format.mantissaBits, Format.minExponent]
  norm_num
  omega

theorem shiftToTargetExponent_eq (low : 2 ^ (52 + t) ≤ m) (high : m < 2 ^ (53 + t))
    (he : -1074 ≤ e) :
    shiftToTargetExponent .binary64 m e .exact =
      ((⟨m, false, false⟩ : ExtendedMantissa) >>> t, e + t) := by
  have amount : (e + t - e).toNat = t := by omega
  simp only [shiftToTargetExponent, targetExponent_eq low high he, shiftToExponent, amount]
  rfl

/-- A number is shifted before it is rounded and after. -/
theorem roundWithAccuracy_of_shifts {em em' : ExtendedMantissa} {e₁ e₂ : Int}
    (first : shiftToTargetExponent .binary64 m e .exact = (em, e₁))
    (second : shiftToTargetExponent .binary64 em.roundedMantissa e₁ .exact = (em', e₂))
    (full : Full em'.mantissa) :
    roundWithAccuracy .binary64 .positive m e .exact =
      .finite .positive em'.mantissa e₂ full.pos := by
  simp only [roundWithAccuracy, first, second]
  exact dif_neg full.pos.ne'

/-- A mantissa that has 53 bits is not rounded. -/
theorem roundWithAccuracy_full (h : Full m) (he : -1074 ≤ e) :
    roundWithAccuracy .binary64 .positive m e .exact = .finite .positive m e h.pos := by
  have shift : shiftToTargetExponent .binary64 m e .exact =
      ((⟨m, false, false⟩ : ExtendedMantissa), e) := by
    rw [shiftToTargetExponent_eq (t := 0) h.1 h.2 he]
    exact congrArg _ (Int.add_zero e)
  exact roundWithAccuracy_of_shifts shift shift h

/-- A mantissa that has more is rounded to the nearest one that has 53, in units of the last bit
that is left. One bit more is shifted out if rounding has made a power of two. -/
theorem roundWithAccuracy_eq (low : 2 ^ (52 + t) ≤ m) (high : m < 2 ^ (53 + t))
    (he : -1074 ≤ e) :
    ∃ (r d : Nat) (full : Full r), d ≤ 1 ∧
      roundWithAccuracy .binary64 .positive m e .exact = .finite .positive r (e + t + d) full.pos ∧
      Near m (r * 2 ^ d * 2 ^ t) (2 ^ t) := by
  have near := (shifted m t).near
  have first := shiftToTargetExponent_eq low high he
  rw [Nat.pow_add] at low high
  obtain ⟨atLeast, atMost⟩ := near.bounds (Nat.two_pow_pos t) low high
  generalize (⟨m, false, false⟩ : ExtendedMantissa) >>> t = em at *
  rcases Nat.lt_or_eq_of_le atMost with few | carry
  · have full : Full em.roundedMantissa := ⟨atLeast, few⟩
    have second := shiftToTargetExponent_eq (t := 0) atLeast few (by omega : -1074 ≤ e + t)
    exact ⟨em.roundedMantissa, 0, full, Nat.zero_le 1,
      roundWithAccuracy_of_shifts first second full, by rwa [Nat.pow_zero, Nat.mul_one]⟩
  · have full : Full (2 ^ 52) := by decide
    have second : shiftToTargetExponent .binary64 em.roundedMantissa (e + t) .exact =
        ((⟨2 ^ 53, false, false⟩ : ExtendedMantissa) >>> 1, e + t + (1 : Nat)) := by
      rw [carry]
      exact shiftToTargetExponent_eq (by decide) (by decide) (by omega)
    rw [carry] at near
    exact ⟨2 ^ 52, 1, full, Nat.le_refl 1, roundWithAccuracy_of_shifts first second full, near⟩

end

/-! ## Packing -/

section

variable {m : Nat} {e : Int}

theorem unpackSign_packComponents (exponent : BitVec 11) (mantissa : BitVec 52) :
    unpackSign (packComponents .binary64 .positive exponent mantissa) = 0#1 := by
  have top : (0#1 ++ exponent ++ mantissa).getLsbD 63 = false := by
    rw [BitVec.getLsbD_append, BitVec.getLsbD_append]
    rfl
  apply BitVec.eq_of_getLsbD_eq
  intro i hi
  obtain rfl : i = 0 := by omega
  rw [unpackSign, BitVec.getLsbD_cast, BitVec.getLsbD_extractLsb]
  exact Bool.and_eq_false_imp.mpr fun _ => top

/-- The highest bit of the mantissa is not kept. -/
theorem pack_eq (h : Full m) (low : -1074 ≤ e) (high : e ≤ 971) :
    UnpackedFloat.pack .binary64 (.finite .positive m e h.pos) =
      packComponents .binary64 .positive (BitVec.ofNat 11 (e + 1075).toNat)
        (BitVec.ofNat 52 m) := by
  have bits : m.log2 + 1 = Format.binary64.mantissaBits := by
    rw [(Nat.log2_eq_iff h.pos.ne').mpr h]
    rfl
  have biased : (e + Format.binary64.exponentBias + (52 : Nat)).toNat = (e + 1075).toNat := by
    rw [show Format.binary64.exponentBias = 1023 from rfl]
    omega
  have inRange : ¬ 2 ^ 11 ≤ (e + 1075).toNat + 1 := by omega
  simp only [UnpackedFloat.pack, biased]
  rw [if_neg inRange, if_pos bits]

/-- It is there again when the mantissa is unpacked. -/
theorem toNat_implicit_append (h : Full m) : (1#1 ++ BitVec.ofNat 52 m).toNat = m := by
  obtain ⟨low, high⟩ := h
  rw [BitVec.toNat_append, ← Nat.shiftLeft_add_eq_or_of_lt (BitVec.isLt _), BitVec.toNat_ofNat]
  show 2 ^ 52 + m % 2 ^ 52 = m
  omega

/-- A number whose exponent is not too large or too small is packed without loss. -/
theorem unpack_pack (h : Full m) (low : -1074 ≤ e) (high : e ≤ 971) :
    (Float.Model.pack (.finite .positive m e h.pos)).unpack = .finite .positive m e h.pos := by
  have exponent : (BitVec.ofNat 11 (e + 1075).toNat).toNat = (e + 1075).toNat := by
    rw [BitVec.toNat_ofNat, Nat.mod_eq_of_lt (by omega)]
  have notHighest : BitVec.ofNat 11 (e + 1075).toNat ≠ -1#11 := by
    intro same
    have bits : (BitVec.ofNat 11 (e + 1075).toNat).toNat = 2047 := congrArg BitVec.toNat same
    omega
  have notLowest : BitVec.ofNat 11 (e + 1075).toNat ≠ 0#11 := by
    intro same
    have bits : (BitVec.ofNat 11 (e + 1075).toNat).toNat = 0 := congrArg BitVec.toNat same
    omega
  have unbiased :
      ((e + 1075).toNat : Int) - (Format.binary64.exponentBias + (52 : Nat)) = e := by
    rw [show Format.binary64.exponentBias = 1023 from rfl]
    omega
  rw [Float.Model.unpack, Float.Model.pack]
  simp only [pack_eq h low high, UnpackedFloat.unpack, unpackMantissa_packComponents,
    unpackExponent_packComponents, unpackSign_packComponents, notHighest, notLowest, if_false,
    exponent, toNat_implicit_append h, unbiased]
  rfl

end

/-! ## From whole numbers and back -/

/-- A number of no more than 53 bits is shifted up and not rounded. -/
theorem ofNat_eq {n : Nat} (pos : 0 < n) (h : n < 2 ^ 53) :
    ∃ (s : Nat) (full : Full (n * 2 ^ s)),
      UnpackedFloat.ofNat .binary64 n = .finite .positive (n * 2 ^ s) (-s) full.pos := by
  have bits : n.log2 ≤ 52 := Nat.le_of_lt_succ ((Nat.log2_lt pos.ne').mpr h)
  obtain ⟨s, hs⟩ : ∃ s, n.log2 + s = 52 := ⟨52 - n.log2, Nat.add_sub_cancel' bits⟩
  have full : Full (n * 2 ^ s) := by
    constructor
    · rw [← hs, Nat.pow_add]
      exact Nat.mul_le_mul_right _ (Nat.log2_self_le pos.ne')
    · rw [show 53 = n.log2 + 1 + s by omega, Nat.pow_add]
      exact Nat.mul_lt_mul_of_pos_right Nat.lt_log2_self (Nat.two_pow_pos s)
  have sign : compare (n : Int) 0 = .gt := by
    rw [compare_gt_iff_gt]
    omega
  have target : Format.binary64.targetExponent (totalExponent n 0) = -s := by
    simp only [Format.targetExponent, totalExponent, Format.mantissaBits, Format.minExponent]
    norm_num
    omega
  have amount : (0 - -(s : Int)).toNat = s := by omega
  refine ⟨s, full, ?_⟩
  simp only [UnpackedFloat.ofNat, UnpackedFloat.ofInt, UnpackedFloat.normalize, sign,
    UnpackedFloat.round, Int.toNat_natCast, target, decreaseExponent, amount, Nat.shiftLeft_eq]
  rw [Int.zero_sub]
  exact roundWithAccuracy_full full (by omega)

/-- What lies behind the point is cut off. -/
theorem toUInt64_finite {m : Nat} (h : Full m) (k : Nat) :
    (UnpackedFloat.finite .positive m (-k) h.pos).toUInt64.toNat = m / 2 ^ k := by
  have small : m / 2 ^ k < 2 ^ 64 :=
    Nat.lt_of_le_of_lt (Nat.div_le_self m (2 ^ k)) (Nat.lt_trans h.2 (by decide))
  have whole : (-(k : Int) - 0).toNat = 0 := by omega
  have cut : (0 - (-(k : Int) - (0 : Nat))).toNat = k := by omega
  have number : (UnpackedFloat.finite .positive m (-k) h.pos).toInt 0 (UInt64.size - 1) =
      (m / 2 ^ k : Nat) := by
    simp only [UnpackedFloat.toInt, roundToInt, decreaseExponent, whole, shiftToExponent, cut,
      Nat.shiftLeft_zero]
    exact congrArg Int.ofNat (shifted m k).mantissa
  rw [UnpackedFloat.toUInt64, number, Int.toNat_natCast, UInt64.toNat_ofNatClamp_of_lt small]

/-- A whole number of no more than 53 bits is exact as a float. -/
theorem unpack_toFloat {n : Nat} (pos : 0 < n) (h : n < 2 ^ 53) :
    ∃ (s : Nat) (full : Full (n * 2 ^ s)), s ≤ 52 ∧
      (UInt64.ofNat n).toFloat.toModel.unpack = .finite .positive (n * 2 ^ s) (-s) full.pos := by
  obtain ⟨s, full, number⟩ := ofNat_eq pos h
  have few : s ≤ 52 := by
    by_contra many
    have large := Nat.pow_le_pow_right (n := 2) (by decide) (Nat.lt_of_not_le many)
    have bound := full.2
    exact absurd bound (Nat.not_lt.mpr (Nat.le_trans large (Nat.le_mul_of_pos_left _ pos)))
  have same : (UInt64.ofNat n).toNat = n :=
    UInt64.toNat_ofNat_of_lt' (Nat.lt_trans h (by decide))
  refine ⟨s, full, few, ?_⟩
  rw [← unpack_pack full (by omega) (by omega), ← number]
  show (Float.Model.pack (.ofNat _ (UInt64.ofNat n).toNat)).unpack = _
  rw [same]

/-- **The whole part of a product** is that of a number near the exact product, which is a multiple
of the unit that the rounding leaves. -/
theorem toUInt64_mul {a b : Float} {m m' j j' : Nat} (hm : Full m) (hm' : Full m')
    (ha : a.toModel.unpack = .finite .positive m (-j) hm.pos)
    (hb : b.toModel.unpack = .finite .positive m' (-j') hm'.pos)
    (low : 54 ≤ j + j') (high : j + j' ≤ 1074) :
    ∃ x unit, (unit = 2 ^ 52 ∨ unit = 2 ^ 53) ∧ Near (m * m') (x * unit) unit ∧
      (a * b).toUInt64.toNat = x * unit / 2 ^ (j + j') := by
  have least := Nat.mul_le_mul hm.1 hm'.1
  have most := Nat.mul_lt_mul'' hm.2 hm'.2
  obtain ⟨t, ht, lower, upper⟩ :
      ∃ t, (t = 52 ∨ t = 53) ∧ 2 ^ (52 + t) ≤ m * m' ∧ m * m' < 2 ^ (53 + t) := by
    rcases Nat.lt_or_ge (m * m') (2 ^ 105) with few | many
    · exact ⟨52, .inl rfl, least, few⟩
    · exact ⟨53, .inr rfl, many, most⟩
  obtain ⟨r, d, full, small, rounded, near⟩ :=
    roundWithAccuracy_eq lower upper (by omega : -1074 ≤ -(j : Int) + -(j' : Int))
  obtain ⟨k, hk⟩ : ∃ k, k + (d + t) = j + j' := ⟨j + j' - (d + t), by omega⟩
  have exponent : -(j : Int) + -(j' : Int) + t + d = -k := by omega
  have product : (a * b).toUInt64.toNat = r / 2 ^ k := by
    rw [← toUInt64_finite full, ← unpack_pack full (by omega) (by omega), ← exponent, ← rounded]
    show (Float.Model.pack
      (UnpackedFloat.mul _ a.toModel.unpack b.toModel.unpack)).unpack.toUInt64.toNat = _
    rw [ha, hb]
    rfl
  refine ⟨r * 2 ^ d, 2 ^ t, ht.imp (congrArg _) (congrArg _), near, ?_⟩
  rw [product, ← hk, Nat.pow_add, Nat.pow_add, Nat.mul_assoc r,
    Nat.mul_div_mul_right _ _ (Nat.mul_pos (Nat.two_pow_pos d) (Nat.two_pow_pos t))]

end LogBroker.Binary64
