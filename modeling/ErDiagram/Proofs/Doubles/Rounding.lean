import Mathlib

/-! How doubles are rounded. A finite double stands for its mantissa times a power of two, and
magnitudes are counted in units of the least double, `2 ^ -1074`, so that they are natural
numbers. -/

namespace ErDiagram.Double

open Float.Model
open Float.Model.UnpackedFloat hiding unpack pack

/-- The mantissa and exponent fit a double, the exponent not being too large: all 53 bits of the
mantissa are used, or the exponent is the least one. -/
structure IsRounded (m : Nat) (e : Int) : Prop where
  mantissa_lt : m < 2 ^ 53
  le_exponent : -1074 ≤ e
  isFull : 2 ^ 52 ≤ m ∨ e = -1074

/-! ### Bits -/

theorem exponentBias_add : (Format.exponentBias .binary64 : Int) + (52 : Nat) = 1075 := by decide

/-- A normal double has a bit that is not written in front of its mantissa. -/
theorem toNat_one_append (b : BitVec 52) : (1#1 ++ b).toNat = 2 ^ 52 + b.toNat := by
  rw [BitVec.toNat_append, ← Nat.shiftLeft_add_eq_or_of_lt b.isLt]
  simp

theorem isRounded_of_unpack {b : BitVec (Format.numBits .binary64)} {s : Sign} {m : Nat} {e : Int}
    {h : 0 < m} (hUnpack : UnpackedFloat.unpack .binary64 b = .finite s m e h) :
    IsRounded m e ∧ e ≤ 971 := by
  have hm : (unpackMantissa b).toNat < 2 ^ 52 := (unpackMantissa b).isLt
  have he : (unpackExponent b).toNat < 2 ^ 11 := (unpackExponent b).isLt
  unfold UnpackedFloat.unpack at hUnpack
  dsimp only at hUnpack
  split at hUnpack
  · split at hUnpack <;> cases hUnpack
  · rename_i hOnes
    split at hUnpack
    · rename_i hZeros
      split at hUnpack <;> cases hUnpack
      rw [hZeros]
      exact ⟨⟨Nat.lt_trans hm (by decide), by decide, Or.inr rfl⟩, by decide⟩
    · rename_i hZeros
      cases hUnpack
      have hNotZeros : (unpackExponent b).toNat ≠ 0 := fun h => hZeros (BitVec.eq_of_toNat_eq h)
      have hNotOnes : (unpackExponent b).toNat ≠ 2047 := fun h => hOnes (BitVec.eq_of_toNat_eq h)
      rw [toNat_one_append, exponentBias_add]
      exact ⟨⟨by omega, by omega, Or.inl (by omega)⟩, by omega⟩

/-- What a sign, an exponent and a mantissa stand for that were written next to each other. -/
theorem unpack_packComponents (s : Sign) (e : BitVec 11) (m : BitVec 52) :
    UnpackedFloat.unpack .binary64 (packComponents .binary64 s e m) =
      if e = -1#11 then if m = 0#52 then .infinity s else .notANumber
      else if e = 0#11 then
        if h : m = 0#52 then .zero s
        else .finite s m.toNat (-1074) (by simpa [BitVec.toNat_pos, BitVec.pos_iff_ne_zero] using h)
      else .finite s (2 ^ 52 + m.toNat) (e.toNat - 1075) (by omega) := by
  simp only [UnpackedFloat.unpack, unpackMantissa_packComponents, unpackExponent_packComponents,
    unpackSign_packComponents, Sign.ofBitVec_toBitVec]
  split
  · rfl
  · split
    · rename_i hZeros
      subst hZeros
      rfl
    · rw [finite.injEq]
      exact ⟨rfl, toNat_one_append m, by rw [exponentBias_add]⟩

theorem unpack_pack_infinity (s : Sign) :
    UnpackedFloat.unpack .binary64 (UnpackedFloat.pack .binary64 (.infinity s)) = .infinity s :=
  unpack_packComponents s _ _

theorem unpack_pack_zero (s : Sign) :
    UnpackedFloat.unpack .binary64 (UnpackedFloat.pack .binary64 (.zero s)) = .zero s :=
  unpack_packComponents s _ _

theorem pack_finite (s : Sign) {m : Nat} {e : Int} (hm : 0 < m) :
    UnpackedFloat.pack .binary64 (.finite s m e hm) =
      if 971 < e then packedInfinity .binary64 s
      else if m.log2 = 52 then
        packComponents .binary64 s (BitVec.ofNat 11 (e + 1075).toNat) (BitVec.ofNat 52 m)
      else packComponents .binary64 s 0#11 (BitVec.ofNat 52 m) := by
  have hBiased : e + (Format.exponentBias .binary64 : Int) + (52 : Nat) = e + 1075 := by
    rw [Int.add_assoc, exponentBias_add]
  have hBits : Format.mantissaBits .binary64 = 53 := by decide
  simp only [UnpackedFloat.pack, hBiased, hBits]
  congr 1
  · rw [eq_iff_iff]
    omega
  · congr 1
    simp

/-- A rounded number is read back, unless it is too large. -/
theorem unpack_pack_finite (s : Sign) {m : Nat} {e : Int} (hm : 0 < m) (h : IsRounded m e) :
    UnpackedFloat.unpack .binary64 (UnpackedFloat.pack .binary64 (.finite s m e hm)) =
      if 971 < e then .infinity s else .finite s m e hm := by
  obtain ⟨hLess, hLeast, hFull⟩ := h
  rw [pack_finite]
  split
  · exact unpack_pack_infinity s
  by_cases hNormal : 2 ^ 52 ≤ m
  · have hLog : m.log2 = 52 := (Nat.log2_eq_iff hm.ne').2 ⟨hNormal, hLess⟩
    have hExponent : (BitVec.ofNat 11 (e + 1075).toNat).toNat = (e + 1075).toNat := by
      rw [BitVec.toNat_ofNat, Nat.mod_eq_of_lt (by omega)]
    have hMantissa : (BitVec.ofNat 52 m).toNat = m - 2 ^ 52 := by
      rw [BitVec.toNat_ofNat]
      omega
    have hNotOnes : BitVec.ofNat 11 (e + 1075).toNat ≠ -1#11 :=
      BitVec.toNat_ne.2 (by rw [hExponent, BitVec.neg_one_eq_allOnes, BitVec.toNat_allOnes]; omega)
    have hNotZeros : BitVec.ofNat 11 (e + 1075).toNat ≠ 0#11 :=
      BitVec.toNat_ne.2 (by rw [hExponent, BitVec.toNat_ofNat]; omega)
    rw [if_pos hLog, unpack_packComponents, if_neg hNotOnes, if_neg hNotZeros, finite.injEq,
      hExponent, hMantissa]
    exact ⟨rfl, by omega, by omega⟩
  · have hLog : m.log2 ≠ 52 := by
      have := (Nat.log2_lt hm.ne').2 (Nat.lt_of_not_le hNormal)
      omega
    have hMantissa : (BitVec.ofNat 52 m).toNat = m := by
      rw [BitVec.toNat_ofNat]
      omega
    have hNotZeros : BitVec.ofNat 52 m ≠ 0#52 :=
      BitVec.toNat_ne.2 (by rw [hMantissa, BitVec.toNat_ofNat]; omega)
    rw [if_neg hLog, unpack_packComponents, if_neg (by decide), if_pos rfl, dif_neg hNotZeros,
      finite.injEq]
    exact ⟨rfl, hMantissa, (hFull.resolve_left hNormal).symm⟩

/-! ### Magnitudes -/

/-- The number `m * 2 ^ e` in units of the least double. -/
def magnitude (m : Nat) (e : Int) : Nat := m * 2 ^ (e + 1074).toNat

theorem magnitude_pos {m : Nat} (hm : 0 < m) (e : Int) : 0 < magnitude m e :=
  Nat.mul_pos hm (Nat.two_pow_pos _)

theorem magnitude_le {m m' : Nat} {e e' : Int} (hm : m ≤ m') (he : e ≤ e') :
    magnitude m e ≤ magnitude m' e' :=
  Nat.mul_le_mul hm (Nat.pow_le_pow_right (by decide) (by omega))

theorem magnitude_carry {e : Int} (he : -1074 ≤ e) :
    magnitude (2 ^ 53) e = magnitude (2 ^ 52) (e + 1) := by
  have hNext : (e + 1 + 1074).toNat = (e + 1074).toNat + 1 := by omega
  rw [magnitude, magnitude, hNext, Nat.pow_succ 2 (e + 1074).toNat]
  omega

/-- Zeros moved between the mantissa and the exponent change nothing. -/
theorem magnitude_shiftLeft (m k : Nat) {e : Int} (he : -1074 ≤ e - k) :
    magnitude (m <<< k) (e - k) = magnitude m e := by
  have hPlaces : (e + 1074).toNat = k + (e - k + 1074).toNat := by omega
  rw [magnitude, magnitude, hPlaces, Nat.pow_add, Nat.shiftLeft_eq, Nat.mul_assoc]

theorem IsRounded.magnitude_lt {m : Nat} {e : Int} (h : IsRounded m e) :
    magnitude m e < magnitude (2 ^ 53) e :=
  Nat.mul_lt_mul_of_pos_right h.mantissa_lt (Nat.two_pow_pos _)

theorem IsRounded.magnitude_lt_of_lt {m m' : Nat} {e e' : Int} (h : IsRounded m e)
    (h' : IsRounded m' e') (he : e < e') : magnitude m e < magnitude m' e' := by
  have hFull : 2 ^ 52 ≤ m' := h'.isFull.resolve_right (by have := h.le_exponent; omega)
  calc magnitude m e < magnitude (2 ^ 53) e := h.magnitude_lt
    _ = magnitude (2 ^ 52) (e + 1) := magnitude_carry h.le_exponent
    _ ≤ magnitude m' e' := magnitude_le hFull he

/-- Rounded numbers are ordered by their exponents first. -/
theorem IsRounded.magnitude_lt_iff {m m' : Nat} {e e' : Int} (h : IsRounded m e)
    (h' : IsRounded m' e') : magnitude m e < magnitude m' e' ↔ e < e' ∨ e = e' ∧ m < m' := by
  rcases Int.lt_trichotomy e e' with hLess | rfl | hGreater
  · simp [hLess, h.magnitude_lt_of_lt h' hLess]
  · simp [magnitude, Nat.mul_lt_mul_right (Nat.two_pow_pos _)]
  · have hNot := Nat.not_lt_of_lt (h'.magnitude_lt_of_lt h hGreater)
    simp only [hNot, false_iff]
    omega

/-! ### Rounding to 53 bits -/

/-- How far the multiples of a power of two lie apart that a number is rounded to. -/
def step (n : Nat) : Nat := 2 ^ (n.log2 - 52)

theorem step_pos (n : Nat) : 0 < step n := Nat.two_pow_pos _

theorem step_le {n : Nat} (hn : 0 < n) : step n ≤ n :=
  Nat.le_trans (Nat.pow_le_pow_right (by decide) (Nat.sub_le _ _)) (Nat.log2_self_le hn.ne')

/-- A rounded number is a multiple of the step of any number, or less than a power of two which is
one and is not greater than the number. -/
theorem IsRounded.mul_step_or_lt {a : Nat} {b : Int} (h : IsRounded a b) (n : Nat) :
    (∃ k, magnitude a b = k * step n) ∨
      magnitude a b < 2 ^ n.log2 ∧ 2 ^ n.log2 = 2 ^ 52 * step n := by
  by_cases hPlace : n.log2 - 52 ≤ (b + 1074).toNat
  · obtain ⟨d, hd⟩ := Nat.exists_eq_add_of_le hPlace
    refine Or.inl ⟨a * 2 ^ d, ?_⟩
    rw [magnitude, hd, step, Nat.pow_add, Nat.mul_assoc, Nat.mul_comm (2 ^ d)]
  · have hPlaces : 53 + (b + 1074).toNat ≤ n.log2 := by omega
    refine Or.inr ⟨?_, ?_⟩
    · calc magnitude a b < 2 ^ 53 * 2 ^ (b + 1074).toNat := h.magnitude_lt
        _ = 2 ^ (53 + (b + 1074).toNat) := (Nat.pow_add ..).symm
        _ ≤ 2 ^ n.log2 := Nat.pow_le_pow_right (by decide) hPlaces
    · rw [step, ← Nat.pow_add]
      congr 1
      omega

/-- Rounding `n` gives `m * 2 ^ e`, the multiple of the step below the number or the one above. -/
structure RoundsTo (n m : Nat) (e : Int) : Prop where
  isRounded : IsRounded m e
  eq_mul : ∃ k, magnitude m e = k * step n ∧ n / step n ≤ k ∧ k ≤ n / step n + 1

section Monotone

variable {n m a : Nat} {e b : Int}

/-- Rounding does not go below a rounded number. -/
theorem RoundsTo.le_of_lt (h : RoundsTo n m e) (ha : IsRounded a b) (hLess : magnitude a b < n) :
    magnitude a b ≤ magnitude m e := by
  obtain ⟨k, hk, hLow, -⟩ := h.eq_mul
  rw [hk]
  rcases ha.mul_step_or_lt n with ⟨j, hj⟩ | ⟨hBelow, hPower⟩
  · rw [hj] at hLess ⊢
    refine Nat.mul_le_mul_right _ (Nat.le_trans ?_ hLow)
    exact (Nat.le_div_iff_mul_le (step_pos n)).2 (Nat.le_of_lt hLess)
  · rw [hPower] at hBelow
    refine Nat.le_trans (Nat.le_of_lt hBelow) (Nat.mul_le_mul_right _ (Nat.le_trans ?_ hLow))
    rw [Nat.le_div_iff_mul_le (step_pos n), ← hPower]
    exact Nat.log2_self_le (Nat.ne_zero_of_lt hLess)

/-- Rounding does not go above a rounded number. -/
theorem RoundsTo.ge_of_lt (h : RoundsTo n m e) (ha : IsRounded a b) (hn : 0 < n)
    (hLess : n < magnitude a b) : magnitude m e ≤ magnitude a b := by
  obtain ⟨k, hk, -, hHigh⟩ := h.eq_mul
  rcases ha.mul_step_or_lt n with ⟨j, hj⟩ | ⟨hBelow, -⟩
  · rw [hk, hj]
    rw [hj] at hLess
    exact Nat.mul_le_mul_right _
      (Nat.le_trans hHigh (Nat.succ_le_of_lt ((Nat.div_lt_iff_lt_mul (step_pos n)).2 hLess)))
  · exact absurd (Nat.lt_trans hLess hBelow) (Nat.not_lt.2 (Nat.log2_self_le hn.ne'))

end Monotone

theorem mantissa_shiftRight (m : ExtendedMantissa) (k : Nat) :
    (m >>> k).mantissa = m.mantissa / 2 ^ k := by
  induction k with
  | zero => exact (Nat.div_one _).symm
  | succ k ih =>
      have hSucc : (m >>> (k + 1)).mantissa = (m >>> k).mantissa / 2 := rfl
      rw [hSucc, ih, Nat.div_div_eq_div_mul, Nat.pow_succ]

theorem roundedMantissa_bounds (m : ExtendedMantissa) :
    m.mantissa ≤ m.roundedMantissa ∧ m.roundedMantissa ≤ m.mantissa + 1 := by
  obtain ⟨m, roundBit, stickyBit⟩ := m
  cases roundBit <;> cases stickyBit <;>
    simp only [ExtendedMantissa.roundedMantissa, ExtendedMantissa.accuracy,
      Accuracy.roundToNearestEven] <;> omega

/-- The exponent that is left when 53 bits of a mantissa are kept. -/
def lastExponent (m : Nat) (e : Int) : Int := max (m.log2 + e - 52) (-1074)

theorem le_lastExponent (m : Nat) (e : Int) : -1074 ≤ lastExponent m e := Int.le_max_right ..

theorem targetExponent_eq (m : Nat) (e : Int) :
    Format.binary64.targetExponent (totalExponent m e) = lastExponent m e := by
  have hBits : (Format.mantissaBits .binary64 : Int) = 53 := by decide
  have hLeast : Format.minExponent .binary64 = -1074 := by decide
  simp only [Format.targetExponent, totalExponent, hBits, hLeast, lastExponent]
  congr 1
  omega

theorem shiftToTargetExponent_eq (m : Nat) (e : Int) :
    (shiftToTargetExponent .binary64 m e .exact).1.mantissa =
        m / 2 ^ (lastExponent m e - e).toNat ∧
      (shiftToTargetExponent .binary64 m e .exact).2 = max (lastExponent m e) e := by
  simp only [shiftToTargetExponent, targetExponent_eq, shiftToExponent]
  exact ⟨mantissa_shiftRight _ _, by omega⟩

theorem log2_mul_two_pow {m : Nat} (hm : 0 < m) (k : Nat) : (m * 2 ^ k).log2 = m.log2 + k := by
  induction k with
  | zero => rw [Nat.pow_zero, Nat.mul_one, Nat.add_zero]
  | succ k ih =>
      have hPos : 0 < m * 2 ^ k := Nat.mul_pos hm (Nat.two_pow_pos k)
      rw [Nat.pow_succ, ← Nat.mul_assoc, Nat.mul_comm _ 2, Nat.log2_two_mul hPos.ne', ih,
        Nat.add_assoc]

theorem lastExponent_shiftLeft {m : Nat} (hm : 0 < m) (k : Nat) (e : Int) :
    lastExponent (m <<< k) (e - k) = lastExponent m e := by
  rw [lastExponent, lastExponent, Nat.shiftLeft_eq, log2_mul_two_pow hm]
  omega

theorem step_magnitude {m : Nat} (hm : 0 < m) {e : Int} (he : -1074 ≤ e) :
    step (magnitude m e) = 2 ^ (lastExponent m e + 1074).toNat := by
  rw [step, magnitude, log2_mul_two_pow hm]
  congr 1
  unfold lastExponent
  omega

/-- The bits of a mantissa above its last exponent: there are 53 of them, or fewer at the least
exponent. -/
theorem shifted_mantissa {m : Nat} (hm : 0 < m) {e : Int} (hLeast : -1074 ≤ e)
    (he : e ≤ lastExponent m e) :
    let q := m / 2 ^ (lastExponent m e - e).toNat
    q = magnitude m e / step (magnitude m e) ∧ q < 2 ^ 53 ∧
      (2 ^ 52 ≤ q ∨ lastExponent m e = -1074) := by
  intro q
  have hPlaces : (lastExponent m e + 1074).toNat =
      (e + 1074).toNat + (lastExponent m e - e).toNat := by omega
  refine ⟨?_, ?_, ?_⟩
  · rw [step_magnitude hm hLeast, hPlaces, Nat.pow_add, magnitude, Nat.mul_comm m,
      Nat.mul_div_mul_left _ _ (Nat.two_pow_pos _)]
  · refine Nat.div_lt_of_lt_mul ?_
    have hLog : m.log2 + 1 ≤ (lastExponent m e - e).toNat + 53 := by
      unfold lastExponent
      omega
    rw [← Nat.pow_add]
    exact Nat.lt_of_lt_of_le Nat.lt_log2_self (Nat.pow_le_pow_right (by decide) hLog)
  · by_cases hLast : lastExponent m e = -1074
    · exact Or.inr hLast
    · have hLog : 52 + (lastExponent m e - e).toNat ≤ m.log2 := by
        unfold lastExponent at he hLast ⊢
        omega
      refine Or.inl ((Nat.le_div_iff_mul_le (Nat.two_pow_pos _)).2 ?_)
      rw [← Nat.pow_add]
      exact Nat.le_trans (Nat.pow_le_pow_right (by decide) hLog) (Nat.log2_self_le hm.ne')

/-- A mantissa that was rounded up to 54 bits ends with zeros, and one of them is dropped. -/
theorem shift_carry {r : Nat} {t : Int} (hr : r ≤ 2 ^ 53) (ht : -1074 ≤ t)
    (hFull : 2 ^ 52 ≤ r ∨ t = -1074) :
    let last := shiftToTargetExponent .binary64 r t .exact
    IsRounded last.1.mantissa last.2 ∧ magnitude last.1.mantissa last.2 = magnitude r t := by
  intro last
  obtain ⟨hMantissa, hExponent⟩ := shiftToTargetExponent_eq r t
  rw [hMantissa, hExponent]
  rcases Nat.lt_or_eq_of_le hr with hLess | rfl
  · have hLog : r.log2 ≤ 52 := by
      by_cases hZero : r = 0
      · subst hZero
        decide
      · exact Nat.le_of_lt_succ ((Nat.log2_lt hZero).2 hLess)
    have hLast : lastExponent r t ≤ t := by
      unfold lastExponent
      omega
    rw [Int.toNat_of_nonpos (by omega), Int.max_eq_right hLast, Nat.pow_zero, Nat.div_one]
    exact ⟨⟨hLess, ht, hFull⟩, rfl⟩
  · have hLast : lastExponent (2 ^ 53) t = t + 1 := by
      rw [lastExponent, Nat.log2_two_pow]
      omega
    have hOne : (t + 1 - t).toNat = 1 := by omega
    rw [hLast, hOne, Int.max_eq_left (by omega)]
    exact ⟨⟨by decide, by omega, Or.inl (by decide)⟩, (magnitude_carry ht).symm⟩

/-- Bits are dropped twice: those below the last exponent, and then one more if rounding up gave
a bit too many. -/
theorem roundWithAccuracy_eq {m : Nat} {e : Int} (hm : 0 < m) (hLeast : -1074 ≤ e)
    (he : e ≤ lastExponent m e) :
    ∃ (m' : Nat) (e' : Int) (h : 0 < m'), RoundsTo (magnitude m e) m' e' ∧
      ∀ s, roundWithAccuracy .binary64 s m e .exact = .finite s m' e' h := by
  let first := shiftToTargetExponent .binary64 m e .exact
  let last := shiftToTargetExponent .binary64 first.1.roundedMantissa first.2 .exact
  have hRound (s : Sign) : roundWithAccuracy .binary64 s m e .exact =
      if h : last.1.mantissa = 0 then .zero s
      else .finite s last.1.mantissa last.2 (Nat.pos_of_ne_zero h) := rfl
  obtain ⟨hMantissa, hMax⟩ := shiftToTargetExponent_eq m e
  have hExponent : first.2 = lastExponent m e := hMax.trans (Int.max_eq_left he)
  obtain ⟨hQuotient, hLess, hFull⟩ := shifted_mantissa hm hLeast he
  obtain ⟨hLow, hHigh⟩ := roundedMantissa_bounds first.1
  rw [hMantissa] at hLow hHigh
  obtain ⟨hRounded, hCarry⟩ := shift_carry (r := first.1.roundedMantissa) (t := first.2)
    (by omega) (by omega) (by omega)
  have hMultiple : magnitude last.1.mantissa last.2 =
      first.1.roundedMantissa * step (magnitude m e) := by
    rw [hCarry, hExponent, step_magnitude hm hLeast, magnitude]
  rw [hQuotient] at hLow hHigh
  have hPos : 0 < last.1.mantissa := by
    have hSome : 0 < magnitude m e / step (magnitude m e) :=
      Nat.div_pos (step_le (magnitude_pos hm e)) (step_pos _)
    have hMagnitude : 0 < magnitude last.1.mantissa last.2 := by
      rw [hMultiple]
      exact Nat.mul_pos (Nat.lt_of_lt_of_le hSome hLow) (step_pos _)
    exact Nat.pos_of_mul_pos_right hMagnitude
  exact ⟨_, _, hPos, ⟨hRounded, _, hMultiple, hLow, hHigh⟩, fun s => by
    rw [hRound, dif_neg hPos.ne']⟩

/-- The sign takes no part in rounding. -/
theorem round_eq {m : Nat} {e : Int} (hm : 0 < m) (hLeast : -1074 ≤ e) :
    ∃ (m' : Nat) (e' : Int) (h : 0 < m'), RoundsTo (magnitude m e) m' e' ∧
      ∀ s, UnpackedFloat.round .binary64 s m e = .finite s m' e' h := by
  let k := (e - lastExponent m e).toNat
  have hRound (s : Sign) : UnpackedFloat.round .binary64 s m e =
      roundWithAccuracy .binary64 s (m <<< k) (e - k) .exact := by
    simp only [UnpackedFloat.round, targetExponent_eq]
    rfl
  have hBound := le_lastExponent m e
  have hPos : 0 < m <<< k := by
    rw [Nat.shiftLeft_eq]
    exact Nat.mul_pos hm (Nat.two_pow_pos _)
  have hLast := lastExponent_shiftLeft hm k e
  simp only [hRound, ← magnitude_shiftLeft m k (e := e) (by omega)]
  exact roundWithAccuracy_eq hPos (by omega) (by omega)

end ErDiagram.Double
