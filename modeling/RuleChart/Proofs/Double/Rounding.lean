import Mathlib

namespace RuleChart.Double

/-! Rounding to 53 bits.

A sum or a product of doubles is exact until it is rounded.  Here an exact amount is counted in
some small unit, so that it is a whole number; the doubles among these numbers are those with at
most 53 significant bits, and none of the bits below the least exponent.  Rounding only replaces
the bits behind those, and keeps the order of the amounts.
-/

open Float.Model (Format totalExponent UnpackedFloat)
open Float.Model.UnpackedFloat

/-- The whole number next to `amount / 2 ^ shift`, or the even one of the two next to it. -/
def rounded (amount shift : Nat) : Nat :=
  let rest := 2 * (amount % 2 ^ shift)
  if rest < 2 ^ shift then amount / 2 ^ shift
  else if rest = 2 ^ shift then amount / 2 ^ shift + amount / 2 ^ shift % 2
  else amount / 2 ^ shift + 1

theorem div_le_rounded (amount shift : Nat) : amount / 2 ^ shift ≤ rounded amount shift := by
  unfold rounded
  grind

theorem rounded_le (amount shift : Nat) : rounded amount shift ≤ amount / 2 ^ shift + 1 := by
  unfold rounded
  grind

theorem rounded_mono {less more : Nat} (shift : Nat) (ordered : less ≤ more) :
    rounded less shift ≤ rounded more shift := by
  rcases (Nat.div_le_div_right ordered : less / 2 ^ shift ≤ more / 2 ^ shift).lt_or_eq with
    lower | same
  · calc rounded less shift ≤ less / 2 ^ shift + 1 := rounded_le less shift
      _ ≤ more / 2 ^ shift := lower
      _ ≤ rounded more shift := div_le_rounded more shift
  · have rests : less % 2 ^ shift ≤ more % 2 ^ shift := by
      have splitLess := Nat.div_add_mod less (2 ^ shift)
      have splitMore := Nat.div_add_mod more (2 ^ shift)
      rw [same] at splitLess
      omega
    unfold rounded
    rw [same]
    grind

theorem rounded_scale (amount shift scale : Nat) :
    rounded (amount * 2 ^ scale) (shift + scale) = rounded amount shift := by
  have positive : 0 < 2 ^ scale := Nat.two_pow_pos scale
  have less : 2 * (amount % 2 ^ shift * 2 ^ scale) < 2 ^ shift * 2 ^ scale ↔
      2 * (amount % 2 ^ shift) < 2 ^ shift := by
    rw [← Nat.mul_assoc, Nat.mul_lt_mul_right positive]
  have same : 2 * (amount % 2 ^ shift * 2 ^ scale) = 2 ^ shift * 2 ^ scale ↔
      2 * (amount % 2 ^ shift) = 2 ^ shift := by
    rw [← Nat.mul_assoc, Nat.mul_left_inj positive.ne']
  simp only [rounded, Nat.pow_add, Nat.mul_mod_mul_right, Nat.mul_div_mul_right _ _ positive, less,
    same]

@[simp] theorem rounded_zero (amount : Nat) : rounded amount 0 = amount := by
  simp [rounded, Nat.mod_one]

theorem rounded_mul_pow (amount shift : Nat) : rounded (amount * 2 ^ shift) shift = amount := by
  simpa using rounded_scale amount 0 shift

/-- How many of the last bits of an amount no double of its size has, if `finer` bits of it are
below the least exponent. -/
def lost (finer amount : Nat) : Nat := max (amount.log2 - 52) finer

/-- The double next to an amount, in units that are `2 ^ finer` times those of the amount. -/
def nearest (finer amount : Nat) : Nat :=
  rounded amount (lost finer amount) * 2 ^ (lost finer amount - finer)

theorem log2_mono {less more : Nat} (ordered : less ≤ more) : less.log2 ≤ more.log2 := by
  simpa only [Nat.log2_eq_log_two] using Nat.log_mono_right ordered

theorem log2_mul_pow {amount : Nat} (scale : Nat) (present : 0 < amount) :
    (amount * 2 ^ scale).log2 = amount.log2 + scale := by
  induction scale with
  | zero => rw [Nat.pow_zero, Nat.mul_one, Nat.add_zero]
  | succ scale ih =>
      have shifted : amount * 2 ^ scale ≠ 0 := (Nat.mul_pos present (Nat.two_pow_pos scale)).ne'
      rw [Nat.pow_succ, ← Nat.mul_assoc, Nat.mul_comm _ 2, Nat.log2_two_mul shifted, ih,
        Nat.add_assoc]

theorem rounded_lost_le (finer amount : Nat) :
    rounded amount (lost finer amount) ≤ 2 ^ 53 := by
  have short : amount < 2 ^ 53 * 2 ^ lost finer amount := by
    rw [← Nat.pow_add]
    exact Nat.lt_of_lt_of_le Nat.lt_log2_self
      (Nat.pow_le_pow_right (by decide) (by unfold lost; omega))
  have quotient := (Nat.div_lt_iff_lt_mul (Nat.two_pow_pos _)).mpr short
  exact (rounded_le amount _).trans quotient

theorem le_rounded_lost {finer amount : Nat} (long : finer < lost finer amount) :
    2 ^ 52 ≤ rounded amount (lost finer amount) := by
  have bits : amount.log2 = 52 + lost finer amount := by
    unfold lost at long ⊢
    omega
  have present : amount ≠ 0 := by
    rintro rfl
    rw [Nat.log2_zero] at bits
    omega
  have full : 2 ^ 52 * 2 ^ lost finer amount ≤ amount := by
    rw [← Nat.pow_add, ← bits]
    exact Nat.log2_self_le present
  exact ((Nat.le_div_iff_mul_le (Nat.two_pow_pos _)).mpr full).trans (div_le_rounded amount _)

theorem nearest_mono (finer : Nat) {less more : Nat} (ordered : less ≤ more) :
    nearest finer less ≤ nearest finer more := by
  have bits : lost finer less ≤ lost finer more :=
    max_le_max (Nat.sub_le_sub_right (log2_mono ordered) 52) le_rfl
  unfold nearest
  rcases bits.lt_or_eq with fewer | same
  · -- The greater amount has a bit before the 53 that the smaller one can fill.
    have least : finer ≤ lost finer less := le_max_right _ _
    calc rounded less (lost finer less) * 2 ^ (lost finer less - finer)
        ≤ 2 ^ 53 * 2 ^ (lost finer less - finer) :=
          Nat.mul_le_mul_right _ (rounded_lost_le finer less)
      _ = 2 ^ 52 * 2 ^ (lost finer less + 1 - finer) := by
          rw [← Nat.pow_add, ← Nat.pow_add]
          congr 1
          omega
      _ ≤ 2 ^ 52 * 2 ^ (lost finer more - finer) :=
          Nat.mul_le_mul_left _ (Nat.pow_le_pow_right (by decide) (by omega))
      _ ≤ rounded more (lost finer more) * 2 ^ (lost finer more - finer) :=
          Nat.mul_le_mul_right _ (le_rounded_lost (Nat.lt_of_le_of_lt least fewer))
  · rw [same]
    exact Nat.mul_le_mul_right _ (rounded_mono _ ordered)

theorem lost_scale (finer scale : Nat) {amount : Nat} (present : 0 < amount) :
    lost (finer + scale) (amount * 2 ^ scale) = lost finer amount + scale := by
  unfold lost
  rw [log2_mul_pow scale present]
  omega

theorem nearest_zero (finer : Nat) : nearest finer 0 = 0 := by
  simp [nearest, rounded]

/-- Only the amount counts, and not the unit in which it is given. -/
theorem nearest_scale (finer scale amount : Nat) :
    nearest (finer + scale) (amount * 2 ^ scale) = nearest finer amount := by
  rcases Nat.eq_zero_or_pos amount with rfl | present
  · simp only [Nat.zero_mul, nearest_zero]
  · unfold nearest
    rw [lost_scale finer scale present, rounded_scale, Nat.add_sub_add_right]

/-- An amount of few bits stays as it is. -/
theorem nearest_of_short {mantissa : Nat} (narrow : mantissa < 2 ^ 53) (scale : Nat) :
    nearest 0 (mantissa * 2 ^ scale) = mantissa * 2 ^ scale := by
  rcases Nat.eq_zero_or_pos mantissa with rfl | present
  · simp only [Nat.zero_mul, nearest_zero]
  have bits : mantissa.log2 < 53 := (Nat.log2_lt present.ne').mpr narrow
  have kept : lost 0 (mantissa * 2 ^ scale) ≤ scale := by
    unfold lost
    rw [log2_mul_pow scale present]
    omega
  unfold nearest
  generalize lost 0 (mantissa * 2 ^ scale) = shift at kept
  obtain ⟨more, rfl⟩ := Nat.exists_eq_add_of_le kept
  rw [Nat.add_comm shift more, Nat.pow_add, ← Nat.mul_assoc, rounded_mul_pow, Nat.sub_zero]

/-- A mantissa behind a shift, with the bit behind it and whether there is another. -/
theorem shiftRight_exact (mantissa shift : Nat) :
    ExtendedMantissa.ofMantissaAndAccuracy mantissa .exact >>> shift =
      { mantissa := mantissa / 2 ^ shift
        roundBit := decide (2 ^ shift ≤ 2 * (mantissa % 2 ^ shift))
        stickyBit :=
          decide (mantissa % 2 ^ shift ≠ 0 ∧ 2 * (mantissa % 2 ^ shift) ≠ 2 ^ shift) } := by
  change shift.repeat ExtendedMantissa.shiftRightOne _ = _
  induction shift with
  | zero => simp [Nat.repeat, ExtendedMantissa.ofMantissaAndAccuracy, Nat.mod_one]
  | succ shift ih =>
      have bound : mantissa % 2 ^ shift < 2 ^ shift := Nat.mod_lt _ (Nat.two_pow_pos shift)
      have split : mantissa % 2 ^ (shift + 1) =
          mantissa % 2 ^ shift + 2 ^ shift * (mantissa / 2 ^ shift % 2) := Nat.mod_pow_succ
      rw [Nat.repeat, ih]
      simp only [ExtendedMantissa.shiftRightOne, ExtendedMantissa.mk.injEq]
      rw [split, Nat.pow_succ]
      generalize mantissa % 2 ^ shift = rest at bound
      refine ⟨Nat.div_div_eq_div_mul _ _ _, ?next, ?others⟩
      all_goals rcases Nat.mod_two_eq_zero_or_one (mantissa / 2 ^ shift) with even | odd <;> grind

theorem roundedMantissa_shiftRight (mantissa shift : Nat) :
    (ExtendedMantissa.ofMantissaAndAccuracy mantissa .exact >>> shift).roundedMantissa =
      rounded mantissa shift := by
  rw [shiftRight_exact]
  unfold rounded ExtendedMantissa.roundedMantissa
  have bound : mantissa % 2 ^ shift < 2 ^ shift := Nat.mod_lt _ (Nat.two_pow_pos shift)
  generalize mantissa / 2 ^ shift = whole
  generalize mantissa % 2 ^ shift = rest at bound
  rcases Nat.lt_trichotomy (2 * rest) (2 ^ shift) with below | half | above
  case inl =>
    rcases Nat.eq_zero_or_pos rest with rfl | inexact
    · simp [ExtendedMantissa.accuracy, Accuracy.roundToNearestEven, bound]
    · simp [ExtendedMantissa.accuracy, Accuracy.roundToNearestEven, below, below.not_ge, below.ne,
        inexact.ne']
  case inr.inl =>
    have inexact : rest ≠ 0 := by omega
    simp [ExtendedMantissa.accuracy, Accuracy.roundToNearestEven, half]
  case inr.inr =>
    have inexact : rest ≠ 0 := by omega
    simp [ExtendedMantissa.accuracy, Accuracy.roundToNearestEven, above.le, above.ne', above.not_gt,
      inexact]

/-- The mantissa and the exponent that a double has, or would have if no exponent were too
great. -/
structure Canonical (mantissa : Nat) (exponent : Int) : Prop where
  narrow : mantissa < 2 ^ 53
  least : -1074 ≤ exponent
  full : 2 ^ 52 ≤ mantissa ∨ exponent = -1074

/-- A mantissa and an exponent as a double, which is zero if the mantissa is. -/
def written (sign : Sign) (mantissa : Nat) (exponent : Int) : UnpackedFloat :=
  if present : mantissa = 0 then .zero sign
  else .finite sign mantissa exponent (Nat.pos_of_ne_zero present)

theorem targetExponent_eq (mantissa : Nat) (exponent : Int) :
    Format.binary64.targetExponent (totalExponent mantissa exponent) =
      max (mantissa.log2 - 52 + exponent) (-1074) := by
  simp only [Format.targetExponent, totalExponent, Format.mantissaBits, Format.minExponent]
  omega

theorem shiftToTargetExponent_eq (mantissa : Nat) (exponent : Int) (shift : Nat)
    (target : exponent + shift = max (mantissa.log2 - 52 + exponent) (-1074) ∨
      shift = 0 ∧ max (mantissa.log2 - 52 + exponent) (-1074) ≤ exponent) :
    shiftToTargetExponent .binary64 mantissa exponent .exact =
      (ExtendedMantissa.ofMantissaAndAccuracy mantissa .exact >>> shift, exponent + shift) := by
  have amount : (max ((mantissa.log2 : Int) - 52 + exponent) (-1074) - exponent).toNat = shift := by
    omega
  simp only [shiftToTargetExponent, shiftToExponent, targetExponent_eq, amount]

/-- A rounded mantissa needs another shift only if it is one bit too long. -/
theorem shiftToTargetExponent_rounded {mantissa : Nat} {exponent : Int}
    (narrow : mantissa ≤ 2 ^ 53) (least : -1074 ≤ exponent)
    (full : 2 ^ 52 ≤ mantissa ∨ exponent = -1074) :
    ∃ final place, Canonical final place ∧
      final * 2 ^ (place + 1074).toNat = mantissa * 2 ^ (exponent + 1074).toNat ∧
      (shiftToTargetExponent .binary64 mantissa exponent .exact).1.mantissa = final ∧
      (shiftToTargetExponent .binary64 mantissa exponent .exact).2 = place := by
  rcases narrow.lt_or_eq with short | rfl
  · have bits : mantissa.log2 ≤ 52 := by
      rcases Nat.eq_zero_or_pos mantissa with rfl | present
      · exact Nat.zero_le 52
      · exact Nat.le_of_lt_succ ((Nat.log2_lt present.ne').mpr short)
    rw [shiftToTargetExponent_eq mantissa exponent 0 (.inr ⟨rfl, by omega⟩), shiftRight_exact]
    exact ⟨mantissa, exponent, ⟨short, least, full⟩, rfl, Nat.div_one mantissa,
      Int.add_zero exponent⟩
  · have long : (2 ^ 53).log2 = 53 := Nat.log2_two_pow
    rw [shiftToTargetExponent_eq (2 ^ 53) exponent 1 (.inl (by rw [long]; omega)),
      shiftRight_exact]
    refine ⟨2 ^ 52, exponent + 1, ⟨by decide, by omega, .inl le_rfl⟩, ?_, rfl, rfl⟩
    rw [show (exponent + 1 + 1074).toNat = (exponent + 1074).toNat + 1 by omega, ← Nat.pow_add,
      ← Nat.pow_add]
    congr 1
    omega

/-- What is long enough, or low enough, to need no bits behind its own. -/
theorem roundWithAccuracy_exact (sign : Sign) (finer : Nat) {mantissa : Nat} {exponent : Int}
    (present : 0 < mantissa) (counted : 0 ≤ exponent + 1074 + finer)
    (low : exponent ≤ -1074 ∨ 52 ≤ mantissa.log2) :
    ∃ final place, Canonical final place ∧
      final * 2 ^ (place + 1074).toNat =
        nearest finer (mantissa * 2 ^ (exponent + 1074 + finer).toNat) ∧
      roundWithAccuracy .binary64 sign mantissa exponent .exact = written sign final place := by
  obtain ⟨shift, target⟩ :
      ∃ shift : Nat, exponent + shift = max (mantissa.log2 - 52 + exponent) (-1074) :=
    ⟨(max (mantissa.log2 - 52 + exponent) (-1074) - exponent).toNat, by omega⟩
  obtain ⟨scale, scaled⟩ : ∃ scale : Nat, exponent + 1074 + finer = scale :=
    Int.eq_ofNat_of_zero_le counted
  have shifted : lost finer (mantissa * 2 ^ scale) = shift + scale := by
    unfold lost
    rw [log2_mul_pow scale present]
    omega
  have quotient : rounded (mantissa * 2 ^ scale) (lost finer (mantissa * 2 ^ scale)) =
      rounded mantissa shift := by rw [shifted, rounded_scale]
  have narrow : rounded mantissa shift ≤ 2 ^ 53 := quotient ▸ rounded_lost_le finer _
  have full : 2 ^ 52 ≤ rounded mantissa shift ∨ exponent + shift = -1074 := by
    rcases Nat.lt_or_ge finer (lost finer (mantissa * 2 ^ scale)) with long | short
    · exact .inl (quotient ▸ le_rounded_lost long)
    · exact .inr (by omega)
  obtain ⟨final, place, canonical, same, finalRead, placeRead⟩ :=
    shiftToTargetExponent_rounded narrow (by omega) full
  refine ⟨final, place, canonical, ?counts, ?result⟩
  case counts =>
    rw [same, scaled, Int.toNat_natCast, nearest, quotient, shifted]
    congr 2
    omega
  case result =>
    unfold roundWithAccuracy written
    rw [shiftToTargetExponent_eq mantissa exponent shift (.inl target)]
    simp only [roundedMantissa_shiftRight, finalRead, placeRead]

/-- What is too short gets zeros behind its bits first. -/
theorem round_exact (sign : Sign) (finer : Nat) {mantissa : Nat} {exponent : Int}
    (present : 0 < mantissa) (counted : 0 ≤ exponent + 1074 + finer) :
    ∃ final place, Canonical final place ∧
      final * 2 ^ (place + 1074).toNat =
        nearest finer (mantissa * 2 ^ (exponent + 1074 + finer).toNat) ∧
      UnpackedFloat.round .binary64 sign mantissa exponent = written sign final place := by
  obtain ⟨shift, added⟩ : ∃ shift : Nat,
      (exponent - max ((mantissa.log2 : Int) - 52 + exponent) (-1074)).toNat = shift := ⟨_, rfl⟩
  have longer : 0 < mantissa * 2 ^ shift := Nat.mul_pos present (Nat.two_pow_pos shift)
  have low : exponent - shift ≤ -1074 ∨ 52 ≤ (mantissa * 2 ^ shift).log2 := by
    rw [log2_mul_pow shift present]
    omega
  obtain ⟨final, place, canonical, same, read⟩ :=
    roundWithAccuracy_exact sign finer longer (by omega) low
  refine ⟨final, place, canonical, ?counts, ?result⟩
  case counts =>
    rw [same, Nat.mul_assoc, ← Nat.pow_add]
    congr 3
    omega
  case result =>
    simp only [UnpackedFloat.round, decreaseExponent, targetExponent_eq, added, Nat.shiftLeft_eq,
      read]

end RuleChart.Double
