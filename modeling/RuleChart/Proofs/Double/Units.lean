import Mathlib
import RuleChart.Proofs.Double.Rounding

namespace RuleChart.Double

/-! Doubles as multiples of the least positive one.

A double that is not below zero is a whole number of the least positive doubles, or infinite.
These amounts are ordered as the doubles are.
-/

open Float.Model (Format UnpackedFloat)
open Float.Model.UnpackedFloat

/-- What a double that is not below zero holds, of the least positive double. -/
inductive Counts : UnpackedFloat → ℕ∞ → Prop
  | zero (sign : Sign) : Counts (.zero sign) 0
  | finite {mantissa : Nat} {exponent : Int} (present : 0 < mantissa)
      (canonical : Canonical mantissa exponent) (low : exponent ≤ 971) :
      Counts (.finite .positive mantissa exponent present)
        (mantissa * 2 ^ (exponent + 1074).toNat : Nat)
  | infinite : Counts (.infinity .positive) ⊤

theorem toNat_one_append {width : Nat} (bits : BitVec width) :
    (1#1 ++ bits).toNat = 2 ^ width + bits.toNat := by
  rw [BitVec.toNat_append, ← Nat.shiftLeft_add_eq_or_of_lt bits.isLt]
  simp [Nat.shiftLeft_eq]

/-- A finite number is stored as infinity, with a full mantissa, or at the least exponent. -/
theorem pack_finite (sign : Sign) {mantissa : Nat} {exponent : Int} (present : 0 < mantissa) :
    pack .binary64 (.finite sign mantissa exponent present) =
      if 2047 ≤ (exponent + 1075).toNat then packedInfinity .binary64 sign
      else if mantissa.log2 = 52 then
        packComponents .binary64 sign (BitVec.ofNat 11 (exponent + 1075).toNat)
          (BitVec.ofNat 52 mantissa)
      else packComponents .binary64 sign 0#11 (BitVec.ofNat 52 mantissa) := by
  have biased : (exponent + Format.binary64.exponentBias + (52 : Nat)).toNat =
      (exponent + 1075).toNat := by
    change (exponent + 1023 + 52).toNat = (exponent + 1075).toNat
    omega
  rw [pack]
  simp only [biased]
  refine if_congr (by omega) rfl (if_congr ?_ rfl rfl)
  change mantissa.log2 + 1 = 53 ↔ _
  omega

theorem unpack_packComponents_normal (sign : Sign) {exponent : BitVec 11} {mantissa : BitVec 52}
    (normal : 0 < exponent.toNat) (finite : exponent.toNat < 2047) :
    unpack .binary64 (packComponents .binary64 sign exponent mantissa) =
      .finite sign (2 ^ 52 + mantissa.toNat) (exponent.toNat - 1075) (by omega) := by
  have nonzero : exponent ≠ 0#11 := fun zero => by simp [zero] at normal
  have defined : exponent ≠ -1#11 := fun last => by simp [last] at finite
  rw [unpack]
  simp only [unpackMantissa_packComponents, unpackExponent_packComponents,
    unpackSign_packComponents, Sign.ofBitVec_toBitVec, if_neg nonzero, if_neg defined,
    toNat_one_append]
  rfl

theorem unpack_packComponents_subnormal (sign : Sign) {mantissa : BitVec 52}
    (present : 0 < mantissa.toNat) :
    unpack .binary64 (packComponents .binary64 sign 0#11 mantissa) =
      .finite sign mantissa.toNat (-1074) present := by
  have nonzero : mantissa ≠ 0#52 := fun zero => by simp [zero] at present
  rw [unpack]
  simp only [unpackMantissa_packComponents, unpackExponent_packComponents,
    unpackSign_packComponents, Sign.ofBitVec_toBitVec, dif_neg nonzero]
  rfl

theorem unpack_pack_infinity (sign : Sign) :
    unpack .binary64 (pack .binary64 (.infinity sign)) = .infinity sign := by
  cases sign <;> rfl

theorem unpack_pack_finite (sign : Sign) {mantissa : Nat} {exponent : Int}
    (present : 0 < mantissa) (canonical : Canonical mantissa exponent) (low : exponent ≤ 971) :
    unpack .binary64 (pack .binary64 (.finite sign mantissa exponent present)) =
      .finite sign mantissa exponent present := by
  obtain ⟨narrow, least, full⟩ := canonical
  rw [pack_finite, if_neg (by omega)]
  by_cases long : 2 ^ 52 ≤ mantissa
  · have stored : (BitVec.ofNat 11 (exponent + 1075).toNat).toNat = (exponent + 1075).toNat := by
      rw [BitVec.toNat_ofNat]
      omega
    have fraction : 2 ^ 52 + (BitVec.ofNat 52 mantissa).toNat = mantissa := by
      rw [BitVec.toNat_ofNat]
      omega
    rw [if_pos ((Nat.log2_eq_iff present.ne').mpr ⟨long, narrow⟩),
      unpack_packComponents_normal sign (by omega) (by omega)]
    simp only [fraction, stored]
    congr 1
    omega
  · obtain rfl := full.resolve_left long
    have short : mantissa.log2 < 52 := (Nat.log2_lt present.ne').mpr (Nat.not_le.mp long)
    have fraction : (BitVec.ofNat 52 mantissa).toNat = mantissa := by
      rw [BitVec.toNat_ofNat]
      omega
    rw [if_neg short.ne, unpack_packComponents_subnormal sign (by omega)]
    simp only [fraction]

theorem unpack_pack_overflow (sign : Sign) {mantissa : Nat} {exponent : Int}
    (present : 0 < mantissa) (high : 971 < exponent) :
    unpack .binary64 (pack .binary64 (.finite sign mantissa exponent present)) =
      .infinity sign := by
  rw [pack_finite, if_pos (by omega)]
  exact unpack_pack_infinity sign

/-- What counts is what is stored. -/
theorem Counts.unpack_pack {unpacked : UnpackedFloat} {amount : ℕ∞}
    (counts : Counts unpacked amount) : unpack .binary64 (pack .binary64 unpacked) = unpacked := by
  cases counts with
  | zero sign => exact unpack_packedZero
  | finite present canonical low => exact unpack_pack_finite .positive present canonical low
  | infinite => exact unpack_pack_infinity .positive

/-- The amounts from here on are infinite. -/
def ceiling : Nat := 2 ^ 53 * 2 ^ (971 + 1074)

theorem ceiling_eq : ∃ place : Nat, place = 971 + 1074 ∧ ceiling = 2 ^ 53 * 2 ^ place :=
  ⟨_, rfl, rfl⟩

theorem ceiling_pos : 0 < ceiling := by
  obtain ⟨place, -, top⟩ := ceiling_eq
  rw [top]
  exact Nat.mul_pos (Nat.two_pow_pos 53) (Nat.two_pow_pos place)

/-- An amount, if there is a double as great. -/
def bounded (amount : Nat) : ℕ∞ := if amount < ceiling then amount else ⊤

theorem bounded_mono : Monotone bounded := by
  intro less more ordered
  unfold bounded
  by_cases small : more < ceiling
  · rw [if_pos small, if_pos (Nat.lt_of_le_of_lt ordered small)]
    exact_mod_cast ordered
  · rw [if_neg small]
    exact le_top

/-- As amounts go, 971 is the greatest exponent. -/
theorem Canonical.lt_ceiling_iff {mantissa : Nat} {exponent : Int}
    (canonical : Canonical mantissa exponent) :
    mantissa * 2 ^ (exponent + 1074).toNat < ceiling ↔ exponent ≤ 971 := by
  obtain ⟨narrow, least, full⟩ := canonical
  obtain ⟨place, placed, top⟩ := ceiling_eq
  rw [top]
  constructor
  · intro small
    by_contra high
    have full : 2 ^ 52 ≤ mantissa := full.resolve_right (by omega)
    have wide : 2 ^ 53 * 2 ^ place ≤ mantissa * 2 ^ (exponent + 1074).toNat :=
      calc 2 ^ 53 * 2 ^ place = 2 ^ 52 * 2 ^ (place + 1) := by ring
        _ ≤ mantissa * 2 ^ (exponent + 1074).toNat :=
            Nat.mul_le_mul full (Nat.pow_le_pow_right (by decide) (by omega))
    exact absurd small (Nat.not_lt.mpr wide)
  · intro low
    exact Nat.mul_lt_mul_of_lt_of_le narrow (Nat.pow_le_pow_right (by decide) (by omega))
      (Nat.two_pow_pos _)

theorem counts_stored_zero (sign : Sign) :
    Counts (unpack .binary64 (pack .binary64 (.zero sign))) 0 :=
  unpack_packedZero.symm ▸ .zero sign

theorem counts_stored_infinity :
    Counts (unpack .binary64 (pack .binary64 (.infinity .positive))) ⊤ :=
  (unpack_pack_infinity .positive).symm ▸ .infinite

/-- What is rounded is stored as the amount it is, or as infinity. -/
theorem counts_written {mantissa : Nat} {exponent : Int} (canonical : Canonical mantissa exponent) :
    Counts (unpack .binary64 (pack .binary64 (written .positive mantissa exponent)))
      (bounded (mantissa * 2 ^ (exponent + 1074).toNat)) := by
  unfold written bounded
  by_cases absent : mantissa = 0
  · rw [dif_pos absent, absent, Nat.zero_mul, if_pos ceiling_pos]
    exact counts_stored_zero .positive
  have present := Nat.pos_of_ne_zero absent
  rw [dif_neg absent]
  by_cases low : exponent ≤ 971
  · rw [if_pos (canonical.lt_ceiling_iff.mpr low),
      unpack_pack_finite .positive present canonical low]
    exact .finite present canonical low
  · rw [if_neg (mt canonical.lt_ceiling_iff.mp low),
      unpack_pack_overflow .positive present (Int.not_le.mp low)]
    exact .infinite

/-- Whatever the bits are, they are read as something that is stored. -/
theorem unpack_cases (bits : BitVec Format.binary64.numBits) :
    unpack .binary64 bits = .notANumber ∨
      ∃ sign, unpack .binary64 bits = .infinity sign ∨ unpack .binary64 bits = .zero sign ∨
        ∃ mantissa exponent present, Canonical mantissa exponent ∧ exponent ≤ 971 ∧
          unpack .binary64 bits = .finite sign mantissa exponent present := by
  rw [← packComponents_unpackSign_unpackExponent_unpackMantissa bits]
  generalize Sign.ofBitVec (unpackSign bits) = sign
  obtain ⟨exponent, exponentRead⟩ : ∃ exponent : BitVec 11, unpackExponent bits = exponent :=
    ⟨_, rfl⟩
  obtain ⟨mantissa, mantissaRead⟩ : ∃ mantissa : BitVec 52, unpackMantissa bits = mantissa :=
    ⟨_, rfl⟩
  rw [exponentRead, mantissaRead]
  have fraction : mantissa.toNat < 2 ^ 52 := mantissa.isLt
  have place : exponent.toNat < 2048 := exponent.isLt
  rcases Nat.lt_or_ge exponent.toNat 2047 with finite | special
  case inl =>
    rcases Nat.eq_zero_or_pos exponent.toNat with least | normal
    · obtain rfl : exponent = 0#11 := BitVec.eq_of_toNat_eq least
      rcases Nat.eq_zero_or_pos mantissa.toNat with absent | present
      · obtain rfl : mantissa = 0#52 := BitVec.eq_of_toNat_eq absent
        exact .inr ⟨sign, .inr (.inl unpack_packedZero)⟩
      · exact .inr ⟨sign, .inr (.inr ⟨_, _, present, ⟨by omega, le_rfl, .inr rfl⟩, by omega,
          unpack_packComponents_subnormal sign present⟩)⟩
    · exact .inr ⟨sign, .inr (.inr ⟨_, _, _, ⟨by omega, by omega, .inl (by omega)⟩, by omega,
        unpack_packComponents_normal sign normal finite⟩)⟩
  case inr =>
    have last : exponent.toNat = 2047 := by omega
    obtain rfl : exponent = -1#11 := BitVec.eq_of_toNat_eq last
    by_cases absent : mantissa = 0#52
    · obtain rfl := absent
      exact .inr ⟨sign, .inl (unpack_pack_infinity sign)⟩
    · refine .inl ?_
      rw [unpack]
      simp only [unpackMantissa_packComponents, unpackExponent_packComponents, if_neg absent]
      rfl

theorem Canonical.units_lt {lesser greater : Nat} {low high : Int}
    (canonical : Canonical lesser low) (other : Canonical greater high) (below : low < high) :
    lesser * 2 ^ (low + 1074).toNat < greater * 2 ^ (high + 1074).toNat := by
  have full : 2 ^ 52 ≤ greater := other.full.resolve_right (by have := canonical.least; omega)
  calc lesser * 2 ^ (low + 1074).toNat < 2 ^ 53 * 2 ^ (low + 1074).toNat :=
        Nat.mul_lt_mul_of_pos_right canonical.narrow (Nat.two_pow_pos _)
    _ = 2 ^ 52 * 2 ^ ((low + 1074).toNat + 1) := by ring
    _ ≤ greater * 2 ^ (high + 1074).toNat :=
        Nat.mul_le_mul full (Nat.pow_le_pow_right (by decide) (by
          have := canonical.least
          omega))

theorem compare_mul_right {left right factor : Nat} (positive : 0 < factor) :
    compare (left * factor) (right * factor) = compare left right := by
  rcases Nat.lt_trichotomy left right with less | rfl | greater
  · rw [compare_lt_iff_lt.mpr less,
      compare_lt_iff_lt.mpr (Nat.mul_lt_mul_of_pos_right less positive)]
  · rw [compare_eq_iff_eq.mpr rfl, compare_eq_iff_eq.mpr rfl]
  · rw [compare_gt_iff_gt.mpr greater,
      compare_gt_iff_gt.mpr (Nat.mul_lt_mul_of_pos_right greater positive)]

/-- Numbers of one exponent are ordered by their mantissas, and others by exponent. -/
theorem Canonical.compare_eq {mantissaX mantissaY : Nat} {exponentX exponentY : Int}
    (canonicalX : Canonical mantissaX exponentX) (canonicalY : Canonical mantissaY exponentY) :
    (compare exponentX exponentY).then (compare mantissaX mantissaY) =
      compare (mantissaX * 2 ^ (exponentX + 1074).toNat)
        (mantissaY * 2 ^ (exponentY + 1074).toNat) := by
  rcases Int.lt_trichotomy exponentX exponentY with below | rfl | above
  · rw [compare_lt_iff_lt.mpr below, compare_lt_iff_lt.mpr (canonicalX.units_lt canonicalY below)]
    rfl
  · rw [compare_eq_iff_eq.mpr rfl, compare_mul_right (Nat.two_pow_pos _)]
    rfl
  · rw [compare_gt_iff_gt.mpr above, compare_gt_iff_gt.mpr (canonicalY.units_lt canonicalX above)]
    rfl

theorem compare_coe (left right : Nat) : compare (left : ℕ∞) right = compare left right := by
  rcases Nat.lt_trichotomy left right with less | rfl | greater
  · rw [compare_lt_iff_lt.mpr less, compare_lt_iff_lt.mpr (by exact_mod_cast less)]
  · rw [compare_eq_iff_eq.mpr rfl, compare_eq_iff_eq.mpr rfl]
  · rw [compare_gt_iff_gt.mpr greater, compare_gt_iff_gt.mpr (by exact_mod_cast greater)]

theorem Counts.compare_eq {x y : UnpackedFloat} {amountX amountY : ℕ∞}
    (countsX : Counts x amountX) (countsY : Counts y amountY) :
    x.compare y = some (compare amountX amountY) := by
  have positive {mantissa : Nat} (place : Nat) (present : 0 < mantissa) :
      (0 : ℕ∞) < (mantissa * 2 ^ place : Nat) := by
    exact_mod_cast Nat.mul_pos present (Nat.two_pow_pos place)
  cases countsX with
  | zero signX =>
      cases countsY with
      | zero signY => rw [compare_eq_iff_eq.mpr rfl]; rfl
      | finite presentY => rw [compare_lt_iff_lt.mpr (positive _ presentY)]; rfl
      | infinite => rw [compare_lt_iff_lt.mpr ENat.top_pos]; rfl
  | finite presentX canonicalX =>
      cases countsY with
      | zero signY => rw [compare_gt_iff_gt.mpr (positive _ presentX)]; rfl
      | finite presentY canonicalY =>
          rw [compare_coe, ← canonicalX.compare_eq canonicalY]
          rfl
      | infinite => rw [compare_lt_iff_lt.mpr (ENat.natCast_lt_top _)]; rfl
  | infinite =>
      cases countsY with
      | zero signY => rw [compare_gt_iff_gt.mpr ENat.top_pos]; rfl
      | finite presentY => rw [compare_gt_iff_gt.mpr (ENat.natCast_lt_top _)]; rfl
      | infinite => rw [compare_eq_iff_eq.mpr rfl]; rfl

/-- What is stored as less than zero is less than all that counts. -/
structure Negative (x : UnpackedFloat) : Prop where
  lt : ∀ {y amount}, Counts y amount → x.compare y = some .lt
  gt : ∀ {y amount}, Counts y amount → y.compare x = some .gt

theorem negative_infinity : Negative (.infinity .negative) where
  lt counts := by cases counts <;> rfl
  gt counts := by cases counts <;> rfl

theorem negative_finite {mantissa : Nat} {exponent : Int} (present : 0 < mantissa) :
    Negative (.finite .negative mantissa exponent present) where
  lt counts := by cases counts <;> rfl
  gt counts := by cases counts <;> rfl

theorem counts_or_negative (bits : BitVec Format.binary64.numBits) :
    (∃ amount, Counts (unpack .binary64 bits) amount) ∨ unpack .binary64 bits = .notANumber ∨
      Negative (unpack .binary64 bits) := by
  rcases unpack_cases bits with
    undefined | ⟨sign, infinite | zero | ⟨mantissa, exponent, present, canonical, low, finite⟩⟩
  case inl => exact .inr (.inl undefined)
  case inr.inl =>
    rw [infinite]
    cases sign with
    | positive => exact .inl ⟨⊤, .infinite⟩
    | negative => exact .inr (.inr negative_infinity)
  case inr.inr.inl =>
    rw [zero]
    exact .inl ⟨0, .zero sign⟩
  case inr.inr.inr =>
    rw [finite]
    cases sign with
    | positive => exact .inl ⟨_, .finite present canonical low⟩
    | negative => exact .inr (.inr (negative_finite present))

end RuleChart.Double
