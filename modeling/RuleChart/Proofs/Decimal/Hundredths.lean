import Mathlib.Algebra.Order.Field.Basic
import Mathlib.Algebra.Ring.Int.Parity
import RuleChart.Proofs.Decimal.Double
import RuleChart.Proofs.Decimal.Spelling

namespace RuleChart

/-- The integer nearest to a number, and the even one of two that are equally near. -/
structure IsNearest (value : ℚ) (whole : ℤ) : Prop where
  near : ∀ other : ℤ, |value - whole| ≤ |value - other|
  even : ∀ other : ℤ, other ≠ whole → |value - other| = |value - whole| → Even whole

/-- Half a unit is as far away as the nearest integer can be, and another is as near only there. -/
theorem isNearest_iff {value : ℚ} {whole : ℤ} :
    IsNearest value whole ↔
      |value - whole| ≤ 1 / 2 ∧ (|value - whole| = 1 / 2 → Even whole) := by
  constructor
  · intro nearest
    have above := nearest.near (whole + 1)
    have below := nearest.near (whole - 1)
    have evenAbove := nearest.even (whole + 1) (by omega)
    have evenBelow := nearest.even (whole - 1) (by omega)
    push_cast at above below evenAbove evenBelow
    -- One of the neighbours is on the other side of the number.
    grind
  · rintro ⟨half, tie⟩
    have apart (other : ℤ) (different : other ≠ whole) : 1 / 2 ≤ |value - other| := by
      have gap : (1 : ℚ) ≤ |(whole : ℚ) - other| := by
        exact_mod_cast Int.one_le_abs (sub_ne_zero.mpr different.symm)
      have through := abs_sub_le (whole : ℚ) value other
      rw [abs_sub_comm (whole : ℚ) value] at through
      linarith
    constructor
    · intro other
      by_cases same : other = whole
      · rw [same]
      · exact half.trans (apart other same)
    · intro other different equal
      exact tie (le_antisymm half (equal ▸ apart other different))

namespace IsNearest

/-- Two integers that are equally near are neighbours, and only one of them is even. -/
theorem unique {value : ℚ} {left right : ℤ} (nearestLeft : IsNearest value left)
    (nearestRight : IsNearest value right) : left = right := by
  by_contra different
  have equal := le_antisymm (nearestLeft.near right) (nearestRight.near left)
  have evenLeft := nearestLeft.even right (Ne.symm different) equal.symm
  have evenRight := nearestRight.even left different equal
  have neighbours : |left - right| ≤ 1 := by
    have halfLeft := (isNearest_iff.mp nearestLeft).1
    have halfRight := (isNearest_iff.mp nearestRight).1
    have through := abs_sub_le (left : ℚ) value right
    rw [abs_sub_comm (left : ℚ) value] at through
    have bound : |(left : ℚ) - right| ≤ 1 := by linarith
    exact_mod_cast bound
  grind

theorem neg {value : ℚ} {whole : ℤ} (nearest : IsNearest value whole) :
    IsNearest (-value) (-whole) := by
  rw [isNearest_iff] at nearest ⊢
  rwa [Int.cast_neg, ← neg_sub', abs_neg, even_neg]

end IsNearest

/-- Whether an integer is nearest to a quotient is decided on integers. -/
theorem isNearest_div_iff {numerator whole : ℤ} {denominator : Nat} (positive : 0 < denominator) :
    IsNearest (numerator / denominator) whole ↔
      2 * |numerator - whole * denominator| ≤ denominator ∧
        (2 * |numerator - whole * denominator| = denominator → Even whole) := by
  have nonzero : (0 : ℚ) < denominator := by exact_mod_cast positive
  have distance : |(numerator : ℚ) / denominator - whole| =
      (|numerator - whole * denominator| : ℤ) / denominator := by
    rw [div_sub' nonzero.ne', abs_div, abs_of_pos nonzero, mul_comm (denominator : ℚ)]
    push_cast
    rfl
  rw [isNearest_iff, distance, div_le_div_iff₀ nonzero two_pos,
    div_eq_div_iff nonzero.ne' two_ne_zero, one_mul, mul_comm _ (2 : ℚ)]
  exact_mod_cast Iff.rfl

theorem isNearest_roundQuotient (numerator : Nat) {denominator : Nat} (positive : 0 < denominator) :
    IsNearest (numerator / denominator) (roundQuotient numerator denominator) := by
  have small := Nat.mod_lt numerator positive
  have parts := Nat.div_add_mod' numerator denominator
  rw [← Int.cast_natCast numerator, isNearest_div_iff positive, roundQuotient]
  generalize numerator / denominator = quotient at *
  generalize numerator % denominator = remainder at *
  split_ifs with down
  · have left : (numerator : ℤ) - quotient * denominator = remainder := by omega
    rw [left, Nat.abs_cast, Int.even_iff]
    omega
  · have left : (numerator : ℤ) - (quotient + 1 : Nat) * denominator = remainder - denominator := by
      push_cast
      linarith
    rw [left, abs_of_nonpos (by omega), Int.even_iff]
    omega

namespace Double

theorem hundredths_eq (mantissa : Nat) (exponent : Int) :
    hundredths mantissa exponent =
      roundQuotient (100 * (mantissa * Nat.pow 2 exponent.toNat)) (Nat.pow 2 (-exponent).toNat) :=
  rfl

/-- The count of hundredths with the sign of the double is the nearest integer. -/
theorem isNearest_hundredths (negative : Bool) (mantissa : Nat) (exponent : Int) :
    IsNearest (100 * toRat negative mantissa exponent)
      ((if negative then -1 else 1) * (hundredths mantissa exponent : ℤ)) := by
  have positive : 0 < Nat.pow 2 (-exponent).toNat := Nat.pow_pos (by decide)
  have nearest := isNearest_roundQuotient (100 * (mantissa * Nat.pow 2 exponent.toNat)) positive
  rw [← hundredths_eq, Nat.cast_mul, mul_div_assoc, Nat.cast_ofNat] at nearest
  rw [toRat_eq_ratio, mul_left_comm]
  cases negative with
  | false => simpa only [Bool.false_eq_true, if_false, one_mul] using nearest
  | true => simpa only [if_true, neg_one_mul] using nearest.neg

end Double

namespace Spelling

/-- A count of hundredths, with both places. -/
def ofHundredths (negative : Bool) (count : Nat) : Spelling where
  negative := negative
  whole := Nat.toDigits 10 (count / 100)
  fraction := some [Nat.digitChar (count / 10 % 10), Nat.digitChar (count % 10)]
  whole_ne_nil := Nat.toDigits_ne_nil
  whole_digits := fun _ member => Nat.isDigit_of_mem_toDigits (by decide) (by decide) member
  fraction_digits := by
    have digit (place : Nat) : (Nat.digitChar (place % 10)).isDigit = true := by
      rw [Nat.isDigit_digitChar]
      exact decide_eq_true (Nat.mod_lt _ (by decide))
    simp [digit]

theorem value_ofHundredths (negative : Bool) (count : Nat) :
    (ofHundredths negative count).value = (if negative then -1 else 1) * (count / 100) := by
  have digits : Nat.ofDigitChars 10 ((ofHundredths negative count).whole ++
      (ofHundredths negative count).places) 0 = count := by
    change Nat.ofDigitChars 10 (Nat.toDigits 10 (count / 100) ++
      [Nat.digitChar (count / 10 % 10), Nat.digitChar (count % 10)]) 0 = count
    rw [Nat.ofDigitChars_append, Nat.ofDigitChars_ten_toDigits,
      Nat.ofDigitChars_cons_digitChar_of_lt_ten (Nat.mod_lt _ (by decide)),
      Nat.ofDigitChars_cons_digitChar_of_lt_ten (Nat.mod_lt _ (by decide)), Nat.ofDigitChars_nil]
    omega
  have two : (ofHundredths negative count).places.length = 2 := rfl
  have hundred : (10 : ℚ) ^ 2 = 100 := by norm_num
  rw [value, digits, two, hundred]
  rfl

end Spelling

namespace Double

theorem toList_fixedText_finite (negative : Bool) (mantissa : Nat) (exponent : Int) :
    (finite negative mantissa exponent).fixedText.toList =
      (Spelling.ofHundredths negative (hundredths mantissa exponent)).text := by
  rw [fixedText, String.toList_append, String.toList_ofList, Spelling.text, List.append_assoc]
  rfl

theorem coordinateText_finite (negative : Bool) (mantissa : Nat) (exponent : Int) :
    (finite negative mantissa exponent).coordinateText =
      String.ofList
        (Spelling.ofHundredths negative (hundredths mantissa exponent)).shortened.text := by
  rw [coordinateText, toList_fixedText_finite, Spelling.withoutTrailing_text rfl]

/-- A text shows the sign and the count, and each of the two. -/
theorem coordinateText_finite_inj {negative other : Bool} {mantissa mantissaY : Nat}
    {exponent exponentY : Int} :
    (finite negative mantissa exponent).coordinateText =
        (finite other mantissaY exponentY).coordinateText ↔
      negative = other ∧ hundredths mantissa exponent = hundredths mantissaY exponentY := by
  rw [coordinateText_finite, coordinateText_finite, String.ofList_inj,
    Spelling.text_injective.eq_iff]
  constructor
  · intro same
    obtain rfl : negative = other := congrArg Spelling.negative same
    have values := congrArg Spelling.value same
    rw [Spelling.value_shortened, Spelling.value_shortened, Spelling.value_ofHundredths,
      Spelling.value_ofHundredths] at values
    refine ⟨rfl, ?_⟩
    have counts : (hundredths mantissa exponent : ℚ) = hundredths mantissaY exponentY := by
      cases negative <;> simpa using values
    exact_mod_cast counts
  · rintro ⟨rfl, counts⟩
    rw [counts]

/-- The sign stays where nothing else does. -/
example : (ofFloat (-0.001)).coordinateText = "-0" := by decide +kernel

/-- A signed count tells its sign and its count, but for the sign of zero. -/
theorem signed_count_iff {negative other : Bool} {count countY : Nat} :
    negative = other ∧ count = countY ↔
      ((if negative then -1 else 1) * count : ℤ) = (if other then -1 else 1) * countY ∧
        (((if negative then -1 else 1) * count : ℤ) = 0 → negative = other) := by
  cases negative <;> cases other <;> simp <;> omega

/-- The text of a finite double spells the nearest number of hundredths, with two places at most and
none of them idle, and with the whole part in full.  Another double has the same text exactly when
the same number is nearest to it and, if that is zero, its sign is the same. -/
theorem coordinateText_nearest {x : Float} {negative : Bool} {mantissa : Nat} {exponent : Int}
    (finite : ofFloat x = .finite negative mantissa exponent) :
    ∃ count : ℤ,
      (∀ whole, IsNearest (100 * toRat negative mantissa exponent) whole ↔ whole = count) ∧
      (∃ spelling, Spelling.read? (ofFloat x).coordinateText.toList = some spelling ∧
        spelling.value = count / 100 ∧
        spelling.negative = negative ∧
        spelling.whole = Nat.toDigits 10 (count.natAbs / 100) ∧
        spelling.places.length ≤ 2 ∧
        spelling.Minimal) ∧
      ∀ (y : Float) (other : Bool) (mantissaY : Nat) (exponentY : Int),
        ofFloat y = .finite other mantissaY exponentY →
          ((ofFloat x).coordinateText = (ofFloat y).coordinateText ↔
            IsNearest (100 * toRat other mantissaY exponentY) count ∧
              (count = 0 → negative = other)) := by
  have nearest := isNearest_hundredths negative mantissa exponent
  refine ⟨_, fun whole => ⟨fun also => also.unique nearest, fun same => same ▸ nearest⟩,
    ?spelling, ?others⟩
  case spelling =>
    rw [finite, coordinateText_finite, String.toList_ofList]
    refine ⟨_, Spelling.read?_text _, ?value, rfl, ?whole, Spelling.length_places_shortened,
      Spelling.minimal_shortened⟩
    case value =>
      rw [Spelling.value_shortened, Spelling.value_ofHundredths, mul_div_assoc']
      push_cast
      rfl
    case whole =>
      have magnitude : ((if negative then -1 else 1) * (hundredths mantissa exponent : ℤ)).natAbs =
          hundredths mantissa exponent := by cases negative <;> simp
      rw [magnitude]
      rfl
  case others =>
    intro y other mantissaY exponentY finiteY
    have nearestY := isNearest_hundredths other mantissaY exponentY
    rw [finite, finiteY, coordinateText_finite_inj, signed_count_iff]
    exact and_congr_left fun _ =>
      ⟨fun same => same ▸ nearestY, fun shared => shared.unique nearestY⟩

/-- An eighth is halfway between twelve and thirteen hundredths, and is shown like 0.12. -/
theorem coordinateText_nearest_of_tie :
    ofFloat 0.125 = .finite false (Nat.pow 2 52) (-55) ∧
      IsNearest (100 * toRat false (Nat.pow 2 52) (-55)) 12 ∧
      (∃ spelling, Spelling.read? (ofFloat 0.125).coordinateText.toList = some spelling ∧
        spelling.value = 12 / 100) ∧
      (ofFloat 0.125).coordinateText = (ofFloat 0.12).coordinateText := by
  have eighth : ofFloat 0.125 = .finite false (Nat.pow 2 52) (-55) := by decide +kernel
  have twelve : ofFloat 0.12 = .finite false 8646911284551352 (-56) := by decide +kernel
  have tie : IsNearest (100 * toRat false (Nat.pow 2 52) (-55)) 12 := by
    have value : 100 * toRat false (Nat.pow 2 52) (-55) = 25 / 2 := by norm_num [toRat]
    rw [value, isNearest_iff]
    exact ⟨by norm_num, fun _ => by decide⟩
  obtain ⟨count, nearest, ⟨spelling, reads, value, -⟩, same⟩ := coordinateText_nearest eighth
  obtain rfl : 12 = count := (nearest 12).mp tie
  refine ⟨eighth, tie, ⟨spelling, reads, value⟩, (same 0.12 _ _ _ twelve).mpr ⟨?_, fun _ => rfl⟩⟩
  rw [isNearest_iff, toRat]
  norm_num

end Double

end RuleChart
