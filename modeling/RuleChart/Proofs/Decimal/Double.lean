import Mathlib.Algebra.Order.Field.Power
import Mathlib.Data.Rat.Cast.Order
import Mathlib.Tactic.FieldSimp
import Mathlib.Tactic.Linarith
import Mathlib.Tactic.NormNum
import RuleChart.Decimal.Double

namespace RuleChart.Double

/-- A mantissa has at most 53 bits, and fewer only at the least exponent. -/
theorem ofFloat_finite {x : Float} {negative : Bool} {mantissa : Nat} {exponent : Int}
    (read : ofFloat x = .finite negative mantissa exponent) :
    mantissa < Nat.pow 2 53 ∧ -1074 ≤ exponent ∧
      (Nat.pow 2 52 ≤ mantissa ∨ exponent = -1074) := by
  have hidden : Nat.pow 2 53 = Nat.pow 2 52 + Nat.pow 2 52 := rfl
  have fraction : x.toBits.toNat % Nat.pow 2 52 < Nat.pow 2 52 := Nat.mod_lt _ (by decide)
  unfold ofFloat at read
  dsimp only at read
  split at read
  · split at read <;> cases read
  · split at read
    · cases read
      exact ⟨by omega, Int.le_refl _, .inr rfl⟩
    case isFalse normal =>
      cases read
      have place := Nat.pos_of_ne_zero normal
      exact ⟨by omega, by simp only [Int.ofNat_eq_natCast]; omega, .inl (by omega)⟩

theorem integer?_finite (negative : Bool) (mantissa : Nat) (exponent : Int) :
    (finite negative mantissa exponent).integer? =
      if mantissa * Nat.pow 2 exponent.toNat % Nat.pow 2 (-exponent).toNat = 0 then
        some (if negative then
            -((mantissa * Nat.pow 2 exponent.toNat / Nat.pow 2 (-exponent).toNat : Nat) : Int)
          else ((mantissa * Nat.pow 2 exponent.toNat / Nat.pow 2 (-exponent).toNat : Nat) : Int))
      else none := rfl

def toRat (negative : Bool) (mantissa : Nat) (exponent : Int) : ℚ :=
  (if negative then -1 else 1) * (mantissa * 2 ^ exponent)

inductive Value where
  | rational (value : ℚ)
  | infinite (negative : Bool)

/-- What a double stands for; `NaN` stands for nothing. -/
def value? : Double → Option Value
  | .finite negative mantissa exponent => some (.rational (toRat negative mantissa exponent))
  | .infinite negative => some (.infinite negative)
  | .undefined => none

theorem zpow_mul_pow {exponent : Int} {shift total : Nat} (sum : exponent + shift = total) :
    (2 : ℚ) ^ exponent * 2 ^ shift = 2 ^ total := by
  rw [← zpow_natCast, ← zpow_natCast, ← zpow_add₀ (by norm_num), sum]

theorem toRat_eq_ratio (negative : Bool) (mantissa : Nat) (exponent : Int) :
    toRat negative mantissa exponent =
      (if negative then -1 else 1) *
        ((mantissa * Nat.pow 2 exponent.toNat : Nat) / (Nat.pow 2 (-exponent).toNat : Nat)) := by
  have power : (2 : ℚ) ^ exponent = 2 ^ exponent.toNat / 2 ^ (-exponent).toNat := by
    rw [eq_div_iff (by positivity)]
    exact zpow_mul_pow (by omega)
  rw [toRat, power, Nat.pow_eq, Nat.pow_eq, Nat.cast_mul, Nat.cast_pow, Nat.cast_pow, mul_div_assoc,
    Nat.cast_ofNat]

theorem integer?_finite_iff {negative : Bool} {mantissa : Nat} {exponent whole : Int} :
    (finite negative mantissa exponent).integer? = some whole ↔
      toRat negative mantissa exponent = whole := by
  rw [integer?_finite, toRat_eq_ratio]
  have positive : 0 < Nat.pow 2 (-exponent).toNat := Nat.pow_pos (by decide)
  generalize mantissa * Nat.pow 2 exponent.toNat = numerator
  generalize Nat.pow 2 (-exponent).toNat = denominator at positive
  have nonzero : (denominator : ℚ) ≠ 0 := by exact_mod_cast positive.ne'
  by_cases divides : numerator % denominator = 0
  · obtain ⟨quotient, rfl⟩ := Nat.dvd_of_mod_eq_zero divides
    rw [if_pos divides, Nat.mul_div_cancel_left _ positive, Nat.cast_mul,
      mul_div_cancel_left₀ _ nonzero, Option.some.injEq]
    cases negative
    · simp only [Bool.false_eq_true, if_false, one_mul]
      exact_mod_cast Iff.rfl
    · simp only [if_true, neg_one_mul]
      exact_mod_cast Iff.rfl
  · rw [if_neg divides]
    refine iff_of_false (by simp) fun value => divides ?_
    have multiple : (numerator : ℤ) = (if negative then -1 else 1) * whole * denominator := by
      have cleared : (numerator : ℚ) = (if negative then -1 else 1) * whole * denominator := by
        rw [← value]
        cases negative <;> field_simp <;> simp
      exact_mod_cast cleared
    exact Nat.mod_eq_zero_of_dvd (Int.natCast_dvd_natCast.mp ⟨_, multiple.trans (mul_comm _ _)⟩)

theorem integer?_eq_some_iff {double : Double} {whole : Int} :
    double.integer? = some whole ↔ double.value? = some (.rational whole) := by
  cases double with
  | finite => simp [integer?_finite_iff, value?]
  | infinite | undefined => simp [integer?, value?]

/-- A full mantissa that is shifted further is no mantissa. -/
theorem shift_le {left right leftShift rightShift : Nat} (full : Nat.pow 2 52 ≤ left)
    (narrow : right < Nat.pow 2 53)
    (same : left * Nat.pow 2 leftShift = right * Nat.pow 2 rightShift) :
    leftShift ≤ rightShift := by
  refine Nat.not_lt.mp fun further => ?_
  obtain ⟨gap, rfl⟩ := Nat.exists_eq_add_of_lt further
  have split : Nat.pow 2 (rightShift + gap + 1) = Nat.pow 2 (gap + 1) * Nat.pow 2 rightShift := by
    rw [Nat.add_assoc, Nat.add_comm]
    exact Nat.pow_add 2 (gap + 1) rightShift
  rw [split, ← Nat.mul_assoc] at same
  have shifted : left * Nat.pow 2 (gap + 1) = right :=
    Nat.eq_of_mul_eq_mul_right (Nat.pow_pos (by decide)) same
  have double : 2 ≤ Nat.pow 2 (gap + 1) := Nat.le_self_pow (Nat.succ_ne_zero gap) 2
  have bound := Nat.mul_le_mul full double
  have wide : Nat.pow 2 52 * 2 = Nat.pow 2 53 := rfl
  omega

/-- A mantissa is full, or its shift is the least one, so it is the only one for a number. -/
theorem mantissa_unique {left right leftShift rightShift : Nat}
    (leftNarrow : left < Nat.pow 2 53) (leftFull : Nat.pow 2 52 ≤ left ∨ leftShift = 0)
    (rightNarrow : right < Nat.pow 2 53) (rightFull : Nat.pow 2 52 ≤ right ∨ rightShift = 0)
    (same : left * Nat.pow 2 leftShift = right * Nat.pow 2 rightShift) :
    left = right ∧ leftShift = rightShift := by
  obtain rfl : leftShift = rightShift := by
    refine Nat.le_antisymm ?further ?back
    case further =>
      rcases leftFull with full | least
      · exact shift_le full rightNarrow same
      · omega
    case back =>
      rcases rightFull with full | least
      · exact shift_le full leftNarrow same.symm
      · omega
  exact ⟨Nat.eq_of_mul_eq_mul_right (Nat.pow_pos (by decide)) same, rfl⟩

theorem signed_inj {negative other : Bool} {left right : Nat} (positive : 0 < left)
    (same : (if negative then -1 else 1) * (left : ℚ) = (if other then -1 else 1) * (right : ℚ)) :
    negative = other ∧ left = right := by
  have whole : (if negative then -1 else 1) * (left : ℤ) =
      (if other then -1 else 1) * (right : ℤ) := by exact_mod_cast same
  cases negative <;> cases other <;>
    simp only [Bool.false_eq_true, if_true, if_false, reduceCtorEq, true_and, false_and]
      at whole ⊢ <;> omega

/-- A value is a whole number of the least units. -/
theorem toRat_mul_unit (negative : Bool) (mantissa : Nat) {exponent : Int}
    (least : -1074 ≤ exponent) :
    toRat negative mantissa exponent * 2 ^ 1074 =
      (if negative then -1 else 1) * (mantissa * Nat.pow 2 (exponent + 1074).toNat : Nat) := by
  have power : (2 : ℚ) ^ exponent * 2 ^ 1074 = 2 ^ (exponent + 1074).toNat :=
    zpow_mul_pow (by omega)
  rw [toRat, mul_assoc, mul_assoc, power, Nat.pow_eq, Nat.cast_mul, Nat.cast_pow, Nat.cast_ofNat]

theorem finite_eq_of_toRat {x y : Float} {negativeX negativeY : Bool}
    {mantissaX mantissaY : Nat} {exponentX exponentY : Int}
    (readX : ofFloat x = .finite negativeX mantissaX exponentX)
    (readY : ofFloat y = .finite negativeY mantissaY exponentY)
    (same : toRat negativeX mantissaX exponentX = toRat negativeY mantissaY exponentY)
    (nonzero : toRat negativeX mantissaX exponentX ≠ 0) : ofFloat x = ofFloat y := by
  obtain ⟨narrowX, leastX, fullX⟩ := ofFloat_finite readX
  obtain ⟨narrowY, leastY, fullY⟩ := ofFloat_finite readY
  have present : mantissaX ≠ 0 := by
    rintro rfl
    simp [toRat] at nonzero
  have units := congrArg (· * (2 : ℚ) ^ 1074) same
  simp only [toRat_mul_unit _ _ leastX, toRat_mul_unit _ _ leastY] at units
  obtain ⟨signs, magnitudes⟩ := signed_inj
    (Nat.mul_pos (Nat.pos_of_ne_zero present) (Nat.pow_pos (by decide))) units
  obtain ⟨mantissas, exponents⟩ :=
    mantissa_unique narrowX (fullX.imp_right (by omega)) narrowY (fullY.imp_right (by omega))
      magnitudes
  rw [readX, readY, signs, mantissas, show exponentX = exponentY by omega]

/-- Two doubles of one value other than zero are the same. -/
theorem ofFloat_eq_of_value? {x y : Float} {value : Value}
    (valueX : (ofFloat x).value? = some value) (valueY : (ofFloat y).value? = some value)
    (nonzero : value ≠ .rational 0) : ofFloat x = ofFloat y := by
  cases readX : ofFloat x with
  | undefined => simp [readX, value?] at valueX
  | infinite negativeX =>
      obtain rfl : Value.infinite negativeX = value := by simpa [readX, value?] using valueX
      cases readY : ofFloat y with
      | finite | undefined => simp [readY, value?] at valueY
      | infinite negativeY =>
          obtain rfl : negativeY = negativeX := by simpa [readY, value?] using valueY
          rfl
  | finite negativeX mantissaX exponentX =>
      obtain rfl : Value.rational (toRat negativeX mantissaX exponentX) = value := by
        simpa [readX, value?] using valueX
      cases readY : ofFloat y with
      | infinite | undefined => simp [readY, value?] at valueY
      | finite negativeY mantissaY exponentY =>
          have same : toRat negativeY mantissaY exponentY =
              toRat negativeX mantissaX exponentX := by simpa [readY, value?] using valueY
          rw [← readX, ← readY]
          exact finite_eq_of_toRat readX readY same.symm fun zero => nonzero (by rw [zero])

theorem toBits_of_ofFloat {x y : Float} (same : ofFloat x = ofFloat y)
    (defined : ofFloat x ≠ .undefined) : x.toBits.toNat = y.toBits.toNat := by
  have boundX : x.toBits.toNat < 2 ^ 64 := x.toBits.toNat_lt
  have boundY : y.toBits.toNat < 2 ^ 64 := y.toBits.toNat_lt
  unfold ofFloat at same defined
  dsimp only at same defined
  generalize x.toBits.toNat = bitsX at *
  generalize y.toBits.toNat = bitsY at *
  obtain ⟨signs, places, fractions⟩ :
      decide (Nat.pow 2 63 ≤ bitsX) = decide (Nat.pow 2 63 ≤ bitsY) ∧
        bitsX / Nat.pow 2 52 % 2048 = bitsY / Nat.pow 2 52 % 2048 ∧
        bitsX % Nat.pow 2 52 = bitsY % Nat.pow 2 52 := by
    have narrowX : bitsX % Nat.pow 2 52 < 2 ^ 52 := Nat.mod_lt _ (by decide)
    have narrowY : bitsY % Nat.pow 2 52 < 2 ^ 52 := Nat.mod_lt _ (by decide)
    generalize bitsX % Nat.pow 2 52 = fractionX at *
    generalize bitsY % Nat.pow 2 52 = fractionY at *
    generalize bitsX / Nat.pow 2 52 % 2048 = placeX at *
    generalize bitsY / Nat.pow 2 52 % 2048 = placeY at *
    -- The leading one of a normal number makes its mantissa greater than any fraction.
    grind
  have signs := decide_eq_decide.mp signs
  simp only [Nat.pow_eq] at signs places fractions
  omega

theorem toBits_inj {x y : Float} : x.toBits = y.toBits ↔ x = y := by
  constructor
  · intro same
    cases x with | ofModel x =>
    cases y with | ofModel y =>
    cases x
    cases y
    cases same
    rfl
  · rintro rfl
    rfl

/-- A double other than `NaN` is known by its sign, mantissa and exponent. -/
theorem ofFloat_inj {x y : Float} (defined : ofFloat x ≠ .undefined) :
    ofFloat x = ofFloat y ↔ x = y := by
  constructor
  · intro same
    exact toBits_inj.mp (UInt64.toNat_inj.mp (toBits_of_ofFloat same defined))
  · rintro rfl
    rfl

end RuleChart.Double
