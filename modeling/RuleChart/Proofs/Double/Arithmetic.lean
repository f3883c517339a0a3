import RuleChart.Proofs.Double.Order

namespace RuleChart.Double

open Float.Model (Format UnpackedFloat)
open Float.Model.UnpackedFloat

/-- The double next to an amount in units of `2 ^ -(1074 + finer)`. -/
def closest (finer : Nat) : ℕ∞ → ℕ∞
  | ⊤ => ⊤
  | (amount : Nat) => bounded (nearest finer amount)

theorem closest_coe (finer amount : Nat) :
    closest finer amount = bounded (nearest finer amount) := rfl

theorem closest_mono (finer : Nat) : Monotone (closest finer) := by
  intro less more ordered
  cases more with
  | top => exact le_top
  | coe more =>
      cases less with
      | top => exact absurd ordered (by simp)
      | coe less =>
          rw [closest_coe, closest_coe]
          exact bounded_mono (nearest_mono finer (by exact_mod_cast ordered))

@[simp] theorem closest_zero (finer : Nat) : closest finer 0 = 0 := by
  change bounded (nearest finer 0) = 0
  rw [nearest_zero, bounded, if_pos ceiling_pos, Nat.cast_zero]

/-- What a double holds needs no rounding. -/
theorem Counts.closest_eq {x : UnpackedFloat} {amount : ℕ∞} (counts : Counts x amount) :
    closest 0 amount = amount := by
  cases counts with
  | zero => exact closest_zero 0
  | finite present canonical low =>
      rw [closest_coe, nearest_of_short canonical.narrow, bounded,
        if_pos (canonical.lt_ceiling_iff.mpr low)]
  | infinite => rfl

theorem Counts.eq_zero {x : UnpackedFloat} (counts : Counts x 0) : ∃ sign, x = .zero sign := by
  generalize none : (0 : ℕ∞) = amount at counts
  cases counts with
  | zero sign => exact ⟨sign, rfl⟩
  | finite present =>
      exact absurd (by exact_mod_cast none.symm) (Nat.mul_pos present (Nat.two_pow_pos _)).ne'
  | infinite => cases none

theorem Counts.eq_infinity {x : UnpackedFloat} (counts : Counts x ⊤) : x = .infinity .positive := by
  cases counts
  rfl

theorem Counts.mul_finite {mantissaX mantissaY : Nat} {exponentX exponentY : Int}
    (presentX : 0 < mantissaX) (presentY : 0 < mantissaY)
    (canonicalX : Canonical mantissaX exponentX) (canonicalY : Canonical mantissaY exponentY) :
    Counts (unpack .binary64 (pack .binary64
        (mul .binary64 (.finite .positive mantissaX exponentX presentX)
          (.finite .positive mantissaY exponentY presentY))))
      (closest 1074 ((mantissaX * 2 ^ (exponentX + 1074).toNat) *
        (mantissaY * 2 ^ (exponentY + 1074).toNat) : Nat)) := by
  have leastX := canonicalX.least
  have leastY := canonicalY.least
  have low : exponentX + exponentY ≤ -1074 ∨ 52 ≤ (mantissaX * mantissaY).log2 := by
    rw [Nat.le_log2 (Nat.mul_pos presentX presentY).ne']
    rcases canonicalX.full with fullX | lowestX
    · exact .inr (fullX.trans (Nat.le_mul_of_pos_right mantissaX presentY))
    · rcases canonicalY.full with fullY | lowestY
      · exact .inr (fullY.trans (Nat.le_mul_of_pos_left mantissaY presentX))
      · exact .inl (by omega)
  obtain ⟨final, place, canonical, same, read⟩ :=
    roundWithAccuracy_exact .positive 1074 (Nat.mul_pos presentX presentY)
      (show 0 ≤ exponentX + exponentY + 1074 + (1074 : Nat) by omega) low
  have amount : mantissaX * 2 ^ (exponentX + 1074).toNat *
      (mantissaY * 2 ^ (exponentY + 1074).toNat) =
        mantissaX * mantissaY * 2 ^ (exponentX + exponentY + 1074 + (1074 : Nat)).toNat := by
    have places : (exponentX + exponentY + 1074 + (1074 : Nat)).toNat =
        (exponentX + 1074).toNat + (exponentY + 1074).toNat := by omega
    rw [places]
    ring
  rw [closest_coe, amount, ← same]
  change Counts (unpack .binary64 (pack .binary64 (roundWithAccuracy .binary64 .positive
    (mantissaX * mantissaY) (exponentX + exponentY) .exact))) _
  rw [read]
  exact counts_written canonical

/-- Nothing times infinity is no number; any other product is next to the exact one. -/
theorem Counts.mul {x y : UnpackedFloat} {amountX amountY : ℕ∞} (countsX : Counts x amountX)
    (countsY : Counts y amountY) (first : amountX = 0 → amountY ≠ ⊤)
    (second : amountX = ⊤ → amountY ≠ 0) :
    Counts (unpack .binary64 (pack .binary64 (mul .binary64 x y)))
      (closest 1074 (amountX * amountY)) := by
  cases countsX with
  | zero signX =>
      rw [zero_mul, closest_zero]
      cases countsY with
      | zero signY => exact counts_stored_zero _
      | finite presentY => exact counts_stored_zero _
      | infinite => exact absurd rfl (first rfl)
  | finite presentX canonicalX lowX =>
      cases countsY with
      | zero signY =>
          rw [mul_zero, closest_zero]
          exact counts_stored_zero _
      | finite presentY canonicalY lowY =>
          rw [← Nat.cast_mul]
          exact Counts.mul_finite presentX presentY canonicalX canonicalY
      | infinite =>
          rw [ENat.mul_top (by exact_mod_cast (Nat.mul_pos presentX (Nat.two_pow_pos _)).ne')]
          exact counts_stored_infinity
  | infinite =>
      cases countsY with
      | zero signY => exact absurd rfl (second rfl)
      | finite presentY canonicalY lowY =>
          rw [ENat.top_mul (by exact_mod_cast (Nat.mul_pos presentY (Nat.two_pow_pos _)).ne')]
          exact counts_stored_infinity
      | infinite =>
          rw [ENat.top_mul (by simp)]
          exact counts_stored_infinity

theorem unpack_mul (x y : Float) : (x * y).toModel.unpack =
    unpack .binary64 (pack .binary64 (mul .binary64 x.toModel.unpack y.toModel.unpack)) := rfl

theorem Holds.mul {x y : Float} {amountX amountY : ℕ∞} (holdsX : Holds x amountX)
    (holdsY : Holds y amountY) (first : amountX = 0 → amountY ≠ ⊤)
    (second : amountX = ⊤ → amountY ≠ 0) : Holds (x * y) (closest 1074 (amountX * amountY)) :=
  Counts.mul holdsX holdsY first second

theorem isNaN_mul_of_unpacked {x y : Float}
    (undefined : mul .binary64 x.toModel.unpack y.toModel.unpack = .notANumber) :
    (x * y).isNaN = true := by
  rw [isNaN_iff, unpack_mul, undefined]
  exact unpack_packedNaN

theorem isNaN_mul {x y : Float} (undefined : x.isNaN = true ∨ y.isNaN = true) :
    (x * y).isNaN = true := by
  refine isNaN_mul_of_unpacked ?_
  rcases undefined with undefined | undefined
  · rw [isNaN_iff.mp undefined]
    rfl
  · rw [isNaN_iff.mp undefined]
    cases x.toModel.unpack <;> rfl

theorem Holds.isNaN_mul_iff {x y : Float} {amountX amountY : ℕ∞} (holdsX : Holds x amountX)
    (holdsY : Holds y amountY) :
    (x * y).isNaN = true ↔ amountX = 0 ∧ amountY = ⊤ ∨ amountX = ⊤ ∧ amountY = 0 := by
  constructor
  · intro undefined
    by_contra neither
    obtain ⟨first, second⟩ := not_or.mp neither
    have product := holdsX.mul holdsY (not_and.mp first) (not_and.mp second)
    exact Bool.false_ne_true (product.isNaN.symm.trans undefined)
  · intro either
    refine isNaN_mul_of_unpacked ?_
    unfold Holds at holdsX holdsY
    generalize x.toModel.unpack = unpackedX at holdsX
    generalize y.toModel.unpack = unpackedY at holdsY
    rcases either with ⟨rfl, rfl⟩ | ⟨rfl, rfl⟩
    · obtain ⟨sign, rfl⟩ := holdsX.eq_zero
      obtain rfl := holdsY.eq_infinity
      rfl
    · obtain rfl := holdsX.eq_infinity
      obtain ⟨sign, rfl⟩ := holdsY.eq_zero
      rfl

theorem decreaseExponent_eq {mantissa : Nat} {exponent least : Int} (higher : least ≤ exponent) :
    decreaseExponent mantissa exponent least =
      (mantissa * 2 ^ (exponent - least).toNat, least) := by
  simp only [decreaseExponent, Nat.shiftLeft_eq, Prod.mk.injEq, true_and]
  omega

theorem Counts.add_finite {mantissaX mantissaY : Nat} {exponentX exponentY : Int}
    (presentX : 0 < mantissaX) (presentY : 0 < mantissaY)
    (canonicalX : Canonical mantissaX exponentX) (canonicalY : Canonical mantissaY exponentY) :
    Counts (unpack .binary64 (pack .binary64
        (add .binary64 (.finite .positive mantissaX exponentX presentX)
          (.finite .positive mantissaY exponentY presentY))))
      (closest 0 (mantissaX * 2 ^ (exponentX + 1074).toNat +
        mantissaY * 2 ^ (exponentY + 1074).toNat : Nat)) := by
  have leastX := canonicalX.least
  have leastY := canonicalY.least
  obtain ⟨least, lower⟩ : ∃ least, min exponentX exponentY = least := ⟨_, rfl⟩
  have present : 0 < mantissaX * 2 ^ (exponentX - least).toNat +
      mantissaY * 2 ^ (exponentY - least).toNat :=
    Nat.add_pos_left (Nat.mul_pos presentX (Nat.two_pow_pos _)) _
  obtain ⟨final, place, canonical, same, read⟩ :=
    round_exact .positive 0 present (show 0 ≤ least + 1074 + (0 : Nat) by omega)
  have amount : mantissaX * 2 ^ (exponentX + 1074).toNat +
      mantissaY * 2 ^ (exponentY + 1074).toNat =
        (mantissaX * 2 ^ (exponentX - least).toNat + mantissaY * 2 ^ (exponentY - least).toNat) *
          2 ^ (least + 1074 + (0 : Nat)).toNat := by
    have placeX : (exponentX + 1074).toNat =
        (exponentX - least).toNat + (least + 1074 + (0 : Nat)).toNat := by omega
    have placeY : (exponentY + 1074).toNat =
        (exponentY - least).toNat + (least + 1074 + (0 : Nat)).toNat := by omega
    rw [placeX, placeY]
    ring
  rw [closest_coe, amount, ← same]
  have positive : compare ((mantissaX * 2 ^ (exponentX - least).toNat : Nat) +
      (mantissaY * 2 ^ (exponentY - least).toNat : Nat) : Int) 0 = .gt :=
    compare_gt_iff_gt.mpr (by exact_mod_cast present)
  unfold UnpackedFloat.add
  simp only [lower, decreaseExponent_eq (show least ≤ exponentX by omega),
    decreaseExponent_eq (show least ≤ exponentY by omega), Sign.apply, UnpackedFloat.normalize,
    positive]
  rw [← Nat.cast_add, Int.toNat_natCast, read]
  exact counts_written canonical

theorem Counts.add {x y : UnpackedFloat} {amountX amountY : ℕ∞} (countsX : Counts x amountX)
    (countsY : Counts y amountY) :
    Counts (unpack .binary64 (pack .binary64 (add .binary64 x y)))
      (closest 0 (amountX + amountY)) := by
  cases countsX with
  | zero signX =>
      rw [zero_add, countsY.closest_eq]
      cases countsY with
      | zero signY =>
          cases signX <;> cases signY <;> exact counts_stored_zero _
      | finite presentY canonicalY lowY =>
          exact (unpack_pack_finite .positive presentY canonicalY lowY).symm ▸
            .finite presentY canonicalY lowY
      | infinite => exact counts_stored_infinity
  | finite presentX canonicalX lowX =>
      cases countsY with
      | zero signY =>
          have countsX := Counts.finite presentX canonicalX lowX
          rw [add_zero, countsX.closest_eq]
          exact countsX.unpack_pack.symm ▸ countsX
      | finite presentY canonicalY lowY =>
          rw [← Nat.cast_add]
          exact Counts.add_finite presentX presentY canonicalX canonicalY
      | infinite => exact counts_stored_infinity
  | infinite =>
      rw [top_add]
      cases countsY <;> exact counts_stored_infinity

theorem unpack_add (x y : Float) : (x + y).toModel.unpack =
    unpack .binary64 (pack .binary64 (add .binary64 x.toModel.unpack y.toModel.unpack)) := rfl

theorem Holds.add {x y : Float} {amountX amountY : ℕ∞} (holdsX : Holds x amountX)
    (holdsY : Holds y amountY) : Holds (x + y) (closest 0 (amountX + amountY)) :=
  Counts.add holdsX holdsY

theorem isNaN_add {x y : Float} (undefined : x.isNaN = true ∨ y.isNaN = true) :
    (x + y).isNaN = true := by
  have sum : add .binary64 x.toModel.unpack y.toModel.unpack = .notANumber := by
    rcases undefined with undefined | undefined
    · rw [isNaN_iff.mp undefined]
      rfl
    · rw [isNaN_iff.mp undefined]
      cases x.toModel.unpack <;> rfl
  rw [isNaN_iff, unpack_add, sum]
  exact unpack_packedNaN

/-- So many of the least positive doubles make one. -/
def unit : Nat := 2 ^ 1074

theorem unit_eq : ∃ place : Nat, place = 1074 ∧ unit = 2 ^ place := ⟨_, rfl, rfl⟩

theorem unit_pos : 0 < unit := by
  obtain ⟨place, -, one⟩ := unit_eq
  rw [one]
  exact Nat.two_pow_pos place

theorem counts_ofNat (count : Nat) :
    Counts (unpack .binary64 (pack .binary64 (ofNat .binary64 count)))
      (closest 0 (count * unit : Nat)) := by
  rcases Nat.eq_zero_or_pos count with rfl | present
  · rw [Nat.zero_mul, Nat.cast_zero, closest_zero]
    exact counts_stored_zero .positive
  obtain ⟨final, place, canonical, same, read⟩ :=
    round_exact .positive 0 present (show 0 ≤ (0 : Int) + 1074 + (0 : Nat) by omega)
  obtain ⟨scale, scaled, one⟩ := unit_eq
  have positive : compare (count : Int) 0 = .gt := compare_gt_iff_gt.mpr (by exact_mod_cast present)
  rw [show ((0 : Int) + 1074 + (0 : Nat)).toNat = scale by omega, ← one] at same
  unfold ofNat ofInt UnpackedFloat.normalize
  simp only [positive, Int.toNat_natCast, read]
  rw [closest_coe, ← same]
  exact counts_written canonical

theorem holds_one : Holds Float.exactlyRepresentablePowersOfTen[0] unit := by
  have stored : Float.toModel Float.exactlyRepresentablePowersOfTen[0] =
      .pack (.finite .positive (2 ^ 52) (-52) (by decide)) := by decide
  have canonical : Canonical (2 ^ 52) (-52) := ⟨by decide, by decide, .inl le_rfl⟩
  have counts : Counts (.finite .positive (2 ^ 52) (-52) (by decide)) unit := by
    obtain ⟨place, placed, one⟩ := unit_eq
    have amount : unit = 2 ^ 52 * 2 ^ ((-52 : Int) + 1074).toNat := by
      obtain ⟨more, moved⟩ : ∃ more : Nat, ((-52 : Int) + 1074).toNat = more := ⟨_, rfl⟩
      rw [one, moved, ← Nat.pow_add, show place = 52 + more by omega]
    rw [amount]
    exact .finite _ canonical (by decide)
  rw [Holds, stored]
  exact counts.unpack_pack.symm ▸ counts

/-- Once makes no difference. -/
theorem Counts.closest_mul_unit {x : UnpackedFloat} {amount : ℕ∞} (counts : Counts x amount) :
    closest 1074 (amount * unit) = amount := by
  cases amount with
  | top =>
      rw [ENat.top_mul (by exact_mod_cast unit_pos.ne')]
      rfl
  | coe amount =>
      obtain ⟨place, placed, one⟩ := unit_eq
      have scaled := nearest_scale 0 place amount
      rw [Nat.zero_add] at scaled
      rw [← Nat.cast_mul, closest_coe, one, ← placed, scaled]
      exact counts.closest_eq

theorem natCast_eq_ofScientific {count : Nat} (large : 2 ^ 53 ≤ count) :
    ((count : Nat) : Float) = .ofModel (.ofScientific count 0) := by
  change Float.ofNat count = _
  unfold Float.ofNat
  change Float.ofScientific count false 0 = _
  unfold Float.ofScientific
  rw [dif_neg (by omega)]
  rfl

theorem natCast_eq_mul {count : Nat} (small : count < 2 ^ 53) :
    ((count : Nat) : Float) =
      count.toUInt64.toFloat * Float.exactlyRepresentablePowersOfTen[0] := by
  change Float.ofNat count = _
  unfold Float.ofNat
  change Float.ofScientific count false 0 = _
  unfold Float.ofScientific
  rw [dif_pos (by omega)]
  rfl

theorem holds_natCast_of_small {count : Nat} (small : count < 2 ^ 53) :
    Holds ((count : Nat) : Float) (closest 0 (count * unit : Nat)) := by
  have whole : count.toUInt64.toNat = count := by
    rw [Nat.toUInt64, UInt64.toNat_ofNat', Nat.mod_eq_of_lt (by omega)]
  have first : Holds count.toUInt64.toFloat (closest 0 (count * unit : Nat)) := by
    change Counts (unpack .binary64 (pack .binary64 (ofNat .binary64 count.toUInt64.toNat))) _
    rw [whole]
    exact counts_ofNat count
  rw [natCast_eq_mul small]
  have product := first.mul holds_one (fun _ => ENat.natCast_ne_top _) fun _ => by
    exact_mod_cast unit_pos.ne'
  rwa [Counts.closest_mul_unit first] at product

theorem ofScientific_natCast {count : Nat} (present : 0 < count) :
    ofScientific .binary64 count 0 =
      roundWithAccuracy .binary64 .positive (count * 2 ^ 53) (-53) .exact := by
  have bits : (2 ^ Format.binary64.exponentBits : Int) = 2048 := rfl
  unfold ofScientific
  rw [dif_neg present.ne', if_neg (by omega), if_neg (by omega), if_pos le_rfl, ← Nat.shiftLeft_eq]
  simp only [UnpackedFloat.mul, Format.mantissaBits, Int.toNat_zero, Nat.pow_zero, Nat.mul_one]
  congr 1

theorem holds_natCast_of_large {count : Nat} (large : 2 ^ 53 ≤ count) :
    Holds ((count : Nat) : Float) (closest 0 (count * unit : Nat)) := by
  have present : 0 < count := by omega
  have low : 52 ≤ (count * 2 ^ 53).log2 := by
    rw [log2_mul_pow 53 present]
    omega
  obtain ⟨final, place, canonical, same, read⟩ :=
    roundWithAccuracy_exact .positive 0 (Nat.mul_pos present (Nat.two_pow_pos 53))
      (show 0 ≤ (-53 : Int) + 1074 + (0 : Nat) by omega) (.inr low)
  have amount : count * 2 ^ 53 * 2 ^ ((-53 : Int) + 1074 + (0 : Nat)).toNat = count * unit := by
    obtain ⟨scale, scaled, one⟩ := unit_eq
    obtain ⟨more, moved⟩ : ∃ more : Nat, ((-53 : Int) + 1074 + (0 : Nat)).toNat = more := ⟨_, rfl⟩
    rw [one, moved, Nat.mul_assoc, ← Nat.pow_add, show scale = 53 + more by omega]
  rw [natCast_eq_ofScientific large]
  change Counts (unpack .binary64 (pack .binary64 (ofScientific .binary64 count 0))) _
  rw [ofScientific_natCast present, read, closest_coe, ← amount, ← same]
  exact counts_written canonical

/-- A whole number is the double next to it. -/
theorem holds_natCast (count : Nat) :
    Holds ((count : Nat) : Float) (closest 0 (count * unit : Nat)) := by
  rcases Nat.lt_or_ge count (2 ^ 53) with small | large
  · exact holds_natCast_of_small small
  · exact holds_natCast_of_large large

theorem closest_mul_unit_eq_zero_iff {count : Nat} :
    closest 0 (count * unit : Nat) = 0 ↔ count = 0 := by
  constructor
  · intro none
    by_contra present
    have more : closest 0 (unit : Nat) ≤ closest 0 (count * unit : Nat) :=
      closest_mono 0 (by exact_mod_cast Nat.le_mul_of_pos_left unit (Nat.pos_of_ne_zero present))
    rw [none, Counts.closest_eq holds_one, nonpos_iff_eq_zero] at more
    exact unit_pos.ne' (by exact_mod_cast more)
  · rintro rfl
    rw [Nat.zero_mul, Nat.cast_zero, closest_zero]

end RuleChart.Double
