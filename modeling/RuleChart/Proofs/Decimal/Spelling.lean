import Mathlib.Algebra.Order.Ring.Rat
import Mathlib.Data.List.DropRight
import Mathlib.Tactic.NormNum
import RuleChart.Decimal.Hundredths

namespace RuleChart

/-! Decimals as they are spelled.

A decimal is read off its marks exactly.  Zeros that end the places behind the point add nothing to
it, and neither does a point without places.  Leaving out the zeros, then the point, gives the
spelling of the same decimal that has neither, but only where there is a point to stop at: the zeros
that end a whole number are not spared.
-/

/-- A decimal in parts: its sign, the digits before the point and, if a point is written, those
behind it. -/
structure Spelling where
  negative : Bool
  whole : List Char
  fraction : Option (List Char)
  whole_ne_nil : whole ≠ []
  whole_digits : ∀ c ∈ whole, c.isDigit = true
  fraction_digits : ∀ c ∈ fraction.getD [], c.isDigit = true

namespace Spelling

/-- The digits behind the point. -/
def places (spelling : Spelling) : List Char := spelling.fraction.getD []

/-- The number that is spelled. -/
def value (spelling : Spelling) : ℚ :=
  (if spelling.negative then -1 else 1) *
    (Nat.ofDigitChars 10 (spelling.whole ++ spelling.places) 0 / 10 ^ spelling.places.length)

/-- No point stands at the end, and no zero at the end of the places. -/
def Minimal (spelling : Spelling) : Prop :=
  ∀ places, spelling.fraction = some places → places ≠ [] ∧ places.getLast? ≠ some '0'

/-- The point and what stands behind it. -/
def pointText : Option (List Char) → List Char
  | none => []
  | some places => '.' :: places

def text (spelling : Spelling) : List Char :=
  (Double.signText spelling.negative).toList ++ spelling.whole ++ pointText spelling.fraction

def ofParts? (negative : Bool) (whole : List Char) (fraction : Option (List Char)) :
    Option Spelling :=
  if valid : whole ≠ [] ∧ whole.all Char.isDigit = true ∧
      (fraction.getD []).all Char.isDigit = true then
    some ⟨negative, whole, fraction, valid.1, List.all_eq_true.mp valid.2.1,
      List.all_eq_true.mp valid.2.2⟩
  else none

def readUnsigned? (negative : Bool) (text : List Char) : Option Spelling :=
  let whole := text.takeWhile Char.isDigit
  match text.dropWhile Char.isDigit with
  | [] => ofParts? negative whole none
  | '.' :: places => ofParts? negative whole (some places)
  | _ => none

/-- Reads a whole text: digits, with or without a minus before them, and with or without a point
and more digits behind them. -/
def read? : List Char → Option Spelling
  | '-' :: unsigned => readUnsigned? true unsigned
  | unsigned => readUnsigned? false unsigned

theorem ofParts?_parts (spelling : Spelling) :
    ofParts? spelling.negative spelling.whole spelling.fraction = some spelling :=
  dif_pos ⟨spelling.whole_ne_nil, List.all_eq_true.mpr spelling.whole_digits,
    List.all_eq_true.mpr spelling.fraction_digits⟩

theorem pointText_not_digit (fraction : Option (List Char)) :
    (pointText fraction).takeWhile Char.isDigit = [] ∧
      (pointText fraction).dropWhile Char.isDigit = pointText fraction := by
  cases fraction <;> exact ⟨rfl, rfl⟩

theorem readUnsigned?_text (spelling : Spelling) :
    readUnsigned? spelling.negative (spelling.whole ++ pointText spelling.fraction) =
      some spelling := by
  have whole : (spelling.whole ++ pointText spelling.fraction).takeWhile Char.isDigit =
      spelling.whole := by
    rw [List.takeWhile_append_of_pos spelling.whole_digits,
      (pointText_not_digit spelling.fraction).1, List.append_nil]
  have rest : (spelling.whole ++ pointText spelling.fraction).dropWhile Char.isDigit =
      pointText spelling.fraction := by
    rw [List.dropWhile_append_of_pos spelling.whole_digits,
      (pointText_not_digit spelling.fraction).2]
  have parts := ofParts?_parts spelling
  unfold readUnsigned?
  simp only [whole, rest]
  cases fraction : spelling.fraction <;> rwa [fraction] at parts

/-- What is written is read back. -/
theorem read?_text (spelling : Spelling) : read? spelling.text = some spelling := by
  have unsigned := readUnsigned?_text spelling
  unfold text
  cases negative : spelling.negative with
  | true => rwa [negative] at unsigned
  | false =>
      rw [negative] at unsigned
      obtain ⟨first, rest, whole⟩ := List.exists_cons_of_ne_nil spelling.whole_ne_nil
      have digit : first.isDigit = true :=
        spelling.whole_digits first (whole ▸ List.mem_cons_self)
      rw [whole] at unsigned ⊢
      rw [← unsigned]
      change read? (first :: (rest ++ pointText spelling.fraction)) = _
      rw [read?]
      · rfl
      -- A text that starts with a digit does not start with a minus.
      · rintro other start
        obtain ⟨rfl, -⟩ := List.cons.inj start
        exact absurd digit (by decide)

theorem text_injective : Function.Injective text := by
  intro left right same
  have read := congrArg read? same
  rwa [read?_text, read?_text, Option.some.injEq] at read

theorem withoutTrailing_eq (mark : Char) (text : List Char) :
    withoutTrailing mark text = text.rdropWhile (· == mark) := rfl

/-- Marks are left out up to another one at the latest. -/
theorem withoutTrailing_append_cons {mark other : Char} (different : other ≠ mark)
    (front back : List Char) :
    withoutTrailing mark (front ++ other :: back) =
      front ++ other :: withoutTrailing mark back := by
  simp only [withoutTrailing_eq]
  induction back using List.reverseRecOn with
  | nil =>
      rw [List.rdropWhile_nil]
      exact List.rdropWhile_concat_neg _ _ _ (by simpa using different)
  | append_singleton back last backIH =>
      rw [← List.cons_append, ← List.append_assoc, List.rdropWhile_concat, List.rdropWhile_concat,
        backIH]
      split
      · rfl
      · rw [List.append_assoc, List.cons_append]

theorem withoutTrailing_of_last {mark last : Char} {text : List Char}
    (ends : text.getLast? = some last) (different : last ≠ mark) :
    withoutTrailing mark text = text := by
  obtain ⟨front, rfl⟩ := List.getLast?_eq_some_iff.mp ends
  rw [withoutTrailing_append_cons different]
  rfl

def someNonempty : List Char → Option (List Char)
  | [] => none
  | places => some places

theorem getD_someNonempty (places : List Char) : (someNonempty places).getD [] = places := by
  cases places <;> rfl

theorem someNonempty_eq_some_iff {kept places : List Char} :
    someNonempty kept = some places ↔ kept = places ∧ kept ≠ [] := by
  cases kept <;> simp [someNonempty]

/-- Without the zeros that end the places, and without a point that has no place left. -/
def shortened (spelling : Spelling) : Spelling where
  negative := spelling.negative
  whole := spelling.whole
  fraction := someNonempty (withoutTrailing '0' spelling.places)
  whole_ne_nil := spelling.whole_ne_nil
  whole_digits := spelling.whole_digits
  fraction_digits := by
    intro c member
    rw [getD_someNonempty, withoutTrailing_eq] at member
    exact spelling.fraction_digits c ((List.rdropWhile_prefix _ _).subset member)

variable {spelling : Spelling}

theorem places_shortened : spelling.shortened.places = withoutTrailing '0' spelling.places :=
  getD_someNonempty _

theorem length_places_shortened : spelling.shortened.places.length ≤ spelling.places.length := by
  rw [places_shortened]
  exact (List.rdropWhile_prefix _ _).length_le

theorem minimal_shortened : spelling.shortened.Minimal := by
  intro places written
  obtain ⟨rfl, nonempty⟩ := someNonempty_eq_some_iff.mp written
  refine ⟨nonempty, fun zero => ?_⟩
  rw [List.getLast?_eq_some_getLast nonempty] at zero
  exact List.rdropWhile_last_not (· == '0') _ nonempty (beq_iff_eq.mpr (Option.some.inj zero))

theorem getLast?_digit {digits : List Char} (nonempty : digits ≠ [])
    (every : ∀ c ∈ digits, c.isDigit = true) :
    ∃ last, digits.getLast? = some last ∧ last ≠ '.' := by
  refine ⟨digits.getLast nonempty, List.getLast?_eq_some_getLast nonempty, fun point => ?_⟩
  have digit := every _ (List.getLast_mem nonempty)
  rw [point] at digit
  exact absurd digit (by decide)

/-- Of a text with a point only zeros behind the point are left out, and the point only if nothing
is left behind it. -/
theorem withoutTrailing_text {places : List Char} (written : spelling.fraction = some places) :
    withoutTrailing '.' (withoutTrailing '0' spelling.text) = spelling.shortened.text := by
  have shape : spelling.shortened.text =
      (Double.signText spelling.negative).toList ++ spelling.whole ++
        pointText (someNonempty (withoutTrailing '0' spelling.places)) := rfl
  have same : places = spelling.places := by rw [Spelling.places, written, Option.getD_some]
  rw [shape, text, written, pointText, withoutTrailing_append_cons (by decide), same]
  cases kept : withoutTrailing '0' spelling.places with
  | nil =>
      obtain ⟨last, ends, different⟩ :=
        getLast?_digit spelling.whole_ne_nil spelling.whole_digits
      rw [withoutTrailing_eq, List.rdropWhile_concat_pos _ _ _ (by decide), ← withoutTrailing_eq,
        someNonempty, pointText, List.append_nil]
      refine withoutTrailing_of_last ?_ different
      rw [List.getLast?_append, ends, Option.some_or]
  | cons first rest =>
      have digits : ∀ c ∈ first :: rest, c.isDigit = true := by
        have every := spelling.shortened.fraction_digits
        rwa [← Spelling.places, places_shortened, kept] at every
      obtain ⟨last, ends, different⟩ := getLast?_digit (List.cons_ne_nil first rest) digits
      refine withoutTrailing_of_last ?_ different
      rw [← List.singleton_append, ← List.append_assoc, List.getLast?_append, ends, Option.some_or]

theorem ofDigitChars_append_zero (digits : List Char) :
    Nat.ofDigitChars 10 (digits ++ ['0']) 0 = 10 * Nat.ofDigitChars 10 digits 0 := by
  rw [Nat.ofDigitChars_append]
  rfl

theorem value_withoutTrailing (whole places : List Char) :
    (Nat.ofDigitChars 10 (whole ++ withoutTrailing '0' places) 0 /
        10 ^ (withoutTrailing '0' places).length : ℚ) =
      Nat.ofDigitChars 10 (whole ++ places) 0 / 10 ^ places.length := by
  induction places using List.reverseRecOn with
  | nil => rfl
  | append_singleton places last placesIH =>
      rw [withoutTrailing_eq, List.rdropWhile_concat]
      split
      case isTrue zero =>
        obtain rfl : last = '0' := beq_iff_eq.mp zero
        rw [← withoutTrailing_eq, placesIH, ← List.append_assoc, ofDigitChars_append_zero,
          List.length_append, List.length_singleton, pow_succ', Nat.cast_mul, Nat.cast_ofNat,
          mul_div_mul_left _ _ (by norm_num)]
      case isFalse => rfl

/-- What is left out does not change the number. -/
theorem value_shortened : spelling.shortened.value = spelling.value := by
  rw [value, places_shortened]
  exact congrArg _ (value_withoutTrailing spelling.whole spelling.places)

end Spelling

end RuleChart
