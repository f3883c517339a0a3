import RuleChart.Proofs.Rule.Decision

namespace RuleChart.Rule

/-- Pairs behind each other, and what is to be taken where no condition holds. -/
def operandsOf : List (Rule × Rule) → Option Rule → List Rule
  | [], default => default.toList
  | pair :: rest, default => pair.1 :: pair.2 :: operandsOf rest default

def chain (operator : String) (pairs : List (Rule × Rule)) (default : Option Rule) : Rule :=
  .apply operator (operandsOf pairs default) []

def nested (operator : String) (first : Rule × Rule) :
    List (Rule × Rule) → Option Rule → Rule
  | [], default => .apply operator (first.1 :: first.2 :: default.toList) []
  | next :: rest, default =>
      .apply operator [first.1, first.2, nested operator next rest default] []

variable {operator : String} {default : Option Rule}

theorem nested_conditional (conditional : Family.ofName operator = .conditional)
    (first : Rule × Rule) (rest : List (Rule × Rule)) :
    (nested operator first rest default).isConditional = true := by
  cases rest <;> exact isConditional_apply.mpr conditional

/-- With two pairs or more, the two ways differ. -/
theorem chain_ne_nested (first next : Rule × Rule) (rest : List (Rule × Rule)) :
    chain operator (first :: next :: rest) default ≠
      nested operator first (next :: rest) default := by
  simp [chain, nested, operandsOf]

mutual

theorem fits_mono {room more : Nat} (enough : room ≤ more) (rule : Rule)
    (fits : rule.fits room = true) : rule.fits more = true := by
  cases rule with
  | null | bool | number | string | emptyObject => rfl
  | list items =>
      simp only [Rule.fits, Bool.and_eq_true, bne_iff_ne] at fits ⊢
      exact ⟨by omega, fitsAll_mono (by omega) items fits.2⟩
  | apply operator operands keys =>
      simp only [Rule.fits, Bool.and_eq_true, bne_iff_ne] at fits ⊢
      exact ⟨by omega, fitsAll_mono (by omega) operands fits.2⟩
  | applyOne operator operand keys =>
      simp only [Rule.fits, Bool.and_eq_true, bne_iff_ne] at fits ⊢
      exact ⟨by omega, fits_mono (by omega) operand fits.2⟩

theorem fitsAll_mono {room more : Nat} (enough : room ≤ more) (rules : List Rule)
    (fits : fitsAll room rules = true) : fitsAll more rules = true := by
  cases rules with
  | nil => rfl
  | cons rule rest =>
      simp only [fitsAll, Bool.and_eq_true] at fits ⊢
      exact ⟨fits_mono enough rule fits.1, fitsAll_mono enough rest fits.2⟩

end

/-- Every conditional of a nested form is a level below the one before. -/
theorem length_lt_of_nested_fits {room : Nat} (first : Rule × Rule) (rest : List (Rule × Rule))
    (fits : (nested operator first rest default).fits room = true) : rest.length < room := by
  induction rest generalizing room first with
  | nil =>
      simp only [nested, Rule.fits, Bool.and_eq_true, bne_iff_ne] at fits
      exact Nat.pos_of_ne_zero fits.1
  | cons next rest restIH =>
      simp only [nested, Rule.fits, fitsAll, Bool.and_eq_true, bne_iff_ne] at fits
      have inside := restIH next fits.2.2.2.1
      simp only [List.length_cons]
      omega

theorem operandsOf_fit {room : Nat} (first : Rule × Rule) (rest : List (Rule × Rule))
    (fits : (nested operator first rest default).fits room = true) :
    fitsAll (room - 1) (operandsOf (first :: rest) default) = true := by
  induction rest generalizing room first with
  | nil =>
      simp only [nested, Rule.fits, Bool.and_eq_true] at fits
      exact fits.2
  | cons next rest restIH =>
      simp only [nested, Rule.fits, fitsAll, Bool.and_eq_true] at fits
      have inside := fitsAll_mono (Nat.sub_le _ 1) _ (restIH next fits.2.2.2.1)
      rw [operandsOf, fitsAll, fitsAll, fits.2.1, fits.2.2.1, inside]
      rfl

/-- A chain is not nested more deeply than its nested form. -/
theorem chain_fits {room : Nat} (first : Rule × Rule) (rest : List (Rule × Rule))
    (fits : (nested operator first rest default).fits room = true) :
    (chain operator (first :: rest) default).fits room = true := by
  have some_room := length_lt_of_nested_fits first rest fits
  simp only [chain, Rule.fits, Bool.and_eq_true, bne_iff_ne]
  exact ⟨by omega, operandsOf_fit first rest fits⟩

/-- A rule that is nested less deeply than the limit is not cut. -/
theorem limitDepth_of_fits {limit : Nat} {rule : Rule} (fits : rule.fits limit = true) :
    rule.limitDepth limit = rule :=
  if_pos fits

end RuleChart.Rule
