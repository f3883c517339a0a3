import RuleChart.Label.Cache
import RuleChart.Proofs.Decimal.Double

namespace RuleChart

/-! Labels of rules that differ in nothing but how numbers of one value are written.

Two such rules have the same label, unless one of them has an integer where the other has a
double that keeps its exponent.  The label of an operation reads its operands only through
`glance`, so the induction on the rules never looks at an operator.
-/

namespace Number

/-- The double has the integer as its value, and is written with an exponent. -/
def KeepsExponent (value : Float) (whole : Int) : Prop :=
  (Double.ofFloat value).integer? = some whole ∧ integralBound ≤ whole.natAbs

/-- Numbers of one value, one of them an integer and the other a double that keeps its
exponent. -/
def Clash (left right : Number) : Prop :=
  ∃ value whole, KeepsExponent value whole ∧
    ((left = .float value ∧ right = .int whole) ∨ (left = .int whole ∧ right = .float value))

theorem labelText_integral {value : Float} {whole : Int}
    (found : (Double.ofFloat value).integer? = some whole)
    (plain : ¬ KeepsExponent value whole) : (Number.float value).labelText = toString whole := by
  have small : whole.natAbs < integralBound := Nat.not_le.mp fun large => plain ⟨found, large⟩
  simp [labelText, found, small]

theorem labelText_exponent {value : Float} {whole : Int} (keeps : KeepsExponent value whole) :
    (Number.float value).labelText = (Double.ofFloat value).text := by
  simp [labelText, keeps.1, Nat.not_lt.mpr keeps.2]

theorem labelText_float_congr {left right : Float} {whole : Int}
    (foundLeft : (Double.ofFloat left).integer? = some whole)
    (foundRight : (Double.ofFloat right).integer? = some whole) :
    (Number.float left).labelText = (Number.float right).labelText := by
  by_cases large : integralBound ≤ whole.natAbs
  · have nonzero : Double.Value.rational whole ≠ .rational 0 := by
      intro zero
      obtain rfl : whole = 0 := by simpa using zero
      exact absurd large (by decide)
    rw [labelText_exponent ⟨foundLeft, large⟩, labelText_exponent ⟨foundRight, large⟩,
      Double.ofFloat_eq_of_value? (Double.integer?_eq_some_iff.mp foundLeft)
        (Double.integer?_eq_some_iff.mp foundRight) nonzero]
  · rw [labelText_integral foundLeft fun keeps => large keeps.2,
      labelText_integral foundRight fun keeps => large keeps.2]

theorem labelText_congr {left right : Number} (same : left.canonical = right.canonical)
    (apart : ¬ Clash left right) : left.labelText = right.labelText := by
  cases left with
  | int whole =>
      cases right with
      | int other =>
          obtain rfl : whole = other := by simpa [canonical] using same
          rfl
      | float value =>
          cases found : (Double.ofFloat value).integer? with
          | none => simp [canonical, found] at same
          | some other =>
              obtain rfl : whole = other := by simpa [canonical, found] using same
              have plain : ¬ KeepsExponent value whole := fun keeps =>
                apart ⟨value, whole, keeps, .inr ⟨rfl, rfl⟩⟩
              exact (labelText_integral found plain).symm
  | float value =>
      cases found : (Double.ofFloat value).integer? with
      | none =>
          cases right with
          | int whole => simp [canonical, found] at same
          | float other =>
              cases foundOther : (Double.ofFloat other).integer? with
              | none =>
                  obtain rfl : value = other := by simpa [canonical, found, foundOther] using same
                  rfl
              | some whole => simp [canonical, found, foundOther] at same
      | some whole =>
          cases right with
          | int other =>
              obtain rfl : whole = other := by simpa [canonical, found] using same
              exact labelText_integral found fun keeps =>
                apart ⟨value, whole, keeps, .inl ⟨rfl, rfl⟩⟩
          | float other =>
              cases foundOther : (Double.ofFloat other).integer? with
              | none => simp [canonical, found, foundOther] at same
              | some other =>
                  obtain rfl : whole = other := by simpa [canonical, found, foundOther] using same
                  exact labelText_float_congr found foundOther

end Number

namespace Rule

open Label

mutual

/-- All numbers inside a rule. -/
def numbers : Rule → List Number
  | .number value => [value]
  | .list items => numbersAll items
  | .apply _ operands _ => numbersAll operands
  | .applyOne _ operand _ => operand.numbers
  | _ => []

def numbersAll : List Rule → List Number
  | [] => []
  | rule :: rest => rule.numbers ++ numbersAll rest

end

def ClashAmong (left right : List Number) : Prop := ∃ a ∈ left, ∃ b ∈ right, Number.Clash a b

/-- Somewhere in the rules are numbers of one value that labels write differently. -/
def Clash (left right : Rule) : Prop := ClashAmong left.numbers right.numbers

theorem ClashAmong.mono {left right left' right' : List Number} (clash : ClashAmong left right)
    (leftInside : left ⊆ left') (rightInside : right ⊆ right') : ClashAmong left' right' := by
  obtain ⟨a, inLeft, b, inRight, clash⟩ := clash
  exact ⟨a, leftInside inLeft, b, rightInside inRight, clash⟩

/-- How many items a list has. -/
def itemCount? : Rule → Option Nat
  | .list items => some items.length
  | _ => none

/-- What the label of an operation shows of an operand, `depth` levels inside it. -/
def glance (depth : Nat) (operand : Rule) : Option String × Option Nat × String :=
  (writtenPath? operand, itemCount? operand, operand.labelAt true depth)

theorem labelsAt_eq_map (depth : Nat) (rules : List Rule) :
    labelsAt depth rules = rules.map (labelAt true depth) := by
  induction rules with
  | nil => rfl
  | cons rule rest restIH => rw [labelsAt, restIH, List.map_cons]

theorem labelsAt_of_glances {depth : Nat} {left right : List Rule}
    (same : left.map (glance depth) = right.map (glance depth)) :
    labelsAt depth left = labelsAt depth right := by
  have labels := congrArg (List.map (fun seen => seen.2.2)) same
  simpa [labelsAt_eq_map, glance, Function.comp_def] using labels

theorem labelAt_deep (compact : Bool) {depth : Nat} (deep : maxDepth < depth) (rule : Rule) :
    rule.labelAt compact depth = ellipsis := by
  unfold labelAt
  rw [if_pos deep]

theorem labelAt_membership (compact : Bool) {depth : Nat} (shallow : ¬ maxDepth < depth)
    {operator : String} (family : Family.ofName operator = .membership) (needle haystack : Rule)
    (rest : List Rule) (keys : List String) :
    (apply operator (needle :: haystack :: rest) keys).labelAt compact depth =
      needle.labelAt true (depth + 1) ++ " in " ++
        (match haystack.itemCount? with
          | some count => itemsSummary count
          | none => haystack.labelAt true (depth + 1)) := by
  cases haystack <;> simp only [labelAt, if_neg shallow, family, itemCount?]

theorem labelAt_list_congr (compact : Bool) (depth : Nat) {left right : List Rule}
    (same : left.map (glance (depth + 1)) = right.map (glance (depth + 1))) :
    (list left).labelAt compact depth = (list right).labelAt compact depth := by
  have lengths : left.length = right.length := by simpa using congrArg List.length same
  simp only [labelAt, lengths, labelsAt_of_glances same]

/-- The label of an operation depends on what it shows of its operands. -/
theorem labelAt_apply_congr (compact : Bool) (depth : Nat) (operator : String)
    {left right : List Rule} (keys : List String)
    (same : left.map (glance (depth + 1)) = right.map (glance (depth + 1))) :
    (apply operator left keys).labelAt compact depth =
      (apply operator right keys).labelAt compact depth := by
  by_cases deep : maxDepth < depth
  · rw [labelAt_deep compact deep, labelAt_deep compact deep]
  have labels := labelsAt_of_glances same
  match left, right, same with
  | [], [], _ => rfl
  | [_], _ :: _ :: _, same | _ :: _ :: _, [_], same => simp at same
  | [operand], [operand'], same =>
      simp only [List.map_cons, List.cons.injEq, glance, Prod.mk.injEq] at same
      cases family : Family.ofName operator <;> simp [labelAt, labelsAt, deep, family, same]
  | first :: second :: rest, first' :: second' :: rest', same =>
      simp only [List.map_cons, List.cons.injEq, glance, Prod.mk.injEq] at same
      simp only [labelsAt, List.cons.injEq] at labels
      cases family : Family.ofName operator with
      | membership =>
          rw [labelAt_membership compact deep family, labelAt_membership compact deep family]
          simp [same]
      | _ => simp [labelAt, labelsAt, deep, family, same, labels]

theorem labelAt_applyOne_congr (compact : Bool) (depth : Nat) (operator : String)
    {left right : Rule} (keys : List String)
    (same : left.glance (depth + 1) = right.glance (depth + 1)) :
    (applyOne operator left keys).labelAt compact depth =
      (applyOne operator right keys).labelAt compact depth := by
  simp only [glance, Prod.mk.injEq] at same
  cases family : Family.ofName operator <;> simp [labelAt, family, same]

theorem writtenPath?_congr {left right : Rule} (same : left.canonical = right.canonical)
    (apart : ¬ left.Clash right) : writtenPath? left = writtenPath? right := by
  cases left <;> cases right <;> simp only [canonical, reduceCtorEq] at same <;>
    try simp only [writtenPath?]
  case number.number a b =>
    have texts := Number.labelText_congr (Rule.number.inj same) fun clash =>
      apart ⟨a, by simp [numbers], b, by simp [numbers], clash⟩
    rw [texts]
  case string.string => rw [Rule.string.inj same]

theorem length_canonicalAll (rules : List Rule) : (canonicalAll rules).length = rules.length := by
  induction rules with
  | nil => rfl
  | cons rule rest restIH => simp [canonicalAll, restIH]

theorem itemCount?_canonical (rule : Rule) : rule.canonical.itemCount? = rule.itemCount? := by
  cases rule <;> simp [canonical, itemCount?, length_canonicalAll]

mutual

theorem labelAt_congr (compact : Bool) (depth : Nat) (left right : Rule)
    (same : left.canonical = right.canonical) (apart : ¬ left.Clash right) :
    left.labelAt compact depth = right.labelAt compact depth := by
  match left, right, same with
  | .null, .null, _ | .emptyObject, .emptyObject, _ => rfl
  | .bool a, .bool b, same =>
      rw [Rule.bool.inj same]
  | .string a, .string b, same =>
      rw [Rule.string.inj same]
  | .number a, .number b, same =>
      have texts := Number.labelText_congr (Rule.number.inj same) fun clash =>
        apart ⟨a, by simp [numbers], b, by simp [numbers], clash⟩
      simp only [labelAt, texts]
  | .list items, .list items', same =>
      exact labelAt_list_congr compact depth
        (glances_congr (depth + 1) items items' (Rule.list.inj same) apart)
  | .apply operator operands keys, .apply operator' operands' keys', same =>
      obtain ⟨rfl, parts, rfl⟩ := Rule.apply.inj same
      exact labelAt_apply_congr compact depth operator keys
        (glances_congr (depth + 1) operands operands' parts apart)
  | .applyOne operator operand keys, .applyOne operator' operand' keys', same =>
      obtain ⟨rfl, part, rfl⟩ := Rule.applyOne.inj same
      exact labelAt_applyOne_congr compact depth operator keys
        (glance_congr (depth + 1) operand operand' part apart)

theorem glance_congr (depth : Nat) (left right : Rule)
    (same : left.canonical = right.canonical) (apart : ¬ left.Clash right) :
    left.glance depth = right.glance depth := by
  rw [glance, glance, writtenPath?_congr same apart, ← itemCount?_canonical left, same,
    itemCount?_canonical, labelAt_congr true depth left right same apart]

theorem glances_congr (depth : Nat) (left right : List Rule)
    (same : canonicalAll left = canonicalAll right)
    (apart : ¬ ClashAmong (numbersAll left) (numbersAll right)) :
    left.map (glance depth) = right.map (glance depth) := by
  match left, right, same with
  | [], [], _ => rfl
  | rule :: rest, rule' :: rest', same =>
      obtain ⟨first, later⟩ := List.cons.inj same
      have firstApart : ¬ rule.Clash rule' := fun clash =>
        apart (clash.mono (List.subset_append_left _ _) (List.subset_append_left _ _))
      have laterApart : ¬ ClashAmong (numbersAll rest) (numbersAll rest') := fun clash =>
        apart (clash.mono (List.subset_append_right _ _) (List.subset_append_right _ _))
      rw [List.map_cons, List.map_cons, glance_congr depth rule rule' first firstApart,
        glances_congr depth rest rest' later laterApart]

end

end Rule

end RuleChart
