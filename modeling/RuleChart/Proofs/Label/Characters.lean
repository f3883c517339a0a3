import RuleChart.Json.Printer
import RuleChart.Proofs.Label.Forms
import RuleChart.Proofs.Rule.Decision
import RuleChart.Proofs.Text.Split

namespace RuleChart

namespace Text

/-- With these and with digits numbers are written, in labels and in JSON text. -/
def numberMarks : List Char := ['+', '-', '.', 'N', 'I', 'a', 'e', 'f', 'i', 'n', 't', 'y']

def isNumeric (c : Char) : Bool := c.isDigit || numberMarks.contains c

variable {c : Char}

theorem not_mem_numeric (other : isNumeric c = false) {word : List Char}
    (numeric : word.all isNumeric = true) : c ∉ word := by
  intro member
  rw [List.all_eq_true.mp numeric c member] at other
  cases other

theorem not_mem_numeral (other : isNumeric c = false) (number : Nat) :
    c ∉ Nat.toDigits 10 number :=
  not_mem_digits (Bool.or_eq_false_iff.mp other).1 number

theorem not_mem_integer (other : isNumeric c = false) (value : Int) :
    c ∉ (toString value).toList := by
  cases value with
  | ofNat value =>
      change c ∉ (Nat.repr value).toList
      rw [Nat.toList_repr]
      exact not_mem_numeral other value
  | negSucc value =>
      change c ∉ ("-" ++ Nat.repr (value + 1)).toList
      rw [String.toList_append, Nat.toList_repr, List.mem_append, not_or]
      exact ⟨not_mem_numeric other (by decide), not_mem_numeral other (value + 1)⟩

end Text

open Text (isNumeric not_mem_numeric not_mem_numeral not_mem_integer)

variable {c : Char}

namespace Decimal

theorem not_mem_zeros (other : isNumeric c = false) (count : Nat) : c ∉ zeros count := by
  intro member
  rw [List.eq_of_mem_replicate member] at other
  exact absurd other (by decide)

theorem not_mem_significant (other : isNumeric c = false) (digits : Nat) :
    c ∉ significant digits := by
  unfold significant
  dsimp only
  split
  · exact not_mem_numeric other (by decide)
  · intro member
    rw [List.mem_reverse] at member
    exact not_mem_numeral other digits
      (List.mem_reverse.mp ((List.dropWhile_sublist _).subset member))

theorem not_mem_positional (other : isNumeric c = false) {digits : List Char}
    (absent : c ∉ digits) (point : Int) : c ∉ positional digits point := by
  have front : c ∉ digits.take (point.toNat + 1) :=
    fun member => absent (List.mem_of_mem_take member)
  have back : c ∉ digits.drop (point.toNat + 1) :=
    fun member => absent (List.mem_of_mem_drop member)
  have marks : c ∉ ['0', '.'] := not_mem_numeric other (by decide)
  simp only [List.mem_cons, List.not_mem_nil, or_false, not_or] at marks
  unfold positional
  dsimp only
  split
  · simp [marks, not_mem_zeros other, absent]
  · split
    · simp [marks, not_mem_zeros other, absent]
    · simp [marks, front, back]

theorem not_mem_exponential (other : isNumeric c = false) {digits : List Char}
    (absent : c ∉ digits) (point : Int) : c ∉ exponential digits point := by
  have front : c ∉ digits.take 1 := fun member => absent (List.mem_of_mem_take member)
  have back : c ∉ digits.drop 1 := fun member => absent (List.mem_of_mem_drop member)
  have marks : c ∉ ['.', 'e', '-', '+'] := not_mem_numeric other (by decide)
  simp only [List.mem_cons, List.not_mem_nil, or_false, not_or] at marks
  have sign : c ≠ if point < 0 then '-' else '+' := by split <;> simp [marks]
  unfold exponential
  cases behind : digits.drop 1 with
  | nil =>
      simp only [List.mem_append, List.mem_cons, List.not_mem_nil, or_false, not_or]
      exact ⟨⟨front, marks.2.1, sign, not_mem_zeros other _⟩, not_mem_numeral other _⟩
  | cons digit more =>
      rw [behind, List.mem_cons, not_or] at back
      simp only [List.mem_append, List.mem_cons, not_or]
      exact ⟨⟨⟨front, marks.1, back⟩, marks.2.1, sign, not_mem_zeros other _⟩,
        not_mem_numeral other _⟩

theorem not_mem_text (other : isNumeric c = false) (decimal : Decimal) :
    c ∉ decimal.text.toList := by
  have absent := not_mem_significant other decimal.digits
  unfold text
  dsimp only
  rw [String.toList_ofList]
  split
  · exact not_mem_positional other absent _
  · exact not_mem_exponential other absent _

end Decimal

theorem Double.not_mem_text (other : isNumeric c = false) (value : Double) :
    c ∉ value.text.toList := by
  have sign (negative : Bool) : c ∉ (signText negative).toList := by
    cases negative <;> exact not_mem_numeric other (by decide)
  cases value with
  | undefined => exact not_mem_numeric other (by decide)
  | infinite negative =>
      rw [text, String.toList_append, List.mem_append, not_or]
      exact ⟨sign negative, not_mem_numeric other (by decide)⟩
  | finite negative mantissa exponent =>
      rw [text, String.toList_append, List.mem_append, not_or]
      refine ⟨sign negative, ?_⟩
      split
      · exact not_mem_numeric other (by decide)
      · exact Decimal.not_mem_text other _

theorem Number.not_mem_labelText (other : isNumeric c = false) (number : Number) :
    c ∉ number.labelText.toList := by
  cases number with
  | int value => exact not_mem_integer other value
  | float value =>
      unfold labelText
      dsimp only
      split
      · split
        · exact not_mem_integer other _
        · exact Double.not_mem_text other _
      · exact Double.not_mem_text other _

theorem Number.not_mem_jsonText (other : isNumeric c = false) (number : Number) :
    c ∉ number.jsonText.toList := by
  cases number with
  | int value => exact not_mem_integer other value
  | float value =>
      unfold jsonText
      dsimp only
      split
      · exact not_mem_numeric other (by decide)
      · exact not_mem_numeric other (by decide)
      · exact not_mem_numeric other (by decide)
      · exact Double.not_mem_text other _

namespace Json

theorem newline_not_mem_escaped (c : Char) : '\n' ∉ escaped c := by
  have digit : ∀ value < 16, '\n' ≠ hexDigit value := by decide
  unfold escaped
  split_ifs with quote backslash newline carriage tab backspace feed control
  any_goals decide
  · simp [digit (c.toNat / 16) (by omega), digit (c.toNat % 16) (by omega)]
  · simpa using Ne.symm newline

theorem newline_not_mem_quoted (text : String) : '\n' ∉ quoted text := by
  simp [quoted, newline_not_mem_escaped]

mutual

theorem newline_not_mem_compact (value : Json) : '\n' ∉ value.compactChars := by
  match value with
  | .null | .bool true | .bool false | .array [] | .object [] => decide
  | .number numeral => exact numeral.not_mem_jsonText (by decide)
  | .string text => exact newline_not_mem_quoted text
  | .array (first :: rest) =>
      simp [compactChars, newline_not_mem_compact first, newline_not_mem_compactItems rest]
  | .object ((name, value) :: rest) =>
      simp [compactChars, newline_not_mem_quoted, newline_not_mem_compact value,
        newline_not_mem_compactFields rest]

theorem newline_not_mem_compactItems (items : List Json) : '\n' ∉ compactItems items := by
  match items with
  | [] => decide
  | item :: rest =>
      simp [compactItems, newline_not_mem_compact item, newline_not_mem_compactItems rest]

theorem newline_not_mem_compactFields (fields : List (String × Json)) :
    '\n' ∉ compactFields fields := by
  match fields with
  | [] => decide
  | (name, value) :: rest =>
      simp [compactFields, newline_not_mem_quoted, newline_not_mem_compact value,
        newline_not_mem_compactFields rest]

end

end Json

namespace Rule

mutual

/-- The texts of a rule that labels show as they are: strings, and names of operators.  Of a
variable only the path is shown so. -/
def shownTexts : Rule → List String
  | .string text => [text]
  | .list items => shownTextsAll items
  | .apply operator operands _ =>
      match Family.ofName operator, operands with
      | .variable, [] => []
      | .variable, path :: _ => path.shownTexts
      | _, operands => operator :: shownTextsAll operands
  | .applyOne operator operand _ =>
      match Family.ofName operator with
      | .variable => operand.shownTexts
      | _ => operator :: operand.shownTexts
  | _ => []

def shownTextsAll : List Rule → List String
  | [] => []
  | rule :: rest => rule.shownTexts ++ shownTextsAll rest

end

theorem mem_shownTextsAll {text : String} {rules : List Rule} :
    text ∈ shownTextsAll rules ↔ ∃ rule ∈ rules, text ∈ rule.shownTexts := by
  induction rules with
  | nil => simp [shownTextsAll]
  | cons rule rest restIH => simp [shownTextsAll, restIH]

/-- No text that labels of the rule show has a line feed. -/
def Unbroken (rule : Rule) : Prop := ∀ text ∈ rule.shownTexts, '\n' ∉ text.toList

instance (rule : Rule) : Decidable rule.Unbroken :=
  inferInstanceAs (Decidable (∀ text ∈ rule.shownTexts, _))

theorem Unbroken.of_list {items : List Rule} (unbroken : (list items).Unbroken) {item : Rule}
    (member : item ∈ items) : item.Unbroken :=
  fun text shown => unbroken text (mem_shownTextsAll.mpr ⟨item, member, shown⟩)

theorem shownTexts_apply {operator : String} (plain : Family.ofName operator ≠ .variable)
    (operands : List Rule) (keys : List String) :
    (apply operator operands keys).shownTexts = operator :: shownTextsAll operands := by
  unfold shownTexts
  split
  all_goals first | contradiction | rfl

theorem shownTexts_applyOne {operator : String} (plain : Family.ofName operator ≠ .variable)
    (operand : Rule) (keys : List String) :
    (applyOne operator operand keys).shownTexts = operator :: operand.shownTexts := by
  rw [shownTexts]
  split
  all_goals first | contradiction | rfl

/-- The rule of a variable shows its path. -/
theorem Unbroken.of_path {rule path : Rule} {rest : List Rule} (reference : rule.isVariable = true)
    (written : rule.children = path :: rest) (unbroken : rule.Unbroken) : path.Unbroken := by
  cases rule with
  | null | bool | number | string | list | emptyObject => cases reference
  | apply operator operands keys =>
      have family : Family.ofName operator = .variable := by
        simpa [isVariable, family?, operator?] using reference
      obtain rfl : operands = path :: rest := written
      simpa [Unbroken, shownTexts, family] using unbroken
  | applyOne operator operand keys =>
      have family : Family.ofName operator = .variable := by
        simpa [isVariable, family?, operator?] using reference
      obtain ⟨rfl, rfl⟩ : operand = path ∧ [] = rest := List.cons.inj written
      simpa [Unbroken, shownTexts, family] using unbroken

end Rule

theorem Family.iteration_names {name : String} (family : ofName name = .iteration) :
    name ∈ ["map", "filter", "reduce", "all", "some", "none"] := by
  refine Decidable.byContradiction fun unknown => absurd family ?_
  rw [ofName, if_neg unknown]
  repeat' refine iteInduction (motive := (· ≠ Family.iteration)) (fun _ => nofun) fun _ => ?_
  nofun

/-- In capitals too the name of an iteration has no line feed. -/
theorem Family.newline_not_mem_toUpper {name : String} (family : ofName name = .iteration) :
    '\n' ∉ name.toUpper.toList := by
  have upper : ∀ name ∈ ["map", "filter", "reduce", "all", "some", "none"],
      '\n' ∉ name.toUpper.toList := by decide +kernel
  exact upper name (iteration_names family)

namespace Rule

open Label (Composed itemsSummary referenceLabel writtenPath?)

theorem newline_not_mem_itemsSummary (count : Nat) : '\n' ∉ (itemsSummary count).toList := by
  have digits : '\n' ∉ (Nat.repr count).toList := by
    rw [Nat.toList_repr]
    exact Text.newline_not_mem_digits count
  simpa [itemsSummary] using digits

theorem newline_not_mem_intercalate {separator : String} (blank : '\n' ∉ separator.toList)
    {entries : List String} (unbroken : ∀ entry ∈ entries, '\n' ∉ entry.toList) :
    '\n' ∉ (separator.intercalate entries).toList := by
  induction entries with
  | nil => simp
  | cons entry rest restIH =>
      obtain ⟨first, later⟩ := List.forall_mem_cons.mp unbroken
      cases rest with
      | nil => simpa using first
      | cons next rest => simpa [blank, first] using restIH later

/-- The path that a variable names, if it is written out. -/
theorem newline_not_mem_writtenPath {path : Rule} {written : String} (unbroken : path.Unbroken)
    (found : writtenPath? path = some written) : '\n' ∉ written.toList := by
  cases path with
  | null =>
      cases found
      decide
  | number value =>
      cases found
      exact value.not_mem_labelText (by decide)
  | string text =>
      obtain rfl := Option.some.inj found
      exact unbroken text List.mem_cons_self
  | bool | list | emptyObject | apply | applyOne => cases found

theorem newline_not_mem_referenceLabel {path : String} (unbroken : '\n' ∉ path.toList) :
    '\n' ∉ (referenceLabel path).toList := by
  unfold referenceLabel
  split
  · decide
  · simpa using unbroken

theorem newline_not_mem_composed {operator : String} (name : '\n' ∉ operator.toList)
    {parts : List String} (inside : ∀ part ∈ parts, '\n' ∉ part.toList) {label : String}
    (composed : Composed operator parts label) : '\n' ∉ label.toList := by
  cases composed with
  | ellipsis => decide
  | joined known nonempty each =>
      refine newline_not_mem_intercalate ?_ fun label member => ?_
      · simp only [List.mem_cons, List.not_mem_nil, or_false] at known
        rcases known with rfl | rfl | rfl | rfl <;> simp [name]
      · rcases each label member with shown | ⟨count, rfl⟩
        · exact inside label shown
        · exact newline_not_mem_itemsSummary count
  | marked known shown =>
      simp only [List.mem_cons, List.not_mem_nil, or_false] at known
      rcases known with rfl | rfl <;> simp [inside _ shown]
  | bare known =>
      simp only [List.mem_cons, List.not_mem_nil, or_false] at known
      rcases known with rfl | rfl <;> decide
  | call => simp [name]
  | capitals family => simp [Family.newline_not_mem_toUpper family]

/-- A label has a line feed only if a text that it shows has one. -/
theorem newline_not_mem_labelAt (compact : Bool) (depth : Nat) {rule : Rule}
    (unbroken : rule.Unbroken) : '\n' ∉ (rule.labelAt compact depth).toList := by
  induction rule using children_induction generalizing compact depth with
  | step rule childIH =>
      by_cases shallow : ¬ Label.maxDepth < depth
      case neg =>
        rw [labelAt_deep compact (Classical.not_not.mp shallow)]
        decide
      cases rule with
      | null | emptyObject => simp [labelAt, shallow]
      | bool value => cases value <;> simp [labelAt, shallow]
      | number value => simpa [labelAt, shallow] using value.not_mem_labelText (by decide)
      | string text =>
          have clean := unbroken text List.mem_cons_self
          simpa [labelAt, shallow] using clean
      | list items =>
          have labels : ∀ label ∈ labelsAt (depth + 1) items, '\n' ∉ label.toList := by
            rw [labelsAt_eq_map]
            intro label inside
            obtain ⟨item, member, rfl⟩ := List.mem_map.mp inside
            exact childIH item member true (depth + 1) (unbroken.of_list member)
          have joined : '\n' ∉ (", ".intercalate (labelsAt (depth + 1) items)).toList :=
            newline_not_mem_intercalate (by decide) labels
          simp only [labelAt, if_neg shallow]
          split
          · exact newline_not_mem_itemsSummary _
          · simpa using joined
      | apply operator operands keys =>
          by_cases reference : Family.ofName operator = .variable
          · cases operands with
            | nil => simp [labelAt, shallow, reference, Label.currentItem]
            | cons path rest =>
                have named : path.Unbroken :=
                  unbroken.of_path (by simpa [isVariable, family?, operator?] using reference) rfl
                simp only [labelAt, if_neg shallow, reference]
                split
                · rename_i written found
                  exact newline_not_mem_referenceLabel (newline_not_mem_writtenPath named found)
                · exact childIH path List.mem_cons_self true (depth + 1) named
          rw [Unbroken, shownTexts_apply reference, List.forall_mem_cons] at unbroken
          refine newline_not_mem_composed unbroken.1 ?_
            (labelAt_apply_composed compact shallow reference operands keys)
          rw [labelsAt_eq_map]
          intro label inside
          obtain ⟨operand, member, rfl⟩ := List.mem_map.mp inside
          exact childIH operand member true (depth + 1) fun text shown =>
            unbroken.2 text (mem_shownTextsAll.mpr ⟨operand, member, shown⟩)
      | applyOne operator operand keys =>
          have own := childIH operand List.mem_cons_self true (depth + 1)
          by_cases reference : Family.ofName operator = .variable
          · have named : operand.Unbroken :=
              unbroken.of_path (by simpa [isVariable, family?, operator?] using reference) rfl
            simp only [labelAt, if_neg shallow, reference]
            split
            · rename_i written found
              exact newline_not_mem_referenceLabel (newline_not_mem_writtenPath named found)
            · exact own named
          rw [Unbroken, shownTexts_applyOne reference, List.forall_mem_cons] at unbroken
          exact newline_not_mem_composed unbroken.1 (by simpa using own unbroken.2)
            (labelAt_applyOne_composed compact shallow reference operand keys)

end Rule

end RuleChart
