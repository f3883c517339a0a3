import RuleChart.Proofs.Label.Congruence
import RuleChart.Proofs.Rule.Decision
import RuleChart.Proofs.Rule.Nesting

namespace RuleChart

/-! Labels of rules that are cut.

Levels are counted alike inside a label and inside a rule, so a cut is out of sight when it is below
the levels that a label shows.  The label of an operation reads its operands through `glance`,
which tells how many items a list has even where its own label is left out.  This is why a limit has
to leave one level more.
-/

theorem Decimal.text_ne_empty (decimal : Decimal) : decimal.text ≠ "" := by
  unfold text
  dsimp only
  rw [ne_eq, String.ofList_eq_empty_iff]
  split
  · unfold positional
    split
    · exact List.cons_ne_nil _ _
    · dsimp only
      split <;> simp
  · simp [exponential]

theorem Double.text_ne_empty (value : Double) : value.text ≠ "" := by
  cases value with
  | finite negative mantissa exponent =>
      have digits :
          (if mantissa = 0 then "0.0" else (Decimal.fewest mantissa exponent).text) ≠ "" := by
        split
        · decide
        · exact Decimal.text_ne_empty _
      exact fun empty => digits (String.append_eq_empty_iff.mp empty).2
  | infinite negative =>
      exact fun empty => absurd (String.append_eq_empty_iff.mp empty).2 (by decide)
  | undefined => exact (by decide : "nan" ≠ "")

theorem Number.labelText_ne_empty (number : Number) : number.labelText ≠ "" := by
  have digits (whole : Int) : toString whole ≠ "" := by
    cases whole with
    | ofNat whole => exact Nat.repr_ne_empty
    | negSucc whole => exact fun empty => Nat.repr_ne_empty (String.append_eq_empty_iff.mp empty).2
  cases number with
  | int whole => exact digits whole
  | float value =>
      unfold labelText
      dsimp only
      split
      · split
        · exact digits _
        · exact Double.text_ne_empty _
      · exact Double.text_ne_empty _

namespace Rule

open Label (writtenPath? referenceLabel)

theorem intercalate_ne_empty (separator : String) {first : String} (shown : first ≠ "")
    (rest : List String) : separator.intercalate (first :: rest) ≠ "" := by
  cases rest <;> simp [shown]

theorem referenceLabel_ne_empty (path : String) : referenceLabel path ≠ "" := by
  unfold referenceLabel
  split
  · decide
  · simp

theorem labelAt_apply_ne_empty (compact : Bool) {depth : Nat} (shallow : ¬ Label.maxDepth < depth)
    (operator : String) {operands : List Rule} (keys : List String)
    (shown : ∀ operand ∈ operands, operand.labelAt true (depth + 1) ≠ "") :
    (apply operator operands keys).labelAt compact depth ≠ "" := by
  match operands with
  | [] =>
      cases family : Family.ofName operator <;>
        simp [labelAt, shallow, family, Label.ellipsis, Label.currentItem]
  | first :: rest =>
      have inside := shown first List.mem_cons_self
      cases family : Family.ofName operator with
      | «variable» =>
          simp only [labelAt, if_neg shallow, family]
          split
          · exact referenceLabel_ne_empty _
          · exact inside
      | conjunction | disjunction | arithmetic =>
          simp only [labelAt, if_neg shallow, family]
          exact intercalate_ne_empty _ inside _
      | comparison =>
          cases rest <;> simp [labelAt, shallow, family]
      | membership =>
          cases rest with
          | nil => simp [labelAt, shallow, family]
          | cons second rest => simp [labelAt_membership compact shallow family]
      | _ => simp [labelAt, shallow, family, Label.ellipsis]

theorem labelAt_applyOne_ne_empty (compact : Bool) {depth : Nat}
    (shallow : ¬ Label.maxDepth < depth) (operator : String) {operand : Rule} (keys : List String)
    (shown : operand.labelAt true (depth + 1) ≠ "") :
    (applyOne operator operand keys).labelAt compact depth ≠ "" := by
  cases family : Family.ofName operator with
  | «variable» =>
      simp only [labelAt, if_neg shallow, family]
      split
      · exact referenceLabel_ne_empty _
      · exact shown
  | _ => simp [labelAt, shallow, family, Label.ellipsis]

theorem labelAt_ne_empty (compact : Bool) (depth : Nat) (rule : Rule) :
    rule.labelAt compact depth ≠ "" := by
  induction rule using children_induction generalizing compact depth with
  | step rule childIH =>
      by_cases shallow : ¬ Label.maxDepth < depth
      case neg =>
        rw [labelAt_deep compact (Classical.not_not.mp shallow)]
        decide
      cases rule with
      | apply operator operands keys =>
          exact labelAt_apply_ne_empty compact shallow operator keys
            fun operand member => childIH operand member true (depth + 1)
      | applyOne operator operand keys =>
          exact labelAt_applyOne_ne_empty compact shallow operator keys
            (childIH operand List.mem_cons_self true (depth + 1))
      | null | string | emptyObject => simp [labelAt, shallow]
      | bool value => cases value <;> simp [labelAt, shallow]
      | number value => simpa [labelAt, shallow] using value.labelText_ne_empty
      | list items =>
          simp only [labelAt, if_neg shallow]
          split <;> simp [Label.itemsSummary]

theorem writtenPath?_cut (room : Nat) (rule : Rule) :
    writtenPath? (rule.cut room) = writtenPath? rule := by
  cases rule with
  | null | bool | number | string | emptyObject => rfl
  | list | apply | applyOne =>
      unfold cut
      split <;> rfl

theorem itemCount?_cut (room : Nat) (rule : Rule) :
    (rule.cut (room + 1)).itemCount? = rule.itemCount? := by
  cases rule with
  | list items => simp [cut, cutAll_eq_map, itemCount?]
  | _ => simp [cut, itemCount?]

/-- A cut below the levels that a label shows leaves the label as it is. -/
theorem labelAt_cut (compact : Bool) {depth room : Nat} (enough : Label.maxDepth + 2 ≤ depth + room)
    (rule : Rule) : (rule.cut room).labelAt compact depth = rule.labelAt compact depth := by
  induction rule using children_induction generalizing compact depth room with
  | step rule childIH =>
      by_cases deep : Label.maxDepth < depth
      · rw [labelAt_deep compact deep, labelAt_deep compact deep]
      -- The children stand above the cut, so a list among them keeps its items.
      obtain ⟨room, rfl⟩ : ∃ more, room = more + 2 := ⟨room - 2, by omega⟩
      have seen (child : Rule) (member : child ∈ rule.children) :
          (child.cut (room + 1)).glance (depth + 1) = child.glance (depth + 1) := by
        have label := childIH child member true (by omega : _ ≤ (depth + 1) + (room + 1))
        rw [glance, glance, writtenPath?_cut, itemCount?_cut, label]
      have seenAll : (cutAll (room + 1) rule.children).map (glance (depth + 1)) =
          rule.children.map (glance (depth + 1)) := by
        rw [cutAll_eq_map, List.map_map]
        exact List.map_congr_left seen
      cases rule with
      | null | bool | number | string | emptyObject => rfl
      | list items => exact labelAt_list_congr compact depth seenAll
      | apply operator operands keys =>
          exact labelAt_apply_congr compact depth operator keys seenAll
      | applyOne operator operand keys =>
          exact labelAt_applyOne_congr compact depth operator keys (seen operand List.mem_cons_self)

/-- A label is never empty and does not change when what is 18 or more levels inside the rule is
cut.  So the rule of a tree has the label it had before it was cut for the tree, and rules that
agree down to this level have one label. -/
theorem label_limitDepth (compact : Bool) (rule : Rule) {limit : Int} (low : 18 ≤ limit) :
    (rule.limitDepth limit).label compact = rule.label compact ∧
      rule.label compact ≠ "" ∧
      (rule.limitDepth Rule.maxDepth).label compact = rule.label compact ∧
      ∀ other : Rule, other.limitDepth 18 = rule.limitDepth 18 →
        other.label compact = rule.label compact := by
  have kept (limit : Int) (low : 18 ≤ limit) (rule : Rule) :
      (rule.limitDepth limit).label compact = rule.label compact := by
    have enough : Label.maxDepth + 2 ≤ 0 + limit.toNat := by
      simp only [Label.maxDepth]
      omega
    rw [limitDepth_eq_cut, label, labelAt_cut compact enough, label]
  refine ⟨kept limit low rule, labelAt_ne_empty compact 0 rule, kept _ (by decide) rule, ?_⟩
  intro other same
  rw [← kept 18 (by decide) other, same, kept 18 (by decide) rule]

/-- A list to search in, 17 levels inside, loses an item to the cut and is counted all the same. -/
theorem label_limitDepth_of_haystack :
    let search : Rule := .apply "in" [.string "x", .list [.list [.null], .bool true]] []
    let rule : Rule := (List.range 16).foldl (fun inside _ => .apply "!" [inside] []) search
    (18 : Int) ≤ 18 ∧ rule.limitDepth 18 ≠ rule ∧
      (rule.limitDepth 18).label false = rule.label false ∧ rule.label false ≠ "" :=
  have kept := label_limitDepth false _ (Int.le_refl 18)
  ⟨Int.le_refl 18, by decide +kernel, kept.1, kept.2.1⟩

/-- One level less, and the list itself is lost. -/
example :
    let search : Rule := .apply "in" [.string "x", .list [.list [.null], .bool true]] []
    let rule : Rule := (List.range 16).foldl (fun inside _ => .apply "!" [inside] []) search
    (rule.limitDepth 17).label false ≠ rule.label false := by
  decide +kernel

end Rule

end RuleChart
