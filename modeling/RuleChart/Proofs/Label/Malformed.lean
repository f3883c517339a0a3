import RuleChart.Proofs.Label.Characters
import RuleChart.Tree.Sketch

namespace RuleChart

/-! The label of a conditional that lacks operands.

It cannot be mistaken for the label of a rule.  Such a label shows a character that is not in it, or
has a blank on either side of an operator, or is the label of a part of the rule.
-/

open Sketch (malformedLabel)

theorem ne_malformed_of_mem {c : Char} (other : c ∉ malformedLabel.toList) {text : String}
    (member : c ∈ text.toList) : text ≠ malformedLabel :=
  fun same => other (same ▸ member)

theorem ne_malformed_of_blanks {text : String} (blanks : 2 ≤ text.toList.count ' ') :
    text ≠ malformedLabel := by
  rintro rfl
  exact absurd blanks (by decide)

namespace Label

theorem itemsSummary_ne_malformed (count : Nat) : itemsSummary count ≠ malformedLabel :=
  ne_malformed_of_mem (c := '[') (by decide) (by simp [itemsSummary])

theorem currentItem_ne_malformed : currentItem ≠ malformedLabel := by decide

theorem referenceLabel_ne_malformed (path : String) : referenceLabel path ≠ malformedLabel := by
  unfold referenceLabel
  split
  · exact currentItem_ne_malformed
  · exact ne_malformed_of_mem (c := '$') (by decide) (by simp)

theorem Composed.ne_malformed {operator : String} {parts : List String} {label : String}
    (composed : Composed operator parts label) (inside : ∀ part ∈ parts, part ≠ malformedLabel) :
    label ≠ malformedLabel := by
  cases composed with
  | ellipsis => decide
  | @joined separator known labels nonempty each =>
      match labels with
      | [] => exact absurd rfl nonempty
      | [single] =>
          rw [String.intercalate_singleton]
          rcases each single List.mem_cons_self with shown | ⟨count, rfl⟩
          · exact inside single shown
          · exact itemsSummary_ne_malformed count
      | first :: second :: rest =>
          have blanks : 2 ≤ separator.toList.count ' ' := by
            simp only [List.mem_cons, List.not_mem_nil, or_false] at known
            rcases known with rfl | rfl | rfl | rfl
            · decide
            · decide
            · decide
            · simp
          refine ne_malformed_of_blanks ?_
          rw [String.intercalate_cons_cons]
          simp only [String.toList_append, List.count_append]
          omega
  | marked known shown =>
      simp only [List.mem_cons, List.not_mem_nil, or_false] at known
      rcases known with rfl | rfl
      · exact ne_malformed_of_mem (c := 'N') (by decide) (by simp)
      · exact ne_malformed_of_mem (c := 'B') (by decide) (by simp)
  | bare known =>
      simp only [List.mem_cons, List.not_mem_nil, or_false] at known
      rcases known with rfl | rfl <;> decide
  | call => exact ne_malformed_of_mem (c := '(') (by decide) (by simp)
  | capitals family => exact ne_malformed_of_mem (c := '(') (by decide) (by simp)

end Label

namespace Rule

theorem labelAt_ne_malformed (compact : Bool) (depth : Nat) (rule : Rule) :
    rule.labelAt compact depth ≠ malformedLabel := by
  induction rule using children_induction generalizing compact depth with
  | step rule childIH =>
      by_cases shallow : ¬ Label.maxDepth < depth
      case neg =>
        rw [labelAt_deep compact (Classical.not_not.mp shallow)]
        decide
      cases rule with
      | null | emptyObject =>
          simp only [labelAt, if_neg shallow]
          decide
      | bool value => cases value <;> simp only [labelAt, if_neg shallow] <;> decide
      | number value =>
          simp only [labelAt, if_neg shallow]
          intro same
          have absent : '?' ∉ value.labelText.toList := value.not_mem_labelText (by decide)
          rw [same] at absent
          exact absent (by decide)
      | string text =>
          simp only [labelAt, if_neg shallow]
          exact ne_malformed_of_mem (c := '\"') (by decide) (by simp)
      | list items =>
          simp only [labelAt, if_neg shallow]
          split
          · exact Label.itemsSummary_ne_malformed _
          · exact ne_malformed_of_mem (c := '[') (by decide) (by simp)
      | apply operator operands keys =>
          by_cases reference : Family.ofName operator = .variable
          · cases operands with
            | nil =>
                simp only [labelAt, if_neg shallow, reference]
                exact Label.currentItem_ne_malformed
            | cons path rest =>
                simp only [labelAt, if_neg shallow, reference]
                split
                · exact Label.referenceLabel_ne_malformed _
                · exact childIH path List.mem_cons_self true (depth + 1)
          refine (labelAt_apply_composed compact shallow reference operands keys).ne_malformed ?_
          rw [labelsAt_eq_map]
          intro label inside
          obtain ⟨operand, member, rfl⟩ := List.mem_map.mp inside
          exact childIH operand member true (depth + 1)
      | applyOne operator operand keys =>
          have own := childIH operand List.mem_cons_self true (depth + 1)
          by_cases reference : Family.ofName operator = .variable
          · simp only [labelAt, if_neg shallow, reference]
            split
            · exact Label.referenceLabel_ne_malformed _
            · exact own
          exact (labelAt_applyOne_composed compact shallow reference operand keys).ne_malformed
            (by simpa using own)

end Rule

end RuleChart
