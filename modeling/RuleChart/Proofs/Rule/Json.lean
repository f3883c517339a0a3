import RuleChart.Proofs.Json.Compact
import RuleChart.Proofs.Rule.Decision
import RuleChart.Proofs.Rule.Numbers
import RuleChart.Rule.Json

namespace RuleChart.Rule

mutual

def withoutKeys : Rule → Rule
  | .list items => .list (withoutKeysAll items)
  | .apply operator operands _ => .apply operator (withoutKeysAll operands) []
  | .applyOne operator operand _ => .applyOne operator operand.withoutKeys []
  | rule => rule

def withoutKeysAll : List Rule → List Rule
  | [] => []
  | rule :: rest => rule.withoutKeys :: withoutKeysAll rest

end

def isList : Rule → Bool
  | .list _ => true
  | _ => false

mutual

/-- No single operand inside the rule is a list. -/
def singlesUnlisted : Rule → Bool
  | .list items => singlesUnlistedAll items
  | .apply _ operands _ => singlesUnlistedAll operands
  | .applyOne _ operand _ => !operand.isList && operand.singlesUnlisted
  | _ => true

def singlesUnlistedAll : List Rule → Bool
  | [] => true
  | rule :: rest => rule.singlesUnlisted && singlesUnlistedAll rest

end

theorem withoutKeysAll_eq_map (rules : List Rule) :
    withoutKeysAll rules = rules.map withoutKeys := by
  induction rules with
  | nil => rfl
  | cons rule rest restIH => rw [withoutKeysAll, restIH, List.map_cons]

theorem singlesUnlistedAll_eq_all (rules : List Rule) :
    singlesUnlistedAll rules = rules.all singlesUnlisted := by
  induction rules with
  | nil => rfl
  | cons rule rest restIH => rw [singlesUnlistedAll, restIH, List.all_cons]

theorem singlesUnlisted_of_child {rule child : Rule} (unlisted : rule.singlesUnlisted = true)
    (member : child ∈ rule.children) : child.singlesUnlisted = true := by
  cases rule with
  | list items | apply _ items =>
      rw [singlesUnlisted, singlesUnlistedAll_eq_all] at unlisted
      exact List.all_eq_true.mp unlisted child member
  | applyOne operator operand keys =>
      obtain rfl : child = operand := List.mem_singleton.mp member
      simp only [singlesUnlisted, Bool.and_eq_true] at unlisted
      exact unlisted.2
  | _ => cases member

theorem read_applyOne {operator : String} {operand : Rule} (unlisted : operand.isList = false) :
    read (.object [(operator, operand.write)]) = .applyOne operator (read operand.write) [] := by
  cases operand with
  | list items => cases unlisted
  | _ => rfl

/-- Reading undoes writing, but for the extra keys. -/
theorem read_write {rule : Rule} (unlisted : rule.singlesUnlisted = true) :
    read rule.write = rule.withoutKeys := by
  induction rule using children_induction with
  | step rule childIH =>
      have every (child : Rule) (member : child ∈ rule.children) :
          read child.write = child.withoutKeys :=
        childIH child member (singlesUnlisted_of_child unlisted member)
      cases rule with
      | list items | apply operator items keys =>
          have parts : (items.map write).map read = items.map withoutKeys := by
            rw [List.map_map]
            exact List.map_congr_left every
          simp only [write, read, withoutKeys, writeAll_eq_map, readAll_eq_map,
            withoutKeysAll_eq_map, parts, List.map_nil]
      | applyOne operator operand keys =>
          simp only [singlesUnlisted, Bool.and_eq_true, Bool.not_eq_true'] at unlisted
          rw [write, read_applyOne unlisted.1, withoutKeys, every operand List.mem_cons_self]
      | _ => rfl

theorem single_plain {value : Json} (name : String) (plain : value.Plain none) :
    (Json.object [(name, value)]).Plain none := by
  refine .object (List.pairwise_singleton _ _) ?_
  intro field member
  obtain rfl := List.mem_singleton.mp member
  exact plain

theorem write_plain {rule : Rule}
    (integers : ∀ number ∈ rule.numbers, ∃ whole, number = .int whole) : rule.write.Plain none := by
  induction rule using children_induction with
  | step rule childIH =>
      have every (child : Rule) (member : child ∈ rule.children) : child.write.Plain none :=
        childIH child member (fun number inside => integers number (numbers_of_child member inside))
      have array : (Json.array (writeAll rule.children)).Plain none := by
        refine .array fun value member => ?_
        rw [writeAll_eq_map] at member
        obtain ⟨child, inside, rfl⟩ := List.mem_map.mp member
        exact every child inside
      cases rule with
      | null => exact .null
      | bool value => exact .bool value
      | string value => exact .string value
      | number value =>
          obtain ⟨whole, rfl⟩ := integers value List.mem_cons_self
          exact .integer whole rfl
      | emptyObject => exact .object .nil (List.forall_mem_nil _)
      | list items => exact array
      | apply operator operands keys => exact single_plain operator array
      | applyOne operator operand keys =>
          exact single_plain operator (every operand List.mem_cons_self)

/-- A rule whose numbers are integers, and none of whose single operands is a list, is decoded from
its JSON text without the extra keys, if the decoder has room for its nesting. -/
theorem decode_compact (room : Nat) {rule : Rule} (unlisted : rule.singlesUnlisted = true)
    (integers : ∀ number ∈ rule.numbers, ∃ whole, number = .int whole)
    (shallow : rule.toJson.nesting ≤ room) :
    (Json.readChars room rule.toJson.compact.toList).map ofJson = .ok rule.withoutKeys := by
  rw [toJson_eq_write] at shallow ⊢
  rw [(write_plain integers).readChars_compact shallow]
  change Except.ok (ofJson rule.write) = _
  rw [ofJson_eq_read, read_write unlisted]

/-- With a quote, a control character, a number below zero and extra keys. -/
theorem decode_compact_of_conditional :
    let condition : Rule := .applyOne "var" (.string "a\"\x01é") ["note"]
    let rule : Rule := .apply "if" [condition, .number (.int (-120)), .list [.null, .emptyObject]]
      ["x", "y"]
    rule.toJson.compact =
        "\x7b\"if\":[\x7b\"var\":\"a\\\"\\u0001é\"\x7d,-120,[null,\x7b\x7d]]\x7d" ∧
      (Json.read rule.toJson.compact).map ofJson =
        .ok (.apply "if" [.applyOne "var" (.string "a\"\x01é") [], .number (.int (-120)),
          .list [.null, .emptyObject]] []) := by
  refine ⟨?_, ?_⟩
  · rw [toJson_eq_write]
    decide +kernel
  · refine decode_compact Json.nestingLimit (by decide) ?_ ?_
    · simp [numbers, numbersAll]
    · rw [toJson_eq_write]
      decide

end RuleChart.Rule
