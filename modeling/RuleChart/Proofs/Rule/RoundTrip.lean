import RuleChart.Proofs.Rule.Json
import RuleChart.Rule.Depth

namespace RuleChart

/-! Reading and writing undo each other, up to what neither of them keeps.

A value that is read as a rule loses all fields of an object but the first, and a rule that is
written loses its extra keys.  A single operand that is a list is read back as a list of operands;
no rule that was read has one, and cutting leaves none where there was none.
-/

namespace Json

mutual

/-- Leaves the first field only of every object that is an item or stands behind a first key. -/
def firstFields : Json → Json
  | .array items => .array (firstFieldsAll items)
  | .object ((name, value) :: _) => .object [(name, value.firstFields)]
  | value => value

def firstFieldsAll : List Json → List Json
  | [] => []
  | item :: rest => item.firstFields :: firstFieldsAll rest

end

end Json

namespace Rule

/-- What an object is read as: its first value is a list of operands or a single one. -/
theorem read_object (name : String) (value : Json) (others : List (String × Json)) :
    (∃ operands, value = .array operands ∧
        read (.object ((name, value) :: others)) =
          .apply name (readAll operands) (others.map Prod.fst)) ∨
      ((read value).isList = false ∧
        read (.object ((name, value) :: others)) =
          .applyOne name (read value) (others.map Prod.fst)) := by
  match value with
  | .array operands => exact .inl ⟨operands, rfl, rfl⟩
  | .null | .bool _ | .number _ | .string _ | .object [] => exact .inr ⟨rfl, rfl⟩
  | .object ((inner, first) :: rest) =>
      refine .inr ⟨?_, rfl⟩
      rcases read_object inner first rest with ⟨operands, -, same⟩ | ⟨-, same⟩
      · rw [same]
        rfl
      · rw [same]
        rfl

mutual

/-- Writing undoes reading, but for the fields behind the first of an object. -/
theorem write_read (value : Json) : (read value).write = value.firstFields := by
  match value with
  | .null | .bool _ | .number _ | .string _ | .object [] => rfl
  | .array items => rw [read, write, Json.firstFields, writeAll_readAll items]
  | .object ((name, value) :: others) =>
      rw [Json.firstFields, ← write_read value]
      rcases read_object name value others with ⟨operands, rfl, same⟩ | ⟨-, same⟩
      · rw [same, read, write, write]
      · rw [same, write]

theorem writeAll_readAll (items : List Json) :
    writeAll (readAll items) = Json.firstFieldsAll items := by
  match items with
  | [] => rfl
  | item :: rest =>
      rw [readAll, writeAll, Json.firstFieldsAll, write_read item, writeAll_readAll rest]

end

mutual

theorem singlesUnlisted_read (value : Json) : (read value).singlesUnlisted = true := by
  match value with
  | .null | .bool _ | .number _ | .string _ | .object [] => rfl
  | .array items => exact singlesUnlisted_readAll items
  | .object ((name, value) :: others) =>
      have inside := singlesUnlisted_read value
      rcases read_object name value others with ⟨operands, rfl, same⟩ | ⟨unlisted, same⟩
      · rw [same]
        exact inside
      · rw [same, singlesUnlisted, unlisted, inside]
        rfl

theorem singlesUnlisted_readAll (items : List Json) :
    singlesUnlistedAll (readAll items) = true := by
  match items with
  | [] => rfl
  | item :: rest =>
      rw [readAll, singlesUnlistedAll, singlesUnlisted_read item, singlesUnlisted_readAll rest]
      rfl

end

theorem isList_withoutKeys (rule : Rule) : rule.withoutKeys.isList = rule.isList := by
  cases rule <;> rfl

mutual

theorem singlesUnlisted_withoutKeys (rule : Rule) :
    rule.withoutKeys.singlesUnlisted = rule.singlesUnlisted := by
  cases rule with
  | null | bool | number | string | emptyObject => rfl
  | list items | apply operator items keys => exact singlesUnlisted_withoutKeysAll items
  | applyOne operator operand keys =>
      rw [withoutKeys, singlesUnlisted, singlesUnlisted, isList_withoutKeys,
        singlesUnlisted_withoutKeys operand]

theorem singlesUnlisted_withoutKeysAll (rules : List Rule) :
    singlesUnlistedAll (withoutKeysAll rules) = singlesUnlistedAll rules := by
  cases rules with
  | nil => rfl
  | cons rule rest =>
      rw [withoutKeysAll, singlesUnlistedAll, singlesUnlistedAll, singlesUnlisted_withoutKeys rule,
        singlesUnlisted_withoutKeysAll rest]

end

/-- A rule comes back without its extra keys exactly if none of its single operands is a list. -/
theorem read_write_iff (rule : Rule) :
    read rule.write = rule.withoutKeys ↔ rule.singlesUnlisted = true := by
  constructor
  · intro same
    rw [← singlesUnlisted_withoutKeys, ← same]
    exact singlesUnlisted_read _
  · exact read_write

theorem isList_cut (room : Nat) {rule : Rule} (unlisted : rule.isList = false) :
    (rule.cut room).isList = false := by
  cases rule with
  | null | bool | number | string | emptyObject => rfl
  | list items => cases unlisted
  | apply | applyOne =>
      rw [cut]
      split <;> rfl

mutual

theorem singlesUnlisted_cut (room : Nat) (rule : Rule) (unlisted : rule.singlesUnlisted = true) :
    (rule.cut room).singlesUnlisted = true := by
  cases rule with
  | null | bool | number | string | emptyObject => rfl
  | list items | apply operator items keys =>
      rw [cut]
      split
      · rfl
      · exact singlesUnlisted_cutAll (room - 1) items unlisted
  | applyOne operator operand keys =>
      simp only [singlesUnlisted, Bool.and_eq_true, Bool.not_eq_true'] at unlisted
      rw [cut]
      split
      · rfl
      · rw [singlesUnlisted, isList_cut _ unlisted.1, singlesUnlisted_cut _ operand unlisted.2]
        rfl

theorem singlesUnlisted_cutAll (room : Nat) (rules : List Rule)
    (unlisted : singlesUnlistedAll rules = true) :
    singlesUnlistedAll (cutAll room rules) = true := by
  cases rules with
  | nil => rfl
  | cons rule rest =>
      simp only [singlesUnlistedAll, Bool.and_eq_true] at unlisted
      rw [cutAll, singlesUnlistedAll, singlesUnlisted_cut room rule unlisted.1,
        singlesUnlisted_cutAll room rest unlisted.2]
      rfl

end

/-- A value that is read and written again keeps the first field of each object that is read.  A
rule that is written and read again comes back without its extra keys, if no single operand inside
it is a list, and only then.  No rule that was read has such an operand, and cutting makes none. -/
theorem conversions_inverse :
    (∀ value : Json, (ofJson value).toJson = value.firstFields) ∧
      (∀ rule : Rule, ofJson rule.toJson = rule.withoutKeys ↔ rule.singlesUnlisted = true) ∧
      (∀ value : Json, (ofJson value).singlesUnlisted = true) ∧
      ∀ (limit : Int) (rule : Rule), rule.singlesUnlisted = true →
        (rule.limitDepth limit).singlesUnlisted = true := by
  refine ⟨fun value => ?_, fun rule => ?_, fun value => ?_, fun limit rule unlisted => ?_⟩
  · rw [ofJson_eq_read, toJson_eq_write, write_read]
  · rw [ofJson_eq_read, toJson_eq_write, read_write_iff]
  · rw [ofJson_eq_read]
    exact singlesUnlisted_read value
  · rw [limitDepth_eq_cut]
    exact singlesUnlisted_cut _ rule unlisted

/-- An operand in a list, the same operand alone, and a list as the one listed operand stay apart.
A list as a single operand does not come back. -/
theorem conversions_inverse_of_negations :
    let operand : Rule := .string "x"
    let rule : Rule := .list [.apply "!" [operand] ["note"], .applyOne "!" operand [],
      .apply "!" [.list [operand]] [], .emptyObject]
    let single : Rule := .applyOne "!" (.list [operand]) []
    ofJson rule.toJson = .list [.apply "!" [operand] [], .applyOne "!" operand [],
        .apply "!" [.list [operand]] [], .emptyObject] ∧
      ofJson single.toJson ≠ single ∧
      rule.limitDepth 2 = .list [.apply "!" [operand] ["note"], .applyOne "!" operand [],
        .apply "!" [truncated] [], .emptyObject] ∧
      (rule.limitDepth 2).singlesUnlisted = true := by
  intro operand rule single
  obtain ⟨-, back, -, cutting⟩ := conversions_inverse
  have unlisted : rule.singlesUnlisted = true := by decide
  refine ⟨(back rule).mpr unlisted, ?_, ?_, cutting 2 rule unlisted⟩
  · exact fun same => absurd ((back single).mp same) (by decide)
  · rw [limitDepth_eq_cut]
    rfl

end Rule

end RuleChart
