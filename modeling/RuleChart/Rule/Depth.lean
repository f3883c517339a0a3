import RuleChart.Rule.Family
import RuleChart.Rule.Json

namespace RuleChart

namespace Rule

/-- The nesting kept by the drawings of this library. -/
def maxDepth : Nat := 64

mutual

/-- Whether no list or operation lies at depth `room` or deeper. -/
def fits (room : Nat) : Rule → Bool
  | .list items => room != 0 && fitsAll (room - 1) items
  | .apply _ operands _ => room != 0 && fitsAll (room - 1) operands
  | .applyOne _ operand _ => room != 0 && operand.fits (room - 1)
  | _ => true

def fitsAll (room : Nat) : List Rule → Bool
  | [] => true
  | rule :: rest => rule.fits room && fitsAll room rest

end

mutual

/-- What is left when every list or operation at depth `room` is replaced. -/
def cut (room : Nat) : Rule → Rule
  | .list items => if room = 0 then truncated else .list (cutAll (room - 1) items)
  | .apply operator operands keys =>
      if room = 0 then truncated else .apply operator (cutAll (room - 1) operands) keys
  | .applyOne operator operand keys =>
      if room = 0 then truncated else .applyOne operator (operand.cut (room - 1)) keys
  | rule => rule

def cutAll (room : Nat) : List Rule → List Rule
  | [] => []
  | rule :: rest => rule.cut room :: cutAll room rest

end

/-- A rule with the room that is left at its place. -/
structure Roomed where
  room : Nat
  rule : Rule

def revealRoomed (item : Roomed) : Opened Roomed RuleFrame Rule :=
  let inside (parts : List Rule) := parts.map (fun part => ⟨item.room - 1, part⟩)
  match item.rule with
  | .list items =>
      if item.room = 0 then .done truncated else .pending .list (inside items)
  | .apply operator operands keys =>
      if item.room = 0 then .done truncated
      else .pending (.listed operator keys) (inside operands)
  | .applyOne operator operand keys =>
      if item.room = 0 then .done truncated
      else .pending (.single operator keys) (inside [operand])
  | rule => .done rule

def cutting : Traversal Roomed RuleFrame Rule where
  reveal := revealRoomed
  close := RuleFrame.close
  weight := fun item => item.rule.weight
  lighter := by
    intro item frame parts revealed
    rcases item with ⟨room, rule⟩
    unfold revealRoomed at revealed
    dsimp only at revealed
    split at revealed <;> try split at revealed
    all_goals cases revealed
    all_goals simp [weight, weights_eq_combined, combinedWeight_map, combinedWeight]

theorem cutAll_eq_map (room : Nat) (rules : List Rule) :
    cutAll room rules = rules.map (cut room) := by
  induction rules with
  | nil => rfl
  | cons rule rest restIH => simp [cutAll, restIH]

theorem cutting_apply (room : Nat) (rule : Rule) :
    cutting.apply ⟨room, rule⟩ = rule.cut room := by
  rw [Traversal.apply_eq_meaning]
  refine cutting.meaning_unique (fun item => item.rule.cut item.room) ?_ ?_ ⟨room, rule⟩
  · rintro ⟨room, rule⟩ result revealed
    simp only [cutting] at revealed
    unfold revealRoomed at revealed
    dsimp only at revealed ⊢
    split at revealed <;> try split at revealed
    all_goals cases revealed
    all_goals simp_all [cut]
  · rintro ⟨room, rule⟩ frame parts revealed
    simp only [cutting] at revealed ⊢
    unfold revealRoomed at revealed
    dsimp only at revealed ⊢
    split at revealed <;> try split at revealed
    all_goals cases revealed
    all_goals simp_all [cut, cutAll_eq_map, RuleFrame.close]

/-- A limit below zero cuts like the limit zero. -/
def limitDepth (limit : Int) (rule : Rule) : Rule :=
  if rule.fits limit.toNat then rule else cutting.apply ⟨limit.toNat, rule⟩

end Rule

end RuleChart
