import RuleChart.Proofs.Rule.Course
import RuleChart.Proofs.Tree.Drawn
import RuleChart.Proofs.Tree.Settle

namespace RuleChart

namespace Sketch

theorem leafOutcome?_settled {value : Rule} {leaf : NodeKind × Caption}
    (found : leafOutcome? value = some leaf) : value.isDecision = false := by
  cases value with
  | apply operator operands keys =>
      by_cases reference : (Rule.apply operator operands keys).isVariable = true
      · exact Rule.settled_of_not_conditional (Rule.not_conditional_of_variable reference)
      · simp [leafOutcome?, reference] at found
  | _ => rfl

theorem plan_raw (level : Nat) (step : List String) (rule : Rule) :
    (plan Rule.maxDepth level step rule).value.raw = rule :=
  congrArg Prod.snd (plan_spot level step rule)

theorem outcome_decides {level : Nat} (side : Bool) (step : List String) (value : Rule)
    {inside : Unit → Tree (Sketch Caption)}
    (shown : Rule.Decides level value ((inside ()).map raw)) :
    Rule.Decides level value ((outcome side step value inside).map raw) := by
  unfold outcome
  split
  · rename_i leaf caption found
    exact .settled (leafOutcome?_settled found)
  · exact shown

mutual

theorem plan_decides (level : Nat) (step : List String) (rule : Rule) :
    Rule.Decides level rule ((plan Rule.maxDepth level step rule).map raw) := by
  match rule with
  | .apply operator (condition :: value :: rest) keys =>
      by_cases conditional : Family.ofName operator = .conditional
      · simp only [plan, conditional, Tree.map, Tree.mapAll]
        exact .decision conditional
          (outcome_decides true ["then"] value (plan_decides (level + 1) ["then"] value))
          (planElse_decides (level + 1) operator conditional rest)
      · exact .of_settled (by simpa [Rule.isDecision] using conditional)
          (by rw [Tree.value_map, plan_raw])
  | .null | .bool _ | .number _ | .string _ | .emptyObject | .list _ | .applyOne _ _ _
  | .apply _ [] _ | .apply _ [_] _ =>
      exact .of_settled rfl (by rw [Tree.value_map, plan_raw])

theorem planElse_decides (level : Nat) (operator : String)
    (conditional : Family.ofName operator = .conditional) (operands : List Rule) :
    Rule.DecidesElse level operator operands
      (Tree.mapAll raw (planElse Rule.maxDepth level operator operands)) := by
  match operands with
  | [] => rfl
  | [value] =>
      exact ⟨_, rfl, outcome_decides false ["else"] value (plan_decides level ["else"] value)⟩
  | condition :: value :: rest =>
      by_cases room : level < Rule.maxDepth
      · simp only [planElse, if_pos room, Tree.mapAll, Tree.map]
        refine ⟨_, rfl, ?_⟩
        rw [if_pos room]
        exact .decision conditional
          (outcome_decides true ["then"] value (plan_decides (level + 1) ["then"] value))
          (planElse_decides (level + 1) operator conditional rest)
      · simp only [planElse, if_neg room, Tree.mapAll]
        refine ⟨_, rfl, ?_⟩
        rw [if_neg room]
        rfl

end

end Sketch

namespace NodeTree

open Rule (drawnCourse questions selected? cutsChain)

section Settled

variable {γ : Type} {seen : Node → γ} {known : Sketch String → γ}

mutual

/-- What can be seen of a node without its id and its place is what its sketch says. -/
theorem settle_map
    (same : ∀ sketch id parentId depth path,
      seen (Node.ofSketch sketch id parentId depth path) = known sketch)
    (ids : Nat → String) (index : Nat) (parentId : Option String) (depth : Int)
    (path : List String) (tree : Tree (Sketch String)) :
    (settle ids index parentId depth path tree).map seen = tree.map known := by
  cases tree with
  | node sketch children =>
      simp only [settle, Tree.map, same,
        settleAll_map same ids (index + 1) (some (ids index)) (depth + 1) (path ++ sketch.step)
          children]

theorem settleAll_map
    (same : ∀ sketch id parentId depth path,
      seen (Node.ofSketch sketch id parentId depth path) = known sketch)
    (ids : Nat → String) (index : Nat) (parentId : Option String) (depth : Int)
    (path : List String) (trees : List (Tree (Sketch String))) :
    Tree.mapAll seen (settleAll ids index parentId depth path trees) = Tree.mapAll known trees := by
  cases trees with
  | nil => rfl
  | cons tree rest =>
      simp only [settleAll, Tree.mapAll, settle_map same ids index parentId depth path tree,
        settleAll_map same ids (index + tree.size) parentId depth path rest]

end

end Settled

theorem settle_raw (ids : Nat → String) (index : Nat) (parentId : Option String) (depth : Int)
    (path : List String) (tree : Tree (Sketch String)) :
    (settle ids index parentId depth path tree).map Node.raw = tree.map Sketch.raw :=
  settle_map (fun _ _ _ _ _ => rfl) ids index parentId depth path tree

theorem build_raw (place : Place) (rule : Rule) (cache : LabelCache) :
    ((build place rule) cache).1.map Node.raw =
      (Sketch.ofRule rule).map Sketch.raw := by
  rw [build_eq, settle_raw]
  have keeps (sketch : Sketch Caption) (state : LabelCache) :
      (sketch.captioned state).1.raw = sketch.raw := rfl
  exact Tree.map_traverse keeps _ cache

/-- The way down a tree where a decision goes on to its first child if its condition holds, and
else to its second. -/
def walk (holds : Rule → Bool) (tree : NodeTree) : Descent Node :=
  tree.descend (fun node => node.raw.side? holds)

theorem walk_build (holds : Rule → Bool) (place : Place) (rule : Rule) (cache : LabelCache) :
    (walk holds ((build place rule) cache).1).map Node.raw =
      drawnCourse holds 0 (rule.limitDepth Rule.maxDepth) := by
  rw [walk, ← Tree.descend_map Node.raw (Rule.side? holds), build_raw]
  exact (Sketch.plan_decides 0 [] _).descend holds

/-- The tree of a rule decides what the rule decides.  If no decision on the way cuts its
chain, the way leads through the rule's decisions to the operand that it selects, or to
nothing where the rule selects nothing; and the first decision that does cut its chain is
the last one, with what stands for the rest behind it. -/
theorem walk_selects (holds : Rule → Bool) (rule : Rule) :
    ((∀ index question, (questions holds (rule.limitDepth Rule.maxDepth))[index]? = some question →
        cutsChain holds index question = false) →
      (walk holds (ofRule rule)).passed.map Node.raw =
          questions holds (rule.limitDepth Rule.maxDepth) ∧
        (walk holds (ofRule rule)).finish.map Node.raw =
          selected? holds (rule.limitDepth Rule.maxDepth)) ∧
    ∀ index question, (questions holds (rule.limitDepth Rule.maxDepth))[index]? = some question →
      cutsChain holds index question = true →
      (∀ earlier < index, ∀ other,
        (questions holds (rule.limitDepth Rule.maxDepth))[earlier]? = some other →
          cutsChain holds earlier other = false) →
      (walk holds (ofRule rule)).passed.map Node.raw =
          (questions holds (rule.limitDepth Rule.maxDepth)).take (index + 1) ∧
        (walk holds (ofRule rule)).finish.map Node.raw = some Rule.truncated := by
  have way : (walk holds (ofRule rule)).map Node.raw =
      drawnCourse holds 0 (rule.limitDepth Rule.maxDepth) := walk_build holds _ rule _
  have passed := congrArg Descent.passed way
  have finish := congrArg Descent.finish way
  simp only [Descent.map] at passed finish
  rw [passed, finish]
  unfold drawnCourse
  constructor
  · intro uncut
    rw [Rule.shortened_of_uncut holds 0 _ _ (by simpa using uncut), Rule.course_finish]
    exact ⟨rfl, rfl⟩
  · intro index question found cut first
    rw [Rule.shortened_of_cut holds 0 _ _ found (by simpa using cut) (by simpa using first)]
    exact ⟨rfl, rfl⟩

end NodeTree

end RuleChart
