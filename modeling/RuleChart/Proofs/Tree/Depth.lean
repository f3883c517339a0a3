import RuleChart.Proofs.Rule.Nesting
import RuleChart.Proofs.Tree.Chain
import RuleChart.Proofs.Tree.Paths

namespace RuleChart

/-! How deep the tree of a rule can be.

On the way down a tree a rule is entered, which leaves less room inside of it, or a chain goes on,
which it does above the limit only.  So a chain can take all levels up to the limit, and what is
inside of its last outcome as many again.
-/

namespace Sketch

theorem planElse_parts {level : Nat} {operator : String} {rest : List Rule}
    {child : Tree (Sketch Caption)} (member : child ∈ planElse Rule.maxDepth level operator rest) :
    child.value.raw ∈ rest ∨
      (level < Rule.maxDepth ∧ child.value.raw = .apply operator rest []) ∨
      (child.value.raw = Rule.truncated ∧ rest ≠ []) := by
  cases rest with
  | nil => cases member
  | cons first rest =>
      cases rest with
      | nil =>
          obtain rfl := List.mem_singleton.mp member
          have root := outcome_spot false (plan_spot level ["else"] first)
          exact .inl (List.mem_singleton.mpr (congrArg Prod.snd root))
      | cons value rest =>
          rw [planElse] at member
          split at member
          · rename_i room
            obtain rfl := List.mem_singleton.mp member
            exact .inr (.inl ⟨room, rfl⟩)
          · obtain rfl := List.mem_singleton.mp member
            exact .inr (.inr ⟨rfl, List.cons_ne_nil _ _⟩)

/-- A node below another one stands for a rule inside of it, or for the rest of a chain above the
limit, or for the rest of a chain that was cut. -/
theorem Drawn.descends {level : Nat} {sketch : Sketch Caption}
    {children : List (Tree (Sketch Caption))} (drawn : Drawn level sketch children)
    {child : Tree (Sketch Caption)} (member : child ∈ children) :
    child.value.raw ∈ sketch.raw.children ∨
      (level + 1 < Rule.maxDepth ∧ child.value.raw.children ⊆ sketch.raw.children) ∨
      (child.value.raw = Rule.truncated ∧ sketch.raw.children ≠ []) := by
  have part (settled : sketch.raw.isDecision = false) :
      child.value.raw ∈ sketch.raw.children := by
    rcases drawn.addressed.parts _ (List.mem_map_of_mem member) with entered | ⟨-, chain, -⟩
    · rw [Tree.value_map] at entered
      refine (Rule.part_of_step entered).resolve_right ?_
      rintro ⟨operator, condition, value, rest, keys, same, conditional, -⟩
      change sketch.raw = _ at same
      rw [same, Rule.isDecision_apply.mpr conditional] at settled
      cases settled
    · have decision := Rule.isDecision_of_isChain chain
      change sketch.raw.isDecision = true at decision
      rw [settled] at decision
      cases decision
  cases drawn with
  | primitive | reference | defaultLeaf | branchLeaf | cutLeaf => cases member
  | array | malformedOne | operationOne => exact .inl (part rfl)
  | referenceOr step path value rest keys reference =>
      exact .inl (part (by simp [variableNode, Rule.isDecision, reference]))
  | @malformed step operator operands keys conditional few =>
      rcases operands with _ | ⟨operand, _ | ⟨next, rest⟩⟩
      · exact .inl (part rfl)
      · exact .inl (part rfl)
      · exact absurd few (by simp)
  | operation step operands keys plain steady =>
      refine .inl (part (Rule.settled_of_not_conditional ?_))
      exact fun other => steady (Rule.isConditional_apply.mp other)
  | @decision step operator condition value rest keys conditional =>
      have inside : rest ⊆ condition :: value :: rest :=
        fun rule member => List.mem_cons_of_mem _ (List.mem_cons_of_mem _ member)
      rcases List.mem_cons.mp member with rfl | other
      · have root := outcome_spot true (plan_spot (level + 1) ["then"] value)
        refine .inl (List.mem_cons_of_mem _ (List.mem_cons.mpr (.inl ?_)))
        exact congrArg Prod.snd root
      · rcases planElse_parts other with last | ⟨room, more⟩ | ⟨cut, some⟩
        · exact .inl (inside last)
        · exact .inr (.inl ⟨room, more ▸ inside⟩)
        · exact .inr (.inr ⟨cut, List.cons_ne_nil _ _⟩)

/-- A level and the room that is left there come to less than twice the limit. -/
theorem length_of_plan_get? {rule : Rule} {address : List Nat} {sketch : Sketch Caption}
    (found : (ofRule rule).get? address = some sketch) :
    address.length ≤ 2 * Rule.maxDepth - 1 := by
  have carried := (ofRule_drawn rule).carry
    (fun level sketch => ∃ room, sketch.raw.Within room ∧ room ≤ Rule.maxDepth ∧
      level + room ≤ 2 * Rule.maxDepth - 1) ?passes ?root
  case root =>
    rw [ofRule_raw]
    exact ⟨Rule.maxDepth, Rule.within_limitDepth _ rule, Nat.le_refl _, by decide⟩
  case passes =>
    rintro level sketch children drawn ⟨room, within, small, bound⟩ child member
    rcases drawn.descends member with inside | ⟨above, same⟩ | ⟨cut, some⟩
    · obtain ⟨less, rfl, deeper⟩ := within.of_child inside
      exact ⟨less, deeper, by omega, by omega⟩
    · exact ⟨room, within.of_subset same, small, by omega⟩
    · obtain ⟨operand, member⟩ := List.exists_mem_of_ne_nil _ some
      obtain ⟨less, rfl, -⟩ := within.of_child member
      exact ⟨0, cut ▸ .childless rfl, Nat.zero_le _, by omega⟩
  obtain ⟨-, -, room, -, -, bound⟩ := carried.of_get? found
  omega

end Sketch

namespace Rule

/-- A list inside of `more` negations, one inside the other. -/
def negations : Nat → Rule
  | 0 => .list [.null]
  | more + 1 => .applyOne "!" (negations more) []

/-- A chain of `links + 1` decisions with something nested in its last outcome. -/
def steep (links inside : Nat) : Rule :=
  chain "if" (List.replicate links (.null, .null) ++ [(.null, negations (inside + 1))]) none

theorem fits_negations (more : Nat) : (negations more).fits (more + 1) = true := by
  induction more with
  | zero => rfl
  | succ more moreIH => simp [negations, Rule.fits, moreIH]

theorem fits_steep (links inside : Nat) : (steep links inside).fits (inside + 3) = true := by
  have operands : fitsAll (inside + 2) (operandsOf (List.replicate links (.null, .null) ++
      [(.null, negations (inside + 1))]) none) = true := by
    induction links with
    | zero => simp [operandsOf, fitsAll, Rule.fits, fits_negations]
    | succ links linksIH =>
        simpa [List.replicate_succ, operandsOf, fitsAll, Rule.fits] using linksIH
  simpa [steep, chain, Rule.fits] using operands

end Rule

namespace Sketch

open Rule (negations steep)

theorem plan_negations (level : Nat) (step : List String) (more : Nat) :
    ((plan Rule.maxDepth level step (negations more)).get?
      (List.replicate (more + 1) 0)).isSome = true := by
  induction more generalizing level step with
  | zero => rfl
  | succ more moreIH =>
      have inner : (negations more).isSimple = false := by cases more <;> rfl
      have family : Family.ofName "!" = .negation := by decide
      simpa [negations, plan, family, inner, List.replicate_succ, Tree.get?_cons] using
        moreIH (level + 1) ["!"]

/-- The outcome of every pair of a chain stands a level below the one before. -/
theorem plan_chain_get? {operator : String} (conditional : Family.ofName operator = .conditional)
    (level : Nat) (step : List String) (before : List (Rule × Rule)) (pair : Rule × Rule)
    (rest : List (Rule × Rule)) (default : Option Rule)
    (room : level + before.length < Rule.maxDepth) (address : List Nat) :
    (plan Rule.maxDepth level step (Rule.chain operator (before ++ pair :: rest) default)).get?
        (List.replicate before.length 1 ++ 0 :: address) =
      (firstOutcome (level + before.length) pair).get? address := by
  induction before generalizing level step with
  | nil => exact congrArg (Tree.get? (0 :: address)) (plan_decision conditional level step _ _ _ _)
  | cons first before beforeIH =>
      simp only [List.length_cons] at room
      have later := beforeIH (level + 1) ["else"] (by omega)
      obtain ⟨next, further, pairs⟩ := List.exists_cons_of_ne_nil
        (l := before ++ pair :: rest) (by simp)
      rw [pairs, Nat.add_right_comm, Nat.add_assoc] at later
      rw [List.cons_append, pairs, plan_chain conditional (by omega), List.length_cons,
        List.replicate_succ, List.cons_append, Tree.get?_cons]
      exact later

theorem plan_steep (links inside : Nat) (room : links < Rule.maxDepth) :
    ((plan Rule.maxDepth 0 [] (steep links inside)).get?
      (List.replicate links 1 ++ List.replicate (inside + 3) 0)).isSome = true := by
  have last := plan_negations (links + 1) ["then"] (inside + 1)
  have conditional : Family.ofName "if" = .conditional := by decide
  have outcomes := plan_chain_get? conditional 0 []
    (List.replicate links (.null, .null)) (.null, negations (inside + 1)) [] none (by simpa)
    (List.replicate (inside + 2) 0)
  rw [List.length_replicate, Nat.zero_add] at outcomes
  rw [List.replicate_succ, steep, outcomes]
  exact last

end Sketch

namespace NodeTree

variable {ids : Nat → String} {index : Nat} {parentId : Option String} {depth : Int}
  {path : List String}

theorem depth_of_settle_get? {address : List Nat} {tree : Tree (Sketch String)} {node : Node}
    (found : (settle ids index parentId depth path tree).get? address = some node) :
    node.depth = depth + address.length := by
  induction address generalizing tree index parentId depth path with
  | nil =>
      cases tree with
      | node sketch children =>
          cases found
          simp [settle, Node.ofSketch]
  | cons place address addressIH =>
      cases tree with
      | node sketch children =>
          rw [Tree.get?_cons] at found
          obtain ⟨child, listed, found⟩ := Option.bind_eq_some_iff.mp found
          obtain ⟨start, below, -, rfl⟩ := mem_settleAll (List.mem_of_getElem? listed)
          have deeper := addressIH found
          simp only [List.length_cons]
          omega

/-- The tree of a rule has the shape of its sketch. -/
theorem build_get? (place : Place) (rule : Rule) (cache : LabelCache) (address : List Nat) :
    (((build place rule) cache).1.get? address).map Node.raw =
      ((Sketch.ofRule rule).get? address).map Sketch.raw := by
  rw [← Tree.get?_map, build_raw, Tree.get?_map]

theorem depth_of_build_get? {place : Place} {rule : Rule} {cache : LabelCache}
    {address : List Nat} {node : Node}
    (found : ((build place rule) cache).1.get? address = some node) :
    node.depth = place.depth + address.length := by
  obtain ⟨sketched, built, -⟩ := build_spots place rule cache
  rw [built] at found
  exact depth_of_settle_get? found

/-- No node of a tree is above its root or `2 * maxDepth` levels or more below it, and there is a
rule whose tree goes as deep as that allows. -/
theorem build_depth :
    2 * Rule.maxDepth - 1 = 127 ∧
      (∀ (place : Place) (rule : Rule) (cache : LabelCache),
        ∀ node ∈ ((build place rule) cache).1.preorder,
          place.depth ≤ node.depth ∧ node.depth ≤ place.depth + (2 * Rule.maxDepth - 1 : Nat)) ∧
      ∃ rule : Rule, ∀ (place : Place) (cache : LabelCache),
        ∃ node ∈ ((build place rule) cache).1.preorder,
          node.depth = place.depth + (2 * Rule.maxDepth - 1 : Nat) := by
  refine ⟨by decide, ?bounded, Rule.steep 63 61, ?attained⟩
  case bounded =>
    intro place rule cache node member
    obtain ⟨address, found⟩ := Tree.mem_preorder_iff.mp member
    have drawn := build_get? place rule cache address
    rw [found, Option.map_some, eq_comm, Option.map_eq_some_iff] at drawn
    obtain ⟨sketch, sketched, -⟩ := drawn
    have level := Sketch.length_of_plan_get? sketched
    rw [depth_of_build_get? found]
    omega
  case attained =>
    intro place cache
    have uncut : (Rule.steep 63 61).limitDepth Rule.maxDepth = Rule.steep 63 61 :=
      Rule.limitDepth_of_fits (Rule.fits_steep 63 61)
    have sketched := Sketch.plan_steep 63 61 (by decide)
    have drawn := build_get? place (Rule.steep 63 61) cache
      (List.replicate 63 1 ++ List.replicate 64 0)
    obtain ⟨sketch, found⟩ := Option.isSome_iff_exists.mp sketched
    rw [Sketch.ofRule_uncut uncut, found, Option.map_some, Option.map_eq_some_iff] at drawn
    obtain ⟨node, found, -⟩ := drawn
    refine ⟨node, Tree.mem_preorder_iff.mpr ⟨_, found⟩, ?_⟩
    rw [depth_of_build_get? found, List.length_append, List.length_replicate, List.length_replicate]
    rfl

end NodeTree

end RuleChart
