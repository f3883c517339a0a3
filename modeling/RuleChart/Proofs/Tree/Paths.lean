import RuleChart.Proofs.Rule.Path
import RuleChart.Proofs.Tree.Drawn
import RuleChart.Proofs.Tree.Walk

namespace RuleChart

/-! The paths of a tree.

Right below a node stand parts of its rule, each behind the step that selects it; only a leaf that
stands for the rest of a chain is no part of the rule.  So every path leads from the rule of the
tree to the rule of its node, and as steps diverge, no path is met twice.
-/

namespace Rule

/-- A conditional with two operands or more behind its first outcome. -/
def isChain : Rule → Bool
  | .apply operator (_ :: _ :: _ :: _ :: _) _ => Family.ofName operator = .conditional
  | _ => false

theorem isDecision_of_isChain {rule : Rule} (chain : rule.isChain = true) :
    rule.isDecision = true := by
  unfold isChain at chain
  split at chain
  · exact chain
  · cases chain

end Rule

namespace Sketch

/-- What stands right below a node: at most one node for a step, and behind it the part of the rule
that the step selects, unless a chain is cut there. -/
structure Addressed (level : Nat) (node : List String × Rule)
    (children : List (Tree (List String × Rule))) : Prop where
  apart : (children.map (fun child => child.value.1)).Sublist (node.2.steps.map Prod.fst)
  parts : ∀ child ∈ children, child.value ∈ node.2.steps ∨
    (child = .node (["else"], Rule.truncated) [] ∧ node.2.isChain = true ∧
      Rule.maxDepth ≤ level + 1)

variable {level : Nat} {node : List String × Rule} {children : List (Tree (List String × Rule))}

theorem Addressed.diverge (addressed : Addressed level node children) :
    (children.map (fun child => child.value.1)).Pairwise Rule.Diverge :=
  (List.pairwise_map.mpr (Rule.steps_diverge node.2)).sublist addressed.apart

theorem Addressed.step_length (addressed : Addressed level node children)
    {child : Tree (List String × Rule)} (member : child ∈ children) :
    child.value.1.length = 1 ∨ child.value.1.length = 2 := by
  have inside := addressed.apart.subset (List.mem_map_of_mem member)
  obtain ⟨entry, entered, same⟩ := List.mem_map.mp inside
  rw [← same]
  exact Rule.step_length entered

theorem Addressed.of_spots {level : Nat} {sketch : Sketch Caption}
    {children : List (Tree (Sketch Caption))}
    (spots : (children.map (fun child => child.value.spot)).Sublist sketch.raw.steps) :
    Addressed level sketch.spot (children.map (Tree.map spot)) where
  apart := by
    have segments := spots.map Prod.fst
    simpa [spot, Function.comp_def] using segments
  parts := by
    intro child member
    obtain ⟨drawn, inside, rfl⟩ := List.mem_map.mp member
    rw [Tree.value_map]
    exact .inl (spots.subset (List.mem_map_of_mem inside))

theorem Addressed.of_all_spots {level : Nat} {sketch : Sketch Caption}
    {children : List (Tree (Sketch Caption))}
    (spots : children.map (fun child => child.value.spot) = sketch.raw.steps) :
    Addressed level sketch.spot (children.map (Tree.map spot)) :=
  .of_spots (spots ▸ .refl _)

theorem addressed_cut {level : Nat} {operator : String}
    (conditional : Family.ofName operator = .conditional) (full : Rule.maxDepth ≤ level + 1)
    (step : List String) (condition value next outcome : Rule) (rest : List Rule)
    (keys : List String) {yes : Tree (List String × Rule)} (root : yes.value = (["then"], value)) :
    Addressed level (step, .apply operator (condition :: value :: next :: outcome :: rest) keys)
      [yes, .node (["else"], Rule.truncated) []] := by
  have steps := Rule.steps_decision conditional condition value (next :: outcome :: rest) keys
  constructor
  case apart =>
    simp only [List.map_cons, List.map_nil, Tree.value_node, root, steps, Rule.otherwise?,
      Option.toList_some]
    exact .refl _
  case parts =>
    intro child member
    rcases List.mem_cons.mp member with rfl | other
    · refine .inl ?_
      rw [root, steps]
      exact List.mem_cons_self
    · exact .inr ⟨List.mem_singleton.mp other, by simpa [Rule.isChain] using conditional, full⟩

theorem planElse_spots {level : Nat} {operator : String} {rest : List Rule}
    (uncut : rest.length < 2 ∨ level < Rule.maxDepth) :
    (planElse Rule.maxDepth level operator rest).map (fun child => child.value.spot) =
      (Rule.otherwise? operator rest).toList.map (fun other => (["else"], other)) := by
  match rest with
  | [] => rfl
  | [value] =>
      have root := outcome_spot false (plan_spot level ["else"] value)
      simp [planElse, Rule.otherwise?, root]
  | condition :: value :: rest =>
      have room : level < Rule.maxDepth := uncut.resolve_left (by simp)
      rw [planElse, if_pos room]
      rfl

theorem planElse_cut {level : Nat} (operator : String) {rest : List Rule} (many : 2 ≤ rest.length)
    (full : Rule.maxDepth ≤ level) : planElse Rule.maxDepth level operator rest = [cutLeaf] := by
  match rest with
  | [] | [_] => simp at many
  | condition :: value :: rest => rw [planElse, if_neg (Nat.not_lt.mpr full)]

theorem Drawn.addressed {level : Nat} {sketch : Sketch Caption}
    {children : List (Tree (Sketch Caption))} (drawn : Drawn level sketch children) :
    Addressed level sketch.spot (children.map (Tree.map spot)) := by
  cases drawn with
  | primitive | reference | defaultLeaf | branchLeaf | cutLeaf =>
      exact .of_spots (List.nil_sublist _)
  | array step items =>
      exact .of_all_spots (planItems_spots (level + 1) 0 items)
  | referenceOr step path value rest keys reference =>
      refine .of_spots ?_
      simp [variableNode, Rule.steps, reference, Sketch.defaultLeaf, literal, spot]
  | malformed step keys conditional few =>
      refine .of_spots ?_
      rw [Sketch.malformed, Rule.steps_malformed conditional few]
      exact planOperands_spots ..
  | operation step operands keys plain steady =>
      refine .of_spots ?_
      rw [Sketch.operation, Rule.steps_operation plain steady]
      exact planOperands_spots ..
  | malformedOne step operand keys conditional =>
      refine .of_spots ?_
      simp only [Sketch.malformed, Rule.steps, conditional]
      split
      · exact List.nil_sublist _
      · simp [plan_spot]
  | operationOne step operand keys plain steady =>
      refine .of_spots ?_
      rw [Sketch.operation, Rule.steps_operationOne plain steady]
      split
      · exact List.nil_sublist _
      · simp [plan_spot]
  | @decision step operator condition value rest keys conditional =>
      have first := outcome_spot true (plan_spot (level + 1) ["then"] value)
      by_cases uncut : rest.length < 2 ∨ level + 1 < Rule.maxDepth
      · refine .of_all_spots ?_
        rw [Sketch.decision, Rule.steps_decision conditional, List.map_cons, planElse_spots uncut,
          first]
      · obtain ⟨many, full⟩ := not_or.mp uncut
        cases rest with
        | nil => simp at many
        | cons next rest =>
            cases rest with
            | nil => simp at many
            | cons outcome rest =>
                rw [planElse_cut operator (by simp) (Nat.not_lt.mp full)]
                exact addressed_cut conditional (Nat.not_lt.mp full) step condition value next
                  outcome rest keys (by rw [Tree.value_map, first])

end Sketch

/-- `part` stands right below `parent` for the rest of a chain that was cut.  The decision for that
rest would have been `maxDepth` levels or more below the root, which is at depth `root`. -/
structure StandsForRest (root : Int) (parent part : NodeTree) : Prop where
  child : part ∈ parent.children
  chain : parent.value.raw.isChain = true
  deep : root + Rule.maxDepth ≤ parent.value.depth + 1
  path : part.value.path = parent.value.path ++ ["else"]
  raw : part.value.raw = Rule.truncated
  leaf : part.children = []

namespace NodeTree

mutual

/-- The path of a root is the beginning of all paths in its tree. -/
theorem path_settle {ids : Nat → String} {index : Nat} {parentId : Option String} {depth : Int}
    {path : List String} {node : Node} (tree : Tree (Sketch String))
    (member : node ∈ (settle ids index parentId depth path tree).preorder) :
    path ++ tree.value.step <+: node.path := by
  cases tree with
  | node sketch children =>
      rcases List.mem_cons.mp member with rfl | below
      · exact List.prefix_refl _
      · obtain ⟨child, -, start⟩ := path_settleAll children below
        exact (List.prefix_append _ _).trans start

theorem path_settleAll {ids : Nat → String} {index : Nat} {parentId : Option String}
    {depth : Int} {path : List String} {node : Node} (trees : List (Tree (Sketch String)))
    (member : node ∈ Tree.preorderAll (settleAll ids index parentId depth path trees)) :
    ∃ tree ∈ trees, path ++ tree.value.step <+: node.path := by
  cases trees with
  | nil => cases member
  | cons tree rest =>
      rcases List.mem_append.mp member with first | later
      · exact ⟨tree, List.mem_cons_self, path_settle tree first⟩
      · obtain ⟨other, inside, start⟩ := path_settleAll rest later
        exact ⟨other, List.mem_cons_of_mem _ inside, start⟩

end

variable {ids : Nat → String} {index : Nat} {parentId : Option String} {depth : Int}
  {path : List String}

theorem mem_settleAll {trees : List (Tree (Sketch String))} {settled : NodeTree}
    (member : settled ∈ settleAll ids index parentId depth path trees) :
    ∃ start, ∃ tree ∈ trees, settled = settle ids start parentId depth path tree := by
  induction trees generalizing index with
  | nil => cases member
  | cons tree rest restIH =>
      rcases List.mem_cons.mp member with rfl | later
      · exact ⟨index, tree, List.mem_cons_self, rfl⟩
      · obtain ⟨start, other, inside, same⟩ := restIH later
        exact ⟨start, other, List.mem_cons_of_mem _ inside, same⟩

/-- Trees behind diverging steps have no path in common. -/
theorem settleAll_paths_nodup {trees : List (Tree (Sketch String))}
    (apart : (trees.map (fun tree => tree.value.step)).Pairwise Rule.Diverge)
    (each : ∀ tree ∈ trees, ∀ index,
      ((settle ids index parentId depth path tree).preorder.map Node.path).Nodup) :
    ((Tree.preorderAll (settleAll ids index parentId depth path trees)).map Node.path).Nodup := by
  induction trees generalizing index with
  | nil => exact .nil
  | cons tree rest restIH =>
      obtain ⟨diverge, apart⟩ := List.pairwise_cons.mp apart
      rw [settleAll, Tree.preorderAll, List.map_append]
      refine List.nodup_append.mpr ⟨each tree (by simp) index,
        restIH apart (fun other inside => each other (by simp [inside])), ?_⟩
      intro one first other later same
      obtain ⟨node, inFirst, rfl⟩ := List.mem_map.mp first
      obtain ⟨otherNode, inLater, rfl⟩ := List.mem_map.mp later
      obtain ⟨sibling, inside, start⟩ := path_settleAll rest inLater
      have sides := (diverge _ (List.mem_map_of_mem inside)).append path
      exact sides.not_both (path_settle tree inFirst) (by rw [same]; exact start)

theorem settle_paths_nodup {spots : Tree (List String × Rule)} {level : Nat}
    (addressed : spots.Throughout Sketch.Addressed level) {tree : Tree (Sketch String)}
    (same : tree.map Sketch.spot = spots) :
    ((settle ids index parentId depth path tree).preorder.map Node.path).Nodup := by
  induction addressed generalizing tree index parentId depth path with
  | @node level value spots here below belowIH =>
      cases tree with
      | node sketch children =>
          rw [Tree.map, Tree.mapAll_eq_map] at same
          obtain ⟨rfl, rfl⟩ := Tree.node.inj same
          have steps : (children.map (Tree.map Sketch.spot)).map (fun child => child.value.1) =
              children.map (fun tree => tree.value.step) := by
            simp [Sketch.spot, Function.comp_def]
          rw [settle, Tree.preorder, List.map_cons, List.nodup_cons]
          refine ⟨?apart, settleAll_paths_nodup (steps ▸ here.diverge) fun child member index =>
            belowIH _ (List.mem_map_of_mem member) rfl⟩
          intro again
          obtain ⟨node, inside, samePath⟩ := List.mem_map.mp again
          obtain ⟨child, member, start⟩ := path_settleAll children inside
          rw [samePath] at start
          have short : (path ++ sketch.step ++ child.value.step).length ≤
              (path ++ sketch.step).length := start.length_le
          rw [List.length_append] at short
          have someStep := here.step_length (List.mem_map_of_mem member)
          rw [Tree.value_map] at someStep
          change child.value.step.length = 1 ∨ child.value.step.length = 2 at someStep
          omega

/-- A child that was put where a chain is cut stands for the rest of it. -/
theorem standsForRest_of_cut {sketch : Sketch String} {children : List (Tree (Sketch String))}
    {child : Tree (Sketch String)}
    (cut : child.map Sketch.spot = .node (["else"], Rule.truncated) [])
    (chain : sketch.raw.isChain = true) {root : Int} {level : Nat} (deep : depth = root + level)
    (full : Rule.maxDepth ≤ level + 1) {start : Nat} {part : NodeTree}
    (settled : settle ids start (some (ids index)) (depth + 1) (path ++ sketch.step) child ∈
      settleAll ids (index + 1) (some (ids index)) (depth + 1) (path ++ sketch.step) children)
    (member : part ∈
      (settle ids start (some (ids index)) (depth + 1) (path ++ sketch.step) child).subtrees) :
    StandsForRest root (settle ids index parentId depth path (.node sketch children)) part := by
  cases child with
  | node leaf below =>
      obtain ⟨spot, none⟩ := Tree.node.inj cut
      obtain ⟨step, raw⟩ := Prod.mk.inj spot
      obtain rfl : below = [] := by simpa [Tree.mapAll_eq_map] using none
      obtain rfl := List.mem_singleton.mp member
      exact {
        child := settled
        chain := chain
        deep := by simp only [settle, Tree.value_node, Node.ofSketch]; omega
        path := by simp [settle, Node.ofSketch, step]
        raw := raw
        leaf := rfl }

/-- A path that leads to the rule of the root goes on to the rules of all nodes, up to the leaves
that stand for the rest of a chain. -/
theorem settle_leads {spots : Tree (List String × Rule)} {level : Nat}
    (addressed : spots.Throughout Sketch.Addressed level) {tree : Tree (Sketch String)}
    (same : tree.map Sketch.spot = spots) {root : Int} (deep : depth = root + level) {whole : Rule}
    {before way : List String} (placed : path = before ++ way)
    (leads : whole.Leads (way ++ tree.value.step) tree.value.raw) {part : NodeTree}
    (member : part ∈ (settle ids index parentId depth path tree).subtrees) :
    ∃ further, part.value.path = before ++ further ∧
      (whole.Leads further part.value.raw ∨
        ∃ parent ∈ (settle ids index parentId depth path tree).subtrees,
          StandsForRest root parent part) := by
  induction addressed generalizing tree index parentId depth path way with
  | @node level value spots here below belowIH =>
      cases tree with
      | node sketch children =>
          rw [Tree.map, Tree.mapAll_eq_map] at same
          obtain ⟨rfl, rfl⟩ := Tree.node.inj same
          have onward : path ++ sketch.step = before ++ (way ++ sketch.step) := by simp [placed]
          rcases List.mem_cons.mp member with rfl | inside
          · exact ⟨way ++ sketch.step, onward, .inl leads⟩
          rw [Tree.subtreesAll_eq_flatMap] at inside
          obtain ⟨settled, settledMember, within⟩ := List.mem_flatMap.mp inside
          obtain ⟨start, child, childMember, rfl⟩ := mem_settleAll settledMember
          -- Where a chain is cut, the way leads on to the decision above only.
          rcases here.parts _ (List.mem_map_of_mem childMember) with entered | ⟨cut, chain, full⟩
          · rw [Tree.value_map] at entered
            have deeper : depth + 1 = root + (level + 1 : Nat) := by omega
            obtain ⟨further, samePath, reached⟩ := belowIH _ (List.mem_map_of_mem childMember) rfl
              deeper onward (leads.next entered) within
            refine ⟨further, samePath, reached.imp_right ?_⟩
            rintro ⟨parent, parentMember, rest⟩
            exact ⟨parent, Tree.mem_subtrees_trans _
              (Tree.mem_subtrees_of_child settledMember) parentMember, rest⟩
          · have rest : StandsForRest root
                (settle ids index parentId depth path (.node sketch children)) part :=
              standsForRest_of_cut cut chain deep full settledMember within
            refine ⟨way ++ sketch.step ++ ["else"], ?_, .inr ⟨_, Tree.self_mem_subtrees _, rest⟩⟩
            rw [rest.path, ← List.append_assoc, ← onward]
            rfl

theorem build_spots (place : Place) (rule : Rule) (cache : LabelCache) :
    ∃ sketched : Tree (Sketch String),
      ((build place rule) cache).1 =
          settle place.ids 0 place.parentId place.depth place.path sketched ∧
        sketched.map Sketch.spot =
          (Sketch.ofRule rule).map Sketch.spot := by
  have keeps (sketch : Sketch Caption) (state : LabelCache) :
      (sketch.captioned state).1.spot = sketch.spot := rfl
  exact ⟨_, congrArg Prod.fst (build_eq place rule cache), Tree.map_traverse keeps _ cache⟩

/-- Every built tree addresses its rule.  No two nodes have one path, and each path starts with the
path of the place; what follows leads from the rule, cut at the nesting limit, to the rule of the
node and to nothing else.  Only a leaf that stands for the rest of a chain is no part of it. -/
theorem build_addresses (place : Place) (rule : Rule) (cache : LabelCache) :
    let tree := ((build place rule) cache).1
    (tree.preorder.map Node.path).Nodup ∧
      ∀ part ∈ tree.subtrees, ∃ way, part.value.path = place.path ++ way ∧
        ((∀ target, (rule.limitDepth Rule.maxDepth).Leads way target ↔ target = part.value.raw) ∨
          ∃ parent ∈ tree.subtrees, StandsForRest place.depth parent part) := by
  obtain ⟨sketched, built, spots⟩ := build_spots place rule cache
  have addressed := (Sketch.ofRule_drawn rule).map
    (fun level sketch children drawn => Sketch.Drawn.addressed drawn)
  have root := congrArg Tree.value spots
  rw [Tree.value_map, Tree.value_map, Sketch.ofRule_spot] at root
  obtain ⟨step, raw⟩ := Prod.mk.inj root
  intro tree
  have settled : tree = settle place.ids 0 place.parentId place.depth place.path sketched := built
  rw [settled]
  refine ⟨settle_paths_nodup addressed spots, fun part member => ?_⟩
  have here : (rule.limitDepth Rule.maxDepth).Leads ([] ++ sketched.value.step)
      sketched.value.raw := by
    rw [step, raw]
    exact .here _
  have deep : place.depth = place.depth + (0 : Nat) := by simp
  have placed : place.path = place.path ++ [] := (List.append_nil _).symm
  obtain ⟨way, path, reached⟩ := settle_leads addressed spots deep placed here member
  refine ⟨way, path, reached.imp_left fun leads target => ?_⟩
  exact ⟨fun other => other.unique leads, fun same => same ▸ leads⟩

end NodeTree

end RuleChart
