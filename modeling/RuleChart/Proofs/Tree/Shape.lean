import Mathlib.Data.List.Forall2
import RuleChart.Proofs.Rule.Json
import RuleChart.Proofs.Tree.Paths

namespace RuleChart

namespace Sketch

/-- All of a sketch but its caption. -/
def uncaptioned {κ : Type} (sketch : Sketch κ) : Sketch Unit := { sketch with caption := () }

/-- What a node has from its sketch, if it stands below a node with the given path. -/
structure Settled {κ : Type} (path : List String) (sketch : Sketch κ) (node : Node) : Prop where
  kind : node.kind = sketch.kind
  raw : node.raw = sketch.raw
  operator : node.operator = sketch.operator
  leafKind : node.leafKind = sketch.leafKind
  path : node.path = path ++ sketch.step
  expanded : node.expanded = sketch.foldDepth.all fun limit : Nat => decide (node.depth < limit)

theorem settled_of_uncaptioned {κ κ' : Type} {path : List String} {sketch : Sketch κ}
    {other : Sketch κ'} {node : Node} (same : sketch.uncaptioned = other.uncaptioned)
    (settled : sketch.Settled path node) : other.Settled path node := by
  obtain ⟨step, -, kind, raw, operator, foldDepth, leafKind, -⟩ := Sketch.mk.inj same
  exact {
    kind := settled.kind.trans kind
    raw := settled.raw.trans raw
    operator := settled.operator.trans operator
    leafKind := settled.leafKind.trans leafKind
    path := step ▸ settled.path
    expanded := foldDepth ▸ settled.expanded }

end Sketch

namespace NodeTree

open Sketch (Drawn Settled)

theorem settled_ofSketch (sketch : Sketch String) (id : String) (parentId : Option String)
    (depth : Int) (path : List String) :
    sketch.Settled path (Node.ofSketch sketch id parentId depth (path ++ sketch.step)) where
  kind := rfl
  raw := rfl
  operator := rfl
  leafKind := rfl
  path := rfl
  expanded := by
    simp only [Node.ofSketch]
    cases sketch.foldDepth <;> rfl

variable {ids : Nat → String} {index : Nat} {parentId : Option String} {depth : Int}
  {path : List String}

theorem settled_settle (tree : Tree (Sketch String)) :
    tree.value.Settled path (settle ids index parentId depth path tree).value := by
  cases tree
  exact settled_ofSketch ..

theorem settleAll_settled {plans : List (Tree (Sketch Caption))}
    {trees : List (Tree (Sketch String))}
    (same : trees.map (fun tree => tree.value.uncaptioned) =
      plans.map (fun plan => plan.value.uncaptioned)) :
    List.Forall₂ (fun plan settled => plan.value.Settled path settled.value) plans
      (settleAll ids index parentId depth path trees) := by
  induction trees generalizing plans index with
  | nil =>
      obtain rfl := List.map_eq_nil_iff.mp same.symm
      exact .nil
  | cons tree rest restIH =>
      cases plans with
      | nil => cases same
      | cons plan plans =>
          obtain ⟨first, later⟩ := List.cons.inj same
          exact .cons (Sketch.settled_of_uncaptioned first (settled_settle tree)) (restIH later)

theorem settle_drawn {plan : Tree (Sketch Caption)} {level : Nat}
    (drawn : plan.Throughout Drawn level) {tree : Tree (Sketch String)}
    (same : tree.map Sketch.uncaptioned = plan.map Sketch.uncaptioned) {part : NodeTree}
    (member : part ∈ (settle ids index parentId depth path tree).subtrees) :
    ∃ level sketch children path, Drawn level sketch children ∧ sketch.Settled path part.value ∧
      List.Forall₂ (fun child below => child.value.Settled part.value.path below.value) children
        part.children := by
  induction drawn generalizing tree index parentId depth path with
  | @node level value plans here below belowIH =>
      cases tree with
      | node sketch children =>
          simp only [Tree.map, Tree.mapAll_eq_map, Tree.node.injEq] at same
          obtain ⟨root, listed⟩ := same
          rcases List.mem_cons.mp member with rfl | inside
          · have values := congrArg (List.map Tree.value) listed
            simp only [List.map_map, Function.comp_def, Tree.value_map] at values
            exact ⟨level, value, plans, path, here,
              Sketch.settled_of_uncaptioned root (settled_ofSketch ..), settleAll_settled values⟩
          · rw [Tree.subtreesAll_eq_flatMap] at inside
            obtain ⟨settled, settledMember, within⟩ := List.mem_flatMap.mp inside
            obtain ⟨start, child, childMember, rfl⟩ := mem_settleAll settledMember
            have mapped : child.map Sketch.uncaptioned ∈ plans.map (Tree.map Sketch.uncaptioned) :=
              listed ▸ List.mem_map_of_mem childMember
            obtain ⟨drawn, inPlans, same⟩ := List.mem_map.mp mapped
            exact belowIH drawn inPlans same.symm within

/-- Every node of a built tree, and all that stands right below it, is a drawn one. -/
theorem build_drawn (place : Place) (rule : Rule) (cache : LabelCache) {part : NodeTree}
    (member : part ∈ ((build place rule) cache).1.subtrees) :
    ∃ level sketch children path, Drawn level sketch children ∧ sketch.Settled path part.value ∧
      List.Forall₂ (fun child below => child.value.Settled part.value.path below.value) children
        part.children := by
  have keeps (sketch : Sketch Caption) (state : LabelCache) :
      (sketch.captioned state).1.uncaptioned = sketch.uncaptioned := rfl
  rw [build_eq] at member
  exact settle_drawn (Sketch.ofRule_drawn rule) (Tree.map_traverse keeps _ cache) member

end NodeTree

/-- What a node and the nodes right below it are like, according to its kind.

A leaf of an outcome tells which kind its rule would have elsewhere, and its path ends with its
side.  All other nodes stand for a rule with the nodes of its parts below them: a list has all of
its items there, a variable its default, a decision one outcome or two, and any other operation the
operands that are not simple.  Literals and lists have no operator, whether or not they are
outcomes. -/
structure Node.Shaped (node : Node) (children : List Node) : Prop where
  tagged : node.leafKind.isSome = true ↔ node.kind = .trueBranch ∨ node.kind = .falseBranch
  branch : node.leafKind.isSome = true → children = [] ∧
    ((node.raw.isPrimitive = true ∧ node.leafKind = some .literal) ∨
      (node.raw.isList = true ∧ node.leafKind = some .arrayLiteral) ∨
      (node.raw.isVariable = true ∧ node.leafKind = some .variable))
  thenSide : node.kind = .trueBranch → node.path.getLast? = some "then"
  elseSide : node.kind = .falseBranch → node.path.getLast? = some "else"
  literal : node.kind = .literal → children = []
  array : node.kind = .arrayLiteral → node.raw = .list (children.map Node.raw)
  reference : node.kind = .variable → node.raw.isVariable = true ∧
    children.map (fun child => (child.kind, child.raw)) =
      node.raw.children[1]?.toList.map (fun value => (.literal, value))
  decision : node.kind = .operator → node.raw.isDecision = true →
    children.map Node.path = if node.raw.children.length = 2 then [node.path ++ ["then"]]
      else [node.path ++ ["then"], node.path ++ ["else"]]
  operation : node.kind = .operator → node.raw.isDecision = false →
    children.map Node.raw = node.raw.children.filter (fun operand => !operand.isSimple)
  unnamed : node.operator = none ↔
    node.leafKind.getD node.kind = .literal ∨ node.leafKind.getD node.kind = .arrayLiteral

namespace Node.Shaped

variable {node : Node} {children : List Node}

theorem of_literal (kind : node.kind = .literal) (plain : node.leafKind = none)
    (unnamed : node.operator = none) : node.Shaped [] := by
  constructor <;> simp [kind, plain, unnamed]

theorem of_array (kind : node.kind = .arrayLiteral) (plain : node.leafKind = none)
    (unnamed : node.operator = none) (items : node.raw = .list (children.map Node.raw)) :
    node.Shaped children := by
  constructor <;> simp [kind, plain, unnamed, items]

theorem of_reference (kind : node.kind = .variable) (plain : node.leafKind = none)
    (named : node.operator ≠ none) (reference : node.raw.isVariable = true)
    (default : children.map (fun child => (child.kind, child.raw)) =
      node.raw.children[1]?.toList.map (fun value => (.literal, value))) :
    node.Shaped children := by
  constructor <;> simp [kind, plain, named, reference, default]

theorem of_decision (kind : node.kind = .operator) (plain : node.leafKind = none)
    (named : node.operator ≠ none) (decision : node.raw.isDecision = true)
    (sides : children.map Node.path = if node.raw.children.length = 2 then [node.path ++ ["then"]]
      else [node.path ++ ["then"], node.path ++ ["else"]]) :
    node.Shaped children := by
  constructor <;> simp [kind, plain, named, decision, sides]

theorem of_operation (kind : node.kind = .operator) (plain : node.leafKind = none)
    (named : node.operator ≠ none) (settled : node.raw.isDecision = false)
    (operands : children.map Node.raw =
      node.raw.children.filter (fun operand => !operand.isSimple)) :
    node.Shaped children := by
  constructor <;> simp [kind, plain, named, settled, operands]

theorem of_branch (side : Bool) {above : List String}
    (kind : node.kind = if side then .trueBranch else .falseBranch)
    (path : node.path = above ++ Sketch.sideStep side)
    (leaf : (node.raw.isPrimitive = true ∧ node.leafKind = some .literal ∧ node.operator = none) ∨
      (node.raw.isList = true ∧ node.leafKind = some .arrayLiteral ∧ node.operator = none) ∨
      (node.raw.isVariable = true ∧ node.leafKind = some .variable ∧ node.operator ≠ none)) :
    node.Shaped [] := by
  rcases leaf with ⟨raw, leafKind, unnamed⟩ | ⟨raw, leafKind, unnamed⟩ | ⟨raw, leafKind, named⟩ <;>
    cases side <;> constructor <;> simp_all [Sketch.sideStep]

end Node.Shaped

namespace Sketch

theorem leafOutcome?_forms {value : Rule} {leafKind : NodeKind} {caption : Caption}
    (found : leafOutcome? value = some (leafKind, caption)) :
    (value.isPrimitive = true ∧ leafKind = .literal ∧ value.operator? = none) ∨
      (value.isList = true ∧ leafKind = .arrayLiteral ∧ value.operator? = none) ∨
      (value.isVariable = true ∧ leafKind = .variable ∧ value.operator? ≠ none) := by
  cases value with
  | null | bool | number | string | emptyObject =>
      cases found
      exact .inl ⟨rfl, rfl, rfl⟩
  | list items =>
      cases found
      exact .inr (.inl ⟨rfl, rfl, rfl⟩)
  | apply operator operands keys =>
      simp only [leafOutcome?] at found
      split at found
      · rename_i reference
        cases found
        exact .inr (.inr ⟨reference, rfl, Option.some_ne_none _⟩)
      · cases found
  | applyOne operator operand keys =>
      simp only [leafOutcome?] at found
      split at found
      · rename_i reference
        cases found
        exact .inr (.inr ⟨reference, rfl, Option.some_ne_none _⟩)
      · cases found

theorem planOperands_raws (level : Nat) (operator : String) (index : Nat) (operands : List Rule) :
    (planOperands Rule.maxDepth level operator index operands).map (fun child => child.value.raw) =
      operands.filter (fun operand => !operand.isSimple) := by
  induction operands generalizing index with
  | nil => rfl
  | cons operand rest restIH =>
      rw [planOperands]
      cases simple : operand.isSimple <;> simp [simple, plan_raw, restIH]

theorem planItems_raws (level index : Nat) (items : List Rule) :
    (planItems Rule.maxDepth level index items).map (fun child => child.value.raw) = items := by
  have spots := congrArg (List.map Prod.snd) (planItems_spots level index items)
  simpa [spot, Function.comp_def] using spots

theorem single_raws (level : Nat) (step : List String) (operand : Rule) :
    (if operand.isSimple then [] else [plan Rule.maxDepth level step operand]).map
        (fun child => child.value.raw) =
      [operand].filter (fun operand => !operand.isSimple) := by
  cases simple : operand.isSimple <;> simp [simple, plan_raw]

theorem planElse_paths (above : List String) (level : Nat) (operator : String)
    (rest : List Rule) :
    (planElse Rule.maxDepth level operator rest).map (fun child => above ++ child.value.step) =
      if rest.length = 0 then [] else [above ++ ["else"]] := by
  cases rest with
  | nil => rfl
  | cons value rest =>
      cases rest with
      | nil =>
          have root := outcome_spot false (plan_spot level ["else"] value)
          exact congrArg (fun spot => [above ++ spot.1]) root
      | cons next rest =>
          rw [planElse]
          split <;> rfl

theorem sides_paths (above : List String) (level : Nat) (operator : String)
    (condition value : Rule) (rest : List Rule) :
    (outcome true ["then"] value (fun _ => plan Rule.maxDepth level ["then"] value) ::
        planElse Rule.maxDepth level operator rest).map (fun child => above ++ child.value.step) =
      if (condition :: value :: rest).length = 2 then [above ++ ["then"]]
      else [above ++ ["then"], above ++ ["else"]] := by
  have yes := congrArg (fun spot => above ++ spot.1)
    (outcome_spot true (plan_spot level ["then"] value))
  rw [List.map_cons, planElse_paths]
  cases rest with
  | nil => exact congrArg (fun path => [path]) yes
  | cons next rest => exact congrArg (fun path => [path, above ++ ["else"]]) yes

theorem map_eq_of_forall₂ {α β γ : Type} {related : α → β → Prop} {f : α → γ} {g : β → γ}
    {left : List α} {right : List β} (pairs : List.Forall₂ related left right)
    (same : ∀ first second, related first second → g second = f first) :
    right.map g = left.map f := by
  rw [← List.forall₂_eq_eq_eq, List.forall₂_map_left_iff, List.forall₂_map_right_iff]
  exact pairs.flip.imp fun second first related => same first second related

variable {node : Node} {parts : List Node} {path : List String} {level : Nat}
  {sketch : Sketch Caption} {children : List (Tree (Sketch Caption))}

theorem Drawn.shaped (drawn : Drawn level sketch children) (settled : sketch.Settled path node)
    (below : List.Forall₂ (fun child part => child.value.Settled node.path part) children parts) :
    node.Shaped parts := by
  have raws : parts.map Node.raw = children.map (fun child => child.value.raw) :=
    map_eq_of_forall₂ below fun _ _ settled => settled.raw
  have paths : parts.map Node.path = children.map (fun child => node.path ++ child.value.step) :=
    map_eq_of_forall₂ below fun _ _ settled => settled.path
  have kinds : parts.map (fun part => (part.kind, part.raw)) =
      children.map (fun child => (child.value.kind, child.value.raw)) :=
    map_eq_of_forall₂ below fun _ _ settled => Prod.ext settled.kind settled.raw
  obtain ⟨kind, raw, operator, leafKind, steps, -⟩ := settled
  cases drawn with
  | primitive | defaultLeaf =>
      cases below
      exact .of_literal kind leafKind operator
  | array step items =>
      refine .of_array kind leafKind operator ?_
      rw [raws, planItems_raws, raw]
      rfl
  | reference step reference named alone =>
      cases below
      refine .of_reference kind leafKind (by simp [operator, variableNode]) (raw ▸ reference) ?_
      rw [raw]
      simp [variableNode, alone]
  | referenceOr step first value rest keys reference =>
      refine .of_reference kind leafKind (by simp [operator, variableNode]) ?_ ?_
      · rw [raw]
        exact (isVariable_iff rfl).mpr reference
      · rw [kinds, raw]
        rfl
  | decision step condition value rest keys conditional =>
      refine .of_decision kind leafKind (by simp [operator, Sketch.decision]) ?_ ?_
      · rw [raw]
        exact Rule.isDecision_apply.mpr conditional
      · rw [paths, sides_paths node.path _ _ condition, raw]
        rfl
  | @malformed step _ operands keys conditional few =>
      refine .of_operation kind leafKind (by simp [operator, Sketch.malformed]) ?_ ?_
      · rw [raw]
        rcases operands with _ | ⟨only, _ | ⟨next, rest⟩⟩
        case nil | cons.nil => rfl
        case cons.cons => exact absurd few (by simp)
      · rw [raws, planOperands_raws, raw]
        rfl
  | malformedOne step operand keys conditional =>
      refine .of_operation kind leafKind (by simp [operator, Sketch.malformed]) (raw ▸ rfl) ?_
      rw [raws, raw]
      exact single_raws ..
  | operation step operands keys plain steady =>
      refine .of_operation kind leafKind (by simp [operator, Sketch.operation]) ?_ ?_
      · rw [raw]
        exact Rule.settled_of_not_conditional (mt Rule.isConditional_apply.mp steady)
      · rw [raws, planOperands_raws, raw]
        rfl
  | operationOne step operand keys plain steady =>
      refine .of_operation kind leafKind (by simp [operator, Sketch.operation]) (raw ▸ rfl) ?_
      rw [raws, raw]
      exact single_raws ..
  | branchLeaf side found =>
      cases below
      refine .of_branch side kind steps ?_
      rw [raw, leafKind, operator]
      simpa [Sketch.branchLeaf] using leafOutcome?_forms found
  | cutLeaf =>
      cases below
      exact .of_operation kind leafKind (by simp [operator, Sketch.cutNode, Sketch.operation])
        (raw ▸ rfl) (raw ▸ rfl)

end Sketch

namespace NodeTree

/-- Every node of every built tree is like its kind asks for. -/
theorem build_shaped (place : Place) (rule : Rule) (cache : LabelCache) :
    ∀ part ∈ ((build place rule) cache).1.subtrees,
      part.value.Shaped (part.children.map Tree.value) := by
  intro part member
  obtain ⟨level, sketch, children, path, drawn, settled, below⟩ :=
    build_drawn place rule cache member
  exact drawn.shaped settled (List.forall₂_map_right_iff.mpr below)

/-- A decision with three operands has both of its sides below it. -/
theorem build_shaped_of_sides :
    let rule : Rule := .apply "if" [.bool true, .string "yes", .list [.null]] []
    let tree := ofRule rule
    tree ∈ tree.subtrees ∧ tree.value.Shaped (tree.children.map Tree.value) ∧
      tree.children.map (fun child => (child.value.kind, child.value.leafKind, child.value.path)) =
        [(.trueBranch, some .literal, ["then"]), (.falseBranch, some .arrayLiteral, ["else"])] := by
  intro rule tree
  have root : tree ∈ tree.subtrees := Tree.self_mem_subtrees tree
  exact ⟨root, build_shaped Place.root rule _ tree root, by rfl⟩

end NodeTree

end RuleChart
