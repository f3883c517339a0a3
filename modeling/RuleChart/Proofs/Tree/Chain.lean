import RuleChart.Proofs.Rule.Chain
import RuleChart.Proofs.Tree.Address
import RuleChart.Proofs.Tree.Walk

namespace RuleChart

namespace Tree

variable {α α' β β' : Type} {m : Type → Type} [Monad m] [LawfulMonad m]

mutual

/-- A pass that commutes with a change of the values commutes with the same change of all the
values of a tree. -/
theorem traverse_map {f : α → m β} {f' : α' → m β'} {g : α → α'} {h : β → β'}
    (commutes : ∀ value, f' (g value) = h <$> f value) (tree : Tree α) :
    (tree.map g).traverse f' = map h <$> tree.traverse f := by
  cases tree with
  | node value children =>
      simp [map, traverse, traverseAll_mapAll commutes children, commutes]

theorem traverseAll_mapAll {f : α → m β} {f' : α' → m β'} {g : α → α'} {h : β → β'}
    (commutes : ∀ value, f' (g value) = h <$> f value) (trees : List (Tree α)) :
    traverseAll f' (mapAll g trees) = mapAll h <$> traverseAll f trees := by
  cases trees with
  | nil => simp [mapAll, traverseAll]
  | cons tree rest =>
      simp [mapAll, traverseAll, traverse_map commutes tree, traverseAll_mapAll commutes rest]

end

end Tree

/-- All of a sketch but the rule that it stands for. -/
def Sketch.withoutRaw {κ : Type} (sketch : Sketch κ) : Sketch κ := { sketch with raw := .null }

def Node.withoutRaw (node : Node) : Node := { node with raw := .null }

namespace Sketch

open Rule (chain nested operandsOf)

variable {operator : String} {default : Option Rule}

theorem outcome_conditional (side : Bool) (step : List String) {value : Rule}
    (conditional : value.isConditional = true) (inside : Unit → Tree (Sketch Caption)) :
    outcome side step value inside = inside () := by
  have other : value.isVariable = false :=
    Bool.eq_false_iff.mpr fun reference =>
      Rule.not_conditional_of_variable reference conditional
  cases value with
  | apply | applyOne => simp [outcome, leafOutcome?, other]
  | _ => simp [Rule.isConditional, Rule.family?, Rule.operator?] at conditional

theorem plan_decision (conditional : Family.ofName operator = .conditional) (level : Nat)
    (step : List String) (condition value : Rule) (rest : List Rule) (keys : List String) :
    plan Rule.maxDepth level step (.apply operator (condition :: value :: rest) keys) =
      .node (decision step operator (.apply operator (condition :: value :: rest) keys) condition)
        (outcome true ["then"] value (fun _ => plan Rule.maxDepth (level + 1) ["then"] value) ::
          planElse Rule.maxDepth (level + 1) operator rest) := by
  simp only [plan, conditional]

theorem planElse_pair (conditional : Family.ofName operator = .conditional) {level : Nat}
    (room : level < Rule.maxDepth) (condition value : Rule) (rest : List Rule) :
    planElse Rule.maxDepth level operator (condition :: value :: rest) =
      [plan Rule.maxDepth level ["else"] (.apply operator (condition :: value :: rest) [])] := by
  rw [planElse, if_pos room, plan_decision conditional]

/-- The first outcome of a conditional that stands at `level`. -/
def firstOutcome (level : Nat) (pair : Rule × Rule) : Tree (Sketch Caption) :=
  outcome true ["then"] pair.2 (fun _ => plan Rule.maxDepth (level + 1) ["then"] pair.2)

theorem plan_chain (conditional : Family.ofName operator = .conditional) {level : Nat}
    (room : level + 1 < Rule.maxDepth) (step : List String) (first next : Rule × Rule)
    (rest : List (Rule × Rule)) :
    plan Rule.maxDepth level step (chain operator (first :: next :: rest) default) =
      .node (decision step operator (chain operator (first :: next :: rest) default) first.1)
        [firstOutcome level first,
          plan Rule.maxDepth (level + 1) ["else"] (chain operator (next :: rest) default)] := by
  simp only [chain, operandsOf]
  rw [plan_decision conditional, planElse_pair conditional room]
  rfl

theorem plan_nested (conditional : Family.ofName operator = .conditional) (level : Nat)
    (step : List String) (first next : Rule × Rule) (rest : List (Rule × Rule)) :
    plan Rule.maxDepth level step (nested operator first (next :: rest) default) =
      .node (decision step operator (nested operator first (next :: rest) default) first.1)
        [firstOutcome level first,
          plan Rule.maxDepth (level + 1) ["else"] (nested operator next rest default)] := by
  rw [nested, plan_decision conditional, planElse,
    outcome_conditional false ["else"] (Rule.nested_conditional conditional next rest)]
  rfl

theorem plan_withoutRaw (conditional : Family.ofName operator = .conditional) (level : Nat)
    (step : List String) (first : Rule × Rule) (rest : List (Rule × Rule))
    (room : level + rest.length < Rule.maxDepth) :
    (plan Rule.maxDepth level step (chain operator (first :: rest) default)).map withoutRaw =
      (plan Rule.maxDepth level step (nested operator first rest default)).map withoutRaw := by
  induction rest generalizing level step first with
  | nil => rfl
  | cons next rest restIH =>
      simp only [List.length_cons] at room
      have deeper := restIH (level + 1) ["else"] next (by omega)
      rw [plan_chain conditional (by omega), plan_nested conditional]
      simp only [Tree.map, Tree.mapAll, deeper]
      rfl

/-- Along the else sides, the rules are what is left of the pairs, in the one form and in the
other. -/
theorem plan_raw_spine (conditional : Family.ofName operator = .conditional) (level : Nat)
    (step : List String) (first : Rule × Rule) (rest : List (Rule × Rule))
    (room : level + rest.length < Rule.maxDepth) {passed : Nat} (before : passed < rest.length) :
    ∃ pair next left,
      ((plan Rule.maxDepth level step (chain operator (first :: rest) default)).map raw).get?
          (List.replicate passed 1) = some (chain operator (pair :: next :: left) default) ∧
        ((plan Rule.maxDepth level step (nested operator first rest default)).map raw).get?
          (List.replicate passed 1) = some (nested operator pair (next :: left) default) := by
  induction rest generalizing level step first passed with
  | nil => cases before
  | cons next rest restIH =>
      simp only [List.length_cons] at room before
      rw [plan_chain conditional (by omega), plan_nested conditional]
      cases passed with
      | zero => exact ⟨first, next, rest, rfl, rfl⟩
      | succ passed =>
          have deeper := restIH (level + 1) ["else"] next (by omega)
            (Nat.lt_of_succ_lt_succ before)
          simpa [List.replicate_succ, Tree.map, Tree.mapAll, Tree.get?_cons] using deeper

theorem plan_raw_aside (conditional : Family.ofName operator = .conditional) (level : Nat)
    (step : List String) (first : Rule × Rule) (rest : List (Rule × Rule))
    (room : level + rest.length < Rule.maxDepth) {address : List Nat}
    (aside : ∀ passed < rest.length, address ≠ List.replicate passed 1) :
    ((plan Rule.maxDepth level step (chain operator (first :: rest) default)).map raw).get?
        address =
      ((plan Rule.maxDepth level step (nested operator first rest default)).map raw).get?
        address := by
  induction rest generalizing level step first address with
  | nil => rfl
  | cons next rest restIH =>
      simp only [List.length_cons] at room aside
      rw [plan_chain conditional (by omega), plan_nested conditional]
      -- only the way into the else side leads to rules that can differ
      match address with
      | [] => exact absurd rfl (aside 0 (by omega))
      | 0 :: address => simp [Tree.map, Tree.mapAll, Tree.get?_cons]
      | 1 :: address =>
          have below : ∀ passed < rest.length, address ≠ List.replicate passed 1 := by
            rintro passed before rfl
            exact aside (passed + 1) (by omega) List.replicate_succ.symm
          have deeper := restIH (level + 1) ["else"] next (by omega) below
          simpa [Tree.map, Tree.mapAll, Tree.get?_cons] using deeper
      | (index + 2) :: address => simp [Tree.map, Tree.mapAll, Tree.get?_cons]

end Sketch

namespace NodeTree

mutual

theorem settle_withoutRaw (ids : Nat → String) (index : Nat) (parentId : Option String)
    (depth : Int) (path : List String) (tree : Tree (Sketch String)) :
    settle ids index parentId depth path (tree.map Sketch.withoutRaw) =
      (settle ids index parentId depth path tree).map Node.withoutRaw := by
  cases tree with
  | node sketch children =>
      simp only [Tree.map, settle,
        settleAll_withoutRaw ids (index + 1) (some (ids index)) (depth + 1) _ children]
      rfl

theorem settleAll_withoutRaw (ids : Nat → String) (index : Nat) (parentId : Option String)
    (depth : Int) (path : List String) (trees : List (Tree (Sketch String))) :
    settleAll ids index parentId depth path (Tree.mapAll Sketch.withoutRaw trees) =
      Tree.mapAll Node.withoutRaw (settleAll ids index parentId depth path trees) := by
  cases trees with
  | nil => rfl
  | cons tree rest =>
      simp only [Tree.mapAll, settleAll, settle_withoutRaw ids index parentId depth path tree,
        settleAll_withoutRaw ids (index + tree.size) parentId depth path rest, Tree.size_map]

end

theorem build_withoutRaw (place : Place) (rule : Rule) (cache : LabelCache) :
    ((build place rule) cache).1.map Node.withoutRaw =
      settle place.ids 0 place.parentId place.depth place.path
        ((((Sketch.ofRule rule).map Sketch.withoutRaw).traverse
          Sketch.captioned) cache).1 := by
  have commutes (sketch : Sketch Caption) :
      sketch.withoutRaw.captioned = Sketch.withoutRaw <$> sketch.captioned := by
    simp [Sketch.captioned, Sketch.withoutRaw]
  rw [Tree.traverse_map commutes, build_eq]
  exact (settle_withoutRaw ..).symm

/-- A chain of two pairs or more and its nested form have trees of one shape, with the same
nodes but for the rules that the decisions along the else sides stand for. -/
theorem chain_tree_eq_nested {operator : String}
    (conditional : Family.ofName operator = .conditional) (first second : Rule × Rule)
    (rest : List (Rule × Rule)) (default : Option Rule)
    (fits : (Rule.nested operator first (second :: rest) default).fits Rule.maxDepth = true)
    (place : Place) :
    let flat := buildFresh place (Rule.chain operator (first :: second :: rest) default)
    let deep := buildFresh place (Rule.nested operator first (second :: rest) default)
    flat.map Node.withoutRaw = deep.map Node.withoutRaw ∧
      (∀ passed < rest.length + 1, ∃ one other,
        flat.get? (List.replicate passed 1) = some one ∧
          deep.get? (List.replicate passed 1) = some other ∧
          one.raw.isDecision = true ∧ other.raw.isDecision = true ∧ one.raw ≠ other.raw) ∧
      ∀ address, (∀ passed < rest.length + 1, address ≠ List.replicate passed 1) →
        (flat.get? address).map Node.raw = (deep.get? address).map Node.raw := by
  have uncut := Rule.limitDepth_of_fits fits
  have uncutChain := Rule.limitDepth_of_fits (Rule.chain_fits first (second :: rest) fits)
  have room : 0 + (second :: rest).length < Rule.maxDepth := by
    rw [Nat.zero_add]
    exact Rule.length_lt_of_nested_fits first (second :: rest) fits
  have drawn (rule : Rule) (uncut : rule.limitDepth Rule.maxDepth = rule) (address : List Nat) :
      ((buildFresh place rule).get? address).map Node.raw =
        ((Sketch.plan Rule.maxDepth 0 [] rule).map Sketch.raw).get? address := by
    rw [← Tree.get?_map, buildFresh, build_raw, Sketch.ofRule_uncut uncut]
  refine ⟨?same, ?spine, ?aside⟩
  case same =>
    rw [buildFresh, buildFresh, build_withoutRaw, build_withoutRaw,
      Sketch.ofRule_uncut uncut, Sketch.ofRule_uncut uncutChain,
      Sketch.plan_withoutRaw conditional 0 [] first (second :: rest) room]
  case spine =>
    intro passed before
    obtain ⟨pair, next, left, flat, deep⟩ :=
      Sketch.plan_raw_spine conditional 0 [] first (second :: rest) room before
    rw [← drawn _ uncutChain] at flat
    rw [← drawn _ uncut] at deep
    obtain ⟨one, found, same⟩ := Option.map_eq_some_iff.mp flat
    obtain ⟨other, foundOther, sameOther⟩ := Option.map_eq_some_iff.mp deep
    refine ⟨one, other, found, foundOther, ?_, ?_, ?_⟩
    · rw [same]
      exact Rule.isDecision_apply.mpr conditional
    · rw [sameOther]
      exact Rule.isDecision_apply.mpr conditional
    · rw [same, sameOther]
      exact Rule.chain_ne_nested pair next left
  case aside =>
    intro address aside
    rw [drawn _ uncutChain, drawn _ uncut]
    exact Sketch.plan_raw_aside conditional 0 [] first (second :: rest) room aside

theorem chain_tree_eq_nested_of_three :
    let pair (name : String) : Rule × Rule :=
      (.applyOne "var" (.string name) [], .list [.string name])
    let first := pair "a"
    let second := pair "b"
    let rest := [pair "c"]
    let default := some (Rule.string "none of them")
    let place : Place := { Place.root with depth := 7, path := ["rules", "[2]"] }
    let flat := buildFresh place (Rule.chain "?:" (first :: second :: rest) default)
    let deep := buildFresh place (Rule.nested "?:" first (second :: rest) default)
    Family.ofName "?:" = .conditional ∧
      (Rule.nested "?:" first (second :: rest) default).fits Rule.maxDepth = true ∧
      flat.map Node.withoutRaw = deep.map Node.withoutRaw ∧
      (∀ passed < rest.length + 1, ∃ one other,
        flat.get? (List.replicate passed 1) = some one ∧
          deep.get? (List.replicate passed 1) = some other ∧
          one.raw.isDecision = true ∧ other.raw.isDecision = true ∧ one.raw ≠ other.raw) ∧
      ∀ address, (∀ passed < rest.length + 1, address ≠ List.replicate passed 1) →
        (flat.get? address).map Node.raw = (deep.get? address).map Node.raw :=
  ⟨by decide, by decide, chain_tree_eq_nested (by decide) _ _ _ _ (by decide) _⟩

end NodeTree

end RuleChart
