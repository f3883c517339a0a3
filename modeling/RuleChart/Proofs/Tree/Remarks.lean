import RuleChart.Proofs.Label.Malformed
import RuleChart.Proofs.Tree.Captions
import RuleChart.Proofs.Tree.Pairs
import RuleChart.Proofs.Tree.Paths

namespace RuleChart

/-! The remarks on a tree, read off the tree.

Every remark is about a node: one that shows no label because its conditional lacks operands, or a
leaf that stands for the rest of a chain.  The remarks are made in the order in which a walk of the
tree in preorder comes to these nodes, though the remark on a leaf is made by the decision above it
and after all that is below the outcome before.
-/

namespace Node

/-- The remark on a node with the label of a conditional that lacks operands. -/
def malformedRemark (node : Node) : List Remark :=
  if node.label = Sketch.malformedLabel then
    [.malformedNode (node.operator.getD "") node.path node.raw.children.length]
  else []

/-- `node` is the leaf behind the decision `above` where the chain of that decision was cut. -/
def EndsChain (above node : Node) : Prop :=
  above.raw.isChain = true ∧ node.path = above.path ++ ["else"] ∧ node.raw = Rule.truncated

instance (above node : Node) : Decidable (above.EndsChain node) :=
  inferInstanceAs (Decidable (_ ∧ _ ∧ _))

/-- The remark on a node below another one, if a chain was cut there. -/
def cutRemark (above node : Node) : List Remark :=
  if above.EndsChain node then [.nodeChainCut above.path Rule.maxDepth] else []

end Node

/-- The remarks on the nodes of a tree, in preorder. -/
def NodeTree.told (tree : NodeTree) : List Remark :=
  tree.value.malformedRemark ++
    tree.pairs.flatMap (fun pair => pair.1.cutRemark pair.2 ++ pair.2.malformedRemark)

def Caption.isMalformed : Caption → Bool
  | .fixed text => decide (text = Sketch.malformedLabel)
  | _ => false

namespace Sketch

def withCaption {κ μ : Type} (f : κ → μ) (sketch : Sketch κ) : Sketch μ :=
  { sketch with caption := f sketch.caption }

def malformedRemark (path : List String) (sketch : Sketch Bool) : List Remark :=
  if sketch.caption then [.malformedNode (sketch.operator.getD "") path sketch.raw.children.length]
  else []

def cutRemark (path : List String) (above sketch : Sketch Bool) : List Remark :=
  if above.raw.isChain = true ∧ sketch.step = ["else"] ∧ sketch.raw = Rule.truncated then
    [.nodeChainCut path Rule.maxDepth]
  else []

mutual

/-- The remarks on the nodes of a sketch below `path`, in preorder.  Of a caption nothing counts but
whether it is the one of a conditional that lacks operands. -/
def told (path : List String) : Tree (Sketch Bool) → List Remark
  | .node sketch children =>
      sketch.malformedRemark (path ++ sketch.step) ++
        toldBelow (path ++ sketch.step) sketch children

def toldBelow (path : List String) (above : Sketch Bool) : List (Tree (Sketch Bool)) → List Remark
  | [] => []
  | child :: rest =>
      above.cutRemark path child.value ++ told path child ++ toldBelow path above rest

end

end Sketch

namespace NodeTree

/-- What a label has to be for a remark. -/
def saysMalformed (sketch : Sketch String) : Sketch Bool :=
  sketch.withCaption (fun label => decide (label = Sketch.malformedLabel))

theorem cutRemark_ofSketch (above : Node) (sketch : Sketch String) (id : String)
    (parentId : Option String) (depth : Int) (parent : Sketch String)
    (raw : above.raw = parent.raw) :
    above.cutRemark (Node.ofSketch sketch id parentId depth (above.path ++ sketch.step)) =
      (saysMalformed parent).cutRemark above.path (saysMalformed sketch) := by
  have same : above.EndsChain (Node.ofSketch sketch id parentId depth (above.path ++ sketch.step)) ↔
      parent.raw.isChain = true ∧ sketch.step = ["else"] ∧ sketch.raw = Rule.truncated := by
    simp [Node.EndsChain, Node.ofSketch, raw]
  simp only [Node.cutRemark, same]
  rfl

mutual

theorem told_settle (ids : Nat → String) (index : Nat) (parentId : Option String) (depth : Int)
    (path : List String) (tree : Tree (Sketch String)) :
    (settle ids index parentId depth path tree).told =
      Sketch.told path (tree.map saysMalformed) := by
  cases tree with
  | node sketch children =>
      have root : (Node.ofSketch sketch (ids index) parentId depth
          (path ++ sketch.step)).malformedRemark =
            (saysMalformed sketch).malformedRemark (path ++ sketch.step) := by
        by_cases shown : sketch.caption = Sketch.malformedLabel <;>
          simp [Node.malformedRemark, Sketch.malformedRemark, saysMalformed, Sketch.withCaption,
            Node.ofSketch, shown]
      have below := told_settleAll ids (index + 1) (some (ids index)) (depth + 1)
        (Node.ofSketch sketch (ids index) parentId depth (path ++ sketch.step)) sketch rfl children
      rw [settle, told, Tree.value_node, root, Tree.pairs, Tree.map, Sketch.told]
      exact congrArg _ below

theorem told_settleAll (ids : Nat → String) (index : Nat) (parentId : Option String) (depth : Int)
    (above : Node) (sketch : Sketch String) (raw : above.raw = sketch.raw)
    (trees : List (Tree (Sketch String))) :
    (Tree.pairsBelow above (settleAll ids index parentId depth above.path trees)).flatMap
        (fun pair => pair.1.cutRemark pair.2 ++ pair.2.malformedRemark) =
      Sketch.toldBelow above.path (saysMalformed sketch) (Tree.mapAll saysMalformed trees) := by
  cases trees with
  | nil => rfl
  | cons tree rest =>
      have first := told_settle ids index parentId depth above.path tree
      have later := told_settleAll ids (index + tree.size) parentId depth above sketch raw rest
      have cut : above.cutRemark (settle ids index parentId depth above.path tree).value =
          (saysMalformed sketch).cutRemark above.path (tree.map saysMalformed).value := by
        cases tree
        exact cutRemark_ofSketch above _ _ _ _ sketch raw
      rw [settleAll, Tree.pairsBelow, Tree.mapAll, Sketch.toldBelow, ← first, ← later, ← cut, told]
      simp only [List.cons_append, List.flatMap_cons, List.flatMap_append, List.append_assoc]

end

end NodeTree

namespace Sketch

def marksMalformed (sketch : Sketch Caption) : Sketch Bool :=
  sketch.withCaption Caption.isMalformed

theorem isChain_eq_false {operator : String} (other : Family.ofName operator ≠ .conditional)
    (operands : List Rule) (keys : List String) :
    (Rule.apply operator operands keys).isChain = false := by
  unfold Rule.isChain
  split
  · rename_i same
    cases same
    exact decide_eq_false other
  · rfl

theorem itemsSummary_shown (count : Nat) :
    Caption.isMalformed (.fixed (Label.itemsSummary count)) = false :=
  decide_eq_false (Label.itemsSummary_ne_malformed count)

theorem referenceText_ne_malformed (path : String) : referenceText path ≠ malformedLabel := by
  unfold referenceText
  split
  · decide
  · exact ne_malformed_of_mem (c := '$') (by decide) (by simp)

theorem variableCaption_shown (operands : List Rule) :
    (variableCaption operands).isMalformed = false := by
  unfold variableCaption
  split
  · decide
  · split
    · exact decide_eq_false (referenceText_ne_malformed _)
    · rfl

theorem variableNode_shown (step : List String) (operator : String) (rule : Rule) :
    (variableNode step operator rule).caption.isMalformed = false :=
  variableCaption_shown rule.children

theorem defaultLeaf_shown (operator : String) (value : Rule) :
    (defaultLeaf operator value).caption.isMalformed = false := by
  have shown : "default: " ++ value.toJson.compact ≠ malformedLabel :=
    ne_malformed_of_mem (c := ':') (by decide) (by simp)
  exact decide_eq_false shown

theorem leafOutcome?_shown {value : Rule} {leafKind : NodeKind} {caption : Caption}
    (found : leafOutcome? value = some (leafKind, caption)) : caption.isMalformed = false := by
  unfold leafOutcome? at found
  split at found
  · cases found
    exact itemsSummary_shown _
  · split at found
    · cases found
      exact variableCaption_shown _
    · cases found
  · split at found
    · cases found
      exact variableCaption_shown _
    · cases found
  · cases found
    rfl

/-- Of such a node nothing is told, apart from the one above it, but what is lost in it. -/
def TellsItself (sketch : Sketch Caption) : Prop :=
  ∀ above path, (marksMalformed sketch).malformedRemark path =
    sketch.loss.toList.map (Loss.remark above path)

theorem tellsItself_of_shown {sketch : Sketch Caption}
    (shown : sketch.caption.isMalformed = false) (kept : sketch.loss = none) :
    sketch.TellsItself := by
  intro above path
  rw [kept, malformedRemark, if_neg (by simp [marksMalformed, withCaption, shown])]
  rfl

theorem plan_tellsItself (level : Nat) (step : List String) (rule : Rule) :
    (plan Rule.maxDepth level step rule).value.TellsItself := by
  have variableTells (operator : String) (raw : Rule) :
      (variableNode step operator raw).TellsItself :=
    tellsItself_of_shown (variableNode_shown step operator raw) rfl
  have malformedTells (operator : String) (raw : Rule) :
      (malformed step operator raw).TellsItself := fun _ _ => rfl
  have labelledTells (operator : String) (raw condition : Rule) :
      (operation step operator raw).TellsItself ∧
        (decision step operator raw condition).TellsItself :=
    ⟨tellsItself_of_shown rfl rfl, tellsItself_of_shown rfl rfl⟩
  unfold plan
  split
  · exact tellsItself_of_shown (itemsSummary_shown _) rfl
  · split
    · exact variableTells _ _
    · exact variableTells _ _
    · exact (labelledTells _ _ _).2
    · exact malformedTells _ _
    · exact (labelledTells _ _ .null).1
  · split
    · exact variableTells _ _
    · exact malformedTells _ _
    · exact (labelledTells _ _ .null).1
  · exact tellsItself_of_shown rfl rfl

theorem outcome_tellsItself (side : Bool) (step : List String) (value : Rule)
    {inside : Tree (Sketch Caption)} (root : inside.value.TellsItself) :
    (outcome side step value (fun _ => inside)).value.TellsItself := by
  unfold outcome
  split
  · rename_i found
    exact tellsItself_of_shown (leafOutcome?_shown found) rfl
  · exact root

theorem planItems_tellsItself (level index : Nat) (items : List Rule) :
    ∀ child ∈ planItems Rule.maxDepth level index items, child.value.TellsItself := by
  induction items generalizing index with
  | nil => exact fun _ member => nomatch member
  | cons item rest restIH =>
      exact List.forall_mem_cons.mpr ⟨plan_tellsItself level _ item, restIH (index + 1)⟩

theorem planOperands_tellsItself (level : Nat) (operator : String) (index : Nat)
    (operands : List Rule) :
    ∀ child ∈ planOperands Rule.maxDepth level operator index operands,
      child.value.TellsItself := by
  induction operands generalizing index with
  | nil => exact fun _ member => nomatch member
  | cons operand rest restIH =>
      rw [planOperands]
      split
      · exact restIH (index + 1)
      · exact List.forall_mem_cons.mpr ⟨plan_tellsItself level _ operand, restIH (index + 1)⟩

/-- All that is told of `child`, right below `above`, is what is lost in it. -/
def TellsLoss (above child : Sketch Caption) : Prop :=
  ∀ path, (marksMalformed above).cutRemark path (marksMalformed child) ++
    (marksMalformed child).malformedRemark (path ++ child.step) = child.lossRemarks path

theorem TellsItself.below {above child : Sketch Caption} (own : child.TellsItself)
    (whole : above.raw.isChain = true → child.step = ["else"] → child.raw ≠ Rule.truncated) :
    TellsLoss above child := by
  intro path
  have uncut : (marksMalformed above).cutRemark path (marksMalformed child) = [] :=
    if_neg fun cut => whole cut.1 cut.2.1 cut.2.2
  rw [uncut, own path]
  rfl

theorem TellsItself.below_unchained {above child : Sketch Caption} (own : child.TellsItself)
    (unchained : above.raw.isChain = false) : TellsLoss above child :=
  own.below fun chain => by simp [unchained] at chain

theorem planElse_tellsLoss (level : Nat) {operator : String}
    (conditional : Family.ofName operator = .conditional) {above : Sketch Caption}
    {condition value : Rule} {rest : List Rule} {keys : List String}
    (raw : above.raw = .apply operator (condition :: value :: rest) keys) :
    ∀ child ∈ planElse Rule.maxDepth level operator rest, TellsLoss above child.value := by
  intro child member
  match rest with
  | [] => cases member
  | [last] =>
      obtain rfl := List.mem_singleton.mp member
      exact (outcome_tellsItself false _ last (plan_tellsItself _ _ last)).below_unchained
        (by simp [raw, Rule.isChain])
  | next :: outcome :: rest =>
      rw [planElse] at member
      split at member
      · obtain rfl := List.mem_singleton.mp member
        have own : (decision ["else"] operator (.apply operator (next :: outcome :: rest) [])
            next).TellsItself := tellsItself_of_shown rfl rfl
        refine own.below fun _ _ same => ?_
        cases same
      · obtain rfl := List.mem_singleton.mp member
        have chain : above.raw.isChain = true := by simpa [raw, Rule.isChain] using conditional
        intro path
        have cut : (marksMalformed above).cutRemark path (marksMalformed cutNode) =
            [.nodeChainCut path Rule.maxDepth] := if_pos ⟨chain, rfl, rfl⟩
        rw [cutLeaf, Tree.value_node, cut]
        rfl

theorem Drawn.tellsLoss {level : Nat} {sketch : Sketch Caption}
    {children : List (Tree (Sketch Caption))} (drawn : Drawn level sketch children) :
    ∀ child ∈ children, TellsLoss sketch child.value := by
  intro child member
  cases drawn with
  | primitive | reference | defaultLeaf | branchLeaf | cutLeaf => cases member
  | array step items =>
      exact (planItems_tellsItself _ _ _ child member).below_unchained rfl
  | referenceOr step path value rest keys reference =>
      obtain rfl := List.mem_singleton.mp member
      exact (tellsItself_of_shown (defaultLeaf_shown _ value) rfl).below_unchained
        (isChain_eq_false (by simp [reference]) _ keys)
  | @malformed step operator operands keys conditional few =>
      refine (planOperands_tellsItself _ _ _ _ child member).below_unchained ?_
      match operands, few with
      | [], few | [_], few => rfl
  | operation step operands keys plain steady =>
      exact (planOperands_tellsItself _ _ _ _ child member).below_unchained
        (isChain_eq_false steady operands keys)
  | malformedOne step operand keys | operationOne step operand keys =>
      split at member
      · cases member
      · obtain rfl := List.mem_singleton.mp member
        exact (plan_tellsItself _ _ operand).below_unchained rfl
  | decision step condition value rest keys conditional =>
      rcases List.mem_cons.mp member with rfl | otherwise
      · have side := congrArg Prod.fst
          (outcome_spot true (plan_spot (level + 1) ["then"] value))
        refine (outcome_tellsItself true _ value (plan_tellsItself _ _ value)).below ?_
        intro _ other
        have twice : ["then"] = ["else"] := side.symm.trans other
        exact absurd twice (by decide)
      · exact planElse_tellsLoss (level + 1) conditional rfl child otherwise

theorem toldBelow_eq {above : Sketch Caption} {trees : List (Tree (Sketch Caption))}
    (tells : ∀ child ∈ trees, TellsLoss above child.value)
    (deeper : ∀ child ∈ trees, ∀ path,
      toldBelow path (marksMalformed child.value) (Tree.mapAll marksMalformed child.children) =
        lostAll path child.children) (path : List String) :
    toldBelow path (marksMalformed above) (Tree.mapAll marksMalformed trees) =
      lostAll path trees := by
  induction trees with
  | nil => rfl
  | cons tree rest restIH =>
      obtain ⟨own, others⟩ := List.forall_mem_cons.mp tells
      obtain ⟨below, belowOthers⟩ := List.forall_mem_cons.mp deeper
      cases tree with
      | node sketch children =>
          have here : cutRemark path (marksMalformed above) (marksMalformed sketch) ++
              malformedRemark (path ++ sketch.step) (marksMalformed sketch) =
                sketch.lossRemarks path := own path
          have inside : toldBelow (path ++ sketch.step) (marksMalformed sketch)
              (Tree.mapAll marksMalformed children) = lostAll (path ++ sketch.step) children :=
            below (path ++ sketch.step)
          change cutRemark path (marksMalformed above) (marksMalformed sketch) ++
            (malformedRemark (path ++ sketch.step) (marksMalformed sketch) ++
              toldBelow (path ++ sketch.step) (marksMalformed sketch) _) ++ toldBelow path _ _ = _
          rw [inside, restIH others belowOthers, ← List.append_assoc, here]
          rfl

/-- What is told below a node can be read off the rules and captions that stand there. -/
theorem toldBelow_eq_lostAll {level : Nat} {tree : Tree (Sketch Caption)}
    (everywhere : tree.Throughout Drawn level) (path : List String) :
    toldBelow path (marksMalformed tree.value) (Tree.mapAll marksMalformed tree.children) =
      lostAll path tree.children := by
  induction everywhere generalizing path with
  | node here below belowIH => exact toldBelow_eq here.tellsLoss belowIH path

theorem ofRule_told (path : List String) (rule : Rule) :
    told path ((ofRule rule).map marksMalformed) = lost path (ofRule rule) := by
  have own : (ofRule rule).value.TellsItself := plan_tellsItself 0 [] _
  have below := toldBelow_eq_lostAll (ofRule_drawn rule)
  generalize ofRule rule = tree at own below
  cases tree with
  | node sketch children =>
      have here : malformedRemark (path ++ sketch.step) (marksMalformed sketch) =
          sketch.lossRemarks path := own path (path ++ sketch.step)
      rw [lost, ← here]
      exact congrArg _ (below (path ++ sketch.step))

end Sketch

namespace Caption

theorem labels_shown (caption : Caption) : caption.Labels (· ≠ Sketch.malformedLabel) := by
  cases caption with
  | fixed text => trivial
  | labelled rule => exact Rule.labelAt_ne_malformed false 0 rule
  | reference path => exact Rule.labelAt_ne_malformed true 0 path

/-- Only a caption that is written so says that operands are missing. -/
theorem says_iff_isMalformed {caption : Caption} {text : String}
    (shows : caption.Shows (· ≠ Sketch.malformedLabel) text) :
    decide (text = Sketch.malformedLabel) = caption.isMalformed := by
  cases caption with
  | fixed known => exact congrArg (fun text => decide (text = Sketch.malformedLabel)) shows
  | labelled rule => exact decide_eq_false shows
  | reference path =>
      obtain ⟨label, -, rfl⟩ := shows
      exact decide_eq_false (Sketch.referenceText_ne_malformed label)

end Caption

namespace NodeTree

/-- The remarks that the build of a tree makes are those on its nodes, each once and in preorder. -/
theorem told_build (place : Place) (rule : Rule) {cache : LabelCache}
    (holds : cache.Holds (fun _ label => label ≠ Sketch.malformedLabel)) :
    (build place rule cache).1.told =
      Sketch.lost place.path
        (Sketch.ofRule rule) := by
  obtain ⟨sketched, built, shown⟩ : ∃ sketched : Tree (Sketch String),
      (build place rule cache).1 =
          settle place.ids 0 place.parentId place.depth place.path sketched ∧
        sketched.map saysMalformed =
          (Sketch.ofRule rule).map Sketch.marksMalformed :=
    build_seen place holds (fun sketch _ => sketch.caption.labels_shown)
      (fun sketch _ text shows =>
        congrArg (fun marked => { sketch with caption := marked })
          (Caption.says_iff_isMalformed shows))
  rw [built, told_settle, shown, Sketch.ofRule_told]

theorem told_ofRule (rule : Rule) :
    (ofRule rule).told =
      Sketch.lost [] (Sketch.ofRule rule) :=
  told_build Place.root rule (Recency.empty_holds _ _)

/-- Of a tree in which all nodes show what they stand for there is nothing to tell. -/
theorem told_of_plain {tree : NodeTree}
    (labelled : ∀ node ∈ tree.preorder, node.label ≠ Sketch.malformedLabel)
    (uncut : ∀ pair ∈ tree.pairs, ¬ pair.1.EndsChain pair.2) : tree.told = [] := by
  have shown (node : Node) (member : node ∈ tree.preorder) : node.malformedRemark = [] :=
    if_neg (labelled node member)
  have below (pair : Node × Node) (member : pair ∈ tree.pairs) :
      pair.1.cutRemark pair.2 ++ pair.2.malformedRemark = [] := by
    rw [Node.cutRemark, if_neg (uncut pair member),
      shown pair.2 (Tree.mem_preorder_of_mem_pairs tree member).2]
    rfl
  rw [told, shown _ (Tree.value_mem_preorder tree), List.flatMap_eq_nil_iff.mpr below]
  rfl

end NodeTree

end RuleChart
