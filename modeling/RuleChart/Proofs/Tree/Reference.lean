import RuleChart.Proofs.Label.Limit
import RuleChart.Proofs.Rule.Limit
import RuleChart.Proofs.Tree.Sharing

namespace RuleChart

/-! The two texts of a variable: its label, and the label of its node.

They are the same but for the current item where the path is written out in the rule.  A computed
path is marked as a reference on the node only, so there the texts are never the same.  To see this
the marks that a label begins with are counted: a label deeper inside another one never has more of
them.
-/

namespace Label

/-- With how many marks of a reference a text begins. -/
def marks (text : String) : Nat := (text.toList.takeWhile (· = '$')).length

theorem marks_append {front back : String} (unmarked : back.toList.head? ≠ some '$') :
    marks (front ++ back) = marks front := by
  have stops : back.toList.takeWhile (· = '$') = [] := by
    cases chars : back.toList with
    | nil => rfl
    | cons c rest =>
        rw [chars] at unmarked
        simp at unmarked
        simp [unmarked]
  rw [marks, String.toList_append, List.takeWhile_append, stops, List.append_nil]
  split
  · rename_i whole
    exact whole.symm
  · rfl

theorem marks_of_unmarked {text : String} (unmarked : text.toList.head? ≠ some '$') :
    marks text = 0 := by
  have start : marks ("" ++ text) = marks "" := marks_append unmarked
  rwa [String.empty_append] at start

theorem marks_mark (text : String) : marks ("$" ++ text) = marks text + 1 := by
  simp [marks]

theorem marked_ne {other : String} (unmarked : other.toList.head? ≠ some '$') (text : String) :
    "$" ++ text ≠ other := by
  intro same
  have marked := marks_mark text
  rw [same, marks_of_unmarked unmarked] at marked
  omega

theorem marks_intercalate {separator : String} (blank : separator.toList.head? = some ' ')
    (first : String) (rest : List String) :
    marks (separator.intercalate (first :: rest)) = marks first := by
  cases rest with
  | nil => simp
  | cons second rest =>
      rw [String.intercalate_cons_cons, String.append_assoc]
      apply marks_append
      simp [List.head?_append, blank]

end Label

namespace Rule

open Label (marks marks_append marks_of_unmarked marks_intercalate)

theorem marks_labelAt_list (compact : Bool) (depth : Nat) (items : List Rule) :
    marks ((list items).labelAt compact depth) = 0 := by
  apply marks_of_unmarked
  unfold labelAt
  split
  · decide
  · dsimp only
    split <;> simp [Label.itemsSummary]

theorem marks_labelAt_apply_le (compact : Bool) {depth : Nat}
    (shallow : ¬ Label.maxDepth < depth + 1) (operator : String) {operands : List Rule}
    (keys : List String)
    (inside : ∀ operand ∈ operands, marks (operand.labelAt true (depth + 2)) ≤
      marks (operand.labelAt true (depth + 1))) :
    marks ((apply operator operands keys).labelAt compact (depth + 1)) ≤
      marks ((apply operator operands keys).labelAt compact depth) := by
  have above : ¬ Label.maxDepth < depth := by omega
  match operands with
  | [] =>
      cases family : Family.ofName operator <;> simp [labelAt, shallow, above, family]
  | first :: rest =>
      have own := inside first List.mem_cons_self
      cases family : Family.ofName operator with
      | «variable» =>
          simp only [labelAt, if_neg shallow, if_neg above, family]
          split
          · exact Nat.le_refl _
          · exact own
      | conjunction | disjunction | arithmetic =>
          simp only [labelAt, if_neg shallow, if_neg above, family]
          rw [marks_intercalate (by simp), marks_intercalate (by simp)]
          exact own
      | comparison =>
          cases rest with
          | nil => simp [labelAt, shallow, above, family]
          | cons second rest =>
              simp only [labelAt, if_neg shallow, if_neg above, family, String.append_assoc]
              rw [marks_append (by simp), marks_append (by simp)]
              exact own
      | membership =>
          cases rest with
          | nil => simp [labelAt, shallow, above, family]
          | cons second rest =>
              rw [labelAt_membership compact shallow family,
                labelAt_membership compact above family, String.append_assoc, String.append_assoc]
              rw [marks_append (by simp), marks_append (by simp)]
              exact own
      | negation | truth =>
          simp only [labelAt, if_neg shallow, if_neg above, family]
          rw [marks_of_unmarked (by simp)]
          exact Nat.zero_le _
      | _ => simp [labelAt, shallow, above, family]

/-- One level deeper, a label begins with no more marks: what is left out there has none. -/
theorem marks_labelAt_succ_le (compact : Bool) (depth : Nat) (rule : Rule) :
    marks (rule.labelAt compact (depth + 1)) ≤ marks (rule.labelAt compact depth) := by
  induction rule using children_induction generalizing compact depth with
  | step rule childIH =>
      by_cases shallow : ¬ Label.maxDepth < depth + 1
      case neg =>
        rw [labelAt_deep compact (Classical.not_not.mp shallow), marks_of_unmarked (by decide)]
        exact Nat.zero_le _
      have above : ¬ Label.maxDepth < depth := by omega
      cases rule with
      | null | number | string | emptyObject =>
          simp only [labelAt, if_neg shallow, if_neg above, Nat.le_refl]
      | bool value =>
          cases value <;> simp only [labelAt, if_neg shallow, if_neg above, Nat.le_refl]
      | list items => simp only [marks_labelAt_list, Nat.le_refl]
      | apply operator operands keys =>
          exact marks_labelAt_apply_le compact shallow operator keys
            fun operand member => childIH operand member true (depth + 1)
      | applyOne operator operand keys =>
          have own := childIH operand List.mem_cons_self true (depth + 1)
          cases family : Family.ofName operator with
          | «variable» =>
              simp only [labelAt, if_neg shallow, if_neg above, family]
              split
              · exact Nat.le_refl _
              · exact own
          | negation | truth =>
              simp only [labelAt, if_neg shallow, if_neg above, family]
              rw [marks_of_unmarked (by simp)]
              exact Nat.zero_le _
          | _ => simp [labelAt, shallow, above, family]

theorem mark_labelAt_ne (compact : Bool) (depth : Nat) (rule : Rule) :
    "$" ++ rule.labelAt compact depth ≠ rule.labelAt compact (depth + 1) := by
  intro same
  have marked := Label.marks_mark (rule.labelAt compact depth)
  have fewer := marks_labelAt_succ_le compact depth rule
  rw [same] at marked
  omega

/-- What a variable names: a path that is written out in the rule, or one that is computed. -/
inductive Target where
  | written (path : String)
  | computed (path : Rule)

/-- A variable without operands names the current item, and so does an empty path. -/
def target (rule : Rule) : Target :=
  match rule.children with
  | [] => .written ""
  | path :: _ =>
      match Label.writtenPath? path with
      | some written => .written written
      | none => .computed path

/-- The text `shown` on the node of a variable, and its `label`.  They agree, up to the name of the
current item, exactly if the path is written out. -/
structure ShownAs (rule : Rule) (shown label : String) : Prop where
  written : ∀ path, rule.target = .written path →
    shown = (if path = "" then "(current item)" else "$" ++ path) ∧
      label = (if path = "" then "(item)" else "$" ++ path)
  computed : ∀ path, rule.target = .computed path →
    shown = "$" ++ path.label true ∧ label = path.labelAt true 1
  agree : shown = (if label = "(item)" then "(current item)" else label) ↔
    ∃ path, rule.target = .written path

theorem label_of_isVariable (compact : Bool) {rule : Rule} (reference : rule.isVariable = true) :
    rule.label compact =
      match rule.target with
      | .written path => Label.referenceLabel path
      | .computed path => path.labelAt true 1 := by
  cases rule with
  | null | bool | number | string | emptyObject | list => cases reference
  | apply operator operands keys =>
      have family : Family.ofName operator = .variable :=
        (Sketch.isVariable_iff rfl).mp reference
      cases operands with
      | nil => simp [label, labelAt, family, target, children, Label.maxDepth, Label.referenceLabel]
      | cons path rest =>
          simp only [label, labelAt, family, target, children]
          cases Label.writtenPath? path <;> rfl
  | applyOne operator operand keys =>
      have family : Family.ofName operator = .variable :=
        (Sketch.isVariable_iff rfl).mp reference
      simp only [label, labelAt, family, target, children]
      cases Label.writtenPath? operand <;> rfl

theorem variableCaption_text (rule : Rule) :
    (Sketch.variableCaption rule.children).plainText =
      match rule.target with
      | .written path => Sketch.referenceText path
      | .computed path => "$" ++ path.label true := by
  unfold Sketch.variableCaption target
  cases rule.children with
  | nil => rfl
  | cons path rest =>
      dsimp only
      cases Label.writtenPath? path with
      | some written => rfl
      | none => exact if_neg (labelAt_ne_empty true 0 path)

theorem shownAs_of_isVariable (compact : Bool) {rule : Rule} (reference : rule.isVariable = true) :
    rule.ShownAs (Sketch.variableCaption rule.children).plainText (rule.label compact) := by
  have marked (text : String) : "$" ++ text ≠ "(item)" := Label.marked_ne (by decide) text
  rw [label_of_isVariable compact reference, variableCaption_text]
  cases named : rule.target with
  | written path =>
      have apart (other : Rule) : rule.target ≠ .computed other := by simp [named]
      refine ⟨?_, fun other computed => absurd computed (apart other), ?_⟩
      · intro other same
        obtain rfl := Target.written.inj (named.symm.trans same)
        exact ⟨rfl, rfl⟩
      · refine iff_of_true ?_ ⟨path, named⟩
        by_cases empty : path = ""
        · simp [Sketch.referenceText, Label.referenceLabel, Sketch.currentItem, Label.currentItem,
            empty]
        · simp [Sketch.referenceText, Label.referenceLabel, empty, marked]
  | computed path =>
      have apart (other : String) : rule.target ≠ .written other := by simp [named]
      refine ⟨fun other written => absurd written (apart other), ?_, ?_⟩
      · intro other same
        obtain rfl := Target.computed.inj (named.symm.trans same)
        exact ⟨rfl, rfl⟩
      · refine iff_of_false ?_ (not_exists.mpr apart)
        dsimp only
        split
        · exact Label.marked_ne (by decide) _
        · exact mark_labelAt_ne true 0 path

theorem isVariable_cut (room : Nat) (rule : Rule) :
    (rule.cut (room + 1)).isVariable = rule.isVariable := by
  cases rule <;> rfl

end Rule

theorem Caption.calls_unique {caption : Caption} {first second : Rule × Bool}
    (firstCalled : first ∈ caption.calls) (secondCalled : second ∈ caption.calls) :
    first = second := by
  cases caption with
  | fixed text => cases firstCalled
  | labelled rule | reference path =>
      exact (List.mem_singleton.mp firstCalled).trans (List.mem_singleton.mp secondCalled).symm

namespace Sketch

theorem variableCaption_cut {room : Nat} (enough : Label.maxDepth + 2 ≤ room) (rule : Rule) :
    (variableCaption (rule.cut (room + 1)).children).plainText =
      (variableCaption rule.children).plainText := by
  rw [Rule.children_cut]
  unfold variableCaption
  cases rule.children with
  | nil => rfl
  | cons path rest =>
      simp only [List.map_cons, Rule.writtenPath?_cut]
      cases Label.writtenPath? path with
      | some written => rfl
      | none => exact congrArg referenceText (Rule.labelAt_cut true (by omega) path)

theorem leafOutcome?_variable {value : Rule} {caption : Caption}
    (found : leafOutcome? value = some (.variable, caption)) :
    value.isVariable = true ∧ caption = variableCaption value.children := by
  unfold leafOutcome? at found
  split at found
  · cases found
  · split at found
    · rename_i reference
      cases found
      exact ⟨reference, rfl⟩
    · cases found
  · split at found
    · rename_i reference
      cases found
      exact ⟨reference, rfl⟩
    · cases found
  · cases found

/-- Nodes of variables, and leaves that would be such nodes elsewhere, have one caption. -/
theorem Drawn.variable {level : Nat} {sketch : Sketch Caption}
    {children : List (Tree (Sketch Caption))} (drawn : Drawn level sketch children)
    (reference : sketch.kind = .variable ∨ sketch.leafKind = some .variable) :
    sketch.raw.isVariable = true ∧ sketch.caption = variableCaption sketch.raw.children := by
  cases drawn with
  | primitive | array | defaultLeaf | decision | malformed | malformedOne | operation
  | operationOne | cutLeaf =>
      rcases reference with kind | leafKind
      · cases kind
      · cases leafKind
  | reference step isVariable => exact ⟨isVariable, rfl⟩
  | referenceOr step path value rest keys named => exact ⟨(isVariable_iff rfl).mpr named, rfl⟩
  | branchLeaf side found =>
      rcases reference with kind | leafKind
      · cases side <;> cases kind
      · obtain rfl := Option.some.inj leafKind
        exact leafOutcome?_variable found

theorem plan_of_isVariable (level : Nat) (step : List String) {rule : Rule}
    (reference : rule.isVariable = true) :
    ∃ operator, ∃ default : Option Rule, plan Rule.maxDepth level step rule =
      .node (variableNode step operator rule)
        (default.toList.map fun value => .node (defaultLeaf operator value) []) := by
  cases rule with
  | null | bool | number | string | emptyObject | list => cases reference
  | apply operator operands keys =>
      have family : Family.ofName operator = .variable := (isVariable_iff rfl).mp reference
      match operands with
      | _ :: value :: _ => exact ⟨operator, some value, by simp only [plan, family]; rfl⟩
      | [] | [_] => exact ⟨operator, none, by simp only [plan, family]; rfl⟩
  | applyOne operator operand keys =>
      have family : Family.ofName operator = .variable := (isVariable_iff rfl).mp reference
      exact ⟨operator, none, by simp only [plan, family]; rfl⟩

/-- The tree of a variable asks for one label at most. -/
theorem calls_of_isVariable {rule : Rule}
    (reference : (rule.limitDepth Rule.maxDepth).isVariable = true) {first second : Rule × Bool}
    (firstCalled : first ∈ calls rule) (secondCalled : second ∈ calls rule) : first = second := by
  obtain ⟨operator, default, planned⟩ := plan_of_isVariable 0 [] reference
  have only (call : Rule × Bool) (called : call ∈ calls rule) :
      call ∈ (variableCaption (rule.limitDepth Rule.maxDepth).children).calls := by
    rw [calls, ofRule, planned] at called
    cases default with
    | none => simpa [Tree.preorder, Tree.preorderAll, variableNode] using called
    | some value =>
        simpa [Tree.preorder, Tree.preorderAll, variableNode, defaultLeaf, literal, Caption.calls]
          using called
  exact Caption.calls_unique (only first firstCalled) (only second secondCalled)

end Sketch

namespace NodeTree

theorem limitDepth_variable {rule : Rule} (reference : rule.isVariable = true) :
    (rule.limitDepth Rule.maxDepth).isVariable = true := by
  rw [Rule.limitDepth_eq_cut]
  exact (Rule.isVariable_cut 63 rule).trans reference

theorem buildFresh_variable (place : Place) {rule : Rule} (reference : rule.isVariable = true) :
    buildFresh place rule = labelled place rule := by
  have agree : ∀ first ∈ Sketch.calls rule, ∀ second ∈ Sketch.calls rule,
      LabelCache.Agree first second := by
    intro first firstCalled second secondCalled
    obtain rfl :=
      Sketch.calls_of_isVariable (limitDepth_variable reference) firstCalled secondCalled
    exact fun _ => rfl
  exact (build_labelled agree (List.Subset.refl _) place (Recency.empty_holds _ _)).1

theorem labelled_variable (place : Place) {rule : Rule} (reference : rule.isVariable = true) :
    (labelled place rule).value.label = (Sketch.variableCaption rule.children).plainText := by
  obtain ⟨operator, default, planned⟩ := Sketch.plan_of_isVariable 0 []
    (limitDepth_variable reference)
  rw [labelled, Sketch.ofRule, planned, Rule.limitDepth_eq_cut]
  have enough : Label.maxDepth + 2 ≤ 63 := by decide
  exact Sketch.variableCaption_cut enough rule

theorem mem_labelled {place : Place} {rule : Rule} {node : Node}
    (member : node ∈ (labelled place rule).preorder) :
    ∃ sketch ∈ (Sketch.ofRule rule).preorder,
      node.kind = sketch.kind ∧ node.leafKind = sketch.leafKind ∧ node.raw = sketch.raw ∧
        node.label = sketch.caption.plainText := by
  let seen (node : Node) := (node.kind, node.leafKind, node.raw, node.label)
  let known (sketch : Sketch String) :=
    (sketch.kind, sketch.leafKind, sketch.raw, sketch.caption)
  have carries (sketch : Sketch String) (id : String) (parentId : Option String) (depth : Int)
      (path : List String) :
      seen (Node.ofSketch sketch id parentId depth path) = known sketch := rfl
  have same : (labelled place rule).preorder.map seen =
      (Sketch.ofRule rule).preorder.map (known ∘ Sketch.labelled) := by
    rw [← Tree.preorder_map, labelled, settle_map carries,
      Tree.preorder_map, Tree.preorder_map, List.map_map]
  have listed : seen node ∈ (labelled place rule).preorder.map seen := List.mem_map_of_mem member
  rw [same] at listed
  obtain ⟨sketch, planned, found⟩ := List.mem_map.mp listed
  simp only [known, seen, Function.comp_apply, Sketch.labelled, Prod.mk.injEq] at found
  exact ⟨sketch, planned, found.1.symm, found.2.1.symm, found.2.2.1.symm, found.2.2.2.symm⟩

/-- A variable has one text as a label and one on its node, and they agree up to the name of the
current item exactly if its path is written out in the rule.  A computed path is marked as a
reference on the node only.  The same is true of the variables inside of a rule whose numbers do not
clash. -/
theorem variable_shown_as (compact : Bool) (rule : Rule) :
    (rule.isVariable = true → ∀ place,
      rule.ShownAs (buildFresh place rule).value.label (rule.label compact)) ∧
    (¬ rule.Clash rule → ∀ place, ∀ node ∈ (buildFresh place rule).preorder,
      node.kind = .variable ∨ node.leafKind = some .variable →
        node.raw.isVariable = true ∧ node.raw.ShownAs node.label (node.raw.label compact)) := by
  constructor
  · intro reference place
    rw [buildFresh_variable place reference, labelled_variable place reference]
    exact Rule.shownAs_of_isVariable compact reference
  · intro apart place node member reference
    rw [buildFresh_eq_labelled apart] at member
    obtain ⟨sketch, planned, kind, leafKind, raw, label⟩ := mem_labelled member
    obtain ⟨address, found⟩ := Tree.mem_preorder_iff.mp planned
    obtain ⟨children, drawn⟩ := (Sketch.ofRule_drawn rule).of_get? found
    rw [kind, leafKind] at reference
    obtain ⟨isVariable, caption⟩ := drawn.variable reference
    rw [raw, label, caption]
    exact ⟨isVariable, Rule.shownAs_of_isVariable compact isVariable⟩

/-- A computed path, alone and as an outcome of a conditional. -/
theorem variable_shown_as_of_computed :
    let computed : Rule := .applyOne "var" (.apply "cat" [.string "a", .string "b"] []) []
    let rule : Rule := .apply "if" [.bool true, computed, .apply "var" [.null, .bool false] []] []
    computed.isVariable = true ∧ ¬ rule.Clash rule ∧
      computed.ShownAs (buildFresh Place.root computed).value.label (computed.label false) ∧
      ((buildFresh Place.root rule).preorder.map fun node => (node.leafKind, node.label)) =
        [(none, "true"), (some .variable, "$cat(...)"), (some .variable, "(current item)")] ∧
      ∀ node ∈ (buildFresh Place.root rule).preorder,
        node.kind = .variable ∨ node.leafKind = some .variable →
          node.raw.isVariable = true ∧ node.raw.ShownAs node.label (node.raw.label false) := by
  have clear : ∀ one : Rule, one.numbers = [] → ¬ one.Clash one := by
    rintro one none ⟨number, listed, -⟩
    rw [none] at listed
    cases listed
  intro computed rule
  have apart : ¬ rule.Clash rule := clear rule (by decide)
  exact ⟨by decide, apart, (variable_shown_as false computed).1 (by decide) Place.root,
    by decide +kernel, (variable_shown_as false rule).2 apart Place.root⟩

/-- The node of a computed path is marked as a reference, and the label is not. -/
theorem marked_on_node_only :
    let computed : Rule := .applyOne "var" (.apply "cat" [.string "a", .string "b"] []) []
    computed.isVariable = true ∧ (buildFresh Place.root computed).value.label = "$cat(...)" ∧
      computed.label false = "cat(...)" := by
  decide +kernel

end NodeTree

end RuleChart
