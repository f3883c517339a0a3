import RuleChart.Proofs.Label.Characters
import RuleChart.Proofs.Rule.Limit
import RuleChart.Proofs.Tree.Captions
import RuleChart.Proofs.Tree.Outline
import RuleChart.Proofs.Tree.Pairs

namespace RuleChart

namespace Rule

theorem Unbroken.of_child {rule child : Rule} (unbroken : rule.Unbroken)
    (plain : rule.isVariable = false) (member : child ∈ rule.children) : child.Unbroken := by
  cases rule with
  | null | bool | number | string | emptyObject => cases member
  | list items => exact unbroken.of_list member
  | apply operator operands keys =>
      have other : Family.ofName operator ≠ .variable := by
        simpa [isVariable, family?, operator?] using plain
      rw [Unbroken, shownTexts_apply other] at unbroken
      exact fun text shown => unbroken text
        (List.mem_cons_of_mem _ (mem_shownTextsAll.mpr ⟨child, member, shown⟩))
  | applyOne operator operand keys =>
      have other : Family.ofName operator ≠ .variable := by
        simpa [isVariable, family?, operator?] using plain
      rw [Unbroken, shownTexts_applyOne other] at unbroken
      obtain rfl := List.mem_singleton.mp member
      exact fun text shown => unbroken text (List.mem_cons_of_mem _ shown)

theorem Unbroken.of_step {rule part : Rule} (unbroken : rule.Unbroken)
    (plain : rule.isVariable = false) {step : List String}
    (entered : (step, part) ∈ rule.steps) : part.Unbroken := by
  rcases part_of_step entered with
    inside | ⟨operator, condition, value, rest, keys, rfl, conditional, rfl⟩
  · exact unbroken.of_child plain inside
  · have other : Family.ofName operator ≠ .variable := by simp [conditional]
    simp only [Unbroken, shownTexts_apply other, shownTextsAll, List.mem_cons,
      List.mem_append] at unbroken ⊢
    exact fun text shown => unbroken text (shown.imp_right fun later => .inr (.inr later))

mutual

/-- A cut adds no texts but the mark that it leaves. -/
theorem Unbroken.cut (room : Nat) {rule : Rule} (unbroken : rule.Unbroken) :
    (rule.cut room).Unbroken := by
  cases rule with
  | null | bool | number | string | emptyObject => exact unbroken
  | list items =>
      rw [Rule.cut]
      split
      · decide
      · exact unbroken_cutAll (room - 1) unbroken
  | apply operator operands keys =>
      rw [Rule.cut]
      split
      · decide
      by_cases reference : Family.ofName operator = .variable
      · cases operands with
        | nil => simp [Unbroken, cutAll, shownTexts, reference]
        | cons path rest =>
            have inside := Unbroken.cut (room - 1)
              (unbroken.of_path (by simpa [isVariable, family?, operator?] using reference) rfl)
            simpa [Unbroken, cutAll, shownTexts, reference] using inside
      · rw [Unbroken, shownTexts_apply reference, List.forall_mem_cons] at unbroken ⊢
        exact ⟨unbroken.1, unbroken_cutAll (room - 1) unbroken.2⟩
  | applyOne operator operand keys =>
      rw [Rule.cut]
      split
      · decide
      by_cases reference : Family.ofName operator = .variable
      · have inside := Unbroken.cut (room - 1)
          (unbroken.of_path (by simpa [isVariable, family?, operator?] using reference) rfl)
        simpa [Unbroken, shownTexts, reference] using inside
      · rw [Unbroken, shownTexts_applyOne reference, List.forall_mem_cons] at unbroken ⊢
        exact ⟨unbroken.1, Unbroken.cut (room - 1) unbroken.2⟩

theorem unbroken_cutAll (room : Nat) {rules : List Rule}
    (unbroken : ∀ text ∈ shownTextsAll rules, '\n' ∉ text.toList) :
    ∀ text ∈ shownTextsAll (cutAll room rules), '\n' ∉ text.toList := by
  cases rules with
  | nil => exact unbroken
  | cons rule rest =>
      rw [shownTextsAll, List.forall_mem_append] at unbroken
      rw [cutAll, shownTextsAll, List.forall_mem_append]
      exact ⟨Unbroken.cut room unbroken.1, unbroken_cutAll room unbroken.2⟩

end

theorem Unbroken.limitDepth (limit : Int) {rule : Rule} (unbroken : rule.Unbroken) :
    (rule.limitDepth limit).Unbroken := by
  rw [limitDepth_eq_cut]
  exact unbroken.cut _

end Rule

namespace Caption

/-- The caption asks for labels without line feeds, and with such labels it has none itself. -/
def Unbroken (caption : Caption) : Prop :=
  caption.Labels (fun label => '\n' ∉ label.toList) ∧
    ∀ text, caption.Shows (fun label => '\n' ∉ label.toList) text → '\n' ∉ text.toList

theorem Unbroken.fixed {text : String} (clean : '\n' ∉ text.toList) : (fixed text).Unbroken :=
  ⟨trivial, fun _ shown => shown ▸ clean⟩

/-- The texts in a default have their line feeds escaped. -/
theorem Unbroken.default (value : Rule) :
    (Caption.fixed ("default: " ++ value.toJson.compact)).Unbroken :=
  .fixed (by simp [Json.compact, Json.newline_not_mem_compact])

theorem Unbroken.labelled {rule : Rule} (unbroken : rule.Unbroken) :
    (labelled rule).Unbroken :=
  ⟨Rule.newline_not_mem_labelAt false 0 unbroken, fun _ shown => shown⟩

theorem newline_not_mem_referenceText {path : String} (clean : '\n' ∉ path.toList) :
    '\n' ∉ (Sketch.referenceText path).toList := by
  unfold Sketch.referenceText
  split
  · decide
  · simpa using clean

theorem Unbroken.variableCaption {rule : Rule} (reference : rule.isVariable = true)
    (unbroken : rule.Unbroken) : (Sketch.variableCaption rule.children).Unbroken := by
  cases written : rule.children with
  | nil => exact .fixed (by decide)
  | cons path rest =>
      have named := unbroken.of_path reference written
      rw [Sketch.variableCaption]
      split
      · rename_i text found
        exact .fixed (newline_not_mem_referenceText (Rule.newline_not_mem_writtenPath named found))
      · refine ⟨Rule.newline_not_mem_labelAt true 0 named, ?_⟩
        rintro text ⟨label, clean, rfl⟩
        exact newline_not_mem_referenceText clean

theorem Unbroken.leafOutcome {value : Rule} {leafKind : NodeKind} {caption : Caption}
    (found : Sketch.leafOutcome? value = some (leafKind, caption)) (unbroken : value.Unbroken) :
    caption.Unbroken := by
  unfold Sketch.leafOutcome? at found
  split at found
  · cases found
    exact .fixed (Rule.newline_not_mem_itemsSummary _)
  · split at found
    · rename_i reference
      cases found
      exact .variableCaption reference unbroken
    · cases found
  · split at found
    · rename_i reference
      cases found
      exact .variableCaption reference unbroken
    · cases found
  · cases found
    exact .labelled unbroken

end Caption

namespace Sketch

variable {level : Nat} {sketch : Sketch Caption} {children : List (Tree (Sketch Caption))}

/-- Of the texts of a default nothing is shown but through its JSON, which has no line feed. -/
def Unbroken (sketch : Sketch Caption) : Prop :=
  sketch.raw.Unbroken ∨ ∃ operator value, sketch = Sketch.defaultLeaf operator value

theorem not_isVariable {rule : Rule} {operator : String} (named : rule.operator? = some operator)
    (other : Family.ofName operator ≠ .variable) : rule.isVariable = false :=
  Bool.eq_false_iff.mpr (mt (isVariable_iff named).mp other)

theorem Drawn.children_of_literal (drawn : Drawn level sketch children)
    (literal : sketch.kind = .literal) : children = [] := by
  cases drawn with
  | primitive | reference | defaultLeaf | branchLeaf | cutLeaf => rfl
  | _ => cases literal

theorem Drawn.unbroken_of_child (drawn : Drawn level sketch children)
    (unbroken : sketch.Unbroken) {child : Tree (Sketch Caption)} (member : child ∈ children) :
    child.value.Unbroken := by
  rcases unbroken with unbroken | ⟨operator, value, rfl⟩
  · have part (plain : sketch.raw.isVariable = false) : child.value.Unbroken := by
      rcases drawn.addressed.parts _ (List.mem_map_of_mem member) with entered | ⟨cut, -, -⟩
      · rw [Tree.value_map] at entered
        exact .inl (unbroken.of_step plain entered)
      · have raw := congrArg (fun tree => tree.value.2) cut
        rw [Tree.value_map] at raw
        change child.value.raw = Rule.truncated at raw
        refine .inl ?_
        rw [raw]
        decide
    cases drawn with
    | primitive | reference | defaultLeaf | branchLeaf | cutLeaf => cases member
    | array => exact part rfl
    | referenceOr =>
        obtain rfl := List.mem_singleton.mp member
        exact .inr ⟨_, _, rfl⟩
    | decision step condition value rest keys conditional
    | malformed step keys conditional few | malformedOne step operand keys conditional =>
        exact part (not_isVariable rfl (by simp [conditional]))
    | operation step operands keys plain steady | operationOne step operand keys plain steady =>
        exact part (not_isVariable rfl plain)
  · rw [drawn.children_of_literal rfl] at member
    cases member

theorem Drawn.caption_unbroken (drawn : Drawn level sketch children)
    (unbroken : sketch.Unbroken) : sketch.caption.Unbroken := by
  rcases unbroken with unbroken | ⟨operator, value, rfl⟩
  · cases drawn with
    | primitive | operation | operationOne | cutLeaf => exact .labelled unbroken
    | array => exact .fixed (Rule.newline_not_mem_itemsSummary _)
    | reference step reference => exact .variableCaption reference unbroken
    | referenceOr step path value rest keys reference =>
        exact .variableCaption ((isVariable_iff rfl).mpr reference) unbroken
    | defaultLeaf value => exact .default value
    | @decision step operator condition value rest keys conditional =>
        have other : Family.ofName operator ≠ .variable := by simp [conditional]
        exact .labelled (unbroken.of_child (not_isVariable rfl other) List.mem_cons_self)
    | malformed | malformedOne => exact .fixed (by decide)
    | branchLeaf side found => exact .leafOutcome found unbroken
  · exact .default value

theorem plan_captions_unbroken {rule : Rule} (unbroken : rule.Unbroken) :
    ∀ sketch ∈ (ofRule rule).preorder, sketch.caption.Unbroken := by
  intro sketch member
  have root : (ofRule rule).value.Unbroken := by
    refine .inl ?_
    rw [ofRule_raw]
    exact unbroken.limitDepth _
  obtain ⟨clean, level, children, drawn⟩ := (ofRule_drawn rule).inherit
    (fun _ _ _ drawn clean _ below => drawn.unbroken_of_child clean below) root sketch member
  exact drawn.caption_unbroken clean

end Sketch

namespace NodeTree

theorem labels_unbroken (place : Place) {rule : Rule} (unbroken : rule.Unbroken)
    {cache : LabelCache} (holds : cache.Holds (fun _ label => '\n' ∉ label.toList)) :
    ∀ node ∈ (build place rule cache).1.preorder, '\n' ∉ node.label.toList := by
  have clean := Sketch.plan_captions_unbroken unbroken
  obtain ⟨sketched, built, shown⟩ : ∃ sketched : Tree (Sketch String),
      (build place rule cache).1 =
          settle place.ids 0 place.parentId place.depth place.path sketched ∧
        sketched.map (fun sketch => '\n' ∈ sketch.caption.toList) =
          (Sketch.ofRule rule).map (fun _ => False) :=
    build_seen place holds (fun sketch member => (clean sketch member).1)
      (fun sketch member text shows => eq_false ((clean sketch member).2 text shows))
  have labels : (build place rule cache).1.map (fun node => '\n' ∈ node.label.toList) =
      (Sketch.ofRule rule).map (fun _ => False) := by
    rw [built, ← shown]
    exact settle_map (fun _ _ _ _ _ => rfl) _ _ _ _ _ _
  have texts := congrArg Tree.preorder labels
  rw [Tree.preorder_map, Tree.preorder_map] at texts
  intro node member broken
  have listed := List.mem_map_of_mem (f := fun node : Node => '\n' ∈ node.label.toList) member
  rw [texts] at listed
  obtain ⟨sketch, -, clean⟩ := List.mem_map.mp listed
  exact clean ▸ broken

/-- The entry of a node in the outline of a tree that stands at the root. -/
def entry (node : Node) : String :=
  String.join (List.replicate node.depth.toNat "  ") ++ "[" ++ node.kind.name ++ "] " ++ node.label

theorem newlines_entry (node : Node) :
    (entry node).toList.count '\n' = node.label.toList.count '\n' := by
  have kind : '\n' ∉ node.kind.name.toList := by cases node.kind <;> decide
  simp [entry, List.count_eq_zero_of_not_mem, kind]

/-- The lines of an outline are those of its entries, one after the other, and there is one more of
them for every line feed in a label.  So each node has a line of its own just when no label that is
listed has a line feed, and none has if the texts of the rule have none. -/
theorem outline_lines (rule : Rule) (limit : Nat) :
    let shown := (ofRule rule).preorder.filter (fun node => decide (node.depth ≤ (limit : Int)))
    let lines := Text.lines (outline (some limit) (ofRule rule))
    lines = shown.flatMap (fun node => Text.lines (entry node)) ∧
      lines.length = shown.length + (shown.map (fun node => node.label.toList.count '\n')).sum ∧
      (lines = shown.map entry ↔ ∀ node ∈ shown, '\n' ∉ node.label.toList) ∧
      (rule.Unbroken → lines = shown.map entry) := by
  intro shown lines
  have depth : (ofRule rule).value.depth = 0 :=
    (depth_of_build_get? (Trail.here (ofRule rule)).get? :)
  have entries : outline (some limit) (ofRule rule) = "\n".intercalate (shown.map entry) := by
    have stepped : (ofRule rule).Stepped := build_stepped _ rule _
    rw [outline, stepped.outlineEntries_eq, depth]
    simp only [listed, shown, outlineEntry_eq, Option.mem_some, forall_eq', Int.sub_zero]
    rfl
  have root : (ofRule rule).value ∈ shown := by
    refine List.mem_filter.mpr ⟨Tree.value_mem_preorder _, ?_⟩
    simp [depth]
  have nonempty : shown.map entry ≠ [] := by
    simpa using List.ne_nil_of_mem root
  have split : lines = shown.flatMap (fun node => Text.lines (entry node)) := by
    simp only [lines, entries, Text.lines_intercalate_newline nonempty, List.flatMap_map]
  have length : lines.length =
      shown.length + (shown.map (fun node => node.label.toList.count '\n')).sum := by
    rw [split, List.length_flatMap]
    simp only [Text.length_lines, newlines_entry]
    rw [List.sum_map_add]
    simp [Nat.add_comm]
  have exact : lines = shown.map entry ↔ ∀ node ∈ shown, '\n' ∉ node.label.toList := by
    constructor
    · intro same node member
      have none : (shown.map (fun node => node.label.toList.count '\n')).sum = 0 := by
        have known := congrArg List.length same
        rw [List.length_map, length] at known
        omega
      exact List.count_eq_zero.mp
        (List.sum_eq_zero_iff_forall_eq_nat.mp none _ (List.mem_map_of_mem member))
    · intro clean
      rw [split, List.map_eq_flatMap]
      refine List.flatMap_congr fun node member => Text.lines_unbroken ?_
      rw [← List.count_eq_zero, newlines_entry]
      exact List.count_eq_zero.mpr (clean node member)
  refine ⟨split, length, exact, fun unbroken => exact.mpr fun node member => ?_⟩
  exact labels_unbroken Place.root unbroken (Recency.empty_holds _ _) node
    (List.mem_of_mem_filter member)

/-- A list at the root and its items.  What is below them is left out. -/
theorem outline_lines_of_list :
    let rule : Rule :=
      .list [.string "a", .apply "+" [.list [.null], .applyOne "var" (.string "b") []] []]
    rule.Unbroken ∧ Text.lines (outline (some 1) (ofRule rule)) =
      ["[array_literal] [2 items]", "  [literal] \"a\"",
        "  [operator] [1 items] + $b"] := by
  intro rule
  have unbroken : rule.Unbroken := by decide +kernel
  exact ⟨unbroken, ((outline_lines rule 1).2.2.2 unbroken).trans (by decide +kernel)⟩

/-- The only node of this rule takes two lines. -/
theorem outline_lines_of_line_feed :
    let tree := ofRule (.string "a\nb")
    (tree.preorder.filter (fun node => node.depth ≤ 0)).length = 1 ∧
      Text.lines (outline (some 0) tree) = ["[literal] \"a", "b\""] := by
  intro tree
  rw [Text.lines_eq_splitOn]
  decide +kernel

end NodeTree

end RuleChart
