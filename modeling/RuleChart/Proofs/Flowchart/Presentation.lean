import Mathlib.Data.List.Forall2
import RuleChart.Proofs.Flowchart.Lines
import RuleChart.Proofs.Flowchart.Lossless

namespace RuleChart.Flowchart

/-- The lines before the first blank one. -/
def headLines (theme : Option Theme) (direction : FlowDirection) : List String :=
  (theme.map themeLine).toList ++ ["flowchart " ++ direction.name]

/-- The lines between the head and the boxes, the same in every document. -/
def stylingLines : List String :=
  "  %% Styling" ::
    Style.all.map (fun style => "  classDef " ++ style.name ++ " " ++ style.colors) ++ [""]

/-- A box without its label. -/
def Declared.outline (declared : Declared) : Nat × Shape × Option Style :=
  (declared.number, declared.shape, declared.style)

theorem blank_not_mem_headLines (theme : Option Theme) (direction : FlowDirection) :
    "" ∉ headLines theme direction := by
  have filled (text rest : String) (shown : text ≠ "") : "" ≠ text ++ rest :=
    fun empty => shown (String.append_eq_empty_iff.mp empty.symm).1
  intro member
  rcases List.mem_append.mp member with inTheme | inDirection
  · obtain ⟨chosen, -, blank⟩ : ∃ chosen, theme = some chosen ∧ themeLine chosen = "" := by
      simpa using inTheme
    cases chosen <;> exact absurd blank (by decide)
  · exact filled "flowchart " direction.name (by decide) (List.mem_singleton.mp inDirection)

theorem lines_document (options : FlowchartOptions) (rule : Rule) :
    Text.lines (document options rule) =
      headLines options.theme options.direction ++
        "" :: (stylingLines ++ (graph options rule).lines) := by
  rw [lines_document_eq_graph]
  simp [headerLines, headLines, stylingLines]

section

variable {options other : FlowchartOptions}

theorem edges_eq_of_values (same : options.includeValues = other.includeValues) (rule : Rule) :
    (graph options rule).edges = (graph other rule).edges := by
  change connections ((ofRule options.includeValues rule).numbered 1) = _
  rw [same]
  rfl

theorem outlines_eq_of_values (same : options.includeValues = other.includeValues) (rule : Rule) :
    (graph options rule).boxes.map Declared.outline =
      (graph other rule).boxes.map Declared.outline := by
  rw [boxes_graph, boxes_graph, same, List.map_map, List.map_map]
  rfl

theorem labels_cut (same : options.includeValues = other.includeValues)
    (within : options.maxLabelLength ≤ other.maxLabelLength) (rule : Rule) :
    List.Forall₂ (fun shorter longer => shorter.label.toList <+: longer.label.toList)
      (graph options rule).boxes (graph other rule).boxes := by
  rw [boxes_graph, boxes_graph, same, List.forall₂_map_left_iff, List.forall₂_map_right_iff,
    List.forall₂_same]
  intro entry _
  exact escapeLabel_mono (Int.le_of_lt options.maxLabelLength_pos) within entry.2.text

theorem graph_eq_of_limit (same : options.includeValues = other.includeValues)
    (limit : options.maxLabelLength = other.maxLabelLength) (rule : Rule) :
    graph options rule = graph other rule := by
  rw [graph, graph, same, limit]

end

/-- Documents that draw the items of lists alike have the same edges and the same boxes, and their
labels begin alike.  The direction and the theme decide nothing behind the head, and a decision
tree is the document with another direction in its head. -/
theorem presentation_keeps_graph {options other : FlowchartOptions}
    (same : options.includeValues = other.includeValues) (rule : Rule) :
    ((graph options rule).edges = (graph other rule).edges ∧
        (graph options rule).boxes.map Declared.outline =
          (graph other rule).boxes.map Declared.outline ∧
        (options.maxLabelLength ≤ other.maxLabelLength →
          List.Forall₂ (fun shorter longer => shorter.label.toList <+: longer.label.toList)
            (graph options rule).boxes (graph other rule).boxes) ∧
        (options.maxLabelLength = other.maxLabelLength → graph options rule = graph other rule)) ∧
      Text.lines (document options rule) =
        headLines options.theme options.direction ++
          "" :: (stylingLines ++ (graph options rule).lines) ∧
      Text.lines (document other rule) =
        headLines other.theme other.direction ++
          "" :: (stylingLines ++ (graph other rule).lines) ∧
      Text.lines (decisionTree options rule) =
        headLines options.theme .td ++ "" :: (stylingLines ++ (graph options rule).lines) ∧
      ∀ theme direction, "" ∉ headLines theme direction := by
  refine ⟨⟨edges_eq_of_values same rule, outlines_eq_of_values same rule,
    fun within => labels_cut same within rule, fun limit => graph_eq_of_limit same limit rule⟩,
    lines_document options rule, lines_document other rule, ?_, blank_not_mem_headLines⟩
  have downwards : graph options.downwards rule = graph options rule :=
    graph_eq_of_limit rfl rfl rule
  rw [decisionTree, lines_document, downwards]
  rfl

/-- A label that is cut before a `<`, and after it. -/
theorem presentation_keeps_graph_of_cut_code :
    let short : FlowchartOptions :=
      { FlowchartOptions.standard with
        direction := .lr
        theme := some .dark
        maxLabelLength := 2
        maxLabelLength_pos := by decide }
    let long : FlowchartOptions :=
      { FlowchartOptions.standard with maxLabelLength := 3, maxLabelLength_pos := by decide }
    let rule : Rule := .apply "if"
      [.apply "<" [.apply "var" [.string "a"] [], .number (.int 7)] [], .list [.null]] []
    (short.includeValues = long.includeValues ∧ short.maxLabelLength ≤ long.maxLabelLength) ∧
      (graph short rule).boxes.map Declared.label = ["a ", "[n"] ∧
      (graph long rule).boxes.map Declared.label = ["a #lt;", "[nu"] ∧
      (graph short rule).edges = (graph long rule).edges ∧
      List.Forall₂ (fun shorter longer => shorter.label.toList <+: longer.label.toList)
        (graph short rule).boxes (graph long rule).boxes ∧
      graph short.downwards rule = graph short rule := by
  intro short long rule
  have same : short.includeValues = long.includeValues := rfl
  have within : short.maxLabelLength ≤ long.maxLabelLength := by decide
  have turned : short.downwards.includeValues = short.includeValues := rfl
  have kept := (presentation_keeps_graph same rule).1
  exact ⟨⟨same, within⟩, by decide +kernel, by decide +kernel, kept.1, kept.2.2.1 within,
    (presentation_keeps_graph turned rule).1.2.2.2 rfl⟩

end RuleChart.Flowchart
