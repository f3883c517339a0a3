import RuleChart.Proofs.Flowchart.Escape
import RuleChart.Proofs.Flowchart.Graph
import RuleChart.Proofs.Text.Split

namespace RuleChart.Flowchart

/-- Lines that declare boxes: one line for a box, and one more right behind it if the box has a
style. -/
inductive BoxBlock : List String → Prop where
  | done : BoxBlock []
  | plain (number : Nat) (shape : Shape) {label : String} {rest : List String}
      (safe : Safe label.toList) (restBlock : BoxBlock rest) :
      BoxBlock (("    n" ++ toString number ++ shape.opening ++ "\"" ++ label ++ "\"" ++
        shape.closing) :: rest)
  | styled (number : Nat) (shape : Shape) {label : String} (style : Style) {rest : List String}
      (safe : Safe label.toList) (restBlock : BoxBlock rest) :
      BoxBlock (("    n" ++ toString number ++ shape.opening ++ "\"" ++ label ++ "\"" ++
        shape.closing) :: ("    class n" ++ toString number ++ " " ++ style.name) :: rest)

inductive EdgeText : String → Prop where
  | plain (source target : Nat) :
      EdgeText ("    n" ++ toString source ++ " --> n" ++ toString target)
  | yes (source target : Nat) :
      EdgeText ("    n" ++ toString source ++ " -->|\"✓ Yes\"| n" ++ toString target)
  | no (source target : Nat) :
      EdgeText ("    n" ++ toString source ++ " -->|\"✗ No\"| n" ++ toString target)

theorem indented_boxId (number : Nat) : "    " ++ boxId number = "    n" ++ toString number := by
  rw [boxId, ← String.append_assoc]
  rfl

theorem connectionLine_text (edge : Connection) : EdgeText (connectionLine edge) := by
  obtain ⟨source, target, link⟩ := edge
  unfold connectionLine
  rw [indented_boxId, boxId, ← String.append_assoc]
  cases link with
  | plain =>
      have text := EdgeText.plain source target
      rwa [show " --> n" = " --> " ++ "n" from rfl, ← String.append_assoc] at text
  | yes =>
      have text := EdgeText.yes source target
      rwa [show " -->|\"✓ Yes\"| n" = " -->|\"" ++ "✓ Yes" ++ "\"| " ++ "n" from rfl,
        ← String.append_assoc] at text
  | no =>
      have text := EdgeText.no source target
      rwa [show " -->|\"✗ No\"| n" = " -->|\"" ++ "✗ No" ++ "\"| " ++ "n" from rfl,
        ← String.append_assoc] at text

theorem styleLine_text (number : Nat) (style : Style) :
    styleLine number style = "    class n" ++ toString number ++ " " ++ style.name := by
  rw [styleLine, boxId, ← String.append_assoc]
  rfl

theorem boxBlock_lines {boxes : List Declared}
    (safe : ∀ declared ∈ boxes, Safe declared.label.toList) :
    BoxBlock (boxes.flatMap Declared.lines) := by
  induction boxes with
  | nil => exact .done
  | cons declared rest restIH =>
      have restBlock := restIH (fun other member => safe other (List.mem_cons_of_mem _ member))
      have own := safe declared List.mem_cons_self
      obtain ⟨number, shape, label, style⟩ := declared
      rw [List.flatMap_cons, Declared.lines, indented_boxId]
      cases style with
      | none => exact .plain number shape own restBlock
      | some style =>
          dsimp only
          rw [styleLine_text]
          exact .styled number shape style own restBlock

theorem BoxBlock.unbroken {block : List String} (wellFormed : BoxBlock block) :
    ∀ line ∈ block, '\n' ∉ line.toList := by
  have opening : ∀ shape : Shape, '\n' ∉ shape.opening.toList := by
    intro shape
    cases shape <;> decide
  have closing : ∀ shape : Shape, '\n' ∉ shape.closing.toList := by
    intro shape
    cases shape <;> decide
  have name : ∀ style : Style, '\n' ∉ style.name.toList := by
    intro style
    cases style <;> decide
  induction wellFormed with
  | done => exact nofun
  | plain number shape safe restBlock restIH =>
      intro line member
      rcases List.mem_cons.mp member with rfl | later
      · simp [Text.newline_not_mem_digits, opening, closing, safe.newline_not_mem]
      · exact restIH line later
  | styled number shape style safe restBlock restIH =>
      intro line member
      rcases List.mem_cons.mp member with rfl | later
      · simp [Text.newline_not_mem_digits, opening, closing, safe.newline_not_mem]
      rcases List.mem_cons.mp later with rfl | later
      · simp [Text.newline_not_mem_digits, name]
      · exact restIH line later

theorem EdgeText.unbroken {line : String} (wellFormed : EdgeText line) : '\n' ∉ line.toList := by
  cases wellFormed <;> simp [Text.newline_not_mem_digits]

theorem headerLines_unbroken (options : FlowchartOptions) :
    ∀ line ∈ headerLines options, '\n' ∉ line.toList := by
  have direction : ∀ direction : FlowDirection, '\n' ∉ ("flowchart " ++ direction.name).toList := by
    intro direction
    cases direction <;> decide
  have theme : ∀ theme : Theme, '\n' ∉ (themeLine theme).toList := by
    intro theme
    cases theme <;> decide
  have fixed : ∀ line ∈ "" :: "  %% Styling" ::
      Style.all.map (fun style => "  classDef " ++ style.name ++ " " ++ style.colors) ++ [""],
      '\n' ∉ line.toList := by
    simp [Style.all, Style.name, Style.colors]
  have parts : headerLines options =
      (options.theme.map themeLine).toList ++ ("flowchart " ++ options.direction.name) ::
        ("" :: "  %% Styling" ::
          Style.all.map (fun style => "  classDef " ++ style.name ++ " " ++ style.colors) ++
          [""]) := by
    simp [headerLines]
  intro line member
  rw [parts, List.mem_append, List.mem_cons] at member
  rcases member with inTheme | rfl | inFixed
  · obtain ⟨chosen, _, rfl⟩ : ∃ chosen, options.theme = some chosen ∧ themeLine chosen = line := by
      simpa using inTheme
    exact theme chosen
  · exact direction options.direction
  · exact fixed line inFixed

theorem boxBlock_graph (options : FlowchartOptions) (rule : Rule) :
    BoxBlock ((graph options rule).boxes.flatMap Declared.lines) := by
  apply boxBlock_lines
  intro declared member
  obtain ⟨entry, _, rfl⟩ := List.mem_map.mp member
  exact escapeLabel_safe options.maxLabelLength entry.2.box.text

theorem edgeText_graph (options : FlowchartOptions) (rule : Rule) :
    ∀ line ∈ (graph options rule).edges.map connectionLine, EdgeText line := by
  intro line member
  obtain ⟨edge, _, rfl⟩ := List.mem_map.mp member
  exact connectionLine_text edge

theorem lines_document_eq_graph (options : FlowchartOptions) (rule : Rule) :
    Text.lines (document options rule) = headerLines options ++ (graph options rule).lines := by
  rw [document_eq_graph, Text.lines_intercalate]
  · simp [Graph.lines]
  · intro line member
    simp only [Graph.lines, List.mem_append, List.mem_cons] at member
    rcases member with inHeader | inBoxes | rfl | inEdges
    · exact headerLines_unbroken options line inHeader
    · exact (boxBlock_graph options rule).unbroken line inBoxes
    · simp
    · exact (edgeText_graph options rule line inEdges).unbroken

/-- No text of a rule breaks a document: its lines are the header, the declarations of the
boxes, a blank line and the edges, and every label in them is safe. -/
theorem document_lines (options : FlowchartOptions) (rule : Rule) :
    Text.lines (document options rule) =
        (options.theme.map themeLine).toList ++
          ["flowchart " ++ options.direction.name, "", "  %% Styling",
            "  classDef condition " ++ Style.condition.colors,
            "  classDef result " ++ Style.result.colors,
            "  classDef variable " ++ Style.variable.colors,
            "  classDef operator " ++ Style.operator.colors, ""] ++
          (graph options rule).boxes.flatMap Declared.lines ++
          "" :: (graph options rule).edges.map connectionLine ∧
      BoxBlock ((graph options rule).boxes.flatMap Declared.lines) ∧
      ∀ line ∈ (graph options rule).edges.map connectionLine, EdgeText line := by
  refine ⟨?_, boxBlock_graph options rule, edgeText_graph options rule⟩
  rw [lines_document_eq_graph]
  simp [headerLines, Graph.lines, Style.all, Style.name]

end RuleChart.Flowchart
