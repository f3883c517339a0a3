import RuleChart.Flowchart.Chart
import RuleChart.Proofs.Rule.Course
import RuleChart.Proofs.Tree.Numbering

namespace RuleChart.Flowchart

/-! What the boxes of a chart stand for.

A box does not tell which rule it draws.  `subjects` is the chart with that rule in the place
of every box; `subjects_box` says that the chart is this tree with the boxes drawn.  The rest
is then said of rules: which links leave a box (`subjects_links`), and what the chart decides
(`subjects_decides`).
-/

/-- The rule that a box draws and the link that leads to the box. -/
structure Subject where
  link : Link
  rule : Rule

namespace Box

/-- The box of a rule that is no outcome. -/
def inner (link : Link) (rule : Rule) : Box :=
  match rule with
  | .list _ => array link
  | .apply operator operands _ =>
      match Family.ofName operator, operands with
      | .variable, operands => variableReference link operands
      | .conditional, condition :: _ :: _ => decision link condition
      | .conditional, _ => malformed link
      | _, _ => operation link operator
  | .applyOne operator operand _ =>
      match Family.ofName operator with
      | .variable => variableReference link [operand]
      | .conditional => malformed link
      | _ => operation link operator
  | primitive => Box.primitive link primitive

/-- The box of an outcome that no decision follows: variables are drawn as such, conditionals
are then malformed, and all else is a result. -/
def ending (link : Link) (value : Rule) : Box :=
  if value.isVariable then
    { variableReference link value.children with style := some .variable }
  else if value.isConditional then malformed link
  else result link value

end Box

def Subject.box (subject : Subject) : Box :=
  match subject.link with
  | .plain => Box.inner .plain subject.rule
  | link => (Box.outcome? link subject.rule).getD (Box.inner link subject.rule)

def outcomeSubject (link : Link) (value : Rule) (inside : Unit → Tree Subject) : Tree Subject :=
  if value.isConditional then inside () else .node ⟨link, value⟩ []

mutual

/-- The subjects of the boxes that `chart` draws. -/
def subjects (values : Bool) (opened : Nat) (link : Link) (rule : Rule) : Tree Subject :=
  match rule with
  | .list items =>
      .node ⟨link, .list items⟩ (if values then subjectsAll values opened items else [])
  | .apply operator operands keys =>
      .node ⟨link, .apply operator operands keys⟩
        (match Family.ofName operator, operands with
          | .variable, _ => []
          | .conditional, _ :: value :: rest =>
              outcomeSubject .yes value (fun _ => subjects values (opened + 1) .yes value) ::
                subjectsElse values (opened + 1) operator rest
          | .conditional, operands => subjectsAll values (opened + 1) operands
          | _, operands => subjectsAll values opened operands)
  | .applyOne operator operand keys =>
      .node ⟨link, .applyOne operator operand keys⟩
        (match Family.ofName operator with
          | .variable => []
          | .conditional => [subjects values (opened + 1) .plain operand]
          | _ => [subjects values opened .plain operand])
  | primitive => .node ⟨link, primitive⟩ []

def subjectsAll (values : Bool) (opened : Nat) : List Rule → List (Tree Subject)
  | [] => []
  | rule :: rest => subjects values opened .plain rule :: subjectsAll values opened rest

def subjectsElse (values : Bool) (opened : Nat) (operator : String) :
    List Rule → List (Tree Subject)
  | [] => []
  | [value] => [outcomeSubject .no value (fun _ => subjects values opened .no value)]
  | condition :: value :: rest =>
      if opened < Rule.maxDepth then
        [.node ⟨.no, .apply operator (condition :: value :: rest) []⟩
          (outcomeSubject .yes value (fun _ => subjects values (opened + 1) .yes value) ::
            subjectsElse values (opened + 1) operator rest)]
      else [.node ⟨.no, Rule.truncated⟩ []]

end

theorem subjects_value (values : Bool) (opened : Nat) (link : Link) (rule : Rule) :
    (subjects values opened link rule).value = ⟨link, rule⟩ := by
  unfold subjects
  split <;> rfl

theorem outcomeSubject_value {link : Link} {value : Rule} {inside : Tree Subject}
    (root : inside.value = ⟨link, value⟩) :
    (outcomeSubject link value (fun _ => inside)).value = ⟨link, value⟩ := by
  unfold outcomeSubject
  split
  · exact root
  · rfl

theorem outcome?_of_conditional {link : Link} {value : Rule}
    (conditional : value.isConditional = true) : Box.outcome? link value = none := by
  simp [Box.outcome?, conditional]

/-- A rule may be drawn as it is when it is no outcome, or an outcome that goes on. -/
theorem box_eq_inner {link : Link} {rule : Rule}
    (drawn : link = .plain ∨ rule.isConditional = true) :
    Subject.box ⟨link, rule⟩ = Box.inner link rule := by
  rcases drawn with rfl | conditional
  · rfl
  · cases link <;> simp [Subject.box, outcome?_of_conditional conditional]

theorem box_eq_outcome {link : Link} {value : Rule} (linked : link ≠ .plain) :
    Subject.box ⟨link, value⟩ =
      (Box.outcome? link value).getD (Box.inner link value) := by
  cases link with
  | plain => exact absurd rfl linked
  | yes | no => rfl

theorem outcomeSubject_box (link : Link) (value : Rule) (linked : link ≠ .plain)
    {inside : Tree Subject} {drawn : Tree Box}
    (shows : value.isConditional = true → inside.map Subject.box = drawn) :
    (outcomeSubject link value (fun _ => inside)).map Subject.box =
      outcome link value (fun _ => drawn) := by
  unfold outcomeSubject outcome
  by_cases conditional : value.isConditional = true
  · rw [if_pos conditional, outcome?_of_conditional conditional]
    exact shows conditional
  · rw [if_neg conditional]
    simp only [Tree.map, Tree.mapAll, box_eq_outcome linked]
    by_cases reference : value.isVariable = true <;>
      simp [Box.outcome?, conditional, reference]

mutual

theorem subjects_box (values : Bool) (opened : Nat) (link : Link) (rule : Rule)
    (drawn : link = .plain ∨ rule.isConditional = true) :
    (subjects values opened link rule).map Subject.box = chart values opened link rule := by
  match rule with
  | .null | .bool _ | .number _ | .string _ | .emptyObject =>
      simp only [subjects, Tree.map, Tree.mapAll, box_eq_inner drawn, chart, Box.inner]
  | .list items =>
      simp only [subjects, Tree.map, box_eq_inner drawn, chart]
      cases values with
      | false => rfl
      | true => simp only [if_true, subjectsAll_box true opened items, Box.inner]
  | .applyOne operator operand keys =>
      simp only [subjects, Tree.map, box_eq_inner drawn, chart, Box.inner]
      cases Family.ofName operator <;>
        simp only [Tree.mapAll, subjects_box values opened .plain operand (.inl rfl),
          subjects_box values (opened + 1) .plain operand (.inl rfl)]
  | .apply operator operands keys =>
      rw [subjects.eq_def, chart.eq_def]
      simp only [Tree.map, box_eq_inner drawn, Box.inner]
      cases family : Family.ofName operator with
      | conditional =>
          match operands with
          | [] | [_] => simp only [subjectsAll_box values (opened + 1)]
          | condition :: value :: rest =>
              have first := outcomeSubject_box .yes value nofun
                (fun conditional => subjects_box values (opened + 1) .yes value (.inr conditional))
              simp only [Tree.mapAll, first, subjectsElse_box values (opened + 1) family rest]
      | _ => simp only [Tree.mapAll, subjectsAll_box values opened operands]

theorem subjectsAll_box (values : Bool) (opened : Nat) (rules : List Rule) :
    Tree.mapAll Subject.box (subjectsAll values opened rules) = chartAll values opened rules := by
  match rules with
  | [] => rfl
  | rule :: rest =>
      simp only [subjectsAll, Tree.mapAll, chartAll,
        subjects_box values opened .plain rule (.inl rfl), subjectsAll_box values opened rest]

theorem subjectsElse_box (values : Bool) (opened : Nat) {operator : String}
    (conditional : Family.ofName operator = .conditional) (operands : List Rule) :
    Tree.mapAll Subject.box (subjectsElse values opened operator operands) =
      chartElse values opened operands := by
  match operands with
  | [] => rfl
  | [value] =>
      have only := outcomeSubject_box .no value nofun
        (fun conditional => subjects_box values opened .no value (.inr conditional))
      simp only [subjectsElse, Tree.mapAll, only, chartElse]
  | condition :: value :: rest =>
      by_cases room : opened < Rule.maxDepth
      · have first := outcomeSubject_box .yes value nofun
          (fun conditional => subjects_box values (opened + 1) .yes value (.inr conditional))
        have own : Subject.box ⟨.no, .apply operator (condition :: value :: rest) []⟩ =
            Box.decision .no condition := by
          rw [box_eq_inner (.inr (Rule.isConditional_apply.mpr conditional))]
          simp only [Box.inner, conditional]
        simp only [subjectsElse, chartElse, if_pos room, Tree.mapAll, Tree.map, first, own,
          subjectsElse_box values (opened + 1) conditional rest]
      · simp only [subjectsElse, chartElse, if_neg room, Tree.mapAll, Tree.map]
        rfl

end

theorem inner_link (link : Link) (rule : Rule) : (Box.inner link rule).link = link := by
  unfold Box.inner
  split
  · rfl
  · split <;> rfl
  · split <;> rfl
  · rfl

theorem box_link (subject : Subject) : subject.box.link = subject.link := by
  obtain ⟨link, rule⟩ := subject
  by_cases linked : link = .plain
  · rw [box_eq_inner (.inl linked), inner_link]
  · rw [box_eq_outcome linked]
    unfold Box.outcome?
    split
    · exact inner_link link rule
    · split <;> rfl

theorem decision_box {operator : String} (conditional : Family.ofName operator = .conditional)
    (link : Link) (condition value : Rule) (rest : List Rule) (keys : List String) :
    Subject.box ⟨link, .apply operator (condition :: value :: rest) keys⟩ =
      Box.decision link condition := by
  rw [box_eq_inner (.inr (Rule.isConditional_apply.mpr conditional))]
  simp only [Box.inner, conditional]

theorem malformed_inner {link : Link} {rule : Rule} (settled : rule.isDecision = false)
    (conditional : rule.isConditional = true) : Box.inner link rule = Box.malformed link := by
  match rule with
  | .apply operator [] keys | .apply operator [_] keys =>
      simp only [Box.inner, Rule.isConditional_apply.mp conditional]
  | .apply operator (_ :: _ :: _) keys =>
      simp [Rule.isDecision, Rule.isConditional_apply.mp conditional] at settled
  | .applyOne operator operand keys =>
      have family : Family.ofName operator = .conditional := by
        simpa [Rule.isConditional, Rule.family?, Rule.operator?] using conditional
      simp only [Box.inner, family]

theorem ending_box {link : Link} {value : Rule} (linked : link ≠ .plain)
    (settled : value.isDecision = false) : Subject.box ⟨link, value⟩ = Box.ending link value := by
  rw [box_eq_outcome linked]
  unfold Box.outcome? Box.ending
  by_cases reference : value.isVariable = true
  · simp [reference, Rule.not_conditional_of_variable reference]
  · by_cases conditional : value.isConditional = true
    · simp [conditional, reference, malformed_inner settled conditional]
    · simp [conditional, reference]

/-- The links out of the box of a rule: a decision leads on by `yes` and, where operands are
left, by `no`; all other boxes lead on by plain links. -/
def LinksOut (rule : Rule) (links : List Link) : Prop :=
  if rule.isDecision then links = if 3 ≤ rule.children.length then [.yes, .no] else [.yes]
  else ∀ link ∈ links, link = .plain

def LinksFit (part : Tree Subject) : Prop :=
  LinksOut part.value.rule (part.children.map (fun child => child.value.link))

theorem subjectsAll_plain {values : Bool} {opened : Nat} {rules : List Rule}
    {child : Tree Subject} (member : child ∈ subjectsAll values opened rules) :
    child.value.link = .plain := by
  induction rules with
  | nil => cases member
  | cons rule rest restIH =>
      rcases List.mem_cons.mp member with rfl | later
      · rw [subjects_value]
      · exact restIH later

theorem subjectsElse_links (values : Bool) (opened : Nat) (operator : String)
    (operands : List Rule) :
    (subjectsElse values opened operator operands).map (fun child => child.value.link) =
      if operands = [] then [] else [.no] := by
  match operands with
  | [] => rfl
  | [value] => simp [subjectsElse, outcomeSubject_value (subjects_value _ _ _ _)]
  | condition :: value :: rest =>
      simp only [subjectsElse]
      split <;> simp

theorem linksFit_decision {operator : String}
    (conditional : Family.ofName operator = .conditional) (values : Bool) (opened : Nat)
    (link : Link) (condition value : Rule) (rest : List Rule) (keys : List String) :
    LinksFit (.node ⟨link, .apply operator (condition :: value :: rest) keys⟩
      (outcomeSubject .yes value (fun _ => subjects values opened .yes value) ::
        subjectsElse values opened operator rest)) := by
  have first := outcomeSubject_value (subjects_value values opened .yes value)
  have later := subjectsElse_links values opened operator rest
  have decision : (Rule.apply operator (condition :: value :: rest) keys).isDecision = true :=
    Rule.isDecision_apply.mpr conditional
  simp only [LinksFit, LinksOut, Tree.value_node, Tree.children_node, Rule.children, decision,
    if_true, List.map_cons, first, later]
  cases rest <;> simp

theorem outcomeSubject_linksFit {link : Link} {value : Rule} {inside : Tree Subject}
    (fits : ∀ part ∈ inside.subtrees, LinksFit part) :
    ∀ part ∈ (outcomeSubject link value (fun _ => inside)).subtrees, LinksFit part := by
  intro part member
  unfold outcomeSubject at member
  split at member
  · exact fits part member
  · rename_i other
    obtain rfl : part = .node ⟨link, value⟩ [] := by
      simpa [Tree.subtrees, Tree.subtreesAll] using member
    simp [LinksFit, LinksOut, Rule.settled_of_not_conditional other]

theorem linksFit_of_settled {subject : Subject} {children : List (Tree Subject)}
    (settled : subject.rule.isDecision = false)
    (plain : ∀ child ∈ children, child.value.link = .plain)
    (below : ∀ part ∈ Tree.subtreesAll children, LinksFit part) :
    ∀ part ∈ (Tree.node subject children).subtrees, LinksFit part := by
  intro part member
  rcases List.mem_cons.mp member with rfl | inside
  · simpa [LinksFit, LinksOut, settled] using plain
  · exact below part inside

theorem linksFit_decision_below {first : Tree Subject} {others : List (Tree Subject)}
    {subject : Subject} (root : LinksFit (.node subject (first :: others)))
    (firstFits : ∀ part ∈ first.subtrees, LinksFit part)
    (othersFit : ∀ part ∈ Tree.subtreesAll others, LinksFit part) :
    ∀ part ∈ (Tree.node subject (first :: others)).subtrees, LinksFit part := by
  intro part member
  rcases List.mem_cons.mp member with rfl | below
  · exact root
  · rcases List.mem_append.mp below with inFirst | inOthers
    · exact firstFits part inFirst
    · exact othersFit part inOthers

mutual

theorem subjects_links (values : Bool) (opened : Nat) (link : Link) (rule : Rule) :
    ∀ part ∈ (subjects values opened link rule).subtrees, LinksFit part := by
  match rule with
  | .null | .bool _ | .number _ | .string _ | .emptyObject =>
      exact linksFit_of_settled rfl (by simp) (by simp [Tree.subtreesAll])
  | .list items =>
      simp only [subjects]
      refine linksFit_of_settled rfl ?_ ?_
      · cases values with
        | false => exact nofun
        | true => exact fun child => subjectsAll_plain
      · cases values with
        | false => exact nofun
        | true => exact subjectsAll_links true opened items
  | .applyOne operator operand keys =>
      have single (depth : Nat) : ∀ part ∈ Tree.subtreesAll [subjects values depth .plain operand],
          LinksFit part := by
        simpa [Tree.subtreesAll] using subjects_links values depth .plain operand
      rw [subjects.eq_def]
      dsimp only
      refine linksFit_of_settled rfl ?_ ?_
      · cases Family.ofName operator <;> simp [subjects_value]
      · cases Family.ofName operator with
        | «variable» => exact nofun
        | conditional => exact single (opened + 1)
        | _ => exact single opened
  | .apply operator (condition :: value :: rest) keys =>
      rw [subjects.eq_def]
      dsimp only
      cases family : Family.ofName operator with
      | conditional =>
          exact linksFit_decision_below
            (linksFit_decision family values (opened + 1) link condition value rest keys)
            (outcomeSubject_linksFit (subjects_links values (opened + 1) .yes value))
            (subjectsElse_linksFit values (opened + 1) family rest)
      | «variable» =>
          exact linksFit_of_settled (by simp [Rule.isDecision, family]) (by simp)
            (by simp [Tree.subtreesAll])
      | _ =>
          exact linksFit_of_settled (by simp [Rule.isDecision, family])
            (fun child => subjectsAll_plain)
            (subjectsAll_links values opened (condition :: value :: rest))
  | .apply operator [] keys | .apply operator [_] keys =>
      rw [subjects.eq_def]
      dsimp only
      refine linksFit_of_settled rfl ?_ ?_
      · cases Family.ofName operator <;> simp [subjectsAll, subjects_value]
      · cases Family.ofName operator with
        | «variable» => exact nofun
        | conditional => exact subjectsAll_links values (opened + 1) _
        | _ => exact subjectsAll_links values opened _

theorem subjectsAll_links (values : Bool) (opened : Nat) (rules : List Rule) :
    ∀ part ∈ Tree.subtreesAll (subjectsAll values opened rules), LinksFit part := by
  intro part member
  match rules with
  | [] => cases member
  | rule :: rest =>
      rcases List.mem_append.mp member with first | later
      · exact subjects_links values opened .plain rule part first
      · exact subjectsAll_links values opened rest part later

theorem subjectsElse_linksFit (values : Bool) (opened : Nat) {operator : String}
    (conditional : Family.ofName operator = .conditional) (operands : List Rule) :
    ∀ part ∈ Tree.subtreesAll (subjectsElse values opened operator operands), LinksFit part := by
  match operands with
  | [] => exact nofun
  | [value] =>
      simpa [subjectsElse, Tree.subtreesAll] using
        outcomeSubject_linksFit (subjects_links values opened .no value)
  | condition :: value :: rest =>
      simp only [subjectsElse]
      split
      · simpa [Tree.subtreesAll] using linksFit_decision_below
          (linksFit_decision conditional values (opened + 1) .no condition value rest [])
          (outcomeSubject_linksFit (subjects_links values (opened + 1) .yes value))
          (subjectsElse_linksFit values (opened + 1) conditional rest)
      · simpa [Tree.subtreesAll] using
          linksFit_of_settled Rule.truncated_settled (by simp) (by simp [Tree.subtreesAll])

end

theorem outcomeSubject_decides {level : Nat} {link : Link} {value : Rule} {inside : Tree Subject}
    (shown : Rule.Decides level value (inside.map Subject.rule)) :
    Rule.Decides level value
      ((outcomeSubject link value (fun _ => inside)).map Subject.rule) := by
  unfold outcomeSubject
  split
  · exact shown
  · rename_i other
    exact .settled (Rule.settled_of_not_conditional other)

mutual

theorem subjects_decides (values : Bool) (opened : Nat) (link : Link) (rule : Rule) :
    Rule.Decides opened rule ((subjects values opened link rule).map Subject.rule) := by
  match rule with
  | .apply operator (condition :: value :: rest) keys =>
      by_cases conditional : Family.ofName operator = .conditional
      · simp only [subjects, conditional, Tree.map, Tree.mapAll]
        exact .decision conditional
          (outcomeSubject_decides (subjects_decides values (opened + 1) .yes value))
          (subjectsElse_decides values (opened + 1) conditional rest)
      · exact .of_settled (by simpa [Rule.isDecision] using conditional)
          (by rw [Tree.value_map, subjects_value])
  | .null | .bool _ | .number _ | .string _ | .emptyObject | .list _ | .applyOne _ _ _
  | .apply _ [] _ | .apply _ [_] _ =>
      exact .of_settled rfl (by rw [Tree.value_map, subjects_value])

theorem subjectsElse_decides (values : Bool) (opened : Nat) {operator : String}
    (conditional : Family.ofName operator = .conditional) (operands : List Rule) :
    Rule.DecidesElse opened operator operands
      (Tree.mapAll Subject.rule (subjectsElse values opened operator operands)) := by
  match operands with
  | [] => rfl
  | [value] =>
      exact ⟨_, rfl, outcomeSubject_decides (subjects_decides values opened .no value)⟩
  | condition :: value :: rest =>
      by_cases room : opened < Rule.maxDepth
      · simp only [subjectsElse, if_pos room, Tree.mapAll, Tree.map]
        refine ⟨_, rfl, ?_⟩
        rw [if_pos room]
        exact .decision conditional
          (outcomeSubject_decides (subjects_decides values (opened + 1) .yes value))
          (subjectsElse_decides values (opened + 1) conditional rest)
      · simp only [subjectsElse, if_neg room, Tree.mapAll]
        refine ⟨_, rfl, ?_⟩
        rw [if_neg room]
        rfl

end

end RuleChart.Flowchart
