import RuleChart.Flowchart.Document
import RuleChart.Proofs.Tree.Numbering

namespace RuleChart.Flowchart

def edgeTo (source : Nat) (child : Tree (Nat × Box)) : Connection :=
  { source, target := child.value.1, link := child.value.2.link }

theorem connectionsFrom_cons (source : Nat) (child : Tree (Nat × Box))
    (rest : List (Tree (Nat × Box))) :
    connectionsFrom source (child :: rest) =
      (if child.value.2.link = .plain then edgeTo source child :: connections child
        else connections child ++ [edgeTo source child]) ++ connectionsFrom source rest := rfl

theorem connectionsFrom_perm (source : Nat) (child : Tree (Nat × Box))
    (rest : List (Tree (Nat × Box))) :
    (connectionsFrom source (child :: rest)).Perm
      (edgeTo source child :: (connections child ++ connectionsFrom source rest)) := by
  rw [connectionsFrom_cons]
  split
  · exact List.Perm.refl _
  · rw [List.append_assoc]
    exact List.perm_middle

theorem mem_connectionsFrom_cons {source : Nat} {child : Tree (Nat × Box)}
    {rest : List (Tree (Nat × Box))} {edge : Connection} :
    edge ∈ connectionsFrom source (child :: rest) ↔
      edge = edgeTo source child ∨ edge ∈ connections child ∨
        edge ∈ connectionsFrom source rest := by
  rw [(connectionsFrom_perm source child rest).mem_iff, List.mem_cons, List.mem_append]

@[simp] theorem edgeTo_target_numbered (source first : Nat) (tree : Tree Box) :
    (edgeTo source (tree.numbered first)).target = first := by
  simp [edgeTo, Tree.value_numbered]

mutual

theorem targets_connections (first : Nat) (tree : Tree Box) :
    ((connections (tree.numbered first)).map Connection.target).Perm
      (List.range' (first + 1) (tree.size - 1)) := by
  cases tree with
  | node box children =>
      simp only [Tree.numbered, connections, Tree.size, Nat.add_sub_cancel]
      exact targets_connectionsFrom first (first + 1) children

theorem targets_connectionsFrom (source first : Nat) (trees : List (Tree Box)) :
    ((connectionsFrom source (Tree.numberedAll first trees)).map Connection.target).Perm
      (List.range' first (Tree.sizeAll trees)) := by
  cases trees with
  | nil => exact List.Perm.refl _
  | cons tree rest =>
      have below := targets_connections first tree
      have later := targets_connectionsFrom source (first + tree.size) rest
      have positive := tree.size_pos
      have numbers : List.range' first (Tree.sizeAll (tree :: rest)) =
          first :: (List.range' (first + 1) (tree.size - 1) ++
            List.range' (first + tree.size) (Tree.sizeAll rest)) := by
        rw [Tree.sizeAll, ← List.range'_append_1, ← List.cons_append, ← List.range'_succ,
          Nat.sub_add_cancel positive]
      rw [numbers]
      refine ((connectionsFrom_perm source (tree.numbered first) _).map _).trans ?_
      rw [List.map_cons, List.map_append, edgeTo_target_numbered]
      exact (below.append later).cons first

end

mutual

theorem connections_bounds {first : Nat} (tree : Tree Box) {edge : Connection}
    (member : edge ∈ connections (tree.numbered first)) :
    first ≤ edge.source ∧ edge.source < edge.target ∧ edge.target < first + tree.size := by
  cases tree with
  | node box children =>
      have inside := connectionsFrom_bounds (Nat.lt_succ_self first) children member
      simp only [Tree.size]
      omega

theorem connectionsFrom_bounds {source first : Nat} (before : source < first)
    (trees : List (Tree Box)) {edge : Connection}
    (member : edge ∈ connectionsFrom source (Tree.numberedAll first trees)) :
    (edge.source = source ∨ first ≤ edge.source) ∧ edge.source < edge.target ∧
      edge.target < first + Tree.sizeAll trees := by
  cases trees with
  | nil => cases member
  | cons tree rest =>
      have positive := tree.size_pos
      simp only [Tree.sizeAll]
      rcases mem_connectionsFrom_cons.mp member with rfl | below | later
      · rw [edgeTo_target_numbered]
        exact ⟨.inl rfl, before, by omega⟩
      · have inside := connections_bounds tree below
        omega
      · have inside := connectionsFrom_bounds
          (show source < first + tree.size by omega) rest later
        omega

end

/-- Whether an edge starts inside a part of a numbered chart. -/
def startsIn (part : Tree (Nat × Box)) (edge : Connection) : Bool :=
  part.value.1 ≤ edge.source && edge.source < part.value.1 + part.size

theorem startsIn_numbered {start : Nat} {plain : Tree Box} {edge : Connection} :
    startsIn (plain.numbered start) edge = true ↔
      start ≤ edge.source ∧ edge.source < start + plain.size := by
  simp [startsIn, Tree.value_numbered]

theorem connections_startIn_self (first : Nat) (tree : Tree Box) :
    (connections (tree.numbered first)).filter (startsIn (tree.numbered first)) =
      connections (tree.numbered first) := by
  rw [List.filter_eq_self]
  intro edge present
  have bounds := connections_bounds tree present
  exact startsIn_numbered.mpr (by omega)

mutual

theorem connections_within {first : Nat} (tree : Tree Box) {part : Tree (Nat × Box)}
    (member : part ∈ (tree.numbered first).subtrees) :
    (connections (tree.numbered first)).filter (startsIn part) = connections part := by
  cases tree with
  | node box children =>
      rcases List.mem_cons.mp member with rfl | below
      · exact connections_startIn_self first (.node box children)
      · exact connectionsFrom_within (Nat.lt_succ_self first) children below

theorem connectionsFrom_within {source first : Nat} (before : source < first)
    (trees : List (Tree Box)) {part : Tree (Nat × Box)}
    (member : part ∈ Tree.subtreesAll (Tree.numberedAll first trees)) :
    (connectionsFrom source (Tree.numberedAll first trees)).filter (startsIn part) =
      connections part := by
  cases trees with
  | nil => cases member
  | cons tree rest =>
      have later : source < first + tree.size := by omega
      obtain ⟨start, plain, rfl, -, lower, upper⟩ :=
        Tree.subtreesAll_numberedAll (tree :: rest) member
      have ownEdge : startsIn (plain.numbered start) (edgeTo source (tree.numbered first)) =
          false := by
        rw [← Bool.not_eq_true, startsIn_numbered]
        simp only [edgeTo]
        omega
      have childEdges : ((if (tree.numbered first).value.2.link = .plain then
            edgeTo source (tree.numbered first) :: connections (tree.numbered first)
          else connections (tree.numbered first) ++
            [edgeTo source (tree.numbered first)]).filter (startsIn (plain.numbered start))) =
          (connections (tree.numbered first)).filter (startsIn (plain.numbered start)) := by
        split <;> simp [ownEdge]
      rw [Tree.numberedAll, connectionsFrom_cons, List.filter_append, childEdges]
      rcases List.mem_append.mp member with inChild | inRest
      · obtain ⟨start', plain', same, -, -, above⟩ := Tree.subtrees_numbered tree inChild
        obtain ⟨rfl, rfl⟩ := Tree.numbered_inj same
        have rest_nil : (connectionsFrom source
            (Tree.numberedAll (first + tree.size) rest)).filter
              (startsIn (plain.numbered start)) = [] := by
          rw [List.filter_eq_nil_iff]
          intro edge present inside
          have bounds := connectionsFrom_bounds later rest present
          rw [startsIn_numbered] at inside
          omega
        rw [connections_within tree inChild, rest_nil, List.append_nil]
      · obtain ⟨start', plain', same, -, above, -⟩ := Tree.subtreesAll_numberedAll rest inRest
        obtain ⟨rfl, rfl⟩ := Tree.numbered_inj same
        have child_nil : (connections (tree.numbered first)).filter
            (startsIn (plain.numbered start)) = [] := by
          rw [List.filter_eq_nil_iff]
          intro edge present inside
          have bounds := connections_bounds tree present
          rw [startsIn_numbered] at inside
          omega
        rw [child_nil, List.nil_append, connectionsFrom_within later rest inRest]

end

theorem connectionsFrom_source {source first : Nat} (before : source < first)
    (trees : List (Tree Box)) :
    (connectionsFrom source (Tree.numberedAll first trees)).filter
        (fun edge => edge.source = source) =
      (Tree.numberedAll first trees).map (edgeTo source) := by
  induction trees generalizing first with
  | nil => rfl
  | cons tree rest restIH =>
      have below_nil : (connections (tree.numbered first)).filter
          (fun edge => edge.source = source) = [] := by
        rw [List.filter_eq_nil_iff]
        intro edge present same
        have bounds := connections_bounds tree present
        simp only [decide_eq_true_eq] at same
        omega
      have own : (edgeTo source (tree.numbered first)).source = source := rfl
      have later := restIH (show source < first + tree.size by omega)
      rw [Tree.numberedAll, connectionsFrom_cons, List.filter_append, later, List.map_cons]
      split <;> simp [own, below_nil]

/-- The edges that start at the root of a part lead to its children. -/
theorem connections_from {first : Nat} (tree : Tree Box) {part : Tree (Nat × Box)}
    (member : part ∈ (tree.numbered first).subtrees) :
    (connections (tree.numbered first)).filter (fun edge => edge.source = part.value.1) =
      part.children.map (edgeTo part.value.1) := by
  have within := connections_within tree member
  obtain ⟨start, plain, rfl, -, -, -⟩ := Tree.subtrees_numbered tree member
  have positive := plain.size_pos
  have narrowed : (connections (tree.numbered first)).filter
        (fun edge => edge.source = (plain.numbered start).value.1) =
      ((connections (tree.numbered first)).filter (startsIn (plain.numbered start))).filter
        (fun edge => edge.source = (plain.numbered start).value.1) := by
    rw [List.filter_filter]
    apply List.filter_congr
    intro edge present
    have inside : edge.source = start → startsIn (plain.numbered start) edge = true := by
      intro same
      exact startsIn_numbered.mpr (by omega)
    simp only [Tree.value_numbered]
    by_cases same : edge.source = start
    · simp [same, inside same]
    · simp [same]
  rw [narrowed, within]
  cases plain with
  | node box children => exact connectionsFrom_source (Nat.lt_succ_self start) children

end RuleChart.Flowchart
