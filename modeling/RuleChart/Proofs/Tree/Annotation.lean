import RuleChart.Proofs.Tree.Numbering
import RuleChart.Tree.Annotate

namespace RuleChart

/-! Annotating a tree is asking for its nodes one after the other.

An evaluator may keep a state, and it may fail.  `Answered` says what it answers for a list of
nodes, and `Failed` which of them are asked for until it fails.  `Asks` says of an attempt that it
does one or the other; it is put together from its parts by `Asks.bind`, as a traversal is.
-/

namespace Attempt

variable {σ τ ε α β : Type} {start middle finish : σ} {error : ε}

theorem bind_ok {attempt : ExceptT ε (StateM σ) α} {value : α}
    (done : attempt start = (.ok value, middle)) (next : α → ExceptT ε (StateM σ) β) :
    (attempt >>= next) start = next value middle := by
  change ExceptT.bindCont next (attempt start).1 (attempt start).2 = _
  rw [done]
  rfl

theorem bind_error {attempt : ExceptT ε (StateM σ) α}
    (stopped : attempt start = (.error error, finish)) (next : α → ExceptT ε (StateM σ) β) :
    (attempt >>= next) start = (.error error, finish) := by
  change ExceptT.bindCont next (attempt start).1 (attempt start).2 = _
  rw [stopped]
  rfl

/-- One attempt does what another one does to a part of its state. -/
def Projects (part : τ → σ) (plain : ExceptT ε (StateM σ) β) (full : ExceptT ε (StateM τ) β) :
    Prop :=
  ∀ state, plain (part state) = ((full state).1, part (full state).2)

theorem Projects.bind {part : τ → σ} {plain : ExceptT ε (StateM σ) α}
    {full : ExceptT ε (StateM τ) α} {next : α → ExceptT ε (StateM σ) β}
    {nextFull : α → ExceptT ε (StateM τ) β} (first : Projects part plain full)
    (later : ∀ value, Projects part (next value) (nextFull value)) :
    Projects part (plain >>= next) (full >>= nextFull) := by
  intro state
  have agrees := first state
  match done : full state with
  | (.ok value, middle) =>
      rw [done] at agrees
      rw [bind_ok agrees, bind_ok done, later]
  | (.error error, finish) =>
      rw [done] at agrees
      rw [bind_error agrees, bind_error done]

section Traverse

variable {part : τ → σ} {plain : α → ExceptT ε (StateM σ) β} {full : α → ExceptT ε (StateM τ) β}

mutual

theorem projects_traverse (agrees : ∀ value, Projects part (plain value) (full value))
    (tree : Tree α) : Projects part (tree.traverse plain) (tree.traverse full) := by
  cases tree with
  | node value children =>
      exact (projects_traverseAll agrees children).bind fun _ =>
        (agrees value).bind fun _ _ => rfl

theorem projects_traverseAll (agrees : ∀ value, Projects part (plain value) (full value))
    (trees : List (Tree α)) :
    Projects part (Tree.traverseAll plain trees) (Tree.traverseAll full trees) := by
  cases trees with
  | nil => exact fun _ => rfl
  | cons tree rest =>
      exact (projects_traverse agrees tree).bind fun _ =>
        (projects_traverseAll agrees rest).bind fun _ _ => rfl

end

end Traverse

end Attempt

/-- Evaluates a rule over data, with a state of its own, or fails. -/
abbrev Evaluator (σ ε : Type) := Json → Json → ExceptT ε (StateM σ) Json

namespace Evaluator

variable {σ ε α β : Type}

/-- The call for a node: its rule and the data. -/
def call (data : Json) (node : Node) : Json × Json := (node.raw.toJson, data)

/-- The same evaluator with a record of its calls, the latest of them last. -/
def recording (evaluate : Evaluator σ ε) : Evaluator (σ × List (Json × Json)) ε :=
  fun rule data state =>
    let (outcome, next) := evaluate rule data state.1
    (outcome, next, state.2 ++ [(rule, data)])

/-- The answers for nodes that are asked for one after the other.  Each call starts with the state
that the one before has left. -/
inductive Answered (evaluate : Evaluator σ ε) (data : Json) :
    σ → List Node → List Json → σ → Prop where
  | nil (state : σ) : Answered evaluate data state [] [] state
  | cons {start middle finish : σ} {node : Node} {answer : Json} {nodes : List Node}
      {answers : List Json} (called : evaluate node.raw.toJson data start = (.ok answer, middle))
      (later : Answered evaluate data middle nodes answers finish) :
      Answered evaluate data start (node :: nodes) (answer :: answers) finish

/-- The call for one of the nodes fails, and those for all nodes before it do not.  The second list
holds the nodes up to it. -/
inductive Failed (evaluate : Evaluator σ ε) (data : Json) (start : σ) :
    List Node → List Node → ε → σ → Prop where
  | stop {middle finish : σ} {before : List Node} {answers : List Json} {node : Node} {error : ε}
      (passed : Answered evaluate data start before answers middle)
      (called : evaluate node.raw.toJson data middle = (.error error, finish)) (after : List Node) :
      Failed evaluate data start (before ++ node :: after) (before ++ [node]) error finish

/-- An attempt that asks for the nodes in order.  The first failure is its own; without one it makes
of the answers what `made` says. -/
def Asks (evaluate : Evaluator σ ε) (data : Json) (attempt : ExceptT ε (StateM σ) β)
    (nodes : List Node) (made : List Json → β → Prop) : Prop :=
  ∀ start,
    (∃ answers value finish, attempt start = (.ok value, finish) ∧
      Answered evaluate data start nodes answers finish ∧ made answers value) ∨
    ∃ asked error finish, attempt start = (.error error, finish) ∧
      Failed evaluate data start nodes asked error finish

variable {evaluate : Evaluator σ ε} {data : Json} {start middle finish : σ}
  {nodes others asked : List Node} {answers further : List Json} {error : ε}

theorem Answered.append (first : Answered evaluate data start nodes answers middle)
    (later : Answered evaluate data middle others further finish) :
    Answered evaluate data start (nodes ++ others) (answers ++ further) finish := by
  induction first with
  | nil => exact later
  | cons called _ laterIH => exact .cons called (laterIH later)

theorem Failed.before (failed : Failed evaluate data start nodes asked error finish)
    (others : List Node) : Failed evaluate data start (nodes ++ others) asked error finish := by
  cases failed with
  | stop passed called after =>
      rw [List.append_assoc]
      exact .stop passed called (after ++ others)

theorem Failed.behind (first : Answered evaluate data start nodes answers middle)
    (failed : Failed evaluate data middle others asked error finish) :
    Failed evaluate data start (nodes ++ others) (nodes ++ asked) error finish := by
  cases failed with
  | stop passed called after =>
      rw [← List.append_assoc, ← List.append_assoc]
      exact .stop (first.append passed) called after

section Asks

variable {made : List Json → α → Prop} {made' : List Json → β → Prop}

theorem Asks.pure {value : α} (holds : made [] value) :
    Asks evaluate data (pure value) [] made :=
  fun start => .inl ⟨[], value, start, rfl, .nil start, holds⟩

theorem Asks.call (evaluate : Evaluator σ ε) (data : Json) (node : Node) :
    Asks evaluate data (evaluate node.raw.toJson data) [node]
      (fun answers answer => answers = [answer]) := by
  intro start
  match called : evaluate node.raw.toJson data start with
  | (.ok answer, finish) =>
      exact .inl ⟨[answer], answer, finish, rfl, .cons called (.nil finish), rfl⟩
  | (.error error, finish) =>
      exact .inr ⟨[node], error, finish, rfl, .stop (.nil start) called []⟩

theorem Asks.bind {attempt : ExceptT ε (StateM σ) α} {next : α → ExceptT ε (StateM σ) β}
    (first : Asks evaluate data attempt nodes made)
    (later : ∀ answers value, made answers value →
      Asks evaluate data (next value) others (fun further => made' (answers ++ further))) :
    Asks evaluate data (attempt >>= next) (nodes ++ others) made' := by
  intro start
  rcases first start with ⟨answers, value, middle, done, answered, holds⟩ |
    ⟨asked, error, finish, stopped, failed⟩
  · rw [Attempt.bind_ok done]
    rcases later answers value holds middle with ⟨further, result, finish, done, more, holds⟩ |
      ⟨asked, error, finish, stopped, failed⟩
    · exact .inl ⟨answers ++ further, result, finish, done, answered.append more, holds⟩
    · exact .inr ⟨nodes ++ asked, error, finish, stopped, failed.behind answered⟩
  · exact .inr ⟨asked, error, finish, Attempt.bind_error stopped next, failed.before others⟩

theorem Asks.map {attempt : ExceptT ε (StateM σ) α}
    (first : Asks evaluate data attempt nodes made) (f : α → β)
    (holds : ∀ answers value, made answers value → made' answers (f value)) :
    Asks evaluate data (do let value ← attempt; Pure.pure (f value)) nodes made' := by
  have mapped : Asks evaluate data (do let value ← attempt; Pure.pure (f value)) (nodes ++ [])
      made' :=
    first.bind fun answers value made => .pure (by simpa using holds answers value made)
  rwa [List.append_nil] at mapped

end Asks

section Recording

variable {start finish : σ × List (Json × Json)}

theorem recording_eq {rule : Json} {outcome : Except ε Json}
    (called : evaluate.recording rule data start = (outcome, finish)) :
    evaluate rule data start.1 = (outcome, finish.1) ∧ finish.2 = start.2 ++ [(rule, data)] := by
  obtain ⟨rfl, rfl⟩ := Prod.mk.inj called
  exact ⟨rfl, rfl⟩

theorem Answered.of_recording
    (answered : Answered evaluate.recording data start nodes answers finish) :
    Answered evaluate data start.1 nodes answers finish.1 ∧
      finish.2 = start.2 ++ nodes.map (Evaluator.call data) := by
  induction answered with
  | nil state => exact ⟨.nil state.1, by simp⟩
  | cons called later laterIH =>
      obtain ⟨plain, noted⟩ := recording_eq called
      obtain ⟨further, record⟩ := laterIH
      refine ⟨.cons plain further, ?_⟩
      simp [record, noted, Evaluator.call]

theorem Failed.of_recording
    (failed : Failed evaluate.recording data start nodes asked error finish) :
    Failed evaluate data start.1 nodes asked error finish.1 ∧
      finish.2 = start.2 ++ asked.map (Evaluator.call data) := by
  cases failed with
  | stop passed called after =>
      obtain ⟨plain, record⟩ := passed.of_recording
      obtain ⟨last, noted⟩ := recording_eq called
      refine ⟨.stop plain last after, ?_⟩
      simp [record, noted, Evaluator.call]

end Recording

end Evaluator

/-- A node with all that it holds beside its result. -/
def Node.unjudged (node : Node) : Node := { node with result := none }

namespace NodeTree

open Evaluator (Asks Answered Failed call)

variable {σ ε : Type}

def unjudged (tree : NodeTree) : NodeTree := tree.map Node.unjudged

def annotateNode (evaluate : Evaluator σ ε) (data : Json) (node : Node) :
    ExceptT ε (StateM σ) Node := do
  let result ← evaluate node.raw.toJson data
  pure { node with result := some result }

theorem asks_annotateNode (evaluate : Evaluator σ ε) (data : Json) (node : Node) :
    Asks evaluate data (annotateNode evaluate data node) [node]
      (fun answers judged =>
        judged.unjudged = node.unjudged ∧ [judged.result] = answers.map some) := by
  refine (Asks.call evaluate data node).map _ fun answers answer same => ?_
  rw [same]
  exact ⟨rfl, rfl⟩

mutual

theorem asks_annotate (evaluate : Evaluator σ ε) (data : Json) (tree : NodeTree) :
    Asks evaluate data (annotate evaluate data tree) tree.postorder
      (fun answers judged =>
        judged.unjudged = tree.unjudged ∧
          judged.postorder.map Node.result = answers.map some) := by
  cases tree with
  | node node children =>
      refine (asks_annotateAll evaluate data children).bind fun answers below ⟨same, results⟩ => ?_
      refine (asks_annotateNode evaluate data node).map _ fun own root ⟨sameRoot, result⟩ => ?_
      constructor
      · simp only [unjudged, Tree.map, same, sameRoot]
      · simp [Tree.postorder, results, ← result]

theorem asks_annotateAll (evaluate : Evaluator σ ε) (data : Json) (trees : List NodeTree) :
    Asks evaluate data (Tree.traverseAll (annotateNode evaluate data) trees)
      (Tree.postorderAll trees)
      (fun answers judged =>
        Tree.mapAll Node.unjudged judged = Tree.mapAll Node.unjudged trees ∧
          (Tree.postorderAll judged).map Node.result = answers.map some) := by
  cases trees with
  | nil => exact .pure ⟨rfl, rfl⟩
  | cons tree rest =>
      refine (asks_annotate evaluate data tree).bind fun answers first ⟨same, results⟩ => ?_
      refine (asks_annotateAll evaluate data rest).map _
        fun further later ⟨sameLater, resultsLater⟩ => ?_
      simp only [unjudged] at same
      constructor
      · simp only [Tree.mapAll, same, sameLater]
      · simp [Tree.postorderAll, results, resultsLater]

end

theorem unjudged_of_annotate {evaluate : Evaluator σ ε} {data : Json} {tree annotated : NodeTree}
    {start finish : σ} (done : annotate evaluate data tree start = (.ok annotated, finish)) :
    annotated.unjudged = tree.unjudged := by
  rcases asks_annotate evaluate data tree start with ⟨_, other, _, judged, -, same, -⟩ |
    ⟨_, _, _, stopped, -⟩
  · rw [done] at judged
    cases judged
    exact same
  · rw [done] at stopped
    cases stopped

theorem projects_annotate (evaluate : Evaluator σ ε) (data : Json) (tree : NodeTree) :
    Attempt.Projects Prod.fst (annotate evaluate data tree)
      (annotate evaluate.recording data tree) :=
  Attempt.projects_traverse (fun _ => Attempt.Projects.bind (fun _ => rfl) (fun _ _ => rfl)) tree

/-- Whether or not its nodes are visible, a tree is annotated by calls for its nodes in postorder,
each with the rule of the node and the same data.  If no call fails, there was one for every node,
and what it answered is all that is new at the node.  The first call that fails is the last one and
its error the outcome. -/
theorem annotate_postorder (evaluate : Evaluator σ ε) (data : Json) (tree : NodeTree) (start : σ) :
    let run := annotate evaluate data tree start
    let recorded := annotate evaluate.recording data tree (start, [])
    run = (recorded.1, recorded.2.1) ∧
      ((∃ answers annotated, run.1 = .ok annotated ∧
          Answered evaluate data start tree.postorder answers run.2 ∧
          recorded.2.2 = tree.postorder.map (call data) ∧
          annotated.unjudged = tree.unjudged ∧
          annotated.postorder.map Node.result = answers.map some) ∨
        ∃ asked error, run.1 = .error error ∧
          Failed evaluate data start tree.postorder asked error run.2 ∧
          recorded.2.2 = asked.map (call data)) := by
  intro run recorded
  have plain : run = (recorded.1, recorded.2.1) :=
    projects_annotate evaluate data tree (start, [])
  refine ⟨plain, ?_⟩
  rw [plain]
  rcases asks_annotate evaluate.recording data tree (start, []) with
    ⟨answers, annotated, finish, done, answered, same, results⟩ |
    ⟨asked, error, finish, stopped, failed⟩
  · obtain ⟨answered, record⟩ := answered.of_recording
    refine .inl ⟨answers, annotated, ?_⟩
    simp only [recorded, done]
    exact ⟨trivial, answered, record, same, results⟩
  · obtain ⟨failed, record⟩ := failed.of_recording
    refine .inr ⟨asked, error, ?_⟩
    simp only [recorded, stopped]
    exact ⟨trivial, failed, record⟩

end NodeTree

end RuleChart
