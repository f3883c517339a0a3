import RuleChart.Tree.Node

namespace RuleChart

variable {m : Type → Type} [Monad m]

namespace Tree

variable {α β : Type}

mutual

/-- Replaces every value, with the effects in postorder. -/
def traverse (f : α → m β) : Tree α → m (Tree β)
  | .node value children => do
      let children ← traverseAll f children
      let value ← f value
      pure (.node value children)

def traverseAll (f : α → m β) : List (Tree α) → m (List (Tree β))
  | [] => pure []
  | tree :: rest => do
      let tree ← tree.traverse f
      let rest ← traverseAll f rest
      pure (tree :: rest)

end

end Tree

/-- Keeps at every node what the evaluator makes of its rule and the data.  The evaluator
may have effects of its own and may fail; it is called in postorder. -/
def NodeTree.annotate (evaluate : Json → Json → m Json) (data : Json) (tree : NodeTree) :
    m NodeTree :=
  tree.traverse fun node => do
    let result ← evaluate node.raw.toJson data
    pure { node with result := some result }

end RuleChart
