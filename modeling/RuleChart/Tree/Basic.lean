namespace RuleChart

/-- An ordered tree with a value at every node. -/
inductive Tree (α : Type) where
  | node (value : α) (children : List (Tree α))

namespace Tree

variable {α β : Type}

instance [Inhabited α] : Inhabited (Tree α) := ⟨.node default []⟩

def value : Tree α → α
  | .node value _ => value

def children : Tree α → List (Tree α)
  | .node _ children => children

mutual

def size : Tree α → Nat
  | .node _ children => sizeAll children + 1

def sizeAll : List (Tree α) → Nat
  | [] => 0
  | tree :: rest => tree.size + sizeAll rest

end

mutual

/-- The values, each before those below it. -/
def preorder : Tree α → List α
  | .node value children => value :: preorderAll children

def preorderAll : List (Tree α) → List α
  | [] => []
  | tree :: rest => tree.preorder ++ preorderAll rest

end

mutual

/-- The values, each after those below it. -/
def postorder : Tree α → List α
  | .node value children => postorderAll children ++ [value]

def postorderAll : List (Tree α) → List α
  | [] => []
  | tree :: rest => tree.postorder ++ postorderAll rest

end

mutual

/-- All subtrees in preorder, the tree itself first. -/
def subtrees : Tree α → List (Tree α)
  | .node value children => .node value children :: subtreesAll children

def subtreesAll : List (Tree α) → List (Tree α)
  | [] => []
  | tree :: rest => tree.subtrees ++ subtreesAll rest

end

mutual

def map (f : α → β) : Tree α → Tree β
  | .node value children => .node (f value) (mapAll f children)

def mapAll (f : α → β) : List (Tree α) → List (Tree β)
  | [] => []
  | tree :: rest => tree.map f :: mapAll f rest

end

mutual

/-- Numbers the values in preorder, from `first` on. -/
def numbered (first : Nat) : Tree α → Tree (Nat × α)
  | .node value children => .node (first, value) (numberedAll (first + 1) children)

def numberedAll (first : Nat) : List (Tree α) → List (Tree (Nat × α))
  | [] => []
  | tree :: rest => tree.numbered first :: numberedAll (first + tree.size) rest

end

end Tree

end RuleChart
