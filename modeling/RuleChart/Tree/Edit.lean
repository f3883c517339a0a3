import RuleChart.Tree.Node

namespace RuleChart

namespace NodeTree

mutual

/-- The nodes in preorder, without those below a collapsed node. -/
def visible : NodeTree → List Node
  | .node node children => node :: (if node.expanded then visibleAll children else [])

def visibleAll : List NodeTree → List Node
  | [] => []
  | tree :: rest => visible tree ++ visibleAll rest

end

/-- The subtree below the first node with the id. -/
def find? (id : String) (tree : NodeTree) : Option NodeTree :=
  tree.subtrees.find? (fun subtree => subtree.value.id = id)

mutual

/-- The nodes from the root down to the first one with the id, none if there is none. -/
def pathTo (id : String) : NodeTree → List Node
  | .node node children =>
      if node.id = id then [node]
      else
        match pathToAll id children with
        | [] => []
        | path => node :: path

def pathToAll (id : String) : List NodeTree → List Node
  | [] => []
  | tree :: rest =>
      match pathTo id tree with
      | [] => pathToAll id rest
      | path => path

end

/-- A node above another, with its other children: those to the left of the way down, the
nearest first, and those to the right. -/
structure Ancestor where
  node : Node
  left : List NodeTree
  right : List NodeTree

mutual

/-- The first subtree whose node has the id, and the nodes above it, the nearest first. -/
def locate? (id : String) (above : List Ancestor) : NodeTree → Option (NodeTree × List Ancestor)
  | .node node children =>
      if node.id = id then some (.node node children, above)
      else locateAll? id node above [] children

/-- The search among the children of `parent` behind those to the `left`. -/
def locateAll? (id : String) (parent : Node) (above : List Ancestor) (left : List NodeTree) :
    List NodeTree → Option (NodeTree × List Ancestor)
  | [] => none
  | tree :: rest =>
      match locate? id (⟨parent, left, rest⟩ :: above) tree with
      | some found => some found
      | none => locateAll? id parent above (tree :: left) rest

end

/-- Puts a subtree back below the nodes above it, from the lowest of them up. -/
def rebuild (tree : NodeTree) : List Ancestor → NodeTree
  | [] => tree
  | parent :: above =>
      rebuild (.node parent.node (parent.left.reverse ++ tree :: parent.right)) above

def setExpanded (expanded : Bool) (node : Node) : Node := { node with expanded }

def onRoot (change : Node → Node) : NodeTree → NodeTree
  | .node root children => .node (change root) children

/-- Expands or collapses the first node with the id.  Only the nodes above it are rebuilt. -/
def toggle (id : String) (tree : NodeTree) : NodeTree :=
  match locate? id [] tree with
  | none => tree
  | some (target, above) =>
      rebuild (onRoot (fun node => setExpanded (!node.expanded) node) target) above

def expandAll (tree : NodeTree) : NodeTree := tree.map (setExpanded true)

/-- Collapses every node below the root. -/
def collapseAll (tree : NodeTree) : NodeTree :=
  onRoot (setExpanded true) (tree.map (setExpanded false))

end NodeTree

end RuleChart
