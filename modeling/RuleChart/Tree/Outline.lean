import RuleChart.Tree.Node

namespace RuleChart

namespace NodeTree

def outlineEntry (relative : Int) (node : Node) : String :=
  "".pushn ' ' (2 * relative.toNat) ++ "[" ++ node.kind.name ++ "] " ++ node.label

mutual

/-- Nodes more than `limit` levels below depth `base` are left out with all below them. -/
def outlineEntries (limit : Option Int) (base : Int) : NodeTree → List String
  | .node node children =>
      let relative := node.depth - base
      if limit.any (· < relative) then []
      else outlineEntry relative node :: outlineEntriesAll limit base children

def outlineEntriesAll (limit : Option Int) (base : Int) : List NodeTree → List String
  | [] => []
  | tree :: rest => outlineEntries limit base tree ++ outlineEntriesAll limit base rest

end

def outline (limit : Option Int) (tree : NodeTree) : String :=
  "\n".intercalate (outlineEntries limit tree.value.depth tree)

end NodeTree

end RuleChart
