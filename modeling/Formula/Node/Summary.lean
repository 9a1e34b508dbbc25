import Formula.Node.Walk
import Formula.Table

set_option autoImplicit false

/-! # Summaries of trees

How many nodes of each kind a tree has, and which symbols and functions it names.
-/

namespace Formula.Node

/-- The nodes of a tree, parents before children. -/
def nodes (node : Node) : List Node := node.visits.map Visit.node

/-- The name of a node that is a symbol. -/
def symbolName? : Node → Option String
  | .symbol name => some name
  | _ => none

/-- The name of the function that a node calls. -/
def functionName? : Node → Option String
  | .function name _ => some name
  | .operator _ fn _ _ => some fn
  | _ => none

/-- Names in order, each of them once. -/
def sortedNames (names : List String) : List String :=
  (Table.ofList (names.map fun name => (name, ()))).names

/-- The lines of a summary. -/
def summary (node : Node) : List String :=
  let all := node.nodes
  let kinds := NodeKind.all.filterMap fun kind =>
    let count := all.countP fun n => n.kind == kind
    if count = 0 then none else some s!"  {kind.typeName}: {count}"
  let line (label : String) (names : List String) : List String :=
    if names.isEmpty then [] else [label ++ ": " ++ ", ".intercalate (sortedNames names)]
  [s!"nodes: {all.length}"] ++ kinds ++
    line "symbols" (all.filterMap symbolName?) ++
    line "functions" (all.filterMap functionName?)

end Formula.Node
