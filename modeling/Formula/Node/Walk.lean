import Formula.Node.Basic

set_option autoImplicit false

/-! # Walking over trees

All walks visit a parent before its children and the children in order. What a walk calls for a
node sees a `Visit`: the node, its place among its siblings and its parent, the latter two
missing for the root. The walks run in any monad, so that a callback can fail, which ends the
walk, or keep a record.

`visits` is the list of all visits of a tree in that order.
-/

namespace Formula

/-- A node as a walk meets it. -/
structure Visit where
  node : Node
  index : Option Nat
  parent : Option Node
  deriving Inhabited

namespace Node

theorem countAll_children_lt (node : Node) : countAll node.children < node.count := by
  rw [count_eq]
  omega

mutual

/-- The visits below and at a node met in a given place. -/
def visitsAt (index : Option Nat) (parent : Option Node) (node : Node) : List Visit :=
  ⟨node, index, parent⟩ :: visitsAll node 0 node.children
termination_by (node.count, 0)
decreasing_by exact Prod.Lex.left _ _ (countAll_children_lt node)

/-- The visits of children from the place `i` on. -/
def visitsAll (parent : Node) (i : Nat) : List Node → List Visit
  | [] => []
  | child :: rest => visitsAt (some i) (some parent) child ++ visitsAll parent (i + 1) rest
termination_by children => (countAll children, 1)
decreasing_by
  all_goals simp only [Prod.lex_def, countAll]
  all_goals have := count_pos child
  all_goals omega

end

/-- Every node of a tree once, parents first. -/
def visits (node : Node) : List Visit := visitsAt none none node

section

variable {m : Type → Type} [Monad m]

mutual

/-- Calls `visit` at and below a node met in a given place. -/
def traverseAt (visit : Visit → m Unit) (index : Option Nat) (parent : Option Node)
    (node : Node) : m Unit := do
  visit ⟨node, index, parent⟩
  traverseAll visit node 0 node.children
termination_by (node.count, 0)
decreasing_by exact Prod.Lex.left _ _ (countAll_children_lt node)

/-- Calls `visit` for children from the place `i` on. -/
def traverseAll (visit : Visit → m Unit) (parent : Node) (i : Nat) : List Node → m Unit
  | [] => pure ()
  | child :: rest => do
      traverseAt visit (some i) (some parent) child
      traverseAll visit parent (i + 1) rest
termination_by children => (countAll children, 1)
decreasing_by
  all_goals simp only [Prod.lex_def, countAll]
  all_goals have := count_pos child
  all_goals omega

end

/-- Calls `visit` for every node. -/
def traverse (visit : Visit → m Unit) (node : Node) : m Unit := traverseAt visit none none node

mutual

/-- Collects the nodes at and below a node met in a given place. -/
def filterAt (keep : Visit → m Bool) (index : Option Nat) (parent : Option Node)
    (node : Node) : m (List Node) := do
  let kept ← keep ⟨node, index, parent⟩
  let below ← filterAll keep node 0 node.children
  pure (if kept then node :: below else below)
termination_by (node.count, 0)
decreasing_by exact Prod.Lex.left _ _ (countAll_children_lt node)

/-- Collects the nodes among children from the place `i` on. -/
def filterAll (keep : Visit → m Bool) (parent : Node) (i : Nat) : List Node → m (List Node)
  | [] => pure []
  | child :: rest => do
      let here ← filterAt keep (some i) (some parent) child
      let later ← filterAll keep parent (i + 1) rest
      pure (here ++ later)
termination_by children => (countAll children, 1)
decreasing_by
  all_goals simp only [Prod.lex_def, countAll]
  all_goals have := count_pos child
  all_goals omega

end

/-- The nodes for which `keep` holds, in order. -/
def filter (keep : Visit → m Bool) (node : Node) : m (List Node) := filterAt keep none none node

mutual

/-- Transforms the tree at a node met in a given place. -/
def transformAt (fail : NodeError → m Node) (replace : Visit → m (Option Node))
    (index : Option Nat) (parent : Option Node) (node : Node) : m Node := do
  match ← replace ⟨node, index, parent⟩ with
  | some replacement => pure replacement
  | none =>
      let children ← transformAll fail replace node 0 node.children
      match node.withChildren children with
      | .ok rebuilt => pure rebuilt
      | .error fault => fail fault
termination_by (node.count, 0)
decreasing_by exact Prod.Lex.left _ _ (countAll_children_lt node)

/-- Transforms children from the place `i` on. -/
def transformAll (fail : NodeError → m Node) (replace : Visit → m (Option Node)) (parent : Node)
    (i : Nat) : List Node → m (List Node)
  | [] => pure []
  | child :: rest => do
      let here ← transformAt fail replace (some i) (some parent) child
      let later ← transformAll fail replace parent (i + 1) rest
      pure (here :: later)
termination_by children => (countAll children, 1)
decreasing_by
  all_goals simp only [Prod.lex_def, countAll]
  all_goals have := count_pos child
  all_goals omega

end

/-- A new tree: a node for which `replace` gives another one is exchanged for it, and the
replacement is not walked into; any other node is kept with its children transformed. `fail` says
what becomes of a node whose new children do not fit it. -/
def transform (fail : NodeError → m Node) (replace : Visit → m (Option Node)) (node : Node) :
    m Node :=
  transformAt fail replace none none node

end

end Node

end Formula
