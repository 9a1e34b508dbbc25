import Formula.Node.Walk

set_option autoImplicit false

/-! # The order of a walk

A walk that keeps every node lists the nodes of a tree, a parent before its children and the
children in order. `preorder` is that list: a node, then the lists of its children one after the
other. It holds exactly the nodes that lie in the tree.
-/

namespace Formula.Node

/-- All nodes of a tree in the order of a walk. -/
def preorder (node : Node) : List Node := Id.run (node.filter fun _ => pure true)

/-- A node lies in a tree. -/
inductive Within : Node → Node → Prop where
  | root (node : Node) : Within node node
  | child {node child tree : Node} (hchild : child ∈ tree.children) (h : Within node child) :
      Within node tree

/-! ## Lists of children -/

/-- Where a node is met does not matter to a walk that keeps every node. -/
theorem filterAt_eq_preorder (index : Option Nat) (parent : Option Node) (node : Node) :
    filterAt (m := Id) (fun _ => pure true) index parent node = node.preorder := by
  rw [preorder, filter, Id.run, filterAt, filterAt]

theorem filterAll_eq_flatMap (parent : Node) (i : Nat) (children : List Node) :
    filterAll (m := Id) (fun _ => pure true) parent i children = children.flatMap preorder := by
  induction children generalizing i with
  | nil => rw [filterAll]; rfl
  | cons child rest ih =>
      rw [filterAll, List.flatMap_cons, ← ih (i + 1), ← filterAt_eq_preorder (some i) (some parent)]
      rfl

/-- A node comes before the nodes of its children. -/
theorem preorder_eq (node : Node) : node.preorder = node :: node.children.flatMap preorder := by
  rw [← filterAll_eq_flatMap node 0, preorder, filter, Id.run, filterAt]
  rfl

theorem visitsAt_map_eq (index : Option Nat) (parent : Option Node) (node : Node) :
    (visitsAt index parent node).map Visit.node = node.visits.map Visit.node := by
  rw [visits, visitsAt, visitsAt, List.map_cons, List.map_cons]

theorem visitsAll_map_eq (parent : Node) (i : Nat) (children : List Node) :
    (visitsAll parent i children).map Visit.node
      = children.flatMap fun child => child.visits.map Visit.node := by
  induction children generalizing i with
  | nil => rw [visitsAll]; rfl
  | cons child rest ih =>
      rw [visitsAll, List.map_append, ih (i + 1), visitsAt_map_eq, List.flatMap_cons]

theorem count_lt_of_mem_children {child node : Node} (h : child ∈ node.children) :
    child.count < node.count := by
  have hle : ∀ {children : List Node}, child ∈ children → child.count ≤ countAll children := by
    intro children hmem
    induction children with
    | nil => exact absurd hmem List.not_mem_nil
    | cons first rest ih =>
        rw [countAll]
        rcases List.mem_cons.mp hmem with rfl | hmem
        · exact Nat.le_add_right _ _
        · exact Nat.le_trans (ih hmem) (Nat.le_add_left _ _)
  exact Nat.lt_of_le_of_lt (hle h) (countAll_children_lt node)

/-- What holds of a node whenever it holds of all its children holds of every node. -/
theorem children_induction {motive : Node → Prop}
    (step : ∀ node : Node, (∀ child ∈ node.children, motive child) → motive node) (node : Node) :
    motive node := by
  induction hn : node.count using Nat.strongRecOn generalizing node with
  | ind n ih =>
      refine step node fun child hchild => ?_
      exact ih child.count (hn ▸ count_lt_of_mem_children hchild) child rfl

/-- The visits of a tree meet its nodes in the same order. -/
theorem visits_map_eq_preorder (node : Node) : node.visits.map Visit.node = node.preorder := by
  induction node using children_induction with
  | step node ih =>
      rw [preorder_eq, visits, visitsAt, List.map_cons, visitsAll_map_eq]
      have hchildren : node.children.map (fun child => child.visits.map Visit.node)
          = node.children.map preorder := List.map_congr_left ih
      rw [List.flatMap_def, List.flatMap_def, hchildren]

/-- The nodes of the list are the nodes that lie in the tree. -/
theorem mem_preorder_iff (node tree : Node) : node ∈ tree.preorder ↔ Within node tree := by
  constructor
  · intro h
    induction tree using children_induction with
    | step tree ih =>
        rw [preorder_eq, List.mem_cons, List.mem_flatMap] at h
        rcases h with rfl | ⟨child, hchild, hmem⟩
        · exact .root node
        · exact .child hchild (ih child hchild hmem)
  · intro h
    induction h with
    | root =>
        rw [preorder_eq]
        exact List.mem_cons_self
    | child hchild _ ih =>
        rw [preorder_eq]
        exact List.mem_cons_of_mem _ (List.mem_flatMap.mpr ⟨_, hchild, ih⟩)

end Formula.Node
