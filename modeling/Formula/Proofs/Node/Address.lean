import Formula.Proofs.Node.Preorder
import Mathlib.Data.List.Basic

set_option autoImplicit false

/-! # Addresses of nodes

Equal nodes may stand at several places of a tree, so a node of a tree is told by its address: the
places of the children to go through, from the root on. A walk meets the addresses in the order in
which a dictionary lists words, each of them once (`pairwise_addresses`, `mem_addresses`), and what
it sees there is the node, its last place and the node at the address without this place
(`map_some_visits`).
-/

namespace Formula.Node

/-- The node at an address. -/
def lookup? : Node → List Nat → Option Node
  | node, [] => some node
  | node, i :: rest => node.children[i]?.bind fun child => lookup? child rest

/-- The visit of the node at an address. The root has neither a place nor a parent. -/
def visit? (node : Node) (address : List Nat) : Option Visit :=
  (node.lookup? address).map fun other =>
    ⟨other, address.getLast?, if address = [] then none else node.lookup? address.dropLast⟩

mutual

/-- The addresses of a tree in the order of a walk. -/
def addresses (node : Node) : List (List Nat) := [] :: addressesAll 0 node.children
termination_by (node.count, 0)
decreasing_by exact Prod.Lex.left _ _ (countAll_children_lt node)

/-- The addresses in children from the place `i` on. -/
def addressesAll (i : Nat) : List Node → List (List Nat)
  | [] => []
  | child :: rest => (addresses child).map (i :: ·) ++ addressesAll (i + 1) rest
termination_by children => (countAll children, 1)
decreasing_by
  all_goals simp only [Prod.lex_def, countAll]
  all_goals have := count_pos child
  all_goals omega

end

theorem addressesAll_eq_flatMap (i : Nat) (children : List Node) :
    addressesAll i children
      = (children.zipIdx i).flatMap fun c => c.1.addresses.map (c.2 :: ·) := by
  induction children generalizing i with
  | nil => rw [addressesAll]; rfl
  | cons child rest ih => rw [addressesAll, ih, List.zipIdx_cons, List.flatMap_cons]

theorem exists_of_mem_addressesAll {i : Nat} {children : List Node} {address : List Nat}
    (h : address ∈ addressesAll i children) : ∃ j rest, address = j :: rest ∧ i ≤ j := by
  rw [addressesAll_eq_flatMap] at h
  obtain ⟨c, hc, h⟩ := List.mem_flatMap.mp h
  obtain ⟨rest, -, rfl⟩ := List.mem_map.mp h
  exact ⟨c.2, rest, rfl, (List.mem_zipIdx hc).1⟩

/-- The root comes first, then the addresses in one child after the other. -/
theorem addresses_eq (node : Node) :
    node.addresses = [] :: node.children.zipIdx.flatMap fun c => c.1.addresses.map (c.2 :: ·) := by
  rw [addresses, addressesAll_eq_flatMap]

/-- The addresses listed are those at which there is a node. -/
theorem mem_addresses (node : Node) (address : List Nat) :
    address ∈ node.addresses ↔ (node.lookup? address).isSome = true := by
  induction address generalizing node with
  | nil =>
      rw [addresses_eq]
      exact iff_of_true List.mem_cons_self rfl
  | cons i rest ih =>
      rw [addresses_eq, List.mem_cons, lookup?]
      -- the first index leads to a child, and the rest of the address leads on from there
      constructor
      · rintro (h | h)
        · cases h
        · obtain ⟨⟨child, j⟩, hchild, h⟩ := List.mem_flatMap.mp h
          obtain ⟨rest', hrest, heq⟩ := List.mem_map.mp h
          cases heq
          rw [List.mem_zipIdx_iff_getElem?.mp hchild, Option.bind_some]
          exact (ih child).mp hrest
      · intro h
        obtain ⟨other, hother⟩ := Option.isSome_iff_exists.mp h
        obtain ⟨child, hchild, hrest⟩ := Option.bind_eq_some_iff.mp hother
        refine Or.inr (List.mem_flatMap.mpr ⟨(child, i), ?_, List.mem_map_of_mem ?_⟩)
        · exact List.mem_zipIdx_iff_getElem?.mpr hchild
        · exact (ih child).mpr (Option.isSome_iff_exists.mpr ⟨other, hrest⟩)

/-- The addresses are listed as in a dictionary, so none of them is listed twice. -/
theorem pairwise_addresses (node : Node) :
    node.addresses.Pairwise (List.Lex (· < ·)) := by
  induction node using children_induction with
  | step node ih =>
      rw [addresses_eq, List.pairwise_cons, List.pairwise_flatMap]
      -- the root comes first, then the addresses within each child, child after child
      refine ⟨fun address h => ?_, fun c hc => ?_, ?_⟩
      · obtain ⟨c, -, h⟩ := List.mem_flatMap.mp h
        obtain ⟨rest, -, rfl⟩ := List.mem_map.mp h
        exact .nil
      · have hchild : c.1 ∈ node.children :=
          List.mem_of_getElem? (List.mem_zipIdx_iff_getElem?.mp hc)
        rw [List.pairwise_map]
        exact (ih c.1 hchild).imp fun h => .cons h
      · have hplaces : node.children.zipIdx.Pairwise fun c c' => c.2 < c'.2 := by
          have hrange : (List.range' 0 node.children.length).Pairwise (· < ·) :=
            List.pairwise_lt_range'
          rwa [← List.zipIdx_map_snd, List.pairwise_map] at hrange
        refine hplaces.imp fun hlt address h address' h' => ?_
        obtain ⟨rest, -, rfl⟩ := List.mem_map.mp h
        obtain ⟨rest', -, rfl⟩ := List.mem_map.mp h'
        exact .rel hlt

/-! ## Visits -/

/-- The visit at an address in a tree that is met in a given place itself. -/
def visitFrom? : Option Nat → Option Node → Node → List Nat → Option Visit
  | place, parent, node, [] => some ⟨node, place, parent⟩
  | _, _, node, i :: rest =>
      node.children[i]?.bind fun child => visitFrom? (some i) (some node) child rest

theorem visitFrom?_eq (index : Option Nat) (parent : Option Node) (node : Node)
    (address : List Nat) :
    visitFrom? index parent node address = (node.lookup? address).map fun other =>
      ⟨other, address.getLast?.or index,
        if address = [] then parent else node.lookup? address.dropLast⟩ := by
  induction address generalizing index parent node with
  | nil => rfl
  | cons i rest ih =>
      rw [visitFrom?, lookup?]
      cases hchild : node.children[i]? with
      | none => rfl
      | some child =>
          rw [Option.bind_some, Option.bind_some, ih]
          cases rest with
          | nil => rfl
          | cons j rest' => simp [lookup?, hchild, List.getLast?_cons]

/-- In a tree on its own the root has neither a place nor a parent. -/
theorem visitFrom?_root (node : Node) (address : List Nat) :
    visitFrom? none none node address = node.visit? address := by
  rw [visitFrom?_eq, visit?]
  simp only [Option.or_none]

theorem visitsAll_eq_flatMap (parent : Node) (i : Nat) (children : List Node) :
    visitsAll parent i children
      = (children.zipIdx i).flatMap fun c => visitsAt (some c.2) (some parent) c.1 := by
  induction children generalizing i with
  | nil => rw [visitsAll]; rfl
  | cons child rest ih => rw [visitsAll, ih, List.zipIdx_cons, List.flatMap_cons]

theorem map_some_visitsAt (index : Option Nat) (parent : Option Node) (node : Node) :
    (visitsAt index parent node).map some = node.addresses.map (visitFrom? index parent node) := by
  induction node using children_induction generalizing index parent with
  | step node ih =>
      rw [visitsAt, addresses_eq, List.map_cons, List.map_cons, visitsAll_eq_flatMap,
        List.map_flatMap, List.map_flatMap]
      refine congrArg _ (List.flatMap_congr fun c hc => ?_)
      have hchild : node.children[c.2]? = some c.1 := List.mem_zipIdx_iff_getElem?.mp hc
      rw [ih c.1 (List.mem_of_getElem? hchild), List.map_map]
      refine List.map_congr_left fun address _ => ?_
      show _ = visitFrom? index parent node (c.2 :: address)
      rw [visitFrom?, hchild, Option.bind_some]

/-- The visits of a tree are those at its addresses. -/
theorem map_some_visits (node : Node) : node.visits.map some = node.addresses.map node.visit? := by
  rw [visits, map_some_visitsAt]
  exact List.map_congr_left fun address _ => visitFrom?_root node address

end Formula.Node
