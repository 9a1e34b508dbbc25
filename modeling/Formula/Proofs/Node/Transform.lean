import Formula.Proofs.Node.Walk

set_option autoImplicit false

/-! # Transforms are substitutions

A transform exchanges the topmost nodes for which a function gives another one and leaves all else
as it is. `substitute` says so kind by kind. The transform itself rebuilds every node from a list of
new children, which fails in a single case: an update is kept, and its first child is exchanged for
a node that is no index node (`Misfit`). What the function is asked for is told by addresses: the
visits above which nothing is exchanged (`consulted`), and if the transform fails, of these only the
ones up to the update that is refused (`upTo`).

The transform goes through the children one after the other, so its course over all addresses is put
together from those over some of them and over the rest (`Proceeds.bind`).
-/

namespace Formula.Node

open Outcome

section

variable (f : Visit → Option Node)

/-! ## Substitution -/

mutual

/-- The tree at a node met in a given place with the topmost nodes for which `f` gives another one
exchanged for it. -/
def substituteAt (place : Option Nat) (parent : Option Node) (node : Node) : Node :=
  (f ⟨node, place, parent⟩).getD <|
    match node with
    | .constant value => .constant value
    | .symbol name => .symbol name
    | .operator op fn args implicit => .operator op fn (substituteAll node 0 args) implicit
    | .function name args => .function name (substituteAll node 0 args)
    | .array items => .array (substituteAll node 0 items)
    | .assignment name expr => .assignment name (substituteAt (some 0) (some node) expr)
    | .block entries => .block (substituteEntries node 0 entries)
    | .conditional condition whenTrue whenFalse =>
        .conditional (substituteAt (some 0) (some node) condition)
          (substituteAt (some 1) (some node) whenTrue)
          (substituteAt (some 2) (some node) whenFalse)
    | .functionAssignment name params body =>
        .functionAssignment name params (substituteAt (some 0) (some node) body)
    -- the dimensions stand behind the object
    | .index object dimensions =>
        .index (substituteAt (some 0) (some node) object) (substituteAll node 1 dimensions)
    | .range start stop none =>
        .range (substituteAt (some 0) (some node) start) (substituteAt (some 1) (some node) stop)
          none
    | .range start stop (some step) =>
        .range (substituteAt (some 0) (some node) start) (substituteAt (some 1) (some node) stop)
          (some (substituteAt (some 2) (some node) step))
    | .update target expr =>
        .update (substituteAt (some 0) (some node) target)
          (substituteAt (some 1) (some node) expr)

/-- The trees at children from the place `i` on. -/
def substituteAll (parent : Node) (i : Nat) : List Node → List Node
  | [] => []
  | child :: rest =>
      substituteAt (some i) (some parent) child :: substituteAll parent (i + 1) rest

/-- The statements of a block from the place `i` on, each with its flag. -/
def substituteEntries (parent : Node) (i : Nat) : List (Node × Bool) → List (Node × Bool)
  | [] => []
  | (child, shown) :: rest =>
      (substituteAt (some i) (some parent) child, shown) :: substituteEntries parent (i + 1) rest

end

/-- A tree with its topmost nodes for which `f` gives another one exchanged for it. -/
def substitute (node : Node) : Node := substituteAt f none none node

theorem length_substituteAll (parent : Node) (i : Nat) (children : List Node) :
    (substituteAll f parent i children).length = children.length := by
  induction children generalizing i with
  | nil => rw [substituteAll]
  | cons child rest ih => rw [substituteAll, List.length_cons, List.length_cons, ih]

theorem zip_substituteAll (parent : Node) (i : Nat) (entries : List (Node × Bool)) :
    (substituteAll f parent i (entries.map Prod.fst)).zip (entries.map Prod.snd)
      = substituteEntries f parent i entries := by
  induction entries generalizing i with
  | nil => rw [substituteEntries]; exact List.zip_nil_right
  | cons entry rest ih =>
      rw [List.map_cons, List.map_cons, substituteAll, List.zip_cons_cons, ih, substituteEntries]

/-- A node that is kept keeps its kind. -/
theorem kind_substituteAt (place : Option Nat) (parent : Option Node) (node : Node) :
    (substituteAt f place parent node).kind = ((f ⟨node, place, parent⟩).getD node).kind := by
  unfold substituteAt
  cases f ⟨node, place, parent⟩ with
  | some other => rfl
  | none =>
      cases node with
      | range start stop step => cases step <;> rfl
      | _ => rfl

/-- A node that is kept is rebuilt from the trees at its children, unless it is an update and the
first of them is no index node. -/
theorem withChildren_substituteAll {place : Option Nat} {parent : Option Node} {node : Node}
    (hkept : f ⟨node, place, parent⟩ = none) (hfits : ∀ target expr, node = .update target expr →
      (substituteAt f (some 0) (some node) target).kind = .index) :
    node.withChildren (substituteAll f node 0 node.children)
      = .ok (substituteAt f place parent node) := by
  unfold substituteAt
  rw [hkept]
  cases node with
  | constant | symbol => rfl
  | operator op fn args implicit => exact if_pos (length_substituteAll f _ 0 args)
  | function name args => exact if_pos (length_substituteAll f _ 0 args)
  | array items => exact if_pos (length_substituteAll f _ 0 items)
  | assignment | conditional | functionAssignment => rfl
  -- a block keeps its flags, and takes as many nodes as it had
  | block entries =>
      refine (if_pos ?_).trans ?_
      · rw [children, length_substituteAll, List.length_map]
      · rw [children, zip_substituteAll]
        rfl
  | index object dimensions => exact if_pos (length_substituteAll f _ 1 dimensions)
  | range start stop step => cases step <;> rfl
  | update target expr => exact if_pos (hfits target expr rfl)

/-- If nothing is exchanged, the tree is the same. -/
theorem substituteAt_none {node : Node} (hnode : node.Indexed) (place : Option Nat)
    (parent : Option Node) : substituteAt (fun _ => none) place parent node = node := by
  induction node using children_induction generalizing place parent with
  | step node ih =>
      -- no child is exchanged, so the children to rebuild from are the old ones
      have hall : ∀ (children : List Node) (i : Nat), children ⊆ node.children →
          substituteAll (fun _ => none) node i children = children := by
        intro children
        induction children with
        | nil => exact fun i _ => by rw [substituteAll]
        | cons child rest ihrest =>
            intro i h
            obtain ⟨hchild, hrest⟩ := List.cons_subset.mp h
            rw [substituteAll, ih child hchild (hnode.of_mem_children hchild), ihrest (i + 1) hrest]
      have hfits : ∀ target expr, node = .update target expr →
          (substituteAt (fun _ => none) (some 0) (some node) target).kind = .index := by
        rintro target expr rfl
        rw [kind_substituteAt]
        exact hnode target expr (.root _)
      have hrebuilt : node.withChildren (substituteAll (fun _ => none) node 0 node.children)
          = .ok (substituteAt (fun _ => none) place parent node) :=
        withChildren_substituteAll (fun _ => none) rfl hfits
      rw [hall node.children 0 (List.Subset.refl _), withChildren_children hnode] at hrebuilt
      exact (Except.ok.inj hrebuilt).symm

/-! ## What is asked for -/

variable (view : List Nat → Option Visit)

/-- No node above an address is exchanged. `view` tells what a walk sees at an address. -/
def isReached (address : List Nat) : Bool :=
  (List.range address.length).all fun k => ((view (address.take k)).bind f).isNone

/-- The visits at those of several addresses above which no node is exchanged. -/
def consulted (addresses : List (List Nat)) : List Visit :=
  (addresses.filter (isReached f view)).filterMap view

/-- At the address is an update that is reached and kept, while its first child is exchanged for a
node that is no index node. -/
structure Misfit (address : List Nat) (other : Node) : Prop where
  reached : isReached f view address = true
  kept : ∃ visit, view address = some visit ∧ visit.node.kind = .update ∧ f visit = none
  exchanged : (view (address ++ [0])).bind f = some other
  refused : other.kind ≠ .index

/-- Does an address come before another one, or is its node in the tree at the other one? -/
def upTo : List Nat → List Nat → Bool
  | [], _ => true
  | _ :: _, [] => true
  | i :: last, j :: address => decide (j < i) || (j == i && upTo last address)

theorem upTo_nil (last : List Nat) : upTo last [] = true := by
  cases last <;> rfl

theorem upTo_cons_cons (i : Nat) (last address : List Nat) :
    upTo (i :: last) (i :: address) = upTo last address := by
  simp [upTo]

variable {f view}

theorem isReached_cons (i : Nat) (address : List Nat) : isReached f view (i :: address)
    = (((view []).bind f).isNone && isReached f (fun rest => view (i :: rest)) address) := by
  rw [isReached, List.length_cons, List.range_succ_eq_map, List.all_cons, List.all_map]
  rfl

theorem misfit_cons (i : Nat) (address : List Nat) (other : Node) :
    Misfit f view (i :: address) other
      ↔ (view []).bind f = none ∧ Misfit f (fun rest => view (i :: rest)) address other := by
  have hreached : isReached f view (i :: address) = true ↔ (view []).bind f = none
      ∧ isReached f (fun rest => view (i :: rest)) address = true := by
    rw [isReached_cons, Bool.and_eq_true, Option.isNone_iff_eq_none]
  constructor
  · rintro ⟨h, hkept, hexchanged, hrefused⟩
    exact ⟨(hreached.mp h).1, (hreached.mp h).2, hkept, hexchanged, hrefused⟩
  · rintro ⟨hroot, h, hkept, hexchanged, hrefused⟩
    exact ⟨hreached.mpr ⟨hroot, h⟩, hkept, hexchanged, hrefused⟩

/-- Nothing is refused in a tree that is exchanged as a whole. -/
theorem Misfit.root_kept {address : List Nat} {other : Node} (h : Misfit f view address other) :
    (view []).bind f = none := by
  cases address with
  | nil =>
      obtain ⟨visit, hvisit, -, hkept⟩ := h.kept
      rw [hvisit]
      exact hkept
  | cons i rest => exact ((misfit_cons i rest other).mp h).1

theorem consulted_root {visit : Visit} (hroot : view [] = some visit)
    (addresses : List (List Nat)) :
    consulted f view ([] :: addresses) = visit :: consulted f view addresses := by
  have hreached : isReached f view [] = true := rfl
  rw [consulted, List.filter_cons_of_pos hreached, List.filterMap_cons_some hroot]
  rfl

/-- Below a node that is exchanged nothing is asked for. -/
theorem consulted_exchanged {other : Node} (hroot : (view []).bind f = some other)
    {addresses : List (List Nat)} (h : ∀ address ∈ addresses, address ≠ []) :
    consulted f view addresses = [] := by
  have hnone : addresses.filter (isReached f view) = [] := by
    refine List.filter_eq_nil_iff.mpr fun address haddress => ?_
    obtain ⟨i, rest, rfl⟩ := List.exists_cons_of_ne_nil (h address haddress)
    rw [isReached_cons, hroot]
    exact Bool.false_ne_true
  rw [consulted, hnone]
  rfl

theorem consulted_append (addresses later : List (List Nat)) :
    consulted f view (addresses ++ later)
      = consulted f view addresses ++ consulted f view later := by
  rw [consulted, List.filter_append, List.filterMap_append]
  rfl

/-- Below a node that is kept the walk asks for what it would ask for in the child alone. -/
theorem consulted_map_cons (hroot : (view []).bind f = none) (i : Nat)
    (addresses : List (List Nat)) : consulted f view (addresses.map (i :: ·))
      = consulted f (fun rest => view (i :: rest)) addresses := by
  have hreached : isReached f view ∘ (i :: ·) = isReached f fun rest => view (i :: rest) := by
    funext address
    rw [Function.comp_apply, isReached_cons, hroot]
    rfl
  rw [consulted, List.filter_map, List.filterMap_map, hreached]
  rfl

/-! ## The course of a walk -/

/-- A computation asks for all visits at the addresses and gives `after`; or an update misfits at
one of them, and the computation fails at the first one to be rebuilt. -/
def Proceeds {α : Type} (f : Visit → Option Node) (view : List Nat → Option Visit)
    (addresses : List (List Nat)) (x : ExceptT NodeError (StateM (List Visit)) α) (after : α) :
    Prop :=
  ∀ log, ((∀ address ∈ addresses, ∀ other, ¬Misfit f view address other) ∧
      x log = (.ok after, log ++ consulted f view addresses)) ∨
    ∃ last ∈ addresses, ∃ other, Misfit f view last other ∧
      (∀ address ∈ addresses, ∀ other', Misfit f view address other' →
        upTo last address = true → address <+: last) ∧
      x log = (.error (.notIndex other.kind),
        log ++ consulted f view (addresses.filter (upTo last)))

section

variable {α β : Type} {addresses later : List (List Nat)}

theorem proceeds_pure (after : α) : Proceeds f view [] (pure after) after := fun log =>
  Or.inl ⟨List.forall_mem_nil _, congrArg _ (List.append_nil log).symm⟩

/-- The addresses of the second computation come after those of the first one. -/
theorem Proceeds.bind {x : ExceptT NodeError (StateM (List Visit)) α} {after : α}
    {k : α → ExceptT NodeError (StateM (List Visit)) β} {after' : β}
    (hx : Proceeds f view addresses x after) (hk : Proceeds f view later (k after) after')
    (horder : ∀ address ∈ addresses, ∀ address' ∈ later,
      upTo address' address = true ∧ upTo address address' = false) :
    Proceeds f view (addresses ++ later) (x >>= k) after' := by
  intro log
  -- either both computations go through, or one of them fails
  rcases hx log with ⟨hfits, hrun⟩ | ⟨last, hlast, other, hmisfit, hfirst, hrun⟩
  · rw [bind_of_ok hrun]
    rcases hk (log ++ consulted f view addresses) with
      ⟨hfits', hrun'⟩ | ⟨last, hlast, other, hmisfit, hfirst, hrun'⟩
    · refine Or.inl ⟨List.forall_mem_append.mpr ⟨hfits, hfits'⟩, ?_⟩
      rw [hrun', consulted_append, List.append_assoc]
    · refine Or.inr ⟨last, List.mem_append_right _ hlast, other, hmisfit, ?_, ?_⟩
      · exact List.forall_mem_append.mpr
          ⟨fun address h other' hother' => absurd hother' (hfits address h other'), hfirst⟩
      -- the second one fails: all of the first one comes before that
      · have hall : addresses.filter (upTo last) = addresses :=
          List.filter_eq_self.mpr fun address h => (horder address h last hlast).1
        rw [hrun', List.filter_append, hall, consulted_append, List.append_assoc]
  · refine Or.inr ⟨last, List.mem_append_left _ hlast, other, hmisfit, ?_, ?_⟩
    · refine List.forall_mem_append.mpr ⟨hfirst, fun address h other' _ hupTo => ?_⟩
      rw [(horder last hlast address h).2] at hupTo
      cases hupTo
    -- the first one fails: nothing of the second one comes before that
    · have hnone : later.filter (upTo last) = [] :=
        List.filter_eq_nil_iff.mpr fun address h => by simp [(horder last hlast address h).2]
      rw [bind_of_error hrun, List.filter_append, hnone, List.append_nil]

theorem Proceeds.map {x : ExceptT NodeError (StateM (List Visit)) α} {after : α}
    (hx : Proceeds f view addresses x after) (g : α → β) :
    Proceeds f view addresses (x >>= fun a => pure (g a)) (g after) := by
  have h : Proceeds f view (addresses ++ []) (x >>= fun a => pure (g a)) (g after) :=
    hx.bind (proceeds_pure (g after)) fun _ _ _ h => absurd h List.not_mem_nil
  rwa [List.append_nil] at h

/-- A walk over a child alone is one over the addresses in this child. -/
theorem Proceeds.map_cons {i : Nat} {x : ExceptT NodeError (StateM (List Visit)) α} {after : α}
    (hroot : (view []).bind f = none)
    (hx : Proceeds f (fun rest => view (i :: rest)) addresses x after) :
    Proceeds f view (addresses.map (i :: ·)) x after := by
  intro log
  -- addresses in the child are addresses in the tree with the place of the child in front
  rcases hx log with ⟨hfits, hrun⟩ | ⟨last, hlast, other, hmisfit, hfirst, hrun⟩
  · refine Or.inl ⟨List.forall_mem_map.mpr fun address h other hmisfit => ?_, ?_⟩
    · exact hfits address h other ((misfit_cons i address other).mp hmisfit).2
    · rw [hrun, consulted_map_cons hroot]
  · refine Or.inr ⟨i :: last, List.mem_map_of_mem hlast, other,
      (misfit_cons i last other).mpr ⟨hroot, hmisfit⟩, ?_, ?_⟩
    · refine List.forall_mem_map.mpr fun address h other' hmisfit' hupTo => ?_
      rw [upTo_cons_cons] at hupTo
      exact (List.prefix_cons_inj i).mpr
        (hfirst address h other' ((misfit_cons i address other').mp hmisfit').2 hupTo)
    · have hupTo : upTo (i :: last) ∘ (i :: ·) = upTo last :=
        funext fun address => upTo_cons_cons i last address
      rw [hrun, List.filter_map, hupTo, consulted_map_cons hroot]

end

/-! ## The course of a transform -/

/-- The callback that exchanges nodes as `f` says and notes the visits that it is called for. -/
def consulting (f : Visit → Option Node) (visit : Visit) :
    ExceptT NodeError (StateM (List Visit)) (Option Node) := fun log =>
  (.ok (f visit), log ++ [visit])

theorem consulting_of_eq {visit : Visit} {reply : Option Node} (h : f visit = reply)
    (log : List Visit) : consulting f visit log = (.ok reply, log ++ [visit]) := by
  rw [consulting, h]

section

variable {place : Option Nat} {parent : Option Node} {node : Node} {log log' : List Visit}

theorem transformAt_of_some {other : Node} (h : f ⟨node, place, parent⟩ = some other) :
    transformAt throw (consulting f) place parent node log
      = (.ok other, log ++ [⟨node, place, parent⟩]) := by
  rw [transformAt, bind_of_ok (consulting_of_eq h log)]
  rfl

/-- A node that is kept is rebuilt from its new children, which may fail. -/
theorem transformAt_of_none (h : f ⟨node, place, parent⟩ = none) {children : List Node}
    (hchildren : transformAll throw (consulting f) node 0 node.children
      (log ++ [⟨node, place, parent⟩]) = (.ok children, log')) :
    transformAt throw (consulting f) place parent node log
      = (node.withChildren children, log') := by
  rw [transformAt, bind_of_ok (consulting_of_eq h log)]
  refine (bind_of_ok hchildren _).trans ?_
  cases node.withChildren children <;> rfl

theorem transformAt_of_error (h : f ⟨node, place, parent⟩ = none) {fault : NodeError}
    (hchildren : transformAll throw (consulting f) node 0 node.children
      (log ++ [⟨node, place, parent⟩]) = (.error fault, log')) :
    transformAt throw (consulting f) place parent node log = (.error fault, log') := by
  rw [transformAt, bind_of_ok (consulting_of_eq h log)]
  exact bind_of_error hchildren _

end

/-- Children are transformed one after the other. -/
theorem transformAll_proceeds {place : Option Nat} {parent : Option Node} {node : Node}
    (hkept : f ⟨node, place, parent⟩ = none) {children : List Node} (i : Nat)
    (hplaces : ∀ c ∈ children.zipIdx i, node.children[c.2]? = some c.1)
    (h : ∀ child ∈ children, ∀ place parent, Proceeds f (visitFrom? place parent child)
      child.addresses (transformAt throw (consulting f) place parent child)
      (substituteAt f place parent child)) :
    Proceeds f (visitFrom? place parent node) (addressesAll i children)
      (transformAll throw (consulting f) node i children) (substituteAll f node i children) := by
  induction children generalizing i with
  | nil =>
      rw [addressesAll, transformAll, substituteAll]
      exact proceeds_pure []
  | cons child rest ih =>
      rw [List.zipIdx_cons, List.forall_mem_cons] at hplaces
      obtain ⟨hplace, hplaces⟩ := hplaces
      obtain ⟨hchild, hrest⟩ := List.forall_mem_cons.mp h
      have hview : visitFrom? (some i) (some node) child
          = fun address => visitFrom? place parent node (i :: address) := by
        funext address
        rw [visitFrom?, hplace, Option.bind_some]
      have hroot : (visitFrom? place parent node []).bind f = none := hkept
      have hfirst := hchild (some i) (some node)
      rw [hview] at hfirst
      rw [addressesAll, transformAll, substituteAll]
      -- the addresses in the first child come before those in the rest
      refine (hfirst.map_cons hroot).bind ((ih (i + 1) hplaces hrest).map _) ?_
      intro address haddress address' haddress'
      obtain ⟨p, -, rfl⟩ := List.mem_map.mp haddress
      obtain ⟨j, q, rfl, hj⟩ := exists_of_mem_addressesAll haddress'
      have hlt : i < j := hj
      have hback : ¬j < i ∧ j ≠ i := ⟨Nat.lt_asymm hlt, Nat.ne_of_gt hlt⟩
      exact ⟨by simp [upTo, hlt], by simp [upTo, hback]⟩

/-- A node that is exchanged is asked for, and nothing below it. -/
theorem exchanged_proceeds {place : Option Nat} {parent : Option Node} {node other : Node}
    (h : f ⟨node, place, parent⟩ = some other) :
    Proceeds f (visitFrom? place parent node) node.addresses
      (transformAt throw (consulting f) place parent node) (substituteAt f place parent node) := by
  intro log
  have hroot : (visitFrom? place parent node []).bind f = some other := h
  have hbelow : ∀ address ∈ addressesAll 0 node.children, address ≠ [] := by
    intro address haddress
    obtain ⟨j, rest, rfl, -⟩ := exists_of_mem_addressesAll haddress
    exact List.cons_ne_nil j rest
  refine Or.inl ⟨fun address _ other' hmisfit => ?_, ?_⟩
  -- there is no misfit at or below a node that is exchanged
  · have hkept := hmisfit.root_kept
    rw [hroot] at hkept
    cases hkept
  · have hother : substituteAt f place parent node = other := by
      unfold substituteAt
      rw [h]
      rfl
    rw [transformAt_of_some h, hother, addresses, consulted_root rfl,
      consulted_exchanged hroot hbelow]

/-- If the first child of an update is no index node afterwards, it has been exchanged. -/
theorem exists_misfit {place : Option Nat} {parent : Option Node} {target expr : Node}
    (htarget : target.kind = .index) (hkept : f ⟨.update target expr, place, parent⟩ = none)
    (hkind : (substituteAt f (some 0) (some (.update target expr)) target).kind ≠ .index) :
    ∃ other, Misfit f (visitFrom? place parent (.update target expr)) [] other ∧
      (substituteAt f (some 0) (some (.update target expr)) target).kind = other.kind := by
  rw [kind_substituteAt] at hkind ⊢
  cases hf : f ⟨target, some 0, some (.update target expr)⟩ with
  | none =>
      rw [hf] at hkind
      exact absurd htarget hkind
  | some other =>
      rw [hf] at hkind
      exact ⟨other, ⟨rfl, ⟨_, rfl, rfl, hkept⟩, hf, hkind⟩, rfl⟩

/-- If the root misfits, it is an update whose first child is no index node afterwards. -/
theorem kind_of_misfit {place : Option Nat} {parent : Option Node} {node other : Node}
    (h : Misfit f (visitFrom? place parent node) [] other) : ∃ target expr,
      node = .update target expr ∧ (substituteAt f (some 0) (some node) target).kind ≠ .index := by
  obtain ⟨visit, hvisit, hupdate, -⟩ := h.kept
  cases hvisit
  cases node with
  | update target expr =>
      have hexchanged : f ⟨target, some 0, some (.update target expr)⟩ = some other := h.exchanged
      refine ⟨target, expr, rfl, ?_⟩
      rw [kind_substituteAt, hexchanged]
      exact h.refused
  | _ => cases hupdate

/-- A node that is kept is asked for before its children and rebuilt after them. -/
theorem kept_proceeds {place : Option Nat} {parent : Option Node} {node : Node}
    (hnode : node.Indexed) (h : f ⟨node, place, parent⟩ = none)
    (hchildren : Proceeds f (visitFrom? place parent node) (addressesAll 0 node.children)
      (transformAll throw (consulting f) node 0 node.children)
      (substituteAll f node 0 node.children)) :
    Proceeds f (visitFrom? place parent node) node.addresses
      (transformAt throw (consulting f) place parent node) (substituteAt f place parent node) := by
  intro log
  rw [addresses]
  rcases hchildren (log ++ [⟨node, place, parent⟩]) with
    ⟨hfits, hrun⟩ | ⟨last, hlast, other, hmisfit, hfirst, hrun⟩
  · rw [transformAt_of_none h hrun]
    -- all children are there, so that only the kind of an update's first child matters
    by_cases hindex : ∀ target expr, node = .update target expr →
        (substituteAt f (some 0) (some node) target).kind = .index
    · refine Or.inl ⟨List.forall_mem_cons.mpr ⟨fun other hmisfit => ?_, hfits⟩, ?_⟩
      · obtain ⟨target, expr, heq, hkind⟩ := kind_of_misfit hmisfit
        exact hkind (hindex target expr heq)
      · rw [withChildren_substituteAll f h hindex, consulted_root rfl, ← List.append_cons]
    · push Not at hindex
      obtain ⟨target, expr, rfl, hkind⟩ := hindex
      obtain ⟨other, hmisfit, hother⟩ := exists_misfit (hnode target expr (.root _)) h hkind
      -- the root is the last node to be rebuilt, and everything has been asked for
      refine Or.inr ⟨[], List.mem_cons_self, other, hmisfit, ?_, ?_⟩
      · exact List.forall_mem_cons.mpr ⟨fun _ _ _ => List.prefix_refl [],
          fun address haddress other' hmisfit' => absurd hmisfit' (hfits address haddress other')⟩
      · have hrefused : withChildren (.update target expr)
            (substituteAll f (.update target expr) 0 (children (.update target expr)))
              = .error (.notIndex other.kind) := by
          rw [← hother]
          exact if_neg hkind
        have hall (addresses : List (List Nat)) : addresses.filter (upTo []) = addresses :=
          List.filter_eq_self.mpr fun _ _ => rfl
        rw [hrefused, hall, consulted_root rfl, ← List.append_cons]
  · refine Or.inr ⟨last, List.mem_cons_of_mem _ hlast, other, hmisfit, ?_, ?_⟩
    · exact List.forall_mem_cons.mpr ⟨fun _ _ _ => List.nil_prefix, hfirst⟩
    · rw [transformAt_of_error h hrun, List.filter_cons_of_pos (upTo_nil last),
        consulted_root rfl, ← List.append_cons]

/-- A transform gives the tree with the nodes exchanged, or fails at the first update that misfits.
The induction is on the tree. -/
theorem transformAt_proceeds {node : Node} (hnode : node.Indexed) (place : Option Nat)
    (parent : Option Node) : Proceeds f (visitFrom? place parent node) node.addresses
      (transformAt throw (consulting f) place parent node) (substituteAt f place parent node) := by
  induction node using children_induction generalizing place parent with
  | step node ih =>
      cases h : f ⟨node, place, parent⟩ with
      | some other => exact exchanged_proceeds h
      | none =>
          refine kept_proceeds hnode h (transformAll_proceeds h 0 ?_ ?_)
          · exact fun c hc => List.mem_zipIdx_iff_getElem?.mp hc
          · exact fun child hchild => ih child hchild (hnode.of_mem_children hchild)

theorem Misfit.mem_addresses {node other : Node} {address : List Nat}
    (h : Misfit f node.visit? address other) : address ∈ node.addresses := by
  obtain ⟨visit, hvisit, -⟩ := h.kept
  obtain ⟨found, hfound, -⟩ := Option.map_eq_some_iff.mp hvisit
  exact (Node.mem_addresses node address).mpr (Option.isSome_iff_exists.mpr ⟨found, hfound⟩)

theorem not_misfit_of_none (address : List Nat) (other : Node) :
    ¬Misfit (fun _ => none) view address other := by
  intro h
  have hexchanged := h.exchanged
  rw [Option.bind_fun_none] at hexchanged
  cases hexchanged

/-- If nothing is exchanged, the whole tree is asked for. -/
theorem consulted_none (node : Node) :
    consulted (fun _ => none) node.visit? node.addresses = node.visits := by
  have hreached : node.addresses.filter (isReached (fun _ => none) node.visit?)
      = node.addresses := by
    refine List.filter_eq_self.mpr fun address _ => List.all_eq_true.mpr fun k _ => ?_
    rw [Option.bind_fun_none]
    rfl
  rw [consulted, hreached, ← Function.id_comp node.visit?, ← List.filterMap_map,
    ← map_some_visits, List.filterMap_map]
  exact List.filterMap_some

end

/-- A transform asks for the visits above which no node is exchanged, in the order of a walk, and
gives the tree with the topmost nodes exchanged. It fails exactly if there is an update that is
reached and kept while its first child is exchanged for another kind of node: namely at the first of
them to be rebuilt, when it has asked for nothing that comes after this update. If nothing is to be
exchanged, the tree is the same. -/
theorem transform_substitutes {node : Node} (hnode : node.Indexed) (f : Visit → Option Node) :
    let run := node.transform throw (consulting f) []
    node.visits.map some = node.addresses.map node.visit? ∧
      ((∀ address other, ¬Misfit f node.visit? address other) →
        run = (.ok (node.substitute f), consulted f node.visit? node.addresses)) ∧
      (∀ address other, Misfit f node.visit? address other →
        ∃ first other', Misfit f node.visit? first other' ∧
          (∀ address other, Misfit f node.visit? address other → upTo first address = true →
            address <+: first) ∧
          run = (.error (.notIndex other'.kind),
            consulted f node.visit? (node.addresses.filter (upTo first))) ∧
          (NodeError.notIndex other'.kind).identifier = "MathTree:InvalidChild") ∧
      ((∀ visit, f visit = none) → run = (.ok node, node.visits)) := by
  intro run
  -- the walk over the whole tree either goes through or fails at a first misfit
  have hview : visitFrom? none none node = node.visit? := funext (visitFrom?_root node)
  have hrun := transformAt_proceeds (f := f) hnode none none []
  rw [hview, List.nil_append] at hrun
  have hok (hfits : ∀ address other, ¬Misfit f node.visit? address other) :
      run = (.ok (node.substitute f), consulted f node.visit? node.addresses) := by
    rcases hrun with ⟨-, hrun⟩ | ⟨first, -, other, hmisfit, -⟩
    · exact hrun
    · exact absurd hmisfit (hfits first other)
  refine ⟨map_some_visits node, hok, fun address other hmisfit => ?_, fun hnone => ?_⟩
  · rcases hrun with ⟨hfits, -⟩ | ⟨first, -, other', hmisfit', hfirst, hrun⟩
    · exact absurd hmisfit (hfits address hmisfit.mem_addresses other)
    · exact ⟨first, other', hmisfit',
        fun address other h => hfirst address h.mem_addresses other h, hrun, rfl⟩
  · obtain rfl : f = fun _ => none := funext hnone
    rw [hok not_misfit_of_none, consulted_none, substitute, substituteAt_none hnode]

/-- The right side of an update can be exchanged for a symbol, its left side cannot. -/
theorem transform_substitutes_sides :
    let target := Node.index (.symbol "A") []
    let node := Node.update target (.symbol "b")
    let side (i : Nat) (visit : Visit) : Option Node :=
      if visit.index = some i then some (.symbol "c") else none
    node.Indexed ∧ (∀ address other, ¬Misfit (side 1) node.visit? address other) ∧
      (node.transform throw (consulting (side 1)) []).1 = .ok (.update target (.symbol "c")) ∧
      Misfit (side 0) node.visit? [] (.symbol "c") ∧
      (node.transform throw (consulting (side 0)) []).1 = .error (.notIndex .symbol) ∧
      node.transform throw (consulting fun _ => none) [] = (.ok node, node.visits) := by
  intro target node side
  have hnode : node.Indexed := indexed_update_symbols "A" "b"
  -- one child is exchanged for the symbol, all else is kept
  have hside {i : Nat} {visit : Visit} {other : Node} (h : side i visit = some other) :
      visit.index = some i ∧ other = .symbol "c" := by
    rcases Decidable.em (visit.index = some i) with hindex | hindex
    · rw [show side i visit = some (.symbol "c") from if_pos hindex] at h
      exact ⟨hindex, (Option.some.inj h).symm⟩
    · rw [show side i visit = none from if_neg hindex] at h
      cases h
  have hfits : ∀ address other, ¬Misfit (side 1) node.visit? address other := by
    intro address other h
    obtain ⟨visit, hvisit, hother⟩ := Option.bind_eq_some_iff.mp h.exchanged
    obtain ⟨found, -, rfl⟩ := Option.map_eq_some_iff.mp hvisit
    have hindex := (hside hother).1
    rw [List.getLast?_concat] at hindex
    cases hindex
  have hmisfit : Misfit (side 0) node.visit? [] (.symbol "c") :=
    ⟨rfl, ⟨_, rfl, rfl, rfl⟩, rfl, by decide⟩
  obtain ⟨-, hright, -⟩ := transform_substitutes hnode (side 1)
  obtain ⟨-, -, hleft, -⟩ := transform_substitutes hnode (side 0)
  obtain ⟨-, -, -, hsame⟩ := transform_substitutes hnode fun _ => none
  refine ⟨hnode, hfits, ?_, hmisfit, ?_, hsame fun _ => rfl⟩
  · rw [hright hfits]
    rfl
  · obtain ⟨first, other, hother, -, hrun, -⟩ := hleft [] _ hmisfit
    obtain ⟨visit, -, hexchanged⟩ := Option.bind_eq_some_iff.mp hother.exchanged
    obtain ⟨-, rfl⟩ := hside hexchanged
    rw [hrun]
    rfl

end Formula.Node
