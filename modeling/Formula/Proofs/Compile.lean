import Formula.Compile
import Formula.Proofs.Node.Preorder

set_option autoImplicit false

/-! # Which error compiling gives

Every node has a check of its own, which does not look at the nodes below it: `Fails` lists the
ways in which a node can fail it. Compiling a tree gives the error of the first node in the order
of a walk that fails its check, and succeeds if there is none. A compilation of a part is
described by the error with which it stops, whatever was reported before (`Stops`), and stops like
the nodes of the part.
-/

namespace Formula

/-! ## Checks -/

namespace Node

/-- Somewhere in a tree a value or a function is assigned to a name. -/
def Assigns (tree : Node) (name : String) : Prop :=
  ∃ node, Within node tree ∧
    ((∃ expr, node = .assignment name expr) ∨
      ∃ params body, node = .functionAssignment name params body)

/-- Why a name cannot be called with a number of arguments: there is no entry, or its arity does
not accept so many. -/
inductive Unresolved (entries : Namespace) (name : String) (count : Nat) : CompileError → Prop where
  | undefined (h : entries.find? name = none) :
      Unresolved entries name count (.undefinedFunction name)
  | arguments {entry : Entry} (h : entries.find? name = some entry)
      (hcount : entry.arity.accepts count = false) :
      Unresolved entries name count (.argumentCount name entry.arity count)

/-- Why a node of a tree fails its check: an operator or a function that the tree does not assign
to cannot be called, or an update does not change a part of a variable. -/
inductive Fails (entries : Namespace) (tree : Node) : Node → CompileError → Prop where
  | operator {op fn : String} {args : List Node} {implicit : Bool} {error : CompileError}
      (h : Unresolved entries fn args.length error) :
      Fails entries tree (.operator op fn args implicit) error
  | function {name : String} {args : List Node} {error : CompileError}
      (hname : ¬tree.Assigns name) (h : Unresolved entries name args.length error) :
      Fails entries tree (.function name args) error
  | object {object expr : Node} {dimensions : List Node} (h : object.kind ≠ .symbol) :
      Fails entries tree (.update (.index object dimensions) expr) (.node (.notSymbol object.kind))
  | target {target expr : Node} (h : target.kind ≠ .index) :
      Fails entries tree (.update target expr) (.node (.notIndex target.kind))

theorem mem_locals_iff (tree : Node) (name : String) :
    name ∈ tree.locals ↔ tree.Assigns name := by
  have hnode : ∀ node : Node, node.assignedName? = some name ↔
      ((∃ expr, node = .assignment name expr) ∨
        ∃ params body, node = .functionAssignment name params body) := by
    intro node
    cases node <;> simp [assignedName?, eq_comm]
  simp only [locals, List.mem_filterMap, hnode, Assigns, ← mem_preorder_iff,
    ← visits_map_eq_preorder, List.mem_map]
  constructor
  · rintro ⟨visit, hvisit, h⟩
    exact ⟨visit.node, ⟨visit, hvisit, rfl⟩, h⟩
  · rintro ⟨node, ⟨visit, hvisit, rfl⟩, h⟩
    exact ⟨visit, hvisit, h⟩

end Node

/-! ## How a compilation stops -/

namespace Compiler

/-- The error of an outcome. -/
def error? {α : Type} : Except CompileError α → Option CompileError
  | .ok _ => none
  | .error error => some error

/-- A compilation stops with an error, or does not stop, whatever has been reported. -/
def Stops {α : Type} (c : Compiler α) (error : Option CompileError) : Prop :=
  ∀ events, error? (c.run events).1 = error

/-- The error of the first node that fails its check. -/
def fault (entries : Namespace) (locals : List String) : Node → Option CompileError
  | .operator _ fn args _ => error? (resolve entries fn args.length)
  | .function name args =>
      if locals.contains name then none else error? (resolve entries name args.length)
  | .update (.index (.symbol _) _) _ => none
  | .update (.index object _) _ => some (.node (.notSymbol object.kind))
  | .update target _ => some (.node (.notIndex target.kind))
  | _ => none

section stops

variable {α β : Type}

theorem stops_pure (a : α) : Stops (pure a) none := fun _ => rfl

theorem stops_throw (error : CompileError) : Stops (throw error : Compiler α) (some error) :=
  fun _ => rfl

theorem stops_liftExcept (outcome : Except CompileError α) :
    Stops (liftExcept outcome : Compiler α) (error? outcome) := by
  intro events
  cases outcome <;> rfl

theorem stops_report (event : Event) : Stops (report event) none := fun _ => rfl

/-- Two compilations one after the other stop with the error of the first, else of the second. -/
theorem stops_bind {c : Compiler α} {f : α → Compiler β} {error error' : Option CompileError}
    (hc : Stops c error) (hf : ∀ a, Stops (f a) error') : Stops (c >>= f) (error.or error') := by
  intro events
  have hfirst := hc events
  have hrun : (c >>= f).run events = ExceptT.bindCont f (c.run events).1 (c.run events).2 := rfl
  rw [hrun]
  cases houtcome : (c.run events).1 with
  | ok a =>
      rw [houtcome] at hfirst
      rw [← hfirst]
      exact hf a (c.run events).2
  | error e =>
      rw [houtcome] at hfirst
      rw [← hfirst]
      rfl

/-- What is done with the answer does not stop a compilation. -/
theorem stops_bind_pure {c : Compiler α} {f : α → β} {error : Option CompileError}
    (hc : Stops c error) : Stops (c >>= fun a => pure (f a)) error := by
  have hboth := stops_bind hc fun a => stops_pure (f a)
  rwa [Option.or_none] at hboth

end stops

/-! ## Parts stop like their nodes -/

section parts

variable (entries : Namespace) (locals : List String)

/-- The error of the first of several nodes that fails its check. -/
def firstFault (nodes : List Node) : Option CompileError := nodes.findSome? (fault entries locals)

theorem firstFault_cons (node : Node) (nodes : List Node) :
    firstFault entries locals (node :: nodes)
      = (fault entries locals node).or (firstFault entries locals nodes) := by
  rw [firstFault, List.findSome?_cons]
  cases fault entries locals node <;> rfl

theorem firstFault_append (nodes later : List Node) :
    firstFault entries locals (nodes ++ later)
      = (firstFault entries locals nodes).or (firstFault entries locals later) :=
  List.findSome?_append

theorem firstFault_preorder (node : Node) :
    firstFault entries locals node.preorder
      = (fault entries locals node).or
        (firstFault entries locals (node.children.flatMap Node.preorder)) := by
  rw [Node.preorder_eq, firstFault_cons]

theorem firstFault_flatMap_cons (first : Node) (rest : List Node) :
    firstFault entries locals ((first :: rest).flatMap Node.preorder)
      = (firstFault entries locals first.preorder).or
        (firstFault entries locals (rest.flatMap Node.preorder)) := by
  rw [List.flatMap_cons, firstFault_append]

theorem error?_callee (name : String) (count : Nat) :
    error? (callee entries locals name count)
      = if locals.contains name then none else error? (resolve entries name count) := by
  rw [callee]
  split
  · rfl
  · cases resolve entries name count <;> rfl

/-- A node without a check is as good as its children. -/
theorem firstFault_unchecked (node : Node) (h : fault entries locals node = none) :
    firstFault entries locals node.preorder
      = firstFault entries locals (node.children.flatMap Node.preorder) := by
  rw [firstFault_preorder, h, Option.none_or]

theorem firstFault_flatMap_singleton (child : Node) :
    firstFault entries locals ([child].flatMap Node.preorder)
      = firstFault entries locals child.preorder := by
  rw [List.flatMap_singleton]

theorem eq_index_of_kind {target : Node} (h : target.kind = .index) :
    ∃ object dimensions, target = .index object dimensions := by
  cases target with
  | index object dimensions => exact ⟨object, dimensions, rfl⟩
  | _ => cases h

/-- An update can be of an element of a variable, of an element of something else, or of something
that is no element. Only the first can be compiled. -/
theorem target_cases (target : Node) :
    (∃ name dimensions, target = .index (.symbol name) dimensions) ∨
      (∃ object dimensions, target = .index object dimensions ∧ object.kind ≠ .symbol) ∨
      target.kind ≠ .index := by
  cases target with
  | index object dimensions =>
      cases object with
      | symbol name => exact .inl ⟨name, dimensions, rfl⟩
      | _ => exact .inr (.inl ⟨_, dimensions, rfl, nofun⟩)
  | _ => exact .inr (.inr nofun)

theorem fault_object {object expr : Node} {dimensions : List Node} (h : object.kind ≠ .symbol) :
    fault entries locals (.update (.index object dimensions) expr)
      = some (.node (.notSymbol object.kind)) := by
  cases object <;> first | rfl | exact absurd rfl h

theorem fault_target {target expr : Node} (h : target.kind ≠ .index) :
    fault entries locals (.update target expr) = some (.node (.notIndex target.kind)) := by
  cases target <;> first | rfl | exact absurd rfl h

theorem node_object {object expr : Node} {dimensions : List Node} (h : object.kind ≠ .symbol) :
    node entries locals (.update (.index object dimensions) expr)
      = throw (.node (.notSymbol object.kind)) := by
  cases object <;> first | rfl | exact absurd rfl h

theorem node_target {target expr : Node} (h : target.kind ≠ .index) :
    node entries locals (.update target expr) = throw (.node (.notIndex target.kind)) := by
  cases target <;> first | rfl | exact absurd rfl h

/-- An update stops by its own check, else like the dimensions and the expression. -/
theorem update_stops {target expr : Node}
    (hdimensions : ∀ name dimensions, target = .index (.symbol name) dimensions →
      Stops (nodes entries locals dimensions)
        (firstFault entries locals (dimensions.flatMap Node.preorder)))
    (hexpr : Stops (node entries locals expr) (firstFault entries locals expr.preorder)) :
    Stops (node entries locals (.update target expr))
      (firstFault entries locals (Node.update target expr).preorder) := by
  rw [firstFault_preorder]
  obtain ⟨name, dimensions, rfl⟩ | ⟨object, dimensions, rfl, hsymbol⟩ | hindex :=
    target_cases target
  · -- neither the index node nor its symbol has anything to check
    have hindex : firstFault entries locals (Node.index (.symbol name) dimensions).preorder
        = firstFault entries locals (dimensions.flatMap Node.preorder) := by
      rw [firstFault_preorder]
      show Option.or none
        (firstFault entries locals ((Node.symbol name :: dimensions).flatMap _)) = _
      rw [firstFault_flatMap_cons, firstFault_preorder]
      rfl
    show Stops _ (Option.or none (firstFault entries locals ([_, expr].flatMap Node.preorder)))
    rw [Option.none_or, firstFault_flatMap_cons, firstFault_flatMap_cons, hindex, node]
    refine stops_bind (hdimensions name dimensions rfl) fun _ => ?_
    exact stops_bind hexpr fun _ => stops_pure _
  · rw [node_object entries locals hsymbol, fault_object entries locals hsymbol]
    exact stops_throw _
  · rw [node_target entries locals hindex, fault_target entries locals hindex]
    exact stops_throw _

mutual

/-- Compiling a tree stops with the error of its first node that fails its check. -/
theorem node_stops (tree : Node) :
    Stops (node entries locals tree) (firstFault entries locals tree.preorder) := by
  match tree with
  | .constant value =>
      rw [firstFault_unchecked entries locals _ rfl]
      exact stops_pure _
  | .symbol name =>
      rw [firstFault_unchecked entries locals _ rfl]
      exact stops_pure _
  | .operator op fn args implicit =>
      -- the name is looked up before the arguments are compiled
      rw [firstFault_preorder, node]
      refine stops_bind (stops_liftExcept _) fun entry => ?_
      exact stops_bind_pure (nodes_stops args)
  | .function name args =>
      have hfault : fault entries locals (.function name args)
          = error? (callee entries locals name args.length) :=
        (error?_callee entries locals name args.length).symm
      rw [firstFault_preorder, node, hfault]
      refine stops_bind (stops_liftExcept _) fun call => ?_
      exact stops_bind_pure (nodes_stops args)
  | .array items =>
      rw [firstFault_unchecked entries locals _ rfl, node]
      exact stops_bind_pure (nodes_stops items)
  | .assignment name expr =>
      rw [firstFault_unchecked entries locals _ rfl, node, Node.children,
        firstFault_flatMap_singleton]
      exact stops_bind_pure (node_stops expr)
  | .block statements =>
      rw [firstFault_unchecked entries locals _ rfl, node]
      exact stops_bind_pure (blockEntries_stops statements)
  | .conditional condition whenTrue whenFalse =>
      rw [firstFault_unchecked entries locals _ rfl, node, Node.children, firstFault_flatMap_cons,
        firstFault_flatMap_cons, firstFault_flatMap_singleton]
      refine stops_bind (node_stops condition) fun _ => stops_bind (node_stops whenTrue) fun _ => ?_
      exact stops_bind_pure (node_stops whenFalse)
  | .functionAssignment name params body =>
      have hreport := fun code => stops_bind (stops_report (.compiledFunction name params)) fun _ =>
        stops_pure (Code.define name params code)
      rw [firstFault_unchecked entries locals _ rfl, node, Node.children,
        firstFault_flatMap_singleton, ← Option.or_none (o := firstFault entries locals _)]
      exact stops_bind (node_stops body) hreport
  | .index object dimensions =>
      rw [firstFault_unchecked entries locals _ rfl, node, Node.children, firstFault_flatMap_cons]
      exact stops_bind (node_stops object) fun _ => stops_bind_pure (nodes_stops dimensions)
  | .range start stop none =>
      rw [firstFault_unchecked entries locals _ rfl, node, Node.children, firstFault_flatMap_cons,
        firstFault_flatMap_singleton]
      exact stops_bind (node_stops start) fun _ => stops_bind_pure (node_stops stop)
  | .range start stop (some step) =>
      rw [firstFault_unchecked entries locals _ rfl, node, Node.children, firstFault_flatMap_cons,
        firstFault_flatMap_cons, firstFault_flatMap_singleton]
      refine stops_bind (node_stops start) fun _ => stops_bind (node_stops stop) fun _ => ?_
      exact stops_bind_pure (node_stops step)
  | .update target expr =>
      refine update_stops entries locals (fun name dimensions h => ?_) (node_stops expr)
      subst h
      exact nodes_stops dimensions

/-- Compiling several trees stops with the error of the first node that fails its check. -/
theorem nodes_stops (trees : List Node) :
    Stops (nodes entries locals trees)
      (firstFault entries locals (trees.flatMap Node.preorder)) := by
  match trees with
  | [] => exact stops_pure _
  | first :: rest =>
      rw [nodes, firstFault_flatMap_cons]
      exact stops_bind (node_stops first) fun _ => stops_bind_pure (nodes_stops rest)

theorem blockEntries_stops (statements : List (Node × Bool)) :
    Stops (blockEntries entries locals statements)
      (firstFault entries locals ((statements.map Prod.fst).flatMap Node.preorder)) := by
  match statements with
  | [] => exact stops_pure _
  | (first, visible) :: rest =>
      rw [blockEntries, List.map_cons, firstFault_flatMap_cons]
      exact stops_bind (node_stops first) fun _ => stops_bind_pure (blockEntries_stops rest)

end

end parts

/-! ## Checks computed -/

theorem resolve_error_iff (entries : Namespace) (name : String) (count : Nat)
    (error : CompileError) :
    error? (resolve entries name count) = some error ↔
      Node.Unresolved entries name count error := by
  unfold resolve
  cases hentry : entries.find? name with
  -- the name is unknown: no count of arguments can be right or wrong
  | none =>
      constructor
      · intro h
        rw [← Option.some.inj h]
        exact .undefined hentry
      · rintro (_ | ⟨h, -⟩)
        · rfl
        · rw [hentry] at h
          cases h
  | some entry =>
      by_cases haccepts : entry.arity.accepts count = true
      -- known and with a count that it takes: neither error can be
      · simp only [haccepts, if_true]
        refine ⟨nofun, ?_⟩
        rintro (h | ⟨h, hcount⟩)
        · rw [hentry] at h
          cases h
        · rw [hentry, Option.some.injEq] at h
          rw [← h, haccepts] at hcount
          cases hcount
      · simp only [haccepts]
        constructor
        · intro h
          rw [← Option.some.inj h]
          exact .arguments hentry (Bool.eq_false_iff.mpr haccepts)
        · rintro (h | ⟨h, -⟩)
          · rw [hentry] at h
            cases h
          · rw [hentry, Option.some.injEq] at h
            rw [h]
            rfl

/-- The computed fault of a node is the reason why it fails its check. -/
theorem fault_eq_some_iff (entries : Namespace) (tree node : Node) (error : CompileError) :
    fault entries tree.locals node = some error ↔ Node.Fails entries tree node error := by
  cases node with
  | operator op fn args implicit =>
      rw [fault, resolve_error_iff]
      exact ⟨.operator, fun | .operator h => h⟩
  | function name args =>
      rw [fault]
      -- a name that the tree itself defines is not looked up
      by_cases hlocal : name ∈ tree.locals
      · rw [if_pos (List.contains_iff_mem.mpr hlocal)]
        refine ⟨nofun, ?_⟩
        rintro (_ | ⟨hname, -⟩)
        exact absurd ((Node.mem_locals_iff tree name).mp hlocal) hname
      · rw [if_neg (fun h => hlocal (List.contains_iff_mem.mp h)), resolve_error_iff]
        refine ⟨.function fun h => hlocal ((Node.mem_locals_iff tree name).mpr h), ?_⟩
        exact fun | .function _ h => h
  | update target expr =>
      obtain ⟨name, dimensions, rfl⟩ | ⟨object, dimensions, rfl, hsymbol⟩ | hindex :=
        target_cases target
      · refine ⟨nofun, ?_⟩
        rintro (_ | _ | h | h)
        · exact absurd rfl h
        · exact absurd rfl h
      · rw [fault_object entries tree.locals hsymbol, Option.some.injEq]
        constructor
        · rintro rfl
          exact .object hsymbol
        · rintro (_ | _ | _ | h)
          · rfl
          · exact absurd rfl h
      · rw [fault_target entries tree.locals hindex, Option.some.injEq]
        constructor
        · rintro rfl
          exact .target hindex
        · rintro (_ | _ | _ | _)
          · exact absurd rfl hindex
          · rfl
  | _ => exact ⟨nofun, nofun⟩

end Compiler

/-! ## The error of a tree -/

/-- Compiling fails exactly if some node of the tree fails its check, and the error is the one of
the first such node in the order of a walk. -/
theorem compile_fails_first (entries : Namespace) (tree : Node) :
    ((∃ error, (tree.compile entries).1 = .error error) ↔
        ∃ node, Node.Within node tree ∧ ∃ error, Node.Fails entries tree node error) ∧
      ∀ error, (tree.compile entries).1 = .error error ↔
        ∃ before node after, tree.preorder = before ++ node :: after ∧
          (∀ earlier ∈ before, ∀ error, ¬Node.Fails entries tree earlier error) ∧
          Node.Fails entries tree node error := by
  -- what the compiler stops with is the first fault in the order of a walk
  have hcompile : Compiler.error? (tree.compile entries).1
      = tree.preorder.findSome? (Compiler.fault entries tree.locals) := by
    rw [← Compiler.firstFault, ← Compiler.node_stops entries tree.locals tree #[], Node.compile]
    cases (Compiler.node entries tree.locals tree).run #[] with
    | mk outcome events => cases outcome <;> rfl
  have herror : ∀ error, (tree.compile entries).1 = .error error ↔
      tree.preorder.findSome? (Compiler.fault entries tree.locals) = some error := by
    intro error
    rw [← hcompile]
    cases (tree.compile entries).1 with
    | ok code => exact ⟨nofun, nofun⟩
    | error fault => simp [Compiler.error?]
  have hpasses : ∀ node, Compiler.fault entries tree.locals node = none ↔
      ∀ error, ¬Node.Fails entries tree node error := by
    intro node
    rw [Option.eq_none_iff_forall_ne_some]
    exact forall_congr' fun error => not_congr (Compiler.fault_eq_some_iff entries tree node error)
  -- a first fault exists just if some node has one, and a walk comes to every node
  refine ⟨?_, fun error => ?_⟩
  · simp only [herror, ← Option.isSome_iff_exists, List.findSome?_isSome_iff]
    simp only [Option.isSome_iff_exists, Compiler.fault_eq_some_iff, Node.mem_preorder_iff]
  · rw [herror, List.findSome?_eq_some_iff]
    simp only [hpasses, Compiler.fault_eq_some_iff]
    constructor
    · rintro ⟨before, node, after, hsplit, hfails, hbefore⟩
      exact ⟨before, node, after, hsplit, hbefore, hfails⟩
    · rintro ⟨before, node, after, hsplit, hbefore, hfails⟩
      exact ⟨before, node, after, hsplit, hfails, hbefore⟩

end Formula
