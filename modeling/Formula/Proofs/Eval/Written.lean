import Mathlib
import Formula.Proofs.Compile
import Formula.Proofs.Eval.Confined

set_option autoImplicit false

/-! # Which variables a tree can change

A tree writes the names of its assignments, function assignments and updates, those inside the
body of a function assignment excepted: a body runs in a frame of its own. The code of a tree
writes no other names, so evaluating a tree that compiles changes no other variable of the scope.
-/

namespace Formula

/-! ## Names that a tree writes -/

namespace Node

/-- A node lies in a tree, and in no body of a function that the tree assigns. -/
inductive Outside : Node → Node → Prop where
  | root (node : Node) : Outside node node
  | child {node child tree : Node} (hkind : tree.kind ≠ .functionAssignment)
      (hchild : child ∈ tree.children) (h : Outside node child) : Outside node tree

/-- The name that evaluating a node gives a value to. -/
def writtenName? : Node → Option String
  | .assignment name _ => some name
  | .functionAssignment name _ _ => some name
  | .update (.index (.symbol name) _) _ => some name
  | _ => none

/-- A node of the tree that lies in no body gives a value to the name. -/
def Writes (tree : Node) (name : String) : Prop :=
  ∃ node, Outside node tree ∧ node.writtenName? = some name

theorem Writes.of_root {tree : Node} {name : String} (h : tree.writtenName? = some name) :
    tree.Writes name := ⟨tree, .root tree, h⟩

theorem Writes.of_child {child tree : Node} {name : String} (h : child.Writes name)
    (hkind : tree.kind ≠ .functionAssignment) (hchild : child ∈ tree.children) :
    tree.Writes name := by
  obtain ⟨node, hnode, hname⟩ := h
  exact ⟨node, .child hkind hchild hnode, hname⟩

end Node

/-! ## Code writes what its tree writes -/

namespace Compiler

section yields

variable {α β : Type} {good : α → Prop} {good' : β → Prop}

/-- A compilation that succeeds gives something that satisfies `good`. -/
def Yields (good : α → Prop) (c : Compiler α) : Prop :=
  ∀ events a, (c.run events).1 = .ok a → good a

theorem yields_pure {a : α} (h : good a) : Yields good (pure a) := by
  intro events b hb
  cases hb
  exact h

theorem yields_throw (error : CompileError) : Yields good (throw error : Compiler α) :=
  fun _ _ h => nomatch h

theorem yields_liftExcept (outcome : Except CompileError α) :
    Yields (fun a => outcome = .ok a) (liftExcept outcome : Compiler α) := by
  intro events a h
  cases outcome with
  | ok b => exact h
  | error error => exact nomatch h

theorem yields_report (event : Event) : Yields (fun _ => True) (report event) :=
  fun _ _ _ => trivial

theorem yields_bind {c : Compiler α} {f : α → Compiler β} (hc : Yields good c)
    (hf : ∀ a, good a → Yields good' (f a)) : Yields good' (c >>= f) := by
  intro events b hb
  obtain ⟨a, after, hfirst, hsecond⟩ := Outcome.exists_of_bind_eq_ok (Prod.ext hb rfl)
  exact hf a (hc events a (congrArg Prod.fst hfirst)) after b (congrArg Prod.fst hsecond)

end yields

/-- The code writes only names that the tree writes. -/
def WritesWithin (tree : Node) (code : Code) : Prop := ∀ name ∈ code.writes, tree.Writes name

/-- Each of the names is written by one of the trees. -/
def WrittenBy (trees : List Node) (names : List String) : Prop :=
  ∀ name ∈ names, ∃ tree ∈ trees, tree.Writes name

theorem WritesWithin.writtenBy {tree : Node} {code : Code} (h : WritesWithin tree code)
    {trees : List Node} (hmem : tree ∈ trees) : WrittenBy trees code.writes :=
  fun name hname => ⟨tree, hmem, h name hname⟩

theorem WrittenBy.mono {trees more : List Node} {names : List String} (h : WrittenBy trees names)
    (hsub : trees ⊆ more) : WrittenBy more names := by
  intro name hname
  obtain ⟨tree, htree, hwrites⟩ := h name hname
  exact ⟨tree, hsub htree, hwrites⟩

theorem WrittenBy.append {trees : List Node} {names later : List String}
    (h : WrittenBy trees names) (h' : WrittenBy trees later) : WrittenBy trees (names ++ later) :=
  List.forall_mem_append.mpr ⟨h, h'⟩

/-- What the children of a tree write, the tree writes, unless it is a function assignment. -/
theorem WrittenBy.writes {tree : Node} {names : List String} (h : WrittenBy tree.children names)
    (hkind : tree.kind ≠ .functionAssignment) : ∀ name ∈ names, tree.Writes name := by
  intro name hname
  obtain ⟨child, hchild, hwrites⟩ := h name hname
  exact hwrites.of_child hkind hchild

/-- A call writes what its arguments write. -/
theorem writes_callee {entries : Namespace} {locals : List String} {name : String} {count : Nat}
    {call : List Code → Code} (h : callee entries locals name count = .ok call)
    (args : List Code) : (call args).writes = Code.writesAll args := by
  rw [callee] at h
  split at h
  · cases h
    rw [Code.writes]
  · cases hresolve : resolve entries name count with
    | error error =>
        rw [hresolve] at h
        cases h
    | ok entry =>
        rw [hresolve] at h
        cases h
        rw [Code.writes]

section parts

variable (entries : Namespace) (locals : List String)

/-- An update writes its variable, and what its dimensions and its expression write. -/
theorem update_yields {target expr : Node}
    (hdimensions : ∀ name dimensions, target = .index (.symbol name) dimensions →
      Yields (fun codes => WrittenBy dimensions (Code.writesAll codes))
        (nodes entries locals dimensions))
    (hexpr : Yields (WritesWithin expr) (node entries locals expr)) :
    Yields (WritesWithin (.update target expr)) (node entries locals (.update target expr)) := by
  obtain ⟨name, dimensions, rfl⟩ | ⟨object, dimensions, rfl, hsymbol⟩ | hindex :=
    target_cases target
  · rw [node]
    refine yields_bind (hdimensions name dimensions rfl) fun codes hcodes => ?_
    refine yields_bind hexpr fun code hcode => yields_pure ?_
    -- what is written in the dimensions is written in the target, a child of the update
    have htarget : ∀ written ∈ Code.writesAll codes,
        (Node.index (.symbol name) dimensions).Writes written :=
      WrittenBy.writes (hcodes.mono (List.subset_cons_self _ _)) nofun
    rw [WritesWithin, Code.writes, List.forall_mem_cons]
    refine ⟨.of_root rfl, WrittenBy.writes (.append ?_ (hcode.writtenBy ?_)) nofun⟩
    · exact fun written h => ⟨_, List.mem_cons_self, htarget written h⟩
    · exact List.mem_cons_of_mem _ List.mem_cons_self
  · rw [node_object entries locals hsymbol]
    exact yields_throw _
  · rw [node_target entries locals hindex]
    exact yields_throw _

mutual

/-- The code of a tree writes only names that the tree writes. -/
theorem node_yields (tree : Node) : Yields (WritesWithin tree) (node entries locals tree) := by
  match tree with
  | .constant value => exact yields_pure (by rw [WritesWithin, Code.writes]; nofun)
  | .symbol name => exact yields_pure (by rw [WritesWithin, Code.writes]; nofun)
  | .operator op fn args implicit =>
      rw [node]
      refine yields_bind (yields_liftExcept _) fun entry _ => ?_
      refine yields_bind (nodes_yields args) fun codes hcodes => yields_pure ?_
      rw [WritesWithin, Code.writes]
      exact WrittenBy.writes hcodes nofun
  | .function name args =>
      rw [node]
      refine yields_bind (yields_liftExcept _) fun call hcall => ?_
      refine yields_bind (nodes_yields args) fun codes hcodes => yields_pure ?_
      rw [WritesWithin, writes_callee hcall]
      exact WrittenBy.writes hcodes nofun
  | .array items =>
      rw [node]
      refine yields_bind (nodes_yields items) fun codes hcodes => yields_pure ?_
      rw [WritesWithin, Code.writes]
      exact WrittenBy.writes hcodes nofun
  | .assignment name expr =>
      rw [node]
      refine yields_bind (node_yields expr) fun code hcode => yields_pure ?_
      rw [WritesWithin, Code.writes, List.forall_mem_cons]
      exact ⟨.of_root rfl, WrittenBy.writes (hcode.writtenBy (by simp [Node.children])) nofun⟩
  | .block statements =>
      rw [node]
      refine yields_bind (blockEntries_yields statements) fun codes hcodes => yields_pure ?_
      rw [WritesWithin, Code.writes]
      exact WrittenBy.writes hcodes nofun
  | .conditional condition whenTrue whenFalse =>
      rw [node]
      refine yields_bind (node_yields condition) fun first hfirst => ?_
      refine yields_bind (node_yields whenTrue) fun second hsecond => ?_
      refine yields_bind (node_yields whenFalse) fun third hthird => yields_pure ?_
      rw [WritesWithin, Code.writes]
      refine WrittenBy.writes (.append (hfirst.writtenBy ?_)
        (.append (hsecond.writtenBy ?_) (hthird.writtenBy ?_))) nofun
      all_goals simp [Node.children]
  | .functionAssignment name params body =>
      -- the names in the body are not among those that the code writes
      rw [node]
      refine yields_bind (node_yields body) fun code _ => ?_
      refine yields_bind (yields_report _) fun _ _ => yields_pure ?_
      rw [WritesWithin, Code.writes, List.forall_mem_singleton]
      exact .of_root rfl
  | .index object dimensions =>
      rw [node]
      refine yields_bind (node_yields object) fun first hfirst => ?_
      refine yields_bind (nodes_yields dimensions) fun codes hcodes => yields_pure ?_
      rw [WritesWithin, Code.writes]
      refine WrittenBy.writes (.append (hfirst.writtenBy List.mem_cons_self) ?_) nofun
      exact hcodes.mono (List.subset_cons_self _ _)
  | .range start stop none =>
      rw [node]
      refine yields_bind (node_yields start) fun first hfirst => ?_
      refine yields_bind (node_yields stop) fun second hsecond => yields_pure ?_
      rw [WritesWithin, Code.writes]
      refine WrittenBy.writes (.append (hfirst.writtenBy ?_) (hsecond.writtenBy ?_)) nofun
      all_goals simp [Node.children]
  | .range start stop (some step) =>
      rw [node]
      refine yields_bind (node_yields start) fun first hfirst => ?_
      refine yields_bind (node_yields stop) fun second hsecond => ?_
      refine yields_bind (node_yields step) fun third hthird => yields_pure ?_
      rw [WritesWithin, Code.writes]
      refine WrittenBy.writes (.append (hfirst.writtenBy ?_)
        (.append (hsecond.writtenBy ?_) (hthird.writtenBy ?_))) nofun
      all_goals simp [Node.children]
  | .update target expr =>
      refine update_yields entries locals (fun name dimensions h => ?_) (node_yields expr)
      subst h
      exact nodes_yields dimensions

theorem nodes_yields (trees : List Node) :
    Yields (fun codes => WrittenBy trees (Code.writesAll codes)) (nodes entries locals trees) := by
  match trees with
  | [] => exact yields_pure (by rw [WrittenBy, Code.writesAll]; nofun)
  | first :: rest =>
      rw [nodes]
      refine yields_bind (node_yields first) fun code hcode => ?_
      refine yields_bind (nodes_yields rest) fun codes hcodes => yields_pure ?_
      rw [Code.writesAll]
      exact .append (hcode.writtenBy List.mem_cons_self) (hcodes.mono (List.subset_cons_self _ _))

theorem blockEntries_yields (statements : List (Node × Bool)) :
    Yields (fun codes => WrittenBy (statements.map Prod.fst) (Code.writesEntries codes))
      (blockEntries entries locals statements) := by
  match statements with
  | [] => exact yields_pure (by rw [WrittenBy, Code.writesEntries]; nofun)
  | (first, visible) :: rest =>
      rw [blockEntries]
      refine yields_bind (node_yields first) fun code hcode => ?_
      refine yields_bind (blockEntries_yields rest) fun codes hcodes => yields_pure ?_
      rw [Code.writesEntries]
      exact .append (hcode.writtenBy List.mem_cons_self) (hcodes.mono (List.subset_cons_self _ _))

end

end parts

end Compiler

/-- Compiling a tree ends as compiling it among its own names does. -/
theorem Node.compile_fst (entries : Namespace) (tree : Node) :
    (tree.compile entries).1 = ((Compiler.node entries tree.locals tree).run #[]).1 := by
  rw [compile]
  split
  · next hrun => rw [hrun]
  · next hrun => rw [hrun]

/-- **Evaluation changes nothing but what the tree writes.** Evaluating a tree that compiles, in any
scope and however it ends, unbinds no variable, leaves every variable as it is whose name the tree
does not write outside of the bodies of its functions, and keeps the depth and the limits of the
scope. No call of a function value, of whatever depth, changes the scope that it is made in. -/
theorem evaluation_confined {entries : Namespace} {tree : Node} {code : Code}
    (h : (tree.compile entries).1 = .ok code) (registry : Registry) (start : Machine) :
    start.scope.Confined tree.Writes (Eval.run registry code start).2.scope ∧
      ∀ (room : Nat) (f : Closure Value) (args : List Value) (depth : Nat) (m : Machine),
        (Eval.call registry room f args depth m).2.scope = m.scope := by
  have hwrites : Compiler.WritesWithin tree code := by
    refine Compiler.node_yields entries tree.locals tree #[] code ?_
    rw [Node.compile] at h
    cases hrun : (Compiler.node entries tree.locals tree).run #[] with
    | mk outcome events =>
        rw [hrun] at h
        cases outcome with
        | ok compiled => exact h
        | error fault => cases h
  exact ⟨Eval.code_confined (Eval.confined_call registry Word.last) code hwrites start,
    Eval.scope_call registry⟩

/-- A function that assigns to `b`, a call of it, and a symbol without a value. -/
def shadowing : Node :=
  .block [(.functionAssignment "f" ["x"] (.assignment "b" (.symbol "x")), false),
    (.function "f" [.constant .null], true), (.symbol "c", true)]

/-- A machine whose scope has a variable `b`. -/
def occupied : Machine := ⟨Scope.empty.set "b" (.boolean true), 0, #[]⟩

/-- The `b` that the body assigns to is not the one of the scope, which is the same after the
evaluation has failed. -/
theorem evaluation_confined_shadowing :
    ∃ code, (shadowing.compile []).1 = .ok code ∧
      (Eval.run #[] code occupied).1 = .error (.undefinedSymbol "c") ∧
        (Eval.run #[] code occupied).2.scope.get? "b" = some (.boolean true) := by
  have hcompile : (shadowing.compile []).1
      = .ok (.block [(.define "f" ["x"] (.assign "b" (.symbol "x")), false),
        (.call "f" none [.constant .null], true), (.symbol "c", true)]) := by cbv
  -- the only assignment to the name stands in the body of a function
  have hnot : ¬shadowing.Writes "b" := by
    rintro ⟨node, _ | ⟨-, hchild, hnode⟩, hname⟩
    · cases hname
    · simp only [shadowing, Node.children, List.map_cons, List.map_nil, List.mem_cons,
        List.not_mem_nil, or_false] at hchild
      rcases hchild with rfl | rfl | rfl
      · rcases hnode with _ | ⟨hkind, -, -⟩
        · exact absurd hname (by decide)
        · exact hkind rfl
      · rcases hnode with _ | ⟨-, harg, hnode⟩
        · cases hname
        · rw [Node.children, List.mem_singleton] at harg
          subst harg
          rcases hnode with _ | ⟨-, hnone, -⟩
          · cases hname
          · cases hnone
      · rcases hnode with _ | ⟨-, hnone, -⟩
        · cases hname
        · cases hnone
  have hkept := (evaluation_confined hcompile #[] occupied).1.kept "b" hnot
  exact ⟨_, hcompile, rfl, hkept⟩

end Formula
