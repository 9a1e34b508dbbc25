import Formula.Eval
import Formula.Proofs.Outcome

set_option autoImplicit false

/-! # What an evaluation writes

The names that code can write are read off the code: those of its assignments, definitions and
updates, and nothing of the body of a function that it defines, because a body runs in a frame of
its own. However an evaluation ends, it unbinds nothing, changes no variable of another name, and
leaves the depth and the limits of its scope as they are. A call of a function value leaves the
scope that it is made in alone.
-/

namespace Formula

/-! ## Names that code writes -/

namespace Code

mutual

/-- The names that evaluating code can give a value to. -/
def writes : Code → List String
  | .constant _ => []
  | .symbol _ => []
  | .builtin _ args => writesAll args
  | .call _ _ args => writesAll args
  | .array items => writesAll items
  | .assign name expr => name :: writes expr
  | .block entries => writesEntries entries
  | .conditional condition whenTrue whenFalse =>
      writes condition ++ (writes whenTrue ++ writes whenFalse)
  | .define name _ _ => [name]
  | .index object dimensions => writes object ++ writesAll dimensions
  | .range start stop none => writes start ++ writes stop
  | .range start stop (some step) => writes start ++ (writes stop ++ writes step)
  | .update name dimensions expr => name :: (writesAll dimensions ++ writes expr)

/-- The names that evaluating several pieces of code can give a value to. -/
def writesAll : List Code → List String
  | [] => []
  | first :: rest => writes first ++ writesAll rest

/-- The names that evaluating the statements of a block can give a value to. -/
def writesEntries : List (Code × Bool) → List String
  | [] => []
  | (first, _) :: rest => writes first ++ writesEntries rest

end

end Code

/-! ## Scopes before and after -/

/-- What is the same in a scope before and after only names in `W` were written. -/
structure Scope.Confined (W : String → Prop) (before after : Scope) : Prop where
  depth_eq : after.depth = before.depth
  maxDepth_eq : after.maxDepth = before.maxDepth
  maxElements_eq : after.maxElements = before.maxElements
  /-- Every variable that was bound is bound. -/
  bound : ∀ name, (before.get? name).isSome → (after.get? name).isSome
  /-- Every variable of another name has the value that it had, or none as before. -/
  kept : ∀ name, ¬W name → after.get? name = before.get? name

namespace Scope

variable {W : String → Prop} {s t u : Scope}

theorem get?_set (s : Scope) (key name : String) (v : Value) :
    (s.set key v).get? name = if name = key then some v else s.get? name :=
  Table.find?_insert s.vars key name v

theorem Confined.refl (s : Scope) : s.Confined W s := ⟨rfl, rfl, rfl, fun _ => id, fun _ _ => rfl⟩

theorem Confined.trans (h : s.Confined W t) (h' : t.Confined W u) : s.Confined W u where
  depth_eq := h'.depth_eq.trans h.depth_eq
  maxDepth_eq := h'.maxDepth_eq.trans h.maxDepth_eq
  maxElements_eq := h'.maxElements_eq.trans h.maxElements_eq
  bound name hname := h'.bound name (h.bound name hname)
  kept name hname := (h'.kept name hname).trans (h.kept name hname)

theorem confined_set {key : String} (hkey : W key) (s : Scope) (v : Value) :
    s.Confined W (s.set key v) := by
  refine ⟨rfl, rfl, rfl, fun name hbound => ?_, fun name hname => ?_⟩
  · rw [get?_set]
    split
    · rfl
    · exact hbound
  · rw [get?_set, if_neg]
    rintro rfl
    exact hname hkey

end Scope

/-! ## Evaluations that write certain names -/

namespace Eval

variable {W : String → Prop} {α β : Type}

/-- However the evaluation ends, it writes only names in `W`. -/
def Confined (W : String → Prop) (x : Eval α) : Prop :=
  ∀ m : Machine, m.scope.Confined W (x m).2.scope

theorem confined_pure (a : α) : Confined W (pure a) := fun m => .refl m.scope

theorem confined_bind {x : Eval α} {k : α → Eval β} (hx : Confined W x)
    (hk : ∀ a, Confined W (k a)) : Confined W (x >>= k) := by
  intro m
  rw [Outcome.bind_apply]
  cases (x m).1 with
  | error fault => exact hx m
  | ok a => exact (hx m).trans (hk a _)

theorem confined_scope : Confined W scope := fun m => .refl m.scope

theorem confined_report (events : List Event) : Confined W (report events) :=
  fun m => .refl m.scope

theorem confined_fail (fault : EvalError) : Confined W (fail fault : Eval α) :=
  fun m => .refl m.scope

theorem confined_ofExcept (outcome : Except EvalError α) : Confined W (ofExcept outcome) := by
  intro m
  cases outcome <;> exact .refl m.scope

theorem confined_freshStamp : Confined W freshStamp := fun m => .refl m.scope

theorem confined_assign {name : String} (hname : W name) (v : Value) :
    Confined W (assign name v) := fun m => Scope.confined_set hname m.scope v

theorem confined_callEntry (registry : Registry) (entry : Entry) (args : List Value) :
    Confined W (callEntry registry entry args) :=
  confined_bind (confined_report _) fun _ => confined_ofExcept _

theorem confined_updateVariable {name : String} (hname : W name) (lists : List (List Nat))
    (v : Value) : Confined W (updateVariable name lists v) := by
  refine confined_bind confined_scope fun s => ?_
  refine confined_bind (confined_ofExcept (variableMatrix s name)) fun m => ?_
  refine confined_bind (confined_ofExcept (replacement v)) fun r => ?_
  refine confined_bind (confined_ofExcept (checkGrowth m lists s.maxElements)) fun _ => ?_
  refine confined_bind (confined_report (growthEvents m lists r)) fun _ => ?_
  refine confined_bind (confined_ofExcept (m.setSubset lists r).1) fun _ => ?_
  exact confined_assign hname _

/-- An evaluation in a frame writes nothing outside of the frame. -/
theorem scope_inFrame (frame : Scope) (body : Eval α) (m : Machine) :
    (inFrame frame body m).2.scope = m.scope := rfl

/-- A call leaves the scope that it is made in as it is. -/
theorem scope_call (registry : Registry) (room : Nat) (f : Closure Value) (args : List Value)
    (depth : Nat) (m : Machine) : (call registry room f args depth m).2.scope = m.scope := by
  unfold call
  split
  · rfl
  · split
    · rfl
    · cases room with
      | zero => rfl
      | succ room => exact scope_inFrame _ _ m

theorem confined_call (registry : Registry) (room : Nat) (f : Closure Value) (args : List Value)
    (depth : Nat) : Confined W (call registry room f args depth) := by
  intro m
  rw [scope_call]
  exact .refl m.scope

/-! ## Code -/

section code

variable {registry : Registry} {call : Caller Eval}

theorem callNamed_confined (hcall : ∀ f args depth, Confined W (call f args depth))
    (name : String) (fallback : Option Entry) (args : List Value) :
    Confined W (callNamed registry call name fallback args) := by
  refine confined_bind confined_scope fun s => ?_
  split
  · exact hcall _ args _
  · exact confined_fail _
  · exact confined_callEntry registry _ args
  · exact confined_fail _

mutual

/-- Evaluating code writes only names that the code writes, if its calls write no others. -/
theorem code_confined (hcall : ∀ f args depth, Confined W (call f args depth)) (c : Code)
    (hc : ∀ name ∈ c.writes, W name) : Confined W (code registry call c) := by
  match c with
  | .constant value =>
      rw [code]
      exact confined_pure _
  | .symbol name =>
      rw [code]
      refine confined_bind confined_scope fun s => ?_
      split
      · exact confined_pure _
      · exact confined_fail _
  | .builtin entry args =>
      rw [Code.writes] at hc
      rw [code]
      refine confined_bind (codes_confined hcall args hc) fun values => ?_
      exact confined_callEntry registry entry values
  | .call name fallback args =>
      rw [Code.writes] at hc
      rw [code]
      refine confined_bind (codes_confined hcall args hc) fun values => ?_
      exact callNamed_confined hcall name fallback values
  | .array items =>
      rw [Code.writes] at hc
      rw [code]
      refine confined_bind (codes_confined hcall items hc) fun values => ?_
      exact confined_ofExcept _
  | .assign name expr =>
      rw [Code.writes, List.forall_mem_cons] at hc
      rw [code]
      refine confined_bind (code_confined hcall expr hc.2) fun v => ?_
      exact confined_bind (confined_assign hc.1 v) fun _ => confined_pure v
  | .block entries =>
      rw [Code.writes] at hc
      rw [code]
      exact blockEntries_confined hcall entries hc .null
  | .conditional condition whenTrue whenFalse =>
      rw [Code.writes, List.forall_mem_append, List.forall_mem_append] at hc
      obtain ⟨hcondition, htrue, hfalse⟩ := hc
      rw [code]
      refine confined_bind (code_confined hcall condition hcondition) fun v => ?_
      refine confined_bind (confined_ofExcept v.truth) fun b => ?_
      cases b with
      | true => exact code_confined hcall whenTrue htrue
      | false => exact code_confined hcall whenFalse hfalse
  -- the body is kept and not evaluated: what it writes does not count
  | .define name params body =>
      rw [Code.writes, List.forall_mem_singleton] at hc
      rw [code]
      refine confined_bind confined_scope fun s => ?_
      refine confined_bind confined_freshStamp fun stamp => ?_
      exact confined_bind (confined_assign hc _) fun _ => confined_pure _
  | .index object dimensions =>
      rw [Code.writes, List.forall_mem_append] at hc
      rw [code]
      refine confined_bind (code_confined hcall object hc.1) fun target => ?_
      refine confined_bind (codes_confined hcall dimensions hc.2) fun values => ?_
      exact confined_bind (confined_ofExcept _) fun lists => confined_ofExcept _
  | .range start stop none =>
      rw [Code.writes, List.forall_mem_append] at hc
      rw [code]
      refine confined_bind (code_confined hcall start hc.1) fun v => ?_
      refine confined_bind (confined_ofExcept v.toReal) fun first => ?_
      refine confined_bind (code_confined hcall stop hc.2) fun w => ?_
      refine confined_bind (confined_ofExcept w.toReal) fun last => ?_
      refine confined_bind confined_scope fun s => ?_
      exact confined_bind (confined_ofExcept _) fun values => confined_pure _
  | .range start stop (some step) =>
      rw [Code.writes, List.forall_mem_append, List.forall_mem_append] at hc
      obtain ⟨hstart, hstop, hstep⟩ := hc
      rw [code]
      refine confined_bind (code_confined hcall start hstart) fun v => ?_
      refine confined_bind (confined_ofExcept v.toReal) fun first => ?_
      refine confined_bind (code_confined hcall stop hstop) fun w => ?_
      refine confined_bind (confined_ofExcept w.toReal) fun last => ?_
      refine confined_bind (code_confined hcall step hstep) fun u => ?_
      refine confined_bind (confined_ofExcept u.toReal) fun stride => ?_
      refine confined_bind confined_scope fun s => ?_
      exact confined_bind (confined_ofExcept _) fun values => confined_pure _
  -- the variable is written last, by its own name
  | .update name dimensions expr =>
      rw [Code.writes, List.forall_mem_cons, List.forall_mem_append] at hc
      obtain ⟨hname, hdimensions, hexpr⟩ := hc
      rw [code]
      refine confined_bind (codes_confined hcall dimensions hdimensions) fun values => ?_
      refine confined_bind (confined_ofExcept _) fun lists => ?_
      refine confined_bind (code_confined hcall expr hexpr) fun v => ?_
      exact confined_bind (confined_updateVariable hname lists v) fun _ => confined_pure v

theorem codes_confined (hcall : ∀ f args depth, Confined W (call f args depth))
    (cs : List Code) (hcs : ∀ name ∈ Code.writesAll cs, W name) :
    Confined W (codes registry call cs) := by
  match cs with
  | [] =>
      rw [codes]
      exact confined_pure _
  | first :: rest =>
      rw [Code.writesAll, List.forall_mem_append] at hcs
      rw [codes]
      refine confined_bind (code_confined hcall first hcs.1) fun v => ?_
      exact confined_bind (codes_confined hcall rest hcs.2) fun vs => confined_pure _

theorem blockEntries_confined (hcall : ∀ f args depth, Confined W (call f args depth))
    (entries : List (Code × Bool)) (hentries : ∀ name ∈ Code.writesEntries entries, W name)
    (last : Value) : Confined W (blockEntries registry call last entries) := by
  match entries with
  | [] =>
      rw [blockEntries]
      exact confined_pure _
  | (first, visible) :: rest =>
      rw [Code.writesEntries, List.forall_mem_append] at hentries
      rw [blockEntries]
      refine confined_bind (code_confined hcall first hentries.1) fun v => ?_
      exact blockEntries_confined hcall rest hentries.2 _

end

end code

end Eval

end Formula
