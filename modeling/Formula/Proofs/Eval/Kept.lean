import Formula.Proofs.Eval.Comparison
import Formula.Proofs.Value.Deepest

set_option autoImplicit false

/-! # What an evaluation keeps

Functions come into the world in two ways: an evaluation makes them, as snapshots of its scope, or
they are given to it. So a property of functions holds of all functions within reach of a scope,
whatever is evaluated in the scope, if it holds of those that are there at the beginning, of every
snapshot, and of what the functions of the host return. `Kept` is such a property, together with
one of scopes that snapshots need and frames supply.

That evaluation keeps it is a case of comparing evaluations: both are the same one, and values
agree if they are equal and have the property.
-/

namespace Formula

/-! ## Limits -/

/-- The limits that evaluations are held to. -/
structure Limits where
  depth : UInt64
  elements : Nat
  deriving DecidableEq, Repr

/-- The limits of a scope. -/
def Scope.limits (s : Scope) : Limits := ⟨s.maxDepth, s.maxElements⟩

/-- The limits that a function has captured. -/
def Closure.limits (f : Closure Value) : Limits := ⟨f.maxDepth, f.maxElements⟩

/-! ## Everything within reach -/

/-- All functions within reach of the value satisfy `P`. -/
def Value.All (P : Closure Value → Prop) (v : Value) : Prop := ∀ f, v.Reaches f → P f

/-- All functions within reach of the variables satisfy `P`. -/
def Table.All (P : Closure Value → Prop) (vars : Table Value) : Prop := ∀ e ∈ vars, e.2.All P

variable {P Q : Closure Value → Prop}

namespace Value

theorem all_of_kind {v : Value} (h : v.kind ≠ .function) : v.All P := by
  rintro f (_ | _) <;> exact absurd rfl h

theorem all_function {f : Closure Value} :
    (Value.function f).All P ↔ P f ∧ Table.All P f.vars := by
  constructor
  · intro h
    exact ⟨h f (.itself f), fun _ he g hg => h g (.captured he hg)⟩
  · rintro ⟨hf, hvars⟩ g (_ | ⟨hv, hg⟩)
    · exact hf
    · exact hvars _ hv g hg

theorem All.mono {v : Value} (h : v.All P) (hPQ : ∀ f, P f → Q f) : v.All Q :=
  fun f hf => hPQ f (h f hf)

end Value

namespace Table

variable {vars : Table Value}

theorem All.mono (h : All P vars) (hPQ : ∀ f, P f → Q f) : All Q vars :=
  fun e he => (h e he).mono hPQ

theorem All.find? (h : All P vars) {name : String} {v : Value} (found : vars.find? name = some v) :
    v.All P := h _ (mem_of_find? found)

theorem All.insert (h : All P vars) {v : Value} (hv : v.All P) (name : String) :
    All P (vars.insert name v) := by
  intro e he
  rcases mem_insert he with rfl | he
  · exact hv
  · exact h e he

theorem All.insertAll {entries : List (String × Value)} (h : All P vars)
    (hentries : ∀ e ∈ entries, e.2.All P) : All P (vars.insertAll entries) := by
  rw [Table.insertAll]
  induction entries generalizing vars with
  | nil => exact h
  | cons e rest ih =>
      rw [List.forall_mem_cons] at hentries
      exact ih (h.insert hentries.1 e.1) hentries.2

end Table

/-! ## Properties that are kept -/

/-- A property of functions and one of scopes that every evaluation keeps. Both may depend on how
many functions have been made. -/
structure Kept (registry : Registry) where
  Function : Nat → Closure Value → Prop
  Frame : Nat → Scope → Prop
  laterFunction : ∀ {i j : Nat} {f : Closure Value}, i ≤ j → Function i f → Function j f
  laterFrame : ∀ {i j : Nat} {s : Scope}, i ≤ j → Frame i s → Frame j s
  set : ∀ {i : Nat} {s : Scope}, Frame i s → ∀ name v, Frame i (s.set name v)
  snapshot : ∀ {i : Nat} {s : Scope}, Frame i s → ∀ name params body,
    Function (i + 1) (s.snapshot name params body i)
  /-- The frame of a call from a scope that has the property. -/
  frame : ∀ {i : Nat} {s : Scope} {f : Closure Value}, Frame i s → Function i f →
    ∀ args depth, Frame i (f.frame args depth)
  host : ∀ g ∈ registry, ∀ args v, g args = .ok v → ∀ i, (∀ a ∈ args, a.All (Function i)) →
    v.All (Function i)

namespace Kept

variable {registry : Registry} (K : Kept registry) {i : Nat}

/-- The scope has its property, and so have all functions within its reach. -/
structure Scope (i : Nat) (s : Formula.Scope) : Prop where
  frame : K.Frame i s
  functions : Table.All (K.Function i) s.vars

variable {K}

theorem Scope.later {j : Nat} {s : Formula.Scope} (h : K.Scope i s) (hij : i ≤ j) :
    K.Scope j s :=
  ⟨K.laterFrame hij h.frame, h.functions.mono fun _ => K.laterFunction hij⟩

theorem Scope.set {s : Formula.Scope} (h : K.Scope i s) {v : Value} (hv : v.All (K.Function i))
    (name : String) : K.Scope i (s.set name v) :=
  ⟨K.set h.frame name v, h.functions.insert hv name⟩

/-- A function that is defined in the scope. -/
theorem Scope.snapshot {s : Formula.Scope} (h : K.Scope i s) (name : String)
    (params : List String) (body : Code) :
    (Value.function (s.snapshot name params body i)).All (K.Function (i + 1)) :=
  Value.all_function.mpr
    ⟨K.snapshot h.frame name params body, (h.later (Nat.le_succ i)).functions⟩

/-- The frame of a call from the scope. -/
theorem Scope.callee {s : Formula.Scope} (h : K.Scope i s) {f : Closure Value} {args : List Value}
    (hf : (Value.function f).All (K.Function i)) (hargs : ∀ a ∈ args, a.All (K.Function i))
    (depth : Nat) : K.Scope i (f.frame args depth) := by
  obtain ⟨hown, hvars⟩ := Value.all_function.mp hf
  refine ⟨K.frame h.frame hown args depth, (hvars.insert hf f.name).insertAll fun e he => ?_⟩
  exact hargs e.2 (List.of_mem_zip he).2

theorem call_entry {args : List Value} (hargs : ∀ a ∈ args, a.All (K.Function i)) {entry : Entry}
    {v : Value} (h : entry.call registry args = .ok v) : v.All (K.Function i) := by
  rw [Entry.call] at h
  split at h
  · rw [Entry.perform] at h
    split at h
    · next op _ => exact Value.all_of_kind (op.apply_plain args v h)
    · split at h
      · next g found => exact K.host g (Array.mem_of_getElem? found) args v h i hargs
      · cases h
  · cases h

/-- Arguments that agree are the same ones. -/
theorem same_args {args args' : List Value}
    (h : List.Forall₂ (fun v w => v = w ∧ v.All P) args args') :
    args = args' ∧ ∀ a ∈ args, a.All P := by
  induction h with
  | nil => exact ⟨rfl, nofun⟩
  | cons hvw _ ih =>
      obtain ⟨rfl, hv⟩ := hvw
      obtain ⟨rfl, hall⟩ := ih
      exact ⟨rfl, List.forall_mem_cons.mpr ⟨hv, hall⟩⟩

variable (K)

/-- An evaluation compared with itself. -/
def comparison : Eval.Comparison registry where
  Values := fun i v w => v = w ∧ v.All (K.Function i)
  Scopes := fun i s t => s = t ∧ K.Scope i s
  Sound := K.Scope
  sound := fun hst => hst.2
  laterValues := fun hij hvw => ⟨hvw.1, hvw.2.mono fun _ => K.laterFunction hij⟩
  laterScopes := fun hij hst => ⟨hst.1, hst.2.later hij⟩
  alike := by
    rintro i v w ⟨rfl, -⟩
    exact .same v
  plain := fun _ _ hkind => ⟨rfl, Value.all_of_kind hkind⟩
  function := by
    rintro i f g ⟨hfg, -⟩
    cases hfg
    exact ⟨rfl, rfl, UInt64.le_refl _⟩
  depth := fun hst => congrArg Formula.Scope.depth hst.1
  get? := by
    rintro i s t ⟨rfl, hs⟩ name
    cases found : s.get? name with
    | none => exact .none
    | some v => exact .some ⟨rfl, hs.functions.find? found⟩
  set := by
    rintro i s t v w ⟨rfl, hs⟩ ⟨rfl, hv⟩ name
    exact ⟨rfl, hs.set hv name⟩
  snapshot := by
    rintro i s t ⟨rfl, hs⟩ name params body
    exact ⟨rfl, hs.snapshot name params body⟩
  frame := by
    rintro i s t f g args args' ⟨-, hs⟩ ⟨hfg, hf⟩ hargs depth
    cases hfg
    obtain ⟨rfl, hall⟩ := same_args hargs
    exact ⟨rfl, hs.callee hf hall depth⟩
  range := by
    rintro i s t ⟨rfl, -⟩ first last step xs hxs
    exact hxs
  growth := by
    rintro i s t ⟨rfl, -⟩ m lists hgrowth
    exact hgrowth
  entry := by
    intro i args args' hargs entry v hv
    obtain ⟨rfl, hall⟩ := same_args hargs
    exact ⟨v, hv, rfl, call_entry hall hv⟩

/-! ## Evaluations -/

/-- After an evaluation no fewer functions have been made, the scope is as it should be even if the
evaluation has failed, and its result satisfies `good`. -/
structure After {α : Type} (good : Nat → α → Prop) (m : Machine)
    (outcome : Except EvalError α × Machine) : Prop where
  made_le : m.made ≤ outcome.2.made
  scope : K.Scope outcome.2.made outcome.2.scope
  result : ∀ a, outcome.1 = .ok a → good outcome.2.made a

variable {m : Machine} (h : K.Scope m.made m.scope) (room : Nat)

include h in
/-- **Evaluation keeps what is kept.** -/
theorem after_code (c : Code) :
    K.After (fun i v => v.All (K.Function i)) m
      (Eval.code registry (Eval.call registry room) c m) := by
  have hself : K.comparison.Machines m m := ⟨⟨rfl, h⟩, rfl⟩
  obtain ⟨hmade, hscope, hresult⟩ :=
    K.comparison.rel_code (K.comparison.rel_call room) c m.made m m hself (Nat.le_refl _)
  refine ⟨hmade, hscope, fun v hv => ?_⟩
  obtain ⟨w, -, hall, -⟩ := hresult v hv
  exact hall.2

include h in
theorem after_codes (cs : List Code) :
    K.After (fun i vs => ∀ v ∈ vs, v.All (K.Function i)) m
      (Eval.codes registry (Eval.call registry room) cs m) := by
  have hself : K.comparison.Machines m m := ⟨⟨rfl, h⟩, rfl⟩
  obtain ⟨hmade, hscope, hresult⟩ :=
    K.comparison.rel_codes (K.comparison.rel_call room) cs m.made m m hself (Nat.le_refl _)
  refine ⟨hmade, hscope, fun vs hvs => ?_⟩
  obtain ⟨ws, -, hall, -⟩ := hresult vs hvs
  exact (same_args hall).2

end Kept

end Formula
