import Formula.Proofs.Eval.Confined
import Formula.Proofs.Eval.Kept
import Formula.Proofs.Eval.Range
import Mathlib.Logic.Relation

set_option autoImplicit false

/-! # The moments of an evaluation

An evaluation comes to evaluate one piece of code after the other: the parts of what it evaluates,
the branch of a conditional that is taken, and the body of each function that is called. A moment
is when it comes to one of them. At every moment the frame that the evaluation is in has the limits
of the function whose body it belongs to, and is no deeper than that function allows; outside of
all bodies it has the limits that the evaluation has started with. No range has more values than
the limit of its frame.
-/

namespace Formula

/-- The parts of a piece of code that are evaluated before anything else is done, in their order.
The branches of a conditional and the body of a function are none of them. -/
def Code.parts : Code → List Code
  | .constant _ | .symbol _ | .define _ _ _ => []
  | .builtin _ args | .call _ _ args => args
  | .array items => items
  | .assign _ expr => [expr]
  | .block entries => entries.map Prod.fst
  | .conditional condition _ _ => [condition]
  | .index object dimensions => object :: dimensions
  | .range start stop step => start :: stop :: step.toList
  | .update _ dimensions expr => dimensions ++ [expr]

/-- When an evaluation comes to a piece of code. -/
structure Moment where
  /-- The function whose body the code lies in, none at the top level. -/
  function : Option (Closure Value)
  /-- The number of frames that there is room for inside of this one. -/
  room : Nat
  code : Code
  machine : Machine

namespace Moment

/-- The evaluation of the code. -/
def outcome (registry : Registry) (μ : Moment) : Except EvalError Value × Machine :=
  Eval.code registry (Eval.call registry μ.room) μ.code μ.machine

/-- The moment when an evaluation begins. -/
def top (code : Code) (machine : Machine) : Moment := ⟨none, Word.last, code, machine⟩

/-- Of several pieces of code, each is come to when those before it have given their values. -/
inductive InTurn (registry : Registry) (room : Nat) :
    List Code → Machine → Code → Machine → Prop where
  | here (c : Code) (rest : List Code) (m : Machine) : InTurn registry room (c :: rest) m c m
  | behind {first c : Code} {rest : List Code} {m m' after : Machine} {v : Value}
      (hfirst : Eval.code registry (Eval.call registry room) first m = (.ok v, after))
      (hrest : InTurn registry room rest after c m') :
      InTurn registry room (first :: rest) m c m'

theorem InTurn.left {registry : Registry} {room : Nat} {cs ds : List Code} {c : Code}
    {m m' : Machine} (h : InTurn registry room cs m c m') :
    InTurn registry room (cs ++ ds) m c m' := by
  induction h with
  | here c rest m => exact .here c (rest ++ ds) m
  | behind hfirst _ ih => exact .behind hfirst ih

/-- What comes after several pieces of code comes when they all have their values. -/
theorem InTurn.right {registry : Registry} {room : Nat} {cs ds : List Code} {c : Code}
    {m after m' : Machine} {vs : List Value}
    (hcs : Eval.codes registry (Eval.call registry room) cs m = (.ok vs, after))
    (h : InTurn registry room ds after c m') : InTurn registry room (cs ++ ds) m c m' := by
  induction cs generalizing m vs with
  | nil =>
      rw [Eval.codes] at hcs
      cases hcs
      exact h
  | cons first rest ih =>
      rw [Eval.codes] at hcs
      obtain ⟨v, between, hfirst, hcs⟩ := Outcome.exists_of_bind_eq_ok hcs
      obtain ⟨ws, last, hrest, hcs⟩ := Outcome.exists_of_bind_eq_ok hcs
      cases hcs
      exact .behind hfirst (ih hrest)

/-- Every piece of code that is come to in turn has the property, at the machine of its moment. -/
def AllInTurn (registry : Registry) (room : Nat) (P : Code → Machine → Prop) (cs : List Code)
    (m : Machine) : Prop := ∀ c m', InTurn registry room cs m c m' → P c m'

namespace AllInTurn

variable {registry : Registry} {room : Nat} {P : Code → Machine → Prop} {first : Code}
  {cs ds rest : List Code} {m after : Machine}

theorem head (h : AllInTurn registry room P (first :: rest) m) : P first m :=
  h first m (.here first rest m)

theorem tail (h : AllInTurn registry room P (first :: rest) m) {v : Value}
    (hfirst : Eval.code registry (Eval.call registry room) first m = (.ok v, after)) :
    AllInTurn registry room P rest after := fun c m' hc => h c m' (.behind hfirst hc)

theorem left (h : AllInTurn registry room P (cs ++ ds) m) : AllInTurn registry room P cs m :=
  fun c m' hc => h c m' hc.left

theorem right (h : AllInTurn registry room P (cs ++ ds) m) {vs : List Value}
    (hcs : Eval.codes registry (Eval.call registry room) cs m = (.ok vs, after)) :
    AllInTurn registry room P ds after := fun c m' hc => h c m' (.right hcs hc)

end AllInTurn

/-- From one moment the evaluation comes to another one. -/
inductive Leads (registry : Registry) : Moment → Moment → Prop where
  /-- A part is evaluated in the same frame. -/
  | part {function : Option (Closure Value)} {room : Nat} {c part : Code} {m m' : Machine}
      (hpart : InTurn registry room c.parts m part m') :
      Leads registry ⟨function, room, c, m⟩ ⟨function, room, part, m'⟩
  /-- The branch that the condition chooses is evaluated in the same frame. -/
  | branch {function : Option (Closure Value)} {room : Nat}
      {condition whenTrue whenFalse : Code} {m after : Machine} {v : Value} {b : Bool}
      (hcondition : Eval.code registry (Eval.call registry room) condition m = (.ok v, after))
      (htruth : v.truth = .ok b) :
      Leads registry ⟨function, room, .conditional condition whenTrue whenFalse, m⟩
        ⟨function, room, if b then whenTrue else whenFalse, after⟩
  /-- A call whose arguments have their values, of a function that admits one more frame, evaluates
  the body in a frame of the function. -/
  | body {function : Option (Closure Value)} {room : Nat} {name : String}
      {fallback : Option Entry} {args : List Code} {m after : Machine} {values : List Value}
      {f : Closure Value}
      (hargs : Eval.codes registry (Eval.call registry (room + 1)) args m = (.ok values, after))
      (hf : after.scope.get? name = some (.function f))
      (hcount : values.length = f.params.length)
      (hadmitted : Word.succ after.scope.depth ≤ f.maxDepth.toNat) :
      Leads registry ⟨function, room + 1, .call name fallback args, m⟩
        ⟨some f, room, f.body,
          { after with scope := f.frame values (Word.succ after.scope.depth) }⟩

/-- The moments that an evaluation comes to. -/
def Comes (registry : Registry) : Moment → Moment → Prop :=
  Relation.ReflTransGen (Leads registry)

end Moment

/-! ## Ranges -/

namespace Eval

/-- The value is a row of at most `limit` numbers. -/
def Row (limit : Nat) (v : Value) : Prop :=
  ∃ xs : List Float, v = .matrix (.ofReals xs) ∧ xs.length ≤ limit

/-- In scopes with this limit the evaluation gives a row, if it gives a value. -/
def Ranges (limit : Nat) (x : Eval Value) : Prop :=
  ∀ m : Machine, m.scope.maxElements = limit → ∀ v, (x m).1 = .ok v → Row limit v

section ranges

variable {α : Type} {limit : Nat} {k : α → Eval Value}

theorem ranges_bind {x : Eval α} (hx : Confined (fun _ => True) x)
    (hk : ∀ a, Ranges limit (k a)) : Ranges limit (x >>= k) := by
  intro m hm v hv
  obtain ⟨a, after, hresult, hv⟩ := Outcome.exists_of_bind_eq_ok (Prod.ext hv rfl)
  have hlimit := (hx m).maxElements_eq.trans hm
  rw [hresult] at hlimit
  exact hk a after hlimit v (congrArg Prod.fst hv)

theorem ranges_scope {k : Scope → Eval Value}
    (hk : ∀ s, s.maxElements = limit → Ranges limit (k s)) : Ranges limit (scope >>= k) :=
  fun m hm => hk m.scope hm m hm

theorem ranges_ofExcept {o : Except EvalError α} (hk : ∀ a, o = .ok a → Ranges limit (k a)) :
    Ranges limit (ofExcept o >>= k) := by
  cases o with
  | error fault => exact fun _ _ _ hv => nomatch hv
  | ok a => exact hk a rfl

/-- The last step of a range. -/
theorem ranges_values (hlimit : limit ≤ maxElements) (first last step : Float) :
    Ranges limit (do
      let s ← scope
      let xs ← ofExcept (rangeValues first last step s.maxElements)
      pure (.matrix (.ofReals xs))) := by
  refine ranges_scope fun s hs => ranges_ofExcept fun xs hxs m _ v hv => ?_
  rw [hs] at hxs
  cases hv
  exact ⟨xs, rfl, length_rangeValues_le hlimit hxs⟩

end ranges

/-- **A range has no more values than its frame allows.** -/
theorem ranges_code (registry : Registry) (room : Nat) {limit : Nat}
    (hlimit : limit ≤ maxElements) (start stop : Code) (step : Option Code) :
    Ranges limit (code registry (call registry room) (.range start stop step)) := by
  -- the bounds are evaluated in the frame of the range and leave its limit as it is
  have hcode (c : Code) : Confined (fun _ => True) (code registry (call registry room) c) :=
    code_confined (confined_call registry room) c fun _ _ => trivial
  cases step with
  | none =>
      rw [code]
      refine ranges_bind (hcode start) fun v => ?_
      refine ranges_bind (confined_ofExcept v.toReal) fun first => ?_
      refine ranges_bind (hcode stop) fun w => ?_
      refine ranges_bind (confined_ofExcept w.toReal) fun last => ?_
      exact ranges_values hlimit first last 1
  | some step =>
      rw [code]
      refine ranges_bind (hcode start) fun v => ?_
      refine ranges_bind (confined_ofExcept v.toReal) fun first => ?_
      refine ranges_bind (hcode stop) fun w => ?_
      refine ranges_bind (confined_ofExcept w.toReal) fun last => ?_
      refine ranges_bind (hcode step) fun u => ?_
      refine ranges_bind (confined_ofExcept u.toReal) fun stride => ?_
      exact ranges_values hlimit first last stride

end Eval

/-! ## Frames -/

namespace Moment

variable {registry : Registry} (K : Kept registry)

/-- The second machine is a later one of the same frame. -/
structure Onward (m m' : Machine) : Prop where
  made_le : m.made ≤ m'.made
  scope : K.Scope m'.made m'.scope
  limits_eq : m'.scope.limits = m.scope.limits
  depth_eq : m'.scope.depth = m.scope.depth

/-- What is right at a moment of an evaluation that has started in the scope `start`. -/
structure Regular (start : Scope) (μ : Moment) : Prop where
  scope : K.Scope μ.machine.made μ.machine.scope
  /-- All frames that there is room for have depths that can be counted. -/
  counted : μ.machine.scope.depth + μ.room ≤ Word.last
  outside : μ.function = none →
    μ.machine.scope.limits = start.limits ∧ μ.machine.scope.depth = start.depth
  inside : ∀ f, μ.function = some f → K.Function μ.machine.made f ∧
    μ.machine.scope.limits = f.limits ∧ μ.machine.scope.depth ≤ f.maxDepth.toNat

variable {K} {start : Scope}

theorem onward_refl {m : Machine} (h : K.Scope m.made m.scope) : Onward K m m :=
  ⟨Nat.le_refl _, h, rfl, rfl⟩

theorem Onward.trans {m m' m'' : Machine} (h : Onward K m m') (h' : Onward K m' m'') :
    Onward K m m'' where
  made_le := Nat.le_trans h.made_le h'.made_le
  scope := h'.scope
  limits_eq := h'.limits_eq.trans h.limits_eq
  depth_eq := h'.depth_eq.trans h.depth_eq

theorem limits_eq_of_confined {W : String → Prop} {s t : Scope} (h : s.Confined W t) :
    t.limits = s.limits := by
  rw [Scope.limits, Scope.limits, h.maxDepth_eq, h.maxElements_eq]

theorem onward_code {m : Machine} (h : K.Scope m.made m.scope) (room : Nat) (c : Code) :
    Onward K m (Eval.code registry (Eval.call registry room) c m).2 := by
  have hafter := K.after_code h room c
  have hconfined : m.scope.Confined (fun _ => True)
      (Eval.code registry (Eval.call registry room) c m).2.scope :=
    Eval.code_confined (Eval.confined_call registry room) c (fun _ _ => trivial) m
  exact ⟨hafter.made_le, hafter.scope, limits_eq_of_confined hconfined, hconfined.depth_eq⟩

theorem onward_codes {m : Machine} (h : K.Scope m.made m.scope) (room : Nat) (cs : List Code) :
    Onward K m (Eval.codes registry (Eval.call registry room) cs m).2 := by
  have hafter := K.after_codes h room cs
  have hconfined : m.scope.Confined (fun _ => True)
      (Eval.codes registry (Eval.call registry room) cs m).2.scope :=
    Eval.codes_confined (Eval.confined_call registry room) cs (fun _ _ => trivial) m
  exact ⟨hafter.made_le, hafter.scope, limits_eq_of_confined hconfined, hconfined.depth_eq⟩

theorem InTurn.onward {room : Nat} {cs : List Code} {c : Code} {m m' : Machine}
    (h : InTurn registry room cs m c m') (hm : K.Scope m.made m.scope) : Onward K m m' := by
  induction h with
  | here c rest m => exact onward_refl hm
  | @behind first c rest m m' after v hfirst _ ih =>
      have hstep := onward_code hm room first
      rw [hfirst] at hstep
      exact hstep.trans (ih hstep.scope)

/-- A moment that is later in the same frame is as right as the one before. -/
theorem Regular.onward {function : Option (Closure Value)} {room : Nat} {c c' : Code}
    {m m' : Machine} (h : Regular K start ⟨function, room, c, m⟩) (hon : Onward K m m') :
    Regular K start ⟨function, room, c', m'⟩ where
  scope := hon.scope
  counted := by
    -- evaluating in a frame changes neither its depth nor its limits
    show m'.scope.depth + room ≤ Word.last
    rw [hon.depth_eq]
    exact h.counted
  outside := by
    intro hnone
    obtain ⟨hlimits, hdepth⟩ := h.outside hnone
    exact ⟨hon.limits_eq.trans hlimits, hon.depth_eq.trans hdepth⟩
  inside := by
    intro f hf
    obtain ⟨hfunction, hlimits, hdepth⟩ := h.inside f hf
    refine ⟨K.laterFunction hon.made_le hfunction, hon.limits_eq.trans hlimits, ?_⟩
    show m'.scope.depth ≤ f.maxDepth.toNat
    rw [hon.depth_eq]
    exact hdepth

/-- What is right at one moment is right at the next one. -/
theorem Leads.regular {μ ν : Moment} (h : Leads registry μ ν) (hμ : Regular K start μ) :
    Regular K start ν := by
  cases h with
  | part hpart => exact hμ.onward (hpart.onward hμ.scope)
  | @branch function room condition whenTrue whenFalse m after v b hcondition _ =>
      have hon := onward_code hμ.scope room condition
      rw [hcondition] at hon
      exact hμ.onward hon
  | @body function room name fallback args m after values f hargs hf hcount hadmitted =>
      have hon := onward_codes hμ.scope (room + 1) args
      have hvalues := (K.after_codes hμ.scope (room + 1) args).result
      rw [hargs] at hon hvalues
      -- all functions within reach of the scope are kept, the one that is called among them
      have hfall := hon.scope.functions.find? hf
      have hroom : after.scope.depth + (room + 1) ≤ Word.last := by
        rw [hon.depth_eq]
        exact hμ.counted
      -- the depth is not at the end of all words, because there is room left
      have hsucc : Word.succ after.scope.depth = after.scope.depth + 1 := by
        refine Word.succ_of_lt ?_
        have : Word.last < Word.size := by decide
        omega
      refine ⟨hon.scope.callee hfall (hvalues values rfl) _, ?_, nofun, ?_⟩
      · show Word.succ after.scope.depth + room ≤ Word.last
        omega
      · rintro g ⟨rfl⟩
        exact ⟨(Value.all_function.mp hfall).1, rfl, hadmitted⟩

/-- **Every moment of an evaluation is within the limits of its frame.** -/
theorem Comes.regular {μ ν : Moment} (h : Comes registry μ ν) (hμ : Regular K start μ) :
    Regular K start ν := by
  induction h with
  | refl => exact hμ
  | tail _ hstep ih => exact hstep.regular ih

/-- An evaluation starts right in a scope that no function has been called from. -/
theorem regular_top {m : Machine} (h : K.Scope m.made m.scope) (hdepth : m.scope.depth = 0)
    (c : Code) : Regular K m.scope (top c m) where
  scope := h
  counted := by
    show m.scope.depth + Word.last ≤ Word.last
    rw [hdepth, Nat.zero_add]
  outside := fun _ => ⟨rfl, rfl⟩
  inside := nofun

end Moment

end Formula
