import Formula.Proofs.Eval.Frame

set_option autoImplicit false

/-! # Watching the calls of an evaluation

An observed evaluation is an evaluation that also keeps a record of the calls of function values,
each with the depth of the frame that calls, the depth of the frame that the body ran in, and the
answer. Code is walked by `Eval.code` here, too; only the way of calling is another one, `call`,
which does what `Eval.call` does and writes it down.
-/

namespace Formula

/-- A call of a function value. -/
structure Call where
  function : Closure Value
  args : List Value
  /-- The depth of the frame that calls. -/
  caller : Nat
  /-- The depth of the frame that the body ran in, `none` if it did not run. -/
  frame : Option Nat
  answer : Except EvalError Value

/-- An evaluation that keeps a record of the calls that have ended, the last one first. -/
abbrev Observed := ExceptT EvalError (StateT (List Call) (StateM Machine))

namespace Observed

/-- An evaluation in which nothing is called. -/
def ofEval {α : Type} (x : Eval α) : Observed α := fun calls m =>
  let (r, after) := x m
  ((r, calls), after)

instance : MonadLift Eval Observed := ⟨ofEval⟩

/-- A call that ends with an error before the body runs. -/
def refuse (f : Closure Value) (args : List Value) (fault : EvalError) : Observed Value :=
  fun calls m => ((.error fault, ⟨f, args, m.scope.depth, none, .error fault⟩ :: calls), m)

/-- A call that runs the body in a frame. -/
def enter (f : Closure Value) (args : List Value) (frame : Scope) (body : Observed Value) :
    Observed Value := fun calls m =>
  let start := { m with scope := frame }
  let ((r, within), after) := body calls start
  ((r, ⟨f, args, m.scope.depth, some start.scope.depth, r⟩ :: within),
    { after with scope := m.scope })

/-- Calls a function value in a frame of the given depth, with room for `room` frames inside each
other. -/
def call (registry : Registry) (room : Nat) : Eval.Caller Observed := fun f args depth =>
  if args.length ≠ f.params.length then
    refuse f args (.argument (.parameters f.name args.length f.params.length))
  else if f.maxDepth.toNat < depth then refuse f args (.recursionLimit f.maxDepth.toNat)
  else
    match room with
    | 0 => refuse f args (.recursionLimit f.maxDepth.toNat)
    | room + 1 =>
        enter f args (f.frame args depth) (Eval.code registry (call registry room) f.body)

/-- Evaluates code at the top level, with room for `room` frames inside each other. -/
def run (registry : Registry) (room : Nat) (c : Code) : Observed Value :=
  Eval.code registry (call registry room) c

end Observed

/-- What is right about a call where no limit is above `M`. -/
structure Call.Lawful (M : Nat) (c : Call) : Prop where
  /-- No body runs in a frame deeper than `M`. -/
  frame_le : ∀ depth, c.frame = some depth → depth ≤ M
  /-- The frame of the body is one deeper than the frame that calls. -/
  frame_eq : ∀ depth, c.frame = some depth → depth = c.caller + 1
  /-- A call that would exceed the limit of the function is refused with that limit. -/
  refused : c.args.length = c.function.params.length → c.function.maxDepth.toNat < c.caller + 1 →
    c.frame = none ∧ c.answer = .error (.recursionLimit c.function.maxDepth.toNat)
  /-- Any other call of as many arguments as parameters runs the body. -/
  entered : c.args.length = c.function.params.length → c.caller + 1 ≤ c.function.maxDepth.toNat →
    c.frame = some (c.caller + 1)

/-- All calls in a record are lawful. -/
def LawfulRecord (M : Nat) (calls : List Call) : Prop := ∀ c ∈ calls, c.Lawful M

theorem lawfulRecord_cons {M : Nat} {c : Call} {calls : List Call} (hc : c.Lawful M)
    (hcalls : LawfulRecord M calls) : LawfulRecord M (c :: calls) :=
  List.forall_mem_cons.mpr ⟨hc, hcalls⟩

/-! ## Watching changes nothing -/

/-- The evaluation `x` keeps its frame, and `y` ends as `x` does and records nothing but lawful
calls. -/
structure Observes {α : Type} (M depth : Nat) (good : α → Prop) (x : Eval α) (y : Observed α) :
    Prop where
  keeps : Eval.Keeps M depth good x
  agrees : ∀ m calls, m.Fits M depth → LawfulRecord M calls →
    ∃ within, y calls m = (((x m).1, within), (x m).2) ∧ LawfulRecord M within

section observes

variable {M depth : Nat} {α β : Type} {good : α → Prop} {good' : β → Prop}

theorem observes_lift {x : Eval α} (hx : Eval.Keeps M depth good x) :
    Observes M depth good (liftM x) (liftM x) :=
  ⟨hx, fun _ calls _ lawful => ⟨calls, rfl, lawful⟩⟩

theorem observes_pure {a : α} (h : good a) : Observes M depth good (pure a) (pure a) :=
  observes_lift (Eval.keeps_pure h)

theorem observes_bind {x : Eval α} {y : Observed α} {k : α → Eval β} {l : α → Observed β}
    (h : Observes M depth good x y) (hk : ∀ a, good a → Observes M depth good' (k a) (l a)) :
    Observes M depth good' (x >>= k) (y >>= l) := by
  refine ⟨Eval.keeps_bind h.keeps fun a ha => (hk a ha).keeps, fun m calls hm lawful => ?_⟩
  obtain ⟨hafter, hgood⟩ := h.keeps m hm
  obtain ⟨within, hy, hwithin⟩ := h.agrees m calls hm lawful
  have hsecond : (y >>= l) calls m
      = ExceptT.bindCont l (y calls m).1.1 (y calls m).1.2 (y calls m).2 := rfl
  rw [Outcome.bind_apply, hsecond, hy]
  cases hx : (x m).1 with
  | error fault => exact ⟨within, rfl, hwithin⟩
  | ok a => exact (hk a (hgood a hx)).agrees _ within hafter hwithin

/-- Refusing a call writes the call down and does nothing else. -/
theorem observes_refuse {f : Closure Value} {args : List Value} {fault : EvalError}
    (lawful : Call.Lawful M ⟨f, args, depth, none, .error fault⟩) :
    Observes M depth (Value.Within M) (Eval.fail fault) (Observed.refuse f args fault) := by
  refine ⟨Eval.keeps_fail _ fault, fun m calls hm hcalls => ⟨_, rfl, ?_⟩⟩
  rw [hm.depth_eq]
  exact lawfulRecord_cons lawful hcalls

/-- A body that may be watched in a frame may be watched when the frame is entered. -/
theorem observes_enter {f : Closure Value} {args : List Value} {frame : Scope} {inner : Nat}
    {x : Eval Value} {y : Observed Value} (hdepth : frame.depth = inner)
    (hdeepest : frame.deepest ≤ M) (h : Observes M inner (Value.Within M) x y)
    (lawful : ∀ r, Call.Lawful M ⟨f, args, depth, some inner, r⟩) :
    Observes M depth (Value.Within M) (Eval.inFrame frame x) (Observed.enter f args frame y) := by
  have hstart (m : Machine) : Machine.Fits M inner { m with scope := frame } :=
    ⟨hdepth, hdeepest⟩
  refine ⟨fun m hm => ?_, fun m calls hm hcalls => ?_⟩
  · obtain ⟨-, hgood⟩ := h.keeps _ (hstart m)
    exact ⟨⟨hm.depth_eq, hm.deepest_le⟩, hgood⟩
  · obtain ⟨within, hy, hwithin⟩ := h.agrees _ calls (hstart m) hcalls
    -- the record of the call itself is put in front of those made within
    have henter : Observed.enter f args frame y calls m
        = (((y calls { m with scope := frame }).1.1,
            ⟨f, args, m.scope.depth, some frame.depth, (y calls { m with scope := frame }).1.1⟩
              :: (y calls { m with scope := frame }).1.2),
          { (y calls { m with scope := frame }).2 with scope := m.scope }) := rfl
    rw [henter, hy, hm.depth_eq, hdepth]
    exact ⟨_, rfl, lawfulRecord_cons (lawful _) hwithin⟩

end observes

end Formula
