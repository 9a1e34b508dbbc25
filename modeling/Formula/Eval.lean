import Formula.Matrix.Select
import Formula.Registry

set_option autoImplicit false

/-! # Evaluation

Code is evaluated in a scope. An evaluation ends with a value or an error, and in both cases with
a scope, because what was assigned before an error stays assigned.

A call of a function value runs the body in a frame one deeper than the frame that calls, and is
refused if the frame would be deeper than the function's own limit. That limit is a 64-bit count,
so there is `room` for at most `Word.last` frames inside each other; a frame hands one less to the
calls it makes, and evaluation is a recursion on the room and the code.

How code is evaluated does not depend on how function values are called, so the walk over code
runs in any monad that evaluations can be lifted into, and takes the way of calling as an argument.
-/

namespace Formula

/-- What an evaluation changes. -/
structure Machine where
  scope : Scope
  /-- The number of functions made so far, which is the stamp of the next one. -/
  made : Nat
  events : Array Event

/-- An evaluation fails with an error and changes the machine in either case. -/
abbrev Eval := ExceptT EvalError (StateM Machine)

namespace Eval

/-- The scope at this moment. -/
def scope : Eval Scope := return (← get).scope

/-- Reports events. -/
def report (events : List Event) : Eval Unit :=
  modify fun m => { m with events := m.events ++ events }

/-- Fails. -/
def fail {α : Type} (fault : EvalError) : Eval α := throw fault

/-- The outcome of a computation that changes nothing. -/
def ofExcept {α : Type} (outcome : Except EvalError α) : Eval α := liftExcept outcome

/-- Gives a variable a value. -/
def assign (name : String) (v : Value) : Eval Unit :=
  modify fun m => { m with scope := m.scope.set name v }

/-- A stamp that no function has. -/
def freshStamp : Eval Nat :=
  modifyGet fun m => (m.made, { m with made := m.made + 1 })

/-- Runs an evaluation in another scope and comes back to the scope before. -/
def inFrame {α : Type} (frame : Scope) (body : Eval α) : Eval α := fun m =>
  let (r, after) := body { m with scope := frame }
  (r, { after with scope := m.scope })

/-- Calls an entry of the namespace. -/
def callEntry (registry : Registry) (entry : Entry) (args : List Value) : Eval Value := do
  let r := entry.call registry args
  report (entry.reported r)
  ofExcept r

/-! ## Positions -/

/-- The index, counted from zero, of a position, counted from one. -/
def indexOf (position : Float) : Except EvalError Nat :=
  if !Binary64.isWhole position || position < 1 then .error (.index (.notPosition position))
  else .ok (Word.ofFloat position - 1)

/-- The indices that a dimension selects. -/
def indices : Value → Except EvalError (List Nat)
  | .matrix m => do
      let data ← m.expand
      data.toList.mapM fun x =>
        match x with
        | .real x => indexOf x
        | x => .error (.index (.complexPosition x))
  | v => do
      let x ← v.toReal
      (indexOf x).map ([·])

/-- The character of a string at an index. -/
def charAt (cs : Array Char) (i : Nat) : Except EvalError Char :=
  match cs[i]? with
  | some c => .ok c
  | none => .error (.index (.stringOutside (i + 1) cs.size))

/-- The part of a value that lists of indices select. One position alone selects an element. -/
def select (target : Value) (lists : List (List Nat)) : Except EvalError Value :=
  match target, lists with
  | .matrix m, lists => do
      let part ← m.subset lists
      if lists.all fun list => list.length == 1 then
        (part.get (lists.map fun _ => 0)).map .ofScalar
      else .ok (.matrix part)
  | .string s, [list] => (list.mapM (charAt s.toList.toArray)).map fun cs => .string (.ofList cs)
  | .string _, lists => .error (.index (.stringRank lists.length))
  | v, _ => .error (.type (.notIndexable v.kind))

/-! ## Ranges -/

/-- The values from `start` to `stop`, which must be fewer than `limit + 1`. The end is reached
within a tolerance of `10 ^ -10` steps. -/
def rangeValues (start stop step : Float) (limit : Nat) : Except EvalError (List Float) :=
  if step == 0 then .error (.argument .zeroStep)
  else if !(start.isFinite && stop.isFinite && step.isFinite) then
    .error (.argument (.infiniteRange start step stop))
  else
    let steps := ((stop - start) / step + 1e-10).floor
    if steps < 0 then .ok []
    else if steps < Binary64.ofNat limit then
      .ok ((List.range (Word.ofFloat steps + 1)).map fun k => start + Binary64.ofNat k * step)
    else .error (.dimension (.range start step stop limit))

/-! ## Updates -/

/-- The shape after writing at all selected positions, if there are as many lists as axes. -/
def grownShape (shape : List Nat) (lists : List (List Nat)) : List Nat :=
  if shape.length = lists.length then
    shape.zipWith (fun d list => list.foldl (fun d i => max d (Word.satSucc i)) d) lists
  else shape

/-- The matrix that a value is when it is assigned to a part of a matrix. -/
def replacement : Value → Except EvalError Matrix
  | .matrix m => .ok m
  | v => do
      let x ← v.toScalar
      Matrix.ofData #[x] [1]

/-- Growing a dense matrix to the selected positions has to stay within a limit. -/
def checkGrowth (m : Matrix) (lists : List (List Nat)) (limit : Nat) : Except EvalError Unit :=
  match m.storageKind with
  | .dense => (Shape.checkedCount (grownShape m.shape lists) limit).map fun _ => ()
  | .sparse => .ok ()

/-- The matrix that a variable holds. -/
def variableMatrix (s : Scope) (name : String) : Except EvalError Matrix :=
  match s.get? name with
  | some (.matrix m) => .ok m
  | some v => .error (.type (.notUpdatable v.kind name))
  | none => .error (.undefinedSymbol name)

/-- The growth that an assignment to a part of a matrix causes. -/
def growthEvents (m : Matrix) (lists : List (List Nat)) (r : Matrix) : List Event :=
  match m.storageKind, m.assignments lists r with
  | .dense, .ok writes => (m.growths writes).map fun g => .resizing g.1 g.2
  | _, _ => []

/-- Assigns a value to the selected part of a variable. -/
def updateVariable (name : String) (lists : List (List Nat)) (v : Value) : Eval Unit := do
  let s ← scope
  let m ← ofExcept (variableMatrix s name)
  let r ← ofExcept (replacement v)
  ofExcept (checkGrowth m lists s.maxElements)
  report (growthEvents m lists r)
  let (outcome, written) := m.setSubset lists r
  ofExcept outcome
  assign name (.matrix written)

/-! ## Code -/

/-- How a function value is called: with arguments, in a frame of the given depth. -/
abbrev Caller (m : Type → Type) := Closure Value → List Value → Nat → m Value

section

variable {m : Type → Type} [Monad m] [MonadLiftT Eval m]

/-- Calls what a name stands for: the function held by the variable, or the entry if there is no
such variable. -/
@[specialize]
def callNamed (registry : Registry) (call : Caller m) (name : String) (fallback : Option Entry)
    (args : List Value) : m Value := do
  let s ← scope
  match s.get? name, fallback with
    | some (.function f), _ => call f args (Word.succ s.depth)
    | some _, _ => fail (.notCallable name)
    | none, some entry => callEntry registry entry args
    | none, none => fail (.undefinedSymbol name)

mutual

/-- Evaluates code, calling function values by `call`. -/
@[specialize]
def code (registry : Registry) (call : Caller m) : Code → m Value
  | .constant value => pure (.ofLiteral value)
  | .symbol name => do
      match (← scope).get? name with
        | some v => pure v
        | none => fail (.undefinedSymbol name)
  | .builtin entry args => do
      let values ← codes registry call args
      callEntry registry entry values
  | .call name fallback args => do
      let values ← codes registry call args
      callNamed registry call name fallback values
  | .array items => do
      let values ← codes registry call items
      ofExcept (Value.collect values)
  | .assign name expr => do
      let v ← code registry call expr
      assign name v
      pure v
  | .block entries => blockEntries registry call .null entries
  | .conditional condition whenTrue whenFalse => do
      let v ← code registry call condition
      if ← ofExcept v.truth then code registry call whenTrue else code registry call whenFalse
  | .define name params body => do
      let f := (← scope).snapshot name params body (← freshStamp)
      assign name (.function f)
      pure (.function f)
  | .index object dimensions => do
      let target ← code registry call object
      let values ← codes registry call dimensions
      let lists ← ofExcept (values.mapM indices)
      ofExcept (select target lists)
  | .range start stop none => do
      let start ← ofExcept (← code registry call start).toReal
      let stop ← ofExcept (← code registry call stop).toReal
      let values ← ofExcept (rangeValues start stop 1 (← scope).maxElements)
      pure (.matrix (.ofReals values))
  | .range start stop (some step) => do
      let start ← ofExcept (← code registry call start).toReal
      let stop ← ofExcept (← code registry call stop).toReal
      let step ← ofExcept (← code registry call step).toReal
      let values ← ofExcept (rangeValues start stop step (← scope).maxElements)
      pure (.matrix (.ofReals values))
  | .update name dimensions expr => do
      let values ← codes registry call dimensions
      let lists ← ofExcept (values.mapM indices)
      let v ← code registry call expr
      updateVariable name lists v
      pure v

/-- Evaluates several pieces of code from left to right. -/
@[specialize]
def codes (registry : Registry) (call : Caller m) : List Code → m (List Value)
  | [] => pure []
  | first :: rest => do
      let v ← code registry call first
      let vs ← codes registry call rest
      pure (v :: vs)

/-- Evaluates the statements of a block. The value is the one of the last statement whose value is
shown, `last` if there is none. -/
@[specialize]
def blockEntries (registry : Registry) (call : Caller m) (last : Value) :
    List (Code × Bool) → m Value
  | [] => pure last
  | (first, visible) :: rest => do
      let v ← code registry call first
      blockEntries registry call (if visible then v else last) rest

end

end

/-- Calls a function value in a frame of the given depth, with room for `room` frames inside each
other. -/
def call (registry : Registry) (room : Nat) : Caller Eval := fun f args depth =>
  if args.length ≠ f.params.length then
    fail (.argument (.parameters f.name args.length f.params.length))
  else if f.maxDepth.toNat < depth then fail (.recursionLimit f.maxDepth.toNat)
  else
    match room with
    | 0 => fail (.recursionLimit f.maxDepth.toNat)
    | room + 1 => inFrame (f.frame args depth) (code registry (call registry room) f.body)

/-- Evaluates code at the top level. -/
def run (registry : Registry) (c : Code) : Eval Value := code registry (call registry Word.last) c

end Eval

end Formula
