import Formula.Value.Basic

set_option autoImplicit false

/-! # Operands

Most functions take numbers and matrices and nothing else. A function of one or two numbers is
extended to matrices element by element: `unary` applies it to each element, `broadcast` to the
elements of two matrices of one shape in pairs, or to a number and each element. The result is a
dense matrix; the first element that fails is the error.
-/

namespace Formula

/-- An argument that can be computed with. -/
inductive Operand where
  | scalar (x : Scalar)
  | matrix (m : Matrix)

namespace Operand

/-- A function does not take a value of this kind. -/
def unsupported (function : String) (v : Value) : EvalError :=
  .type (.argument function v.kind)

/-- A function does not take this many arguments. -/
def wrongCount (function : String) (expected : Arity) (args : List Value) : EvalError :=
  .argument (.arity function expected args.length)

/-- The operand that a value is. -/
def ofValue (function : String) : Value → Except EvalError Operand
  | .number x => .ok (.scalar (.real x))
  | .boolean b => .ok (.scalar (.real (Value.bit b)))
  | .complex z => .ok (.scalar (.complex z))
  | .matrix m => .ok (.matrix m)
  | v => .error (unsupported function v)

/-- Applies a function to every element. -/
def mapElements (m : Matrix) (f : Scalar → Except EvalError Scalar) : Except EvalError Value := do
  let elements ← m.expand
  let data ← elements.mapM f
  (Matrix.ofData data m.shape).map .matrix

/-- Extends a function of one number to matrices. -/
def unary (function : String) (v : Value) (f : Scalar → Except EvalError Scalar) :
    Except EvalError Value := do
  match ← ofValue function v with
    | .scalar x => (f x).map .ofScalar
    | .matrix m => mapElements m f

/-- Extends a function of two numbers to matrices. -/
def broadcast (function : String) (v w : Value) (f : Scalar → Scalar → Except EvalError Scalar) :
    Except EvalError Value := do
  let left ← ofValue function v
  let right ← ofValue function w
  match left, right with
    | .scalar x, .scalar y => (f x y).map .ofScalar
    | .matrix m, .scalar y => mapElements m fun x => f x y
    | .scalar x, .matrix m => mapElements m fun y => f x y
    | .matrix m, .matrix n => (m.zipWith n f).map .matrix

/-- The string that an argument is. -/
def toText (function : String) : Value → Except EvalError String
  | .string s => .ok s
  | v => .error (unsupported function v)

/-- The natural number that an argument is. -/
def toCount (function : String) (v : Value) : Except EvalError Nat := do
  let x ← v.toReal
  if x < 0 || !Binary64.isWhole x then .error (.argument (.notNatural function x))
  else .ok (Word.ofFloat x)

end Operand

end Formula
