import Formula.Scope
import Formula.Standard.Arithmetic
import Formula.Standard.Construction
import Formula.Standard.Elementary
import Formula.Standard.Relation

set_option autoImplicit false

/-! # The standard functions and constants

`Operation.apply` is what each standard operation computes, and `Scope.standard` the scope that
binds the standard constants.
-/

namespace Formula

/-- Applies a function that takes one argument. -/
def Operation.applyOne (op : Operation) (f : Value → Except EvalError Value) :
    List Value → Except EvalError Value
  | [v] => f v
  | args => .error (Operand.wrongCount op.name op.arity args)

/-- Computes a standard operation. -/
def Operation.apply : Operation → List Value → Except EvalError Value
  | .arithmetic op => op.apply
  | .relation r => r.apply
  | .logic op => op.apply
  | .elementary f => f.apply
  | .log => logarithm
  | .complex => makeComplex
  | .ctranspose => applyOne .ctranspose Value.ctranspose
  | .transpose => applyOne .transpose Construction.transpose
  | .size => applyOne .size fun v => .ok (Construction.size v)
  | .nnz => applyOne .nnz Construction.nonzeros
  | .matrix => fun args => (Construction.matrix args).map .matrix
  | .sparse => fun args => (Construction.sparse args).map .matrix
  | .zeros => fun args => (Construction.zeros args).map .matrix
  | .identity => fun args => (Construction.identity args).map .matrix

/-- The standard constants. -/
def constants : List (String × Value) :=
  [("pi", .number (Float.ofBits 0x400921fb54442d18)),
    ("e", .number (Float.ofBits 0x4005bf0a8b145769)),
    ("tau", .number (Float.ofBits 0x401921fb54442d18)),
    ("phi", .number ((1 + Float.sqrt 5) / 2)),
    ("i", .complex ⟨0, 1⟩),
    ("Infinity", .number (Float.ofBits 0x7ff0000000000000)),
    ("NaN", .number (Float.ofBits 0x7ff8000000000000))]

/-- The scope that binds the standard constants. -/
def Scope.standard : Scope := Scope.empty.setAll constants

end Formula
