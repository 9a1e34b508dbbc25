import Formula.Standard.Operand

set_option autoImplicit false

/-! # Comparisons and connectives

Numbers are compared element by element; NaN is not ordered to anything, and complex numbers are
equal or not but never ordered. Two strings are ordered by their code points. Null is equal to
null alone.
-/

namespace Formula

namespace Relation

/-- How two real numbers are ordered; not at all if one is NaN. -/
def order (x y : Float) : Option Ordering :=
  if x < y then some .lt else if x == y then some .eq else if y < x then some .gt else none

/-- Do two numbers stand in the relation? The answer is one or zero. -/
def compareScalars (r : Relation) : Scalar → Scalar → Except EvalError Scalar
  | .real x, .real y => .ok (.real (Value.bit (r.holds (order x y))))
  | x, y =>
      if r.isEquality then
        let same := x.toComplex == y.toComplex
        .ok (.real (Value.bit (if r = equal then same else !same)))
      else .error (.type (.unordered r.name))

/-- The answer of a comparison of two numbers as a truth value. -/
def asTruth : Value → Value
  | .number x => .boolean (x != 0)
  | v => v

/-- Compares two values that are not both strings or null. -/
def compareNumbers (r : Relation) (v w : Value) : Except EvalError Value :=
  (Operand.broadcast r.name v w r.compareScalars).map asTruth

/-- Compares two values. -/
def compare (r : Relation) (v w : Value) : Except EvalError Value :=
  let withNull := if r.isEquality then .ok (.boolean (r == unequal)) else r.compareNumbers v w
  match v, w with
  | .string s, .string t => .ok (.boolean (r.holds (some (compareOfLessAndEq s t))))
  | .null, .null => .ok (.boolean (r.holds (some .eq)))
  | .null, _ => withNull
  | _, .null => withNull
  | v, w => r.compareNumbers v w

/-- Computes a comparison. -/
def apply (r : Relation) : List Value → Except EvalError Value
  | [v, w] => r.compare v w
  | args => .error (Operand.wrongCount r.name (.exactly 2) args)

end Relation

namespace Logic

/-- The negation of a truth value, or of each element of a matrix. -/
def negate : Value → Except EvalError Value
  | .matrix m => Operand.mapElements m fun x => .ok (.real (Value.bit x.isZero))
  | v => v.truth.map fun b => .boolean !b

/-- Computes a connective. `and` and `or` look at the second argument only if the first one does
not decide. -/
def apply : Logic → List Value → Except EvalError Value
  | not, [v] => negate v
  | and, [v, w] => do
      if ← v.truth then w.truth.map .boolean else .ok (.boolean false)
  | or, [v, w] => do
      if ← v.truth then .ok (.boolean true) else w.truth.map .boolean
  | xor, [v, w] => do
      let a ← v.truth
      let b ← w.truth
      .ok (.boolean (a != b))
  | op, args => .error (Operand.wrongCount op.name op.arity args)

end Logic

end Formula
