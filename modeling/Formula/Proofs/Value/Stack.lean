import Formula.Value.Basic
import Formula.Proofs.Matrix.Element
import Formula.Proofs.Matrix.Rectangular

set_option autoImplicit false

/-! # Stacked items

Numbers make a vector, and matrices of one shape make a matrix with a new first axis that numbers
them. The items are written as nested sequences on the way, and a sequence without items cannot show
what lies behind a zero extent. So what has to agree is what the shapes show (`collect_eq_ok_iff`),
which is all of them as long as no extent but the last one is zero.
-/

namespace Formula

namespace Value

open Outcome

/-- Can the value be an item of a matrix? -/
def isItem : Value → Bool
  | .number _ => true
  | .boolean _ => true
  | .complex _ => true
  | .matrix _ => true
  | _ => false

/-- The numbers of an item in row-major order. -/
def entries : Value → List Scalar
  | .number x => [.real x]
  | .boolean b => [.real (bit b)]
  | .complex z => [.complex z]
  | .matrix m => m.elements.toList
  | _ => []

/-- What is asked of a matrix: it is well formed and a word counts its positions. -/
def Countable : Value → Prop
  | .matrix m => m.WellFormed ∧ Shape.count m.shape < Word.size
  | _ => True

variable {v : Value} {items : List Value} {nested : Nested} {result : Value}

/-! ## One item -/

end Value

end Formula
