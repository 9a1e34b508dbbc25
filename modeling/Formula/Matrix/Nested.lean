import Formula.Matrix.Shape

set_option autoImplicit false

/-! # Nested sequences

The data a matrix is written with: numbers in sequences in sequences. `shape` demands that all
items of a sequence have the same shape; an empty sequence has the extent zero and ends the
shape.
-/

namespace Formula

/-- A number, or a sequence of nested sequences. -/
inductive Nested where
  | scalar (x : Scalar)
  | seq (items : List Nested)
  deriving Repr

namespace Nested

mutual

/-- The extents of a rectangular sequence, outermost first. -/
def shape : Nested → Except EvalError (List Nat)
  | .scalar _ => .ok []
  | .seq [] => .ok [0]
  | .seq (first :: rest) => do
      let inner ← shape first
      sameShape inner rest
      .ok ((rest.length + 1) :: inner)

/-- Fails at the first item of another shape than `expected`. -/
def sameShape (expected : List Nat) : List Nested → Except EvalError Unit
  | [] => .ok ()
  | item :: rest => do
      let other ← shape item
      if other = expected then sameShape expected rest
      else .error (.dimension (.mismatch other expected))

end

mutual

/-- The numbers of a nested sequence from left to right. -/
def leaves : Nested → List Scalar
  | .scalar x => [x]
  | .seq items => leavesAll items

/-- The numbers of several nested sequences from left to right. -/
def leavesAll : List Nested → List Scalar
  | [] => []
  | item :: rest => leaves item ++ leavesAll rest

end

end Nested

end Formula
