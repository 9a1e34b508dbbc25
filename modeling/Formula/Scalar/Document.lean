import Formula.Document
import Formula.Scalar

set_option autoImplicit false

/-! # Scalars as documents

A scalar is written as a mapping with one entry: `Real` with a number, or `Complex` with the real
and the imaginary part in a sequence.
-/

namespace Formula

/-- The real number that a document is. -/
def Document.number? : Document → Option Float
  | .integer n => some (Binary64.ofInt n)
  | .real x => some x
  | _ => none

namespace Scalar

/-- The document of a scalar. -/
def toDocument : Scalar → Document
  | .real x => .mapping [("Real", .real x)]
  | .complex z => .mapping [("Complex", .sequence [.real z.re, .real z.im])]

/-- The scalar that a document holds. -/
def ofDocument? : Document → Option Scalar
  | .mapping [("Real", d)] => d.number?.map .real
  | .mapping [("Complex", .sequence [re, im])] => do
      some (.complex ⟨← re.number?, ← im.number?⟩)
  | _ => none

end Scalar

end Formula
