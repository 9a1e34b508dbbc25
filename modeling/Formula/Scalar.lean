import Formula.Complex
import Formula.Decimal.Layout

set_option autoImplicit false

/-! # Scalars

A matrix element is a real or a complex number. The two stay apart: a complex number with a zero
imaginary part is shown like a real one but is not equal to it. `zero` is the real zero, and
`isZero` holds of every zero, real or complex.
-/

namespace Formula

/-- The text of a complex number: `a`, `bi`, `i`, `-i`, `a + bi`, `a - bi`, `a + i` or
`a - i`. -/
def Complex.text (z : Complex) : String :=
  if z.im == 0 then Decimal.text z.re
  else if z.re == 0 then
    if z.im == 1 then "i"
    else if z.im == -1 then "-i"
    else Decimal.text z.im ++ "i"
  else
    let sign := if z.im < 0 then " - " else " + "
    let size := z.im.abs
    Decimal.text z.re ++ sign ++ (if size == 1 then "i" else Decimal.text size ++ "i")

/-- A matrix element. -/
inductive Scalar where
  | real (x : Float)
  | complex (z : Complex)
  deriving Repr, BEq, Inhabited

namespace Scalar

/-- The real zero, which fills what is not stored. -/
def zero : Scalar := .real 0

/-- The complex conjugate; a real number is its own. -/
def conj : Scalar → Scalar
  | .real x => .real x
  | .complex z => .complex z.conj

/-- Is the number a zero, of whatever sign and kind? -/
def isZero : Scalar → Bool
  | .real x => x == 0
  | .complex z => z.isZero

/-- Is the number a real one? -/
def isReal : Scalar → Bool
  | .real _ => true
  | .complex _ => false

/-- The real part. -/
def re : Scalar → Float
  | .real x => x
  | .complex z => z.re

/-- The imaginary part. -/
def im : Scalar → Float
  | .real _ => 0
  | .complex z => z.im

/-- The number as a complex one. -/
def toComplex : Scalar → Complex
  | .real x => .ofReal x
  | .complex z => z

/-- The text of the number. -/
def text : Scalar → String
  | .real x => Decimal.text x
  | .complex z => z.text

/-- Real arithmetic on two real numbers, complex arithmetic as soon as one is complex. -/
def lift (onReals : Float → Float → Float) (onComplexes : Complex → Complex → Complex) :
    Scalar → Scalar → Scalar
  | .real x, .real y => .real (onReals x y)
  | a, b => .complex (onComplexes a.toComplex b.toComplex)

instance : Add Scalar := ⟨lift (· + ·) (· + ·)⟩

instance : Sub Scalar := ⟨lift (· - ·) (· - ·)⟩

instance : Mul Scalar := ⟨lift (· * ·) (· * ·)⟩

instance : Div Scalar := ⟨lift (· / ·) (· / ·)⟩

instance : Neg Scalar :=
  ⟨fun a =>
    match a with
    | .real x => .real (-x)
    | .complex z => .complex (-z)⟩

@[simp] theorem conj_real (x : Float) : conj (.real x) = .real x := rfl

@[simp] theorem isReal_real (x : Float) : isReal (.real x) = true := rfl

@[simp] theorem isReal_complex (z : Complex) : isReal (.complex z) = false := rfl

end Scalar

end Formula
