import Formula.Decimal.Literal
import Formula.Standard.Operand
import Formula.Text.Blank

set_option autoImplicit false

/-! # Elementary functions

Functions of one number. Roots and logarithms of negative numbers are complex; otherwise a real
number has a real result. Rounding rounds the two parts of a complex number on their own.

A complex number is also read from a text. Blanks do not count; the text is

    a,  bi,  a + bi  or  a - bi

where `i` alone stands for `1i`, and the last sign that does not belong to a power of ten divides
the two parts.
-/

namespace Formula

namespace Scalar

/-- Applies a function to both parts. -/
def onParts (f : Float → Float) : Scalar → Scalar
  | .real x => .real (f x)
  | .complex z => .complex ⟨f z.re, f z.im⟩

/-- Computes with reals as long as the number is real and `inside` its domain. -/
def byDomain (inside : Float → Bool) (onReal : Float → Float) (onComplex : Complex → Complex) :
    Scalar → Scalar
  | .real x => if inside x then .real (onReal x) else .complex (onComplex (.ofReal x))
  | .complex z => .complex (onComplex z)

/-- The absolute value. -/
def abs : Scalar → Scalar
  | .real x => .real x.abs
  | .complex z => .real z.norm

/-- The natural logarithm. -/
def log : Scalar → Scalar := byDomain (fun x => !(x < 0)) Float.log Complex.log

end Scalar

namespace Elementary

/-- The value of an elementary function. -/
def value : Elementary → Scalar → Scalar
  | abs => Scalar.abs
  | sqrt => Scalar.byDomain (fun x => !(x < 0)) Float.sqrt Complex.sqrt
  | exp => Scalar.byDomain (fun _ => true) Float.exp Complex.exp
  | sin => Scalar.byDomain (fun _ => true) Float.sin Complex.sin
  | cos => Scalar.byDomain (fun _ => true) Float.cos Complex.cos
  | tan => Scalar.byDomain (fun _ => true) Float.tan Complex.tan
  | floor => Scalar.onParts Float.floor
  | ceil => Scalar.onParts Float.ceil
  | round => Scalar.onParts Float.round
  | conj => Scalar.conj
  | re => fun x => .real x.re
  | im => fun x => .real x.im

/-- Computes an elementary function of a value. -/
def apply (f : Elementary) : List Value → Except EvalError Value
  | [v] => Operand.unary f.name v fun x => .ok (f.value x)
  | args => .error (Operand.wrongCount f.name (.exactly 1) args)

end Elementary

/-- The natural logarithm, or the one to a base. -/
def logarithm : List Value → Except EvalError Value
  | [v] => Operand.unary "log" v fun x => .ok x.log
  | [v, base] => Operand.broadcast "log" v base fun x b => .ok (x.log / b.log)
  | args => .error (Operand.wrongCount "log" (.between 1 2) args)

/-! ## Reading complex numbers -/

namespace Complex

/-- Splits a text in front of its last sign that is neither its first character nor behind the
letter of a power of ten. `before` is the part passed so far, reversed. -/
def splitAtSign (before : List Char) : List Char → Option (List Char × List Char)
  | [] => none
  | c :: rest =>
      match splitAtSign (c :: before) rest with
      | some parts => some parts
      | none =>
          let isSign := c = '+' ∨ c = '-'
          match before with
          | [] => none
          | last :: _ =>
              if isSign ∧ last ≠ 'e' ∧ last ≠ 'E' then some (before.reverse, c :: rest) else none

/-- The number in front of the `i` that ends an imaginary part. -/
def readFactor (cs : List Char) : Option Float :=
  match cs with
  | [] => some 1
  | ['+'] => some 1
  | ['-'] => some (-1)
  | cs => Decimal.read? (String.ofList cs)

/-- The complex number written by a text. -/
def read? (text : String) : Option Complex :=
  let compact := text.toList.filter fun c => !Text.isBlank c
  if compact = [] then none
  else if compact.getLast? ≠ some 'i' then
    (Decimal.read? (String.ofList compact)).map .ofReal
  else
    match splitAtSign [] compact with
    | some (front, back) => do
        let re ← Decimal.read? (String.ofList front)
        let im ← readFactor back.dropLast
        some ⟨re, im⟩
    | none => (readFactor compact.dropLast).map fun im => ⟨0, im⟩

end Complex

/-- The complex number of a text, of a number, or of two parts. -/
def makeComplex : List Value → Except EvalError Value
  | [.string text] =>
      match Complex.read? text with
      | some z => .ok (.complex z)
      | none => .error (.argument (.complexText text))
  | [v] => v.toScalar.map fun x => .complex x.toComplex
  | [v, w] => do
      let re ← v.toReal
      let im ← w.toReal
      .ok (.complex ⟨re, im⟩)
  | args => .error (Operand.wrongCount "complex" (.between 1 2) args)

end Formula
