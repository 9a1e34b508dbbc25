import Formula.Binary64

set_option autoImplicit false

/-! # Complex numbers

Pairs of doubles with the usual arithmetic. Each function is fixed down to the order of its
operations, because results are compared bit by bit: a product is never reassociated, a
quotient divides by the squared modulus, and a power with a whole exponent multiplies by
repeated squaring while any other power goes through the logarithm.
-/

namespace Formula

/-- A complex number `re + im·i`. -/
structure Complex where
  re : Float
  im : Float
  deriving Repr, BEq, Inhabited

/-! ## Moduli -/

namespace Modulus

/-- `√(big² + small²)` for `big ≥ small ≥ 0` whose squares neither overflow nor underflow: the
rounded square root, improved by one correction step. -/
def corrected (big small : Float) : Float :=
  let h := (big * big + small * small).sqrt
  let err :=
    if h ≤ 2 * small then
      let delta := h - small
      big * (2 * delta - big) + (delta - 2 * (big - small)) * delta
    else
      let delta := h - big
      2 * delta * (big - 2 * small) + ((4 * delta - small) * small + delta * delta)
  h - err / (2 * h)

/-- `2 ^ 600`, by which numbers near the ends of the range are scaled. -/
def scale : Float := Float.ofBits 0x6570000000000000

/-- `2 ^ -54`: a part smaller than this fraction of the other one does not change the modulus. -/
def negligible : Float := Float.ofBits 0x3c90000000000000

/-- `2 ^ 511`, above which squares may overflow. -/
def huge : Float := Float.ofBits 0x5fe0000000000000

/-- `2 ^ -459`, below which squares may underflow. -/
def tiny : Float := Float.ofBits 0x2340000000000000

/-- `√(x² + y²)`; infinite as soon as one of the two is. -/
def hypot (x y : Float) : Float :=
  if !x.isFinite || !y.isFinite then
    if x.isInf || y.isInf then Float.ofBits 0x7ff0000000000000 else x + y
  else
    let (x, y) := (x.abs, y.abs)
    let big := if x < y then y else x
    let small := if x < y then x else y
    if huge < big then
      if small ≤ big * negligible then big + small
      else corrected (big / scale) (small / scale) * scale
    else if small < tiny then
      if small / negligible ≤ big then big + small
      else corrected (big * scale) (small * scale) / scale
    else if small ≤ big * negligible then big + small
    else corrected big small

end Modulus

namespace Complex

/-- A real number as a complex one. -/
def ofReal (x : Float) : Complex := ⟨x, 0⟩

instance : Add Complex := ⟨fun a b => ⟨a.re + b.re, a.im + b.im⟩⟩

instance : Sub Complex := ⟨fun a b => ⟨a.re - b.re, a.im - b.im⟩⟩

instance : Mul Complex := ⟨fun a b => ⟨a.re * b.re - a.im * b.im, a.re * b.im + a.im * b.re⟩⟩

instance : Neg Complex := ⟨fun a => ⟨-a.re, -a.im⟩⟩

/-- The square of the modulus. -/
def normSq (a : Complex) : Float := a.re * a.re + a.im * a.im

instance : Div Complex :=
  ⟨fun a b =>
    let n := b.normSq
    ⟨(a.re * b.re + a.im * b.im) / n, (a.im * b.re - a.re * b.im) / n⟩⟩

/-- The complex conjugate. -/
def conj (a : Complex) : Complex := ⟨a.re, -a.im⟩

/-- Are both parts zero? -/
def isZero (a : Complex) : Bool := a.re == 0 && a.im == 0

/-- The modulus. -/
def norm (a : Complex) : Float := Modulus.hypot a.re a.im

/-- The angle, between `-π` and `π`. -/
def arg (a : Complex) : Float := Float.atan2 a.im a.re

/-- The number with modulus `r` and angle `t`. -/
def ofPolar (r t : Float) : Complex := ⟨r * t.cos, r * t.sin⟩

/-- The principal natural logarithm. -/
def log (a : Complex) : Complex := ⟨a.norm.log, a.arg⟩

/-- `1 / a`. -/
def inv (a : Complex) : Complex :=
  let n := a.normSq
  ⟨a.re / n, -a.im / n⟩

/-- The exponential. An infinite real part decides the result alone wherever the angle has no
meaning. -/
def exp (a : Complex) : Complex :=
  if a.re.isInf && a.re < 0 && !a.im.isFinite then ⟨0, 0⟩
  else if a.re.isInf && 0 < a.re && (a.im == 0 || !a.im.isFinite) then
    ⟨a.re, if a.im.isInf then Float.ofBits 0x7ff8000000000000 else a.im⟩
  else if a.re.isNaN && a.im == 0 then a
  else ofPolar a.re.exp a.im

/-- The principal square root; on the axes it is exact up to the rounding of a real root, and
the sign of a zero imaginary part says from which side the cut is seen. -/
def sqrt (a : Complex) : Complex :=
  if a.im == 0 then
    if Binary64.isNegative a.re then
      let root := (-a.re).sqrt
      ⟨0, if Binary64.isNegative a.im then -root else root⟩
    else ⟨a.re.sqrt, a.im⟩
  else if a.re == 0 then
    let x := (a.im.abs / 2).sqrt
    ⟨x, if Binary64.isNegative a.im then -x else x⟩
  else ofPolar a.norm.sqrt (a.arg / 2)

/-- The sine. -/
def sin (a : Complex) : Complex := ⟨a.re.sin * a.im.cosh, a.re.cos * a.im.sinh⟩

/-- The cosine. -/
def cos (a : Complex) : Complex := ⟨a.re.cos * a.im.cosh, -a.re.sin * a.im.sinh⟩

/-- The tangent, from doubled arguments. -/
def tan (a : Complex) : Complex :=
  let re := a.re + a.re
  let im := a.im + a.im
  let d := re.cos + im.cosh
  ⟨re.sin / d, im.sinh / d⟩

/-- `a ^ w` through the logarithm; `1` for the exponent zero. -/
def pow (a w : Complex) : Complex := if w.isZero then ⟨1, 0⟩ else (w * a.log).exp

/-- `base ^ n` for `n > 0` by repeated squaring: `base` is squared as long as `n` is even, then
every further odd halving multiplies the square reached into the result. -/
def powNat (base : Complex) (n : Nat) : Complex :=
  if h : n ≤ 1 then base
  else if n % 2 = 0 then powNat (base * base) (n / 2)
  else accumulate base base n
where
  /-- Squares `square` for each halving of `n` above `1` and multiplies it in where the half is
  odd. -/
  accumulate (acc square : Complex) (n : Nat) : Complex :=
    if n ≤ 1 then acc
    else
      let half := n / 2
      let square := square * square
      accumulate (if half % 2 = 1 then acc * square else acc) square half

/-- `base ^ n` for a whole exponent. -/
def powInt (base : Complex) : Int → Complex
  | .ofNat 0 => ⟨1, 0⟩
  | .ofNat n => base.powNat n
  | .negSucc n => base.inv.powNat (n + 1)

end Complex

end Formula
