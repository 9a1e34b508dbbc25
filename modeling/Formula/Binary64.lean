set_option autoImplicit false

/-! # Binary64 numbers by exact arithmetic

A finite double is `mantissa · 2 ^ exponent` with a sign. `finite?` takes a double apart and
`ofRatio` goes the other way: the double nearest to a fraction, a tie going to the even
mantissa, too large a fraction to infinity. Both work on natural numbers only, so what they
compute can be reasoned about.
-/

namespace Formula.Binary64

/-- The absolute value of a finite double. -/
structure Magnitude where
  mantissa : Nat
  exponent : Int

/-- The least mantissa of 53 bits, `2 ^ 52`. -/
def leastFull : Nat := 0x10000000000000

/-- The sign bit. -/
def isNegative (x : Float) : Bool := x.toBits ≥ 0x8000000000000000

/-- The absolute value of `x`, unless `x` is infinite or no number. -/
def finite? (x : Float) : Option Magnitude :=
  let bits := x.toBits.toNat
  let field := bits / leastFull % 2048
  let fraction := bits % leastFull
  if field = 2047 then none
  else if field = 0 then some ⟨fraction, -1074⟩
  else some ⟨leastFull + fraction, Int.ofNat field - 1075⟩

/-- The quotient of two natural numbers rounded to nearest, a tie going to even. -/
def divNearest (num den : Nat) : Nat :=
  let q := num / den
  let r := num % den
  if 2 * r < den then q
  else if 2 * r = den then q + q % 2
  else q + 1

/-- `num / den` in units of `2 ^ e`, rounded to nearest. -/
def units (num den : Nat) (e : Int) : Nat :=
  if 0 ≤ e then divNearest num (den <<< e.toNat) else divNearest (num <<< (-e).toNat) den

/-- The exponent whose units give `num / den` a mantissa of 53 bits, or the least one. -/
def unitExponent (num den : Nat) : Int :=
  let e := (Int.ofNat num.log2 - Int.ofNat den.log2) - 52
  let whole := if 0 ≤ e then num / (den <<< e.toNat) else (num <<< (-e).toNat) / den
  max (if whole < leastFull then e - 1 else e) (-1074)

/-- The bits of the double nearest to `num / den`. A mantissa that rounds up to `2 ^ 53` moves
into the exponent by the same sum. -/
def bitsOfRatio (num den : Nat) : Nat :=
  if num = 0 then 0
  else
    let e := unitExponent num den
    let m := units num den e
    if m < leastFull then m
    else min ((e + 1074).toNat * leastFull + m) (2047 * leastFull)

/-- The double nearest to `num / den`. -/
def ofRatio (num den : Nat) : Float := Float.ofBits (UInt64.ofNat (bitsOfRatio num den))

/-- The double nearest to a natural number. -/
def ofNat (n : Nat) : Float := ofRatio n 1

/-- The double nearest to an integer. -/
def ofInt : Int → Float
  | .ofNat n => ofNat n
  | .negSucc n => -ofNat (n + 1)

/-- Is `x` a whole number? Neither infinities nor NaN are. -/
def isWhole (x : Float) : Bool :=
  match finite? x with
  | some ⟨mantissa, exponent⟩ => 0 ≤ exponent || mantissa % (1 <<< (-exponent).toNat) == 0
  | none => false

end Formula.Binary64
