import Formula.Binary64

set_option autoImplicit false

/-! # The fewest digits that read back

Every real in an interval around a finite double reads back as that double: half a unit of the
mantissa on either side, a quarter below a power of two, the ends included when the mantissa
is even. `shortest` looks for decimal numbers in that interval, first those of one digit, then
of two, and so on. On each grid only the two neighbours of the double can be the nearest point;
the nearer one inside the interval is the answer, and a tie between the two is for the caller.
-/

namespace Formula.Decimal

/-- The number `digits · 10 ^ exponent`. -/
structure Digits where
  digits : Nat
  exponent : Int
  deriving Repr, DecidableEq

/-- Where a number half-way between two digits goes. -/
inductive Tie where
  | up
  | even
  deriving Repr, DecidableEq

/-- The interval of reals `low / den … high / den` that read back as `mid / den`. -/
structure Interval where
  low : Nat
  mid : Nat
  high : Nat
  den : Nat
  closed : Bool

/-- The interval of a double, in quarters of its unit. -/
def Interval.of (x : Binary64.Magnitude) : Interval :=
  let quarters := 4 * x.mantissa
  let below := if x.mantissa = Binary64.leastFull ∧ -1074 < x.exponent then 1 else 2
  let scale := if 0 ≤ x.exponent then 1 <<< x.exponent.toNat else 1
  { low := (quarters - below) * scale
    mid := quarters * scale
    high := (quarters + 2) * scale
    den := if 0 ≤ x.exponent then 4 else 1 <<< ((-x.exponent).toNat + 2)
    closed := x.mantissa % 2 == 0 }

/-- Does `num / den` lie in the interval? -/
def Interval.contains (i : Interval) (num den : Nat) : Bool :=
  let here := num * i.den
  if i.closed then decide (i.low * den ≤ here ∧ here ≤ i.high * den)
  else decide (i.low * den < here ∧ here < i.high * den)

/-- The number of decimal digits of `n`. -/
def width (n : Nat) : Nat := (Nat.toDigits 10 n).length

/-- The `k` with `10 ^ (k - 1) ≤ num / den < 10 ^ k`, for a positive fraction that is no
negative power of ten. -/
def magnitude (num den : Nat) : Int :=
  if den ≤ num then Int.ofNat (width (num / den)) else 1 - Int.ofNat (width (den / num))

/-- The point of the grid `10 ^ exponent` nearest to the middle of the interval among those
inside it. -/
def Interval.nearest (i : Interval) (tie : Tie) (exponent : Int) : Option Nat :=
  let up := if 0 ≤ exponent then Nat.pow 10 exponent.toNat else 1
  let down := if 0 ≤ exponent then 1 else Nat.pow 10 (-exponent).toNat
  let num := i.mid * down
  let den := i.den * up
  let floor := num / den
  let inside (n : Nat) : Bool := i.contains (n * up) down
  if num % den = 0 then some floor
  else
    match inside floor, inside (floor + 1) with
    | false, false => none
    | true, false => some floor
    | false, true => some (floor + 1)
    | true, true =>
        let twice := 2 * (num % den)
        if twice < den then some floor
        else if den < twice then some (floor + 1)
        else
          match tie with
          | .up => some (floor + 1)
          | .even => some (floor + floor % 2)

/-- The first hit on the grids of `count`, `count + 1`, … digits, `steps` grids at most. -/
def Interval.search (i : Interval) (tie : Tie) (top : Int) : Nat → Nat → Option Digits
  | _, 0 => none
  | count, steps + 1 =>
      let exponent := top - Int.ofNat count
      match i.nearest tie exponent with
      | some n => some ⟨n, exponent⟩
      | none => i.search tie top (count + 1) steps

/-- Moves the zeros at the end of the digits into the exponent. -/
def Digits.normal (d : Digits) : Nat → Digits
  | 0 => d
  | fuel + 1 =>
      if d.digits ≠ 0 ∧ d.digits % 10 = 0 then Digits.normal ⟨d.digits / 10, d.exponent + 1⟩ fuel
      else d

/-- The fewest digits that read back as a positive double, nearest to it among those.
Seventeen always suffice. -/
def shortest (tie : Tie) (x : Binary64.Magnitude) : Digits :=
  if x.mantissa = 0 then ⟨0, 0⟩
  else
    let i := Interval.of x
    match i.search tie (magnitude i.mid i.den) 1 17 with
    | some d => d.normal 17
    | none => ⟨0, 0⟩

end Formula.Decimal
