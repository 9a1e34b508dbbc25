import Formula.Decimal.Literal
import Formula.Word

set_option autoImplicit false

/-! # Decimal numbers by scaling

A quick reading of `whole . places · 10 ^ power` that computes in doubles. The leading digits give
a count below `2 ^ 64`; the digits behind it are dropped, those of the whole part at the cost of a
power of ten each. The count becomes a double, which is multiplied or divided by the power of ten.

Each of these steps rounds, so the result may lie a few units beside the nearest double, which
`Literal.toFloat` finds.
-/

namespace Formula.Decimal

/-- The count that `n` becomes by taking on digits as long as it stays a count, and the digits
left. -/
def leadingCount (n : Nat) : List Char → Nat × List Char
  | [] => (n, [])
  | c :: rest =>
      let next := 10 * n + (c.toNat - 48)
      if next < Word.size then leadingCount next rest else (n, c :: rest)

/-- The double nearest to a power of ten. -/
def powerOfTen (k : Nat) : Float := Binary64.ofRatio (Nat.pow 10 k) 1

/-- The largest power of ten that is finite. -/
def lastPower : Nat := 308

/-- `n · 10 ^ exponent` by one multiplication or division, or by two divisions where the power of
ten is too small for one. Too large a power makes it infinite, too small a power zero. -/
def scale (n : Nat) (exponent : Int) : Float :=
  let x := Binary64.ofNat n
  let k := exponent.natAbs
  if n = 0 then 0
  else if 0 ≤ exponent then
    if k ≤ lastPower then x * powerOfTen k else Float.ofBits 0x7ff0000000000000
  else if k ≤ lastPower then x / powerOfTen k
  else if k ≤ 2 * lastPower then x / powerOfTen lastPower / powerOfTen (k - lastPower)
  else 0

/-- The value of digits on both sides of a point, times a power of ten. -/
def scaled (whole places : List Char) (power : Int) : Float :=
  let (n, dropped) := leadingCount 0 whole
  let (n, left) := leadingCount n places
  let taken := places.length - left.length
  scale n (power + Int.ofNat dropped.length - Int.ofNat taken)

/-! ## Laws -/

theorem leadingCount_lt {n : Nat} (h : n < Word.size) (cs : List Char) :
    (leadingCount n cs).1 < Word.size := by
  induction cs generalizing n with
  | nil => exact h
  | cons c rest ih =>
      simp only [leadingCount]
      split
      · exact ih ‹_›
      · exact h

end Formula.Decimal
