import Formula.Decimal.Shortest

set_option autoImplicit false

/-! # Decimal notations

Two ways of writing a double with its fewest digits, each fixed by a `Layout`: `plain`, used
wherever a value is shown, never has an exponent, and `json` is used inside JSON text. A
`Layout` says between which powers of ten the point is written in place, whether a whole number
keeps `.0`, and how the three values that are no finite numbers are written.
-/

namespace Formula.Decimal

/-- The choices that fix a notation. `positional k` says whether a number in
`10 ^ (k - 1) … 10 ^ k` is written with the point in place. -/
structure Layout where
  tie : Tie
  positional : Int → Bool
  keepPoint : Bool
  infinity : String
  negativeInfinity : String
  notANumber : String

/-- Every number with its point in place, whole numbers without one; a tie goes up. -/
def plain : Layout :=
  { tie := .up
    positional := fun _ => true
    keepPoint := false
    infinity := "inf"
    negativeInfinity := "-inf"
    notANumber := "NaN" }

/-- The point in place from `0.00001` to below `10 ^ 16`, whole numbers with `.0`; a tie goes to
even, and what is no finite number is `null`. -/
def json : Layout :=
  { tie := .even
    positional := fun k => decide (-5 < k ∧ k ≤ 16)
    keepPoint := true
    infinity := "null"
    negativeInfinity := "null"
    notANumber := "null" }

/-- `digits · 10 ^ exponent` with the point in place. -/
def positionalText (digits : List Char) (exponent : Int) (keepPoint : Bool) : List Char :=
  let point := Int.ofNat digits.length + exponent
  if 0 ≤ exponent then
    digits ++ List.replicate exponent.toNat '0' ++ (if keepPoint then ['.', '0'] else [])
  else if 0 < point then
    digits.take point.toNat ++ '.' :: digits.drop point.toNat
  else
    '0' :: '.' :: (List.replicate (-point).toNat '0' ++ digits)

/-- `digits · 10 ^ exponent` as one digit, the others after a point, and a signed power of
ten. -/
def scientificText (digits : List Char) (exponent : Int) : List Char :=
  let power := Int.ofNat digits.length + exponent - 1
  let sign := if power < 0 then '-' else '+'
  let mantissa :=
    match digits with
    | first :: second :: rest => first :: '.' :: second :: rest
    | short => short
  mantissa ++ 'e' :: sign :: Nat.toDigits 10 power.natAbs

/-- The text of `digits · 10 ^ exponent` in a layout. -/
def Layout.digitsText (l : Layout) (d : Digits) : List Char :=
  let digits := Nat.toDigits 10 d.digits
  if d.digits = 0 then positionalText digits 0 l.keepPoint
  else if l.positional (Int.ofNat digits.length + d.exponent) then
    positionalText digits d.exponent l.keepPoint
  else scientificText digits d.exponent

/-- The text of a double in a layout. -/
def Layout.text (l : Layout) (x : Float) : String :=
  match Binary64.finite? x with
  | some m =>
      let body := l.digitsText (shortest l.tie m)
      String.ofList (if Binary64.isNegative x then '-' :: body else body)
  | none =>
      if x.isNaN then l.notANumber
      else if Binary64.isNegative x then l.negativeInfinity
      else l.infinity

/-- The text of a double wherever a value is shown. -/
def text (x : Float) : String := plain.text x

/-- The text of a double inside JSON. -/
def jsonText (x : Float) : String := json.text x

end Formula.Decimal
