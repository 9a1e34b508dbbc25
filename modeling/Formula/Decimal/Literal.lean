import Formula.Binary64

set_option autoImplicit false

/-! # Reading decimal numbers

A literal is a sign, a run of digits with at most one point, and a power of ten. Its value is
the nearest double, so a literal with enough digits reads back exactly. `read?` accepts what a
number may look like wherever a text is taken for one:

    number   = sign? (digits point? digits? | point digits) exponent?  |  sign? word
    exponent = ("e" | "E") sign? digits
    word     = "inf" | "infinity" | "nan"      in any mixture of cases
-/

namespace Formula.Decimal

/-- The number `± digits · 10 ^ exponent`. -/
structure Literal where
  negative : Bool
  digits : Nat
  exponent : Int
  deriving Repr, DecidableEq

/-- The number written by a list of decimal digits. -/
def digitsValue (cs : List Char) : Nat :=
  cs.foldl (fun n c => 10 * n + (c.toNat - 48)) 0

/-- Splits a text behind its leading decimal digits. -/
def spanDigits (cs : List Char) : List Char × List Char :=
  (cs.takeWhile Char.isDigit, cs.dropWhile Char.isDigit)

/-- The nearest double. A literal of at least `2 ^ 1024` is infinite and one below `2 ^ -1075` is
zero; neither needs its power of ten computed. -/
def Literal.magnitude (l : Literal) : Float :=
  let atLeast := Int.ofNat l.digits.log2 + 3 * l.exponent
  if l.digits = 0 then 0
  else if 0 ≤ l.exponent then
    if 1024 ≤ atLeast then Float.ofBits 0x7ff0000000000000
    else Binary64.ofRatio (l.digits * Nat.pow 10 l.exponent.toNat) 1
  else if atLeast + 1 ≤ -1075 then 0
  else Binary64.ofRatio l.digits (Nat.pow 10 (-l.exponent).toNat)

/-- The double a literal stands for. -/
def Literal.toFloat (l : Literal) : Float :=
  if l.negative then -l.magnitude else l.magnitude

/-- Takes a sign off the front of a text; `true` stands for minus. -/
def takeSign : List Char → Bool × List Char
  | '-' :: rest => (true, rest)
  | '+' :: rest => (false, rest)
  | rest => (false, rest)

/-- A power of ten that fills the rest of a text; nothing stands for the power zero. -/
def readPower : List Char → Option Int
  | [] => some 0
  | c :: rest =>
      if c = 'e' ∨ c = 'E' then
        let (negative, digits) := takeSign rest
        if digits ≠ [] ∧ digits.all Char.isDigit then
          let n := Int.ofNat (digitsValue digits)
          some (if negative then -n else n)
        else none
      else none

/-- An unsigned literal that fills a text. -/
def readMagnitude (negative : Bool) (cs : List Char) : Option Literal :=
  let (whole, rest) := spanDigits cs
  let (places, rest) :=
    match rest with
    | '.' :: more => spanDigits more
    | _ => ([], rest)
  if whole = [] ∧ places = [] then none
  else (readPower rest).map fun power =>
    ⟨negative, digitsValue (whole ++ places), power - Int.ofNat places.length⟩

/-- The double written by a text, if the text is a number. -/
def read? (text : String) : Option Float :=
  let (negative, cs) := takeSign text.toList
  let word := cs.map Char.toLower
  let signed (x : Float) : Float := if negative then -x else x
  if word = ['i', 'n', 'f'] ∨ word = ['i', 'n', 'f', 'i', 'n', 'i', 't', 'y'] then
    some (signed (Float.ofBits 0x7ff0000000000000))
  else if word = ['n', 'a', 'n'] then some (signed (Float.ofBits 0x7ff8000000000000))
  else (readMagnitude negative cs).map Literal.toFloat

end Formula.Decimal
