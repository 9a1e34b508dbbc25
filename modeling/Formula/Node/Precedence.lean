import Formula.Decimal.Layout
import Formula.Node.Basic

set_option autoImplicit false

/-! # Binding strength

How tightly each kind of node holds its parts together. A part that binds less tightly than its
surroundings is put into parentheses, both in the text and in the TeX of a tree. Higher is
tighter.
-/

namespace Formula.Node.Precedence

/-- Names, literals, calls and everything in brackets. -/
def atom : Nat := 100

/-- Operators behind their argument. -/
def trailing : Nat := 16

/-- Powers. -/
def power : Nat := 15

/-- Operators in front of their argument. -/
def leading : Nat := 14

/-- Products, also those without a sign. -/
def product : Nat := 13

/-- Sums, and every operator without a strength of its own. -/
def sum : Nat := 12

/-- Ranges. -/
def range : Nat := 11

/-- Conditionals. -/
def conditional : Nat := 1

/-- Assignments, updates and blocks. -/
def statement : Nat := 0

/-- The strength of a binary operator. -/
def binary (op : String) : Nat :=
  if op ∈ ["or", "||"] then 2
  else if op = "xor" then 3
  else if op ∈ ["and", "&&"] then 4
  else if op = "|" then 5
  else if op = "^|" then 6
  else if op = "&" then 7
  else if op ∈ ["==", "!=", "<", ">", "<=", ">="] then 8
  else if op ∈ ["<<", ">>", ">>>"] then 9
  else if op ∈ ["to", "in"] then 10
  else if op ∈ ["*", "/", ".*", "./", "%", "mod"] then product
  else if op ∈ ["^", ".^"] then power
  else sum

/-- Is a unary operator written behind its argument? -/
def isTrailing (op : String) : Bool := op = "'" || op = "!"

/-- Does a chain of the operator group to the right? -/
def groupsRight (op : String) : Bool := op = "^" || op = ".^"

/-- The strength of an operator with `count` arguments. -/
def operator (op : String) (count : Nat) (implicit : Bool) : Nat :=
  if count = 1 then (if isTrailing op then trailing else leading)
  else if implicit then product
  else binary op

end Precedence

/-- The strength of a node. -/
def precedence : Node → Nat
  | .operator op _ args implicit => Precedence.operator op args.length implicit
  | .range .. => Precedence.range
  | .conditional .. => Precedence.conditional
  | .assignment .. => Precedence.statement
  | .functionAssignment .. => Precedence.statement
  | .update .. => Precedence.statement
  | .block _ => Precedence.statement
  | _ => Precedence.atom

/-- The text of a number in a tree: like anywhere else, but without the sign of minus zero and
with the infinities spelled out. -/
def numberText (x : Float) : String :=
  if x.isNaN then "NaN"
  else if x.isInf then (if 0 < x then "Infinity" else "-Infinity")
  else if x == 0 then "0"
  else Decimal.text x

end Formula.Node
