set_option autoImplicit false

/-! # Arities

How many arguments a function takes.
-/

namespace Formula

/-- The argument counts a function accepts. -/
inductive Arity where
  | exactly (n : Nat)
  | between (low high : Nat)
  | atLeast (n : Nat)
  | any
  deriving Repr, DecidableEq, Inhabited

namespace Arity

/-- Does a function of this arity accept `count` arguments? -/
def accepts : Arity → Nat → Bool
  | .exactly n, count => count == n
  | .between low high, count => decide (low ≤ count ∧ count ≤ high)
  | .atLeast n, count => decide (n ≤ count)
  | .any, _ => true

/-- The arity in words. -/
def text : Arity → String
  | .exactly n => toString n
  | .between low high => s!"{low} to {high}"
  | .atLeast n => s!"at least {n}"
  | .any => "any number of"

end Arity

end Formula
