import Formula.Namespace
import Formula.Node.Basic

set_option autoImplicit false

/-! # Code

Code is a tree whose names have been looked up: an operator or a function has become the call of
an entry, and what an update changes has become a variable. A function that the tree itself
defines is called by name, with the entry of that name to fall back on.
-/

namespace Formula

/-- A compiled tree. -/
inductive Code where
  | constant (value : Literal)
  | symbol (name : String)
  /-- Calls an entry. -/
  | builtin (entry : Entry) (args : List Code)
  /-- Calls the function held by a variable, or the entry if there is no such variable. -/
  | call (name : String) (fallback : Option Entry) (args : List Code)
  | array (items : List Code)
  | assign (name : String) (expr : Code)
  | block (entries : List (Code × Bool))
  | conditional (condition whenTrue whenFalse : Code)
  | define (name : String) (params : List String) (body : Code)
  | index (object : Code) (dimensions : List Code)
  | range (start stop : Code) (step : Option Code)
  | update (name : String) (dimensions : List Code) (expr : Code)
  deriving Repr, Inhabited

end Formula
