import Formula.Arity

set_option autoImplicit false

/-! # Standard operations

The operations that every standard namespace offers, in four families and some of their own.
Each has a name, which is what trees call it by, and an arity. What they compute is said in
`Formula.Standard`.
-/

namespace Formula

/-- Arithmetic. -/
inductive Arithmetic where
  | add
  | subtract
  | multiply
  | divide
  | pow
  | mod
  | dotMultiply
  | dotDivide
  | dotPow
  | unaryMinus
  | unaryPlus
  deriving Repr, DecidableEq, Inhabited

namespace Arithmetic

/-- All arithmetic operations. -/
def all : List Arithmetic :=
  [add, subtract, multiply, divide, pow, mod, dotMultiply, dotDivide, dotPow, unaryMinus,
    unaryPlus]

/-- The name of an arithmetic operation. -/
def name : Arithmetic → String
  | add => "add"
  | subtract => "subtract"
  | multiply => "multiply"
  | divide => "divide"
  | pow => "pow"
  | mod => "mod"
  | dotMultiply => "dotMultiply"
  | dotDivide => "dotDivide"
  | dotPow => "dotPow"
  | unaryMinus => "unaryMinus"
  | unaryPlus => "unaryPlus"

/-- Signs take one argument, all others two. -/
def arity : Arithmetic → Arity
  | unaryMinus => .exactly 1
  | unaryPlus => .exactly 1
  | _ => .exactly 2

end Arithmetic

/-- Comparisons. -/
inductive Relation where
  | equal
  | unequal
  | smaller
  | larger
  | smallerEq
  | largerEq
  deriving Repr, DecidableEq, Inhabited

namespace Relation

/-- All relations. -/
def all : List Relation := [equal, unequal, smaller, larger, smallerEq, largerEq]

/-- The name of a relation. -/
def name : Relation → String
  | equal => "equal"
  | unequal => "unequal"
  | smaller => "smaller"
  | larger => "larger"
  | smallerEq => "smallerEq"
  | largerEq => "largerEq"

/-- Does the relation ask for equality only, and not for an order? -/
def isEquality : Relation → Bool
  | equal => true
  | unequal => true
  | _ => false

/-- Does the relation hold between two things that are ordered like this? Things that are not
ordered at all are unequal and nothing else. -/
def holds : Relation → Option Ordering → Bool
  | unequal, none => true
  | _, none => false
  | equal, some o => o == .eq
  | unequal, some o => o != .eq
  | smaller, some o => o == .lt
  | larger, some o => o == .gt
  | smallerEq, some o => o != .gt
  | largerEq, some o => o != .lt

end Relation

/-- Logical connectives. -/
inductive Logic where
  | not
  | and
  | or
  | xor
  deriving Repr, DecidableEq, Inhabited

namespace Logic

/-- All connectives. -/
def all : List Logic := [not, and, or, xor]

/-- The name of a connective. -/
def name : Logic → String
  | not => "not"
  | and => "and"
  | or => "or"
  | xor => "xor"

/-- Negation takes one argument, all others two. -/
def arity : Logic → Arity
  | not => .exactly 1
  | _ => .exactly 2

end Logic

/-- Functions of one number, which are applied to matrices element by element. -/
inductive Elementary where
  | abs
  | sqrt
  | exp
  | sin
  | cos
  | tan
  | floor
  | ceil
  | round
  | conj
  | re
  | im
  deriving Repr, DecidableEq, Inhabited

namespace Elementary

/-- All elementary functions. -/
def all : List Elementary :=
  [abs, sqrt, exp, sin, cos, tan, floor, ceil, round, conj, re, im]

/-- The name of an elementary function. -/
def name : Elementary → String
  | abs => "abs"
  | sqrt => "sqrt"
  | exp => "exp"
  | sin => "sin"
  | cos => "cos"
  | tan => "tan"
  | floor => "floor"
  | ceil => "ceil"
  | round => "round"
  | conj => "conj"
  | re => "re"
  | im => "im"

end Elementary

/-- A standard operation. -/
inductive Operation where
  | arithmetic (op : Arithmetic)
  | relation (r : Relation)
  | logic (op : Logic)
  | elementary (f : Elementary)
  /-- The logarithm, to a base if there are two arguments. -/
  | log
  /-- A complex number from a text or from its parts. -/
  | complex
  | ctranspose
  | transpose
  /-- The extents of a value. -/
  | size
  /-- The number of elements that are not zero. -/
  | nnz
  | matrix
  | sparse
  | zeros
  | identity
  deriving Repr, DecidableEq, Inhabited

namespace Operation

/-- All standard operations. -/
def all : List Operation :=
  Arithmetic.all.map arithmetic ++ Relation.all.map relation ++ Logic.all.map logic ++
    Elementary.all.map elementary ++
    [log, complex, ctranspose, transpose, size, nnz, matrix, sparse, zeros, identity]

/-- The name of an operation. -/
def name : Operation → String
  | arithmetic op => op.name
  | relation r => r.name
  | logic op => op.name
  | elementary f => f.name
  | log => "log"
  | complex => "complex"
  | ctranspose => "ctranspose"
  | transpose => "transpose"
  | size => "size"
  | nnz => "nnz"
  | matrix => "matrix"
  | sparse => "sparse"
  | zeros => "zeros"
  | identity => "identity"

/-- The argument counts an operation takes. -/
def arity : Operation → Arity
  | arithmetic op => op.arity
  | relation _ => .exactly 2
  | logic op => op.arity
  | elementary _ => .exactly 1
  | log => .between 1 2
  | complex => .between 1 2
  | ctranspose => .exactly 1
  | transpose => .exactly 1
  | size => .exactly 1
  | nnz => .exactly 1
  | matrix => .between 0 3
  | sparse => .between 0 2
  | zeros => .any
  | identity => .between 1 2

end Operation

end Formula
