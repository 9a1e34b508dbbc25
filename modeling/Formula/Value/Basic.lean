import Formula.Code
import Formula.Matrix.Basic

set_option autoImplicit false

/-! # Values

A value is null, a truth value, a number, a complex number, a string, a matrix or a function. A
function value is a closure: the code of its body together with the variables and the limits that
were in force where it was defined. Each evaluation of a function assignment makes a function of
its own, so closures carry a stamp by which they are told apart.
-/

namespace Formula

/-- A function made by a function assignment, whose variables have values in `ν`. -/
structure Closure (ν : Type) where
  name : String
  params : List String
  body : Code
  /-- The variables at the definition, sorted by name. -/
  vars : List (String × ν)
  /-- The deepest frame that the body may run in. -/
  maxDepth : UInt64
  maxElements : Nat
  stamp : Nat

/-- What expressions evaluate to. -/
inductive Value where
  | null
  | boolean (b : Bool)
  | number (x : Float)
  | complex (z : Complex)
  | string (s : String)
  | matrix (m : Matrix)
  | function (f : Closure Value)

namespace Value

instance : Inhabited Value := ⟨.null⟩

/-- The kind of a value. -/
def kind : Value → ValueKind
  | .null => .null
  | .boolean _ => .boolean
  | .number _ => .number
  | .complex _ => .complex
  | .string _ => .string
  | .matrix _ => .matrix
  | .function _ => .function

/-- The value of a scalar. -/
def ofScalar : Scalar → Value
  | .real x => .number x
  | .complex z => .complex z

/-- The value of a literal. -/
def ofLiteral : Literal → Value
  | .number x => .number x
  | .string s => .string s
  | .boolean b => .boolean b
  | .null => .null

/-- A truth value as a number. -/
def bit (b : Bool) : Float := if b then 1 else 0

/-- Is the value taken for true? Neither zeros, NaN and the empty string nor null are. Matrices
and functions are no conditions. -/
def truth : Value → Except EvalError Bool
  | .null => .ok false
  | .boolean b => .ok b
  | .number x => .ok (x != 0 && !x.isNaN)
  | .complex z => .ok (z.re != 0 || z.im != 0)
  | .string s => .ok (s != "")
  | v => .error (.type (.condition v.kind))

/-- The real number that a value is. -/
def toReal : Value → Except EvalError Float
  | .number x => .ok x
  | .boolean b => .ok (bit b)
  | .complex z => if z.im == 0 then .ok z.re else .error (.type (.notReal .complex))
  | v => .error (.type (.notReal v.kind))

/-- The single number that a value is; a matrix of one element is one, too. -/
def toScalar : Value → Except EvalError Scalar
  | .number x => .ok (.real x)
  | .boolean b => .ok (.real (bit b))
  | .complex z => .ok (.complex z)
  | .matrix m =>
      if m.numel = 1 then m.expand.map fun data => data.getD 0 .zero
      else .error (.type (.notScalar .matrix))
  | v => .error (.type (.notScalar v.kind))

/-- The extents of a value; a string has its length. -/
def shape : Value → List Nat
  | .matrix m => m.shape
  | .string s => [s.length]
  | _ => []

/-- The conjugate transpose. -/
def ctranspose : Value → Except EvalError Value
  | .number x => .ok (.number x)
  | .boolean b => .ok (.boolean b)
  | .complex z => .ok (.complex z.conj)
  | .matrix m => m.ctranspose.map .matrix
  | v => .error (.type (.argument "ctranspose" v.kind))

/-- A value as an item of a sequence. -/
def toNested : Value → Except EvalError Nested
  | .matrix m => m.expand.map fun data => Dense.nested m.shape data.toList
  | v => v.toScalar.map .scalar

/-- The matrix of some items: numbers make a vector, matrices of one shape are stacked along a new
first axis. -/
def collect (items : List Value) : Except EvalError Value :=
  if items.isEmpty then .ok (.matrix .empty)
  else do
    let nested ← items.mapM toNested
    (Matrix.ofNested (.seq nested)).map .matrix

/-- A copy of a matrix, in the storage and with the datatype named by the tokens. -/
def toMatrix (storage datatype : Option String) : Value → Except EvalError Matrix
  | .matrix m => m.copy storage datatype
  | v => .error (.type (.matrixData v.kind))

/-! ## Text -/

/-- A string in quotes. Quotes in it are escaped, nothing else is. -/
def quoted (s : String) : String :=
  String.ofList ('"' :: (s.toList.flatMap fun c => if c = '"' then ['\\', '"'] else [c]) ++ ['"'])

/-- The text of a value. -/
def text : Value → String
  | .null => "null"
  | .boolean b => toString b
  | .number x => Decimal.text x
  | .complex z => z.text
  | .string s => quoted s
  | .matrix m => m.text
  | .function f => f.name ++ "(" ++ ", ".intercalate f.params ++ ")"

/-! ## Equality -/

/-- Are two values equal? Numbers are compared as numbers, functions by their stamps. -/
def equals : Value → Value → Bool
  | .null, .null => true
  | .boolean a, .boolean b => a == b
  | .number x, .number y => x == y
  | .complex z, .complex w => z == w
  | .string s, .string t => s == t
  | .matrix m, .matrix n => m == n
  | .function f, .function g => f.name == g.name && f.params == g.params && f.stamp == g.stamp
  | _, _ => false

instance : BEq Value := ⟨equals⟩

/-- Is a value the same as before? Plain numbers are compared bit by bit; all NaNs are one number
here and have the same bits. -/
def unchanged : Value → Value → Bool
  | .number x, .number y => x.toBits == y.toBits
  | v, w => v == w

end Value

end Formula
