import Formula.Standard.Operand

set_option autoImplicit false

/-! # Arithmetic

Sums, differences and the operations with a dot work element by element; `multiply` is the
product of matrices, `pow` repeats it. In a product a vector is a row on the left and a column on
the right, and two vectors have a scalar product.
-/

namespace Formula

namespace Scalar

/-- `x ^ y`. It is real for real numbers if the base is not negative or the exponent whole. -/
def pow : Scalar → Scalar → Scalar
  | .real a, .real b =>
      if a ≥ 0 || Binary64.isWhole b then .real (a ^ b)
      else .complex ((Complex.ofReal a).pow (.ofReal b))
  | .complex z, .real b =>
      if Binary64.isWhole b && b.abs < 2147483647 then .complex (z.powInt b.toInt32.toInt)
      else .complex (z.pow (.ofReal b))
  | a, .complex w => .complex (a.toComplex.pow w)

/-- The remainder of the division that rounds down; dividing by zero leaves the number. -/
def mod : Scalar → Scalar → Except EvalError Scalar
  | .real a, .real b => .ok (.real (if b == 0 then a else a - b * (a / b).floor))
  | _, _ => .error (.type .complexModulus)

end Scalar

namespace Matrix

/-- A factor as rows and columns; a vector is taken for a single row or a single column. -/
def factor (m : Matrix) (ofVector : Nat → Nat × Nat) : Except EvalError (Nat × Nat) :=
  match m.shape with
  | [n] => .ok (ofVector n)
  | [rows, cols] => .ok (rows, cols)
  | shape => .error (.dimension (.productRank shape))

/-- The sum of the products of a row of `a` and a column of `b`, from the left. -/
def dot (a b : Array Scalar) (inner cols row col : Nat) : Scalar :=
  (List.range inner).foldl
    (fun sum k => sum + a.getD (row * inner + k) .zero * b.getD (k * cols + col) .zero) .zero

/-- Reads the elements of two factors, unless the product has none. -/
def readFactors (x y : Array Scalar) (rows inner cols : Nat) : Except EvalError Unit :=
  if rows * cols = 0 then .ok ()
  else do
    Dense.readAll x (rows * inner)
    Dense.readAll y (inner * cols)

/-- The product of two matrices. Both factors are written out before the product is counted. -/
def product (a b : Matrix) : Except EvalError Value := do
  let (rows, inner) ← a.factor fun n => (1, n)
  let (height, cols) ← b.factor fun n => (n, 1)
  if inner ≠ height then throw (.dimension (.product inner height))
  let x ← a.expand
  let y ← b.expand
  let _ ← Shape.checkedCount [rows, cols] maxElements
  readFactors x y rows inner cols
  let data := (Shape.positions [rows, cols]).map fun p =>
    dot x y inner cols (p.getD 0 0) (p.getD 1 0)
  let dense (shape : List Nat) := (ofData data.toArray shape).map Value.matrix
  match a.rank, b.rank with
    | 1, 1 => return .ofScalar (data.headD .zero)
    | 1, _ => dense [cols]
    | _, 1 => dense [rows]
    | _, _ => dense [rows, cols]

/-- The matrix with ones on the diagonal and zeros elsewhere. -/
def diagonal (rows cols : Nat) : Matrix :=
  ofDense (Dense.tabulate [rows, cols] fun p => if p.getD 0 0 = p.getD 1 0 then .real 1 else .zero)

/-- `n` further factors `m`. -/
def timesRepeated (m : Matrix) : Nat → Matrix → Except EvalError Matrix
  | 0, result => .ok result
  | n + 1, result => do
      match ← product result m with
        | .matrix next => timesRepeated m n next
        | v => .error (Operand.unsupported "pow" v)

/-- The power of a square matrix. -/
def power (m : Matrix) (n : Float) : Except EvalError Matrix :=
  match m.shape with
  | [rows, cols] =>
      if rows ≠ cols then .error (.dimension (.notSquare [rows, cols]))
      else if n < 0 || !Binary64.isWhole n then .error (.argument (.exponent n))
      else timesRepeated m (Word.ofFloat n) (diagonal rows rows)
  | shape => .error (.dimension (.notSquare shape))

end Matrix

namespace Arithmetic

/-- Extends a function of two numbers that never fails to matrices. -/
def elementwise (function : String) (v w : Value) (f : Scalar → Scalar → Scalar) :
    Except EvalError Value :=
  Operand.broadcast function v w fun x y => .ok (f x y)

/-- Products of matrices, and of anything else element by element. -/
def multiplyValues : Value → Value → Except EvalError Value
  | .matrix m, .matrix n => m.product n
  | v, w => elementwise "multiply" v w (· * ·)

/-- Quotients; there is no division by a matrix. -/
def divideValues (v w : Value) : Except EvalError Value :=
  match w with
  | .matrix _ => .error (.argument .matrixDivisor)
  | w => elementwise "divide" v w (· / ·)

/-- Powers of numbers and of square matrices. -/
def powValues (v w : Value) : Except EvalError Value := do
  let base ← Operand.ofValue "pow" v
  let exponent ← Operand.ofValue "pow" w
  match base, exponent with
    | .scalar x, .scalar y => .ok (.ofScalar (x.pow y))
    | .matrix m, .scalar (.real n) => (m.power n).map .matrix
    | .matrix _, .scalar (.complex _) => .error (.type .complexExponent)
    | _, .matrix _ => .error (Operand.unsupported "pow" w)

/-- Computes an arithmetic operation. -/
def apply : Arithmetic → List Value → Except EvalError Value
  | add, [v, w] => elementwise "add" v w (· + ·)
  | subtract, [v, w] => elementwise "subtract" v w (· - ·)
  | multiply, [v, w] => multiplyValues v w
  | divide, [v, w] => divideValues v w
  | pow, [v, w] => powValues v w
  | mod, [v, w] => Operand.broadcast "mod" v w Scalar.mod
  | dotMultiply, [v, w] => elementwise "dotMultiply" v w (· * ·)
  | dotDivide, [v, w] => elementwise "dotDivide" v w (· / ·)
  | dotPow, [v, w] => elementwise "dotPow" v w Scalar.pow
  | unaryMinus, [v] => Operand.unary "unaryMinus" v fun x => .ok (-x)
  | unaryPlus, [v] => Operand.unary "unaryPlus" v .ok
  | op, args => .error (Operand.wrongCount op.name op.arity args)

end Arithmetic

end Formula
