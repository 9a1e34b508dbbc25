import Formula.Standard.Arithmetic

set_option autoImplicit false

/-! # Making and measuring matrices

`matrix` and `sparse` copy a matrix into another storage or tag it with a datatype, `zeros` and
`identity` make new ones, `size` and `nnz` measure a value.
-/

namespace Formula.Construction

/-- The transposed value; numbers are their own. -/
def transpose : Value → Except EvalError Value
  | .number x => .ok (.number x)
  | .boolean b => .ok (.boolean b)
  | .complex z => .ok (.complex z)
  | .matrix m => m.transpose.map .matrix
  | v => .error (Operand.unsupported "transpose" v)

/-- The extents of a value as a vector. -/
def size (v : Value) : Value := .matrix (.ofReals (v.shape.map Binary64.ofNat))

/-- The number of elements of a value that are not zero. -/
def nonzeros : Value → Except EvalError Value
  | .matrix m => .ok (.number (Binary64.ofNat m.nonzeros))
  | v => v.toScalar.map fun x => .number (if x.isZero then 0 else 1)

/-- `matrix()`, `matrix(storage)`, `matrix(data)`, `matrix(data, storage)` and
`matrix(data, storage, datatype)`. -/
def matrix : List Value → Except EvalError Matrix
  | [] => Matrix.construct none none none
  | [.string storage] => Matrix.construct none (some storage) none
  | [v] => v.toMatrix none none
  | [v, storage] => do
      let storage ← Operand.toText "matrix" storage
      v.toMatrix (some storage) none
  | [v, storage, datatype] => do
      let storage ← Operand.toText "matrix" storage
      let datatype ← Operand.toText "matrix" datatype
      v.toMatrix (some storage) (some datatype)
  | args => .error (Operand.wrongCount "matrix" (.between 0 3) args)

/-- `sparse()`, `sparse(data)` and `sparse(data, datatype)`. -/
def sparse : List Value → Except EvalError Matrix
  | [] => Matrix.construct none (some "sparse") none
  | [v] => v.toMatrix (some "sparse") none
  | [v, datatype] => do
      let datatype ← Operand.toText "sparse" datatype
      v.toMatrix (some "sparse") (some datatype)
  | args => .error (Operand.wrongCount "sparse" (.between 0 2) args)

/-- The extents that arguments name: the elements of a single matrix, or the arguments
themselves. -/
def extents : List Value → Except EvalError (List Nat)
  | [.matrix m] => do
      let data ← m.expand
      data.toList.mapM fun x => Operand.toCount "zeros" (.ofScalar x)
  | args => args.mapM (Operand.toCount "zeros")

/-- The matrix of zeros with the extents named by the arguments; without extents it is the vector
without elements. -/
def zeros (args : List Value) : Except EvalError Matrix := do
  let shape ← extents args
  if shape.isEmpty then return .empty
  let _ ← Shape.checkedCount shape maxElements
  return .ofDense (Dense.zeros shape)

/-- The matrix with ones on the diagonal. -/
def identity : List Value → Except EvalError Matrix
  | [n] => do
      let n ← Operand.toCount "identity" n
      let _ ← Shape.checkedCount [n, n] maxElements
      return .diagonal n n
  | [rows, cols] => do
      let rows ← Operand.toCount "identity" rows
      let cols ← Operand.toCount "identity" cols
      let _ ← Shape.checkedCount [rows, cols] maxElements
      return .diagonal rows cols
  | args => .error (Operand.wrongCount "identity" (.between 1 2) args)

end Formula.Construction
