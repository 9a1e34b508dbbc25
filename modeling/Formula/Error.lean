import Formula.Arity
import Formula.Matrix.Kind

set_option autoImplicit false

/-! # Evaluation errors

What can go wrong while an expression is evaluated, sorted into seven classes. Four of the
classes have many causes, and each cause is a constructor that carries what its text mentions.
`EvalError.identifier` names the class, `EvalError.message` is the text.

Matrices whose elements cannot be counted lead to something else: the computation breaks off
without an answer. An `abort` stands for that. It is handed on like an error, and whoever runs a
computation has nothing to answer then.
-/

namespace Formula

/-- The kinds of values, as errors name them. -/
inductive ValueKind where
  | null
  | boolean
  | number
  | complex
  | string
  | matrix
  | function
  deriving Repr, DecidableEq, Inhabited

/-- The name of a kind of values. -/
def ValueKind.name : ValueKind → String
  | .null => "null"
  | .boolean => "boolean"
  | .number => "number"
  | .complex => "complex"
  | .string => "string"
  | .matrix => "matrix"
  | .function => "function"

/-- The text of a list of extents. -/
def shapeText (shape : List Nat) : String := "[" ++ ", ".intercalate (shape.map toString) ++ "]"

/-- A value of a kind that an operation does not take. -/
inductive TypeFault where
  /-- A condition must be true or false. -/
  | condition (kind : ValueKind)
  /-- A real number is needed. -/
  | notReal (kind : ValueKind)
  /-- A single number is needed. -/
  | notScalar (kind : ValueKind)
  /-- A function does not take this kind of argument. -/
  | argument (function : String) (kind : ValueKind)
  /-- A matrix is made from a matrix only. -/
  | matrixData (kind : ValueKind)
  /-- A matrix is made from a sequence, not from a number. -/
  | matrixOfScalar (x : Scalar)
  /-- An element does not fit the datatype that the matrix is to have. -/
  | element (x : Scalar) (datatype : DataType)
  /-- A number does not fit the datatype that the matrix has. -/
  | store (x : Scalar) (datatype : DataType)
  /-- Only matrices and strings have parts. -/
  | notIndexable (kind : ValueKind)
  /-- Only a matrix can be updated. -/
  | notUpdatable (kind : ValueKind) (name : String)
  /-- A matrix is raised to real powers only. -/
  | complexExponent
  /-- `mod` takes real numbers only. -/
  | complexModulus
  /-- Complex numbers are not ordered. -/
  | unordered (function : String)
  /-- A fault of a registered function. -/
  | registered (text : String)
  deriving Repr, BEq

/-- The text of a type fault. -/
def TypeFault.text : TypeFault → String
  | .condition kind => s!"Unsupported type of condition ({kind.name})"
  | .notReal kind => s!"Expected a real number, got {kind.name}"
  | .notScalar kind => s!"Expected a numeric scalar, got {kind.name}"
  | .argument function kind => s!"Unexpected type of argument in function {function} ({kind.name})"
  | .matrixData kind => s!"Unsupported type of data ({kind.name}) for matrix construction"
  | .matrixOfScalar x =>
      s!"Cannot create a matrix from a scalar ({x.text}); expected a nested sequence"
  | .element x datatype => s!"Element {x.text} does not match datatype {datatype.token}"
  | .store x datatype => s!"Cannot store {x.text} in a matrix of datatype {datatype.token}"
  | .notIndexable kind => s!"Cannot apply an index to {kind.name}"
  | .notUpdatable kind name => s!"Cannot update {kind.name} \"{name}\", expected a matrix"
  | .complexExponent => "Matrix power requires a real integer exponent"
  | .complexModulus => "Function mod is not defined for complex numbers"
  | .unordered function =>
      s!"No ordering relation is defined for complex numbers (function {function})"
  | .registered text => text

/-- Extents that do not fit an operation, or too many elements. -/
inductive DimensionFault where
  /-- A shape has more elements than allowed. -/
  | tooLarge (shape : List Nat) (limit : Nat)
  /-- Two shapes that must agree differ. -/
  | mismatch (one other : List Nat)
  /-- The data of a matrix are too many or too few for its shape. -/
  | dataLength (length : Nat) (shape : List Nat) (count : Nat)
  /-- Only a matrix of one or two dimensions can be sparse. -/
  | sparseRank (shape : List Nat)
  /-- A matrix without columns is not transposed. -/
  | noColumns (shape : List Nat)
  /-- A matrix of more than two dimensions is not transposed. -/
  | notPlanar (shape : List Nat)
  /-- A sparse matrix cannot have this many columns. -/
  | tooManyColumns (count limit : Nat)
  /-- The values assigned to a selection do not match it in number. -/
  | selection (values count : Nat)
  /-- The factors of a product do not fit. -/
  | product (columns rows : Nat)
  /-- A factor has more than two dimensions. -/
  | productRank (shape : List Nat)
  /-- Only a square matrix has powers. -/
  | notSquare (shape : List Nat)
  /-- A range has too many values. -/
  | range (start step stop : Float) (limit : Nat)
  deriving Repr, BEq

/-- The text of a dimension fault. -/
def DimensionFault.text : DimensionFault → String
  | .tooLarge shape limit =>
      s!"Matrix of size {shapeText shape} exceeds the limit of {limit} elements"
  | .mismatch one other => s!"Dimension mismatch ({shapeText one} != {shapeText other})"
  | .dataLength length shape count =>
      s!"Matrix data length {length} doesn't match shape {shapeText shape} ({count} elements)"
  | .sparseRank shape => s!"Sparse matrices must be two dimensional (size: {shapeText shape})"
  | .noColumns shape =>
      s!"Cannot transpose a 2D matrix with no columns (size: {shapeText shape})"
  | .notPlanar shape => s!"Matrix must be a vector or two dimensional (size: {shapeText shape})"
  | .tooManyColumns count limit => s!"Sparse matrix column {count} exceeds the limit of {limit}"
  | .selection values count =>
      s!"Dimension mismatch: cannot assign {values} elements to a selection of {count}"
  | .product columns rows =>
      s!"Dimension mismatch in multiplication. Columns of A ({columns}) must match " ++
        s!"rows of B ({rows})"
  | .productRank shape =>
      s!"Multiplication is only defined for vectors and 2D matrices (size: {shapeText shape})"
  | .notSquare shape => s!"Matrix power requires a square matrix (size: {shapeText shape})"
  | .range start step stop limit =>
      let bounds := ":".intercalate [Decimal.text start, Decimal.text step, Decimal.text stop]
      s!"Range {bounds} exceeds the limit of {limit} elements"

/-- A position that an object does not have. -/
inductive IndexFault where
  /-- An index has another number of dimensions than its object. -/
  | rank (index object : Nat)
  /-- An index into a sparse matrix has not two dimensions. -/
  | sparseRank (index : Nat)
  /-- A position of a dense matrix, counted from one, lies behind the end of its axis. -/
  | outside (position extent axis : Nat)
  /-- A position of a sparse matrix lies outside of it. -/
  | sparseOutside (row column rows columns : Nat)
  /-- A position is counted from one by whole numbers. -/
  | notPosition (x : Float)
  /-- A position is a real number. -/
  | complexPosition (x : Scalar)
  /-- A string has one dimension. -/
  | stringRank (index : Nat)
  /-- A position lies behind the end of a string. -/
  | stringOutside (position length : Nat)
  deriving Repr, BEq

/-- The text of an index fault. -/
def IndexFault.text : IndexFault → String
  | .rank index object =>
      s!"Dimension mismatch: index has {index} dimensions, matrix has {object}"
  | .sparseRank index =>
      s!"Dimension mismatch: index has {index} dimensions, sparse matrix has 2"
  | .outside position extent axis =>
      s!"Index out of range ({position} > {extent}) in dimension {axis}"
  | .sparseOutside row column rows columns =>
      s!"Index ({row}, {column}) out of range for {rows}x{columns} sparse matrix"
  | .notPosition x => s!"Index must be a positive integer, got {Decimal.text x}"
  | .complexPosition x => s!"Index must be real, got {x.text}"
  | .stringRank index => s!"Dimension mismatch: index has {index} dimensions, string has 1"
  | .stringOutside position length => s!"Index out of range ({position} > {length})"

/-- An argument of the right kind that a function cannot use. -/
inductive ArgumentFault where
  /-- An unknown storage token. -/
  | storage (token : String)
  /-- An unknown datatype token. -/
  | datatype (token : String)
  /-- A namespace function is called with a number of arguments outside its arity. -/
  | arity (function : String) (expected : Arity) (actual : Nat)
  /-- A function value is called with another number of arguments than it has parameters. -/
  | parameters (function : String) (provided expected : Nat)
  /-- A range needs a step. -/
  | zeroStep
  /-- A range needs finite bounds. -/
  | infiniteRange (start step stop : Float)
  /-- Nothing is divided by a matrix. -/
  | matrixDivisor
  /-- A matrix is raised to natural powers only. -/
  | exponent (n : Float)
  /-- A count is a natural number. -/
  | notNatural (function : String) (x : Float)
  /-- A text that is no complex number. -/
  | complexText (text : String)
  /-- A fault of a registered function. -/
  | registered (text : String)
  deriving Repr, BEq

/-- The text of an argument fault. -/
def ArgumentFault.text : ArgumentFault → String
  | .storage token =>
      s!"Unsupported matrix storage format: {token} (expected \"dense\" or \"sparse\")"
  | .datatype token =>
      s!"Unsupported matrix datatype: {token} (expected \"number\" or \"complex\")"
  | .arity function expected actual =>
      s!"Function {function} expects {expected.text} argument(s), got {actual}"
  | .parameters function provided expected =>
      s!"Wrong number of arguments in function {function} " ++
        s!"({provided} provided, {expected} expected)"
  | .zeroStep => "Step must be non-zero"
  | .infiniteRange start step stop =>
      let bounds := ":".intercalate [Decimal.text start, Decimal.text step, Decimal.text stop]
      s!"Range bounds must be finite ({bounds})"
  | .matrixDivisor => "Division by a matrix is not supported"
  | .exponent n =>
      s!"Matrix power requires a non-negative integer exponent, got {Decimal.text n}"
  | .notNatural function x =>
      s!"Function {function} expects a non-negative integer, got {Decimal.text x}"
  | .complexText text => s!"Invalid complex number \"{text}\""
  | .registered text => text

/-- Why a computation breaks off. -/
inductive Abort where
  /-- So many elements cannot be addressed. -/
  | capacity
  /-- There is no such place in data of this size. -/
  | outside (size place : Nat)
  deriving Repr, BEq

/-- The text of an abort. -/
def Abort.text : Abort → String
  | .capacity => "capacity overflow"
  | .outside size place => s!"index out of bounds: the len is {size} but the index is {place}"

/-- Why an evaluation failed. -/
inductive EvalError where
  | undefinedSymbol (name : String)
  | type (fault : TypeFault)
  | dimension (fault : DimensionFault)
  | index (fault : IndexFault)
  | argument (fault : ArgumentFault)
  | notCallable (name : String)
  | recursionLimit (limit : Nat)
  /-- The computation breaks off without an answer. -/
  | abort (cause : Abort)
  deriving Repr, BEq

namespace EvalError

/-- Does the computation break off? -/
def isAbort : EvalError → Bool
  | .abort _ => true
  | _ => false

/-- The name of an error's class. -/
def identifier : EvalError → String
  | .undefinedSymbol _ => "MathTree:UndefinedSymbol"
  | .type _ => "MathTree:TypeError"
  | .dimension _ => "MathTree:DimensionError"
  | .index _ => "MathTree:IndexError"
  | .argument _ => "MathTree:ArgumentError"
  | .notCallable _ => "MathTree:NotCallable"
  | .recursionLimit _ => "MathTree:RecursionLimit"
  | .abort _ => "abort"

/-- The text of an error. -/
def message : EvalError → String
  | .undefinedSymbol name => s!"undefined symbol \"{name}\""
  | .type fault => "type error: " ++ fault.text
  | .dimension fault => "dimension error: " ++ fault.text
  | .index fault => "index error: " ++ fault.text
  | .argument fault => "argument error: " ++ fault.text
  | .notCallable name => s!"\"{name}\" is not a function"
  | .recursionLimit limit => s!"maximum call depth of {limit} exceeded"
  | .abort cause => cause.text

end EvalError

end Formula
