import Formula.Scalar

set_option autoImplicit false

/-! # Kinds of matrices

A matrix has a storage kind, and it may have a datatype that its elements must fit. Both are
named by tokens.
-/

namespace Formula

/-- How the elements of a matrix are held. -/
inductive StorageKind where
  | dense
  | sparse
  deriving Repr, DecidableEq, Inhabited

/-- The token of a storage kind. -/
def StorageKind.token : StorageKind → String
  | .dense => "dense"
  | .sparse => "sparse"

/-- The storage kind of a token. -/
def StorageKind.ofToken? : String → Option StorageKind
  | "dense" => some .dense
  | "sparse" => some .sparse
  | _ => none

/-- Which numbers a matrix may hold. -/
inductive DataType where
  | number
  | complex
  deriving Repr, DecidableEq, Inhabited

namespace DataType

/-- The token of a datatype. -/
def token : DataType → String
  | .number => "number"
  | .complex => "complex"

/-- The datatype of a token. -/
def ofToken? : String → Option DataType
  | "number" => some .number
  | "complex" => some .complex
  | _ => none

/-- May a matrix of this datatype hold the number? -/
def admits : DataType → Scalar → Bool
  | .number, x => x.isReal
  | .complex, _ => true

end DataType

end Formula
