import Formula.Matrix.Sparse

set_option autoImplicit false

/-! # Matrices

A matrix is stored dense or sparse and may be tagged with a datatype that all its elements fit.
Operations that only rearrange elements (`intoStorage`, `transpose`, `subset`) keep storage and
tag; operations that compute new elements (`map`, `zipWith`) drop the tag. Operations that write a
sparse matrix out break off where that does (`expand`).
-/

namespace Formula

/-- The elements of a matrix. -/
inductive Storage where
  | dense (d : Dense)
  | sparse (s : Sparse)
  deriving Repr, BEq, Inhabited

/-- Stored elements and the datatype they fit. -/
structure Matrix where
  storage : Storage
  datatype : Option DataType
  deriving Repr, BEq, Inhabited

/-- The storage kind of a token. -/
def StorageKind.parse (token : String) : Except EvalError StorageKind :=
  match ofToken? token with
  | some kind => .ok kind
  | none => .error (.argument (.storage token))

/-- The datatype of a token. -/
def DataType.parse (token : String) : Except EvalError DataType :=
  match ofToken? token with
  | some datatype => .ok datatype
  | none => .error (.argument (.datatype token))

namespace Matrix

/-- An untagged dense matrix. -/
def ofDense (d : Dense) : Matrix := ⟨.dense d, none⟩

/-- The untagged dense matrix of the given elements and shape. -/
def ofData (data : Array Scalar) (shape : List Nat) : Except EvalError Matrix :=
  (Dense.ofData data shape).map ofDense

/-- The vector of some real numbers. -/
def ofReals (xs : List Float) : Matrix :=
  ofDense ⟨[xs.length], (xs.map Scalar.real).toArray⟩

/-- The vector without elements. -/
def empty : Matrix := ofDense (Dense.zeros [0])

/-- The matrix of a nested sequence. -/
def ofNested : Nested → Except EvalError Matrix
  | .scalar x => .error (.type (.matrixOfScalar x))
  | .seq items => do
      let shape ← (Nested.seq items).shape
      ofData (Nested.seq items).leaves.toArray shape

/-- How the elements are held. -/
def storageKind (m : Matrix) : StorageKind :=
  match m.storage with
  | .dense _ => .dense
  | .sparse _ => .sparse

/-- The extents. -/
def shape (m : Matrix) : List Nat :=
  match m.storage with
  | .dense d => d.shape
  | .sparse s => [s.rows, s.cols]

/-- The number of axes. -/
def rank (m : Matrix) : Nat := m.shape.length

/-- The number of elements, zeros included. -/
def numel (m : Matrix) : Nat := Word.product m.shape

/-- Every element at its place, zeros included. -/
def toDense (m : Matrix) : Dense :=
  match m.storage with
  | .dense d => d
  | .sparse s => s.toDense

/-- All elements in row-major order. -/
def elements (m : Matrix) : Array Scalar := m.toDense.data

/-- Writes all elements out in row-major order. -/
def expand (m : Matrix) : Except EvalError (Array Scalar) :=
  match m.storage with
  | .dense d => .ok d.data
  | .sparse s => s.expand.map Dense.data

/-- The number of elements that are not zero. -/
def nonzeros (m : Matrix) : Nat :=
  match m.storage with
  | .dense d => d.nonzeros
  | .sparse s => s.nonzeros

/-- The text of a matrix: its elements in nested brackets, whatever the storage. -/
def text (m : Matrix) : String := m.toDense.text

/-! ## Storage and datatype -/

/-- The same matrix in the given storage. -/
def intoStorage (m : Matrix) (kind : StorageKind) : Except EvalError Matrix :=
  match m.storage, kind with
  | .dense d, .sparse => do
      d.readPlane
      (Sparse.ofDense d).map fun s => ⟨.sparse s, m.datatype⟩
  | .sparse s, .dense => s.expand.map fun d => ⟨.dense d, m.datatype⟩
  | _, _ => .ok m

/-- The same matrix tagged with a datatype, which every element has to fit. -/
def withDatatype (m : Matrix) (datatype : DataType) : Except EvalError Matrix := do
  let data ← m.expand
  match data.find? fun x => !datatype.admits x with
    | some x => .error (.type (.element x datatype))
    | none => .ok { m with datatype := some datatype }

/-- Changes the storage, then the tag, where they are given. -/
def withOptions (m : Matrix) (kind : Option StorageKind) (datatype : Option DataType) :
    Except EvalError Matrix := do
  let stored ← match kind with
    | some kind => m.intoStorage kind
    | none => .ok m
  match datatype with
    | some datatype => stored.withDatatype datatype
    | none => .ok stored

/-- The storage kind of an optional token. -/
def parseStorage (token : Option String) : Except EvalError (Option StorageKind) :=
  match token with
  | some token => (StorageKind.parse token).map some
  | none => .ok none

/-- The datatype of an optional token. -/
def parseDatatype (token : Option String) : Except EvalError (Option DataType) :=
  match token with
  | some token => (DataType.parse token).map some
  | none => .ok none

/-- The matrix of a nested sequence, or an empty one, in the storage and with the datatype named
by the tokens. -/
def construct (source : Option Nested) (storage datatype : Option String) :
    Except EvalError Matrix := do
  let kind ← parseStorage storage
  let datatype ← parseDatatype datatype
  let base ← match source, kind with
    | some nested, _ => ofNested nested
    | none, some .sparse => .ok ⟨.sparse (Sparse.zeros 0 0), none⟩
    | none, _ => .ok empty
  base.withOptions kind datatype

/-- A copy of a matrix in another storage or with another datatype; without tokens both are
kept. -/
def copy (m : Matrix) (storage datatype : Option String) : Except EvalError Matrix := do
  let kind ← parseStorage storage
  let datatype ← parseDatatype datatype
  m.withOptions kind (datatype.or m.datatype)

/-! ## Elements -/

/-- The element at a position. -/
def get (m : Matrix) (position : List Nat) : Except EvalError Scalar :=
  match m.storage with
  | .dense d => d.get position
  | .sparse s =>
      match position with
      | [row, col] => s.get row col
      | _ => .error (.index (.sparseRank position.length))

/-- Fails if a datatype does not admit a number that is to be stored. -/
def checkStore (datatype : Option DataType) (x : Scalar) : Except EvalError Unit :=
  match datatype with
  | some datatype => if datatype.admits x then .ok () else .error (.type (.store x datatype))
  | none => .ok ()

/-- Writes one element, growing the matrix to the position. The datatype has to admit it, and a
sparse matrix has to stay within `maxElements` columns. -/
def set : Matrix → List Nat → Scalar → Except EvalError Matrix
  | ⟨.dense d, datatype⟩, position, x => do
      checkStore datatype x
      let written ← d.set position x
      .ok ⟨.dense written, datatype⟩
  | ⟨.sparse s, datatype⟩, position, x => do
      checkStore datatype x
      match position with
        | [row, col] =>
            if maxElements ≤ col then
              .error (.dimension (.tooManyColumns (Word.satSucc col) maxElements))
            else .ok ⟨.sparse (s.set row col x), datatype⟩
        | _ => .error (.index (.sparseRank position.length))

/-- Applies a function to every element. A sparse matrix stays sparse if the function maps zero to
a zero. That the matrix can be written out and packed again is not asked here. -/
def map (m : Matrix) (f : Scalar → Scalar) : Matrix :=
  match m.storage with
  | .dense d => ofDense (d.map f)
  | .sparse s =>
      let mapped := s.toDense.map f
      if (f .zero).isZero then
        match Sparse.ofDense mapped with
        | .ok sparse => ⟨.sparse sparse, none⟩
        | .error _ => ofDense mapped
      else ofDense mapped

/-- Every element conjugated. -/
def conj (m : Matrix) : Matrix := m.map Scalar.conj

/-- Combines two matrices of the same shape element by element into a dense one; the first
combination that fails is the error. -/
def zipWith (a b : Matrix) (f : Scalar → Scalar → Except EvalError Scalar) :
    Except EvalError Matrix :=
  if a.shape = b.shape then do
    let xs ← a.expand
    let ys ← b.expand
    let data ← (xs.zip ys).mapM fun e => f e.1 e.2
    ofData data a.shape
  else .error (.dimension (.mismatch a.shape b.shape))

/-! ## Transposition -/

/-- Exchanges rows and columns and applies `f` to every element. A vector keeps its shape; a
matrix of more than two dimensions and one without columns are refused. -/
def transposeWith (m : Matrix) (f : Scalar → Scalar) : Except EvalError Matrix :=
  match m.storage with
  | .dense d =>
      match d.shape with
      | [] => .ok { m with storage := .dense (d.map f) }
      | [_] => .ok { m with storage := .dense (d.map f) }
      | [rows, cols] =>
          if cols = 0 then .error (.dimension (.noColumns d.shape))
          else d.readPlane.map fun _ => { m with storage := .dense (d.transpose rows cols f) }
      | shape => .error (.dimension (.notPlanar shape))
  | .sparse s =>
      if s.cols = 0 then .error (.dimension (.noColumns [s.rows, 0]))
      else .ok { m with storage := .sparse (s.transpose f) }

/-- The transposed matrix. -/
def transpose (m : Matrix) : Except EvalError Matrix := m.transposeWith id

/-- The transposed matrix with every element conjugated. -/
def ctranspose (m : Matrix) : Except EvalError Matrix := m.transposeWith Scalar.conj

end Matrix

end Formula
