import Formula.Matrix.Basic

set_option autoImplicit false

/-! # Selections

A selection picks one list of indices per axis. `subset` reads the elements of a selection,
`setSubset` writes them one after the other, so that of two writes to one position the later one
stands, and a write that fails leaves the earlier ones in place.
-/

namespace Formula.Matrix

/-- Asks for memory for as many elements as a shape has. The number wraps. -/
def reserve (shape : List Nat) : Except EvalError Unit :=
  if Word.product shape ≤ Dense.capacity then .ok () else .error (.abort .capacity)

/-- The matrix of the selected elements, one axis per list. Storage and datatype are kept. Memory is
asked for before the first element is read. -/
def subset (m : Matrix) (lists : List (List Nat)) : Except EvalError Matrix :=
  if lists.length = m.rank then do
    reserve (lists.map List.length)
    let data ← (Shape.selection lists).mapM m.get
    let dense ← Dense.ofData data.toArray (lists.map List.length)
    intoStorage ⟨.dense dense, m.datatype⟩ m.storageKind
  else .error (.index (.rank lists.length m.rank))

/-- Writes elements one after the other up to the first failure. -/
def writeAll : Matrix → List (List Nat × Scalar) → Except EvalError Unit × Matrix
  | m, [] => (.ok (), m)
  | m, (position, x) :: rest =>
      match m.set position x with
      | .ok written => writeAll written rest
      | .error fault => (.error fault, m)

/-- The growth that the writes cause: each change of shape, old and new. -/
def growths : Matrix → List (List Nat × Scalar) → List (List Nat × List Nat)
  | _, [] => []
  | m, (position, x) :: rest =>
      let old := m.shape
      match m.set position x with
      | .ok written =>
          let new := written.shape
          let later := growths written rest
          if old = new then later else (old, new) :: later
      | .error _ => []

/-- The writes that assign a replacement to a selection: its elements in order, or its only one
everywhere. The replacement is written out before the selection is counted. -/
def assignments (m : Matrix) (lists : List (List Nat)) (replacement : Matrix) :
    Except EvalError (List (List Nat × Scalar)) := do
  if lists.length ≠ m.rank then throw (.index (.rank lists.length m.rank))
  let values ← replacement.expand
  let count ← Shape.checkedCount (lists.map List.length) maxElements
  let targets := Shape.selection lists
  if values.size = 1 then return targets.map fun p => (p, values.getD 0 .zero)
  if values.size ≠ count then throw (.dimension (.selection values.size count))
  return targets.zip values.toList

/-- Assigns a replacement to a selection, growing the matrix where needed. The matrix answered
holds the writes made before a failure. -/
def setSubset (m : Matrix) (lists : List (List Nat)) (replacement : Matrix) :
    Except EvalError Unit × Matrix :=
  match m.assignments lists replacement with
  | .ok writes => m.writeAll writes
  | .error fault => (.error fault, m)

end Formula.Matrix
