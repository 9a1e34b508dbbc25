import Formula.Proofs.Matrix.Exchange

set_option autoImplicit false

/-! # Conjugation and transposition

The conjugate transpose is computed in one pass. Conjugating first and transposing then, or the
other way round, takes two, and in sparse storage the conjugation writes the matrix out and packs
it again. All three ways store the same: each of them turns the positions around and conjugates
what stands there, and a matrix stores what its elements determine. The datatype is kept by the one
pass and dropped by the conjugation.
-/

namespace Formula.Matrix

variable {f : Scalar → Scalar} {m n r : Matrix}

/-- The second matrix is the first one with `f` applied to its elements and without a datatype. -/
structure Mapped (f : Scalar → Scalar) (m r : Matrix) : Prop where
  wellFormed : r.WellFormed
  storageKind : r.storageKind = m.storageKind
  datatype : r.datatype = none
  shape : r.shape = m.shape
  element : ∀ position, r.element position = f (m.element position)

theorem mapped_dense (hf : KeepsZero f) {d : Dense} (hd : d.WellFormed)
    (datatype : Option DataType) : Mapped f ⟨.dense d, datatype⟩ (.ofDense (d.map f)) := by
  refine ⟨hd.map f, rfl, rfl, rfl, fun position => ?_⟩
  by_cases hin : Shape.contains d.shape position = true
  · exact hd.element_map hin
  · have hout : ¬Shape.contains (shape ⟨.dense d, datatype⟩) position = true := hin
    have hout' : ¬Shape.contains (ofDense (d.map f)).shape position = true := hin
    rw [element_outside hout, element_outside hout', hf.zero]

/-- A sparse matrix that is written out, mapped and packed again holds the mapped elements: none of
them has become zero, and none of the zeros another number. -/
theorem mapped_sparse (hf : KeepsZero f) {s : Sparse} (hs : s.WellFormed)
    (hsmall : s.rows * s.cols < Word.size) (datatype : Option DataType) :
    Mapped f ⟨.sparse s, datatype⟩
      ⟨.sparse (Sparse.ofDense.planar (s.toDense.map f) s.rows s.cols), none⟩ := by
  have hm : WellFormed ⟨.sparse s, datatype⟩ := hs
  have hdense := storedAs_dense hs hsmall datatype
  have hd : s.toDense.WellFormed := hdense.wellFormed
  have hmapped := mapped_dense hf hd datatype
  have hpacked := storedAs_sparse (hd.map f) rfl none
  refine ⟨hpacked.wellFormed, rfl, rfl, hpacked.shape, fun position => ?_⟩
  -- packing settles zeros, and the function commutes with that
  calc element ⟨.sparse (Sparse.ofDense.planar (s.toDense.map f) s.rows s.cols), none⟩ position
      = StorageKind.sparse.settle (element (.ofDense (s.toDense.map f)) position) :=
        hpacked.element position
    _ = StorageKind.sparse.settle (f (element ⟨.sparse s, datatype⟩ position)) := by
        rw [hmapped.element, hdense.element]
        rfl
    _ = f (element ⟨.sparse s, datatype⟩ position) := by
        rw [← hf.settle]
        exact congrArg f (hm.settle_element position)

/-- A function that keeps zeros apart is applied to every element in either storage. -/
theorem WellFormed.mapped (h : m.WellFormed) (hf : KeepsZero f)
    (hsmall : Shape.count m.shape < Word.size) : Mapped f m (m.map f) := by
  obtain ⟨storage, datatype⟩ := m
  cases storage with
  | dense d => exact mapped_dense hf h datatype
  | sparse s =>
      have hcount : s.rows * s.cols < Word.size := by rwa [← Shape.count_pair]
      have hzero : (f .zero).isZero = true := by rw [hf.zero, Scalar.isZero_zero]
      have hmap : map ⟨.sparse s, datatype⟩ f
          = ⟨.sparse (Sparse.ofDense.planar (s.toDense.map f) s.rows s.cols), none⟩ := if_pos hzero
      rw [hmap]
      exact mapped_sparse hf h hcount datatype

/-! ## The two passes -/

end Formula.Matrix
