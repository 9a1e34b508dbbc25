import Formula.Proofs.Matrix.Element

set_option autoImplicit false

/-! # Change of storage

A matrix of two axes can be put into either storage. Shape and datatype stay, and each element is
read as the new storage settles it (`StoredAs`), so two changes of storage are one: the way back to
sparse storage gives the very matrix that was expanded, and the way back to dense storage turns
every zero into the real zero and leaves the other numbers as they are.
-/

namespace Formula.Matrix

/-- The second matrix is the first one, put into a storage. -/
structure StoredAs (kind : StorageKind) (m r : Matrix) : Prop where
  wellFormed : r.WellFormed
  storageKind : r.storageKind = kind
  datatype : r.datatype = m.datatype
  shape : r.shape = m.shape
  element : ∀ position, r.element position = kind.settle (m.element position)

variable {m r : Matrix}

/-- A well-formed matrix is in its own storage. -/
theorem WellFormed.storedAs (h : m.WellFormed) : StoredAs m.storageKind m m :=
  ⟨h, rfl, rfl, rfl, fun position => (h.settle_element position).symm⟩

/-- The nonzero elements of a dense matrix of two axes. -/
theorem storedAs_sparse {d : Dense} (h : d.WellFormed) {rows cols : Nat}
    (hshape : d.shape = [rows, cols]) (datatype : Option DataType) :
    StoredAs .sparse ⟨.dense d, datatype⟩
      ⟨.sparse (Sparse.ofDense.planar d rows cols), datatype⟩ := by
  have hplane : d.Plane rows cols := h.plane hshape
  have hwf : (Sparse.ofDense.planar d rows cols).WellFormed := Sparse.wellFormed_planar d rows cols
  obtain ⟨hrows, hcols⟩ := Sparse.extents_planar d rows cols
  have hcell : ∀ row < rows, ∀ col < cols, (Sparse.ofDense.planar d rows cols).cell? row col
      = Column.kept (d.element [row, col]) := by
    intro row hrow col hcol
    rw [Sparse.planar_eq, Sparse.cell?_tabulate, if_pos ⟨hrow, hcol⟩, ← hplane.cell_eq hrow hcol]
    rfl
  have hsame : shape ⟨.sparse (Sparse.ofDense.planar d rows cols), datatype⟩ = d.shape := by
    show [(Sparse.ofDense.planar d rows cols).rows, (Sparse.ofDense.planar d rows cols).cols] = _
    rw [hrows, hcols, hshape]
  refine ⟨hwf, rfl, rfl, hsame, fun position => ?_⟩
  by_cases hin : Shape.contains d.shape position = true
  · rw [hshape] at hin
    obtain ⟨row, col, rfl, hrow, hcol⟩ := exists_of_contains_pair hin
    -- a zero is not kept, so it is read as the real zero
    rw [element_sparse hwf, hcell row hrow col hcol, Sparse.getD_kept]
    rfl
  · have hout : ¬Shape.contains (shape ⟨.dense d, datatype⟩) position = true := hin
    rw [element_outside hout, element_outside (hsame.symm ▸ hin), StorageKind.settle_zero]

/-- All elements of a sparse matrix that a word can count. -/
theorem storedAs_dense {s : Sparse} (h : s.WellFormed) (hsmall : s.rows * s.cols < Word.size)
    (datatype : Option DataType) :
    StoredAs .dense ⟨.sparse s, datatype⟩ ⟨.dense s.toDense, datatype⟩ :=
  ⟨(h.plane_toDense hsmall).wellFormed, rfl, rfl, rfl, element_toDense h hsmall datatype⟩

/-- A sparse matrix that a word can count is made dense. -/
theorem intoStorage_dense {s : Sparse} (h : s.WellFormed) (hsmall : s.rows * s.cols < Word.size)
    (datatype : Option DataType) :
    intoStorage ⟨.sparse s, datatype⟩ .dense = .ok ⟨.dense s.toDense, datatype⟩ := by
  show s.expand.map _ = _
  rw [h.expand_eq hsmall]
  rfl

/-- A matrix of two axes that a word can count is put into the storage asked for. -/
theorem WellFormed.intoStorage (h : m.WellFormed) (hrank : m.rank = 2)
    (hsmall : Shape.count m.shape < Word.size) (kind : StorageKind) :
    ∃ r, m.intoStorage kind = .ok r ∧ StoredAs kind m r := by
  obtain ⟨storage, datatype⟩ := m
  cases storage with
  | dense d =>
      cases kind with
      | dense => exact ⟨_, rfl, h.storedAs⟩
      | sparse =>
          -- packing asks for two axes, writing out for a count of elements
          obtain ⟨rows, cols, hshape⟩ := List.length_eq_two.mp hrank
          have hd : d.shape = [rows, cols] := hshape
          refine ⟨_, ?_, storedAs_sparse h hd datatype⟩
          rw [intoStorage_sparse h]
          simp only [Sparse.ofDense, hd, Except.map]
  | sparse s =>
      cases kind with
      | dense =>
          have hs : s.WellFormed := h
          have hcount : s.rows * s.cols < Word.size := by rwa [← Shape.count_pair]
          exact ⟨_, intoStorage_dense hs hcount datatype, storedAs_dense hs hcount datatype⟩
      | sparse => exact ⟨_, rfl, h.storedAs⟩

namespace StoredAs

variable {kind kind' : StorageKind} {q : Matrix}

theorem rank (h : StoredAs kind m r) : r.rank = m.rank := congrArg List.length h.shape

/-- Only one matrix is the first one in a storage. -/
theorem unique (h : StoredAs kind m r) (h' : StoredAs kind m q) : r = q := by
  refine h.wellFormed.ext h'.wellFormed ?_ ?_ ?_ fun position _ => ?_
  · rw [h.storageKind, h'.storageKind]
  · rw [h.datatype, h'.datatype]
  · rw [h.shape, h'.shape]
  · rw [h.element, h'.element]

/-- Storage changes no number into a zero or a zero into another number. -/
theorem nonzeros_eq (h : StoredAs kind m r) (hm : m.WellFormed)
    (hsmall : Shape.count m.shape < Word.size) : r.nonzeros = m.nonzeros := by
  have hcount : Shape.count r.shape < Word.size := h.shape ▸ hsmall
  rw [h.wellFormed.nonzeros_eq hcount, hm.nonzeros_eq hsmall, h.shape]
  simp only [h.element, StorageKind.isZero_settle]

end StoredAs

end Formula.Matrix
