import Formula.Proofs.Matrix.Agreement
import Formula.Proofs.Matrix.Expand

set_option autoImplicit false

/-! # Matrices as functions of the position

A matrix of either storage is well formed if what it stores is: then it is determined by its
storage kind, its datatype, its shape and the elements at the positions of the shape
(`WellFormed.ext`). Dense storage keeps every number as it is. Sparse storage keeps no zeros, so
that of whatever sign and kind they were they are read as the real zero (`StorageKind.settle`).
-/

namespace Formula

/-- What is read where a number has been stored. -/
def StorageKind.settle : StorageKind → Scalar → Scalar
  | .dense, x => x
  | .sparse, x => if x.isZero then .zero else x

namespace StorageKind

/-- Storing changes no number into a zero or a zero into another number. -/
theorem isZero_settle (kind : StorageKind) (x : Scalar) : (kind.settle x).isZero = x.isZero := by
  cases kind with
  | dense => rfl
  | sparse =>
      by_cases hzero : x.isZero = true
      · rw [settle, if_pos hzero, Scalar.isZero_zero, hzero]
      · rw [settle, if_neg hzero]

theorem settle_zero (kind : StorageKind) : kind.settle .zero = .zero := by
  cases kind with
  | dense => rfl
  | sparse => rw [settle, if_pos Scalar.isZero_zero]

end StorageKind

/-! ## Sparse matrices -/

namespace Sparse

variable {s t : Sparse}

/-- What is kept of a number is read as the number, or as the real zero. -/
theorem getD_kept (x : Scalar) : (Column.kept x).getD .zero = StorageKind.sparse.settle x := by
  by_cases hzero : x.isZero = true
  · simp [Column.kept, StorageKind.settle, hzero]
  · simp [Column.kept, StorageKind.settle, hzero]

/-- Nothing is held outside. -/
theorem WellFormed.cell?_outside (h : s.WellFormed) {row col : Nat}
    (hout : ¬(row < s.rows ∧ col < s.cols)) : s.cell? row col = none := by
  rw [Option.eq_none_iff_forall_ne_some]
  exact fun x hx => hout (h.lt_of_cell? hx)

/-- What is held is what is kept of the number that is read. -/
theorem WellFormed.cell?_eq_kept (h : s.WellFormed) (row col : Nat) :
    s.cell? row col = Column.kept ((s.cell? row col).getD .zero) := by
  cases hcell : s.cell? row col with
  | none => exact (if_pos Scalar.isZero_zero).symm
  | some x => exact (Column.kept_eq_some_iff.mpr ⟨rfl, h.nonzero_of_cell? hcell⟩).symm

/-- Well-formed matrices of the same rows and columns that hold the same are the same. -/
theorem WellFormed.ext (hs : s.WellFormed) (ht : t.WellFormed) (hrows : s.rows = t.rows)
    (hcols : s.cols = t.cols)
    (h : ∀ row < s.rows, ∀ col < s.cols, s.cell? row col = t.cell? row col) : s = t := by
  have hcell : s.cell? = t.cell? := by
    funext row col
    by_cases hin : row < s.rows ∧ col < s.cols
    · exact h row hin.1 col hin.2
    · rw [hs.cell?_outside hin, ht.cell?_outside (by rwa [← hrows, ← hcols])]
  calc s = tabulate s.rows s.cols s.cell? := hs.eq_tabulate
    _ = tabulate t.rows t.cols t.cell? := by rw [hrows, hcols, hcell]
    _ = t := ht.eq_tabulate.symm

end Sparse

/-! ## Matrices -/

namespace Matrix

/-- What the matrix stores is well formed. -/
def WellFormed (m : Matrix) : Prop :=
  match m.storage with
  | .dense d => d.WellFormed
  | .sparse s => s.WellFormed

/-- The element at a position, zero outside of the shape. -/
def element (m : Matrix) (position : List Nat) : Scalar := ((m.get position).toOption).getD .zero

variable {m n : Matrix}

theorem element_sparse {s : Sparse} (h : s.WellFormed) (datatype : Option DataType)
    (row col : Nat) : element ⟨.sparse s, datatype⟩ [row, col] = (s.cell? row col).getD .zero := by
  show ((s.get row col).toOption).getD .zero = _
  by_cases hin : row < s.rows ∧ col < s.cols
  · rw [h.get_eq hin.1 hin.2]
    rfl
  · rw [Sparse.get, if_neg hin, h.cell?_outside hin]
    rfl

theorem element_outside {position : List Nat} (h : ¬Shape.contains m.shape position = true) :
    m.element position = .zero := by
  obtain ⟨storage, datatype⟩ := m
  cases storage with
  | dense d => exact Dense.element_outside h
  | sparse s =>
      rcases position with _ | ⟨row, _ | ⟨col, _ | ⟨k, rest⟩⟩⟩
      · rfl
      · rfl
      · have hout : ¬(row < s.rows ∧ col < s.cols) := fun hin => h (Shape.contains_pair.mpr hin)
        show ((s.get row col).toOption).getD .zero = _
        rw [Sparse.get, if_neg hout]
        rfl
      · rfl

/-- A position in two axes is a row and a column. -/
theorem exists_of_contains_pair {rows cols : Nat} {position : List Nat}
    (h : Shape.contains [rows, cols] position = true) :
    ∃ row col, position = [row, col] ∧ row < rows ∧ col < cols := by
  obtain ⟨row, col, rfl⟩ := List.length_eq_two.mp (Shape.length_of_contains h)
  exact ⟨row, col, rfl, Shape.contains_pair.mp h⟩

/-- Reading a position inside gives its element. -/
theorem WellFormed.get_eq (h : m.WellFormed) {position : List Nat}
    (hin : Shape.contains m.shape position = true) : m.get position = .ok (m.element position) := by
  obtain ⟨storage, datatype⟩ := m
  cases storage with
  | dense d =>
      have hd : d.WellFormed := h
      show d.get position = .ok (d.element position)
      rw [hd.element_eq hin]
      exact hd.get_eq hin
  | sparse s =>
      have hs : s.WellFormed := h
      obtain ⟨row, col, rfl, hrow, hcol⟩ := exists_of_contains_pair hin
      rw [element_sparse hs]
      exact hs.get_eq hrow hcol

/-- What is read from a matrix is left as it is by its storage. -/
theorem WellFormed.settle_element (h : m.WellFormed) (position : List Nat) :
    m.storageKind.settle (m.element position) = m.element position := by
  by_cases hin : Shape.contains m.shape position = true
  · obtain ⟨storage, datatype⟩ := m
    cases storage with
    | dense d => rfl
    | sparse s =>
        have hs : s.WellFormed := h
        obtain ⟨row, col, rfl, -, -⟩ := exists_of_contains_pair hin
        rw [element_sparse hs]
        show StorageKind.sparse.settle _ = _
        rw [← Sparse.getD_kept, ← hs.cell?_eq_kept]
  · rw [element_outside hin, StorageKind.settle_zero]

/-- A well-formed matrix is determined by its storage kind, datatype, shape and elements. -/
theorem WellFormed.ext (hm : m.WellFormed) (hn : n.WellFormed)
    (hkind : m.storageKind = n.storageKind) (hdatatype : m.datatype = n.datatype)
    (hshape : m.shape = n.shape)
    (h : ∀ position, Shape.contains m.shape position = true →
      m.element position = n.element position) : m = n := by
  obtain ⟨storage, datatype⟩ := m
  obtain ⟨storage', datatype'⟩ := n
  obtain rfl : datatype = datatype' := hdatatype
  cases storage with
  | dense d =>
      cases storage' with
      | dense e =>
          have hd : d.WellFormed := hm
          rw [hd.ext hn hshape h]
      | sparse t => exact nomatch hkind
  | sparse s =>
      cases storage' with
      | dense e => exact nomatch hkind
      | sparse t =>
          have hs : s.WellFormed := hm
          have ht : t.WellFormed := hn
          obtain ⟨hrows, hcols⟩ : s.rows = t.rows ∧ s.cols = t.cols := by
            simpa [Matrix.shape] using hshape
          rw [hs.ext ht hrows hcols fun row hrow col hcol => ?_]
          have helement := h [row, col] (Shape.contains_pair.mpr ⟨hrow, hcol⟩)
          rw [element_sparse hs, element_sparse ht] at helement
          rw [hs.cell?_eq_kept, ht.cell?_eq_kept, helement]

/-! ## Expanding -/

/-- The expansion of a sparse matrix that a word can count has the same elements. -/
theorem element_toDense {s : Sparse} (h : s.WellFormed) (hsmall : s.rows * s.cols < Word.size)
    (datatype : Option DataType) (position : List Nat) :
    s.toDense.element position = element ⟨.sparse s, datatype⟩ position := by
  by_cases hin : Shape.contains [s.rows, s.cols] position = true
  · obtain ⟨row, col, rfl, hrow, hcol⟩ := exists_of_contains_pair hin
    rw [element_sparse h, ← h.cell_toDense hsmall hrow hcol,
      (h.plane_toDense hsmall).cell_eq hrow hcol]
  · rw [element_outside (m := ⟨.sparse s, datatype⟩) hin]
    exact Dense.element_outside hin

/-- A sparse matrix that a word can count agrees with its expansion. -/
theorem agrees_toDense {s : Sparse} (h : s.WellFormed) (hsmall : s.rows * s.cols < Word.size) :
    s.Agrees s.toDense := by
  refine .of_cells h (h.plane_toDense hsmall) fun row hrow col hcol => ?_
  exact Or.inl (h.cell_toDense hsmall hrow hcol).symm

/-- A matrix that a word can count is written out with an element for each position. -/
theorem WellFormed.toDense (h : m.WellFormed) (hsmall : Shape.count m.shape < Word.size) :
    m.toDense.WellFormed ∧ m.toDense.shape = m.shape := by
  obtain ⟨storage, datatype⟩ := m
  cases storage with
  | dense d => exact ⟨h, rfl⟩
  | sparse s =>
      have hs : s.WellFormed := h
      have hcount : s.rows * s.cols < Word.size := by rwa [← Shape.count_pair]
      exact ⟨(hs.plane_toDense hcount).wellFormed, (hs.plane_toDense hcount).shape⟩

theorem WellFormed.size_elements (h : m.WellFormed) : m.elements.size = m.numel := by
  obtain ⟨storage, datatype⟩ := m
  cases storage with
  | dense d =>
      have hd : d.WellFormed := h
      exact hd.size.trans (Word.product_of_lt hd.small).symm
  | sparse s =>
      have hs : s.WellFormed := h
      exact hs.size_toDense

theorem WellFormed.expand_eq (h : m.WellFormed) (hsmall : Shape.count m.shape < Word.size) :
    m.expand = .ok m.elements := by
  obtain ⟨storage, datatype⟩ := m
  cases storage with
  | dense d => rfl
  | sparse s =>
      have hs : s.WellFormed := h
      have hcount : s.rows * s.cols < Word.size := by rwa [← Shape.count_pair]
      show s.expand.map Dense.data = _
      rw [hs.expand_eq hcount]
      rfl

/-- Writing a matrix out keeps its elements. -/
theorem WellFormed.toDense_element (h : m.WellFormed) (hsmall : Shape.count m.shape < Word.size)
    (position : List Nat) : m.toDense.element position = m.element position := by
  obtain ⟨storage, datatype⟩ := m
  cases storage with
  | dense d => rfl
  | sparse s =>
      have hcount : s.rows * s.cols < Word.size := by rwa [← Shape.count_pair]
      exact element_toDense h hcount datatype position

/-- The elements of a matrix are those at all positions in turn. -/
theorem WellFormed.toList_elements (h : m.WellFormed) (hsmall : Shape.count m.shape < Word.size) :
    m.elements.toList = (Shape.positions m.shape).map m.element := by
  obtain ⟨hdense, hshape⟩ := h.toDense hsmall
  calc m.elements.toList = (Shape.positions m.toDense.shape).map m.toDense.element :=
        hdense.toList_data
    _ = (Shape.positions m.shape).map m.element := by
        rw [hshape]
        exact List.map_congr_left fun position _ => h.toDense_element hsmall position

/-- The nonzero elements that a matrix counts are those at its positions. -/
theorem WellFormed.nonzeros_eq (h : m.WellFormed) (hsmall : Shape.count m.shape < Word.size) :
    m.nonzeros = (Shape.positions m.shape).countP fun position => !(m.element position).isZero := by
  have hdense : ∀ {d : Dense}, d.WellFormed → d.nonzeros
      = (Shape.positions d.shape).countP fun position => !(d.element position).isZero := by
    intro d hd
    rw [Dense.nonzeros, ← Array.countP_toList, hd.toList_data, List.countP_map]
    rfl
  obtain ⟨storage, datatype⟩ := m
  cases storage with
  | dense d => exact hdense h
  | sparse s =>
      have hs : s.WellFormed := h
      have hcount : s.rows * s.cols < Word.size := by
        rwa [← Shape.count_pair]
      -- a sparse matrix is counted in its expansion
      calc s.nonzeros = s.toDense.nonzeros := (agrees_toDense hs hcount).nonzeros_eq
        _ = (Shape.positions [s.rows, s.cols]).countP fun position =>
              !(s.toDense.element position).isZero := hdense (hs.plane_toDense hcount).wellFormed
        _ = _ := by
              simp only [element_toDense hs hcount datatype]
              rfl

end Matrix

end Formula
