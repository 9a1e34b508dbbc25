import Formula.Proofs.Matrix.Column

set_option autoImplicit false

/-! # The compressed form

The arrays of a sparse matrix are the concatenation of its columns, and the pointers count the
elements in front of each column. `ofColumns` compresses a list of columns; a matrix whose
pointers partition its arrays is the compression of its own columns
(`Compressed.ofColumns_columns`), and it is well formed exactly if the columns are canonical.
-/

namespace Formula.Sparse

/-- The elements with their rows, column by column. -/
def entries (s : Sparse) : Column := s.rowIndex.toList.zip s.values.toList

/-- One column. -/
def column (s : Sparse) (col : Nat) : Column :=
  (s.entries.drop (s.start col)).take (s.start (col + 1) - s.start col)

/-- All columns from the first to the last. -/
def columns (s : Sparse) : List Column := (List.range s.cols).map s.column

theorem length_columns (s : Sparse) : s.columns.length = s.cols := by
  rw [columns, List.length_map, List.length_range]

/-- Compresses columns. -/
def ofColumns (rows : Nat) (columns : List Column) : Sparse :=
  { rows := rows
    cols := columns.length
    values := (columns.flatten.map Prod.snd).toArray
    rowIndex := (columns.flatten.map Prod.fst).toArray
    colPtr :=
      ((List.range (columns.length + 1)).map fun k => (columns.take k).flatten.length).toArray }

/-- The pointers partition both arrays into columns. -/
structure Compressed (s : Sparse) : Prop where
  pointers : s.colPtr.size = s.cols + 1
  first : s.start 0 = 0
  ascending : ∀ col < s.cols, s.start col ≤ s.start (col + 1)
  last : s.start s.cols = s.values.size
  aligned : s.rowIndex.size = s.values.size

/-- The arrays are partitioned, the rows of a column increase strictly and lie inside the matrix,
and no element held is zero. -/
structure WellFormed (s : Sparse) : Prop extends Compressed s where
  inside : ∀ row ∈ s.rowIndex, row < s.rows
  sorted : ∀ col < s.cols, ∀ p q, s.start col ≤ p → p < q → q < s.start (col + 1) →
    s.row p < s.row q
  nonzero : ∀ x ∈ s.values, x.isZero = false

/-! ## Partitioned arrays -/

theorem start_eq_getElem {s : Sparse} {col : Nat} (h : col < s.colPtr.size) :
    s.start col = s.colPtr[col] := by
  rw [start, Array.getD, dif_pos h]
  rfl

namespace Compressed

variable {s : Sparse}

theorem length_entries (h : s.Compressed) : s.entries.length = s.values.size := by
  rw [entries, List.length_zip, Array.length_toList, Array.length_toList, h.aligned, Nat.min_self]

/-- The starts of the columns ascend. -/
theorem start_le_start (h : s.Compressed) {a b : Nat} (hab : a ≤ b) (hb : b ≤ s.cols) :
    s.start a ≤ s.start b := by
  induction hab with
  | refl => exact Nat.le_refl _
  | step hle ih => exact Nat.le_trans (ih (Nat.le_of_succ_le hb)) (h.ascending _ hb)

theorem start_le_size (h : s.Compressed) {col : Nat} (hcol : col ≤ s.cols) :
    s.start col ≤ s.values.size := by
  rw [← h.last]
  exact h.start_le_start hcol (Nat.le_refl _)

theorem length_column (h : s.Compressed) {col : Nat} (hcol : col < s.cols) :
    (s.column col).length = s.start (col + 1) - s.start col := by
  have hstop : s.start (col + 1) ≤ s.values.size := h.start_le_size hcol
  rw [column, List.length_take, List.length_drop, h.length_entries]
  omega

/-- The first columns together are the elements in front of the next one. -/
theorem flatten_columns_prefix (h : s.Compressed) {n : Nat} (hn : n ≤ s.cols) :
    ((List.range n).map s.column).flatten = s.entries.take (s.start n) := by
  induction n with
  | zero => simp [h.first]
  | succ n ih =>
      have hle : s.start n ≤ s.start (n + 1) := h.ascending n hn
      have hsplit : s.start (n + 1) = s.start n + (s.start (n + 1) - s.start n) := by omega
      rw [List.range_succ, List.map_append, List.flatten_append, ih (Nat.le_of_succ_le hn), hsplit,
        List.take_add]
      simp [column]

theorem flatten_columns (h : s.Compressed) : s.columns.flatten = s.entries := by
  rw [columns, h.flatten_columns_prefix (Nat.le_refl _), h.last, ← h.length_entries,
    List.take_length]

/-- The start of a column counts the elements of the columns before it. -/
theorem start_eq (h : s.Compressed) {col : Nat} (hcol : col ≤ s.cols) :
    (s.columns.take col).flatten.length = s.start col := by
  have htake : s.columns.take col = (List.range col).map s.column := by
    rw [columns, ← List.map_take, List.take_range, Nat.min_eq_left hcol]
  have hsize : s.start col ≤ s.values.size := h.start_le_size hcol
  rw [htake, h.flatten_columns_prefix hcol, List.length_take, h.length_entries]
  omega

/-- A partitioned matrix is the compression of its columns. -/
theorem ofColumns_columns (h : s.Compressed) : ofColumns s.rows s.columns = s := by
  have hcols : s.columns.length = s.cols := s.length_columns
  have hlen : s.rowIndex.toList.length = s.values.toList.length := by simpa using h.aligned
  have hvalues : (s.columns.flatten.map Prod.snd).toArray = s.values := by
    rw [h.flatten_columns, entries, List.map_snd_zip (Nat.le_of_eq hlen.symm)]
  have hrows : (s.columns.flatten.map Prod.fst).toArray = s.rowIndex := by
    rw [h.flatten_columns, entries, List.map_fst_zip (Nat.le_of_eq hlen)]
  have hptr : ((List.range (s.columns.length + 1)).map fun k =>
      (s.columns.take k).flatten.length).toArray = s.colPtr := by
    rw [hcols]
    refine Array.ext (by simp [h.pointers]) fun k hk hk' => ?_
    rw [h.pointers] at hk'
    simp only [List.getElem_toArray, List.getElem_map, List.getElem_range]
    rw [h.start_eq (Nat.le_of_lt_succ hk'), start_eq_getElem]
  obtain ⟨rows, cols, values, rowIndex, colPtr⟩ := s
  simp only [ofColumns] at hcols hvalues hrows hptr ⊢
  rw [hvalues, hrows, hptr, hcols]

/-- The elements at the places of a column are the column. -/
theorem map_places (h : s.Compressed) {col : Nat} (hcol : col < s.cols) :
    (s.places col).map (fun p => (s.row p, s.value p)) = s.column col := by
  have hlen : (s.column col).length = s.start (col + 1) - s.start col := h.length_column hcol
  have hstop : s.start (col + 1) ≤ s.values.size := h.start_le_size hcol
  refine List.ext_getElem (by simp [places, hlen]) fun i hi hi' => ?_
  rw [hlen] at hi'
  have hvalues : s.start col + i < s.values.size := by omega
  have hrows : s.start col + i < s.rowIndex.size := by rw [h.aligned]; exact hvalues
  simp [places, column, entries, row, value, hvalues, hrows]

end Compressed

/-! ## Compressing columns -/

section ofColumns

variable (rows : Nat) (columns : List Column)

theorem entries_ofColumns : (ofColumns rows columns).entries = columns.flatten := by
  simp only [entries, ofColumns, List.zip_map', List.map_id']

theorem start_ofColumns {col : Nat} (h : col ≤ columns.length) :
    (ofColumns rows columns).start col = (columns.take col).flatten.length := by
  have hsize : col < (ofColumns rows columns).colPtr.size := by
    simp [ofColumns]
    omega
  rw [start_eq_getElem hsize]
  simp [ofColumns]

/-- The elements up to the end of a column are the ones in front of it and its own. -/
theorem flatten_take_succ {col : Nat} (h : col < columns.length) :
    (columns.take (col + 1)).flatten = (columns.take col).flatten ++ columns[col] := by
  rw [List.take_succ_eq_append_getElem h, List.flatten_append, List.flatten_singleton]

theorem start_succ_ofColumns {col : Nat} (h : col < columns.length) :
    (ofColumns rows columns).start (col + 1)
      = (ofColumns rows columns).start col + columns[col].length := by
  rw [start_ofColumns rows columns h, start_ofColumns rows columns (Nat.le_of_lt h),
    flatten_take_succ columns h, List.length_append]

theorem compressed_ofColumns : (ofColumns rows columns).Compressed where
  pointers := by simp [ofColumns]
  first := by rw [start_ofColumns rows columns (Nat.zero_le _)]; rfl
  ascending := by
    intro col hcol
    rw [start_succ_ofColumns rows columns hcol]
    exact Nat.le_add_right _ _
  last := by
    show (ofColumns rows columns).start columns.length = _
    rw [start_ofColumns rows columns (Nat.le_refl _), List.take_length]
    simp [ofColumns, -List.map_flatten]
  aligned := by simp [ofColumns, -List.map_flatten]

theorem column_ofColumns {col : Nat} (h : col < columns.length) :
    (ofColumns rows columns).column col = columns[col] := by
  have hsplit : columns.flatten
      = (columns.take col).flatten ++ (columns[col] ++ (columns.drop (col + 1)).flatten) := by
    conv => lhs; rw [← List.take_append_drop (col + 1) columns]
    rw [List.flatten_append, flatten_take_succ columns h, List.append_assoc]
  rw [column, start_succ_ofColumns rows columns h, entries_ofColumns,
    start_ofColumns rows columns (Nat.le_of_lt h), Nat.add_sub_cancel_left, hsplit,
    List.drop_left, List.take_left]

end ofColumns

/-! ## Well-formed matrices -/

/-- The columns of a well-formed matrix are canonical. -/
theorem WellFormed.canonical {s : Sparse} (h : s.WellFormed) {col : Nat} (hcol : col < s.cols) :
    Column.Canonical s.rows (s.column col) := by
  have hmem : ∀ e ∈ s.column col, e ∈ s.entries := fun e he =>
    List.mem_of_mem_drop (List.mem_of_mem_take he)
  refine ⟨?_, fun e he => ?_, fun e he => ?_⟩
  · rw [← h.map_places hcol]
    refine List.pairwise_map.mpr (List.pairwise_iff_getElem.mpr fun i j hi hj hij => ?_)
    simp only [places, List.length_range'] at hi hj
    simp only [places, List.getElem_range', Nat.one_mul]
    exact h.sorted col hcol _ _ (by omega) (by omega) (by omega)
  · exact h.inside e.1 (Array.mem_toList_iff.mp (List.of_mem_zip (hmem e he)).1)
  · exact h.nonzero e.2 (Array.mem_toList_iff.mp (List.of_mem_zip (hmem e he)).2)

/-- Canonical columns compress to a well-formed matrix. -/
theorem wellFormed_ofColumns {rows : Nat} {columns : List Column}
    (h : ∀ column ∈ columns, Column.Canonical rows column) :
    (ofColumns rows columns).WellFormed where
  toCompressed := compressed_ofColumns rows columns
  inside := by
    intro row hrow
    simp only [ofColumns, List.mem_toArray, List.mem_map, List.mem_flatten] at hrow
    obtain ⟨e, ⟨column, hcolumn, he⟩, rfl⟩ := hrow
    exact (h column hcolumn).inside e he
  sorted := by
    intro col hcol p q hp hpq hq
    -- two places of one column are two entries of it, which is sorted
    have hcompressed := compressed_ofColumns rows columns
    have hsorted := (h _ (List.getElem_mem hcol)).sorted
    rw [← column_ofColumns rows columns hcol, ← hcompressed.map_places hcol] at hsorted
    have hpair := List.pairwise_iff_getElem.mp (List.pairwise_map.mp hsorted)
      (p - (ofColumns rows columns).start col) (q - (ofColumns rows columns).start col)
      (by simp [places]; omega) (by simp [places]; omega) (by omega)
    simp only [places, List.getElem_range', Nat.one_mul] at hpair
    rwa [Nat.add_sub_cancel' hp, Nat.add_sub_cancel' (by omega)] at hpair
  nonzero := by
    intro x hx
    simp only [ofColumns, List.mem_toArray, List.mem_map, List.mem_flatten] at hx
    obtain ⟨e, ⟨column, hcolumn, he⟩, rfl⟩ := hx
    exact (h column hcolumn).nonzero e he

end Formula.Sparse
