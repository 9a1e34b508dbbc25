import Formula.Proofs.Matrix.Write

set_option autoImplicit false

/-! # Matrices built at once

The matrix of zeros has empty columns. Conversion from dense storage fills the columns from the
first to the last, so after `n` columns the arrays hold the compression of these columns, and the
pointers of the later columns are still zero.
-/

namespace Formula.Sparse

/-- The matrix whose elements are given by a function of row and column. -/
def tabulate (rows cols : Nat) (cell : Nat → Nat → Option Scalar) : Sparse :=
  ofColumns rows ((List.range cols).map fun col => Column.tabulate rows fun row => cell row col)

theorem wellFormed_tabulate (rows cols : Nat) {cell : Nat → Nat → Option Scalar}
    (h : ∀ row < rows, ∀ col < cols, ∀ x, cell row col = some x → x.isZero = false) :
    (tabulate rows cols cell).WellFormed := by
  refine wellFormed_ofColumns fun column hcolumn => ?_
  obtain ⟨col, hcol, rfl⟩ := List.mem_map.mp hcolumn
  exact Column.canonical_tabulate rows _ fun row hrow x hx =>
    h row hrow col (List.mem_range.mp hcol) x hx

theorem cols_tabulate (rows cols : Nat) (cell : Nat → Nat → Option Scalar) :
    (tabulate rows cols cell).cols = cols := by
  simp [tabulate, ofColumns]

theorem cell?_tabulate (rows cols : Nat) (cell : Nat → Nat → Option Scalar) (row col : Nat) :
    (tabulate rows cols cell).cell? row col
      = if row < rows ∧ col < cols then cell row col else none := by
  rw [tabulate, cell?_ofColumns]
  by_cases hcol : col < cols
  · simp [hcol, Column.lookup_tabulate]
  · simp [hcol]

/-- A well-formed matrix is given by what it holds. -/
theorem WellFormed.eq_tabulate {s : Sparse} (h : s.WellFormed) :
    s = tabulate s.rows s.cols s.cell? := by
  have hcolumns : s.columns
      = (List.range s.cols).map fun col => Column.tabulate s.rows fun row => s.cell? row col :=
    List.map_congr_left fun col hcol => (h.canonical (List.mem_range.mp hcol)).eq_tabulate
  rw [tabulate, ← hcolumns, h.ofColumns_columns]

/-! ## Zeros -/

theorem zeros_eq (rows cols : Nat) : zeros rows cols = ofColumns rows (List.replicate cols []) := by
  refine Sparse.ext rfl ?_ ?_ ?_ ?_
  · simp [ofColumns, zeros]
  · simp [ofColumns, zeros]
  · simp [ofColumns, zeros]
  · refine Array.toList_inj.mp ?_
    simp only [zeros, ofColumns, Array.toList_replicate, List.take_replicate,
      List.flatten_replicate_nil, List.length_nil, List.length_replicate]
    rw [List.map_const', List.length_range]

theorem wellFormed_zeros (rows cols : Nat) : (zeros rows cols).WellFormed := by
  rw [zeros_eq]
  refine wellFormed_ofColumns fun column hcolumn => ?_
  rw [List.eq_of_mem_replicate hcolumn]
  exact ⟨List.Pairwise.nil, by simp, by simp⟩

theorem cell?_zeros (rows cols row col : Nat) : (zeros rows cols).cell? row col = none := by
  rw [zeros_eq, cell?_ofColumns, List.getElem?_replicate]
  split <;> rfl

/-! ## Conversion from dense storage -/

theorem ofColumns_concat (rows : Nat) (columns : List Column) (column : Column) :
    ofColumns rows (columns ++ [column])
      = { rows := rows
          cols := columns.length + 1
          values := (ofColumns rows columns).values ++ (column.map Prod.snd).toArray
          rowIndex := (ofColumns rows columns).rowIndex ++ (column.map Prod.fst).toArray
          colPtr :=
            (ofColumns rows columns).colPtr.push (columns.flatten.length + column.length) } := by
  -- the pointers in front stay, and a last one is added for the new column
  have hptr : (List.range (columns.length + 1 + 1)).map
        (fun k => ((columns ++ [column]).take k).flatten.length)
      = (List.range (columns.length + 1)).map (fun k => (columns.take k).flatten.length)
        ++ [columns.flatten.length + column.length] := by
    rw [List.range_succ, List.map_append, List.map_singleton]
    refine congr (congrArg _ (List.map_congr_left fun k hk => ?_)) ?_
    · rw [List.take_append_of_le_length (Nat.le_of_lt_succ (List.mem_range.mp hk))]
    · rw [List.take_of_length_le (by simp), List.flatten_append, List.length_append,
        List.flatten_singleton]
  refine Sparse.ext rfl ?_ ?_ ?_ ?_
  · simp [ofColumns]
  · simp [ofColumns]
  · simp [ofColumns]
  · simp only [ofColumns, List.length_append, List.length_singleton, hptr]
    rw [List.push_toArray]

/-- Appending the elements of a column row by row appends the ones that are not zero. -/
theorem foldl_append (cell : Nat → Scalar) (rows : List Nat) (s : Sparse) :
    rows.foldl (fun s row => s.append row (cell row)) s
      = let column : Column :=
          rows.filterMap fun row => (Column.kept (cell row)).map fun x => (row, x)
        { s with
          values := s.values ++ (column.map Prod.snd).toArray
          rowIndex := s.rowIndex ++ (column.map Prod.fst).toArray } := by
  induction rows generalizing s with
  | nil => simp
  | cons row rows ih =>
      rw [List.foldl_cons, ih]
      by_cases hzero : (cell row).isZero
      · simp [append, Column.kept, hzero]
      · simp [append, Column.kept, hzero]

/-- One column of a dense matrix in rows and columns. -/
def planarColumn (d : Dense) (rows cols col : Nat) : Column :=
  Column.tabulate rows fun row => Column.kept (d.entry (row * cols + col))

/-- After the first `n` columns the arrays hold these columns, and the later pointers are zero. -/
theorem foldl_fill (d : Dense) (rows cols : Nat) {n : Nat} (hn : n ≤ cols) :
    (List.range n).foldl (ofDense.fill d rows cols) (zeros rows cols)
      = let filled := ofColumns rows ((List.range n).map (planarColumn d rows cols))
        { filled with
          cols := cols
          colPtr := filled.colPtr ++ Array.replicate (cols - n) 0 } := by
  induction n with
  | zero =>
      refine Sparse.ext rfl rfl rfl rfl ?_
      refine Array.toList_inj.mp ?_
      simp [zeros, ofColumns, List.replicate_succ]
  | succ n ih =>
      obtain ⟨m, hm⟩ : ∃ m, cols - n = m + 1 := ⟨cols - n - 1, by omega⟩
      rw [List.range_succ, List.foldl_append, ih (Nat.le_of_succ_le hn), List.map_append,
        List.map_singleton, ofColumns_concat, hm, show cols - (n + 1) = m by omega]
      simp only [List.foldl_cons, List.foldl_nil, ofDense.fill, foldl_append, close]
      refine Sparse.ext rfl rfl rfl rfl ?_
      -- the pointer behind the new column is the first of the zeros
      have hsize : (ofColumns rows ((List.range n).map (planarColumn d rows cols))).colPtr.size
          = n + 1 := by simp [ofColumns]
      have hvalue : ((ofColumns rows ((List.range n).map (planarColumn d rows cols))).values
            ++ ((planarColumn d rows cols n).map Prod.snd).toArray).size
          = ((List.range n).map (planarColumn d rows cols)).flatten.length
            + (planarColumn d rows cols n).length := by
        simp [ofColumns, -List.map_flatten, -List.length_flatten]
      rw [← hvalue]
      refine Array.toList_inj.mp ?_
      simp only [Array.toList_setIfInBounds, Array.toList_append, Array.toList_replicate,
        Array.toList_push]
      rw [List.set_append_right _ _ (Nat.le_of_eq (by rw [Array.length_toList, hsize])),
        Array.length_toList, hsize, Nat.sub_self, List.replicate_succ, List.set_cons_zero,
        List.append_assoc, List.singleton_append]
      rfl

theorem planar_eq (d : Dense) (rows cols : Nat) :
    ofDense.planar d rows cols
      = tabulate rows cols fun row col => Column.kept (d.entry (row * cols + col)) := by
  rw [ofDense.planar, foldl_fill d rows cols (Nat.le_refl _)]
  refine Sparse.ext rfl ?_ rfl rfl ?_
  · simp [tabulate, ofColumns]
  · simp only [Nat.sub_self, Array.replicate_zero, Array.append_empty]
    rfl

theorem extents_planar (d : Dense) (rows cols : Nat) :
    (ofDense.planar d rows cols).rows = rows ∧ (ofDense.planar d rows cols).cols = cols := by
  rw [planar_eq]
  exact ⟨rfl, cols_tabulate rows cols _⟩

end Formula.Sparse
