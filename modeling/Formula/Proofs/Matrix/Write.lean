import Formula.Proofs.Matrix.Compressed

set_option autoImplicit false

/-! # Reading and writing one element

Binary search finds the place where the rows of a column stop being below the row looked for, so
the seat of an element is decided by what the column holds in the row. Writing then is `put` on one
column: an element inserted into or erased from both arrays at its seat, with the starts of the
later columns moved by one, is the compression of the changed column.
-/

namespace Formula.Sparse

/-- What is held in a row and a column. -/
def cell? (s : Sparse) (row col : Nat) : Option Scalar := List.lookup row (s.column col)

/-! ## Searching -/

/-- The search ends where the rows stop being below the one looked for. -/
theorem search_eq {rows : Array Nat} {row low high p : Nat} (hlow : low ≤ p) (hhigh : p ≤ high)
    (hbelow : ∀ k, low ≤ k → k < p → rows.getD k 0 < row)
    (habove : ∀ k, p ≤ k → k < high → row ≤ rows.getD k 0) :
    search rows row low high = p := by
  fun_induction search rows row low high with
  | case1 low high hlt middle hless ih =>
      -- the row in the middle is below the one looked for, so the end is behind it
      have hmiddle : middle < p := by
        by_cases h : middle < p
        · exact h
        · have := habove middle (by omega) (by omega)
          omega
      exact ih (by omega) hhigh (fun k hk => hbelow k (by omega)) habove
  | case2 low high hlt middle hless ih =>
      -- the row in the middle is not below, so the end is not behind it
      have hmiddle : p ≤ middle := by
        by_cases h : p ≤ middle
        · exact h
        · have := hbelow middle (by omega) (by omega)
          omega
      exact ih hlow hmiddle hbelow (fun k hk hk' => habove k hk (by omega))
  | case3 low high hge => omega

namespace Compressed

variable {s : Sparse}

/-- The element number `i` of a column lies `i` places behind its start. -/
theorem getElem_column (h : s.Compressed) {col : Nat} (hcol : col < s.cols) {i : Nat}
    (hi : i < (s.column col).length) :
    (s.column col)[i] = (s.row (s.start col + i), s.value (s.start col + i)) := by
  have heq := h.map_places hcol
  rw [List.getElem_of_eq heq.symm hi]
  simp [places]

theorem start_succ (h : s.Compressed) {col : Nat} (hcol : col < s.cols) :
    s.start (col + 1) = s.start col + (s.column col).length := by
  have hle : s.start col ≤ s.start (col + 1) := h.ascending col hcol
  rw [h.length_column hcol]
  omega

theorem row_start_add (h : s.Compressed) {col : Nat} (hcol : col < s.cols) {i : Nat}
    (hi : i < (s.column col).length) : s.row (s.start col + i) = (s.column col)[i].1 := by
  rw [h.getElem_column hcol hi]

/-- In a column the search ends behind the elements below the row. -/
theorem search_column (h : s.Compressed) {col : Nat} (hcol : col < s.cols)
    (hsorted : Column.Sorted (s.column col)) (row : Nat) :
    search s.rowIndex row (s.start col) (s.start (col + 1))
      = s.start col + ((s.column col).below row).length := by
  have hstop : s.start (col + 1) = s.start col + (s.column col).length := h.start_succ hcol
  have hlength : ((s.column col).below row).length ≤ (s.column col).length :=
    List.length_filter_le _ _
  refine search_eq (by omega) (by omega) (fun k hk hlt => ?_) (fun k hk hlt => ?_)
  · have hi : k - s.start col < (s.column col).length := by omega
    have hless := (hsorted.row_lt_iff row hi).mpr (by omega)
    rw [← h.row_start_add hcol, Nat.add_sub_cancel' hk] at hless
    exact hless
  · have hi : k - s.start col < (s.column col).length := by omega
    have hge := mt (hsorted.row_lt_iff row hi).mp (by omega)
    rw [← h.row_start_add hcol, Nat.add_sub_cancel' (by omega)] at hge
    exact Nat.le_of_not_lt hge

/-- The seat of a row lies behind the elements below it, and is taken if the column holds an
element in the row. -/
theorem seat_eq (h : s.Compressed) {col : Nat} (hcol : col < s.cols)
    (hsorted : Column.Sorted (s.column col)) (row : Nat) :
    s.seat row col
      = if (s.cell? row col).isSome then
          Seat.taken (s.start col + ((s.column col).below row).length)
        else Seat.free (s.start col + ((s.column col).below row).length) := by
  have hstop : s.start (col + 1) = s.start col + (s.column col).length := h.start_succ hcol
  have hfirst := hsorted.getElem?_length_below row
  simp only [seat, h.search_column hcol hsorted]
  by_cases hsome : (s.cell? row col).isSome
  · obtain ⟨x, hx⟩ := Option.isSome_iff_exists.mp hsome
    rw [show List.lookup row (s.column col) = some x from hx] at hfirst
    obtain ⟨hi, heq⟩ := List.getElem?_eq_some_iff.mp hfirst
    rw [if_pos ⟨by omega, by rw [h.row_start_add hcol hi, heq]⟩, if_pos hsome]
  · have hnone : List.lookup row (s.column col) = none := Option.not_isSome_iff_eq_none.mp hsome
    rw [hnone] at hfirst
    -- what stands at the place, if anything does, is above the row
    rw [if_neg, if_neg hsome]
    rintro ⟨hlt, hseat⟩
    have hi : ((s.column col).below row).length < (s.column col).length := by omega
    rw [h.row_start_add hcol hi] at hseat
    rw [List.getElem?_eq_getElem hi] at hfirst
    have hmem := Column.mem_above.mp (List.mem_of_mem_head? hfirst.symm)
    omega

/-- The element at the seat of a row is the one the column holds in it. -/
theorem value_seat (h : s.Compressed) {col : Nat} (hcol : col < s.cols)
    (hsorted : Column.Sorted (s.column col)) {row : Nat} {x : Scalar}
    (hx : s.cell? row col = some x) :
    s.value (s.start col + ((s.column col).below row).length) = x := by
  have hfirst := hsorted.getElem?_length_below row
  rw [show List.lookup row (s.column col) = some x from hx] at hfirst
  obtain ⟨hi, heq⟩ := List.getElem?_eq_some_iff.mp hfirst
  rw [h.getElem_column hcol hi] at heq
  exact (Prod.mk.inj heq).2

end Compressed

/-- Reading gives what is held, and zero where nothing is. -/
theorem WellFormed.get_eq {s : Sparse} (h : s.WellFormed) {row col : Nat} (hrow : row < s.rows)
    (hcol : col < s.cols) : s.get row col = .ok ((s.cell? row col).getD .zero) := by
  have hsorted : Column.Sorted (s.column col) := (h.canonical hcol).sorted
  rw [get, if_pos ⟨hrow, hcol⟩, h.seat_eq hcol hsorted]
  cases hx : s.cell? row col with
  | none => rfl
  | some x =>
      simp only [Option.isSome_some, if_true, Option.getD_some]
      rw [h.value_seat hcol hsorted hx]

/-! ## One column replaced -/

section replace

variable (rows : Nat) (pre post : List Column) (column : Column)

theorem getElem_replace (h : pre.length < (pre ++ column :: post).length) :
    (pre ++ column :: post)[pre.length] = column := by
  rw [List.getElem_append_right (Nat.le_refl _)]
  simp

theorem flatten_replace :
    (pre ++ column :: post).flatten = pre.flatten ++ (column ++ post.flatten) := by
  rw [List.flatten_append, List.flatten_cons]

theorem shift_id (s : Sparse) (col : Nat) : s.shift col id = s.colPtr := by
  refine Array.ext (by simp [shift]) fun k hk hk' => ?_
  simp [shift]

/-- The starts of the columns behind a column move with its length. -/
theorem shift_ofColumns (column' : Column) (move : Nat → Nat)
    (hmove : ∀ n, column.length ≤ n → move n = n - column.length + column'.length) :
    (ofColumns rows (pre ++ column :: post)).shift pre.length move
      = (ofColumns rows (pre ++ column' :: post)).colPtr := by
  refine Array.ext (by simp [shift, ofColumns]) fun k hk hk' => ?_
  simp only [shift, ofColumns, Array.getElem_mapIdx, List.getElem_toArray, List.getElem_map,
    List.getElem_range, List.take_append, List.flatten_append, List.length_append]
  by_cases hlt : pre.length < k
  · obtain ⟨n, hn⟩ : ∃ n, k - pre.length = n + 1 := ⟨k - pre.length - 1, by omega⟩
    rw [if_pos hlt, hn]
    simp only [List.take_succ_cons, List.flatten_cons, List.length_append]
    rw [hmove _ (by omega)]
    omega
  · rw [if_neg hlt, show k - pre.length = 0 by omega]
    simp

/-- A matrix with one column replaced: its elements in both arrays, the later starts moved. -/
theorem replace_ofColumns (column' : Column) (move : Nat → Nat)
    (hmove : ∀ n, column.length ≤ n → move n = n - column.length + column'.length) :
    { ofColumns rows (pre ++ column :: post) with
      values := ((pre.flatten ++ (column' ++ post.flatten)).map Prod.snd).toArray
      rowIndex := ((pre.flatten ++ (column' ++ post.flatten)).map Prod.fst).toArray
      colPtr := (ofColumns rows (pre ++ column :: post)).shift pre.length move }
      = ofColumns rows (pre ++ column' :: post) := by
  rw [shift_ofColumns rows pre post column column' move hmove]
  simp only [ofColumns, flatten_replace, List.length_append, List.length_cons]

end replace

/-! ## One element replaced -/

section middle

variable {α : Type} (f : Nat × Scalar → α) (front back : Column)

theorem insertIdx_middle (e : Nat × Scalar) :
    ((front ++ back).map f).toArray.insertIdxIfInBounds front.length (f e)
      = ((front ++ e :: back).map f).toArray := by
  have hlist : ∀ front : Column, ((front ++ back).map f).insertIdx front.length (f e)
      = (front ++ e :: back).map f := by
    intro front
    induction front with
    | nil => rfl
    | cons a front ih => 
      simp only [List.cons_append, List.map_cons, List.length_cons, List.insertIdx_succ_cons, ih]
  have hle : front.length ≤ ((front ++ back).map f).toArray.size := by simp
  rw [Array.insertIdxIfInBounds, dif_pos hle, List.insertIdx_toArray, hlist]

theorem eraseIdx_middle (e : Nat × Scalar) :
    ((front ++ e :: back).map f).toArray.eraseIdxIfInBounds front.length
      = ((front ++ back).map f).toArray := by
  refine Array.toList_inj.mp ?_
  rw [Array.toList_eraseIdxIfInBounds]
  simp only [List.map_append, List.map_cons]
  rw [List.eraseIdx_append_of_length_le (by simp)]
  simp

theorem setIfInBounds_middle (e e' : Nat × Scalar) :
    ((front ++ e :: back).map f).toArray.setIfInBounds front.length (f e')
      = ((front ++ e' :: back).map f).toArray := by
  simp [List.set_append_right]

end middle

section place

variable (rows : Nat) (pre post : List Column) (front back : Column)

theorem flatten_middle (column : Column) :
    pre.flatten ++ ((front ++ column) ++ post.flatten)
      = (pre.flatten ++ front) ++ (column ++ post.flatten) := by
  simp only [List.append_assoc]

theorem remove_ofColumns (e : Nat × Scalar) :
    (ofColumns rows (pre ++ (front ++ e :: back) :: post)).remove (pre.flatten ++ front).length
        pre.length
      = ofColumns rows (pre ++ (front ++ back) :: post) := by
  rw [← replace_ofColumns rows pre post (front ++ e :: back) (front ++ back) (· - 1)]
  · simp only [remove, ofColumns, flatten_replace, flatten_middle, List.cons_append,
      eraseIdx_middle]
  · intro n hn
    simp only [List.length_append, List.length_cons] at hn ⊢
    omega

theorem insert_ofColumns (row : Nat) (x : Scalar) :
    (ofColumns rows (pre ++ (front ++ back) :: post)).insert (pre.flatten ++ front).length row
        pre.length x
      = ofColumns rows (pre ++ (front ++ (row, x) :: back) :: post) := by
  rw [← replace_ofColumns rows pre post (front ++ back) (front ++ (row, x) :: back) (· + 1)]
  · have hvalues := insertIdx_middle Prod.snd (pre.flatten ++ front) (back ++ post.flatten) (row, x)
    have hrows := insertIdx_middle Prod.fst (pre.flatten ++ front) (back ++ post.flatten) (row, x)
    simp only [insert, ofColumns, flatten_replace, flatten_middle, List.cons_append, hvalues, hrows]
  · intro n hn
    simp only [List.length_append, List.length_cons] at hn ⊢
    omega

theorem overwrite_ofColumns (row : Nat) (x y : Scalar) :
    { ofColumns rows (pre ++ (front ++ (row, y) :: back) :: post) with
      values := (ofColumns rows (pre ++ (front ++ (row, y) :: back) :: post)).values.setIfInBounds
        (pre.flatten ++ front).length x }
      = ofColumns rows (pre ++ (front ++ (row, x) :: back) :: post) := by
  rw [← replace_ofColumns rows pre post (front ++ (row, y) :: back) (front ++ (row, x) :: back) id]
  · have hvalues := setIfInBounds_middle Prod.snd (pre.flatten ++ front) (back ++ post.flatten)
      (row, y) (row, x)
    have hrows : ((pre.flatten ++ front) ++ (row, y) :: (back ++ post.flatten)).map Prod.fst
        = ((pre.flatten ++ front) ++ (row, x) :: (back ++ post.flatten)).map Prod.fst := by simp
    rw [shift_id]
    simp only [ofColumns, flatten_replace, flatten_middle, List.cons_append, hvalues, hrows]
  · intro n hn
    simp only [List.length_append, List.length_cons, id_eq] at hn ⊢
    omega

end place

/-- Writing into a column puts the element into its row and changes nothing else. -/
theorem write_ofColumns (rows : Nat) (pre post : List Column) {column : Column}
    (hsorted : Column.Sorted column) (row : Nat) (x : Scalar) :
    (ofColumns rows (pre ++ column :: post)).write row pre.length x
      = ofColumns rows (pre ++ column.put row (Column.kept x) :: post) := by
  have hlt : pre.length < (pre ++ column :: post).length := by simp
  have hcolumn : (ofColumns rows (pre ++ column :: post)).column pre.length = column := by
    rw [column_ofColumns rows _ hlt, getElem_replace]
  have hstart : (ofColumns rows (pre ++ column :: post)).start pre.length = pre.flatten.length := by
    rw [start_ofColumns rows _ (Nat.le_of_lt hlt), List.take_left]
  have hseat := (compressed_ofColumns rows (pre ++ column :: post)).seat_eq hlt
    (by rw [hcolumn]; exact hsorted) row
  rw [cell?, hcolumn, hstart, ← List.length_append] at hseat
  have hsplit : column = column.put row (List.lookup row column) := hsorted.eq_put row
  rw [write, hseat]
  -- below and above the row stands what stood there before
  unfold Column.put at hsplit ⊢
  generalize column.below row = front at *
  generalize column.above row = back at *
  cases hx : List.lookup row column with
  | none =>
      rw [hx] at hsplit
      simp only [Option.map_none, Option.toList_none, List.nil_append] at hsplit
      simp only [Option.isSome_none, Bool.false_eq_true, if_false, Column.kept]
      -- the row holds nothing: a zero changes nothing, any other number is inserted
      by_cases hzero : x.isZero
      · rw [if_pos hzero, if_pos hzero, hsplit]
        rfl
      · rw [if_neg hzero, if_neg hzero, hsplit]
        exact insert_ofColumns rows pre post front back row x
  | some y =>
      rw [hx] at hsplit
      simp only [Option.map_some, Option.toList_some, List.cons_append, List.nil_append] at hsplit
      simp only [Option.isSome_some, if_true, Column.kept]
      -- the row holds an element: a zero removes it, any other number takes its place
      by_cases hzero : x.isZero
      · rw [if_pos hzero, if_pos hzero, hsplit]
        exact remove_ofColumns rows pre post front back (row, y)
      · rw [if_neg hzero, if_neg hzero, hsplit]
        exact overwrite_ofColumns rows pre post front back row x y

/-- Writing into a matrix of sorted columns is writing into one of them. -/
theorem write_eq_set (rows : Nat) (columns : List Column) {row col : Nat} (x : Scalar)
    (hcol : col < columns.length) (hsorted : Column.Sorted columns[col]) :
    (ofColumns rows columns).write row col x
      = ofColumns rows (columns.set col (columns[col].put row (Column.kept x))) := by
  have hlength : (columns.take col).length = col := List.length_take_of_le (Nat.le_of_lt hcol)
  have hwrite := write_ofColumns rows (columns.take col) (columns.drop (col + 1)) hsorted row x
  rw [hlength, List.getElem_cons_drop, List.take_append_drop] at hwrite
  rw [hwrite, List.set_eq_take_append_cons_drop, if_pos hcol]

/-! ## Growth -/

/-- Empty columns hold nothing, whichever of them are taken. -/
theorem flatten_take_grown (columns : List Column) (n k : Nat) :
    ((columns ++ List.replicate n []).take k).flatten = (columns.take k).flatten := by
  rw [List.take_append, List.take_replicate, List.flatten_append, List.flatten_replicate_nil,
    List.append_nil]

/-- Columns behind the last one start where the last one ends. -/
theorem pointers_grown (columns : List Column) (n : Nat) :
    (List.range (columns.length + 1 + n)).map (fun k => (columns.take k).flatten.length)
      = (List.range (columns.length + 1)).map (fun k => (columns.take k).flatten.length)
        ++ List.replicate n columns.flatten.length := by
  rw [List.range_add, List.map_append, List.map_map]
  refine congrArg _ (List.eq_replicate_iff.mpr ⟨by simp, fun e he => ?_⟩)
  obtain ⟨k, -, rfl⟩ := List.mem_map.mp he
  rw [Function.comp_apply, List.take_of_length_le (by omega)]

theorem back?_colPtr (rows : Nat) (columns : List Column) :
    (ofColumns rows columns).colPtr.back? = some columns.flatten.length := by
  simp [ofColumns, List.range_succ, -List.length_flatten]

theorem reach_ofColumns (rows : Nat) (columns : List Column) {row col : Nat}
    (hrow : row + 1 < Word.size) (hcol : col + 1 < Word.size) :
    (ofColumns rows columns).reach row col
      = ofColumns (max rows (row + 1))
          (columns ++ List.replicate (col + 1 - columns.length) []) := by
  have hflatten : (columns ++ List.replicate (col + 1 - columns.length) []).flatten
      = columns.flatten := by
    rw [List.flatten_append, List.flatten_replicate_nil, List.append_nil]
  refine Sparse.ext ?_ ?_ ?_ ?_ ?_
  · show (if row < rows then rows else Word.succ row) = max rows (row + 1)
    rw [Word.succ_of_lt hrow]
    split <;> omega
  · show (if col < columns.length then columns.length else Word.succ col) = List.length _
    rw [Word.succ_of_lt hcol, List.length_append, List.length_replicate]
    split <;> omega
  · simp only [reach, ofColumns, hflatten]
  · simp only [reach, ofColumns, hflatten]
  · show (if col < columns.length then (ofColumns rows columns).colPtr else _) = _
    by_cases hinside : col < columns.length
    · -- the matrix has the column already
      rw [if_pos hinside]
      simp only [ofColumns, flatten_take_grown, List.length_append, List.length_replicate]
      rw [show columns.length + (col + 1 - columns.length) = columns.length by omega]
    · rw [if_neg hinside, back?_colPtr]
      simp only [ofColumns, flatten_take_grown, List.length_append, List.length_replicate]
      rw [show columns.length + (col + 1 - columns.length) + 1
        = columns.length + 1 + (col + 1 - columns.length) by omega, pointers_grown]
      refine Array.toList_inj.mp ?_
      rw [Array.toList_append, Array.toList_replicate]
      simp only [List.size_toArray, List.length_map, List.length_range, Option.getD_some]
      rw [show col + 2 - (columns.length + 1) = col + 1 - columns.length by omega]

/-! ## Matrices as functions of row and column -/

/-- Nothing is held behind the last column. -/
theorem Compressed.column_eq_nil {s : Sparse} (h : s.Compressed) {col : Nat} (hcol : s.cols ≤ col) :
    s.column col = [] := by
  have hstop : s.start (col + 1) = 0 := by
    rw [start, Array.getD, dif_neg]
    rw [h.pointers]
    omega
  rw [column, hstop, Nat.zero_sub, List.take_zero]

theorem cell?_ofColumns (rows : Nat) (columns : List Column) (row col : Nat) :
    (ofColumns rows columns).cell? row col = List.lookup row (columns[col]?.getD []) := by
  by_cases hcol : col < columns.length
  · rw [cell?, column_ofColumns rows columns hcol, List.getElem?_eq_getElem hcol, Option.getD_some]
  · have hle : columns.length ≤ col := Nat.le_of_not_lt hcol
    rw [cell?, (compressed_ofColumns rows columns).column_eq_nil hle, List.getElem?_eq_none hle,
      Option.getD_none]

/-- What is held lies inside the matrix. -/
theorem WellFormed.lt_of_cell? {s : Sparse} (h : s.WellFormed) {row col : Nat} {x : Scalar}
    (hx : s.cell? row col = some x) : row < s.rows ∧ col < s.cols := by
  by_cases hcol : col < s.cols
  · have hcanonical := h.canonical hcol
    exact ⟨hcanonical.inside _ ((hcanonical.sorted.lookup_eq_some_iff row x).mp hx), hcol⟩
  · rw [cell?, h.column_eq_nil (Nat.le_of_not_lt hcol)] at hx
    cases hx

/-- What is held is not zero. -/
theorem WellFormed.nonzero_of_cell? {s : Sparse} (h : s.WellFormed) {row col : Nat} {x : Scalar}
    (hx : s.cell? row col = some x) : x.isZero = false := by
  have hcanonical := h.canonical (h.lt_of_cell? hx).2
  exact hcanonical.nonzero _ ((hcanonical.sorted.lookup_eq_some_iff row x).mp hx)

/-! ## Writing into a well-formed matrix -/

section set

variable {s : Sparse} {row col : Nat}

/-- The columns of a matrix grown to a column. -/
def reached (s : Sparse) (col : Nat) : List Column :=
  s.columns ++ List.replicate (col + 1 - s.cols) []

theorem length_reached (s : Sparse) (col : Nat) :
    (s.reached col).length = max s.cols (col + 1) := by
  rw [reached, List.length_append, length_columns, List.length_replicate]
  omega

theorem getElem?_reached (h : s.Compressed) (col c : Nat) :
    ((s.reached col)[c]?).getD [] = s.column c := by
  by_cases hc : c < s.cols
  · simp [reached, columns, List.getElem?_append, hc]
  · have hle : s.columns.length ≤ c := by
      rw [length_columns]
      exact Nat.le_of_not_lt hc
    rw [h.column_eq_nil (Nat.le_of_not_lt hc), reached, List.getElem?_append_right hle,
      List.getElem?_replicate]
    split <;> rfl

theorem WellFormed.canonical_reached (h : s.WellFormed) (row col : Nat) :
    ∀ column ∈ s.reached col, Column.Canonical (max s.rows (row + 1)) column := by
  intro column hcolumn
  rcases List.mem_append.mp hcolumn with hcolumn | hcolumn
  · obtain ⟨c, hc, rfl⟩ := List.mem_map.mp hcolumn
    have hcanonical := h.canonical (List.mem_range.mp hc)
    refine ⟨hcanonical.sorted, fun e he => ?_, hcanonical.nonzero⟩
    have hlt : e.1 < s.rows := hcanonical.inside e he
    omega
  · rw [List.eq_of_mem_replicate hcolumn]
    exact ⟨List.Pairwise.nil, by simp, by simp⟩

/-- Growing appends empty columns. -/
theorem WellFormed.reach_eq (h : s.WellFormed) (hrow : row + 1 < Word.size)
    (hcol : col + 1 < Word.size) :
    s.reach row col = ofColumns (max s.rows (row + 1)) (s.reached col) := by
  have heq := reach_ofColumns s.rows s.columns hrow hcol
  rw [h.ofColumns_columns] at heq
  simpa [reached, columns] using heq

/-- Writing grows the matrix and changes one of its columns. -/
theorem WellFormed.set_eq (h : s.WellFormed) (hrow : row + 1 < Word.size)
    (hcol : col + 1 < Word.size) (x : Scalar) :
    s.set row col x = ofColumns (max s.rows (row + 1))
      ((s.reached col).set col ((s.column col).put row (Column.kept x))) := by
  have hlt : col < (s.reached col).length := by
    rw [length_reached]
    omega
  have hcolumn : (s.reached col)[col] = s.column col := by
    rw [← getElem?_reached h.toCompressed col col, List.getElem?_eq_getElem hlt, Option.getD_some]
  have hsorted : Column.Sorted (s.reached col)[col] :=
    (h.canonical_reached row col _ (List.getElem_mem hlt)).sorted
  rw [set, h.reach_eq hrow hcol, write_eq_set _ _ x hlt hsorted, hcolumn]

theorem WellFormed.rows_set (h : s.WellFormed) (hrow : row + 1 < Word.size)
    (hcol : col + 1 < Word.size) (x : Scalar) : (s.set row col x).rows = max s.rows (row + 1) := by
  rw [h.set_eq hrow hcol]
  rfl

theorem WellFormed.cols_set (h : s.WellFormed) (hrow : row + 1 < Word.size)
    (hcol : col + 1 < Word.size) (x : Scalar) : (s.set row col x).cols = max s.cols (col + 1) := by
  rw [h.set_eq hrow hcol]
  show List.length _ = _
  rw [List.length_set, length_reached]

/-- Writing keeps a matrix well formed. -/
theorem WellFormed.set (h : s.WellFormed) (hrow : row + 1 < Word.size)
    (hcol : col + 1 < Word.size) (x : Scalar) : (s.set row col x).WellFormed := by
  rw [h.set_eq hrow hcol]
  refine wellFormed_ofColumns fun column hcolumn => ?_
  rcases List.mem_or_eq_of_mem_set hcolumn with hcolumn | rfl
  · exact h.canonical_reached row col column hcolumn
  · have hlt : col < (s.reached col).length := by
      rw [length_reached]
      omega
    have hcanonical := h.canonical_reached row col _ (List.getElem_mem hlt)
    have hget := getElem?_reached h.toCompressed col col
    rw [List.getElem?_eq_getElem hlt, Option.getD_some] at hget
    rw [hget] at hcanonical
    exact hcanonical.put (by omega) x

/-- Writing changes what is held in one position and nothing else. -/
theorem WellFormed.cell?_set (h : s.WellFormed) (hrow : row + 1 < Word.size)
    (hcol : col + 1 < Word.size) (x : Scalar) (r c : Nat) :
    (s.set row col x).cell? r c
      = if r = row ∧ c = col then Column.kept x else s.cell? r c := by
  have hlt : col < (s.reached col).length := by
    rw [length_reached]
    omega
  -- a column that the matrix does not have yet is empty
  have hsorted : Column.Sorted (s.column col) := by
    by_cases hcol : col < s.cols
    · exact (h.canonical hcol).sorted
    · rw [h.column_eq_nil (Nat.le_of_not_lt hcol)]
      exact List.Pairwise.nil
  rw [h.set_eq hrow hcol, cell?_ofColumns, List.getElem?_set]
  by_cases hc : col = c
  · subst hc
    rw [if_pos rfl, if_pos hlt, Option.getD_some, hsorted.lookup_put]
    simp only [and_true]
    rfl
  · rw [if_neg hc, getElem?_reached h.toCompressed, if_neg fun hrc => hc hrc.2.symm]
    rfl

end set

end Formula.Sparse
