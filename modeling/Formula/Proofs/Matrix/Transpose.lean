import Formula.Proofs.Matrix.Build

set_option autoImplicit false

/-! # Transposition

Transposition is a counting sort of the elements by row. The counts are summed up to the starts of
the rows; then every element is dealt out to the next place of its row. The elements already dealt
out to a row stand behind its start in the order in which they came (`Dealt`), so at the end the
arrays hold, row by row, the elements of the rows in the order of the columns.
-/

namespace Formula.Sparse

/-- An element with its row and, in front of the element, its column. -/
abbrev Item := Nat × Nat × Scalar

/-- The items of a row with their columns, in order. -/
def bucket (items : List Item) (row : Nat) : Column :=
  items.filterMap fun item => if item.1 = row then some item.2 else none

/-- The number of items in the rows before a row. -/
def bucketStart (items : List Item) (row : Nat) : Nat := items.countP fun item => item.1 < row

theorem bucket_concat (items : List Item) (item : Item) (row : Nat) :
    bucket (items ++ [item]) row
      = if item.1 = row then bucket items row ++ [item.2] else bucket items row := by
  by_cases hrow : item.1 = row <;> simp [bucket, hrow]

theorem length_bucket (items : List Item) (row : Nat) :
    (bucket items row).length = items.countP fun item => item.1 = row := by
  induction items with
  | nil => rfl
  | cons item items ih =>
      unfold bucket at ih ⊢
      by_cases hrow : item.1 = row <;> simp [hrow, ih]

/-- A row starts behind the items of the row before it. -/
theorem bucketStart_succ (items : List Item) (row : Nat) :
    bucketStart items (row + 1) = bucketStart items row + (bucket items row).length := by
  rw [length_bucket]
  unfold bucketStart
  induction items with
  | nil => rfl
  | cons item items ih =>
      simp only [List.countP_cons, ih, decide_eq_true_eq]
      by_cases hlt : item.1 < row
      · rw [if_pos (by omega), if_pos hlt, if_neg (by omega)]
        omega
      · by_cases hrow : item.1 = row
        · rw [if_pos (by omega), if_neg hlt, if_pos hrow]
          omega
        · rw [if_neg (by omega), if_neg hlt, if_neg hrow]
          omega

theorem bucketStart_le (items : List Item) {row row' : Nat} (h : row ≤ row') :
    bucketStart items row ≤ bucketStart items row' := by
  induction h with
  | refl => exact Nat.le_refl _
  | step _ ih =>
      rw [bucketStart_succ]
      exact Nat.le_trans ih (Nat.le_add_right _ _)

/-! ## Counting -/

theorem getD_modify {α : Type} (xs : Array α) (i : Nat) (f : α → α) {k : Nat} (hk : k < xs.size)
    (d : α) : (xs.modify i f).getD k d = if i = k then f (xs.getD k d) else xs.getD k d := by
  have hk' : k < (xs.modify i f).size := by rw [Array.size_modify]; exact hk
  simp only [Array.getD, dif_pos hk, dif_pos hk']
  exact Array.getElem_modify hk'

/-- Every row that is counted raises the entry behind it. -/
theorem getD_foldl_modify (rows : List Nat) (counts : Array Nat) {k : Nat} (hk : k < counts.size) :
    (rows.foldl (fun counts row => counts.modify (row + 1) (· + 1)) counts).getD k 0
      = counts.getD k 0 + rows.countP fun row => row + 1 = k := by
  induction rows generalizing counts with
  | nil => rfl
  | cons row rows ih =>
      rw [List.foldl_cons, ih _ (by rw [Array.size_modify]; exact hk), getD_modify _ _ _ hk,
        List.countP_cons]
      by_cases hrow : row + 1 = k
      · simp only [hrow, if_true, decide_true]
        omega
      · simp [hrow]

theorem size_foldl_modify (rows : List Nat) (counts : Array Nat) :
    (rows.foldl (fun counts row => counts.modify (row + 1) (· + 1)) counts).size = counts.size := by
  induction rows generalizing counts with
  | nil => rfl
  | cons row rows ih => rw [List.foldl_cons, ih, Array.size_modify]

theorem size_sums (n : Nat) (counts : Array Nat) : (sums n counts).size = counts.size := by
  unfold sums
  induction n with
  | zero => rfl
  | succ n ih => rw [List.range_succ, List.foldl_append, List.foldl_cons, List.foldl_nil,
      Array.size_modify, ih]

/-- Summing up makes every entry the total up to it, and leaves the entries behind alone. -/
theorem getD_sums {counts : Array Nat} {total : Nat → Nat} (hzero : counts.getD 0 0 = total 0)
    (n : Nat) (hsize : n < counts.size)
    (hstep : ∀ k < n, total (k + 1) = total k + counts.getD (k + 1) 0) {k : Nat}
    (hk : k < counts.size) :
    (sums n counts).getD k 0 = if k ≤ n then total k else counts.getD k 0 := by
  induction n generalizing k with
  | zero =>
      by_cases h : k = 0
      · subst h
        exact hzero
      · rw [if_neg (by omega)]
        rfl
  | succ n ih =>
      have hprefix := fun {k} hk => ih (Nat.lt_of_succ_lt hsize) (fun k hk => hstep k (by omega))
        (k := k) hk
      -- the last round adds the total before it to one entry and leaves the others
      have hsums : sums (n + 1) counts
          = (sums n counts).modify (n + 1) (· + (sums n counts).getD n 0) := by
        simp only [sums, List.range_succ, List.foldl_append, List.foldl_cons, List.foldl_nil]
      rw [hsums, getD_modify _ _ _ (by rw [size_sums]; exact hk), hprefix hk,
        hprefix (Nat.lt_of_succ_lt hsize), if_pos (Nat.le_refl n)]
      by_cases h : n + 1 = k
      · subst h
        rw [if_pos rfl, if_neg (by omega), if_pos (Nat.le_refl _), hstep n (Nat.lt_succ_self n)]
        exact Nat.add_comm _ _
      · rw [if_neg h]
        by_cases hle : k ≤ n
        · rw [if_pos hle, if_pos (by omega)]
        · rw [if_neg hle, if_neg (by omega)]

/-! ## Dealing out -/

theorem getD_setIfInBounds {α : Type} (xs : Array α) (i : Nat) (x : α) {k : Nat}
    (hk : k < xs.size) (d : α) :
    (xs.setIfInBounds i x).getD k d = if i = k then x else xs.getD k d := by
  have hk' : k < (xs.setIfInBounds i x).size := by rw [Array.size_setIfInBounds]; exact hk
  simp only [Array.getD, dif_pos hk, dif_pos hk']
  exact Array.getElem_setIfInBounds hk

/-- The first of all items have been dealt out to `n` rows: the next place of a row is the one
behind its items, and they stand in order behind the start of the row. -/
structure Dealt (all done : List Item) (n : Nat) (dealt : Deal) : Prop where
  size_next : dealt.next.size = n + 1
  size_values : dealt.values.size = all.length
  size_colIndex : dealt.colIndex.size = all.length
  next : ∀ row < n, dealt.next.getD row 0 = bucketStart all row + (bucket done row).length
  placed : ∀ row < n, ∀ i, (hi : i < (bucket done row).length) →
    (dealt.colIndex.getD (bucketStart all row + i) 0,
      dealt.values.getD (bucketStart all row + i) .zero) = (bucket done row)[i]

/-- The places of two items of different rows differ. -/
theorem bucketStart_add_ne {items : List Item} {row row' i i' : Nat} (h : row ≠ row')
    (hi : i < (bucket items row).length) (hi' : i' < (bucket items row').length) :
    bucketStart items row + i ≠ bucketStart items row' + i' := by
  have hnext := bucketStart_succ items row
  have hnext' := bucketStart_succ items row'
  rcases Nat.lt_or_gt_of_ne h with hlt | hlt
  · have := bucketStart_le items (show row + 1 ≤ row' from hlt)
    omega
  · have := bucketStart_le items (show row' + 1 ≤ row from hlt)
    omega

/-- Every item of a row has its place in the arrays. -/
theorem bucketStart_add_lt {items : List Item} {row i : Nat}
    (hi : i < (bucket items row).length) : bucketStart items row + i < items.length := by
  have hnext := bucketStart_succ items row
  have hle : bucketStart items (row + 1) ≤ items.length := List.countP_le_length
  omega

theorem length_bucket_le {done later : List Item} (row : Nat) :
    (bucket done row).length ≤ (bucket (done ++ later) row).length := by
  rw [bucket, bucket, List.filterMap_append, List.length_append]
  exact Nat.le_add_right _ _

/-- Behind the items of its row there is a place for the next item. -/
theorem length_bucket_lt {all done later : List Item} {item : Item}
    (hall : all = done ++ item :: later) :
    (bucket done item.1).length < (bucket all item.1).length := by
  have hle := @length_bucket_le (done ++ [item]) later item.1
  rw [List.append_assoc, List.singleton_append, ← hall, bucket_concat, if_pos rfl,
    List.length_append] at hle
  exact hle

/-- The next place of a row moves on if the row has the new item. -/
theorem Dealt.next_put {all done : List Item} {n : Nat} {dealt : Deal} (h : Dealt all done n dealt)
    (item : Item) {row : Nat} (hrow : row < n) :
    (dealt.put item.1 item.2.1 item.2.2).next.getD row 0
      = bucketStart all row + (bucket (done ++ [item]) row).length := by
  rw [Deal.put, getD_modify _ _ _ (by rw [h.size_next]; omega), h.next row hrow, bucket_concat]
  by_cases heq : item.1 = row
  · rw [if_pos heq, if_pos heq, List.length_append]
    rfl
  · rw [if_neg heq, if_neg heq]

/-- An item dealt out before keeps its place, which is not the one of the new item. -/
theorem bucketStart_ne_of_lt {all done later : List Item} {item : Item}
    (hall : all = done ++ item :: later) {row i : Nat} (hi : i < (bucket done row).length) :
    bucketStart all item.1 + (bucket done item.1).length ≠ bucketStart all row + i := by
  have hnew : (bucket done item.1).length < (bucket all item.1).length := length_bucket_lt hall
  by_cases heq : item.1 = row
  · subst heq
    omega
  · refine bucketStart_add_ne heq hnew (Nat.lt_of_lt_of_le hi ?_)
    rw [hall]
    exact length_bucket_le row

/-- The items of a row, the new one included, stand in order behind its start. -/
theorem Dealt.placed_put {all done later : List Item} {item : Item} {n : Nat} {dealt : Deal}
    (h : Dealt all done n dealt) (hall : all = done ++ item :: later) (hitem : item.1 < n)
    {row : Nat} (hrow : row < n) (i : Nat) (hi : i < (bucket (done ++ [item]) row).length) :
    ((dealt.put item.1 item.2.1 item.2.2).colIndex.getD (bucketStart all row + i) 0,
      (dealt.put item.1 item.2.1 item.2.2).values.getD (bucketStart all row + i) .zero)
        = (bucket (done ++ [item]) row)[i] := by
  have hroom : (bucket (done ++ [item]) row).length ≤ (bucket all row).length := by
    rw [hall, List.append_cons done item later]
    exact length_bucket_le row
  have hlt : bucketStart all row + i < all.length :=
    bucketStart_add_lt (Nat.lt_of_lt_of_le hi hroom)
  rw [Deal.put, getD_setIfInBounds _ _ _ (by rw [h.size_colIndex]; exact hlt),
    getD_setIfInBounds _ _ _ (by rw [h.size_values]; exact hlt), h.next item.1 hitem]
  by_cases hold : i < (bucket done row).length
  · have hne := bucketStart_ne_of_lt hall hold
    rw [if_neg hne, if_neg hne, h.placed row hrow i hold]
    by_cases heq : item.1 = row
    · simp [bucket_concat, heq, List.getElem_append_left hold]
    · simp [bucket_concat, heq]
  · -- otherwise it is the new item, the last one of its row
    have heq : item.1 = row := Decidable.byContradiction fun hne => by
      rw [bucket_concat, if_neg hne] at hi
      exact hold hi
    subst heq
    have hlast : i = (bucket done item.1).length := by
      rw [bucket_concat, if_pos rfl, List.length_append, List.length_singleton] at hi
      omega
    subst hlast
    simp [bucket_concat]

/-- Dealing out the next item keeps the ones already dealt out in their places. -/
theorem Dealt.put {all done later : List Item} {item : Item} {n : Nat} {dealt : Deal}
    (h : Dealt all done n dealt) (hall : all = done ++ item :: later) (hrow : item.1 < n) :
    Dealt all (done ++ [item]) n (dealt.put item.1 item.2.1 item.2.2) where
  size_next := by simp [Deal.put, h.size_next]
  size_values := by simp [Deal.put, h.size_values]
  size_colIndex := by simp [Deal.put, h.size_colIndex]
  next _ hr := h.next_put item hr
  placed _ hr := h.placed_put hall hrow hr

/-- Dealing out all items puts every one in its place. -/
theorem Dealt.foldl_put {all done later : List Item} {n : Nat} {dealt : Deal}
    (h : Dealt all done n dealt) (hall : all = done ++ later) (hrows : ∀ item ∈ later, item.1 < n) :
    Dealt all all n (later.foldl (fun dealt item => dealt.put item.1 item.2.1 item.2.2) dealt) := by
  induction later generalizing done dealt with
  | nil =>
      rw [List.append_nil] at hall
      rw [List.foldl_nil]
      rwa [← hall] at h
  | cons item later ih =>
      rw [List.foldl_cons]
      refine ih (h.put hall (hrows item List.mem_cons_self)) ?_
        fun item' hitem' => hrows item' (List.mem_cons_of_mem _ hitem')
      rw [hall, List.append_assoc, List.singleton_append]

/-! ## The transposed matrix -/

/-- The elements of a matrix in the order in which transposition deals them out, `f` applied. -/
def items (s : Sparse) (f : Scalar → Scalar) : List Item :=
  (List.range s.cols).flatMap fun col => (s.column col).map fun e => (e.1, col, f e.2)

section transpose

variable {s : Sparse} (f : Scalar → Scalar)

theorem map_fst_items (h : s.Compressed) : (s.items f).map Prod.fst = s.rowIndex.toList := by
  have hrows : s.entries.map Prod.fst = s.rowIndex.toList := by
    rw [entries, List.map_fst_zip]
    simp [h.aligned]
  rw [← hrows, ← h.flatten_columns, columns, items, List.flatMap_def]
  simp [List.map_flatten, Function.comp_def]

theorem length_items (h : s.Compressed) : (s.items f).length = s.values.size := by
  have hmap : ((s.items f).map Prod.fst).length = s.rowIndex.toList.length :=
    congrArg List.length (map_fst_items f h)
  rw [List.length_map] at hmap
  exact hmap.trans h.aligned

theorem row_lt_of_mem_items (h : s.WellFormed) : ∀ item ∈ s.items f, item.1 < s.rows := by
  intro item hitem
  have hmem : item.1 ∈ s.rowIndex.toList := by
    rw [← map_fst_items f h.toCompressed]
    exact List.mem_map_of_mem hitem
  exact h.inside _ (Array.mem_toList_iff.mp hmem)

theorem size_rowCounts (s : Sparse) : s.rowCounts.size = s.rows + 1 := by
  rw [rowCounts, ← Array.foldl_toList, size_foldl_modify, Array.size_replicate]

/-- The summed counts are the starts of the rows. -/
theorem getD_sums_rowCounts (h : s.Compressed) {k : Nat} (hk : k ≤ s.rows) :
    (sums s.rows s.rowCounts).getD k 0 = bucketStart (s.items f) k := by
  have hsize : s.rowCounts.size = s.rows + 1 := s.size_rowCounts
  have hcount : ∀ k < s.rows + 1, s.rowCounts.getD k 0
      = (s.items f).countP fun item => item.1 + 1 = k := by
    intro k hk
    rw [rowCounts, ← Array.foldl_toList, getD_foldl_modify _ _ (by simpa using hk),
      ← map_fst_items f h, List.countP_map]
    simp [hk, Function.comp_def]
  have hzero : s.rowCounts.getD 0 0 = bucketStart (s.items f) 0 := by
    rw [hcount 0 (by omega), bucketStart]
    simp
  rw [getD_sums hzero s.rows (by omega) (fun k hk => ?_) (by omega), if_pos hk]
  rw [bucketStart_succ, length_bucket, hcount (k + 1) (by omega)]
  simp

/-- Going through the places of the columns is going through the items. -/
theorem foldl_places {σ : Type} (put : σ → Item → σ) (h : s.Compressed) (start : σ) :
    (List.range s.cols).foldl (fun state col => (s.places col).foldl
        (fun state place => put state (s.row place, col, f (s.value place))) state) start
      = (s.items f).foldl put start := by
  have hcolumn : ∀ col < s.cols, ∀ state : σ,
      (s.places col).foldl
          (fun state place => put state (s.row place, col, f (s.value place))) state
        = ((s.column col).map fun e => (e.1, col, f e.2)).foldl put state := by
    intro col hcol state
    rw [← h.map_places hcol, List.map_map, List.foldl_map]
    rfl
  rw [items, List.foldl_flatMap]
  refine List.foldl_rel (r := Eq) rfl fun col hcol state state' heq => ?_
  rw [← heq]
  exact hcolumn col (List.mem_range.mp hcol) state

theorem flatten_map_toList {α β : Type} (xs : List α) (g : α → Option β) :
    (xs.map fun x => (g x).toList).flatten = xs.filterMap g := by
  induction xs with
  | nil => rfl
  | cons x xs ih =>
      rw [List.map_cons, List.flatten_cons, ih, List.filterMap_cons]
      cases g x <;> rfl

/-- The items of a row are what its columns hold in it. -/
theorem bucket_items (h : s.WellFormed) (row : Nat) :
    bucket (s.items f) row = Column.tabulate s.cols fun col => (s.cell? row col).map f := by
  have hcolumn : ∀ col < s.cols,
      ((s.column col).map fun e => (e.1, col, f e.2)).filterMap
          (fun item : Item => if item.1 = row then some item.2 else none)
        = (((s.cell? row col).map f).map fun x => (col, x)).toList := by
    intro col hcol
    have hrow := (h.canonical hcol).sorted.filterMap_row row fun x => (col, f x)
    rw [List.filterMap_map, Option.map_map]
    exact hrow
  rw [bucket, items, List.filterMap_flatMap, Column.tabulate, List.flatMap_def,
    List.map_congr_left fun col hcol => hcolumn col (List.mem_range.mp hcol), flatten_map_toList]

theorem size_sums_rowCounts (s : Sparse) : (sums s.rows s.rowCounts).size = s.rows + 1 := by
  rw [size_sums, size_rowCounts]

/-- Before the dealing starts the next place of every row is its start. -/
theorem dealt_nil (h : s.Compressed) :
    Dealt (s.items f) [] s.rows
      ⟨sums s.rows s.rowCounts, Array.replicate s.nonzeros .zero,
        Array.replicate s.nonzeros 0⟩ := by
  have hlength : (s.items f).length = s.nonzeros := length_items f h
  refine ⟨size_sums_rowCounts s, ?_, ?_, fun row hrow => ?_, fun row _ i hi => ?_⟩
  · rw [Array.size_replicate, hlength]
  · rw [Array.size_replicate, hlength]
  · exact getD_sums_rowCounts f h (Nat.le_of_lt hrow)
  · exact absurd hi (Nat.not_lt_zero i)

/-- The transposed matrix holds all items, dealt out. -/
theorem exists_dealt (h : s.WellFormed) :
    ∃ dealt, Dealt (s.items f) (s.items f) s.rows dealt ∧
      s.transpose f = ⟨s.cols, s.rows, dealt.values, dealt.colIndex, sums s.rows s.rowCounts⟩ := by
  have hall := (dealt_nil f h.toCompressed).foldl_put (List.nil_append (s.items f)).symm
    (row_lt_of_mem_items f h)
  rw [← foldl_places f _ h.toCompressed] at hall
  exact ⟨_, hall, rfl⟩

theorem start_transpose (h : s.WellFormed) {k : Nat} (hk : k ≤ s.rows) :
    (s.transpose f).start k = bucketStart (s.items f) k := by
  obtain ⟨dealt, -, heq⟩ := exists_dealt f h
  rw [heq]
  exact getD_sums_rowCounts f h.toCompressed hk

theorem compressed_transpose (h : s.WellFormed) : (s.transpose f).Compressed := by
  obtain ⟨dealt, hdealt, heq⟩ := exists_dealt f h
  have hcols : (s.transpose f).cols = s.rows := rfl
  refine ⟨?_, ?_, fun row hrow => ?_, ?_, ?_⟩
  · rw [heq]
    exact size_sums_rowCounts s
  · rw [start_transpose f h (Nat.zero_le _), bucketStart]
    simp
  · have hrow' : row < s.rows := hrow
    rw [start_transpose f h (Nat.le_of_lt hrow'), start_transpose f h hrow']
    exact bucketStart_le _ (Nat.le_succ row)
  · -- every item lies in a row, so all of them are in front of the last start
    have hcount : bucketStart (s.items f) s.rows = (s.items f).length := by
      refine List.countP_eq_length.mpr fun item hitem => ?_
      exact decide_eq_true (row_lt_of_mem_items f h item hitem)
    rw [hcols, start_transpose f h (Nat.le_refl _), hcount, ← hdealt.size_values, heq]
  · rw [heq]
    exact hdealt.size_colIndex.trans hdealt.size_values.symm

/-- A column of the transposed matrix holds the items of a row. -/
theorem column_transpose (h : s.WellFormed) {row : Nat} (hrow : row < s.rows) :
    (s.transpose f).column row = bucket (s.items f) row := by
  have hcompressed : (s.transpose f).Compressed := compressed_transpose f h
  obtain ⟨dealt, hdealt, heq⟩ := exists_dealt f h
  have hstart : (s.transpose f).start row = bucketStart (s.items f) row :=
    start_transpose f h (Nat.le_of_lt hrow)
  have hlength : ((s.transpose f).column row).length = (bucket (s.items f) row).length := by
    rw [hcompressed.length_column hrow, hstart, start_transpose f h hrow, bucketStart_succ,
      Nat.add_sub_cancel_left]
  refine List.ext_getElem hlength fun i hi hi' => ?_
  rw [hcompressed.getElem_column hrow, hstart, heq]
  exact hdealt.placed row hrow i hi'

/-- Transposition exchanges rows and columns and applies the function to what is held. -/
theorem transpose_eq (h : s.WellFormed) :
    s.transpose f = tabulate s.cols s.rows fun row col => (s.cell? col row).map f := by
  have hcolumns : (s.transpose f).columns
      = (List.range s.rows).map fun row => Column.tabulate s.cols fun col =>
        (s.cell? row col).map f := by
    refine List.map_congr_left fun row hrow => ?_
    rw [column_transpose f h (List.mem_range.mp hrow), bucket_items f h]
  rw [← (compressed_transpose f h).ofColumns_columns, hcolumns]
  rfl

end transpose

end Formula.Sparse
