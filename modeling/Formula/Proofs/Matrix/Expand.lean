import Formula.Proofs.Matrix.Plane
import Formula.Proofs.Matrix.Build
import Formula.Proofs.Matrix.Transpose

set_option autoImplicit false

/-! # Sparse matrices expanded

Expanding a sparse matrix writes its elements one after the other into zeros. In a matrix of fewer
than `2 ^ 64` elements different positions have different places, so every element ends up at its
own position (`cell_toDense`). In a larger one two elements may share a place, and the later one
hides the earlier; or an element has no place at all, and the expansion breaks off
(`expand_eq_ok_iff`).
-/

namespace Formula.Sparse

/-- Writing items one after the other leaves, at a place, the last item with this place. -/
theorem getD_foldl_setIfInBounds {ι α : Type} (place : ι → Nat) (value : ι → α) (items : List ι)
    (xs : Array α) {k : Nat} (hk : k < xs.size) (d : α) :
    (items.foldl (fun xs item => xs.setIfInBounds (place item) (value item)) xs).getD k d
      = ((items.reverse.find? fun item => place item == k).map value).getD (xs.getD k d) := by
  induction items generalizing xs with
  | nil => rfl
  | cons item items ih =>
      rw [List.foldl_cons, ih _ (by rwa [Array.size_setIfInBounds]), getD_setIfInBounds _ _ _ hk,
        List.reverse_cons, List.find?_append]
      cases items.reverse.find? fun item => place item == k with
      | some last => rfl
      | none =>
          by_cases hplace : place item = k
          · simp [hplace]
          · simp [hplace]

theorem size_foldl_setIfInBounds {ι α : Type} (place : ι → Nat) (value : ι → α) (items : List ι)
    (xs : Array α) :
    (items.foldl (fun xs item => xs.setIfInBounds (place item) (value item)) xs).size
      = xs.size := by
  induction items generalizing xs with
  | nil => rfl
  | cons item items ih => rw [List.foldl_cons, ih, Array.size_setIfInBounds]

section expand

variable {s : Sparse}

/-- The items of a matrix are what it holds at its positions. -/
theorem WellFormed.mem_items (h : s.WellFormed) {row col : Nat} {x : Scalar} :
    (row, col, x) ∈ s.items id ↔ s.cell? row col = some x := by
  simp only [items, List.mem_flatMap, List.mem_map, List.mem_range, id_eq]
  constructor
  · rintro ⟨c, hc, e, he, heq⟩
    cases heq
    exact ((h.canonical hc).sorted.lookup_eq_some_iff e.1 e.2).mpr he
  · intro hcell
    have hcol : col < s.cols := (h.lt_of_cell? hcell).2
    exact ⟨col, hcol, (row, x), ((h.canonical hcol).sorted.lookup_eq_some_iff row x).mp hcell, rfl⟩

/-- The data of an expanded matrix are zeros with the items written into them. -/
theorem Compressed.data_toDense (h : s.Compressed) :
    s.toDense.data = (s.items id).foldl (fun data item =>
      data.setIfInBounds (Word.wrap (item.1 * s.cols + item.2.1)) item.2.2)
      (Dense.zeros [s.rows, s.cols]).data := by
  rw [← foldl_places id _ h]
  rfl

theorem Compressed.size_toDense (h : s.Compressed) :
    s.toDense.data.size = Word.product [s.rows, s.cols] := by
  rw [h.data_toDense, size_foldl_setIfInBounds, Dense.zeros, Array.size_replicate]

theorem product_pair {rows cols : Nat} (hsmall : rows * cols < Word.size) :
    Word.product [rows, cols] = rows * cols := by
  rw [Word.product_of_lt (by rwa [Shape.count_pair]), Shape.count_pair]

/-- A dense matrix and its nonzero elements have the same number of places. -/
theorem count_ofDense {d : Dense} (h : ofDense d = .ok s) :
    Shape.count [s.rows, s.cols] = Shape.count d.shape := by
  have hplanar := extents_planar d
  rw [ofDense] at h
  split at h
  · next rows hshape =>
      cases h
      rw [hshape, (hplanar rows 1).1, (hplanar rows 1).2]
      rfl
  · next rows cols hshape =>
      cases h
      rw [hshape, (hplanar rows cols).1, (hplanar rows cols).2]
  · exact nomatch h

/-- A matrix of fewer than `2 ^ 64` elements is expanded into a plane. -/
theorem WellFormed.plane_toDense (h : s.WellFormed) (hsmall : s.rows * s.cols < Word.size) :
    s.toDense.Plane s.rows s.cols := by
  refine ⟨rfl, ?_, hsmall⟩
  rw [h.size_toDense, product_pair hsmall]

/-- It holds every element at its position, and zeros elsewhere. -/
theorem WellFormed.cell_toDense (h : s.WellFormed) (hsmall : s.rows * s.cols < Word.size)
    {row col : Nat} (hrow : row < s.rows) (hcol : col < s.cols) :
    s.toDense.cell s.cols row col = (s.cell? row col).getD .zero := by
  have hplace : row * s.cols + col < s.rows * s.cols := Dense.place_lt hrow hcol
  have hsize : row * s.cols + col < (Dense.zeros [s.rows, s.cols]).data.size := by
    rw [Dense.zeros, Array.size_replicate, product_pair hsmall]
    exact hplace
  have hzero : (Dense.zeros [s.rows, s.cols]).data.getD (row * s.cols + col) .zero = .zero := by
    rw [Dense.zeros, Array.getD_eq_getD_getElem?, Array.getElem?_replicate]
    split <;> rfl
  -- an item stands at this place only if it stands in this row and column
  have hposition : ∀ item ∈ s.items id,
      Word.wrap (item.1 * s.cols + item.2.1) = row * s.cols + col →
        item.1 = row ∧ item.2.1 = col := by
    rintro ⟨row', col', x⟩ hitem heq
    obtain ⟨hrow', hcol'⟩ := h.lt_of_cell? (h.mem_items.mp hitem)
    rw [Word.wrap_of_lt (Nat.lt_trans (Dense.place_lt hrow' hcol') hsmall)] at heq
    exact Dense.place_inj hcol' hcol heq
  rw [Dense.cell, Dense.entry, h.data_toDense, getD_foldl_setIfInBounds _ _ _ _ hsize, hzero]
  congr 1
  cases hfind : (s.items id).reverse.find? fun item =>
      Word.wrap (item.1 * s.cols + item.2.1) == row * s.cols + col with
  | some item =>
      have hmem : item ∈ s.items id := List.mem_reverse.mp (List.mem_of_find?_eq_some hfind)
      have hplace : (Word.wrap (item.1 * s.cols + item.2.1) == row * s.cols + col) = true := by
        simpa using List.find?_some hfind
      obtain ⟨rfl, rfl⟩ := hposition item hmem (eq_of_beq hplace)
      exact (h.mem_items.mp hmem).symm
  | none =>
      cases hcell : s.cell? row col with
      | none => rfl
      | some x =>
          have hmem := List.mem_reverse.mpr (h.mem_items.mpr hcell)
          have hne := List.find?_eq_none.mp hfind _ hmem
          rw [Word.wrap_of_lt (Nat.lt_trans hplace hsmall), beq_self_eq_true] at hne
          exact absurd rfl hne

/-! ## Breaking off -/

theorem expand_cases (s : Sparse) :
    s.expand = .ok s.toDense ∨ ∃ cause, s.expand = .error (.abort cause) := by
  rw [expand]
  cases s.stray? with
  | none => exact Or.inl rfl
  | some place => exact Or.inr ⟨_, rfl⟩

theorem eq_toDense_of_expand {d : Dense} (h : s.expand = .ok d) : d = s.toDense := by
  rcases s.expand_cases with hok | ⟨cause, habort⟩
  · exact Except.ok.inj (h.symm.trans hok)
  · rw [habort] at h
    cases h

/-- Partitioned arrays are expanded if each of the items has a place among the data. -/
theorem Compressed.expand_eq_ok_iff (h : s.Compressed) :
    s.expand = .ok s.toDense ↔ ∀ item ∈ s.items id,
      Word.wrap (item.1 * s.cols + item.2.1) < Word.product [s.rows, s.cols] := by
  -- the places are run through column by column, as the items are
  have htargets : ((List.range s.cols).flatMap fun col =>
      (s.places col).map fun place => Word.wrap (s.row place * s.cols + col))
        = (s.items id).map fun item => Word.wrap (item.1 * s.cols + item.2.1) := by
    rw [items, List.map_flatMap]
    refine List.flatMap_congr fun col hcol => ?_
    rw [← h.map_places (List.mem_range.mp hcol), List.map_map, List.map_map]
    rfl
  rw [expand, stray?, htargets]
  constructor
  · intro hok item hitem
    refine Nat.lt_of_not_le fun hstray => ?_
    split at hok
    · cases hok
    · next hnone =>
        have hfits := List.find?_eq_none.mp hnone _ (List.mem_map_of_mem hitem)
        exact hfits (decide_eq_true hstray)
  · intro hfits
    have hnone : ((s.items id).map fun item => Word.wrap (item.1 * s.cols + item.2.1)).find?
        (fun target => Word.product [s.rows, s.cols] ≤ target) = none := by
      refine List.find?_eq_none.mpr fun target htarget => ?_
      obtain ⟨item, hitem, rfl⟩ := List.mem_map.mp htarget
      simpa using hfits item hitem
    rw [hnone]

/-- A matrix of fewer than `2 ^ 64` elements is expanded. -/
theorem WellFormed.expand_eq (h : s.WellFormed) (hsmall : s.rows * s.cols < Word.size) :
    s.expand = .ok s.toDense := by
  refine h.expand_eq_ok_iff.mpr fun item hitem => ?_
  obtain ⟨hrow, hcol⟩ := h.lt_of_cell? (h.mem_items.mp hitem)
  have hplace := Dense.place_lt hrow hcol
  rw [product_pair hsmall, Word.wrap_of_lt (Nat.lt_trans hplace hsmall)]
  exact hplace

end expand

end Formula.Sparse

namespace Formula.Matrix

variable {m : Matrix}

/-- A matrix is written out, or that breaks off. -/
theorem expand_cases (m : Matrix) :
    m.expand = .ok m.elements ∨ ∃ cause, m.expand = .error (.abort cause) := by
  obtain ⟨storage, datatype⟩ := m
  cases storage with
  | dense d => exact Or.inl rfl
  | sparse s =>
      show s.expand.map Dense.data = .ok s.toDense.data ∨
        ∃ cause, s.expand.map Dense.data = .error (.abort cause)
      rcases s.expand_cases with h | ⟨cause, h⟩
      · rw [h]
        exact Or.inl rfl
      · rw [h]
        exact Or.inr ⟨cause, rfl⟩

/-- What is written out are the elements. -/
theorem eq_elements_of_expand {data : Array Scalar} (h : m.expand = .ok data) :
    data = m.elements := by
  rcases m.expand_cases with hok | ⟨cause, habort⟩
  · exact Except.ok.inj (h.symm.trans hok)
  · rw [habort] at h
    cases h

end Formula.Matrix
