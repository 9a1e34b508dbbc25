import Formula.Proofs.Matrix.Conversion
import Formula.Proofs.Matrix.Extent
import Formula.Proofs.Matrix.Simulation

set_option autoImplicit false

/-! # Selected parts

A selection has one list of indices for each axis. A position in the selected part numbers an index
in every list, and stands for the position that these indices make up (`Shape.pick`). The positions
selected are the ones that the positions of the part stand for, in the same row-major order
(`selection_eq_map_pick`), so the part is described by the element at each of its positions,
whichever storage it is read from and put into (`subset_selects`).
-/

namespace Formula

namespace Shape

/-- The position that a position in a selection stands for: on each axis the index that it
numbers. -/
def pick (lists : List (List Nat)) (position : List Nat) : List Nat :=
  List.zipWith (fun indices k => indices.getD k 0) lists position

/-- The selection has a list for each axis of the shape, and all indices lie inside; where a list is
empty nothing is selected, and the indices of the others do not matter. -/
def Selects (shape : List Nat) (lists : List (List Nat)) : Prop :=
  lists.length = shape.length ∧
    ([] ∈ lists ∨ List.Forall₂ (fun indices d => ∀ i ∈ indices, i < d) lists shape)

theorem map_getD_range (indices : List Nat) :
    (List.range indices.length).map (fun k => indices.getD k 0) = indices := by
  refine List.ext_getElem (by simp) fun k _ hk => ?_
  simp [hk]

/-- The positions selected are those that the positions of the part stand for, in order. -/
theorem selection_eq_map_pick (lists : List (List Nat)) :
    selection lists = (positions (lists.map List.length)).map (pick lists) := by
  induction lists with
  | nil => rfl
  | cons indices rest ih =>
      -- the positions of the part that begin with one index are picked from the rest by induction
      have hrow : ∀ k,
          ((positions (rest.map List.length)).map (k :: ·)).map (pick (indices :: rest))
            = (selection rest).map (indices.getD k 0 :: ·) := by
        intro k
        rw [ih, List.map_map, List.map_map]
        rfl
      calc selection (indices :: rest)
          = indices.flatMap fun i => (selection rest).map (i :: ·) := rfl
        _ = (List.range indices.length).flatMap fun k =>
              (selection rest).map (indices.getD k 0 :: ·) := by
            conv_lhs => rw [← map_getD_range indices, List.flatMap_map]
        _ = (List.range indices.length).flatMap fun k =>
              ((positions (rest.map List.length)).map (k :: ·)).map (pick (indices :: rest)) := by
            simp only [hrow]
        _ = (positions ((indices :: rest).map List.length)).map (pick (indices :: rest)) :=
            List.map_flatMap.symm

/-- A position of the part stands for a selected one. -/
theorem pick_mem_selection {lists : List (List Nat)} {position : List Nat}
    (h : contains (lists.map List.length) position = true) :
    pick lists position ∈ selection lists := by
  rw [selection_eq_map_pick]
  exact List.mem_map_of_mem (mem_positions.mpr h)

/-- All positions selected lie inside if the lists select from the shape. The largest indices are a
selected position, so nothing less will do. -/
theorem selects_iff {shape : List Nat} {lists : List (List Nat)}
    (hrank : lists.length = shape.length) :
    Selects shape lists ↔ ∀ p ∈ selection lists, contains shape p = true := by
  constructor
  · rintro ⟨-, hempty | hinside⟩ p hp
    · exact absurd hp (not_mem_selection hempty p)
    · rw [mem_selection] at hp
      rw [contains_iff]
      induction hp generalizing shape with
      | nil =>
          cases hinside
          exact .nil
      | cons hi _ ih =>
          cases hinside with
          | cons hd hds => exact .cons (hd _ hi) (ih (Nat.succ.inj hrank) hds)
  · intro hinside
    refine ⟨hrank, ?_⟩
    by_cases hempty : [] ∈ lists
    · exact Or.inl hempty
    -- the position of the largest indices is selected, and inside it bounds all others
    · have htop := contains_iff.mp (hinside _ (largest_mem_selection hempty))
      rw [List.forall₂_map_left_iff] at htop
      exact Or.inr (htop.imp fun _ _ hlt i hi => Nat.lt_of_le_of_lt (le_largest hi) hlt)

end Shape

namespace Matrix

open Outcome

variable {m r : Matrix} {lists : List (List Nat)}

/-- Reading outside fails. -/
theorem get_outside {position : List Nat} (h : ¬Shape.contains m.shape position = true) :
    ∃ fault, m.get position = .error (.index fault) := by
  obtain ⟨storage, datatype⟩ := m
  cases storage with
  | dense d => exact Dense.get_outside h
  | sparse s =>
      by_cases hrank : position.length = 2
      · obtain ⟨row, col, rfl⟩ := List.length_eq_two.mp hrank
        have hout : ¬(row < s.rows ∧ col < s.cols) := fun hin => h (Shape.contains_pair.mpr hin)
        exact ⟨_, if_neg hout⟩
      · exact get_sparse_rank s datatype hrank

/-- What memory can be asked for is counted without wrapping. -/
theorem capacity_lt_size : Dense.capacity < Word.size := by decide

theorem reserve_eq {shape : List Nat} (h : Shape.count shape ≤ Dense.capacity) :
    reserve shape = .ok () := by
  rw [reserve, Word.product_of_lt (Nat.lt_of_le_of_lt h capacity_lt_size), if_pos h]

/-- A selection that is refused has another number of lists than the matrix has axes, or a position
outside. -/
theorem WellFormed.subset_refused (h : m.WellFormed)
    (hroom : lists.length = m.rank → Shape.count (lists.map List.length) ≤ Dense.capacity)
    (hout : ¬Shape.Selects m.shape lists) : ∃ fault, m.subset lists = .error (.index fault) := by
  rw [Matrix.subset]
  by_cases hrank : lists.length = m.rank
  · rw [if_pos hrank, reserve_eq (hroom hrank)]
    show ∃ fault, ((Shape.selection lists).mapM m.get).bind _ = .error (.index fault)
    cases hdata : (Shape.selection lists).mapM m.get with
    | ok data =>
        -- every position selected would have been read, so all of them would lie inside
        refine absurd ((Shape.selects_iff hrank).mpr fun p hp => ?_) hout
        by_contra hp'
        obtain ⟨fault, hfault⟩ := get_outside hp'
        obtain ⟨x, hx⟩ := exists_of_mapM_eq_ok hdata hp
        rw [hfault] at hx
        cases hx
    | error fault =>
        obtain ⟨p, -, hp⟩ := exists_of_mapM_eq_error hdata
        have hp' : ¬Shape.contains m.shape p = true := by
          intro hin
          rw [h.get_eq hin] at hp
          cases hp
        obtain ⟨why, hwhy⟩ := get_outside hp'
        rw [hwhy] at hp
        cases hp
        exact ⟨why, rfl⟩
  · rw [if_neg hrank]
    exact ⟨_, rfl⟩

/-- What is selected inside is read position by position and put into the storage of the matrix. -/
theorem WellFormed.subset_eq (h : m.WellFormed) (hin : Shape.Selects m.shape lists)
    (hroom : Shape.count (lists.map List.length) ≤ Dense.capacity) :
    m.subset lists = Matrix.intoStorage
      ⟨.dense (.tabulate (lists.map List.length) fun p => m.element (Shape.pick lists p)),
        m.datatype⟩ m.storageKind := by
  -- no read fails, because every position that is picked lies inside
  have hdata : (Shape.selection lists).mapM m.get
      = .ok ((Shape.positions (lists.map List.length)).map
          fun p => m.element (Shape.pick lists p)) := by
    rw [mapM_eq_ok, Shape.selection_eq_map_pick, List.forall₂_map_left_iff,
      List.forall₂_map_right_iff, List.forall₂_same]
    intro p hp
    refine h.get_eq ((Shape.selects_iff hin.1).mp hin _ ?_)
    exact Shape.pick_mem_selection (Shape.mem_positions.mp hp)
  have hsize : ((Shape.positions (lists.map List.length)).map
      fun p => m.element (Shape.pick lists p)).toArray.size
        = Word.product (lists.map List.length) := by
    rw [List.size_toArray, List.length_map, Shape.length_positions,
      Word.product_of_lt (Nat.lt_of_le_of_lt hroom capacity_lt_size)]
  have hrank : lists.length = m.rank := hin.1
  rw [Matrix.subset, if_pos hrank, reserve_eq hroom, hdata]
  show (Dense.ofData _ _).bind _ = _
  rw [Dense.ofData_eq_ok_iff_size.mpr ⟨hsize, rfl⟩]
  rfl

/-- What a selection makes of a matrix: it has an axis for each list, as long as the list, and at
each of its positions the element at the position that this one stands for. -/
structure Selected (m : Matrix) (lists : List (List Nat)) (r : Matrix) : Prop where
  wellFormed : r.WellFormed
  shape : r.shape = lists.map List.length
  storageKind : r.storageKind = m.storageKind
  datatype : r.datatype = m.datatype
  get : ∀ position, Shape.contains (lists.map List.length) position = true →
    ∃ x, m.get (Shape.pick lists position) = .ok x ∧ r.get position = .ok x

/-- A selection inside succeeds. -/
theorem WellFormed.subset (h : m.WellFormed) (hin : Shape.Selects m.shape lists)
    (hroom : Shape.count (lists.map List.length) ≤ Dense.capacity) :
    ∃ r, m.subset lists = .ok r ∧ Selected m lists r := by
  have hsmall : Shape.count (lists.map List.length) < Word.size :=
    Nat.lt_of_le_of_lt hroom capacity_lt_size
  let part : Matrix :=
    ⟨.dense (.tabulate (lists.map List.length) fun p => m.element (Shape.pick lists p)),
      m.datatype⟩
  have hpart : part.WellFormed := Dense.wellFormed_tabulate hsmall _
  -- only a part of two axes is put into sparse storage
  obtain ⟨r, hr, has⟩ : ∃ r, part.intoStorage m.storageKind = .ok r ∧
      StoredAs m.storageKind part r := by
    cases hkind : m.storageKind with
    | dense => exact ⟨part, rfl, hpart.storedAs⟩
    | sparse =>
        have hrank : m.rank = 2 := by
          obtain ⟨d | s, datatype⟩ := m
          · cases hkind
          · rfl
        refine hpart.intoStorage ?_ hsmall .sparse
        exact (List.length_map _).trans (hin.1.trans hrank)
  refine ⟨r, (h.subset_eq hin hroom).trans hr, has.wellFormed, has.shape, has.storageKind,
    has.datatype, fun position hposition => ?_⟩
  have hpicked : Shape.contains m.shape (Shape.pick lists position) = true :=
    (Shape.selects_iff hin.1).mp hin _ (Shape.pick_mem_selection hposition)
  have hinside : Shape.contains r.shape position = true := has.shape.symm ▸ hposition
  have helement : part.element position = m.element (Shape.pick lists position) := by
    show Dense.element _ position = _
    rw [Dense.element_tabulate hsmall, if_pos hposition]
  -- the element was stored before, so it is settled already
  refine ⟨_, h.get_eq hpicked, ?_⟩
  rw [has.wellFormed.get_eq hinside, has.element, helement, h.settle_element]

/-- As long as memory for the selection can be asked for, selecting succeeds exactly if there is a
list for each axis and, unless one of them is empty, all indices lie inside, and then gives what is
selected; otherwise an index is refused. -/
theorem subset_selects (h : m.WellFormed)
    (hroom : lists.length = m.rank → Shape.count (lists.map List.length) ≤ Dense.capacity) :
    (Shape.Selects m.shape lists → ∃ r, m.subset lists = .ok r ∧ Selected m lists r) ∧
      (¬Shape.Selects m.shape lists → ∃ fault, m.subset lists = .error (.index fault)) :=
  ⟨fun hin => h.subset hin (hroom hin.1), fun hout => h.subset_refused hroom hout⟩

/-- Rows of a sparse matrix are selected out of order and twice; a row outside is refused, unless no
column is selected with it. -/
theorem subset_selects_repeated :
    let s := ((Sparse.zeros 3 2).set 0 1 (.real 5)).set 2 0 (.complex ⟨0, 1⟩)
    let m : Matrix := ⟨.sparse s, some .complex⟩
    let lists := [[2, 0, 2], [1, 0]]
    m.WellFormed ∧ Shape.count (lists.map List.length) ≤ Dense.capacity ∧
      Shape.Selects m.shape lists ∧
      (∃ r, m.subset lists = .ok r ∧ Selected m lists r ∧ r.get [2, 1] = .ok (.complex ⟨0, 1⟩)) ∧
      (∃ fault, m.subset [[3], [0]] = .error (.index fault)) ∧
      ∃ r, m.subset [[3], []] = .ok r ∧ Selected m [[3], []] r := by
  intro s m lists
  have hfirst : ((Sparse.zeros 3 2).set 0 1 (.real 5)).WellFormed :=
    (Sparse.wellFormed_zeros 3 2).set (by decide) (by decide) _
  have hs : s.WellFormed := hfirst.set (by decide) (by decide) _
  have hm : m.WellFormed := hs
  have hshape : m.shape = [3, 2] := by decide +kernel
  have hroom : Shape.count (lists.map List.length) ≤ Dense.capacity := by decide
  have hin : Shape.Selects m.shape lists := by
    rw [hshape]
    exact ⟨rfl, Or.inr (.cons (by decide) (.cons (by decide) .nil))⟩
  have hout : ¬Shape.Selects m.shape [[3], [0]] := by
    rw [hshape, Shape.selects_iff rfl]
    decide
  have hnone : Shape.Selects m.shape [[3], []] := by
    rw [hshape]
    exact ⟨rfl, Or.inl (by simp)⟩
  obtain ⟨r, hr, hselected⟩ := (subset_selects hm fun _ => hroom).1 hin
  obtain ⟨x, hx, hread⟩ := hselected.get [2, 1] (by decide)
  -- the selected row is the one that holds the imaginary number
  have hi : m.get [2, 0] = .ok (.complex ⟨0, 1⟩) := by
    rw [hm.get_eq (by rw [hshape]; decide), element_sparse hs,
      hfirst.cell?_set (by decide) (by decide), if_pos ⟨rfl, rfl⟩, Column.kept,
      if_neg (by decide +kernel)]
    rfl
  have hsame : x = .complex ⟨0, 1⟩ := Except.ok.inj (hx.symm.trans hi)
  rw [hsame] at hread
  exact ⟨hm, hroom, hin, ⟨r, hr, hselected, hread⟩,
    (subset_selects hm fun _ => by decide).2 hout, (subset_selects hm fun _ => by decide).1 hnone⟩

/-- Memory is asked for before an index is read. Sixty lists of two indices select `2 ^ 60`
positions, and the computation breaks off, although an index of each list lies outside of the only
element. -/
theorem subset_breaks_off :
    let m : Matrix := ⟨.dense ⟨List.replicate 60 1, #[.real 0]⟩, none⟩
    let lists := List.replicate 60 [0, 1]
    m.WellFormed ∧ lists.length = m.rank ∧
      Shape.count (lists.map List.length) < Word.last ∧ ¬Shape.Selects m.shape lists ∧
      m.subset lists = .error (.abort .capacity) := by
  intro m lists
  have hout : ¬Shape.Selects m.shape lists := by
    rintro ⟨-, hempty | hinside⟩
    · exact absurd hempty (by decide)
    · have hfirst := hinside.get (i := 0) (by decide) (by decide)
      exact absurd (hfirst 1 (by decide)) (by decide)
  have hrefused : reserve (lists.map List.length) = .error (.abort .capacity) :=
    if_neg (by decide +kernel)
  have hm : m.WellFormed := ⟨by decide, by decide⟩
  refine ⟨hm, by decide, by decide +kernel, hout, ?_⟩
  rw [subset, if_pos (by decide), hrefused]
  rfl

end Matrix

end Formula
