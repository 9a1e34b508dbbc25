import Formula.Proofs.Matrix.Conversion

set_option autoImplicit false

/-! # Rows and columns exchanged

Transposition turns the positions of a matrix around and applies a function to the elements
(`Transposed`), in both storages. As a matrix is determined by its elements, it follows from this
description alone that a sparse matrix and its expansion have the same transpose
(`transpose_same_in_both_storages`).
-/

namespace Formula.Matrix

variable {f : Scalar → Scalar} {m r q : Matrix}

/-- The function keeps the real zero and makes no other number zero. -/
structure KeepsZero (f : Scalar → Scalar) : Prop where
  zero : f .zero = .zero
  isZero : ∀ x, (f x).isZero = x.isZero

theorem keepsZero_id : KeepsZero id := ⟨rfl, fun _ => rfl⟩

theorem keepsZero_conj : KeepsZero Scalar.conj := ⟨rfl, Scalar.isZero_conj⟩

/-- It does not matter whether a number is stored before or after the function is applied. -/
theorem KeepsZero.settle (hf : KeepsZero f) (kind : StorageKind) (x : Scalar) :
    f (kind.settle x) = kind.settle (f x) := by
  cases kind with
  | dense => rfl
  | sparse =>
      by_cases hzero : x.isZero = true
      · rw [StorageKind.settle, StorageKind.settle, hf.isZero, if_pos hzero, if_pos hzero, hf.zero]
      · rw [StorageKind.settle, StorageKind.settle, hf.isZero, if_neg hzero, if_neg hzero]

/-- The second matrix is the first one with its positions turned around and `f` applied to its
elements. -/
structure Transposed (f : Scalar → Scalar) (m r : Matrix) : Prop where
  wellFormed : r.WellFormed
  storageKind : r.storageKind = m.storageKind
  datatype : r.datatype = m.datatype
  shape : r.shape = m.shape.reverse
  element : ∀ position, r.element position = f (m.element position.reverse)

/-- A description of the elements inside is enough: there are zeros outside. -/
theorem Transposed.of_inside (hf : KeepsZero f) (hr : r.WellFormed)
    (hkind : r.storageKind = m.storageKind) (hdatatype : r.datatype = m.datatype)
    (hshape : r.shape = m.shape.reverse)
    (h : ∀ position, Shape.contains m.shape position = true →
      r.element position.reverse = f (m.element position)) : Transposed f m r := by
  refine ⟨hr, hkind, hdatatype, hshape, fun position => ?_⟩
  by_cases hin : Shape.contains m.shape position.reverse = true
  · rw [← h _ hin, List.reverse_reverse]
  · have hout : ¬Shape.contains r.shape position = true := by
      rwa [hshape, ← Shape.contains_reverse, List.reverse_reverse]
    rw [element_outside hin, element_outside hout, hf.zero]

/-- The extents turned around have the same product, so there are as many elements. -/
theorem Transposed.count_eq (h : Transposed f m r) : Shape.count r.shape = Shape.count m.shape := by
  rw [h.shape]
  exact (List.reverse_perm m.shape).foldr_eq 1

/-! ## Both storages -/

/-- A vector, and a matrix without axes, keep their shape. -/
theorem transposed_map (hf : KeepsZero f) {d : Dense} (hd : d.WellFormed)
    (hrank : d.shape.length ≤ 1) (datatype : Option DataType) :
    Transposed f ⟨.dense d, datatype⟩ ⟨.dense (d.map f), datatype⟩ := by
  have hturn : ∀ list : List Nat, list.length ≤ 1 → list.reverse = list := by
    intro list hlength
    rcases list with _ | ⟨i, _ | ⟨j, rest⟩⟩
    · rfl
    · rfl
    · simp only [List.length_cons] at hlength
      omega
  refine .of_inside hf (hd.map f) rfl rfl (hturn d.shape hrank).symm fun position hin => ?_
  rw [hturn position ((Shape.length_of_contains hin).trans_le hrank)]
  exact hd.element_map hin

/-- The transpose of a plane is given by its elements. -/
theorem transpose_eq_tabulate {d : Dense} {rows cols : Nat} (h : d.Plane rows cols) :
    d.transpose rows cols f
      = Dense.tabulate [cols, rows] fun position => f (d.element position.reverse) := by
  have hcell : ∀ row < rows, ∀ col < cols,
      f (d.entry (row * cols + col)) = f (d.element [row, col]) := by
    intro row hrow col hcol
    rw [← h.cell_eq hrow hcol]
    rfl
  simp only [Dense.transpose, Dense.tabulate, Dense.positions_plane, List.map_flatMap, List.map_map]
  refine congrArg (fun data : List Scalar => Dense.mk [cols, rows] data.toArray) ?_
  refine List.flatMap_congr fun col hcol => List.map_congr_left fun row hrow => ?_
  exact hcell row (List.mem_range.mp hrow) col (List.mem_range.mp hcol)

theorem transposed_dense (hf : KeepsZero f) {d : Dense} {rows cols : Nat} (h : d.Plane rows cols)
    (datatype : Option DataType) :
    Transposed f ⟨.dense d, datatype⟩ ⟨.dense (d.transpose rows cols f), datatype⟩ := by
  have hsmall : Shape.count [cols, rows] < Word.size := by
    rw [Shape.count_pair, Nat.mul_comm]
    exact h.small
  have hwf : (d.transpose rows cols f).WellFormed := by
    rw [transpose_eq_tabulate h]
    exact Dense.wellFormed_tabulate hsmall _
  -- the position is turned around like the shape
  have hturn : [rows, cols].reverse = [cols, rows] := rfl
  refine .of_inside hf hwf rfl rfl ?_ fun position hin => ?_
  · show _ = d.shape.reverse
    rw [h.shape]
    rfl
  · show (d.transpose rows cols f).element position.reverse = f (d.element position)
    have hin' : Shape.contains [cols, rows] position.reverse = true := by
      rw [← hturn, Shape.contains_reverse, ← h.shape]
      exact hin
    rw [transpose_eq_tabulate h, Dense.element_tabulate hsmall, if_pos hin', List.reverse_reverse]

theorem transposed_sparse (hf : KeepsZero f) {s : Sparse} (h : s.WellFormed)
    (datatype : Option DataType) :
    Transposed f ⟨.sparse s, datatype⟩ ⟨.sparse (s.transpose f), datatype⟩ := by
  have hwf : (s.transpose f).WellFormed := h.transpose hf.isZero
  refine .of_inside hf hwf rfl rfl rfl fun position hin => ?_
  obtain ⟨row, col, rfl, hrow, hcol⟩ := exists_of_contains_pair hin
  show element _ [col, row] = _
  rw [element_sparse hwf, element_sparse h, Sparse.transpose_eq f h, Sparse.cell?_tabulate,
    if_pos ⟨hcol, hrow⟩]
  cases s.cell? row col with
  | none => exact hf.zero.symm
  | some x => rfl

/-- Transposition keeps the number of elements held. -/
theorem nonzeros_transpose {s : Sparse} (h : s.WellFormed) (f : Scalar → Scalar) :
    (s.transpose f).nonzeros = s.nonzeros := by
  obtain ⟨dealt, hdealt, heq⟩ := Sparse.exists_dealt f h
  rw [heq]
  exact hdealt.size_values.trans (Sparse.length_items f h.toCompressed)

/-! ## Matrices that can be transposed -/

/-- A matrix of at most two axes, with a column if it has two. -/
def Transposable (m : Matrix) : Prop :=
  m.rank ≤ 2 ∧ ∀ rows cols, m.shape = [rows, cols] → 0 < cols

/-- A matrix that can be transposed is. -/
theorem WellFormed.transposeWith (h : m.WellFormed) (hf : KeepsZero f) (ht : m.Transposable) :
    ∃ r, m.transposeWith f = .ok r ∧ Transposed f m r := by
  obtain ⟨storage, datatype⟩ := m
  obtain ⟨hrank, hcols⟩ := ht
  cases storage with
  | dense d =>
      have hd : d.WellFormed := h
      obtain ⟨shape, data⟩ := d
      -- by the number of axes: none or one, which are kept, two, or too many
      rcases shape with _ | ⟨rows, _ | ⟨cols, _ | ⟨k, rest⟩⟩⟩
      · exact ⟨_, rfl, transposed_map hf hd (Nat.zero_le 1) datatype⟩
      · exact ⟨_, rfl, transposed_map hf hd (Nat.le_refl 1) datatype⟩
      · have hpos : cols ≠ 0 := Nat.ne_of_gt (hcols rows cols rfl)
        have hread : transposeWith ⟨.dense ⟨[rows, cols], data⟩, datatype⟩ f
            = .ok ⟨.dense (Dense.transpose ⟨[rows, cols], data⟩ rows cols f), datatype⟩ := by
          refine (if_neg hpos).trans ?_
          rw [hd.readPlane_eq]
          rfl
        exact ⟨_, hread, transposed_dense hf (hd.plane rfl) datatype⟩
      · simp only [rank, Matrix.shape, List.length_cons] at hrank
        omega
  | sparse s =>
      have hpos : s.cols ≠ 0 := Nat.ne_of_gt (hcols s.rows s.cols rfl)
      exact ⟨_, if_neg hpos, transposed_sparse hf h datatype⟩

/-- Any other matrix is refused for its extents. -/
theorem transposeWith_refused (ht : ¬m.Transposable) : Refused (m.transposeWith f) := by
  -- a matrix of two axes that cannot be transposed has no columns
  have hpair : ∀ {rows cols : Nat}, m.shape = [rows, cols] → cols = 0 := by
    intro rows cols hshape
    by_contra hcols
    refine ht ⟨(congrArg List.length hshape).le, fun rows' cols' hshape' => ?_⟩
    obtain ⟨-, rfl⟩ : rows = rows' ∧ cols = cols' := by
      simpa [hshape] using hshape'
    exact Nat.pos_of_ne_zero hcols
  obtain ⟨storage, datatype⟩ := m
  cases storage with
  | dense d =>
      obtain ⟨shape, data⟩ := d
      rcases shape with _ | ⟨rows, _ | ⟨cols, _ | ⟨k, rest⟩⟩⟩
      · exact absurd ⟨Nat.zero_le 2, nofun⟩ ht
      · exact absurd ⟨Nat.le_succ 1, nofun⟩ ht
      · exact ⟨_, if_pos (hpair rfl)⟩
      · exact ⟨_, rfl⟩
  | sparse s => exact ⟨_, if_pos (hpair rfl)⟩

/-- What a transposition gives that succeeds. -/
theorem WellFormed.transposed (h : m.WellFormed) (hf : KeepsZero f)
    (hr : m.transposeWith f = .ok r) : m.Transposable ∧ Transposed f m r := by
  by_cases ht : m.Transposable
  · obtain ⟨r', hr', htransposed⟩ := h.transposeWith hf ht
    rw [hr] at hr'
    cases hr'
    exact ⟨ht, htransposed⟩
  · obtain ⟨fault, hfault⟩ := transposeWith_refused (f := f) ht
    rw [hr] at hfault
    exact nomatch hfault

/-! ## Transposition and storage -/

/-- Transposition and change of storage can be exchanged. -/
theorem Transposed.storedAs {kind : StorageKind} {n : Matrix} (h : Transposed f m r)
    (hf : KeepsZero f) (hn : StoredAs kind m n) (hq : Transposed f n q) : StoredAs kind r q := by
  refine ⟨hq.wellFormed, hq.storageKind.trans hn.storageKind, ?_, ?_, fun position => ?_⟩
  · rw [hq.datatype, hn.datatype, h.datatype]
  · rw [hq.shape, hn.shape, h.shape]
  · calc q.element position = f (kind.settle (m.element position.reverse)) := by
          rw [hq.element, hn.element]
      _ = kind.settle (f (m.element position.reverse)) := hf.settle kind _
      _ = kind.settle (r.element position) := by rw [h.element]

/-- A sparse matrix and its expansion have the same transpose. -/
theorem toDense_transpose (hf : KeepsZero f) {s : Sparse} (h : s.WellFormed)
    (hsmall : s.rows * s.cols < Word.size) :
    (s.transpose f).toDense = s.toDense.transpose s.rows s.cols f := by
  have hwf : (s.transpose f).WellFormed := h.transpose hf.isZero
  have hsmall' : s.cols * s.rows < Word.size := by rwa [Nat.mul_comm]
  -- both sides are the transpose in dense storage, and there is only one
  have hexpanded : StoredAs .dense ⟨.sparse (s.transpose f), none⟩
      ⟨.dense (s.transpose f).toDense, none⟩ := storedAs_dense hwf hsmall' none
  have htransposed := (transposed_sparse hf h none).storedAs hf (storedAs_dense h hsmall none)
    (transposed_dense hf (h.plane_toDense hsmall) none)
  exact Storage.dense.inj (congrArg Matrix.storage (hexpanded.unique htransposed))

/-- Transposition does the same in both storages. A sparse matrix that a word can count has the
transpose of its expansion, well formed and with as many elements held; and whatever matrix is
transposed and conjugated, it keeps its storage and its datatype, and each element is found, as its
conjugate, at the position turned around. -/
theorem transpose_same_in_both_storages :
    (∀ (s : Sparse) (conjugate : Bool), s.WellFormed → s.rows * s.cols < Word.size →
      let f := if conjugate then Scalar.conj else id
      let t := s.transpose f
      t.toDense = s.toDense.transpose s.rows s.cols f ∧ t.WellFormed ∧
        t.rows = s.cols ∧ t.cols = s.rows ∧ t.nonzeros = s.nonzeros) ∧
      ∀ m : Matrix, m.WellFormed →
        ((∃ r, m.ctranspose = .ok r) ↔ m.Transposable) ∧
          ∀ r, m.ctranspose = .ok r →
            r.storageKind = m.storageKind ∧ r.datatype = m.datatype ∧
              r.shape = m.shape.reverse ∧
              ∀ position, Shape.contains m.shape position = true →
                ∃ x, m.get position = .ok x ∧ r.get position.reverse = .ok x.conj := by
  constructor
  · intro s conjugate hs hsmall f t
    have hf : KeepsZero f := by
      cases conjugate with
      | true => exact keepsZero_conj
      | false => exact keepsZero_id
    exact ⟨toDense_transpose hf hs hsmall, hs.transpose hf.isZero, rfl, rfl,
      nonzeros_transpose hs f⟩
  · intro m hm
    refine ⟨⟨?_, ?_⟩, fun r hr => ?_⟩
    · rintro ⟨r, hr⟩
      exact (hm.transposed keepsZero_conj hr).1
    · intro ht
      obtain ⟨r, hr, -⟩ := hm.transposeWith keepsZero_conj ht
      exact ⟨r, hr⟩
    · obtain ⟨-, h⟩ := hm.transposed keepsZero_conj hr
      refine ⟨h.storageKind, h.datatype, h.shape, fun position hin => ?_⟩
      -- the position turned around lies inside the shape turned around
      have hturned : Shape.contains r.shape position.reverse = true := by
        rw [h.shape, Shape.contains_reverse]
        exact hin
      refine ⟨m.element position, hm.get_eq hin, ?_⟩
      rw [h.wellFormed.get_eq hturned, h.element, List.reverse_reverse]

/-- A sparse matrix with an empty row and two empty columns. -/
theorem transpose_same_in_both_storages_imaginary :
    let s := (Sparse.zeros 2 3).set 1 2 (.complex ⟨0, 1⟩)
    let t := s.transpose Scalar.conj
    let m : Matrix := ⟨.sparse s, some .complex⟩
    s.WellFormed ∧ s.rows * s.cols < Word.size ∧
      t.toDense = s.toDense.transpose 2 3 Scalar.conj ∧ t.WellFormed ∧ t.nonzeros = 1 ∧
      m.WellFormed ∧ m.Transposable ∧ m.ctranspose = .ok ⟨.sparse t, some .complex⟩ ∧
      get ⟨.sparse t, some .complex⟩ [2, 1] = .ok (.complex ⟨0, -1⟩) := by
  intro s t m
  have hs : s.WellFormed := (Sparse.wellFormed_zeros 2 3).set (by decide) (by decide) _
  have hsmall : s.rows * s.cols < Word.size := by decide +kernel
  have hshape : m.shape = [2, 3] := by decide +kernel
  have hcount : s.nonzeros = 1 := by decide +kernel
  obtain ⟨hboth, hall⟩ := transpose_same_in_both_storages
  obtain ⟨hdense, ht, -, -, hnonzeros⟩ := hboth s true hs hsmall
  have hr : m.ctranspose = .ok ⟨.sparse t, some .complex⟩ := rfl
  obtain ⟨htransposable, hresult⟩ := hall m hs
  obtain ⟨-, -, -, hturned⟩ := hresult _ hr
  obtain ⟨x, hget, hconj⟩ := hturned [1, 2] (by rw [hshape]; decide)
  -- what is read at the position is the number that was written there
  have hheld : m.get [1, 2] = .ok (.complex ⟨0, 1⟩) := by
    show s.get 1 2 = _
    rw [hs.get_eq (by decide +kernel) (by decide +kernel),
      (Sparse.wellFormed_zeros 2 3).cell?_set (by decide) (by decide), if_pos ⟨rfl, rfl⟩,
      Column.kept, if_neg (by decide +kernel)]
    rfl
  rw [hheld] at hget
  cases hget
  exact ⟨hs, hsmall, hdense, ht, hnonzeros.trans hcount, hs, htransposable.mp ⟨_, hr⟩, hr, hconj⟩

end Formula.Matrix
