import Formula.Proofs.Matrix.Dense

set_option autoImplicit false

/-! # Dense matrices of two axes

A plane is a dense matrix of two axes that holds all its elements. The element in row `row` and
column `col` of a plane with `cols` columns lies at `row * cols + col`; reading and writing are
described by `cell`, which does not speak of places. A write outside keeps every old element in
its row and column, unless the plane would grow beyond `maxElements`.
-/

namespace Formula

namespace Dense

/-- A dense matrix with two axes that holds all its elements, as many as a word counts. -/
structure Plane (d : Dense) (rows cols : Nat) : Prop where
  shape : d.shape = [rows, cols]
  size : d.data.size = rows * cols
  small : rows * cols < Word.size

/-- The element in a row and a column of a plane with `cols` columns. -/
def cell (d : Dense) (cols row col : Nat) : Scalar := d.entry (row * cols + col)

/-! ## Places -/

theorem place_pair (rows cols row col : Nat) :
    Shape.place [rows, cols] [row, col] = row * cols + col := by
  simp [Shape.place, Shape.count]

/-- A row and a column inside have a place inside. -/
theorem place_lt {rows cols row col : Nat} (hrow : row < rows) (hcol : col < cols) :
    row * cols + col < rows * cols := by
  rw [← place_pair rows, ← Shape.count_pair]
  exact Shape.place_lt (Shape.contains_pair.mpr ⟨hrow, hcol⟩)

/-- Different positions have different places. -/
theorem place_inj {cols row col row' col' : Nat} (hcol : col < cols) (hcol' : col' < cols)
    (h : row * cols + col = row' * cols + col') : row = row' ∧ col = col' := by
  -- there are rows enough for both
  have hin : ∀ {i j}, i ≤ row + row' → j < cols →
      Shape.contains [row + row' + 1, cols] [i, j] = true := fun hi hj =>
    Shape.contains_pair.mpr ⟨Nat.lt_succ_of_le hi, hj⟩
  rw [← place_pair (row + row' + 1), ← place_pair (row + row' + 1)] at h
  simpa using Shape.place_inj (hin (Nat.le_add_right _ _) hcol) (hin (Nat.le_add_left _ _) hcol') h

theorem positions_plane (rows cols : Nat) :
    Shape.positions [rows, cols]
      = (List.range rows).flatMap fun i => (List.range cols).map fun j => [i, j] := by
  have hinner : Shape.selection [List.range cols] = (List.range cols).map fun j => [j] := by
    rw [List.map_eq_flatMap]
    rfl
  show Shape.selection [List.range rows, List.range cols] = _
  rw [Shape.selection, hinner]
  simp only [List.map_map]
  rfl

variable {d : Dense} {rows cols row col : Nat}

theorem WellFormed.plane (h : d.WellFormed) (hshape : d.shape = [rows, cols]) :
    d.Plane rows cols := by
  have hcount : Shape.count d.shape = rows * cols := by rw [hshape, Shape.count_pair]
  exact ⟨hshape, h.size.trans hcount, hcount ▸ h.small⟩

namespace Plane

/-- A plane is a well-formed matrix of two axes. -/
theorem wellFormed (h : d.Plane rows cols) : d.WellFormed := by
  have hcount : Shape.count d.shape = rows * cols := by rw [h.shape, Shape.count_pair]
  exact ⟨h.size.trans hcount.symm, hcount ▸ h.small⟩

theorem contains_iff (h : d.Plane rows cols) :
    Shape.contains d.shape [row, col] = true ↔ row < rows ∧ col < cols := by
  rw [h.shape, Shape.contains_pair]

/-! ## Reading -/

theorem get_eq (h : d.Plane rows cols) (hrow : row < rows) (hcol : col < cols) :
    d.get [row, col] = .ok (d.cell cols row col) := by
  rw [h.wellFormed.get_eq (h.contains_iff.mpr ⟨hrow, hcol⟩), h.shape, place_pair]
  rfl

/-- In a plane the element of a row and a column is the one at this position. -/
theorem cell_eq (h : d.Plane rows cols) (hrow : row < rows) (hcol : col < cols) :
    d.cell cols row col = d.element [row, col] := by
  rw [element, h.get_eq hrow hcol]
  rfl

theorem get_outside (h : d.Plane rows cols) (hout : ¬(row < rows ∧ col < cols)) :
    ∃ fault, d.get [row, col] = .error (.index fault) :=
  Dense.get_outside fun hin => hout (h.contains_iff.mp hin)

theorem get_rank (h : d.Plane rows cols) {position : List Nat} (hrank : position.length ≠ 2) :
    ∃ fault, d.get position = .error (.index fault) := by
  refine Dense.get_outside fun hin => hrank ?_
  rw [Shape.length_of_contains hin, h.shape]
  rfl

/-! ## Writing -/

theorem set_rank (h : d.Plane rows cols) {position : List Nat} (hrank : position.length ≠ 2)
    (x : Scalar) : ∃ fault, d.set position x = .error (.index fault) := by
  refine set_of_rank_ne ?_ x
  rw [h.shape]
  exact hrank

/-- What a write does: it puts the element into a plane grown to its position, unless the grown
plane would have more than `maxElements` elements. -/
theorem set_cases (h : d.Plane rows cols) (hrow : row < Word.last) (hcol : col < Word.last)
    (x : Scalar) :
    (∃ fault, d.set [row, col] x = .error (.dimension fault)) ∨
      ∃ written, d.set [row, col] x = .ok written ∧
        written.Plane (max rows (row + 1)) (max cols (col + 1)) ∧
        (cols ≤ maxElements → max cols (col + 1) ≤ maxElements) ∧
        ∀ r < max rows (row + 1), ∀ c < max cols (col + 1),
          written.cell (max cols (col + 1)) r c
            = if r = row ∧ c = col then x
              else if r < rows ∧ c < cols then d.cell cols r c else .zero := by
  have hbelow : ∀ i ∈ [row, col], i < Word.last := by simp [hrow, hcol]
  have hrank : [row, col].length = d.shape.length := by rw [h.shape]; rfl
  rcases h.wellFormed.set_cases hrank hbelow x with hfault | ⟨written, hset⟩
  · exact Or.inl hfault
  · obtain ⟨hwf, -, hcover, -, hlimit, helement⟩ := h.wellFormed.set hset
    have hshape : written.shape = [max rows (row + 1), max cols (col + 1)] := by
      rw [hcover, h.shape, Shape.cover_eq hbelow]
      rfl
    have hplane := hwf.plane hshape
    refine Or.inr ⟨written, hset, hplane, fun hcols => ?_, fun r hr c hc => ?_⟩
    · rw [hshape, h.shape, Shape.count_pair] at hlimit
      rcases hlimit with hsame | hlimit
      · obtain ⟨-, hsame⟩ : max rows (row + 1) = rows ∧ max cols (col + 1) = cols := by
          simpa using hsame
        rw [hsame]
        exact hcols
      · -- there is at least one row
        exact Nat.le_trans (Nat.le_mul_of_pos_left _ (by omega)) hlimit
    · rw [hplane.cell_eq hr hc, helement]
      by_cases hwritten : r = row ∧ c = col
      · obtain ⟨rfl, rfl⟩ := hwritten
        rw [if_pos rfl, if_pos ⟨rfl, rfl⟩]
      · rw [if_neg hwritten, if_neg (by simpa using hwritten)]
        by_cases hin : r < rows ∧ c < cols
        · rw [if_pos hin, h.cell_eq hin.1 hin.2]
        · rw [if_neg hin, element_outside fun hold => hin (h.contains_iff.mp hold)]

end Plane

end Dense

end Formula
