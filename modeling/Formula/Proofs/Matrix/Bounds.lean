import Formula.Proofs.Matrix.Exchange

set_option autoImplicit false

/-! # Elements inside the data

A dense matrix is made of data as long as the product of the extents, and the product wraps. Where a
word holds the number of elements, the matrix has exactly as many data (`ofData_inBounds`) and all
its operations stay inside of them: reading and writing, growing, transposition, and the slices that
are cut along the first axis, then along the next one. A shape whose product wraps to the length of
other data is accepted all the same (`ofData_wrapped`); its positions lead outside.
-/

namespace Formula.Dense

/-- The pieces cut from a list along the axes of a shape all lie inside: each of them is as long as
the shape behind the axis demands. -/
def Sliced {α : Type} : List Nat → List α → Prop
  | n :: m :: rest, xs =>
      n * Word.product (m :: rest) ≤ xs.length ∧
        ∀ piece ∈ pieces (Word.product (m :: rest)) n xs,
          piece.length = Word.product (m :: rest) ∧ Sliced (m :: rest) piece
  | _, _ => True

/-- A matrix has the data that its shape speaks of, and what is done with it stays inside them. -/
structure InBounds (d : Dense) : Prop where
  size : d.data.size = Shape.count d.shape
  /-- A position inside has an offset inside, and the element there is read. -/
  get : ∀ position, Shape.contains d.shape position = true →
    ∃ place, ∃ hplace : place < d.data.size,
      Shape.offset d.shape position = .ok place ∧ d.get position = .ok d.data[place]
  /-- A write puts the element to an offset inside of the data grown before. -/
  set : ∀ position x written, d.set position x = .ok written →
    ∃ grown place, ∃ hplace : place < grown.data.size,
      d.grow position = .ok grown ∧ Shape.offset grown.shape position = .ok place ∧
        written = ⟨grown.shape, grown.data.set place x hplace⟩
  /-- An element is carried over between two offsets inside. -/
  resize : ∀ shape, Shape.count shape < Word.size → ∀ position,
    Shape.contains d.shape position = true → Shape.contains shape position = true →
    ∃ source target, ∃ hsource : source < d.data.size,
      ∃ htarget : target < (d.resize shape).data.size,
      Shape.offset d.shape position = .ok source ∧ Shape.offset shape position = .ok target ∧
        (d.resize shape).data[target] = d.data[source]
  /-- Transposition takes every element from inside to inside. -/
  transpose : ∀ rows cols f, d.shape = [rows, cols] → ∀ row < rows, ∀ col < cols,
    ∃ hsource : row * cols + col < d.data.size,
      ∃ htarget : col * rows + row < (d.transpose rows cols f).data.size,
      (d.transpose rows cols f).data[col * rows + row] = f d.data[row * cols + col]
  slices : Sliced d.shape d.data.toList
  leaves : (nested d.shape d.data.toList).leaves = d.data.toList

variable {d : Dense} {data : Array Scalar} {shape position : List Nat}

/-- Data are accepted for a shape that a word counts if they are as many as its elements. -/
theorem ofData_eq_ok_iff (hsmall : Shape.count shape < Word.size) :
    ofData data shape = .ok d ↔ data.size = Shape.count shape ∧ d = ⟨shape, data⟩ := by
  rw [ofData_eq_ok_iff_size, Word.product_of_lt hsmall]

/-! ## Places -/

theorem offset_of_set {x : Scalar} {written : Dense}
    (hset : d.set position x = .ok written) :
    ∃ grown place, ∃ hplace : place < grown.data.size,
      d.grow position = .ok grown ∧ Shape.offset grown.shape position = .ok place ∧
        written = ⟨grown.shape, grown.data.set place x hplace⟩ := by
  obtain ⟨grown, place, hgrow, hoffset, hplace, rfl⟩ := set_steps hset
  refine ⟨grown, place, hplace, hgrow, hoffset, ?_⟩
  rw [Array.setIfInBounds, dif_pos hplace]

namespace WellFormed

theorem getElem_place (h : d.WellFormed) (hin : Shape.contains d.shape position = true)
    (hplace : Shape.place d.shape position < d.data.size) :
    d.data[Shape.place d.shape position] = d.element position := by
  rw [h.element_eq hin, entry, Array.getElem_eq_getD]

theorem resize_inside (h : d.WellFormed) (hsmall : Shape.count shape < Word.size)
    (hold : Shape.contains d.shape position = true) (hnew : Shape.contains shape position = true) :
    ∃ source target, ∃ hsource : source < d.data.size,
      ∃ htarget : target < (d.resize shape).data.size,
      Shape.offset d.shape position = .ok source ∧ Shape.offset shape position = .ok target ∧
        (d.resize shape).data[target] = d.data[source] := by
  have hresized : (d.resize shape).WellFormed := wellFormed_tabulate hsmall _
  refine ⟨_, _, h.place_lt_size hold, hresized.place_lt_size hnew, h.offset_eq_place hold,
    hresized.offset_eq_place hnew, ?_⟩
  rw [hresized.getElem_place hnew, h.getElem_place hold, Dense.resize, element_tabulate hsmall,
    if_pos hnew]
  rfl

theorem transpose_inside (h : d.WellFormed) {rows cols : Nat} (f : Scalar → Scalar)
    (hshape : d.shape = [rows, cols]) {row col : Nat} (hrow : row < rows) (hcol : col < cols) :
    ∃ hsource : row * cols + col < d.data.size,
      ∃ htarget : col * rows + row < (d.transpose rows cols f).data.size,
      (d.transpose rows cols f).data[col * rows + row] = f d.data[row * cols + col] := by
  have hplane := h.plane hshape
  have hsmall : Shape.count [cols, rows] < Word.size := by
    rw [Shape.count_pair, Nat.mul_comm]
    exact hplane.small
  have hwf : (d.transpose rows cols f).WellFormed := by
    rw [Matrix.transpose_eq_tabulate hplane]
    exact wellFormed_tabulate hsmall _
  have hold : Shape.contains d.shape [row, col] = true := hplane.contains_iff.mpr ⟨hrow, hcol⟩
  have hnew : Shape.contains (d.transpose rows cols f).shape [col, row] = true :=
    Shape.contains_pair.mpr ⟨hcol, hrow⟩
  have hsource : Shape.place d.shape [row, col] = row * cols + col := by
    rw [hshape, place_pair]
  have htarget : Shape.place (d.transpose rows cols f).shape [col, row] = col * rows + row :=
    place_pair cols rows col row
  refine ⟨hsource ▸ h.place_lt_size hold, htarget ▸ hwf.place_lt_size hnew, ?_⟩
  -- the element has moved, so the entry at the new place is the one at the old place
  have hmoved : (d.transpose rows cols f).element [col, row] = f (d.element [row, col]) := by
    rw [Matrix.transpose_eq_tabulate hplane, element_tabulate hsmall]
    exact if_pos hnew
  rw [← hwf.getElem_place hnew (hwf.place_lt_size hnew),
    ← h.getElem_place hold (h.place_lt_size hold)] at hmoved
  simpa only [hsource, htarget] using hmoved

end WellFormed

/-! ## Slices -/

/-- A list with as many items as the shape has elements is cut along the axes without a rest. -/
theorem sliced_of_length {α : Type} (shape : List Nat) {xs : List α}
    (hsmall : Shape.count shape < Word.size) (hlength : xs.length = Shape.count shape) :
    Sliced shape xs := by
  match shape with
  | [] => trivial
  | [_] => trivial
  | 0 :: m :: rest => exact ⟨by rw [Nat.zero_mul]; exact Nat.zero_le _, nofun⟩
  | (n + 1) :: m :: rest =>
      have hcount : Shape.count ((n + 1) :: m :: rest) = (n + 1) * Shape.count (m :: rest) := rfl
      have hle : Shape.count (m :: rest) ≤ (n + 1) * Shape.count (m :: rest) :=
        Nat.le_mul_of_pos_left _ (Nat.succ_pos n)
      have hinner : Shape.count (m :: rest) < Word.size := by omega
      rw [hcount] at hlength
      rw [Sliced, Word.product_of_lt hinner]
      refine ⟨Nat.le_of_eq hlength.symm, fun piece hpiece => ?_⟩
      have hpiece := length_of_mem_pieces hlength piece hpiece
      exact ⟨hpiece, sliced_of_length (m :: rest) hinner hpiece⟩

theorem WellFormed.inBounds (h : d.WellFormed) : d.InBounds where
  size := h.size
  get _ hin := by
    refine ⟨_, h.place_lt_size hin, h.offset_eq_place hin, ?_⟩
    rw [h.get_eq hin, h.getElem_place hin, h.element_eq hin]
  set _ _ _ hset := offset_of_set hset
  resize _ hsmall _ hold hnew := h.resize_inside hsmall hold hnew
  transpose _ _ f hshape _ hrow _ hcol := h.transpose_inside f hshape hrow hcol
  slices := sliced_of_length d.shape h.small (Array.length_toList.trans h.size)
  leaves := (shape_nested_shown d.shape h.small (Array.length_toList.trans h.size)).2

/-- For a shape that a word counts, just as many data are accepted as it has elements, and what is
done with the matrix stays inside of them. -/
theorem ofData_inBounds (hsmall : Shape.count shape < Word.size) :
    (ofData data shape = .ok d ↔ data.size = Shape.count shape ∧ d = ⟨shape, data⟩) ∧
      (ofData data shape = .ok d → d.InBounds) := by
  refine ⟨ofData_eq_ok_iff hsmall, fun h => ?_⟩
  obtain ⟨hsize, rfl⟩ := (ofData_eq_ok_iff hsmall).mp h
  exact WellFormed.inBounds ⟨hsize, hsmall⟩

/-- A shape with a zero behind extents whose product is no word, and one of three axes. -/
theorem ofData_inBounds_axes :
    (ofData #[] [2 ^ 32, 2 ^ 32, 0] = .ok ⟨[2 ^ 32, 2 ^ 32, 0], #[]⟩ ∧
        InBounds ⟨[2 ^ 32, 2 ^ 32, 0], #[]⟩) ∧
      (ofData (Array.replicate 6 .zero) [1, 2, 3]
          = .ok ⟨[1, 2, 3], Array.replicate 6 .zero⟩ ∧
        InBounds ⟨[1, 2, 3], Array.replicate 6 .zero⟩) := by
  have hempty := @ofData_inBounds ⟨[2 ^ 32, 2 ^ 32, 0], #[]⟩ #[] [2 ^ 32, 2 ^ 32, 0] (by decide)
  have hthree := @ofData_inBounds ⟨[1, 2, 3], Array.replicate 6 .zero⟩ (Array.replicate 6 .zero)
    [1, 2, 3] (by decide)
  have hempty' := hempty.1.mpr ⟨rfl, rfl⟩
  have hthree' := hthree.1.mpr ⟨rfl, rfl⟩
  exact ⟨⟨hempty', hempty.2 hempty'⟩, hthree', hthree.2 hthree'⟩

/-- A product that wraps to zero lets a matrix without data have positions. -/
theorem ofData_wrapped :
    ofData #[] [2 ^ 32, 2 ^ 32] = .ok ⟨[2 ^ 32, 2 ^ 32], #[]⟩ ∧
      Shape.count [2 ^ 32, 2 ^ 32] = Word.size ∧
      Shape.contains [2 ^ 32, 2 ^ 32] [0, 0] = true ∧
      Shape.offset [2 ^ 32, 2 ^ 32] [0, 0] = .ok 0 ∧
      ¬InBounds ⟨[2 ^ 32, 2 ^ 32], #[]⟩ := by
  refine ⟨rfl, by decide, by decide, rfl, fun h => ?_⟩
  exact absurd h.size (by decide)

end Formula.Dense
