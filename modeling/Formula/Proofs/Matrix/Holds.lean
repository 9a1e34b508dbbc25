import Formula.Proofs.Matrix.Edits
import Formula.Proofs.Matrix.Expand

set_option autoImplicit false

/-! # Conditions on the elements of a matrix

A matrix `Holds` a condition if every element it stores satisfies it. If zero does, too, then what
is read from such a matrix satisfies the condition, and the matrix keeps it through writes, growth,
changes of storage, selections and transposition. The other way round, the elements that a sparse
matrix stores are all among those of its expansion only if it has fewer than `2 ^ 64` elements.
-/

namespace Formula

open Outcome

variable {good : Scalar → Prop}

/-! ## Dense matrices -/

namespace Dense

variable {d : Dense}

/-- Every element satisfies a condition. -/
def Holds (good : Scalar → Prop) (d : Dense) : Prop := ∀ x ∈ d.data, good x

theorem Holds.entry (h : d.Holds good) (hzero : good .zero) (place : Nat) :
    good (d.entry place) := by
  rw [Dense.entry, Array.getD]
  split
  · exact h _ (Array.getElem_mem _)
  · exact hzero

theorem Holds.get (h : d.Holds good) (hzero : good .zero) {position : List Nat} {x : Scalar}
    (hget : d.get position = .ok x) : good x := by
  obtain ⟨place, -, -, rfl⟩ := get_steps hget
  exact h.entry hzero place

theorem holds_zeros (hzero : good .zero) (shape : List Nat) : (zeros shape).Holds good := by
  intro x hx
  rw [(Array.mem_replicate.mp hx).2]
  exact hzero

theorem Holds.resize (h : d.Holds good) (hzero : good .zero) (shape : List Nat) :
    (d.resize shape).Holds good := by
  intro x hx
  obtain ⟨position, -, rfl⟩ := List.mem_map.mp (List.mem_toArray.mp hx)
  cases hget : d.get position with
  | error fault => exact hzero
  | ok y => exact h.get hzero hget

theorem Holds.grow (h : d.Holds good) (hzero : good .zero) {position : List Nat} {grown : Dense}
    (hgrow : d.grow position = .ok grown) : grown.Holds good := by
  rw [Dense.grow] at hgrow
  split at hgrow
  · obtain ⟨count, -, rfl⟩ := map_eq_ok.mp hgrow
    exact h.resize hzero _
  · cases hgrow
    exact h

/-- A write stores what is written, what was there before, and zeros. -/
theorem Holds.set (h : d.Holds good) (hzero : good .zero) {position : List Nat} {x : Scalar}
    (hx : good x) {written : Dense} (hset : d.set position x = .ok written) :
    written.Holds good := by
  obtain ⟨grown, place, hgrow, -, -, rfl⟩ := set_steps hset
  intro y hy
  rcases Array.mem_or_eq_of_mem_setIfInBounds hy with hy | rfl
  · exact h.grow hzero hgrow y hy
  · exact hx

theorem Holds.map (h : d.Holds good) {f : Scalar → Scalar} (hf : ∀ x, good x → good (f x)) :
    (d.map f).Holds good := by
  intro y hy
  obtain ⟨x, hx, rfl⟩ := Array.mem_map.mp hy
  exact hf x (h x hx)

theorem Holds.transpose (h : d.Holds good) (hzero : good .zero) {f : Scalar → Scalar}
    (hf : ∀ x, good x → good (f x)) (rows cols : Nat) : (d.transpose rows cols f).Holds good := by
  intro y hy
  obtain ⟨col, -, hy⟩ := List.mem_flatMap.mp (List.mem_toArray.mp hy)
  obtain ⟨row, -, rfl⟩ := List.mem_map.mp hy
  exact hf _ (h.entry hzero _)

end Dense

/-! ## Sparse matrices -/

namespace Sparse

variable {s : Sparse}

/-- Every element stored satisfies a condition. -/
def Holds (good : Scalar → Prop) (s : Sparse) : Prop := ∀ x ∈ s.values, good x

theorem Holds.value (h : s.Holds good) (hzero : good .zero) (place : Nat) :
    good (s.value place) := by
  rw [Sparse.value, Array.getD]
  split
  · exact h _ (Array.getElem_mem _)
  · exact hzero

theorem Holds.get (h : s.Holds good) (hzero : good .zero) {row col : Nat} {x : Scalar}
    (hget : s.get row col = .ok x) : good x := by
  rw [Sparse.get] at hget
  split at hget
  · split at hget
    · cases hget
      exact h.value hzero _
    · cases hget
      exact hzero
  · cases hget

theorem mem_values_tabulate {rows cols : Nat} {cell : Nat → Nat → Option Scalar} {x : Scalar} :
    x ∈ (tabulate rows cols cell).values ↔ ∃ row < rows, ∃ col < cols, cell row col = some x := by
  simp only [tabulate, ofColumns, List.mem_toArray, List.mem_map, List.mem_flatten, List.mem_range]
  constructor
  · rintro ⟨e, ⟨column, ⟨col, hcol, rfl⟩, he⟩, rfl⟩
    obtain ⟨hrow, hcell⟩ := Column.mem_tabulate.mp he
    exact ⟨e.1, hrow, col, hcol, hcell⟩
  · rintro ⟨row, hrow, col, hcol, hcell⟩
    exact ⟨(row, x), ⟨_, ⟨col, hcol, rfl⟩, Column.mem_tabulate.mpr ⟨hrow, hcell⟩⟩, rfl⟩

/-- A well-formed matrix stores what it holds at its positions. -/
theorem WellFormed.mem_values (h : s.WellFormed) {x : Scalar} :
    x ∈ s.values ↔ ∃ row col, s.cell? row col = some x := by
  have hvalues : s.values = (tabulate s.rows s.cols s.cell?).values :=
    congrArg Sparse.values h.eq_tabulate
  rw [hvalues, mem_values_tabulate]
  constructor
  · rintro ⟨row, -, col, -, hcell⟩
    exact ⟨row, col, hcell⟩
  · rintro ⟨row, col, hcell⟩
    obtain ⟨hrow, hcol⟩ := h.lt_of_cell? hcell
    exact ⟨row, hrow, col, hcol, hcell⟩

theorem Holds.set (h : s.Holds good) (hs : s.WellFormed) {row col : Nat}
    (hrow : row + 1 < Word.size) (hcol : col + 1 < Word.size) {x : Scalar} (hx : good x) :
    (s.set row col x).Holds good := by
  intro y hy
  obtain ⟨r, c, hcell⟩ := (hs.set hrow hcol x).mem_values.mp hy
  rw [hs.cell?_set hrow hcol] at hcell
  split at hcell
  · rw [← (Column.kept_eq_some_iff.mp hcell).1]
    exact hx
  · exact h y (hs.mem_values.mpr ⟨r, c, hcell⟩)

theorem Holds.transpose (h : s.Holds good) (hs : s.WellFormed) {f : Scalar → Scalar}
    (hf : ∀ x, good x → good (f x)) : (s.transpose f).Holds good := by
  intro y hy
  rw [transpose_eq f hs, mem_values_tabulate] at hy
  obtain ⟨row, -, col, -, hcell⟩ := hy
  obtain ⟨x, hx, rfl⟩ := Option.map_eq_some_iff.mp hcell
  exact hf x (h x (hs.mem_values.mpr ⟨col, row, hx⟩))

theorem Holds.toDense (h : s.Holds good) (hzero : good .zero) : s.toDense.Holds good := by
  refine List.foldlRecOn (motive := fun data : Array Scalar => ∀ x ∈ data, good x) _ _
    (Dense.holds_zeros hzero _) fun data hdata col _ => ?_
  refine List.foldlRecOn (motive := fun data : Array Scalar => ∀ x ∈ data, good x) _ _
    hdata fun data hdata place _ y hy => ?_
  rcases Array.mem_or_eq_of_mem_setIfInBounds hy with hy | rfl
  · exact hdata y hy
  · exact h.value hzero place

theorem wellFormed_ofDense {d : Dense} (hs : ofDense d = .ok s) : s.WellFormed := by
  rw [ofDense] at hs
  split at hs
  · cases hs
    exact wellFormed_planar d _ 1
  · cases hs
    exact wellFormed_planar d _ _
  · cases hs

theorem holds_ofDense {d : Dense} (h : d.Holds good) (hzero : good .zero)
    (hs : ofDense d = .ok s) : s.Holds good := by
  have hplanar : ∀ rows cols, (ofDense.planar d rows cols).Holds good := by
    intro rows cols x hx
    rw [planar_eq, mem_values_tabulate] at hx
    obtain ⟨row, -, col, -, hcell⟩ := hx
    rw [← (Column.kept_eq_some_iff.mp hcell).1]
    exact h.entry hzero _
  rw [ofDense] at hs
  split at hs
  · cases hs
    exact hplanar _ 1
  · cases hs
    exact hplanar _ _
  · cases hs

/-- The elements that a matrix of fewer than `2 ^ 64` elements stores are among those of its
expansion. -/
theorem WellFormed.holds_of_toDense (h : s.WellFormed) (hsmall : s.rows * s.cols < Word.size)
    (hdense : s.toDense.Holds good) : s.Holds good := by
  intro x hx
  obtain ⟨row, col, hcell⟩ := h.mem_values.mp hx
  obtain ⟨hrow, hcol⟩ := h.lt_of_cell? hcell
  have hsize := (h.plane_toDense hsmall).size
  have hentry := h.cell_toDense hsmall hrow hcol
  rw [hcell, Option.getD_some, Dense.cell, Dense.entry, Array.getD,
    dif_pos (hsize ▸ Dense.place_lt hrow hcol)] at hentry
  rw [← hentry]
  exact hdense _ (Array.getElem_mem _)

end Sparse

end Formula
