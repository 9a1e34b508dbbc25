import Formula.Matrix.Select
import Formula.Proofs.Matrix.Edits
import Formula.Proofs.Matrix.Plane

set_option autoImplicit false

/-! # Sparse and dense storage of one matrix

A sparse matrix and a plane agree if they have the same rows and columns and their elements are
alike: equal, or both zero. Reading gives like answers, writing keeps them in agreement, and both
count the same number of nonzero elements. A dense matrix refuses to grow beyond `maxElements`
elements where a sparse one still grows, so what is said of a write excludes this refusal
(`Simulates`).
-/

namespace Formula

/-! ## Outcomes -/

/-- Two numbers are equal, or both are zeros of whatever sign and kind. -/
def Scalar.Alike (x y : Scalar) : Prop := x = y ∨ (x.isZero = true ∧ y.isZero = true)

/-- Numbers that are alike are zero together. -/
theorem Scalar.Alike.isZero_eq {x y : Scalar} (h : x.Alike y) : x.isZero = y.isZero := by
  rcases h with rfl | ⟨hx, hy⟩
  · rfl
  · rw [hx, hy]

theorem Scalar.Alike.trans {x y z : Scalar} (hxy : x.Alike y) (hyz : y.Alike z) : x.Alike z := by
  rcases hxy with rfl | ⟨hx, hy⟩
  · exact hyz
  · exact Or.inr ⟨hx, hyz.isZero_eq ▸ hy⟩

/-- Two outcomes match: both succeed with related answers, or both fail with errors of one
class. -/
inductive Matches {α β : Type} (related : α → β → Prop) :
    Except EvalError α → Except EvalError β → Prop where
  | ok {a : α} {b : β} (h : related a b) : Matches related (.ok a) (.ok b)
  | error {e e' : EvalError} (h : e.identifier = e'.identifier) :
      Matches related (.error e) (.error e')

/-- An outcome fails because of the extents. -/
def Refused {α : Type} (outcome : Except EvalError α) : Prop :=
  ∃ fault, outcome = .error (.dimension fault)

/-- The dense outcome fails because of the extents, or both outcomes match. -/
def Simulates {α β : Type} (related : α → β → Prop) (sparse : Except EvalError α)
    (dense : Except EvalError β) : Prop :=
  Refused dense ∨ Matches related sparse dense

namespace Matches

variable {α β α' β' : Type} {related : α → β → Prop} {related' : α' → β' → Prop}
  {sparse : Except EvalError α} {dense : Except EvalError β}

theorem bind (h : Matches related sparse dense) {f : α → Except EvalError α'}
    {g : β → Except EvalError β'} (hfg : ∀ a b, related a b → Simulates related' (f a) (g b)) :
    Simulates related' (sparse.bind f) (dense.bind g) := by
  cases h with
  | ok hab => exact hfg _ _ hab
  | error he => exact Or.inr (.error he)

/-- Matching answers for each item are matching answers for a list, one for each item. -/
theorem mapM {ι : Type} {f : ι → Except EvalError α} {g : ι → Except EvalError β}
    (hfg : ∀ i, Matches related (f i) (g i)) (items : List ι) :
    Matches (fun as bs => List.Forall₂ related as bs ∧ bs.length = items.length)
      (items.mapM f) (items.mapM g) := by
  induction items with
  | nil => exact .ok ⟨.nil, rfl⟩
  | cons i items ih =>
      rw [List.mapM_cons, List.mapM_cons]
      have hi : Matches related (f i) (g i) := hfg i
      -- the first item fails on both sides or on neither, and so do the others
      generalize f i = a at hi
      generalize g i = b at hi
      cases hi with
      | error he => exact .error he
      | ok hab =>
          generalize items.mapM f = as at ih
          generalize items.mapM g = bs at ih
          cases ih with
          | error he => exact .error he
          | ok hrest => exact .ok ⟨.cons hab hrest.1, congrArg Nat.succ hrest.2⟩

end Matches

/-! ## Agreement -/

namespace Sparse

/-- A well-formed sparse matrix and a plane of the same rows and columns whose elements are
alike. -/
structure Agrees (s : Sparse) (d : Dense) : Prop where
  wellFormed : s.WellFormed
  plane : d.Plane s.rows s.cols
  alike : ∀ row < s.rows, ∀ col < s.cols,
    ∃ x y, s.get row col = .ok x ∧ d.get [row, col] = .ok y ∧ x.Alike y

variable {s : Sparse} {d : Dense}

theorem Agrees.cells (h : s.Agrees d) {row col : Nat} (hrow : row < s.rows) (hcol : col < s.cols) :
    ((s.cell? row col).getD .zero).Alike (d.cell s.cols row col) := by
  obtain ⟨x, y, hx, hy, hxy⟩ := h.alike row hrow col hcol
  rw [h.wellFormed.get_eq hrow hcol] at hx
  rw [h.plane.get_eq hrow hcol] at hy
  cases hx
  cases hy
  exact hxy

theorem Agrees.of_cells (hs : s.WellFormed) (hd : d.Plane s.rows s.cols)
    (h : ∀ row < s.rows, ∀ col < s.cols,
      ((s.cell? row col).getD .zero).Alike (d.cell s.cols row col)) : s.Agrees d :=
  ⟨hs, hd, fun row hrow col hcol =>
    ⟨_, _, hs.get_eq hrow hcol, hd.get_eq hrow hcol, h row hrow col hcol⟩⟩

/-- What is kept of a number is like the number. -/
theorem alike_kept (x : Scalar) : ((Column.kept x).getD .zero).Alike x := by
  unfold Column.kept
  by_cases hzero : x.isZero = true
  · rw [if_pos hzero]
    exact Or.inr ⟨Scalar.isZero_zero, hzero⟩
  · rw [if_neg hzero]
    exact Or.inl rfl

/-! ## Counting -/

theorem Agrees.nonzeroAt_iff (h : s.Agrees d) (row col : Nat) :
    s.NonzeroAt (row, col)
      ↔ (row < s.rows ∧ col < s.cols) ∧ (d.cell s.cols row col).isZero = false := by
  rw [h.wellFormed.nonzeroAt_iff]
  constructor
  · rintro ⟨x, hx⟩
    obtain ⟨hrow, hcol⟩ := h.wellFormed.lt_of_cell? hx
    have halike := (h.cells hrow hcol).isZero_eq
    rw [hx, Option.getD_some, h.wellFormed.nonzero_of_cell? hx] at halike
    exact ⟨⟨hrow, hcol⟩, halike.symm⟩
  · rintro ⟨⟨hrow, hcol⟩, hcell⟩
    have halike := (h.cells hrow hcol).isZero_eq
    cases hx : s.cell? row col with
    | some x => exact ⟨x, rfl⟩
    | none =>
        rw [hx, Option.getD_none, Scalar.isZero_zero, hcell] at halike
        cases halike

/-- The places of the nonzero elements of a dense matrix. -/
def nonzeroPlaces (d : Dense) : List Nat :=
  (List.range d.data.size).filter fun place => !(d.entry place).isZero

theorem length_nonzeroPlaces (d : Dense) : (nonzeroPlaces d).length = d.nonzeros := by
  rw [nonzeroPlaces, Dense.nonzeros, ← Array.countP_toList, d.toList_data_eq, List.countP_map,
    List.countP_eq_length_filter]
  rfl

theorem mem_nonzeroPlaces (h : d.Plane s.rows s.cols) (place : Nat) :
    place ∈ nonzeroPlaces d
      ↔ place < s.rows * s.cols ∧ (d.entry place).isZero = false := by
  rw [nonzeroPlaces, List.mem_filter, List.mem_range, h.size, Bool.not_eq_true']

/-- Both storages count the same number of nonzero elements. -/
theorem Agrees.nonzeros_eq (h : s.Agrees d) : s.nonzeros = d.nonzeros := by
  -- both count the positions that are not zero; a plane numbers them row by row
  let place (position : Nat × Nat) : Nat := position.1 * s.cols + position.2
  have hinj : Set.InjOn place {position | s.NonzeroAt position} := by
    rintro ⟨row, col⟩ hp ⟨row', col'⟩ hp' heq
    have hcol : col < s.cols := ((h.nonzeroAt_iff row col).mp hp).1.2
    have hcol' : col' < s.cols := ((h.nonzeroAt_iff row' col').mp hp').1.2
    obtain ⟨rfl, rfl⟩ := Dense.place_inj hcol hcol' heq
    rfl
  have himage : place '' {position | s.NonzeroAt position}
      = ((nonzeroPlaces d).toFinset : Set Nat) := by
    ext k
    rw [List.coe_toFinset, Set.mem_ofPred_eq, mem_nonzeroPlaces h.plane]
    constructor
    · rintro ⟨⟨row, col⟩, hp, rfl⟩
      obtain ⟨⟨hrow, hcol⟩, hcell⟩ := (h.nonzeroAt_iff row col).mp hp
      exact ⟨Dense.place_lt hrow hcol, hcell⟩
    · rintro ⟨hlt, hcell⟩
      have hpos : 0 < s.cols := Nat.pos_of_mul_pos_left (Nat.lt_of_le_of_lt (Nat.zero_le k) hlt)
      have hplace : k / s.cols * s.cols + k % s.cols = k := Nat.div_add_mod' k s.cols
      refine ⟨(k / s.cols, k % s.cols), (h.nonzeroAt_iff _ _).mpr ⟨⟨?_, ?_⟩, ?_⟩, hplace⟩
      · exact Nat.div_lt_of_lt_mul (by rwa [Nat.mul_comm])
      · exact Nat.mod_lt k hpos
      · rwa [Dense.cell, hplace]
  have hnodup : (nonzeroPlaces d).Nodup := List.Nodup.filter _ List.nodup_range
  have hcount : (s.nonzeros : ENat) = (d.nonzeros : ENat) := by
    calc (s.nonzeros : ENat) = {position | s.NonzeroAt position}.encard :=
          h.wellFormed.encard_nonzeroAt.symm
      _ = (place '' {position | s.NonzeroAt position}).encard := hinj.encard_image.symm
      _ = ((nonzeroPlaces d).toFinset : Set Nat).encard := by rw [himage]
      _ = d.nonzeros := by
          rw [Set.encard_coe_eq_coe_finsetCard, List.toFinset_card_of_nodup hnodup,
            length_nonzeroPlaces]
  exact_mod_cast hcount

/-! ## Writing -/

/-- Written in both storages, an element is held in both and nothing else changes. -/
theorem Agrees.set (h : s.Agrees d) {row col : Nat} (hrow : row < Word.last)
    (hcol : col < Word.last) {x : Scalar} {written : Dense}
    (hplane : written.Plane (max s.rows (row + 1)) (max s.cols (col + 1)))
    (hcell : ∀ r < max s.rows (row + 1), ∀ c < max s.cols (col + 1),
      written.cell (max s.cols (col + 1)) r c
        = if r = row ∧ c = col then x
          else if r < s.rows ∧ c < s.cols then d.cell s.cols r c else .zero) :
    (s.set row col x).Agrees written := by
  have hrow' : row + 1 < Word.size := Nat.add_lt_of_lt_sub hrow
  have hcol' : col + 1 < Word.size := Nat.add_lt_of_lt_sub hcol
  -- both matrices have grown to the same two extents
  have hrows := h.wellFormed.rows_set hrow' hcol' x
  have hcols := h.wellFormed.cols_set hrow' hcol' x
  refine .of_cells (h.wellFormed.set hrow' hcol' x) (by rw [hrows, hcols]; exact hplane) ?_
  intro r hr c hc
  rw [hrows] at hr
  rw [hcols] at hc ⊢
  rw [hcell r hr c hc, h.wellFormed.cell?_set hrow' hcol']
  by_cases hat : r = row ∧ c = col
  · rw [if_pos hat, if_pos hat]
    exact alike_kept x
  · rw [if_neg hat, if_neg hat]
    by_cases hin : r < s.rows ∧ c < s.cols
    · rw [if_pos hin]
      exact h.cells hin.1 hin.2
    -- what is new and not written holds no element in sparse storage, and a zero in dense storage
    · have hnone : s.cell? r c = none := by
        rw [Option.eq_none_iff_forall_ne_some]
        exact fun y hy => hin (h.wellFormed.lt_of_cell? hy)
      rw [if_neg hin, hnone]
      exact Or.inl rfl

end Sparse

/-! ## Packing -/

/-- A dense matrix with all its data is packed. -/
theorem Matrix.intoStorage_sparse {d : Dense} (h : d.WellFormed) (datatype : Option DataType) :
    Matrix.intoStorage ⟨.dense d, datatype⟩ .sparse
      = (Sparse.ofDense d).map fun s => ⟨.sparse s, datatype⟩ := by
  show d.readPlane.bind _ = _
  rw [h.readPlane_eq]
  rfl

end Formula
