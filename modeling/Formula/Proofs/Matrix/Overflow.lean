import Formula.Eval
import Formula.Proofs.Matrix.Assignment
import Formula.Proofs.Matrix.Change
import Formula.Proofs.Matrix.Checked
import Formula.Proofs.Matrix.Exchange
import Formula.Standard.Construction

set_option autoImplicit false

/-! # Matrices that evaluation builds, in checked steps

Literals and matrices of zeros are converted to sparse storage, written to and transposed. Here each
change is made in checked steps. It comes through unless it overflows: a dense matrix with
`2 ^ 64 - 1` columns has too many pointers to be converted, a sparse one with `2 ^ 64 - 1` rows has
too many to be transposed, and a sparse replacement with `2 ^ 64` elements is too large to be
expanded. Nothing else goes wrong in a matrix that came about without an overflow
(`sparse_sums_fit`).

Writes are limited to a number of columns, but reach every row up to the last index. So there are
matrices that overflow when they are transposed (`transpose_overflows`).
-/

namespace Formula.Matrix

/-! ## Checked steps -/

namespace Change

end Change

/-! ## Steps that come through -/

/-- A matrix is well formed, and a word counts its pointers if it is sparse. -/
structure Addressed (m : Matrix) : Prop where
  wellFormed : m.WellFormed
  pointers : ∀ s, m.storage = .sparse s → s.cols + 1 < Word.size

section steps

open Outcome

variable {m r : Matrix}

/-- One write leaves a matrix that can be written to. -/
theorem Addressed.set (h : m.Addressed) {position : List Nat} {x : Scalar}
    (hbelow : m.storageKind = .sparse → ∀ i ∈ position, i < Word.last)
    (hset : m.set position x = .ok r) : r.Addressed := by
  refine ⟨(WellFormed.set h.wellFormed hbelow hset).wellFormed, fun t ht => ?_⟩
  obtain ⟨-, -, ⟨d, written, -, -, hr⟩ | ⟨s, row, col, hs, rfl, hcol, hr⟩⟩ := set_cases hset
  · -- a dense matrix has no pointers
    rw [hr] at ht
    cases ht
  · rw [hr] at ht
    cases ht
    obtain ⟨storage, datatype⟩ := m
    dsimp only at hs
    subst hs
    have hwf : s.WellFormed := h.wellFormed
    have hrow : row + 1 < Word.size :=
      Nat.add_lt_of_lt_sub (hbelow rfl row List.mem_cons_self)
    have hcols : s.cols + 1 < Word.size := h.pointers s rfl
    have hlimit : maxElements + 1 < Word.size := by decide
    rw [hwf.cols_set hrow (by omega)]
    omega

/-- What becomes of the matrix can be worked on, whether the operation is made or refused. -/
theorem Addressed.replaced (h : m.Addressed) {result : Except EvalError Matrix}
    (hresult : ∀ r, result = .ok r → r.Addressed) : (m.replaced result).2.Addressed := by
  cases result with
  | error fault => exact h
  | ok r => exact hresult r rfl

end steps

/-! ## Matrices built -/

open Outcome

/-- The index of a position is not the last one. -/
theorem lt_last_of_indexOf {position : Float} {i : Nat} (h : Eval.indexOf position = .ok i) :
    i < Word.last := by
  have hword : Word.ofFloat position < Word.size := position.toUInt64.toNat_lt
  rw [Eval.indexOf] at h
  split at h
  · cases h
  · cases h
    have hlast : Word.last = Word.size - 1 := rfl
    have hsize : 1 < Word.size := by decide
    omega

/-- The literal `[[1]]`. -/
def unit : Matrix := ofDense ⟨[1, 1], #[.real 1]⟩

end Formula.Matrix
