import Formula.Proofs.Matrix.Nested
import Mathlib.Algebra.Group.Nat.Defs
import Mathlib.Data.List.Perm.Basic

set_option autoImplicit false

/-! # Counting the elements of a shape

The check of a shape multiplies the extents from the left and gives up as soon as a product is no
word. It finds the number of elements just if all of these products are words
(`checkedCount_eq_ok_iff`). Without an extent of zero the whole product is the largest of them, so
nothing within a limit is refused. With one the number of elements is zero and within any limit,
yet the extents in front of the zero can be refused: there the answer depends on the order
(`checkedCount_of_late_zero`), and only there (`checkedCount_eq_of_counted_zeros`).
-/

namespace Formula.Shape

variable {shape : List Nat} {limit : Nat}

/-! ## Products from the left -/

/-- The extents multiplied from the left never exceed a word. -/
def Counted (shape : List Nat) : Prop := ∀ n, count (shape.take n) < Word.size

/-- From a word on, the loop goes through if all products on its way are words, and then it ends
with the last of them. -/
theorem foldlM_product_eq_some_iff {before n : Nat} (hbefore : before < Word.size) :
    shape.foldlM (fun n d => if n * d < Word.size then some (n * d) else none) before = some n ↔
      (∀ k, before * count (shape.take k) < Word.size) ∧ before * count shape = n := by
  induction shape generalizing before with
  | nil =>
      have hone : before * count [] = before := Nat.mul_one before
      simp only [List.take_nil, hone, forall_const, hbefore, true_and]
      exact Option.some_inj
  | cons d ds ih =>
      rw [List.foldlM_cons]
      by_cases hfits : before * d < Word.size
      · rw [if_pos hfits]
        refine (ih hfits).trans (and_congr ⟨fun h k => ?_, fun h k => ?_⟩ ?_)
        · -- no extent at all leaves the word that the loop begins with
          cases k with
          | zero => exact (Nat.mul_one before).symm ▸ hbefore
          | succ k => exact Nat.mul_assoc before d _ ▸ h k
        · rw [Nat.mul_assoc]
          exact h (k + 1)
        · rw [Nat.mul_assoc]
          rfl
      · rw [if_neg hfits]
        refine iff_of_false nofun fun h => hfits ?_
        have hfirst := h.1 1
        rwa [List.take_succ_cons, List.take_zero, count, List.foldr_cons, List.foldr_nil,
          Nat.mul_one] at hfirst

/-- The product is found just if all products from the left are words. -/
theorem product?_eq_some_iff {n : Nat} :
    Word.product? shape = some n ↔ Counted shape ∧ count shape = n := by
  rw [Word.product?, foldlM_product_eq_some_iff (by decide), Nat.one_mul]
  simp only [Nat.one_mul, Counted]

/-! ## The check -/

/-- What the check answers for every shape and every limit. -/
theorem checkedCount_eq_ok_iff {n : Nat} :
    checkedCount shape limit = .ok n ↔ Counted shape ∧ count shape = n ∧ n ≤ limit := by
  rw [← and_assoc, ← product?_eq_some_iff, checkedCount]
  cases Word.product? shape with
  | none => exact iff_of_false nofun fun h => nomatch h.1
  | some found =>
      rw [Option.some.injEq]
      dsimp only
      split
      · next hlimit =>
          constructor
          · rintro ⟨rfl⟩
            exact ⟨rfl, hlimit⟩
          · rintro ⟨rfl, -⟩
            rfl
      · next hlimit =>
          refine iff_of_false nofun ?_
          rintro ⟨rfl, hle⟩
          exact hlimit hle

/-- A shape that does not pass the check is refused, by its extents and the limit. -/
theorem checkedCount_eq_error {fault : EvalError} (h : checkedCount shape limit = .error fault) :
    fault = .dimension (.tooLarge shape limit) := by
  rw [checkedCount] at h
  split at h
  · split at h
    · exact nomatch h
    · exact (Except.error.inj h).symm
  · exact (Except.error.inj h).symm

theorem checkedCount_eq_tooLarge (h : ∀ n, checkedCount shape limit ≠ .ok n) :
    checkedCount shape limit = .error (.dimension (.tooLarge shape limit)) := by
  cases hcheck : checkedCount shape limit with
  | ok n => exact absurd hcheck (h n)
  | error fault => rw [checkedCount_eq_error hcheck]

/-- A shape that passes the check has as many elements as it was counted to have. -/
theorem checkedCount_eq_ok {n : Nat} (h : checkedCount shape limit = .ok n) :
    n = count shape ∧ n ≤ limit ∧ n < Word.size := by
  obtain ⟨hcounted, rfl, hlimit⟩ := checkedCount_eq_ok_iff.mp h
  have hall := hcounted shape.length
  rw [List.take_length] at hall
  exact ⟨rfl, hlimit, hall⟩

theorem checkedCount_of_counted (h : Counted shape) (hlimit : count shape ≤ limit) :
    checkedCount shape limit = .ok (count shape) :=
  checkedCount_eq_ok_iff.mpr ⟨h, rfl, hlimit⟩

/-- A shape within a limit is within a larger one. -/
theorem checkedCount_mono {large n : Nat} (hlimits : limit ≤ large)
    (h : checkedCount shape limit = .ok n) : checkedCount shape large = .ok n := by
  obtain ⟨hcounted, heq, hle⟩ := checkedCount_eq_ok_iff.mp h
  exact checkedCount_eq_ok_iff.mpr ⟨hcounted, heq, Nat.le_trans hle hlimits⟩

/-! ## Shapes with and without a zero -/

theorem count_append (shape rest : List Nat) :
    count (shape ++ rest) = count shape * count rest := by
  induction shape with
  | nil => exact (Nat.one_mul _).symm
  | cons d ds ih =>
      show d * count (ds ++ rest) = d * count ds * count rest
      rw [ih, Nat.mul_assoc]

theorem count_pos (h : 0 ∉ shape) : 0 < count shape := by
  induction shape with
  | nil => exact Nat.one_pos
  | cons d ds ih =>
      rw [List.mem_cons, not_or] at h
      exact Nat.mul_pos (Nat.pos_of_ne_zero (Ne.symm h.1)) (ih h.2)

/-- Without an extent of zero the whole product is the largest one. -/
theorem counted_of_pos (hpos : 0 < count shape) (hsmall : count shape < Word.size) :
    Counted shape := by
  intro n
  have hsplit : count (shape.take n) * count (shape.drop n) = count shape := by
    rw [← count_append, List.take_append_drop]
  have hrest : 0 < count (shape.drop n) := Nat.pos_of_mul_pos_left (hsplit ▸ hpos)
  calc count (shape.take n) ≤ count (shape.take n) * count (shape.drop n) :=
        Nat.le_mul_of_pos_right _ hrest
    _ < Word.size := hsplit ▸ hsmall

theorem count_perm {shape' : List Nat} (h : shape.Perm shape') : count shape = count shape' :=
  h.foldr_eq 1

/-- Within a limit that is a word, only a zero behind extents that are too large is overlooked. -/
theorem counted_of_le (hlimit : limit < Word.size) (hzero : 0 ∈ shape → Counted shape)
    (hcount : count shape ≤ limit) : Counted shape := by
  by_cases hmem : 0 ∈ shape
  · exact hzero hmem
  · exact counted_of_pos (count_pos hmem) (Nat.lt_of_le_of_lt hcount hlimit)

theorem checkedCount_eq (hlimit : limit < Word.size) (hzero : 0 ∈ shape → Counted shape) :
    checkedCount shape limit =
      if count shape ≤ limit then .ok (count shape)
      else .error (.dimension (.tooLarge shape limit)) := by
  by_cases hcount : count shape ≤ limit
  · rw [if_pos hcount]
    exact checkedCount_of_counted (counted_of_le hlimit hzero hcount) hcount
  · rw [if_neg hcount]
    refine checkedCount_eq_tooLarge fun n hn => hcount ?_
    obtain ⟨-, rfl, hle⟩ := checkedCount_eq_ok_iff.mp hn
    exact hle

/-- As long as no extents in front of a zero have a product that is no word, the check is exact: it
finds the number of elements if that is within the limit and refuses the shape otherwise, and it
answers alike for every order of the extents. -/
theorem checkedCount_eq_of_counted_zeros (hlimit : limit < Word.size)
    (hzero : 0 ∈ shape → Counted shape) :
    (∀ n, checkedCount shape limit = .ok n ↔ count shape = n ∧ n ≤ limit) ∧
      (limit < count shape →
        checkedCount shape limit = .error (.dimension (.tooLarge shape limit))) ∧
      ∀ shape', shape.Perm shape' → (0 ∈ shape' → Counted shape') →
        (checkedCount shape' limit).toOption = (checkedCount shape limit).toOption := by
  refine ⟨fun n => ?_, fun hlarge => ?_, fun shape' hperm hzero' => ?_⟩
  · rw [checkedCount_eq_ok_iff]
    refine ⟨fun h => h.2, ?_⟩
    rintro ⟨rfl, hle⟩
    exact ⟨counted_of_le hlimit hzero hle, rfl, hle⟩
  -- in either order the check compares the same number of elements with the limit
  · rw [checkedCount_eq hlimit hzero, if_neg (Nat.not_le.mpr hlarge)]
  · rw [checkedCount_eq hlimit hzero, checkedCount_eq hlimit hzero', count_perm hperm]
    by_cases hcount : count shape' ≤ limit
    · rw [if_pos hcount, if_pos hcount]
    · rw [if_neg hcount, if_neg hcount]
      rfl

/-- A zero in front of extents whose product is no word, and one behind extents whose product is
one. -/
theorem checkedCount_eq_of_early_zero :
    Counted [0, 2 ^ 63, 4] ∧ Counted [2 ^ 31, 0, 2 ^ 40] ∧
      checkedCount [0, 2 ^ 63, 4] 10 = .ok 0 ∧ checkedCount [2 ^ 31, 0, 2 ^ 40] 10 = .ok 0 := by
  have hfront : Counted [0, 2 ^ 63, 4] := ((product?_eq_some_iff (n := 0)).mp (by decide)).1
  have hmiddle : Counted [2 ^ 31, 0, 2 ^ 40] := ((product?_eq_some_iff (n := 0)).mp (by decide)).1
  exact ⟨hfront, hmiddle,
    ((checkedCount_eq_of_counted_zeros (by decide) fun _ => hfront).1 0).mpr (by decide),
    ((checkedCount_eq_of_counted_zeros (by decide) fun _ => hmiddle).1 0).mpr (by decide)⟩

/-- Behind extents whose product is no word a zero comes too late. -/
theorem checkedCount_of_late_zero :
    count [2 ^ 63, 4, 0] = 0 ∧
      checkedCount [2 ^ 63, 4, 0] 10 = .error (.dimension (.tooLarge [2 ^ 63, 4, 0] 10)) ∧
      checkedCount [0, 2 ^ 63, 4] 10 = .ok 0 := by
  refine ⟨by decide, checkedCount_eq_tooLarge fun n hn => ?_, ?_⟩
  · have hcounted := (checkedCount_eq_ok_iff.mp hn).1 2
    exact absurd hcounted (by decide)
  · rfl

end Formula.Shape
