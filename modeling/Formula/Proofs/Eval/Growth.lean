import Formula.Eval
import Formula.Proofs.Matrix.Room

set_option autoImplicit false

/-! # Predicted growth

Before an update writes anything it computes the shape that a dense matrix will have, a maximum over
each list of indices at once (`grownShape`). The writes make the matrix grow target by target. Both
lead to the same shape, since the prediction covers the position of the largest indices, which is a
selected one (`grownShape_eq_cover`).

No shape on the way exceeds the last one, whatever the order of the targets. So a prediction within
`maxElements` is room for all of them (`room_grownShape`).
-/

namespace Formula

namespace Shape

/-- Larger indices one after the other are the largest one of them. -/
theorem foldl_max_satSucc (indices : List Nat) (d i : Nat) :
    indices.foldl (fun d i => max d (Word.satSucc i)) (max d (Word.satSucc i))
      = max d (Word.satSucc (largest (i :: indices))) := by
  induction indices generalizing d i with
  | nil => exact congrArg (fun n => max d (Word.satSucc n)) (Nat.max_zero i).symm
  | cons j js ih =>
      have hlater : largest (i :: j :: js) = max i (largest (j :: js)) := rfl
      have hnext : Word.satSucc (largest (i :: j :: js))
          = max (Word.satSucc i) (Word.satSucc (largest (j :: js))) := by
        rw [hlater, Word.satSucc, Word.satSucc, Word.satSucc]
        omega
      rw [List.foldl_cons, ih (max d (Word.satSucc i)) j, hnext, Nat.max_assoc]

/-- A shape that covers a position has at least as many elements as it needs for each index. -/
theorem satSucc_le_count_cover {shape position : List Nat}
    (hrank : position.length = shape.length) :
    0 < count (cover shape position) ∧
      ∀ i ∈ position, Word.satSucc i ≤ count (cover shape position) := by
  induction shape generalizing position with
  | nil =>
      rw [List.length_nil, List.length_eq_zero_iff] at hrank
      subst hrank
      exact ⟨Nat.one_pos, nofun⟩
  | cons d ds ih =>
      cases position with
      | nil => cases hrank
      | cons i is =>
          obtain ⟨hpos, hrest⟩ := ih (Nat.succ.inj hrank)
          -- the first extent reaches past the first index, and no other extent is zero
          have hcount : count (cover (d :: ds) (i :: is))
              = max d (Word.satSucc i) * count (cover ds is) := rfl
          have hsucc : 0 < Word.satSucc i := Nat.lt_min.mpr ⟨Nat.succ_pos i, by decide⟩
          have hextent : 0 < max d (Word.satSucc i) :=
            Nat.lt_of_lt_of_le hsucc (Nat.le_max_right _ _)
          rw [hcount]
          refine ⟨Nat.mul_pos hextent hpos, List.forall_mem_cons.mpr ⟨?_, fun j hj => ?_⟩⟩
          · exact Nat.le_trans (Nat.le_max_right _ _) (Nat.le_mul_of_pos_right _ hpos)
          · exact Nat.le_trans (hrest j hj) (Nat.le_mul_of_pos_left _ hextent)

/-- A shape that covers the last count on an axis has too many elements. -/
theorem lt_last_of_count_cover {shape position : List Nat} (hrank : position.length = shape.length)
    (hcount : count (cover shape position) ≤ maxElements) : ∀ i ∈ position, i < Word.last := by
  intro i hi
  have hextent : Word.satSucc i ≤ maxElements :=
    Nat.le_trans ((satSucc_le_count_cover hrank).2 i hi) hcount
  have hlimit : maxElements < Word.last := by decide
  rw [Word.satSucc] at hextent
  omega

end Shape

namespace Eval

open Formula.Matrix

variable {d : Dense} {shape : List Nat} {lists : List (List Nat)}

/-- The prediction covers the largest index of every list. -/
theorem grownShape_eq_cover (hrank : lists.length = shape.length) (hfull : [] ∉ lists) :
    grownShape shape lists = Shape.cover shape (lists.map Shape.largest) := by
  rw [grownShape, if_pos hrank.symm]
  induction shape generalizing lists with
  | nil =>
      rw [List.length_nil, List.length_eq_zero_iff] at hrank
      subst hrank
      rfl
  | cons extent extents ih =>
      cases lists with
      | nil => cases hrank
      | cons indices rest =>
          cases indices with
          | nil => exact absurd List.mem_cons_self hfull
          | cons i is =>
              have hrest := ih (Nat.succ.inj hrank) fun hnil => hfull (List.mem_cons_of_mem _ hnil)
              exact congrArg₂ List.cons (Shape.foldl_max_satSucc is extent i) hrest

/-- A prediction within the limit is room for the positions selected. -/
theorem room_grownShape (h : d.WellFormed) (hrank : lists.length = d.shape.length)
    (hfull : [] ∉ lists) {n : Nat}
    (hcount : Shape.checkedCount (grownShape d.shape lists) maxElements = .ok n)
    (datatype : Option DataType) :
    Room ⟨.dense d, datatype⟩ (grownShape d.shape lists) ∧
      ∀ p ∈ Shape.selection lists, Shape.contains (grownShape d.shape lists) p = true := by
  obtain ⟨rfl, hlimit, -⟩ := Shape.checkedCount_eq_ok hcount
  have hgrown := grownShape_eq_cover hrank hfull
  have htop : (lists.map Shape.largest).length = d.shape.length :=
    (List.length_map _).trans hrank
  have hbelow : ∀ i ∈ lists.map Shape.largest, i < Word.last :=
    Shape.lt_last_of_count_cover htop (hgrown ▸ hlimit)
  have hcover := (Shape.cover_within htop hbelow).mp (Shape.within_refl _)
  rw [← hgrown] at hcover
  exact ⟨⟨h, hcover.1, Or.inr hlimit⟩, fun p hp =>
    Shape.contains_of_le hcover.2 (Shape.selection_le_largest hp)⟩

/-- The growth predicted is the growth that happens: an assignment that succeeds leaves the shape
predicted. If this shape is within the limit, writes at the positions selected, in any order, fail
only for a number that the datatype does not admit. -/
theorem setSubset_grows_as_predicted (h : d.WellFormed) (hrank : lists.length = d.shape.length)
    (hfull : [] ∉ lists) (datatype : Option DataType) :
    (∀ replacement r, setSubset ⟨.dense d, datatype⟩ lists replacement = (.ok (), r) →
      r.shape = grownShape d.shape lists) ∧
      ∀ n, Shape.checkedCount (grownShape d.shape lists) maxElements = .ok n →
        ∀ writes : List (List Nat × Scalar), (∀ write ∈ writes, write.1 ∈ Shape.selection lists) →
          ∀ fault, (writeAll ⟨.dense d, datatype⟩ writes).1 = .error fault →
            (∃ why, fault = .type why) ∧
              ∃ write ∈ writes, checkStore datatype write.2 = .error fault := by
  constructor
  · intro replacement r hr
    have hm : Matrix.WellFormed ⟨.dense d, datatype⟩ := h
    obtain ⟨writes, hwrites, hwritten⟩ := hm.setSubset nofun hr
    have htargets : writes.map Prod.fst = Shape.selection lists := map_fst_assignments hwrites
    have hbelow : ∀ p ∈ Shape.selection lists, ∀ i ∈ p, i < Word.last :=
      htargets ▸ hwritten.targets_below
    -- covering all positions selected is covering the largest of them
    calc r.shape = (Shape.selection lists).foldl Shape.cover d.shape := htargets ▸ hwritten.shape
      _ = Shape.extended d.shape lists := Shape.foldl_cover_selection hrank hbelow
      _ = Shape.cover d.shape (lists.map Shape.largest) := by
          rw [Shape.extended, if_neg hfull,
            Shape.cover_eq (hbelow _ (Shape.largest_mem_selection hfull))]
      _ = grownShape d.shape lists := (grownShape_eq_cover hrank hfull).symm
  · intro n hcount writes hwrites fault hfault
    -- the shape predicted bounds what any of the writes can grow to
    obtain ⟨hroom, hin⟩ := room_grownShape h hrank hfull hcount datatype
    rcases hroom.writeAll fun write hwrite => hin _ (hwrites write hwrite) with
      ⟨r, hr⟩ | ⟨write, hwrite, fault', hrefused, hfault'⟩
    · rw [hr] at hfault
      cases hfault
    · rw [hfault'] at hfault
      cases hfault
      exact ⟨checkStore_eq_error hrefused, write, hwrite, hrefused⟩

/-- A row and a column are added. In the other order of the targets the matrix first grows to the
row, and a complex number is refused afterwards. -/
theorem setSubset_grows_as_predicted_plane :
    let d : Dense := ⟨[2, 2], #[.real 1, .real 2, .real 3, .real 4]⟩
    let m : Matrix := ⟨.dense d, some .number⟩
    let lists := [[0, 3], [2]]
    let backwards := [([3, 2], Scalar.real 5), ([0, 2], .complex ⟨0, 1⟩)]
    d.WellFormed ∧ lists.length = d.shape.length ∧ [] ∉ lists ∧
      Shape.checkedCount (grownShape d.shape lists) maxElements = .ok 12 ∧
      (∃ r, m.setSubset lists (ofReals [5, 6]) = (.ok (), r) ∧
        r.shape = grownShape d.shape lists) ∧
      ∃ fault, (m.writeAll backwards).1 = .error fault ∧ ∃ why, fault = .type why := by
  intro d m lists backwards
  have hd : d.WellFormed := ⟨rfl, by decide⟩
  have hfull : [] ∉ lists := by decide
  have hcount : Shape.checkedCount (grownShape d.shape lists) maxElements = .ok 12 := rfl
  -- both runs are evaluated only for whether they succeed
  have hset := eq_of_isOk
    (show (m.setSubset lists (ofReals [5, 6])).1.isOk = true by decide +kernel)
  obtain ⟨fault, hfault⟩ := exists_of_isOk_eq_false
    (show (m.writeAll backwards).1.isOk = false by decide +kernel)
  have hrefused := congrArg Prod.fst hfault
  obtain ⟨hgrown, hrefusal⟩ := setSubset_grows_as_predicted hd rfl hfull (some .number)
  exact ⟨hd, rfl, hfull, hcount, ⟨_, hset, hgrown _ _ hset⟩, fault, hrefused,
    (hrefusal 12 hcount backwards (by decide) fault hrefused).1⟩

end Eval

end Formula
