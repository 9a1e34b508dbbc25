import Formula.Proofs.Matrix.Dense

set_option autoImplicit false

/-! # Shapes extended to a selection

A shape that grows to one position after the other ends as the smallest shape with room for all of
them: the shapes it fits into are those that have all positions (`foldl_cover_within`). For the
positions of a selection this shape is found at once, from the largest index of every list, since
the largest indices make up a selected position themselves.
-/

namespace Formula.Shape

/-- The largest of some indices. -/
def largest (indices : List Nat) : Nat := indices.foldr max 0

/-- The shape that a selection extends a shape to: on each axis the larger one of the old extent and
the largest index plus one. Without a selected position the shape stays. -/
def extended (shape : List Nat) (lists : List (List Nat)) : List Nat :=
  if [] ∈ lists then shape
  else List.zipWith (fun d i => max d (i + 1)) shape (lists.map largest)

/-! ## The largest index -/

theorem le_largest {indices : List Nat} {i : Nat} (h : i ∈ indices) : i ≤ largest indices := by
  induction indices with
  | nil => exact absurd h List.not_mem_nil
  | cons j js ih =>
      show i ≤ max j (largest js)
      rcases List.mem_cons.mp h with rfl | h
      · exact Nat.le_max_left _ _
      · exact Nat.le_trans (ih h) (Nat.le_max_right _ _)

theorem largest_mem {indices : List Nat} (h : indices ≠ []) : largest indices ∈ indices := by
  induction indices with
  | nil => exact absurd rfl h
  | cons j js ih =>
      show max j (largest js) ∈ j :: js
      rcases Nat.le_total j (largest js) with hle | hle
      · rw [Nat.max_eq_right hle]
        by_cases hjs : js = []
        · subst hjs
          exact List.mem_cons.mpr (Or.inl (Nat.le_antisymm (Nat.zero_le j) hle))
        · exact List.mem_cons_of_mem _ (ih hjs)
      · rw [Nat.max_eq_left hle]
        exact List.mem_cons_self

/-- No position has an index from an empty list. -/
theorem not_mem_selection {lists : List (List Nat)} (h : [] ∈ lists) (position : List Nat) :
    position ∉ selection lists := by
  rw [mem_selection]
  intro hall
  induction hall with
  | nil => exact absurd h List.not_mem_nil
  | cons hi _ ih =>
      rcases List.mem_cons.mp h with rfl | h
      · exact absurd hi List.not_mem_nil
      · exact ih h

/-- The largest indices of lists that are not empty are a selected position, and above all
others. -/
theorem largest_mem_selection {lists : List (List Nat)} (h : [] ∉ lists) :
    lists.map largest ∈ selection lists := by
  rw [mem_selection, List.forall₂_map_left_iff, List.forall₂_same]
  intro indices hindices
  refine largest_mem fun hnil => h ?_
  rwa [← hnil]

theorem selection_le_largest {lists : List (List Nat)} {position : List Nat}
    (h : position ∈ selection lists) : List.Forall₂ (· ≤ ·) position (lists.map largest) := by
  rw [List.forall₂_map_right_iff]
  exact (mem_selection.mp h).imp fun _ _ => le_largest

/-- A shape that has a position has those in front of it on every axis. -/
theorem contains_of_le {shape p q : List Nat} (h : contains shape q = true)
    (hle : List.Forall₂ (· ≤ ·) p q) : contains shape p = true := by
  rw [contains_iff] at h ⊢
  induction hle generalizing shape with
  | nil => exact h
  | cons hi _ ih =>
      cases h with
      | cons hj hjs => exact .cons (Nat.lt_of_le_of_lt hi hj) (ih hjs)

/-! ## Growing to positions -/

/-- The shapes that a shape fits into after it has grown to several positions are those that it did
fit into and that have all of them. -/
theorem foldl_cover_within {shape bound : List Nat} {positions : List (List Nat)}
    (hrank : ∀ p ∈ positions, p.length = shape.length)
    (hbelow : ∀ p ∈ positions, ∀ i ∈ p, i < Word.last) :
    List.Forall₂ (· ≤ ·) (positions.foldl cover shape) bound
      ↔ List.Forall₂ (· ≤ ·) shape bound ∧ ∀ p ∈ positions, contains bound p = true := by
  induction positions generalizing shape with
  | nil => simp
  | cons p ps ih =>
      obtain ⟨hp, hps⟩ := List.forall_mem_cons.mp hrank
      obtain ⟨hbelow, hbelows⟩ := List.forall_mem_cons.mp hbelow
      have hcover : (cover shape p).length = shape.length := length_cover hp
      rw [List.foldl_cons, ih (fun q hq => (hps q hq).trans hcover.symm) hbelows,
        cover_within hp hbelow, List.forall_mem_cons, and_assoc]

theorem length_foldl_cover {shape : List Nat} {positions : List (List Nat)}
    (hrank : ∀ p ∈ positions, p.length = shape.length) :
    (positions.foldl cover shape).length = shape.length := by
  induction positions generalizing shape with
  | nil => rfl
  | cons p ps ih =>
      obtain ⟨hp, hps⟩ := List.forall_mem_cons.mp hrank
      have hcover : (cover shape p).length = shape.length := length_cover hp
      rw [List.foldl_cons, ih fun q hq => (hps q hq).trans hcover.symm, hcover]

/-- Shapes that fit into the same shapes are the same. -/
theorem eq_of_within_iff {shape shape' : List Nat}
    (h : ∀ bound, List.Forall₂ (· ≤ ·) shape bound ↔ List.Forall₂ (· ≤ ·) shape' bound) :
    shape = shape' := by
  have hle : List.Forall₂ (· ≤ ·) shape shape' := (h shape').mpr (within_refl shape')
  have hge : List.Forall₂ (· ≤ ·) shape' shape := (h shape).mp (within_refl shape)
  clear h
  induction hle with
  | nil => rfl
  | cons hd _ ih =>
      obtain ⟨hd', hds'⟩ := List.forall₂_cons.mp hge
      rw [Nat.le_antisymm hd hd', ih hds']

/-- A shape that grows to every position of a selection is extended to the selection. -/
theorem foldl_cover_selection {shape : List Nat} {lists : List (List Nat)}
    (hrank : lists.length = shape.length)
    (hbelow : ∀ p ∈ selection lists, ∀ i ∈ p, i < Word.last) :
    (selection lists).foldl cover shape = extended shape lists := by
  by_cases hempty : [] ∈ lists
  · have hnone : selection lists = [] :=
      List.eq_nil_iff_forall_not_mem.mpr (not_mem_selection hempty)
    rw [hnone, extended, if_pos hempty]
    rfl
  · have htop : lists.map largest ∈ selection lists := largest_mem_selection hempty
    have hlength : ∀ p ∈ selection lists, p.length = shape.length := fun p hp =>
      (length_of_mem_selection hp).trans hrank
    rw [extended, if_neg hempty, ← cover_eq (hbelow _ htop)]
    refine eq_of_within_iff fun bound => ?_
    rw [foldl_cover_within hlength hbelow, cover_within (hlength _ htop) (hbelow _ htop)]
    -- a shape with the position of the largest indices has all others
    exact and_congr_right fun _ =>
      ⟨fun h => h _ htop, fun h p hp => contains_of_le h (selection_le_largest hp)⟩

end Formula.Shape
