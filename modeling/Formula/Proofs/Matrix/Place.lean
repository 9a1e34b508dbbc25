import Formula.Proofs.Matrix.Nested

set_option autoImplicit false

/-! # Places of positions

A position has a digit for every axis of its shape, and its place is the number that the digits
write in the mixed radix of the extents. The positions are listed in the order of their places
(`map_place_positions`), so they correspond one to one to the places below the number of elements.
The offset of a position inside is its place, as far as a word can count it; a position outside
has none.
-/

namespace Formula

theorem Word.wrap_of_wrap_mul_add (n d i : Nat) : wrap (wrap n * d + i) = wrap (n * d + i) := by
  simp only [wrap_eq_mod, Nat.add_mod, Nat.mod_mul_mod, Nat.mod_mod]

namespace Shape

/-- The place of a position in row-major order. -/
def place : List Nat → List Nat → Nat
  | _ :: ds, i :: is => i * count ds + place ds is
  | _, _ => 0

/-! ## Positions inside -/

/-- A position lies inside if every index lies below its extent. -/
theorem contains_iff {shape position : List Nat} :
    contains shape position = true ↔ List.Forall₂ (· < ·) position shape := by
  induction shape generalizing position with
  | nil => cases position <;> simp [contains]
  | cons d ds ih => cases position <;> simp [contains, ih]

theorem length_of_contains {shape position : List Nat} (h : contains shape position = true) :
    position.length = shape.length := (contains_iff.mp h).length_eq

theorem contains_reverse {shape position : List Nat} :
    contains shape.reverse position.reverse = true ↔ contains shape position = true := by
  rw [contains_iff, contains_iff, List.forall₂_reverse_iff]

theorem contains_pair {rows cols row col : Nat} :
    contains [rows, cols] [row, col] = true ↔ row < rows ∧ col < cols := by
  simp [contains]

theorem place_lt {shape position : List Nat} (h : contains shape position = true) :
    place shape position < count shape := by
  rw [contains_iff] at h
  induction h with
  | nil => exact Nat.one_pos
  | @cons i d is ds hi _ ih =>
      calc i * count ds + place ds is < i * count ds + count ds := Nat.add_lt_add_left ih _
        _ = (i + 1) * count ds := (Nat.succ_mul i (count ds)).symm
        _ ≤ d * count ds := Nat.mul_le_mul_right _ hi

/-- In a shape whose elements a word counts, no index of a position is the last count. -/
theorem lt_last_of_contains {shape position : List Nat} (h : contains shape position = true)
    (hsmall : count shape < Word.size) : ∀ i ∈ position, i < Word.last := by
  induction shape generalizing position with
  | nil =>
      cases position with
      | nil => exact nofun
      | cons => exact nomatch h
  | cons d ds ih =>
      cases position with
      | nil => exact nomatch h
      | cons i is =>
          obtain ⟨hi, his⟩ := List.forall₂_cons.mp (contains_iff.mp h)
          rw [← contains_iff] at his
          have hcount : count (d :: ds) = d * count ds := rfl
          -- no extent is zero, so each of them is at most the number of elements
          have hinner : 0 < count ds := Nat.lt_of_le_of_lt (Nat.zero_le _) (place_lt his)
          have hfirst : d ≤ d * count ds := Nat.le_mul_of_pos_right d hinner
          have hrest : count ds ≤ d * count ds := Nat.le_mul_of_pos_left _ (by omega)
          refine List.forall_mem_cons.mpr ⟨?_, ih his (by omega)⟩
          show i < Word.size - 1
          omega

/-! ## The list of positions -/

/-- The positions selected have one index from each list. -/
theorem mem_selection {lists : List (List Nat)} {position : List Nat} :
    position ∈ selection lists ↔ List.Forall₂ (· ∈ ·) position lists := by
  induction lists generalizing position with
  | nil => simp [selection]
  | cons indices rest ih =>
      cases position with
      | nil => simp [selection]
      | cons i is => simp [selection, ih]

theorem mem_positions {shape position : List Nat} :
    position ∈ positions shape ↔ contains shape position = true := by
  rw [positions, mem_selection, List.forall₂_map_right_iff, contains_iff]
  simp only [List.mem_range]

theorem flatMap_range_add (n m : Nat) :
    ((List.range n).flatMap fun i => (List.range m).map (i * m + ·)) = List.range (n * m) := by
  induction n with
  | zero => rw [Nat.zero_mul]; rfl
  | succ n ih =>
      rw [List.range_succ, List.flatMap_append, ih, List.flatMap_singleton, Nat.succ_mul,
        List.range_add]

/-- The positions are listed in the order of their places, without a gap. -/
theorem map_place_positions (shape : List Nat) :
    (positions shape).map (place shape) = List.range (count shape) := by
  induction shape with
  | nil => rfl
  | cons d ds ih =>
      have hrow : ∀ i, ((positions ds).map (i :: ·)).map (place (d :: ds))
          = (List.range (count ds)).map (i * count ds + ·) := by
        intro i
        rw [← ih, List.map_map, List.map_map]
        rfl
      calc (positions (d :: ds)).map (place (d :: ds))
          = (List.range d).flatMap fun i => ((positions ds).map (i :: ·)).map (place (d :: ds)) :=
            List.map_flatMap
        _ = (List.range d).flatMap fun i => (List.range (count ds)).map (i * count ds + ·) := by
            simp only [hrow]
        _ = List.range (count (d :: ds)) := flatMap_range_add d (count ds)

theorem length_positions (shape : List Nat) : (positions shape).length = count shape := by
  have hlength := congrArg List.length (map_place_positions shape)
  rwa [List.length_map, List.length_range] at hlength

/-- The position with number `n` has the place `n`. -/
theorem place_of_getElem? {shape position : List Nat} {n : Nat}
    (h : (positions shape)[n]? = some position) : place shape position = n := by
  have hplace := congrArg (fun places : List Nat => places[n]?) (map_place_positions shape)
  obtain ⟨hn, -⟩ := List.getElem?_eq_some_iff.mp h
  rw [length_positions] at hn
  simp only [List.getElem?_map, h, Option.map_some, List.getElem?_range hn] at hplace
  exact Option.some.inj hplace

/-- A position inside is listed at its place. -/
theorem getElem?_positions {shape position : List Nat} (h : contains shape position = true) :
    (positions shape)[place shape position]? = some position := by
  obtain ⟨n, hn⟩ := List.mem_iff_getElem?.mp (mem_positions.mpr h)
  rw [place_of_getElem? hn, hn]

/-- Different positions have different places. -/
theorem place_inj {shape p q : List Nat} (hp : contains shape p = true)
    (hq : contains shape q = true) (h : place shape p = place shape q) : p = q := by
  have hlisted := getElem?_positions hp
  rw [h, getElem?_positions hq] at hlisted
  exact (Option.some.inj hlisted).symm

/-! ## Offsets -/

theorem offsetFrom_eq {shape position : List Nat} (h : contains shape position = true)
    (axis before : Nat) :
    offsetFrom axis (Word.wrap before) shape position
      = .ok (Word.wrap (before * count shape + place shape position)) := by
  rw [contains_iff] at h
  induction h generalizing axis before with
  | nil => exact congrArg (fun n => Except.ok (Word.wrap n)) (Nat.mul_one before).symm
  | @cons i d is ds hi _ ih =>
      have hplace : (before * d + i) * count ds + place ds is
          = before * count (d :: ds) + place (d :: ds) (i :: is) := by
        rw [Nat.add_mul, Nat.mul_assoc, Nat.add_assoc]
        rfl
      rw [offsetFrom, if_pos hi, Word.wrap_of_wrap_mul_add, ih, hplace]

/-- The offset of a position inside is its place, reduced to a word. -/
theorem offset_eq {shape position : List Nat} (h : contains shape position = true) :
    offset shape position = .ok (Word.wrap (place shape position)) := by
  have hfrom := offsetFrom_eq h 1 0
  rw [Nat.zero_mul, Nat.zero_add] at hfrom
  rw [offset, if_pos (length_of_contains h)]
  exact hfrom

theorem offsetFrom_outside {shape position : List Nat} (hrank : position.length = shape.length)
    (h : ¬contains shape position = true) (axis before : Nat) :
    ∃ fault, offsetFrom axis before shape position = .error (.index fault) := by
  induction shape generalizing position axis before with
  | nil =>
      rw [List.length_nil, List.length_eq_zero_iff] at hrank
      subst hrank
      exact absurd rfl h
  | cons d ds ih =>
      cases position with
      | nil => exact nomatch hrank
      | cons i is =>
          rw [offsetFrom]
          -- either this index is refused, or one behind it is
          by_cases hi : i < d
          · rw [if_pos hi]
            refine ih (Nat.succ.inj hrank) (fun his => h ?_) _ _
            rw [contains, decide_eq_true hi, his]
            rfl
          · rw [if_neg hi]
            exact ⟨_, rfl⟩

/-- A position outside has no offset. -/
theorem offset_outside {shape position : List Nat} (h : ¬contains shape position = true) :
    ∃ fault, offset shape position = .error (.index fault) := by
  rw [offset]
  by_cases hrank : position.length = shape.length
  · rw [if_pos hrank]
    exact offsetFrom_outside hrank h 1 0
  · rw [if_neg hrank]
    exact ⟨_, rfl⟩

end Shape

end Formula
