import Formula.Proofs.Matrix.Place

set_option autoImplicit false

/-! # Counting through the positions of a shape

A position counts up like an odometer: the index of the last axis goes up by one, and an index that
reaches its extent starts again from zero and carries into the axis in front of it. One step leads
to the position of the next place (`advance_cases`), so counting up from the first position visits
`positions` and stops (`visits_iff`): as many visits as there are elements, the visit number `n` at
the offset `n` (`visits_in_order`).
-/

namespace Formula.Shape

/-- The position with the index zero on every axis. -/
def origin : List Nat → List Nat
  | [] => []
  | _ :: ds => 0 :: origin ds

/-- The position that comes next. The last index that can go up goes up by one, and the indices
behind it start again from zero; behind the last position comes none. -/
def advance : List Nat → List Nat → Option (List Nat)
  | d :: ds, i :: is =>
      match advance ds is with
      | some later => some (i :: later)
      | none => if i + 1 < d then some ((i + 1) :: origin ds) else none
  | _, _ => none

/-- Counting up from a position visits the positions of a list and stops behind the last one. -/
inductive Counts (shape : List Nat) : List Nat → List (List Nat) → Prop where
  | last {position : List Nat} (h : advance shape position = none) :
      Counts shape position [position]
  | next {position after : List Nat} {later : List (List Nat)}
      (h : advance shape position = some after) (hlater : Counts shape after later) :
      Counts shape position (position :: later)

/-- The visits to the positions of a shape. An extent of zero leaves nothing to visit; otherwise
they count up from the origin. -/
def Visits (shape : List Nat) (visited : List (List Nat)) : Prop :=
  if 0 ∈ shape then visited = [] else Counts shape (origin shape) visited

variable {shape position : List Nat}

/-! ## One step -/

/-- A shape with a position inside has no extent of zero. -/
theorem zero_notMem_of_contains (h : contains shape position = true) : 0 ∉ shape := by
  rw [contains_iff] at h
  induction h with
  | nil => simp
  | cons hi _ ih =>
      rw [List.mem_cons, not_or]
      exact ⟨by omega, ih⟩

theorem contains_origin (h : 0 ∉ shape) : contains shape (origin shape) = true := by
  induction shape with
  | nil => rfl
  | cons d ds ih =>
      rw [List.mem_cons, not_or] at h
      have hd : 0 < d := by omega
      simp [origin, contains, hd, ih h.2]

theorem place_origin (shape : List Nat) : place shape (origin shape) = 0 := by
  induction shape with
  | nil => rfl
  | cons d ds ih => simp [origin, place, ih]

/-- A step from a position inside leads to the position of the next place, and there is none only
behind the last place. -/
theorem advance_cases (h : contains shape position = true) :
    (∃ after, advance shape position = some after ∧ contains shape after = true ∧
        place shape after = place shape position + 1) ∨
      (advance shape position = none ∧ place shape position + 1 = count shape) := by
  induction shape generalizing position with
  | nil =>
      rw [List.length_eq_zero_iff.mp (length_of_contains h)]
      exact Or.inr ⟨rfl, rfl⟩
  | cons d ds ih =>
      cases position with
      | nil => simp [contains] at h
      | cons i is =>
          simp only [contains, Bool.and_eq_true, decide_eq_true_eq] at h
          obtain ⟨hi, his⟩ := h
          have hcount : count (d :: ds) = d * count ds := rfl
          have hplace : place (d :: ds) (i :: is) = i * count ds + place ds is := rfl
          rcases ih his with ⟨after, hadvance, hafter, hnext⟩ | ⟨hadvance, hlast⟩
          · -- the axes behind this one count up
            refine Or.inl ⟨i :: after, by simp [advance, hadvance],
              by simp [contains, hi, hafter], ?_⟩
            simp only [place, hnext]
            omega
          · -- they have reached their last position and carry into this axis
            by_cases hroom : i + 1 < d
            · refine Or.inl ⟨(i + 1) :: origin ds, by simp [advance, hadvance, hroom], ?_, ?_⟩
              · simp [contains, hroom, contains_origin (zero_notMem_of_contains his)]
              · calc place (d :: ds) ((i + 1) :: origin ds)
                    = (i + 1) * count ds + place ds (origin ds) := rfl
                  _ = i * count ds + count ds := by rw [place_origin, Nat.add_zero, Nat.succ_mul]
                  _ = place (d :: ds) (i :: is) + 1 := by omega
            · refine Or.inr ⟨by simp [advance, hadvance, hroom], ?_⟩
              have hd : d = i + 1 := by omega
              rw [hcount, hplace, hd, Nat.succ_mul]
              omega

/-! ## The whole count -/

/-- Counting up from a position visits one list only. -/
theorem Counts.unique {visited visited' : List (List Nat)} (h : Counts shape position visited)
    (h' : Counts shape position visited') : visited = visited' := by
  induction h generalizing visited' with
  | last hstop =>
      cases h' with
      | last => rfl
      | next hstep => rw [hstop] at hstep; cases hstep
  | next hstep _ ih =>
      cases h' with
      | last hstop => rw [hstep] at hstop; cases hstop
      | next hstep' hlater' =>
          rw [hstep] at hstep'
          cases hstep'
          rw [ih hlater']

/-- Counting up from a position inside visits the positions from its place on. -/
theorem counts_drop (h : contains shape position = true) :
    Counts shape position ((positions shape).drop (place shape position)) := by
  -- the number of places behind the position goes down with every step
  generalize hbehind : count shape - place shape position = behind
  induction behind generalizing position with
  | zero =>
      have hlt := place_lt h
      omega
  | succ behind ih =>
      have hlisted := getElem?_positions h
      obtain ⟨hlt, hget⟩ := List.getElem?_eq_some_iff.mp hlisted
      rw [List.drop_eq_getElem_cons hlt, hget]
      rcases advance_cases h with ⟨after, hadvance, hafter, hnext⟩ | ⟨hadvance, hlast⟩
      · rw [← hnext]
        exact .next hadvance (ih hafter (by omega))
      · rw [hlast, ← length_positions, List.drop_length]
        exact .last hadvance

theorem positions_eq_nil (h : 0 ∈ shape) : positions shape = [] := by
  rw [List.eq_nil_iff_forall_not_mem]
  intro position hposition
  exact zero_notMem_of_contains (mem_positions.mp hposition) h

/-- The visits end, and they are the positions in the order of the list. -/
theorem visits_iff {visited : List (List Nat)} :
    Visits shape visited ↔ visited = positions shape := by
  rw [Visits]
  by_cases hzero : 0 ∈ shape
  · rw [if_pos hzero, positions_eq_nil hzero]
  · have hcounts := counts_drop (contains_origin hzero)
    rw [place_origin, List.drop_zero] at hcounts
    rw [if_neg hzero]
    constructor
    · intro h
      exact h.unique hcounts
    · rintro rfl
      exact hcounts

/-- The positions are listed in lexicographic order. -/
theorem pairwise_positions (shape : List Nat) : (positions shape).Pairwise (· < ·) := by
  induction shape with
  | nil => exact List.pairwise_singleton _ _
  | cons d ds ih =>
      have hcons : positions (d :: ds)
          = (List.range d).flatMap fun i => (positions ds).map (i :: ·) := rfl
      rw [hcons, List.pairwise_flatMap]
      constructor
      · intro i _
        rw [List.pairwise_map]
        exact ih.imp fun hlt => List.Lex.cons hlt
      · refine List.pairwise_lt_range.imp fun {i j} hij p hp q hq => ?_
        obtain ⟨p, -, rfl⟩ := List.mem_map.mp hp
        obtain ⟨q, -, rfl⟩ := List.mem_map.mp hq
        exact List.Lex.rel hij

/-- The visits to the positions of a shape whose elements a word counts: there are as many as
elements, the visit number `n` is at a position inside whose offset is `n`, and every position
inside has its turn exactly once, in lexicographic order. A shape without axes has one visit, to
the position without indices, and one with an extent of zero has none. -/
theorem visits_in_order (hsmall : count shape < Word.size) :
    (∀ visited, Visits shape visited ↔ visited = positions shape) ∧
      (positions shape).length = count shape ∧
      (∀ (n : Nat) position, (positions shape)[n]? = some position →
        contains shape position = true ∧ offset shape position = .ok n) ∧
      (∀ position, contains shape position = true →
        ∃! n : Nat, (positions shape)[n]? = some position) ∧
      (positions shape).Pairwise (· < ·) ∧
      (shape = [] → positions shape = [[]]) ∧ (0 ∈ shape → positions shape = []) := by
  refine ⟨fun _ => visits_iff, length_positions shape, fun n position hn => ?_,
    fun position hin => ?_, pairwise_positions shape, ?_, positions_eq_nil⟩
  · have hin := mem_positions.mp (List.mem_of_getElem? hn)
    -- the offset is computed with wrapping, which does not happen below the number of elements
    have hplace : place shape position < Word.size := Nat.lt_trans (place_lt hin) hsmall
    rw [offset_eq hin, Word.wrap_of_lt hplace, place_of_getElem? hn]
    exact ⟨hin, rfl⟩
  · exact ⟨place shape position, getElem?_positions hin, fun n hn => (place_of_getElem? hn).symm⟩
  · rintro rfl
    rfl

/-- A carry into the first of two axes, and a zero behind extents whose product is no word. -/
theorem visits_in_order_plane :
    (count [2, 3] < Word.size ∧
        Visits [2, 3] [[0, 0], [0, 1], [0, 2], [1, 0], [1, 1], [1, 2]] ∧
        offset [2, 3] [1, 0] = .ok 3) ∧
      (count [Word.last, 4, 0] < Word.size ∧ Visits [Word.last, 4, 0] []) := by
  have hplane : count [2, 3] < Word.size := by decide
  have hempty : count [Word.last, 4, 0] < Word.size := by decide
  obtain ⟨hvisits, -, hoffset, -⟩ := visits_in_order hplane
  obtain ⟨hnone, -, -, -, -, -, hzero⟩ := visits_in_order hempty
  refine ⟨⟨hplane, (hvisits _).mpr (by decide), (hoffset 3 [1, 0] (by decide)).2⟩, hempty, ?_⟩
  exact (hnone []).mpr (hzero (by decide)).symm

end Formula.Shape
