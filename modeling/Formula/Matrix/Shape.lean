import Formula.Error
import Formula.Word

set_option autoImplicit false

/-! # Shapes and positions

A shape is a list of extents, a position a list of indices, both from the outermost axis to the
innermost one, indices counted from zero. `selection` lists the positions that pick one index
from each of several lists; `positions` lists all positions of a shape. Both lists are in
row-major order: the last axis moves first. `offset` numbers the positions of a shape in the same
order.
-/

namespace Formula

/-- The number of elements that a dense matrix may grow to, and of columns that a sparse one may
have: `2 ^ 24`. -/
def maxElements : Nat := 0x1000000

namespace Shape

/-- The number of elements of a shape, exact, as long as it is within `limit`. Partial products
are formed from the left and must fit even if a later extent is zero. -/
def checkedCount (shape : List Nat) (limit : Nat) : Except EvalError Nat :=
  match Word.product? shape with
  | some count => if count ≤ limit then .ok count else .error (.dimension (.tooLarge shape limit))
  | none => .error (.dimension (.tooLarge shape limit))

/-- All positions with one index from each list, row-major. -/
def selection : List (List Nat) → List (List Nat)
  | [] => [[]]
  | indices :: rest =>
      let inner := selection rest
      indices.flatMap fun i => inner.map (i :: ·)

/-- All positions of a shape, row-major. -/
def positions (shape : List Nat) : List (List Nat) := selection (shape.map List.range)

/-- Does the position lie inside the shape, which has the same number of axes? -/
def contains : List Nat → List Nat → Bool
  | d :: ds, i :: is => decide (i < d) && contains ds is
  | [], [] => true
  | _, _ => false

/-- The smallest shape with room for an old shape and a position. -/
def cover (shape position : List Nat) : List Nat :=
  List.zipWith (fun d i => max d (Word.satSucc i)) shape position

/-- The offset reached from `before` along the remaining axes, the first of which is number
`axis`. -/
def offsetFrom (axis before : Nat) : List Nat → List Nat → Except EvalError Nat
  | d :: ds, i :: is =>
      if i < d then offsetFrom (axis + 1) (Word.wrap (before * d + i)) ds is
      else .error (.index (.outside (Word.succ i) d axis))
  | _, _ => .ok before

/-- The place of a position in row-major order. -/
def offset (shape position : List Nat) : Except EvalError Nat :=
  if position.length = shape.length then offsetFrom 1 0 shape position
  else .error (.index (.rank position.length shape.length))

/-! ## Laws -/

theorem length_selection (lists : List (List Nat)) :
    (selection lists).length = (lists.map List.length).foldr (· * ·) 1 := by
  induction lists with
  | nil => rfl
  | cons indices rest ih =>
      simp only [selection, List.map_cons, List.foldr_cons, ← ih]
      induction indices with
      | nil => simp
      | cons i is h => simp [h, Nat.succ_mul, Nat.add_comm]

theorem length_of_mem_selection {lists : List (List Nat)} {p : List Nat}
    (h : p ∈ selection lists) : p.length = lists.length := by
  induction lists generalizing p with
  | nil => simp_all [selection]
  | cons indices rest ih =>
      simp only [selection, List.mem_flatMap, List.mem_map] at h
      obtain ⟨i, _, q, hq, rfl⟩ := h
      simp [ih hq]

end Shape

end Formula
