import Formula.Eval
import Formula.Proofs.Binary64.Whole

set_option autoImplicit false

/-! # Ranges within a limit

Whether the values of a range are fewer than its limit is decided by comparing two floating-point
numbers. The limits are whole numbers small enough to be held exactly, so that this comparison is
one of counts: a range has no more values than its limit, and a larger limit leaves its values as
they are.
-/

namespace Formula

theorem lt_leastFull_of_le {limit : Nat} (h : limit ≤ maxElements) : limit < Binary64.leastFull :=
  Nat.lt_of_le_of_lt h (by decide)

namespace Eval

variable {first last step : Float} {limit : Nat} {xs : List Float}

/-- How many steps a range takes from its first value, within the tolerance. -/
def rangeSteps (first last step : Float) : Float := ((last - first) / step + 1e-10).floor

/-- The values of a range that takes so many steps. -/
def rangeOf (first step : Float) (steps : Nat) : List Float :=
  (List.range (steps + 1)).map fun k => first + Binary64.ofNat k * step

theorem length_rangeOf (first step : Float) (steps : Nat) :
    (rangeOf first step steps).length = steps + 1 := by
  rw [rangeOf, List.length_map, List.length_range]

theorem rangeValues_eq (first last step : Float) (limit : Nat) :
    rangeValues first last step limit =
      if step == 0 then .error (.argument .zeroStep)
      else if !(first.isFinite && last.isFinite && step.isFinite) then
        .error (.argument (.infiniteRange first step last))
      else if rangeSteps first last step < 0 then .ok []
      else if rangeSteps first last step < Binary64.ofNat limit then
        .ok (rangeOf first step (Word.ofFloat (rangeSteps first last step)))
      else .error (.dimension (.range first step last limit)) := rfl

/-- A range that leads away from its end has no value, every other one has its first value and one
more for each step. -/
theorem rangeValues_eq_ok_iff :
    rangeValues first last step limit = .ok xs ↔
      (step == 0) = false ∧ (first.isFinite && last.isFinite && step.isFinite) = true ∧
        (rangeSteps first last step < 0 ∧ [] = xs ∨
          ¬rangeSteps first last step < 0 ∧ rangeSteps first last step < Binary64.ofNat limit ∧
            rangeOf first step (Word.ofFloat (rangeSteps first last step)) = xs) := by
  rw [rangeValues_eq]
  split_ifs with hstep hinfinite hback hbelow
  · simp [hstep]
  · rw [Bool.not_eq_true'] at hinfinite
    simp [hinfinite]
  -- in the cases left the numbers of the range are finite
  all_goals rw [Bool.not_eq_true', Bool.not_eq_false] at hinfinite
  · simp [hstep, hinfinite, hback]
  · simp [hstep, hinfinite, hback, hbelow]
  · simp [hstep, hinfinite, hback, hbelow]

/-- A range has no more values than its limit. -/
theorem length_rangeValues_le (hlimit : limit ≤ maxElements)
    (h : rangeValues first last step limit = .ok xs) : xs.length ≤ limit := by
  obtain ⟨-, -, ⟨-, rfl⟩ | ⟨hforward, hbelow, rfl⟩⟩ := rangeValues_eq_ok_iff.mp h
  · exact Nat.zero_le limit
  · rw [length_rangeOf]
    exact Binary64.ofFloat_lt (lt_leastFull_of_le hlimit) hforward hbelow

/-- A range within a limit has the same values within a larger one. -/
theorem rangeValues_of_le {large : Nat} (hle : limit ≤ large) (hlarge : large ≤ maxElements)
    (h : rangeValues first last step limit = .ok xs) :
    rangeValues first last step large = .ok xs := by
  obtain ⟨hstep, hfinite, haway | ⟨hforward, hbelow, hxs⟩⟩ := rangeValues_eq_ok_iff.mp h
  · exact rangeValues_eq_ok_iff.mpr ⟨hstep, hfinite, .inl haway⟩
  · have hwithin := Binary64.lt_ofNat_of_le hle (lt_leastFull_of_le hlarge) hbelow
    exact rangeValues_eq_ok_iff.mpr ⟨hstep, hfinite, .inr ⟨hforward, hwithin, hxs⟩⟩

end Eval

end Formula
