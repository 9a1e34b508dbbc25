set_option autoImplicit false

/-! # Ranges of characters

A class of characters is a sorted table of ranges, each given by its first and last code point. A
character is looked up by halving the table.
-/

namespace Formula.Text

/-- Is `n` in one of the ranges `low`, `low + 1`, … `high - 1`? Halves the range list `fuel` times
at most. -/
def inRanges (ranges : Array (Nat × Nat)) (n : Nat) : Nat → Nat → Nat → Bool
  | 0, _, _ => false
  | fuel + 1, low, high =>
      if high ≤ low then false
      else
        let mid := (low + high) / 2
        match ranges[mid]? with
        | none => false
        | some (first, last) =>
            if n < first then inRanges ranges n fuel low mid
            else if last < n then inRanges ranges n fuel (mid + 1) high
            else true

end Formula.Text
