set_option autoImplicit false

/-! # Counts below `2 ^ 64`

Extents, positions, depths and limits are natural numbers. Where a computation on them is
bounded by the width of a machine word the bound is part of the definition:

    wrap      reduces modulo `2 ^ 64`
    succ      the next count, wrapping from the last one to `0`
    satSucc   the next count, staying at the last one
    product   the product of a list of extents, wrapping
    product?  the same product, refused as soon as a partial product does not fit

The two products differ: `product [2 ^ 63, 4, 0]` is `0`, and `product?` refuses the list.
-/

namespace Formula.Word

/-- The number of counts, `2 ^ 64`. -/
def size : Nat := 0x10000000000000000

/-- The largest count. -/
def last : Nat := size - 1

/-- The count congruent to `n` modulo `2 ^ 64`. -/
def wrap (n : Nat) : Nat := if n < size then n else n % size

/-- The next count; the last one is followed by `0`. -/
def succ (n : Nat) : Nat := wrap (n + 1)

/-- The next count; the last one is followed by itself. -/
def satSucc (n : Nat) : Nat := min (n + 1) last

/-- A real number cut toward zero; NaN and negative numbers give `0`, large ones the last
count. -/
def ofFloat (x : Float) : Nat := x.toUInt64.toNat

/-- The product of the extents modulo `2 ^ 64`. -/
def product (extents : List Nat) : Nat := extents.foldl (fun n d => wrap (n * d)) 1

/-- The product of the extents from the left, `none` once a partial product is no count. -/
def product? (extents : List Nat) : Option Nat :=
  extents.foldlM (fun n d => if n * d < size then some (n * d) else none) 1

/-! ## Laws -/

theorem wrap_eq_mod (n : Nat) : wrap n = n % size := by
  unfold wrap
  split
  · exact (Nat.mod_eq_of_lt ‹_›).symm
  · rfl

theorem wrap_lt (n : Nat) : wrap n < size := by
  rw [wrap_eq_mod]
  exact Nat.mod_lt _ (by decide)

theorem wrap_of_lt {n : Nat} (h : n < size) : wrap n = n := if_pos h

theorem succ_of_lt {n : Nat} (h : n + 1 < size) : succ n = n + 1 := wrap_of_lt h

end Formula.Word
