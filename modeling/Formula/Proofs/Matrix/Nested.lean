import Formula.Matrix.Basic
import Formula.Proofs.Outcome
import Mathlib.Data.List.Forall2

set_option autoImplicit false

/-! # Matrices of nested sequences

A nested sequence with a shape has as many leaves as the shape has elements, counted without a
bound. A matrix made of one therefore holds exactly the leaves, and they are few enough to be
counted by a word. The other way round, the elements of a dense matrix in nested sequences give its
elements again and its shape up to the first zero (`shape_nested_shown`), which is the whole shape
as long as no extent but the last one is zero.
-/

namespace Formula

/-- The number of elements of a shape, however large. -/
def Shape.count (shape : List Nat) : Nat := shape.foldr (· * ·) 1

theorem Shape.count_pair (rows cols : Nat) : count [rows, cols] = rows * cols :=
  congrArg (rows * ·) (Nat.mul_one cols)

/-- The extents that nested sequences show of a shape: where there are no items, none of them shows
how long it is. -/
def Shape.shown : List Nat → List Nat
  | [] => []
  | 0 :: _ => [0]
  | (n + 1) :: rest => (n + 1) :: shown rest

/-- The wrapping product is the number of elements modulo the number of counts. -/
theorem Word.product_eq_mod (shape : List Nat) :
    Word.product shape = Shape.count shape % Word.size := by
  have hfold : ∀ n, shape.foldl (fun n d => Word.wrap (n * d)) (Word.wrap n)
      = Word.wrap (n * Shape.count shape) := by
    induction shape with
    | nil => intro n; exact congrArg Word.wrap (Nat.mul_one n).symm
    | cons d rest ih =>
        intro n
        have hwrap : Word.wrap (Word.wrap n * d) = Word.wrap (n * d) := by
          rw [Word.wrap_eq_mod, Word.wrap_eq_mod, Word.wrap_eq_mod, Nat.mod_mul_mod]
        rw [List.foldl_cons, hwrap, ih (n * d), Nat.mul_assoc]
        rfl
  have hone := hfold 1
  rw [Nat.one_mul, Word.wrap_eq_mod (Shape.count shape)] at hone
  exact hone

theorem Word.product_of_lt {shape : List Nat} (h : Shape.count shape < Word.size) :
    Word.product shape = Shape.count shape := by
  rw [Word.product_eq_mod, Nat.mod_eq_of_lt h]

theorem Word.product_lt (shape : List Nat) : Word.product shape < Word.size := by
  rw [Word.product_eq_mod]
  exact Nat.mod_lt _ (by decide)

namespace Nested

mutual

/-- A nested sequence has as many leaves as its shape has elements. -/
theorem length_leaves {shape : List Nat} : (n : Nested) → n.shape = .ok shape →
    n.leaves.length = Shape.count shape
  | .scalar x, h => by
      cases h
      rfl
  | .seq [], h => by
      cases h
      rfl
  | .seq (first :: rest), h => by
      obtain ⟨inner, hfirst, h⟩ := Outcome.bind_eq_ok.mp h
      obtain ⟨_, hrest, h⟩ := Outcome.bind_eq_ok.mp h
      cases h
      -- the items behind the first one have its shape
      have hcount : Shape.count ((rest.length + 1) :: inner)
          = Shape.count inner + rest.length * Shape.count inner :=
        (Nat.succ_mul _ _).trans (Nat.add_comm _ _)
      rw [leaves, leavesAll, List.length_append, length_leaves first hfirst,
        length_leavesAll rest hrest, hcount]

/-- Nested sequences of one shape have as many leaves each. -/
theorem length_leavesAll {inner : List Nat} : (items : List Nested) →
    sameShape inner items = .ok () →
    (leavesAll items).length = items.length * Shape.count inner
  | [], _ => (Nat.zero_mul _).symm
  | item :: rest, h => by
      obtain ⟨other, hitem, h⟩ := Outcome.bind_eq_ok.mp h
      split at h
      · next hsame =>
          rw [leavesAll, List.length_append, length_leaves item (hsame ▸ hitem),
            length_leavesAll rest h, List.length_cons, Nat.succ_mul, Nat.add_comm]
      · exact nomatch h

end

end Nested

/-! ## Elements in nested sequences -/

namespace Dense

section pieces

variable {α : Type} {size : Nat}

theorem length_pieces (n : Nat) (xs : List α) : (pieces size n xs).length = n := by
  induction n generalizing xs with
  | zero => rfl
  | succ n ih => rw [pieces, List.length_cons, ih]

/-- The pieces of a list that has room for all of them are of one length. -/
theorem length_of_mem_pieces {n : Nat} {xs : List α} (hlength : xs.length = n * size) :
    ∀ piece ∈ pieces size n xs, piece.length = size := by
  induction n generalizing xs with
  | zero => exact nofun
  | succ n ih =>
      rw [Nat.succ_mul] at hlength
      rw [pieces]
      refine List.forall_mem_cons.mpr ⟨?_, ih ?_⟩
      · rw [List.length_take]
        omega
      · rw [List.length_drop]
        omega

theorem flatten_pieces {n : Nat} {xs : List α} (hlength : xs.length = n * size) :
    (pieces size n xs).flatten = xs := by
  induction n generalizing xs with
  | zero =>
      rw [Nat.zero_mul] at hlength
      exact (List.eq_nil_of_length_eq_zero hlength).symm
  | succ n ih =>
      rw [Nat.succ_mul] at hlength
      have hrest : (xs.drop size).length = n * size := by
        rw [List.length_drop]
        omega
      rw [pieces, List.flatten_cons, ih hrest, List.take_append_drop]

theorem mem_of_mem_pieces {n : Nat} {xs : List α} :
    ∀ piece ∈ pieces size n xs, ∀ x ∈ piece, x ∈ xs := by
  induction n generalizing xs with
  | zero => exact nofun
  | succ n ih =>
      rw [pieces]
      refine List.forall_mem_cons.mpr ⟨fun x hx => List.mem_of_mem_take hx, ?_⟩
      exact fun piece hpiece x hx => List.mem_of_mem_drop (ih piece hpiece x hx)

theorem forall₂_pieces {β : Type} {related : α → β → Prop} (n size : Nat) {xs : List α}
    {ys : List β} (h : List.Forall₂ related xs ys) :
    List.Forall₂ (List.Forall₂ related) (pieces size n xs) (pieces size n ys) := by
  induction n generalizing xs ys with
  | zero => exact .nil
  | succ n ih => exact .cons (List.forall₂_take size h) (ih (List.forall₂_drop size h))

end pieces

/-- Every extent but the last one is positive. -/
def Positive (shape : List Nat) : Prop := ∀ n ∈ shape.dropLast, 0 < n

theorem Positive.tail {n m : Nat} {rest : List Nat} (h : Positive (n :: m :: rest)) :
    0 < n ∧ Positive (m :: rest) :=
  List.forall_mem_cons.mp h

theorem leaves_scalars (xs : List Scalar) : Nested.leavesAll (xs.map .scalar) = xs := by
  induction xs with
  | nil => rfl
  | cons x rest ih =>
      rw [List.map_cons, Nested.leavesAll, ih]
      rfl

theorem leavesAll_map {α : Type} {f : α → Nested} {g : α → List Scalar} {items : List α}
    (h : ∀ item ∈ items, (f item).leaves = g item) :
    Nested.leavesAll (items.map f) = (items.map g).flatten := by
  induction items with
  | nil => rfl
  | cons item rest ih =>
      obtain ⟨hitem, hrest⟩ := List.forall_mem_cons.mp h
      rw [List.map_cons, Nested.leavesAll, hitem, ih hrest, List.map_cons, List.flatten_cons]

theorem sameShape_of_forall {inner : List Nat} {items : List Nested}
    (h : ∀ item ∈ items, item.shape = .ok inner) : Nested.sameShape inner items = .ok () := by
  induction items with
  | nil => rfl
  | cons item rest ih =>
      obtain ⟨hitem, hrest⟩ := List.forall_mem_cons.mp h
      rw [Nested.sameShape, hitem]
      show (if inner = inner then _ else _) = _
      rw [if_pos rfl, ih hrest]

/-- Sequences of one shape, at least one of them, have that shape behind their number. -/
theorem shape_seq {inner : List Nat} {items : List Nested} (hne : items ≠ [])
    (h : ∀ item ∈ items, item.shape = .ok inner) :
    (Nested.seq items).shape = .ok (items.length :: inner) := by
  cases items with
  | nil => exact absurd rfl hne
  | cons first rest =>
      obtain ⟨hfirst, hrest⟩ := List.forall_mem_cons.mp h
      rw [Nested.shape, hfirst]
      show (Nested.sameShape inner rest >>= _) = _
      rw [sameShape_of_forall hrest]
      rfl

/-- The elements of a shape in nested sequences show its extents up to the first zero, and they are
the leaves. -/
theorem shape_nested_shown (shape : List Nat) {xs : List Scalar}
    (hsmall : Shape.count shape < Word.size) (hlength : xs.length = Shape.count shape) :
    (nested shape xs).shape = .ok (Shape.shown shape) ∧ (nested shape xs).leaves = xs := by
  match shape with
  | [] =>
      obtain ⟨x, rfl⟩ := List.length_eq_one_iff.mp hlength
      exact ⟨rfl, rfl⟩
  | [n] =>
      have hn : xs.length = n := hlength.trans (Nat.mul_one n)
      have hshown : Shape.shown [n] = [n] := by cases n <;> rfl
      rw [nested, hshown]
      refine ⟨?_, leaves_scalars xs⟩
      by_cases hempty : xs = []
      · subst hempty
        rw [← hn]
        rfl
      · have hshape : (Nested.seq (xs.map Nested.scalar)).shape
            = .ok [(xs.map Nested.scalar).length] :=
          shape_seq (by simpa using hempty) (by simp [Nested.shape])
        rw [hshape, List.length_map, hn]
  | 0 :: m :: rest =>
      have hnone : xs = [] := List.eq_nil_of_length_eq_zero (hlength.trans (Nat.zero_mul _))
      subst hnone
      exact ⟨rfl, rfl⟩
  | (n + 1) :: m :: rest =>
      have hcount : Shape.count ((n + 1) :: m :: rest) = (n + 1) * Shape.count (m :: rest) := rfl
      have hle : Shape.count (m :: rest) ≤ (n + 1) * Shape.count (m :: rest) :=
        Nat.le_mul_of_pos_left _ (Nat.succ_pos n)
      -- one extent less makes no more elements, so the product of the others does not wrap either
      have hsmall' : Shape.count (m :: rest) < Word.size := by omega
      rw [hcount] at hlength
      have hpiece : ∀ piece ∈ pieces (Shape.count (m :: rest)) (n + 1) xs,
          (nested (m :: rest) piece).shape = .ok (Shape.shown (m :: rest)) ∧
            (nested (m :: rest) piece).leaves = piece := fun piece hmem =>
        shape_nested_shown (m :: rest) hsmall' (length_of_mem_pieces hlength piece hmem)
      rw [nested, Word.product_of_lt hsmall']
      constructor
      · have hne : (pieces (Shape.count (m :: rest)) (n + 1) xs).map (nested (m :: rest)) ≠ [] :=
          List.cons_ne_nil _ _
        rw [shape_seq hne, List.length_map, length_pieces]
        · rfl
        · intro item hitem
          obtain ⟨piece, hmem, rfl⟩ := List.mem_map.mp hitem
          exact (hpiece piece hmem).1
      · rw [Nested.leaves, leavesAll_map (g := id) fun piece hmem => (hpiece piece hmem).2,
          List.map_id, flatten_pieces hlength]

/-- If only the last extent is zero, all extents are shown. -/
theorem Positive.shown_eq {shape : List Nat} (h : Positive shape) :
    Shape.shown shape = shape := by
  match shape with
  | [] => rfl
  | [n] => cases n <;> rfl
  | 0 :: m :: rest => exact absurd h.tail.1 (Nat.lt_irrefl 0)
  | (n + 1) :: m :: rest => exact congrArg ((n + 1) :: ·) h.tail.2.shown_eq

/-- Data make a matrix of a shape if they are as many as the product of its extents. -/
theorem ofData_eq_ok_iff_size {data : Array Scalar} {shape : List Nat} {d : Dense} :
    ofData data shape = .ok d ↔ data.size = Word.product shape ∧ d = ⟨shape, data⟩ := by
  rw [ofData]
  by_cases hsize : data.size = Word.product shape
  · rw [if_pos hsize, and_iff_right hsize]
    exact ⟨fun h => (Except.ok.inj h).symm, fun h => congrArg Except.ok h.symm⟩
  · rw [if_neg hsize]
    exact iff_of_false nofun fun h => hsize h.1

end Dense

namespace Matrix

open Outcome

/-- A matrix is made of exactly the sequences that have a shape with a count of elements. -/
theorem ofNested_eq_ok_iff {n : Nested} {m : Matrix} :
    ofNested n = .ok m ↔ ∃ items shape, n = .seq items ∧ n.shape = .ok shape ∧
      Shape.count shape < Word.size ∧ m = ofDense ⟨shape, n.leaves.toArray⟩ := by
  cases n with
  | scalar x =>
      refine iff_of_false (fun h => by cases h) ?_
      rintro ⟨items, shape, hseq, -⟩
      cases hseq
  | seq items =>
      constructor
      · intro h
        obtain ⟨shape, hshape, hm⟩ := bind_eq_ok.mp h
        obtain ⟨d, hd, rfl⟩ := map_eq_ok.mp hm
        obtain ⟨hsize, rfl⟩ := Dense.ofData_eq_ok_iff_size.mp hd
        -- the leaves are counted once with and once without wrapping
        rw [List.size_toArray, Nested.length_leaves _ hshape] at hsize
        exact ⟨items, shape, rfl, hshape, hsize ▸ Word.product_lt shape, rfl⟩
      · rintro ⟨items', shape, hseq, hshape, hsmall, rfl⟩
        cases hseq
        have hsize : (Nested.seq items).leaves.toArray.size = Word.product shape := by
          rw [List.size_toArray, Nested.length_leaves _ hshape, Word.product_of_lt hsmall]
        have hdata := Dense.ofData_eq_ok_iff_size.mpr ⟨hsize, rfl⟩
        exact bind_eq_ok.mpr ⟨shape, hshape, map_eq_ok.mpr ⟨_, hdata, rfl⟩⟩

end Matrix

end Formula
