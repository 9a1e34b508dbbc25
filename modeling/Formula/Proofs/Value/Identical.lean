import Formula.Value.Basic
import Mathlib

set_option autoImplicit false

/-! # Equal and identical values

Equality of numbers is not identity: NaN is not equal to itself, and the two zeros are equal. All
other numbers are ordinary, and among values with ordinary parts equality is identity. Plain numbers
are compared bit by bit where it matters, so they need not be ordinary; all NaNs are one number
here, with one pattern of bits.
-/

namespace Formula

namespace Binary64

/-- The number is neither NaN nor the negative zero. -/
def Ordinary (x : Float) : Prop := x ≠ Float.nan ∧ x ≠ -0

/-- Ordinary numbers are equal only if they are the same. -/
theorem beq_iff {x y : Float} (hx : Ordinary x) (hy : Ordinary y) : x == y ↔ x = y := by
  rw [Float.beq_iff_ne_nan_and_eq]
  constructor
  · rintro ⟨-, -, h | ⟨-, h⟩ | ⟨h, -⟩⟩
    · exact h
    · exact absurd h hy.2
    · exact absurd h hx.2
  · exact fun h => ⟨hx.1, hy.1, .inl h⟩

end Binary64

/-! ## Parts -/

/-- Both parts are ordinary. -/
structure Complex.Ordinary (z : Complex) : Prop where
  re : Binary64.Ordinary z.re
  im : Binary64.Ordinary z.im

theorem Complex.beq_iff {z w : Complex} (hz : z.Ordinary) (hw : w.Ordinary) :
    z == w ↔ z = w := by
  show (z.re == w.re && z.im == w.im) = true ↔ z = w
  rw [Bool.and_eq_true, Binary64.beq_iff hz.re hw.re, Binary64.beq_iff hz.im hw.im]
  cases z
  cases w
  rw [Complex.mk.injEq]

/-- The number is made of ordinary ones. -/
def Scalar.Ordinary : Scalar → Prop
  | .real x => Binary64.Ordinary x
  | .complex z => z.Ordinary

theorem Scalar.beq_iff {x y : Scalar} (hx : x.Ordinary) (hy : y.Ordinary) : x == y ↔ x = y := by
  cases x with
  | real a =>
      cases y with
      | real b =>
          rw [Scalar.real.injEq]
          exact Binary64.beq_iff hx hy
      | complex w => exact ⟨nofun, nofun⟩
  | complex z =>
      cases y with
      | real b => exact ⟨nofun, nofun⟩
      | complex w =>
          rw [Scalar.complex.injEq]
          exact Complex.beq_iff hx hy

theorem list_beq_iff {xs ys : List Scalar} (hxs : ∀ x ∈ xs, x.Ordinary)
    (hys : ∀ y ∈ ys, y.Ordinary) : xs == ys ↔ xs = ys := by
  induction xs generalizing ys with
  | nil => cases ys <;> simp
  | cons x xs ih =>
      cases ys with
      | nil => simp
      | cons y ys =>
          rw [List.forall_mem_cons] at hxs hys
          rw [List.cons_beq_cons, Bool.and_eq_true, Scalar.beq_iff hxs.1 hys.1,
            ih hxs.2 hys.2, List.cons.injEq]

theorem elements_beq_iff {a b : Array Scalar} (ha : ∀ x ∈ a, x.Ordinary)
    (hb : ∀ y ∈ b, y.Ordinary) : a == b ↔ a = b := by
  have hlists : a.toList == b.toList ↔ a.toList = b.toList :=
    list_beq_iff (fun x hx => ha x (Array.mem_toList_iff.mp hx))
      (fun y hy => hb y (Array.mem_toList_iff.mp hy))
  rw [← Array.beq_toList, hlists, Array.toList_inj]

/-! ## Matrices -/

/-- The elements that are stored. -/
def Storage.stored : Storage → Array Scalar
  | .dense d => d.data
  | .sparse s => s.values

/-- All stored elements are ordinary. -/
def Matrix.Ordinary (m : Matrix) : Prop := ∀ x ∈ m.storage.stored, x.Ordinary

theorem Storage.beq_iff {s t : Storage} (hs : ∀ x ∈ s.stored, x.Ordinary)
    (ht : ∀ x ∈ t.stored, x.Ordinary) : s == t ↔ s = t := by
  cases s with
  | dense d =>
      cases t with
      | sparse b => exact ⟨nofun, nofun⟩
      | dense e =>
          show (d.shape == e.shape && d.data == e.data) = true ↔ _
          have hdata : d.data == e.data ↔ d.data = e.data := elements_beq_iff hs ht
          rw [Bool.and_eq_true, hdata, beq_iff_eq]
          cases d
          cases e
          rw [Storage.dense.injEq, Dense.mk.injEq]
  | sparse a =>
      cases t with
      | dense e => exact ⟨nofun, nofun⟩
      | sparse b =>
          show (a.rows == b.rows && (a.cols == b.cols && (a.values == b.values &&
            (a.rowIndex == b.rowIndex && a.colPtr == b.colPtr)))) = true ↔ _
          have hvalues : a.values == b.values ↔ a.values = b.values := elements_beq_iff hs ht
          simp only [Bool.and_eq_true, hvalues, beq_iff_eq]
          rw [Storage.sparse.injEq, Sparse.ext_iff]

theorem Matrix.beq_iff {m n : Matrix} (hm : m.Ordinary) (hn : n.Ordinary) :
    m == n ↔ m = n := by
  show (m.storage == n.storage && m.datatype == n.datatype) = true ↔ _
  rw [Bool.and_eq_true, Storage.beq_iff hm hn, beq_iff_eq]
  cases m
  cases n
  rw [Matrix.mk.injEq]

/-! ## Values -/

namespace Value

/-- The parts of a complex number and the elements of a matrix are ordinary. -/
def Ordinary : Value → Prop
  | .complex z => z.Ordinary
  | .matrix m => m.Ordinary
  | _ => True

/-- The values are the same. Functions are the same if the same evaluation has made them. -/
def Identical : Value → Value → Prop
  | .function f, .function g => f.name = g.name ∧ f.params = g.params ∧ f.stamp = g.stamp
  | v, w => v = w

theorem identical_refl (v : Value) : v.Identical v := by
  cases v with
  | function f => exact ⟨rfl, rfl, rfl⟩
  | null | boolean _ | number _ | complex _ | string _ | matrix _ => rfl

/-- **Ordinary values are unchanged only if they are identical.** -/
theorem unchanged_iff {v w : Value} (hv : v.Ordinary) (hw : w.Ordinary) :
    v.unchanged w ↔ v.Identical w := by
  cases v with
  | number x =>
      cases w with
      | number y =>
          show (x.toBits == y.toBits) = true ↔ Value.number x = .number y
          rw [beq_iff_eq, Float.toBits_inj, Value.number.injEq]
      | _ => exact ⟨nofun, nofun⟩
  | null =>
      cases w with
      | null => exact ⟨fun _ => rfl, fun _ => rfl⟩
      | _ => exact ⟨nofun, nofun⟩
  | boolean b =>
      cases w with
      | boolean c =>
          show (b == c) = true ↔ Value.boolean b = .boolean c
          rw [beq_iff_eq, Value.boolean.injEq]
      | _ => exact ⟨nofun, nofun⟩
  | complex z =>
      cases w with
      | complex u =>
          show (z == u) = true ↔ Value.complex z = .complex u
          rw [Complex.beq_iff hv hw, Value.complex.injEq]
      | _ => exact ⟨nofun, nofun⟩
  | string s =>
      cases w with
      | string t =>
          show (s == t) = true ↔ Value.string s = .string t
          rw [beq_iff_eq, Value.string.injEq]
      | _ => exact ⟨nofun, nofun⟩
  | matrix m =>
      cases w with
      | matrix n =>
          show (m == n) = true ↔ Value.matrix m = .matrix n
          rw [Matrix.beq_iff hv hw, Value.matrix.injEq]
      | _ => exact ⟨nofun, nofun⟩
  | function f =>
      cases w with
      | function g =>
          -- functions are told apart without looking at their bodies, here as there
          show (f.name == g.name && f.params == g.params && f.stamp == g.stamp) = true
            ↔ f.name = g.name ∧ f.params = g.params ∧ f.stamp = g.stamp
          rw [Bool.and_eq_true, Bool.and_eq_true, beq_iff_eq, beq_iff_eq, beq_iff_eq, and_assoc]
      | _ => exact ⟨nofun, nofun⟩

end Value

end Formula
