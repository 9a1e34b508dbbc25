import Formula.Proofs.Binary64.Whole

set_option autoImplicit false

/-! # Operands exchanged

Sums and products of doubles do not depend on the order of their operands, and two doubles are
compared the other way round if they are exchanged. Products of complex numbers and of scalars
are put together from these operations, so they do not depend on the order either, down to the
last bit.
-/

open Float.Model
open Float.Model.UnpackedFloat (Sign)

namespace Formula

namespace Binary64

/-! ## Sums and products -/

theorem sign_mul_comm (s t : Sign) : s * t = t * s := by
  cases s <;> cases t <;> rfl

/-- What asks whether two signs are the same may ask for either of them. -/
theorem ite_sign_comm (s t : Sign) (f : Sign → UnpackedFloat) (x : UnpackedFloat) :
    (if s == t then f s else x) = if t == s then f t else x := by
  cases s <;> cases t <;> rfl

theorem unpacked_mul_comm (spec : Format) (x y : UnpackedFloat) :
    UnpackedFloat.mul spec x y = UnpackedFloat.mul spec y x := by
  cases x <;> cases y <;> simp only [UnpackedFloat.mul, sign_mul_comm, Nat.mul_comm, Int.add_comm]

theorem unpacked_add_comm (spec : Format) (x y : UnpackedFloat) :
    UnpackedFloat.add spec x y = UnpackedFloat.add spec y x := by
  cases x with
  | notANumber => cases y <;> rfl
  | infinity s =>
      cases y with
      | infinity t => exact ite_sign_comm s t .infinity .notANumber
      | notANumber | zero | finite => rfl
  | zero s =>
      cases y with
      | zero t => exact ite_sign_comm s t .zero (.zero .positive)
      | notANumber | infinity | finite => rfl
  | finite s m e hm =>
      cases y with
      | finite t n k hn => simp only [UnpackedFloat.add, Int.add_comm, Int.min_comm]
      | notANumber | infinity | zero => rfl

theorem mul_comm (x y : Float) : x * y = y * x :=
  congrArg (fun z => Float.ofModel (.pack z)) (unpacked_mul_comm _ _ _)

theorem add_comm (x y : Float) : x + y = y + x :=
  congrArg (fun z => Float.ofModel (.pack z)) (unpacked_add_comm _ _ _)

/-! ## Comparisons -/

/-- Exchanged numbers are compared the other way round, or not at all either. -/
theorem compare_swap (x y : UnpackedFloat) : (x.compare y).map Ordering.swap = y.compare x := by
  -- two finite numbers of one sign are compared by exponent and mantissa in turn
  have hsize (m n : Nat) (e k : Int) :
      ((compare e k).then (compare m n)).swap = (compare k e).then (compare n m) := by
    rw [Ordering.swap_then, ← Std.OrientedOrd.eq_swap, ← Std.OrientedOrd.eq_swap]
  cases x with
  | notANumber => cases y <;> rfl
  | infinity s =>
      cases s <;> cases y with
      -- below zero the larger size is the smaller number, so the operands are exchanged beforehand
      | infinity t | finite t => cases t <;> rfl
      | notANumber | zero => rfl
  | zero s =>
      cases y with
      | infinity t | finite t => cases t <;> rfl
      | notANumber | zero => rfl
  | finite s m e hm =>
      cases s <;> cases y with
      | notANumber | zero => rfl
      | infinity t => cases t <;> rfl
      | finite t n k hn =>
          cases t <;>
            simp only [UnpackedFloat.compare, Option.map_some, hsize, Ordering.swap_lt,
              Ordering.swap_gt]

theorem beq_iff_compare (x y : Float) :
    (x == y) = true ↔ x.toModel.unpack.compare y.toModel.unpack = some .eq := by
  show (x.toModel.unpack.compare y.toModel.unpack == some .eq) = true ↔ _
  exact beq_iff_eq

theorem gt_iff_compare (x y : Float) :
    y < x ↔ x.toModel.unpack.compare y.toModel.unpack = some .gt := by
  rw [lt_iff_compare, ← compare_swap]
  cases x.toModel.unpack.compare y.toModel.unpack with
  | none => exact iff_of_false nofun nofun
  | some o => cases o <;> simp

theorem beq_comm (x y : Float) : (x == y) = (y == x) := by
  rw [Bool.eq_iff_iff, beq_iff_compare, beq_iff_compare, ← compare_swap]
  cases y.toModel.unpack.compare x.toModel.unpack with
  | none => exact iff_of_false nofun nofun
  | some o => cases o <;> simp

end Binary64

/-! ## Complex numbers and scalars -/

namespace Complex

theorem mul_comm (z w : Complex) : z * w = w * z := by
  have him : z.re * w.im + z.im * w.re = w.re * z.im + w.im * z.re := by
    rw [Binary64.mul_comm z.re, Binary64.mul_comm z.im, Binary64.add_comm]
  show Complex.mk (z.re * w.re - z.im * w.im) (z.re * w.im + z.im * w.re)
    = Complex.mk (w.re * z.re - w.im * z.im) (w.re * z.im + w.im * z.re)
  rw [him, Binary64.mul_comm z.re w.re, Binary64.mul_comm z.im w.im]

theorem beq_comm (z w : Complex) : (z == w) = (w == z) := by
  show (z.re == w.re && z.im == w.im) = (w.re == z.re && w.im == z.im)
  rw [Binary64.beq_comm z.re, Binary64.beq_comm z.im]

end Complex

theorem Scalar.mul_comm (x y : Scalar) : x * y = y * x := by
  cases x with
  | real a =>
      cases y with
      | real b => exact congrArg Scalar.real (Binary64.mul_comm a b)
      | complex w => exact congrArg Scalar.complex (Complex.mul_comm (.ofReal a) w)
  | complex z =>
      cases y with
      | real b => exact congrArg Scalar.complex (Complex.mul_comm z (.ofReal b))
      | complex w => exact congrArg Scalar.complex (Complex.mul_comm z w)

end Formula
