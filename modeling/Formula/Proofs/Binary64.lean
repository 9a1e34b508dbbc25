import Mathlib
import Formula.Scalar

set_option autoImplicit false

/-! # Signs and zeros of doubles

A double is packed from a sign, an exponent field and a mantissa field. Negation turns the sign
and nothing else, so a number and its opposite are zero together, and the opposite of the opposite
is the number itself.
-/

open Float.Model
open Float.Model.UnpackedFloat (Sign packComponents unpackSign unpackExponent unpackMantissa
  unpackSign_packComponents unpackExponent_packComponents unpackMantissa_packComponents)

namespace Formula.Binary64

/-- Of two numbers that differ in their signs only, one is the opposite of the other. -/
theorem unpack_packComponents_neg {spec : Format} (s : Sign) (e : BitVec spec.exponentBits)
    (m : BitVec spec.mantissaBitsWithoutImplicit) :
    UnpackedFloat.unpack spec (packComponents spec (-s) e m)
      = (UnpackedFloat.unpack spec (packComponents spec s e m)).neg := by
  simp only [UnpackedFloat.unpack, unpackSign_packComponents, unpackExponent_packComponents,
    unpackMantissa_packComponents, Sign.ofBitVec_toBitVec]
  split
  · split
    · rfl
    · rfl
  · split
    · split
      · rfl
      · rfl
    · rfl

/-- Packing keeps a number that was unpacked. -/
theorem unpack_pack_unpack (b : BitVec Format.binary64.numBits) :
    UnpackedFloat.unpack Format.binary64
        (UnpackedFloat.pack Format.binary64 (UnpackedFloat.unpack Format.binary64 b))
      = UnpackedFloat.unpack Format.binary64 b := by
  rw [UnpackedFloat.pack_unpack b]
  split
  · next hnan =>
      -- every NaN is packed as one of them, and unpacked as none of the numbers
      obtain ⟨hexponent, hmantissa⟩ := of_decide_eq_true hnan
      rw [UnpackedFloat.unpack_packedNaN, UnpackedFloat.unpack]
      simp only [hexponent, if_true, if_neg hmantissa]
  · rfl

/-- Negation turns the sign of the number unpacked. -/
theorem unpack_neg (x : Float.Model) : (-x).unpack = x.unpack.neg := by
  let bits : BitVec Format.binary64.numBits := x.toBits.toBitVec
  -- the opposite is unpacked from the bits of `x` with the sign turned
  have hflip := unpack_packComponents_neg (Sign.ofBitVec (unpackSign bits)) (unpackExponent bits)
    (unpackMantissa bits)
  rw [UnpackedFloat.packComponents_unpackSign_unpackExponent_unpackMantissa] at hflip
  show UnpackedFloat.unpack Format.binary64
    (UnpackedFloat.pack Format.binary64 (UnpackedFloat.unpack Format.binary64 bits).neg) = _
  rw [← hflip, unpack_pack_unpack, hflip]
  rfl

/-- A number and its opposite are zero together. -/
theorem neg_beq_zero (x : Float) : (-x == 0) = (x == 0) := by
  change (-x.toModel).unpack.beq (.zero .positive) = x.toModel.unpack.beq (.zero .positive)
  rw [unpack_neg]
  cases x.toModel.unpack with
  | notANumber => rfl
  | infinity s => cases s <;> rfl
  | zero s => cases s <;> rfl
  | finite s m e hm => cases s <;> rfl

/-- The opposite of the opposite is the number itself. -/
theorem neg_neg (x : Float) : - -x = x := by
  obtain ⟨x⟩ := x
  refine congrArg Float.ofModel ?_
  have hneg : x.unpack.neg.neg = x.unpack := by
    cases x.unpack with
    | notANumber => rfl
    | infinity s => cases s <;> rfl
    | zero s => cases s <;> rfl
    | finite s m e hm => cases s <;> rfl
  have hpack : Float.Model.pack x.unpack = x := by
    obtain ⟨bits, hvalid⟩ := x
    simp only [Float.Model.pack, Float.Model.unpack, UnpackedFloat.pack_unpack_of_valid hvalid]
  calc - -x = Float.Model.pack (-x).unpack.neg := rfl
    _ = x := by rw [unpack_neg, hneg, hpack]

/-- Zero is equal to itself. -/
theorem zero_beq_zero : ((0 : Float) == 0) = true := by decide

/-- A finite number is equal to itself. -/
theorem beq_self_of_isFinite {x : Float} (h : x.isFinite = true) : (x == x) = true := by
  change x.toModel.unpack.isFinite = true at h
  change (x.toModel.unpack.compare x.toModel.unpack == some .eq) = true
  -- a finite number is compared by its exponent and then by its mantissa, and both are its own
  have hsame (m : Nat) (e : Int) : (compare e e).then (compare m m) = .eq := by
    rw [compare_eq_iff_eq.mpr rfl, compare_eq_iff_eq.mpr rfl]
    rfl
  cases hx : x.toModel.unpack with
  | notANumber =>
      rw [hx] at h
      exact nomatch h
  | infinity s =>
      rw [hx] at h
      exact nomatch h
  | zero s => rfl
  | finite s m e hm =>
      cases s with
      | positive => rw [UnpackedFloat.compare, hsame]; rfl
      | negative => rw [UnpackedFloat.compare, hsame]; rfl

end Formula.Binary64

namespace Formula.Scalar

theorem isZero_zero : zero.isZero = true := Binary64.zero_beq_zero

/-- A number and its conjugate are zero together. -/
theorem isZero_conj (x : Scalar) : x.conj.isZero = x.isZero := by
  cases x with
  | real x => rfl
  | complex z =>
      show (z.re == 0 && -z.im == 0) = (z.re == 0 && z.im == 0)
      rw [Binary64.neg_beq_zero]

end Formula.Scalar
