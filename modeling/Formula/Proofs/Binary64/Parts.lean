import Formula.Proofs.Binary64.Whole

set_option autoImplicit false

/-! # Signs and absolute values of doubles

What `isNegative` and `finite?` tell of a double is what it is unpacked to, so the opposite of a
number has the other sign and the same absolute value. The absolute value of a finite double fits
into its fields (`Magnitude.Fits`), and the bits of a double without a minus are those of its
absolute value.
-/

open Float.Model
open Float.Model.UnpackedFloat (Sign unpackSign unpackExponent unpackMantissa)

namespace Formula.Binary64

/-! ## Unpacked -/

/-- The absolute value of an unpacked double. -/
def absolute? : UnpackedFloat → Option Magnitude
  | .zero _ => some ⟨0, -1074⟩
  | .finite _ m e _ => some ⟨m, e⟩
  | .infinity _ => none
  | .notANumber => none

/-- Has the unpacked double a minus? -/
def hasMinus : UnpackedFloat → Bool
  | .zero s => s == .negative
  | .finite s _ _ _ => s == .negative
  | .infinity s => s == .negative
  | .notANumber => false

theorem finite?_eq (x : Float) : finite? x = absolute? x.toModel.unpack := by
  let bits : BitVec Format.binary64.numBits := x.toModel.toBits.toBitVec
  -- the fields as numbers are the fields as bit vectors
  have hfield : x.toBits.toNat / leastFull % 2048 = (unpackExponent bits).toNat :=
    (toNat_unpackExponent bits).symm
  have hfraction : x.toBits.toNat % leastFull = (unpackMantissa bits).toNat :=
    (toNat_unpackMantissa bits).symm
  have hfull : (1#1 ++ unpackMantissa bits).toNat = leastFull + (unpackMantissa bits).toNat := by
    rw [BitVec.toNat_append, ← Nat.shiftLeft_add_eq_or_of_lt (unpackMantissa bits).isLt]
    rfl
  have hones : (unpackExponent bits).toNat = 2047 ↔ unpackExponent bits = -1#11 :=
    BitVec.toNat_inj (x := unpackExponent bits) (y := -1#11)
  have hzeros : (unpackExponent bits).toNat = 0 ↔ unpackExponent bits = 0#11 :=
    BitVec.toNat_inj (x := unpackExponent bits) (y := 0#11)
  have hnone : (unpackMantissa bits).toNat = 0 ↔ unpackMantissa bits = 0#52 :=
    BitVec.toNat_inj (x := unpackMantissa bits) (y := 0#52)
  show _ = absolute? (UnpackedFloat.unpack Format.binary64 bits)
  rw [finite?, UnpackedFloat.unpack]
  dsimp only
  rw [hfield, hfraction]
  -- infinities and NaN, then zeros and subnormal numbers, then the others
  by_cases hlast : unpackExponent bits = -1#11
  · rw [if_pos (hones.mpr hlast), if_pos hlast]
    split
    · rfl
    · rfl
  · rw [if_neg (hlast ∘ hones.mp), if_neg hlast]
    by_cases hleast : unpackExponent bits = 0#11
    · rw [if_pos (hzeros.mpr hleast), if_pos hleast, hzeros.mpr hleast]
      split
      · next hmantissa => rw [hnone.mpr hmantissa]; rfl
      · rfl
    · rw [if_neg (hleast ∘ hzeros.mp), if_neg hleast]
      simp only [hfull]
      rfl

/-- The sign is the first bit, so it is set from the middle of all numbers on. -/
theorem isNegative_eq_signBit (x : Float) :
    let bits : BitVec Format.binary64.numBits := x.toModel.toBits.toBitVec
    isNegative x = (Sign.ofBitVec (unpackSign bits) == .negative) := by
  intro bits
  have hsize : bits.toNat < 2 ^ 64 := bits.isLt
  have hsign := toNat_unpackSign bits
  have hge : isNegative x = decide (2 ^ 63 ≤ bits.toNat) := rfl
  have hzero : unpackSign bits = 0#1 ↔ (unpackSign bits).toNat = 0 :=
    (BitVec.toNat_inj (x := unpackSign bits) (y := 0#1)).symm
  rw [hge, Sign.ofBitVec]
  by_cases hminus : 2 ^ 63 ≤ bits.toNat
  · rw [decide_eq_true hminus, if_neg]
    · rfl
    · rw [hzero, hsign, leastFull]
      omega
  · rw [decide_eq_false hminus, if_pos]
    · rfl
    · rw [hzero, hsign, leastFull]
      omega

/-- Unpacking keeps the sign bit everywhere but in NaN. -/
theorem hasMinus_unpack (bits : BitVec Format.binary64.numBits)
    (hnan : (UnpackedFloat.unpack Format.binary64 bits).isNaN = false) :
    hasMinus (UnpackedFloat.unpack Format.binary64 bits)
      = (Sign.ofBitVec (unpackSign bits) == .negative) := by
  rw [UnpackedFloat.unpack] at hnan ⊢
  dsimp only at hnan ⊢
  split
  · next hlast =>
      rw [if_pos hlast] at hnan
      split
      · rfl
      · next hmantissa =>
          rw [if_neg hmantissa] at hnan
          cases hnan
  · split
    · split
      · rfl
      · rfl
    · rfl

theorem isNegative_eq {x : Float} (hx : x.isNaN = false) :
    isNegative x = hasMinus x.toModel.unpack :=
  (isNegative_eq_signBit x).trans (hasMinus_unpack _ hx).symm

theorem pack_unpack (x : Float.Model) : Float.Model.pack x.unpack = x := by
  obtain ⟨bits, hvalid⟩ := x
  simp only [Float.Model.pack, Float.Model.unpack, UnpackedFloat.pack_unpack_of_valid hvalid]

/-- A number is finite if it has an absolute value. -/
theorem isSome_finite? (x : Float) : (finite? x).isSome = x.isFinite := by
  rw [finite?_eq]
  change (absolute? x.toModel.unpack).isSome = x.toModel.unpack.isFinite
  cases x.toModel.unpack with
  | notANumber | infinity s | zero s | finite s m e hm => rfl

/-- What is finite is a number and no infinity. -/
theorem not_isNaN_of_isFinite {x : Float} (h : x.isFinite = true) :
    x.isNaN = false ∧ x.isInf = false := by
  change x.toModel.unpack.isFinite = true at h
  change x.toModel.unpack.isNaN = false ∧ x.toModel.unpack.isInf = false
  cases hunpack : x.toModel.unpack with
  | notANumber | infinity s =>
      rw [hunpack] at h
      cases h
  | zero s | finite s m e hm => exact ⟨rfl, rfl⟩

/-! ## Opposites -/

theorem isNaN_neg (x : Float) : (-x).isNaN = x.isNaN := by
  change (-x.toModel).unpack.isNaN = x.toModel.unpack.isNaN
  rw [unpack_neg]
  cases x.toModel.unpack with
  | notANumber | infinity s | zero s | finite s m e hm => rfl

/-- A number and its opposite have the same absolute value. -/
theorem finite?_neg (x : Float) : finite? (-x) = finite? x := by
  rw [finite?_eq, finite?_eq]
  change absolute? (-x.toModel).unpack = absolute? x.toModel.unpack
  rw [unpack_neg]
  cases x.toModel.unpack with
  | notANumber | infinity s | zero s | finite s m e hm => rfl

theorem isFinite_neg (x : Float) : (-x).isFinite = x.isFinite := by
  rw [← isSome_finite?, ← isSome_finite?, finite?_neg]

/-- One of a number and its opposite has a minus. -/
theorem isNegative_neg {x : Float} (hx : x.isNaN = false) :
    isNegative (-x) = !isNegative x := by
  rw [isNegative_eq ((isNaN_neg x).trans hx), isNegative_eq hx]
  change x.toModel.unpack.isNaN = false at hx
  change hasMinus (-x.toModel).unpack = !hasMinus x.toModel.unpack
  rw [unpack_neg]
  cases hunpack : x.toModel.unpack with
  | notANumber =>
      rw [hunpack] at hx
      cases hx
  | infinity s | zero s | finite s m e hm => cases s <;> rfl

/-- The absolute value of a number without a minus is the number, and that of another one is its
opposite. -/
theorem abs_eq {x : Float} (hx : x.isNaN = false) :
    x.abs = if isNegative x = true then -x else x := by
  rw [isNegative_eq hx]
  obtain ⟨x⟩ := x
  change x.unpack.isNaN = false at hx
  have hpack := pack_unpack x
  have habs : (Float.ofModel x).abs = Float.ofModel (Float.Model.pack x.unpack.abs) := rfl
  have hneg : -Float.ofModel x = Float.ofModel (Float.Model.pack x.unpack.neg) := rfl
  rw [habs, hneg]
  -- packing undoes unpacking, so it is enough to compare the unpacked numbers
  cases hminus : hasMinus x.unpack with
  | true =>
      have hsign : x.unpack.abs = x.unpack.neg := by
        cases hunpack : x.unpack with
        | notANumber => rfl
        | infinity s | zero s | finite s m e hm =>
            rw [hunpack] at hminus
            cases s with
            | positive => cases hminus
            | negative => rfl
      rw [if_pos rfl, hsign]
  | false =>
      have hsign : x.unpack.abs = x.unpack := by
        cases hunpack : x.unpack with
        | notANumber => rfl
        | infinity s | zero s | finite s m e hm =>
            rw [hunpack] at hminus
            cases s with
            | positive => rfl
            | negative => cases hminus
      rw [hsign, hpack, if_neg Bool.false_ne_true]

/-- A number that is no zero is below zero if it has a minus. -/
theorem lt_zero_iff {x : Float} (hx : x.isNaN = false) (hzero : (x == 0) = false) :
    x < 0 ↔ isNegative x = true := by
  have h : (0 : Float).toModel.unpack = .zero .positive := by rfl
  rw [lt_iff_compare, h, isNegative_eq hx]
  change x.toModel.unpack.isNaN = false at hx
  change (x.toModel.unpack.compare (0 : Float).toModel.unpack == some .eq) = false at hzero
  rw [h] at hzero
  cases hunpack : x.toModel.unpack with
  | notANumber =>
      rw [hunpack] at hx
      cases hx
  | zero s =>
      rw [hunpack] at hzero
      cases hzero
  | infinity s | finite s m e hm =>
      cases s with
      | positive => exact iff_of_false nofun nofun
      | negative => exact iff_of_true rfl rfl

/-- A number below zero has a minus, and its opposite has none and is not below zero. -/
theorem neg_of_lt_zero {x : Float} (hx : x.isNaN = false) (h : x < 0) :
    isNegative x = true ∧ isNegative (-x) = false ∧ ¬-x < 0 ∧ (-x == 0) = false := by
  have hzero : (x == 0) = false := by
    have h0 : (0 : Float).toModel.unpack = .zero .positive := by rfl
    rw [lt_iff_compare, h0] at h
    change (x.toModel.unpack.compare (0 : Float).toModel.unpack == some .eq) = false
    rw [h0, h]
    rfl
  have hminus : isNegative x = true := (lt_zero_iff hx hzero).mp h
  have hopposite : isNegative (-x) = false := by
    rw [isNegative_neg hx, hminus]
    rfl
  have hnonzero : (-x == 0) = false := (neg_beq_zero x).trans hzero
  refine ⟨hminus, hopposite, fun hlt => ?_, hnonzero⟩
  have hsign := (lt_zero_iff ((isNaN_neg x).trans hx) hnonzero).mp hlt
  rw [hopposite] at hsign
  cases hsign

/-! ## Absolute values -/

/-- An absolute value fits into the fields of a double. -/
structure Magnitude.Fits (m : Magnitude) : Prop where
  mantissa_lt : m.mantissa < 2 * leastFull
  exponent_ge : -1074 ≤ m.exponent
  exponent_le : m.exponent ≤ 971
  eq_least : m.mantissa < leastFull → m.exponent = -1074

/-- The bits of an absolute value that fits. -/
def Magnitude.bits (m : Magnitude) : Nat := (m.exponent + 1074).toNat * leastFull + m.mantissa

variable {x : Float} {m : Magnitude}

theorem fits_of_finite? (h : finite? x = some m) : m.Fits := by
  simp only [finite?, Int.ofNat_eq_natCast] at h
  have hfraction : x.toBits.toNat % leastFull < leastFull := Nat.mod_lt _ (by decide)
  have hfield : x.toBits.toNat / leastFull % 2048 < 2048 := Nat.mod_lt _ (by decide)
  split at h
  · cases h
  · split at h
    · cases h
      exact ⟨Nat.lt_trans hfraction (by decide), Int.le_refl _, by norm_num, fun _ => rfl⟩
    · cases h
      refine ⟨?_, ?_, ?_, ?_⟩
      all_goals dsimp only
      all_goals omega

theorem toNat_toBits_of_finite? (h : finite? x = some m) (hsign : isNegative x = false) :
    x.toBits.toNat = m.bits := by
  have hsmall : x.toBits.toNat < 2 ^ 63 := Nat.lt_of_not_le (of_decide_eq_false hsign)
  simp only [finite?, Int.ofNat_eq_natCast] at h
  split at h
  · cases h
  · split at h
    · cases h
      rw [Magnitude.bits]
      dsimp only
      rw [leastFull] at *
      omega
    · cases h
      rw [Magnitude.bits]
      dsimp only
      rw [leastFull] at *
      omega

/-- A finite double without a minus is made of the bits of its absolute value. -/
theorem ofBits_bits (h : finite? x = some m) (hsign : isNegative x = false) :
    Float.ofBits (UInt64.ofNat m.bits) = x := by
  rw [← toNat_toBits_of_finite? h hsign, UInt64.ofNat_toNat, Float.ofBits_toBits]

/-- A number without an absolute value and without a minus is infinite. -/
theorem eq_infinity (h : finite? x = none) (hx : x.isNaN = false) (hsign : isNegative x = false) :
    x = Float.ofBits 0x7ff0000000000000 := by
  rw [finite?_eq] at h
  rw [isNegative_eq hx] at hsign
  obtain ⟨x⟩ := x
  change x.unpack.isNaN = false at hx
  -- only the infinities have no absolute value, and only one of them has no minus
  have hinfinite : x.unpack = .infinity .positive := by
    cases hunpack : x.unpack with
    | notANumber =>
        rw [hunpack] at hx
        cases hx
    | zero s | finite s m e hm =>
        rw [hunpack] at h
        cases h
    | infinity s =>
        rw [hunpack] at hsign
        cases s with
        | positive => rfl
        | negative => cases hsign
  calc Float.ofModel x = Float.ofModel (Float.Model.pack x.unpack) := by rw [pack_unpack]
    _ = Float.ofModel (Float.Model.pack (.infinity .positive)) := by rw [hinfinite]
    _ = Float.ofBits 0x7ff0000000000000 := by rfl

end Formula.Binary64
