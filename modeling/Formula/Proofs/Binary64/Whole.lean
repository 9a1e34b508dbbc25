import Formula.Proofs.Binary64
import Formula.Word

set_option autoImplicit false

/-! # Whole numbers as doubles

A natural number below `2 ^ 52` is a double exactly: its mantissa of 53 bits is the number moved to
the left, and its exponent says how far. Doubles of one sign are ordered by their exponents, then by
their mantissas, so what is below a whole number is below any larger one, and is cut to a smaller
count.
-/

open Float.Model
open Float.Model.UnpackedFloat (Sign unpackSign unpackExponent unpackMantissa isNaNBits)

namespace Formula.Binary64

/-! ## Fields -/

theorem leastFull_eq : leastFull = 2 ^ 52 := by decide

/-- The mantissa of 53 bits of a natural number below `2 ^ 52`. -/
def fullMantissa (n : Nat) : Nat := n * 2 ^ (52 - n.log2)

theorem fullMantissa_bounds {n : Nat} (hpos : 0 < n) (hsmall : n < leastFull) :
    leastFull ≤ fullMantissa n ∧ fullMantissa n < 2 * leastFull ∧ n.log2 < 52 := by
  have hlog : n.log2 < 52 := (Nat.log2_lt (Nat.ne_of_gt hpos)).mpr (leastFull_eq ▸ hsmall)
  have hlow : 2 ^ n.log2 ≤ n := Nat.log2_self_le (Nat.ne_of_gt hpos)
  have hhigh : n < 2 ^ (n.log2 + 1) := Nat.lt_log2_self
  have hsplit : 2 ^ n.log2 * 2 ^ (52 - n.log2) = leastFull := by
    rw [← pow_add, leastFull_eq]
    congr 1
    omega
  refine ⟨?_, ?_, hlog⟩
  · rw [fullMantissa, ← hsplit]
    exact Nat.mul_le_mul_right _ hlow
  · rw [fullMantissa, ← hsplit, ← mul_assoc, ← pow_succ']
    exact Nat.mul_lt_mul_of_pos_right hhigh (by positivity)

theorem divNearest_one (n : Nat) : divNearest n 1 = n := by
  simp [divNearest, Nat.mod_one]

theorem unitExponent_ofNat {n : Nat} (hpos : 0 < n) (hsmall : n < leastFull) :
    unitExponent n 1 = n.log2 - 52 := by
  obtain ⟨hlow, -, hlog⟩ := fullMantissa_bounds hpos hsmall
  have hone : Nat.log2 1 = 0 := by decide
  have hexponent : (Int.ofNat n.log2 - Int.ofNat (Nat.log2 1)) - 52 = n.log2 - 52 := by
    simp [hone]
  have hneg : ¬(0 : Int) ≤ n.log2 - 52 := by omega
  have hshift : (-((n.log2 : Int) - 52)).toNat = 52 - n.log2 := by omega
  rw [unitExponent, hexponent, if_neg hneg, hshift, Nat.div_one, Nat.shiftLeft_eq, ← fullMantissa,
    if_neg (Nat.not_lt.mpr hlow)]
  omega

theorem bitsOfRatio_one {n : Nat} (hpos : 0 < n) (hsmall : n < leastFull) :
    bitsOfRatio n 1 = (n.log2 + 1022) * leastFull + fullMantissa n := by
  obtain ⟨hlow, hhigh, hlog⟩ := fullMantissa_bounds hpos hsmall
  have hneg : ¬(0 : Int) ≤ n.log2 - 52 := by omega
  have hshift : (-((n.log2 : Int) - 52)).toNat = 52 - n.log2 := by omega
  have hfield : ((n.log2 : Int) - 52 + 1074).toNat = n.log2 + 1022 := by omega
  rw [bitsOfRatio, if_neg (Nat.ne_of_gt hpos)]
  dsimp only
  rw [unitExponent_ofNat hpos hsmall, units, if_neg hneg, hshift, divNearest_one, Nat.shiftLeft_eq,
    ← fullMantissa, if_neg (Nat.not_lt.mpr hlow), hfield]
  refine Nat.min_eq_left ?_
  rw [leastFull] at *
  omega

/-- The fields of a double are digits of its bits. -/
theorem toNat_unpackExponent (b : BitVec Format.binary64.numBits) :
    (unpackExponent b).toNat = b.toNat / leastFull % 2048 := by
  rw [UnpackedFloat.unpackExponent_def, BitVec.extractLsb'_toNat, Nat.shiftRight_eq_div_pow]
  rfl

theorem toNat_unpackMantissa (b : BitVec Format.binary64.numBits) :
    (unpackMantissa b).toNat = b.toNat % leastFull := by
  rw [UnpackedFloat.unpackMantissa_def, BitVec.extractLsb'_toNat, Nat.shiftRight_zero]
  rfl

theorem toNat_unpackSign (b : BitVec Format.binary64.numBits) :
    (unpackSign b).toNat = b.toNat / (2048 * leastFull) % 2 := by
  rw [UnpackedFloat.unpackSign_def, BitVec.extractLsb'_toNat, Nat.shiftRight_eq_div_pow]
  rfl

/-- The fields of bits without a minus. -/
theorem unpack_fields {b : BitVec Format.binary64.numBits} {field fraction : Nat}
    (hb : b.toNat = field * leastFull + fraction) (hfield : field < 2048)
    (hfraction : fraction < leastFull) :
    (unpackExponent b).toNat = field ∧ (unpackMantissa b).toNat = fraction ∧
      unpackSign b = 0#1 := by
  refine ⟨?_, ?_, BitVec.eq_of_toNat_eq ?_⟩
  · rw [toNat_unpackExponent, hb, leastFull] at *
    omega
  · rw [toNat_unpackMantissa, hb, leastFull] at *
    omega
  · rw [toNat_unpackSign, hb, leastFull] at *
    show _ = 0
    omega

/-- Bits that are neither the least nor the last ones are those of a full mantissa. -/
theorem unpack_normal {b : BitVec Format.binary64.numBits} {field fraction : Nat}
    (hb : b.toNat = field * leastFull + fraction) (hpos : 0 < field) (hfield : field < 2047)
    (hfraction : fraction < leastFull) :
    ∃ hm, UnpackedFloat.unpack Format.binary64 b
      = .finite .positive (leastFull + fraction) (field - 1075) hm := by
  obtain ⟨hexponent, hmantissa, hsign⟩ := unpack_fields hb (Nat.lt_succ_of_lt hfield) hfraction
  -- the exponent field is not one of the two that stand for something else
  have hones : unpackExponent b ≠ -1#11 := by
    intro h
    rw [h] at hexponent
    have hlast : (-1#11 : BitVec 11).toNat = 2047 := by decide
    exact absurd (hlast.symm.trans hexponent) (Nat.ne_of_gt hfield)
  have hzeros : unpackExponent b ≠ 0#11 := by
    intro h
    rw [h] at hexponent
    exact absurd hexponent (Nat.ne_of_lt hpos)
  have hfull : (1#1 ++ unpackMantissa b).toNat = leastFull + fraction := by
    rw [BitVec.toNat_append, ← Nat.shiftLeft_add_eq_or_of_lt (unpackMantissa b).isLt, hmantissa]
    rfl
  refine ⟨by rw [leastFull]; omega, ?_⟩
  have hbias : (field : Int) - (Format.binary64.exponentBias
      + Format.binary64.mantissaBitsWithoutImplicit) = field - 1075 := by rfl
  rw [UnpackedFloat.unpack]
  dsimp only
  rw [if_neg hones, if_neg hzeros]
  simp only [hfull, hexponent, hbias, hsign]
  rfl

/-- A double made of bits has the fields of the bits, unless it is no number. -/
theorem unpack_ofBits {bits : UInt64}
    (h : UnpackedFloat.unpack Format.binary64 bits.toBitVec ≠ .notANumber) :
    (Float.ofBits bits).toModel.unpack = UnpackedFloat.unpack Format.binary64 bits.toBitVec := by
  show UnpackedFloat.unpack Format.binary64 (UnpackedFloat.pack Format.binary64
    (UnpackedFloat.unpack Format.binary64 bits.toBitVec)) = _
  rw [UnpackedFloat.pack_unpack, if_neg]
  intro hnan
  rw [isNaNBits, decide_eq_true_eq] at hnan
  refine h ?_
  rw [UnpackedFloat.unpack]
  dsimp only
  rw [if_pos hnan.1, if_neg hnan.2]

/-- A natural number is held exactly. -/
theorem unpack_ofNat {n : Nat} (hpos : 0 < n) (hsmall : n < leastFull) :
    ∃ hm, (ofNat n).toModel.unpack = .finite .positive (fullMantissa n) (n.log2 - 52) hm := by
  obtain ⟨hlow, hhigh, hlog⟩ := fullMantissa_bounds hpos hsmall
  -- the bits are in two fields: the magnitude, and the mantissa without its leading one
  have hbits : (UInt64.ofNat (bitsOfRatio n 1)).toBitVec.toNat
      = (n.log2 + 1023) * leastFull + (fullMantissa n - leastFull) := by
    rw [bitsOfRatio_one hpos hsmall]
    show (UInt64.ofNat _).toNat = _
    rw [UInt64.toNat_ofNat', Nat.mod_eq_of_lt]
    all_goals rw [leastFull] at *; omega
  obtain ⟨hm, hunpack⟩ := unpack_normal hbits (by omega) (by omega) (by omega)
  have hexponent : ((n.log2 + 1023 : Nat) : Int) - 1075 = n.log2 - 52 := by omega
  have hmantissa : leastFull + (fullMantissa n - leastFull) = fullMantissa n := by omega
  refine ⟨Nat.lt_of_lt_of_le (by decide) hlow, ?_⟩
  rw [ofNat, ofRatio, unpack_ofBits]
  · rw [hunpack]
    simp only [hexponent, hmantissa]
  · rw [hunpack]
    exact nofun

/-! ## Order -/

theorem lt_iff_compare (x y : Float) :
    x < y ↔ x.toModel.unpack.compare y.toModel.unpack = some .lt := by
  show decide (x.toModel < y.toModel) = true ↔ _
  rw [decide_eq_true_iff]
  show (x.toModel.unpack.compare y.toModel.unpack == some .lt) = true ↔ _
  exact beq_iff_eq

/-- Positive numbers are compared by their exponents, then by their mantissas. -/
theorem compare_positive {m m' : Nat} {e e' : Int} {hm : 0 < m} {hm' : 0 < m'} :
    (UnpackedFloat.finite .positive m e hm).compare (.finite .positive m' e' hm') = some .lt
      ↔ e < e' ∨ e = e' ∧ m < m' := by
  rw [UnpackedFloat.compare, Option.some.injEq, Ordering.then_eq_lt, compare_lt_iff_lt,
    compare_eq_iff_eq, compare_lt_iff_lt]

theorem fullMantissa_le {a b : Nat} (hab : a ≤ b) (hlog : a.log2 = b.log2) :
    fullMantissa a ≤ fullMantissa b := by
  rw [fullMantissa, fullMantissa, hlog]
  exact Nat.mul_le_mul_right _ hab

/-- Zeros and negative numbers are under a positive natural number; positive numbers are by their
exponents, then by their mantissas. -/
def Under (n : Nat) : UnpackedFloat → Prop
  | .notANumber => False
  | .infinity s => s = .negative
  | .zero _ => True
  | .finite s m e _ =>
      s = .negative ∨ e < (n.log2 : Int) - 52 ∨ e = (n.log2 : Int) - 52 ∧ m < fullMantissa n

theorem lt_ofNat_iff {x : Float} {n : Nat} (hpos : 0 < n) (hsmall : n < leastFull) :
    x < ofNat n ↔ Under n x.toModel.unpack := by
  obtain ⟨hm, hunpack⟩ := unpack_ofNat hpos hsmall
  rw [lt_iff_compare, hunpack]
  cases x.toModel.unpack with
  | notANumber => exact ⟨nofun, nofun⟩
  | infinity s =>
      cases s with
      | positive => exact ⟨nofun, nofun⟩
      | negative => exact ⟨fun _ => rfl, fun _ => rfl⟩
  | zero s => exact ⟨fun _ => trivial, fun _ => rfl⟩
  | finite s m e hm =>
      cases s with
      | positive => exact compare_positive.trans (or_iff_right nofun).symm
      | negative => exact ⟨fun _ => .inl rfl, fun _ => rfl⟩

theorem Under.of_le {a b : Nat} {x : UnpackedFloat} (hpos : 0 < a) (hab : a ≤ b)
    (h : Under a x) : Under b x := by
  cases x with
  | notANumber => exact h
  | infinity s => exact h
  | zero s => exact trivial
  | finite s m e hm =>
      rcases h with hs | h
      · exact .inl hs
      · right
        have hlog : a.log2 ≤ b.log2 := (Nat.le_log2 (by omega)).mpr
          (Nat.le_trans (Nat.log2_self_le (Nat.ne_of_gt hpos)) hab)
        rcases Nat.lt_or_eq_of_le hlog with hlog | hlog
        · left
          omega
        · have hmantissa := fullMantissa_le hab hlog
          omega

/-- What is below zero is under any positive number. -/
theorem Under.of_neg {x : Float} (n : Nat) (h : x < 0) : Under n x.toModel.unpack := by
  have hzero : (0 : Float).toModel.unpack = .zero .positive := by rfl
  rw [lt_iff_compare, hzero] at h
  cases hx : x.toModel.unpack with
  | notANumber | zero s =>
      rw [hx] at h
      exact nomatch h
  | infinity s =>
      rw [hx] at h
      cases s with
      | positive => exact nomatch h
      | negative => rfl
  | finite s m e hm =>
      rw [hx] at h
      cases s with
      | positive => exact nomatch h
      | negative => exact .inl rfl

/-- What is below a whole number is below any larger one. -/
theorem lt_ofNat_of_le {x : Float} {a b : Nat} (hab : a ≤ b) (hb : b < leastFull)
    (h : x < ofNat a) : x < ofNat b := by
  rcases Nat.eq_zero_or_pos a with rfl | hapos
  · rcases Nat.eq_zero_or_pos b with rfl | hbpos
    · exact h
    · exact (lt_ofNat_iff hbpos hb).mpr (.of_neg b h)
  · rw [lt_ofNat_iff hapos (Nat.lt_of_le_of_lt hab hb)] at h
    exact (lt_ofNat_iff (Nat.lt_of_lt_of_le hapos hab) hb).mpr (h.of_le hapos hab)

/-! ## Counts -/

theorem mantissa_shiftRight (em : UnpackedFloat.ExtendedMantissa) (k : Nat) :
    (em >>> k).mantissa = em.mantissa / 2 ^ k := by
  show (k.repeat UnpackedFloat.ExtendedMantissa.shiftRightOne em).mantissa = _
  induction k with
  | zero => rw [Nat.repeat, pow_zero, Nat.div_one]
  | succ k ih =>
      rw [Nat.repeat, UnpackedFloat.ExtendedMantissa.shiftRightOne, ih, Nat.div_div_eq_div_mul,
        pow_succ]

/-- A positive number below one unit of its mantissa is cut by dividing the mantissa. -/
theorem roundToInt_positive (m : Nat) {e : Int} (he : e ≤ 0) :
    UnpackedFloat.roundToInt .positive m e = (m / 2 ^ (-e).toNat : Nat) := by
  have hnone : (e - 0).toNat = 0 := by omega
  have hkept : 0 - (e - ((0 : Nat) : Int)) = -e := by omega
  rw [UnpackedFloat.roundToInt, UnpackedFloat.decreaseExponent]
  dsimp only
  rw [hnone, UnpackedFloat.shiftToExponent, hkept, Nat.shiftLeft_zero]
  dsimp only
  rw [mantissa_shiftRight]
  rfl

/-- The mantissa of a double has 53 bits at most. -/
theorem mantissa_lt {b : BitVec Format.binary64.numBits} {s : Sign} {m : Nat} {e : Int}
    {hm : 0 < m} (h : UnpackedFloat.unpack Format.binary64 b = .finite s m e hm) :
    m < 2 * leastFull := by
  rw [UnpackedFloat.unpack] at h
  dsimp only at h
  have hfraction : (unpackMantissa b).toNat < leastFull := (unpackMantissa b).isLt
  have hfull : (1#1 ++ unpackMantissa b).toNat < 2 * leastFull := (1#1 ++ unpackMantissa b).isLt
  split at h
  · split at h <;> exact nomatch h
  · split at h
    · split at h
      · exact nomatch h
      · cases h
        omega
    · cases h
      exact hfull

/-- Cutting to a count clamps at the last count. -/
theorem ofFloat_le (x : Float) :
    Word.ofFloat x ≤ (x.toModel.unpack.toInt 0 (UInt64.size - 1)).toNat := by
  show (UInt64.ofNatClamp _).toNat ≤ _
  rcases Nat.lt_or_ge (x.toModel.unpack.toInt 0 (UInt64.size - 1)).toNat UInt64.size with h | h
  · rw [UInt64.toNat_ofNatClamp_of_lt h]
  · rw [UInt64.toNat_ofNatClamp_of_le h]
    omega

/-- A positive number under a natural number is cut below it. -/
theorem cut_lt {m n : Nat} {e : Int} {hm : 0 < m} (hpos : 0 < n) (hsmall : n < leastFull)
    (hbound : m < 2 * leastFull) (hunder : Under n (.finite .positive m e hm)) :
    (UnpackedFloat.roundToInt .positive m e).toNat < n := by
  obtain ⟨-, -, hlog⟩ := fullMantissa_bounds hpos hsmall
  have hsplit : e < (n.log2 : Int) - 52 ∨ e = (n.log2 : Int) - 52 ∧ m < fullMantissa n :=
    hunder.resolve_left nofun
  rw [roundToInt_positive m (by omega), Int.toNat_natCast, Nat.div_lt_iff_lt_mul (by positivity)]
  -- either the exponent is smaller, and then any mantissa does, or the mantissa is
  rcases hsplit with hless | ⟨rfl, hmantissa⟩
  · have hpower : 2 ^ n.log2 * 2 ^ (53 - n.log2) = 2 * leastFull := by
      rw [← pow_add, leastFull_eq, ← pow_succ']
      congr 1
      omega
    calc m < 2 * leastFull := hbound
      _ = 2 ^ n.log2 * 2 ^ (53 - n.log2) := hpower.symm
      _ ≤ n * 2 ^ (53 - n.log2) :=
        Nat.mul_le_mul_right _ (Nat.log2_self_le (Nat.ne_of_gt hpos))
      _ ≤ n * 2 ^ (-e).toNat :=
        Nat.mul_le_mul_left _ (Nat.pow_le_pow_right (by decide) (by omega))
  · have hexponent : (-((n.log2 : Int) - 52)).toNat = 52 - n.log2 := by omega
    rw [hexponent]
    exact hmantissa

/-- A number that is not negative and below a whole number is cut to a smaller count. -/
theorem ofFloat_lt {x : Float} {n : Nat} (hn : n < leastFull) (hpos : ¬x < 0)
    (h : x < ofNat n) : Word.ofFloat x < n := by
  refine Nat.lt_of_le_of_lt (ofFloat_le x) ?_
  have hzero : (0 : Float).toModel.unpack = .zero .positive := by rfl
  rcases Nat.eq_zero_or_pos n with rfl | hnpos
  · exact absurd h hpos
  rw [lt_ofNat_iff hnpos hn] at h
  rw [lt_iff_compare, hzero] at hpos
  -- what is below a finite number and not below zero is a zero or a positive finite number
  cases hx : x.toModel.unpack with
  | notANumber =>
      rw [hx] at h
      exact h.elim
  | zero s => exact hnpos
  | infinity s =>
      rw [hx] at h hpos
      cases h
      exact absurd rfl hpos
  | finite s m e hm =>
      rw [hx] at h hpos
      cases s with
      | negative => exact absurd rfl hpos
      | positive => exact cut_lt hnpos hn (mantissa_lt hx) h

end Formula.Binary64
