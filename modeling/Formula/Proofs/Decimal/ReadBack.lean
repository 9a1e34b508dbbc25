import Formula.Decimal.Layout
import Formula.Decimal.Literal
import Formula.Proofs.Decimal.Natural
import Formula.Proofs.Decimal.Shortest
import Formula.Proofs.Text.Trim

set_option autoImplicit false

/-! # The text of a double reads back

The digits written for a double have the point in place and no power of ten, and they are read as
the number that they were written for (`readsAs_positionalText`). That number is near to the
double, so the double is the nearest one (`magnitude_of_near`). So every double but NaN is read back
from its text, infinite ones and zeros with a sign included (`read?_text`); a sign put in front of a
text without one is read as the sign of the double (`read?_signed`). Texts of different doubles are
different (`text_inj`).
-/

namespace Formula.Decimal

open Binary64 (Magnitude)

/-! ## Digits and zeros -/

theorem digitsValue_zeros (k : Nat) (cs : List Char) :
    digitsValue (List.replicate k '0' ++ cs) = digitsValue cs := by
  induction k with
  | zero => rfl
  | succ k ih => exact ih

theorem digitsValue_append_zeros (cs : List Char) (k : Nat) :
    digitsValue (cs ++ List.replicate k '0') = digitsValue cs * 10 ^ k := by
  have hfold (n : Nat) : (List.replicate k '0').foldl (fun n c => 10 * n + (c.toNat - 48)) n
      = n * 10 ^ k := by
    induction k generalizing n with
    | zero => exact (Nat.mul_one n).symm
    | succ k ih =>
        rw [List.replicate_succ, List.foldl_cons, ih, Nat.pow_succ']
        show (10 * n + 0) * 10 ^ k = _
        ring
  rw [digitsValue, List.foldl_append, hfold]
  rfl

section

variable {ds es : List Char}

theorem spanDigits_of_isDigit (h : ∀ c ∈ ds, c.isDigit = true) : spanDigits ds = (ds, []) := by
  rw [spanDigits, List.takeWhile_eq_self_iff.mpr h, List.dropWhile_eq_nil_iff.mpr h]

theorem spanDigits_point (h : ∀ c ∈ ds, c.isDigit = true) (rest : List Char) :
    spanDigits (ds ++ '.' :: rest) = (ds, '.' :: rest) := by
  rw [spanDigits, List.takeWhile_append_of_pos h, List.dropWhile_append_of_pos h,
    List.takeWhile_cons_of_neg (by decide), List.dropWhile_cons_of_neg (by decide), List.append_nil]

/-- Digits with a point between them. -/
theorem readMagnitude_point (negative : Bool) (hds : ∀ c ∈ ds, c.isDigit = true)
    (hes : ∀ c ∈ es, c.isDigit = true) (hne : ds ≠ []) :
    readMagnitude negative (ds ++ '.' :: es)
      = some ⟨negative, digitsValue (ds ++ es), 0 - Int.ofNat es.length⟩ := by
  simp only [readMagnitude, spanDigits_point hds, spanDigits_of_isDigit hes]
  exact if_neg fun h => hne h.1

theorem readMagnitude_whole (negative : Bool) (hds : ∀ c ∈ ds, c.isDigit = true) (hne : ds ≠ []) :
    readMagnitude negative ds = some ⟨negative, digitsValue ds, 0⟩ := by
  rw [readMagnitude, spanDigits_of_isDigit hds]
  dsimp only
  rw [if_neg fun h => hne h.1, List.append_nil]
  rfl

end

/-- The rational number that a literal stands for, without its sign. -/
def Literal.value (l : Literal) : ℚ := l.digits * 10 ^ l.exponent

/-- The characters are read as a number with this sign and this value. -/
def ReadsAs (negative : Bool) (cs : List Char) (q : ℚ) : Prop :=
  ∃ l, readMagnitude negative cs = some l ∧ l.negative = negative ∧ l.value = q

section layouts

variable {ds : List Char}

theorem isDigit_zeros (k : Nat) : ∀ c ∈ List.replicate k '0', c.isDigit = true := fun _ hc =>
  List.eq_of_mem_replicate hc ▸ rfl

/-- Zeros behind the digits multiply by a power of ten. -/
theorem readsAs_whole (negative : Bool) (hds : ∀ c ∈ ds, c.isDigit = true) (hne : ds ≠ [])
    (k : Nat) :
    ReadsAs negative (ds ++ List.replicate k '0') (digitsValue ds * 10 ^ (k : Int)) := by
  have hall : ∀ c ∈ ds ++ List.replicate k '0', c.isDigit = true :=
    List.forall_mem_append.mpr ⟨hds, isDigit_zeros k⟩
  refine ⟨_, readMagnitude_whole negative hall (by simp [hne]), rfl, ?_⟩
  rw [Literal.value, digitsValue_append_zeros]
  push_cast
  rw [mul_one, zpow_natCast]

/-- A point among the digits divides by a power of ten, one for each digit behind it. -/
theorem readsAs_between (negative : Bool) (hds : ∀ c ∈ ds, c.isDigit = true) {k : Nat}
    (hpos : 0 < k) (hk : k ≤ ds.length) :
    ReadsAs negative (ds.take k ++ '.' :: ds.drop k)
      (digitsValue ds * 10 ^ ((k : Int) - ds.length)) := by
  have hfirst : ∀ c ∈ ds.take k, c.isDigit = true := fun c hc => hds c (List.mem_of_mem_take hc)
  have hlast : ∀ c ∈ ds.drop k, c.isDigit = true := fun c hc => hds c (List.mem_of_mem_drop hc)
  have hne : ds.take k ≠ [] := by
    rw [ne_eq, List.take_eq_nil_iff, ← List.length_eq_zero_iff]
    omega
  have hexponent : 0 - Int.ofNat (ds.drop k).length = (k : Int) - ds.length := by
    rw [List.length_drop, Int.ofNat_eq_natCast]
    omega
  refine ⟨_, readMagnitude_point negative hfirst hlast hne, rfl, ?_⟩
  rw [Literal.value, List.take_append_drop, hexponent]

/-- Zeros between the point and the digits divide by one more power of ten each. -/
theorem readsAs_behind (negative : Bool) (hds : ∀ c ∈ ds, c.isDigit = true) (k : Nat) :
    ReadsAs negative ('0' :: '.' :: (List.replicate k '0' ++ ds))
      (digitsValue ds * 10 ^ (-((k : Int) + ds.length))) := by
  have hlast : ∀ c ∈ List.replicate k '0' ++ ds, c.isDigit = true :=
    List.forall_mem_append.mpr ⟨isDigit_zeros k, hds⟩
  have hvalue : digitsValue (List.replicate 1 '0' ++ (List.replicate k '0' ++ ds))
      = digitsValue ds :=
    (digitsValue_zeros 1 _).trans (digitsValue_zeros k ds)
  have hexponent : 0 - Int.ofNat (List.replicate k '0' ++ ds).length
      = -((k : Int) + ds.length) := by
    rw [List.length_append, List.length_replicate, Int.ofNat_eq_natCast]
    omega
  have hread := readMagnitude_point negative (isDigit_zeros 1) hlast (List.cons_ne_nil '0' [])
  refine ⟨_, hread, rfl, ?_⟩
  rw [Literal.value, hvalue, hexponent]

/-- Digits with the point in place are read as what they stand for. -/
theorem readsAs_positionalText (negative : Bool) (hds : ∀ c ∈ ds, c.isDigit = true)
    (hne : ds ≠ []) (exponent : Int) :
    ReadsAs negative (positionalText ds exponent false) (digitsValue ds * 10 ^ exponent) := by
  have hlength : 0 < ds.length := List.length_pos_iff.mpr hne
  have hnat : Int.ofNat ds.length = (ds.length : Int) := rfl
  rw [positionalText]
  split
  · next hwhole =>
      have hread := readsAs_whole negative hds hne exponent.toNat
      rw [Int.toNat_of_nonneg hwhole] at hread
      rwa [if_neg Bool.false_ne_true, List.append_nil]
  · next hplaces =>
      split
      · next hpoint =>
          have hread := readsAs_between negative hds
            (k := (Int.ofNat ds.length + exponent).toNat) (by omega) (by omega)
          rwa [show ((Int.ofNat ds.length + exponent).toNat : Int) - ds.length = exponent by omega]
            at hread
      · next hpoint =>
          have hread := readsAs_behind negative hds (-(Int.ofNat ds.length + exponent)).toNat
          rwa [show -(((-(Int.ofNat ds.length + exponent)).toNat : Int) + ds.length) = exponent
            by omega] at hread

end layouts

/-! ## The nearest double -/

/-- What is near to a positive double is between the smallest and the largest one. -/
theorem range_of_near {m : Magnitude} (hfits : m.Fits) (hpos : 0 < m.mantissa) {q : ℚ}
    (h : m.Near q) : (2 : ℚ) ^ (-1075 : Int) ≤ q ∧ q < 2 ^ (1024 : Int) := by
  have hslack := m.slack_le_half
  have hmantissa : (1 : ℚ) ≤ m.mantissa := by exact_mod_cast hpos
  -- the least mantissa is one and the least unit `2 ^ -1074`, half of which is left below
  constructor
  · calc (2 : ℚ) ^ (-1075 : Int) = 1 / 2 * 2 ^ (-1074 : Int) := by
          rw [show (-1075 : Int) = -1 + -1074 by rfl, zpow_add₀ (by norm_num), zpow_neg_one,
            one_div]
      _ ≤ 1 / 2 * 2 ^ m.exponent := by
          have hexponent : (2 : ℚ) ^ (-1074 : Int) ≤ 2 ^ m.exponent :=
            zpow_le_zpow_right₀ one_le_two hfits.exponent_ge
          gcongr
      _ ≤ (m.mantissa - m.slack) * 2 ^ m.exponent := by
          gcongr
          linarith
      _ ≤ q := h.ge
  · have hexponent := hfits.exponent_le
    exact lt_of_lt_of_le (h.lt_over hfits) (zpow_le_zpow_right₀ one_le_two (by omega))

/-- A literal lies between the powers of two that are found without computing it. -/
theorem Literal.value_bounds {l : Literal} (hdigits : l.digits ≠ 0) :
    (0 ≤ l.exponent → (2 : ℚ) ^ ((l.digits.log2 : Int) + 3 * l.exponent) ≤ l.value) ∧
      (l.exponent < 0 → l.value < 2 ^ ((l.digits.log2 : Int) + 3 * l.exponent + 1)) := by
  have htwo : (2 : ℚ) ≠ 0 := by norm_num
  -- a power of ten is compared with the same power of eight, from above or from below
  have height (k : Int) : (2 : ℚ) ^ (3 * k) = 8 ^ k := by
    rw [zpow_mul]
    norm_num
  obtain ⟨hlow, hhigh⟩ := Binary64.log2_bounds (Nat.pos_of_ne_zero hdigits)
  constructor
  · intro hwhole
    have hpower : (8 : ℚ) ^ l.exponent ≤ 10 ^ l.exponent :=
      zpow_le_zpow_left₀ hwhole (by norm_num) (by norm_num)
    rw [zpow_add₀ htwo, height, value]
    gcongr
  · intro hplaces
    have hpower : (10 : ℚ) ^ l.exponent ≤ 8 ^ l.exponent := by
      have hturned : (8 : ℚ) ^ (-l.exponent) ≤ 10 ^ (-l.exponent) :=
        zpow_le_zpow_left₀ (by omega) (by norm_num) (by norm_num)
      rwa [zpow_neg, zpow_neg, inv_le_inv₀ (by positivity) (by positivity)] at hturned
    calc l.value < 2 ^ ((l.digits.log2 : Int) + 1) * 10 ^ l.exponent := by
          rw [value]
          gcongr
      _ ≤ 2 ^ ((l.digits.log2 : Int) + 1) * 8 ^ l.exponent := by gcongr
      _ = 2 ^ ((l.digits.log2 : Int) + 3 * l.exponent + 1) := by
          rw [← height, ← zpow_add₀ htwo]
          congr 1
          omega

/-- A literal near to a positive double is read as that double. -/
theorem magnitude_of_near {m : Magnitude} (hfits : m.Fits) (hpos : 0 < m.mantissa) {l : Literal}
    (h : m.Near l.value) : l.magnitude = Float.ofBits (UInt64.ofNat m.bits) := by
  obtain ⟨hlow, hhigh⟩ := range_of_near hfits hpos h
  have hdigits : l.digits ≠ 0 := by
    intro hzero
    rw [Literal.value, hzero, Nat.cast_zero, zero_mul] at hlow
    exact absurd hlow (not_le.mpr (by positivity))
  obtain ⟨hwhole, hplaces⟩ := l.value_bounds hdigits
  have hten (k : Nat) : 0 < Nat.pow 10 k := Nat.pow_pos (by decide)
  have hdigitspos : 0 < l.digits := Nat.pos_of_ne_zero hdigits
  rw [Literal.magnitude, if_neg hdigits]
  -- the two shortcuts, to infinity and to zero, are taken only outside of the range of doubles
  by_cases hexponent : 0 ≤ l.exponent
  · rw [if_pos hexponent, if_neg]
    · rw [Binary64.ofRatio, Binary64.bitsOfRatio_of_near hfits (Nat.mul_pos hdigitspos (hten _))
        Nat.one_pos]
      rw [Nat.cast_mul, ten_pow_toNat hexponent, Nat.cast_one, div_one]
      exact h
    · intro hlarge
      have hpow : (2 : ℚ) ^ (1024 : Int) ≤ 2 ^ ((l.digits.log2 : Int) + 3 * l.exponent) :=
        zpow_le_zpow_right₀ one_le_two hlarge
      exact absurd (hpow.trans (hwhole hexponent)) (not_le.mpr hhigh)
  · rw [if_neg hexponent, if_neg]
    · rw [Binary64.ofRatio, Binary64.bitsOfRatio_of_near hfits hdigitspos (hten _)]
      rw [ten_pow_toNat (by omega), zpow_neg, div_inv_eq_mul]
      exact h
    · intro hsmall
      have hpow : (2 : ℚ) ^ ((l.digits.log2 : Int) + 3 * l.exponent + 1) ≤ 2 ^ (-1075 : Int) :=
        zpow_le_zpow_right₀ one_le_two hsmall
      exact absurd (lt_of_lt_of_le (hplaces (by omega)) hpow) (not_lt.mpr hlow)

/-- A number without a minus is read from what has the value of its digits. -/
theorem magnitude_of_finite? {x : Float} {m : Magnitude} (h : Binary64.finite? x = some m)
    (hsign : Binary64.isNegative x = false) {tie : Tie} {l : Literal}
    (hvalue : l.value = (shortest tie m).value) : l.magnitude = x := by
  have hfits := Binary64.fits_of_finite? h
  rw [← Binary64.ofBits_bits h hsign]
  rcases Nat.eq_zero_or_pos m.mantissa with hzero | hpos
  · have hdigits : l.digits = 0 := by
      rw [shortest, if_pos hzero, Literal.value, Digits.value, Nat.cast_zero, zero_mul] at hvalue
      have hpower : (10 : ℚ) ^ l.exponent ≠ 0 := by positivity
      exact_mod_cast (mul_eq_zero.mp hvalue).resolve_right hpower
    have hbits : m.bits = 0 := by
      rw [Magnitude.bits, hfits.eq_least (hzero ▸ by decide), hzero]
      rfl
    rw [Literal.magnitude, if_pos hdigits, hbits]
    rfl
  · exact magnitude_of_near hfits hpos (hvalue ▸ near_shortest tie hfits hpos)

/-! ## Texts -/

/-- The text of a number without its sign. -/
def unsignedText (x : Float) : List Char :=
  match Binary64.finite? x with
  | some m => plain.digitsText (shortest .up m)
  | none => ['i', 'n', 'f']

variable {x y : Float}

theorem unsignedText_finite {m : Magnitude} (h : Binary64.finite? x = some m) :
    unsignedText x = plain.digitsText (shortest .up m) := by
  rw [unsignedText, h]

theorem unsignedText_infinite (h : Binary64.finite? x = none) :
    unsignedText x = ['i', 'n', 'f'] := by
  rw [unsignedText, h]

/-- The text of a number is a minus, if it has one, and the text without a sign. -/
theorem toList_text (hx : x.isNaN = false) :
    (text x).toList = if Binary64.isNegative x = true then '-' :: unsignedText x
      else unsignedText x := by
  rw [text, Layout.text, unsignedText]
  cases hfinite : Binary64.finite? x with
  | some m => exact String.toList_ofList
  | none =>
      rw [hx]
      dsimp only
      rw [if_neg Bool.false_ne_true]
      cases Binary64.isNegative x with
      | true => rfl
      | false => rfl

theorem unsignedText_neg (x : Float) : unsignedText (-x) = unsignedText x := by
  rw [unsignedText, unsignedText, Binary64.finite?_neg]

/-- Digits with the point in place begin with a digit. -/
theorem exists_positionalText_eq {ds : List Char} (hds : ∀ c ∈ ds, c.isDigit = true)
    (hne : ds ≠ []) (exponent : Int) :
    ∃ c more, positionalText ds exponent false = c :: more ∧ c.isDigit = true := by
  obtain ⟨c, ds, rfl⟩ := List.exists_cons_of_ne_nil hne
  have hc := hds c List.mem_cons_self
  rw [positionalText]
  split
  · exact ⟨c, _, rfl, hc⟩
  · split
    · next hpoint =>
        obtain ⟨k, hk⟩ : ∃ k, (Int.ofNat (c :: ds).length + exponent).toNat = k + 1 :=
          Nat.exists_eq_succ_of_ne_zero (by omega)
        rw [hk]
        exact ⟨c, _, rfl, hc⟩
    · exact ⟨'0', _, rfl, rfl⟩

/-- The digits of a number that is shown have the point in place. -/
theorem exists_digitsText_eq (d : Digits) :
    ∃ exponent, plain.digitsText d = positionalText (Nat.toDigits 10 d.digits) exponent false ∧
      (d.digits : ℚ) * 10 ^ exponent = d.value := by
  have hpositional : plain.positional = fun _ => true := rfl
  have hpoint : plain.keepPoint = false := rfl
  rw [Layout.digitsText, hpositional, hpoint]
  dsimp only
  by_cases hdigits : d.digits = 0
  · refine ⟨0, if_pos hdigits, ?_⟩
    rw [Digits.value, hdigits, Nat.cast_zero, zero_mul, zero_mul]
  · exact ⟨d.exponent, if_neg hdigits, rfl⟩

theorem readsAs_digitsText (negative : Bool) (d : Digits) :
    ReadsAs negative (plain.digitsText d) d.value := by
  obtain ⟨exponent, htext, hvalue⟩ := exists_digitsText_eq d
  have hdigits := numeral_toDigits d.digits
  have hread := readsAs_positionalText negative hdigits.isDigit hdigits.ne_nil exponent
  rwa [digitsValue_toDigits, hvalue, ← htext] at hread

theorem exists_digitsText_cons (d : Digits) :
    ∃ c more, plain.digitsText d = c :: more ∧ c.isDigit = true := by
  obtain ⟨exponent, htext, -⟩ := exists_digitsText_eq d
  have hdigits := numeral_toDigits d.digits
  rw [htext]
  exact exists_positionalText_eq hdigits.isDigit hdigits.ne_nil exponent

/-- The text without a sign begins with a digit, or it is the word of infinity. -/
theorem exists_unsignedText_eq (x : Float) :
    ∃ c more, unsignedText x = c :: more ∧ (c.isDigit = true ∨ c = 'i') := by
  rw [unsignedText]
  cases Binary64.finite? x with
  | some m =>
      obtain ⟨c, more, heq, hc⟩ := exists_digitsText_cons (shortest .up m)
      exact ⟨c, more, heq, .inl hc⟩
  | none => exact ⟨'i', _, rfl, .inr rfl⟩

/-- A finite number is written with digits and a point. -/
theorem isDigit_of_mem_unsignedText {m : Magnitude} (h : Binary64.finite? x = some m) {c : Char}
    (hc : c ∈ unsignedText x) : c.isDigit = true ∨ c = '.' := by
  obtain ⟨exponent, htext, -⟩ := exists_digitsText_eq (shortest .up m)
  rw [unsignedText_finite h, htext] at hc
  rcases mem_positionalText hc with hc | rfl | rfl
  · exact .inl ((numeral_toDigits _).isDigit c hc)
  · exact .inl rfl
  · exact .inr rfl

theorem takeSign_unsignedText (x : Float) :
    takeSign (unsignedText x) = (false, unsignedText x) := by
  obtain ⟨c, more, heq, hc⟩ := exists_unsignedText_eq x
  have hne {d : Char} (hd : d.isDigit = false) (hi : d ≠ 'i') (rest : List Char) :
      unsignedText x ≠ d :: rest := by
    rw [heq]
    intro h
    cases h
    rcases hc with hc | hc
    · exact ne_of_eq_false hc hd rfl
    · exact hi hc
  rw [takeSign]
  · exact fun rest => hne (by decide) (by decide) rest
  · exact fun rest => hne (by decide) (by decide) rest

/-- A digit is no letter, and has no other case. -/
theorem toLower_of_isDigit {c : Char} (hc : c.isDigit = true) : c.toLower = c := by
  have hnine : c.val ≤ 57 := by
    rw [Char.isDigit, Bool.and_eq_true, decide_eq_true_eq, decide_eq_true_eq] at hc
    exact hc.2
  have hupper : ¬(c.val ≥ 'A'.val ∧ c.val ≤ 'Z'.val) := fun h =>
    absurd (UInt32.le_trans h.1 hnine) (by decide)
  exact dif_neg hupper

/-- What begins with a digit is none of the words for numbers. -/
theorem read?_of_isDigit {cs rest : List Char} {negative : Bool} {c : Char}
    (h : takeSign cs = (negative, c :: rest)) (hc : c.isDigit = true) :
    read? (String.ofList cs) = (readMagnitude negative (c :: rest)).map Literal.toFloat := by
  have hne {word : List Char} {d : Char} (hd : d.isDigit = false) :
      (c :: rest).map Char.toLower ≠ d :: word := by
    rw [List.map_cons, toLower_of_isDigit hc]
    intro heq
    exact ne_of_eq_false hc hd (List.cons.inj heq).1
  rw [read?, String.toList_ofList, h]
  dsimp only
  rw [if_neg, if_neg (hne (by decide))]
  exact not_or.mpr ⟨hne (by decide), hne (by decide)⟩

/-- Behind a sign the text of a number without one is read as the number with that sign. -/
theorem read?_of_takeSign (hx : x.isNaN = false) (hsign : Binary64.isNegative x = false)
    (negative : Bool) {cs : List Char} (h : takeSign cs = (negative, unsignedText x)) :
    read? (String.ofList cs) = some (if negative then -x else x) := by
  cases hfinite : Binary64.finite? x with
  | none =>
      rw [read?, String.toList_ofList, h, unsignedText_infinite hfinite,
        Binary64.eq_infinity hfinite hx hsign]
      exact if_pos (.inl rfl)
  | some m =>
      obtain ⟨l, hread, hnegative, hvalue⟩ := readsAs_digitsText negative (shortest .up m)
      obtain ⟨c, rest, heq, hc⟩ := exists_digitsText_cons (shortest .up m)
      rw [unsignedText_finite hfinite, heq] at h
      rw [read?_of_isDigit h hc, ← heq, hread, Option.map_some, Literal.toFloat, hnegative,
        magnitude_of_finite? hfinite hsign hvalue]

/-- Every number is read back from its text. -/
theorem read?_text (hx : x.isNaN = false) : read? (text x) = some x := by
  have htext := toList_text hx
  rw [← String.ofList_toList (s := text x)]
  cases hsign : Binary64.isNegative x with
  | false =>
      rw [hsign, if_neg Bool.false_ne_true] at htext
      rw [htext]
      exact read?_of_takeSign hx hsign false (takeSign_unsignedText x)
  | true =>
      rw [hsign, if_pos rfl, ← unsignedText_neg] at htext
      have hopposite : Binary64.isNegative (-x) = false := by
        rw [Binary64.isNegative_neg hx, hsign]
        rfl
      have hnan : (-x).isNaN = false := (Binary64.isNaN_neg x).trans hx
      have hread : read? (String.ofList ('-' :: unsignedText (-x))) = some (- -x) :=
        read?_of_takeSign hnan hopposite true rfl
      rw [htext, hread, Binary64.neg_neg]

/-- A sign in front of the text of a number without one is the sign of the number read. -/
theorem read?_signed (hx : x.isNaN = false) (hsign : Binary64.isNegative x = false) :
    read? (String.ofList ('+' :: (text x).toList)) = some x ∧
      read? (String.ofList ('-' :: (text x).toList)) = some (-x) := by
  rw [toList_text hx, hsign, if_neg Bool.false_ne_true]
  exact ⟨read?_of_takeSign hx hsign false rfl, read?_of_takeSign hx hsign true rfl⟩

/-- Different numbers have different texts. -/
theorem text_inj (hx : x.isNaN = false) (hy : y.isNaN = false) (h : text x = text y) : x = y := by
  have hread := read?_text hx
  rw [h, read?_text hy] at hread
  exact (Option.some.inj hread).symm

end Formula.Decimal
