import Formula.Proofs.Binary64.Parts

set_option autoImplicit false

/-! # The double nearest to a fraction

Every rational number near a double is rounded to it (`bitsOfRatio_of_near`): within half a unit of
the mantissa, except that below a power of two the units of the next smaller doubles count, which
are half as large. At the ends the even mantissa is chosen.

A fraction is rounded in the units that give it a mantissa of 53 bits (`unitExponent_eq`). Those are
the units of the double, unless the fraction lies below a power of two; then its mantissa in the
smaller units is rounded up to `2 ^ 53`, and the bits are the same.
-/

namespace Formula.Binary64

/-! ## Quotients -/

/-- A natural number is the one nearest to `q`, or one of two and even. -/
structure Rounds (n : Nat) (q : ℚ) : Prop where
  ge : (n : ℚ) - 1 / 2 ≤ q
  le : q ≤ n + 1 / 2
  odd : n % 2 = 1 → (n : ℚ) - 1 / 2 < q ∧ q < n + 1 / 2

variable {num den : Nat} {e : Int}

theorem divNearest_eq {n : Nat} (hge : 2 * n * den ≤ 2 * num + den)
    (hle : 2 * num ≤ (2 * n + 1) * den)
    (hodd : n % 2 = 1 → 2 * n * den < 2 * num + den ∧ 2 * num < (2 * n + 1) * den)
    (hden : 0 < den) : divNearest num den = n := by
  have hsplit : den * (num / den) + num % den = num := Nat.div_add_mod num den
  have hrest : num % den < den := Nat.mod_lt _ hden
  rw [divNearest]
  generalize num / den = q at *
  generalize num % den = r at *
  subst hsplit
  -- the number is the quotient or the next one
  have hupper : n < q + 2 := by
    by_contra h
    have := Nat.mul_le_mul_right (2 * den) (Nat.not_lt.mp h)
    nlinarith
  have hlower : q < n + 1 := by
    by_contra h
    have := Nat.mul_le_mul_right (2 * den) (Nat.not_lt.mp h)
    nlinarith
  obtain rfl | rfl : n = q ∨ n = q + 1 := by omega
  · have hhalf : 2 * r ≤ den := by nlinarith
    have hstrict : n % 2 = 1 → 2 * r < den := fun h => by nlinarith [(hodd h).2]
    split
    · rfl
    · split
      · omega
      · omega
  · have hhalf : den ≤ 2 * r := by nlinarith
    have hstrict : (q + 1) % 2 = 1 → den < 2 * r := fun h => by nlinarith [(hodd h).1]
    split
    · omega
    · split
      · omega
      · rfl

theorem divNearest_of_rounds {n : Nat} (hden : 0 < den) (h : Rounds n (num / den)) :
    divNearest num den = n := by
  have hpos : (0 : ℚ) < den := Nat.cast_pos.mpr hden
  -- the four bounds on the quotient, each multiplied out to whole numbers
  have hge : (2 * n * den : ℚ) ≤ 2 * num + den ↔ (n : ℚ) - 1 / 2 ≤ num / den := by
    rw [le_div_iff₀ hpos]
    constructor <;> intro h <;> linarith
  have hle : (2 * num : ℚ) ≤ (2 * n + 1) * den ↔ (num : ℚ) / den ≤ n + 1 / 2 := by
    rw [div_le_iff₀ hpos]
    constructor <;> intro h <;> linarith
  have hgt : (2 * n * den : ℚ) < 2 * num + den ↔ (n : ℚ) - 1 / 2 < num / den := by
    rw [lt_div_iff₀ hpos]
    constructor <;> intro h <;> linarith
  have hlt : (2 * num : ℚ) < (2 * n + 1) * den ↔ (num : ℚ) / den < n + 1 / 2 := by
    rw [div_lt_iff₀ hpos]
    constructor <;> intro h <;> linarith
  refine divNearest_eq ?_ ?_ (fun hn => ⟨?_, ?_⟩) hden
  · exact_mod_cast hge.mpr h.ge
  · exact_mod_cast hle.mpr h.le
  · exact_mod_cast hgt.mpr (h.odd hn).1
  · exact_mod_cast hlt.mpr (h.odd hn).2

/-! ## Units -/

theorem two_zpow_toNat {e : Int} (he : 0 ≤ e) : ((2 ^ e.toNat : Nat) : ℚ) = 2 ^ e := by
  rw [Nat.cast_pow, Nat.cast_ofNat, ← zpow_natCast, Int.toNat_of_nonneg he]

/-- What is rounded in units of `2 ^ e` is a fraction divided by that power. -/
theorem exists_scaled (num : Nat) {den : Nat} (e : Int) (hden : 0 < den) :
    ∃ a b : Nat, 0 < b ∧ (a : ℚ) / b = num / den / 2 ^ e ∧ units num den e = divNearest a b ∧
      (if 0 ≤ e then num / (den <<< e.toNat) else (num <<< (-e).toNat) / den) = a / b := by
  by_cases he : 0 ≤ e
  · refine ⟨num, den * 2 ^ e.toNat, by positivity, ?_, ?_, ?_⟩
    · rw [Nat.cast_mul, two_zpow_toNat he, div_div]
    · rw [units, if_pos he, Nat.shiftLeft_eq]
    · rw [if_pos he, Nat.shiftLeft_eq]
  · refine ⟨num * 2 ^ (-e).toNat, den, hden, ?_, ?_, ?_⟩
    · rw [Nat.cast_mul, two_zpow_toNat (by omega), zpow_neg]
      field_simp
    · rw [units, if_neg he, Nat.shiftLeft_eq]
    · rw [if_neg he, Nat.shiftLeft_eq]

theorem units_of_rounds {n : Nat} (hden : 0 < den) (h : Rounds n (num / den / 2 ^ e)) :
    units num den e = n := by
  obtain ⟨a, b, hb, hratio, hunits, -⟩ := exists_scaled num e hden
  rw [hunits]
  exact divNearest_of_rounds hb (hratio ▸ h)

theorem leastFull_cast : (leastFull : ℚ) = 2 ^ 52 := by
  rw [leastFull_eq]
  norm_num

/-- The least number with a mantissa of 53 bits. -/
theorem two_zpow_least (e : Int) : (2 : ℚ) ^ (e + 52) = leastFull * 2 ^ e := by
  rw [Int.add_comm, zpow_add₀ (by norm_num), leastFull_cast]
  norm_num

/-- The least number for which a mantissa has too many bits. -/
theorem two_zpow_over (e : Int) : (2 : ℚ) ^ (e + 53) = 2 * leastFull * 2 ^ e := by
  rw [show e + 53 = 1 + (e + 52) by omega, zpow_one_add₀ (by norm_num), two_zpow_least, mul_assoc]

/-- A number lies between two powers of two. -/
theorem log2_bounds {n : Nat} (hn : 0 < n) :
    (2 : ℚ) ^ (n.log2 : Int) ≤ n ∧ (n : ℚ) < 2 ^ ((n.log2 : Int) + 1) := by
  constructor
  · exact_mod_cast Nat.log2_self_le (Nat.ne_of_gt hn)
  · exact_mod_cast Nat.lt_log2_self (n := n)

/-- A fraction lies between two powers of two, too. -/
theorem quotient_bounds (hnum : 0 < num) (hden : 0 < den) :
    (2 : ℚ) ^ ((num.log2 : Int) - den.log2 - 1) ≤ num / den ∧
      (num : ℚ) / den < 2 ^ ((num.log2 : Int) - den.log2 + 1) := by
  have htwo : (2 : ℚ) ≠ 0 := by norm_num
  have hdenpos : (0 : ℚ) < den := Nat.cast_pos.mpr hden
  -- each of the two numbers is known within a factor of two, so the quotient is within four
  obtain ⟨hnumlow, hnumhigh⟩ := log2_bounds hnum
  obtain ⟨hdenlow, hdenhigh⟩ := log2_bounds hden
  constructor
  · rw [le_div_iff₀ hdenpos]
    calc (2 : ℚ) ^ ((num.log2 : Int) - den.log2 - 1) * den
        ≤ 2 ^ ((num.log2 : Int) - den.log2 - 1) * 2 ^ ((den.log2 : Int) + 1) := by gcongr
      _ = 2 ^ (num.log2 : Int) := by
        rw [← zpow_add₀ htwo]
        congr 1
        omega
      _ ≤ num := hnumlow
  · rw [div_lt_iff₀ hdenpos]
    calc (num : ℚ) < 2 ^ ((num.log2 : Int) + 1) := hnumhigh
      _ = 2 ^ ((num.log2 : Int) - den.log2 + 1) * 2 ^ (den.log2 : Int) := by
        rw [← zpow_add₀ htwo]
        congr 1
        omega
      _ ≤ 2 ^ ((num.log2 : Int) - den.log2 + 1) * den := by gcongr

/-- The exponent found is the one that gives the fraction 53 bits. -/
theorem exists_unitExponent (hnum : 0 < num) (hden : 0 < den) :
    ∃ e : Int, unitExponent num den = max e (-1074) ∧ (2 : ℚ) ^ (e + 52) ≤ num / den ∧
      (num : ℚ) / den < 2 ^ (e + 53) := by
  -- with the first guess the mantissa has 52 bits or 53
  let e : Int := (Int.ofNat num.log2 - Int.ofNat den.log2) - 52
  have he : e = (num.log2 - den.log2 : Int) - 52 := rfl
  obtain ⟨hlow, hhigh⟩ := quotient_bounds hnum hden
  rw [show (num.log2 - den.log2 : Int) - 1 = e + 51 by omega] at hlow
  rw [show (num.log2 - den.log2 : Int) + 1 = e + 53 by omega] at hhigh
  obtain ⟨a, b, hb, hratio, -, hwhole⟩ := exists_scaled num e hden
  have hbpos : (0 : ℚ) < b := Nat.cast_pos.mpr hb
  have hshort : a / b < leastFull ↔ (num : ℚ) / den < 2 ^ (e + 52) := by
    rw [Nat.div_lt_iff_lt_mul hb, ← Nat.cast_lt (α := ℚ), Nat.cast_mul, ← div_lt_iff₀ hbpos, hratio,
      div_lt_iff₀ (by positivity), two_zpow_least]
  have hexponent : unitExponent num den = max (if a / b < leastFull then e - 1 else e) (-1074) := by
    rw [← hwhole]
    rfl
  by_cases hless : a / b < leastFull
  · refine ⟨e - 1, by rw [hexponent, if_pos hless], ?_, ?_⟩
    · rwa [show e - 1 + 52 = e + 51 by omega]
    · rw [show e - 1 + 53 = e + 52 by omega]
      exact hshort.mp hless
  · exact ⟨e, by rw [hexponent, if_neg hless], not_lt.mp (hless ∘ hshort.mpr), hhigh⟩

/-- The units of a fraction give it 53 bits, or they are the least ones and give it no more. -/
theorem unitExponent_eq (hnum : 0 < num) (hden : 0 < den) (hleast : -1074 ≤ e)
    (hhigh : (num : ℚ) / den < 2 ^ (e + 53))
    (hlow : e = -1074 ∨ (2 : ℚ) ^ (e + 52) ≤ num / den) : unitExponent num den = e := by
  obtain ⟨e', hexponent, hlow', hhigh'⟩ := exists_unitExponent hnum hden
  have hle : e' + 52 < e + 53 :=
    (zpow_lt_zpow_iff_right₀ one_lt_two).mp (lt_of_le_of_lt hlow' hhigh)
  rw [hexponent]
  rcases hlow with rfl | hlow
  · exact max_eq_right (by omega)
  · have hge : e + 52 < e' + 53 :=
      (zpow_lt_zpow_iff_right₀ one_lt_two).mp (lt_of_le_of_lt hlow hhigh')
    rw [max_eq_left (by omega)]
    omega

theorem bitsOfRatio_eq (hnum : 0 < num) {n : Nat} (hexponent : unitExponent num den = e)
    (hunits : units num den e = n) (hleast : n < leastFull → e = -1074)
    (hlast : (e + 1074).toNat * leastFull + n ≤ 2047 * leastFull) :
    bitsOfRatio num den = (e + 1074).toNat * leastFull + n := by
  rw [bitsOfRatio, if_neg (Nat.ne_of_gt hnum)]
  dsimp only
  rw [hexponent, hunits]
  split
  · next hless =>
      rw [hleast hless]
      exact (Nat.zero_add n).symm
  · exact Nat.min_eq_left hlast

/-! ## Doubles -/

namespace Magnitude

variable {m : Magnitude}

/-- The rational number that an absolute value is. -/
def value (m : Magnitude) : ℚ := m.mantissa * 2 ^ m.exponent

/-- How far below the mantissa a number is still rounded to it: half a unit, and a quarter where
the units change. -/
def slack (m : Magnitude) : ℚ :=
  if m.mantissa = leastFull ∧ -1074 < m.exponent then 1 / 4 else 1 / 2

/-- Rational numbers for which a double is the nearest one, or one of two and the even one. -/
structure Near (m : Magnitude) (q : ℚ) : Prop where
  ge : (m.mantissa - m.slack) * 2 ^ m.exponent ≤ q
  le : q ≤ (m.mantissa + 1 / 2) * 2 ^ m.exponent
  odd : m.mantissa % 2 = 1 →
    (m.mantissa - m.slack) * 2 ^ m.exponent < q ∧ q < (m.mantissa + 1 / 2) * 2 ^ m.exponent

theorem slack_le_half (m : Magnitude) : m.slack ≤ 1 / 2 := by
  rw [slack]
  split <;> norm_num

theorem Near.rounds {q : ℚ} (h : m.Near q) : Rounds m.mantissa (q / 2 ^ m.exponent) := by
  have hpos : (0 : ℚ) < 2 ^ m.exponent := by positivity
  have hslack := m.slack_le_half
  refine ⟨?_, ?_, fun hodd => ⟨?_, ?_⟩⟩
  · rw [le_div_iff₀ hpos]
    exact le_trans (by gcongr) h.ge
  · rw [div_le_iff₀ hpos]
    exact h.le
  · rw [lt_div_iff₀ hpos]
    exact lt_of_le_of_lt (by gcongr) (h.odd hodd).1
  · rw [div_lt_iff₀ hpos]
    exact (h.odd hodd).2

/-- Below a power of two the mantissa in the smaller units is rounded up to `2 ^ 53`. -/
theorem Near.rounds_half {q : ℚ} (h : m.Near q) (hmantissa : m.mantissa = leastFull)
    (hexponent : -1074 < m.exponent) (hbelow : q < 2 ^ (m.exponent + 52)) :
    Rounds (2 * leastFull) (q / 2 ^ (m.exponent - 1)) := by
  have hpos : (0 : ℚ) < 2 ^ (m.exponent - 1) := by positivity
  have hunit : (2 : ℚ) ^ m.exponent = 2 * 2 ^ (m.exponent - 1) := by
    rw [← zpow_one_add₀ (by norm_num)]
    congr 1
    omega
  -- at a power of two the interval reaches only a quarter of the unit down, half of the smaller one
  have hslack : m.slack = 1 / 4 := if_pos ⟨hmantissa, hexponent⟩
  have hge := h.ge
  rw [hslack, hmantissa, hunit] at hge
  rw [two_zpow_least, hunit] at hbelow
  refine ⟨?_, ?_, fun hodd => absurd hodd (by decide)⟩
  · rw [le_div_iff₀ hpos]
    push_cast
    linarith
  · rw [div_le_iff₀ hpos]
    push_cast
    linarith

/-- What is near to a double is below the next power of two. -/
theorem Near.lt_over {q : ℚ} (hfits : m.Fits) (h : m.Near q) : q < 2 ^ (m.exponent + 53) := by
  have hroom : (m.mantissa : ℚ) + 1 ≤ 2 * leastFull := by exact_mod_cast hfits.mantissa_lt
  calc q ≤ (m.mantissa + 1 / 2) * 2 ^ m.exponent := h.le
    _ < (m.mantissa + 1) * 2 ^ m.exponent := by gcongr; norm_num
    _ ≤ 2 * leastFull * 2 ^ m.exponent := by gcongr
    _ = 2 ^ (m.exponent + 53) := (two_zpow_over m.exponent).symm

/-- Only a power of two is near to something below it that has a shorter mantissa in its units. -/
theorem Near.eq_leastFull {q : ℚ} (hfits : m.Fits) (h : m.Near q) (hexponent : m.exponent ≠ -1074)
    (hbelow : q < 2 ^ (m.exponent + 52)) : m.mantissa = leastFull := by
  have hge : leastFull ≤ m.mantissa := Nat.not_lt.mp (mt hfits.eq_least hexponent)
  refine Nat.le_antisymm (Nat.not_lt.mp fun hmore => absurd hbelow (not_lt.mpr ?_)) hge
  have hroom : (leastFull : ℚ) + 1 ≤ m.mantissa := by exact_mod_cast hmore
  have hslack := m.slack_le_half
  calc (2 : ℚ) ^ (m.exponent + 52) = leastFull * 2 ^ m.exponent := two_zpow_least m.exponent
    _ ≤ (m.mantissa - m.slack) * 2 ^ m.exponent := by
        gcongr
        linarith
    _ ≤ q := h.ge

end Magnitude

open Magnitude

/-- What is near a power of two and lies below it is counted in units half as large, rounded up, and
carried into the next exponent. -/
theorem bitsOfRatio_of_near_below {m : Magnitude} (hmantissa : m.mantissa = leastFull)
    (hexponent : -1074 < m.exponent) (hlast : m.bits ≤ 2047 * leastFull) (hnum : 0 < num)
    (hden : 0 < den) (h : m.Near (num / den)) (hbelow : (num : ℚ) / den < 2 ^ (m.exponent + 52)) :
    bitsOfRatio num den = m.bits := by
  have hmoved := h.rounds_half hmantissa hexponent hbelow
  have hunit : unitExponent num den = m.exponent - 1 := by
    refine unitExponent_eq hnum hden (by omega) ?_ (.inr ?_)
    · rwa [show m.exponent - 1 + 53 = m.exponent + 52 by omega]
    · have hge := hmoved.ge
      rw [le_div_iff₀ (by positivity)] at hge
      refine le_trans ?_ hge
      rw [two_zpow_least]
      gcongr
      push_cast
      rw [leastFull_cast]
      norm_num
  have hsum : (m.exponent - 1 + 1074).toNat * leastFull + 2 * leastFull = m.bits := by
    rw [bits, hmantissa]
    rw [leastFull]
    omega
  rw [← hsum]
  refine bitsOfRatio_eq hnum hunit (units_of_rounds hden hmoved) (fun hless => ?_) ?_
  · exact absurd hless (by decide)
  · rw [hsum]
    exact hlast

/-- What is near a double is rounded to it. -/
theorem bitsOfRatio_of_near {m : Magnitude} (hfits : m.Fits) (hnum : 0 < num) (hden : 0 < den)
    (h : m.Near (num / den)) : bitsOfRatio num den = m.bits := by
  have hfull := h.eq_leastFull hfits
  have hhigh := h.lt_over hfits
  obtain ⟨hmantissa, hge, hle, hleast⟩ := hfits
  have hlast : (m.exponent + 1074).toNat * leastFull + m.mantissa ≤ 2047 * leastFull := by
    rw [leastFull] at *
    omega
  -- the units found are those of the double, unless it is a power of two and the quotient below it
  by_cases hunits : m.exponent = -1074 ∨ (2 : ℚ) ^ (m.exponent + 52) ≤ num / den
  · exact bitsOfRatio_eq hnum (unitExponent_eq hnum hden hge hhigh hunits)
      (units_of_rounds hden h.rounds) hleast hlast
  · obtain ⟨hexponent, hbelow⟩ := not_or.mp hunits
    rw [not_le] at hbelow
    exact bitsOfRatio_of_near_below (hfull hexponent hbelow) (by omega) hlast hnum hden h hbelow

end Formula.Binary64
