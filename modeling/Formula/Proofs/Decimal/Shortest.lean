import Formula.Decimal.Shortest
import Formula.Proofs.Binary64.Nearest

set_option autoImplicit false

/-! # The digits of a double are near to it

What is found with the fewest digits is always near to the double (`near_shortest`), so that the
double is read back from it. The interval searched holds exactly what is near (`contains_iff_near`),
each hit lies in it, and with seventeen digits there is a hit: the points of that grid are so close
that one of the two around the double is near to it.
-/

namespace Formula.Decimal

open Binary64 (Magnitude leastFull leastFull_cast two_zpow_toNat)

/-- The rational number that digits stand for. -/
def Digits.value (d : Digits) : ℚ := d.digits * 10 ^ d.exponent

/-! ## Grids -/

theorem ten_pow_toNat {k : Int} (hk : 0 ≤ k) : ((Nat.pow 10 k.toNat : Nat) : ℚ) = 10 ^ k := by
  rw [Nat.pow_eq, Nat.cast_pow, Nat.cast_ofNat, ← zpow_natCast, Int.toNat_of_nonneg hk]

/-- A power of ten as a fraction. -/
theorem exists_power (e : Int) :
    0 < (if 0 ≤ e then Nat.pow 10 e.toNat else 1) ∧
      0 < (if 0 ≤ e then 1 else Nat.pow 10 (-e).toNat) ∧
      (((if 0 ≤ e then Nat.pow 10 e.toNat else 1) : Nat) : ℚ)
        / ((if 0 ≤ e then 1 else Nat.pow 10 (-e).toNat) : Nat) = 10 ^ e := by
  have hpos (k : Nat) : 0 < Nat.pow 10 k := Nat.pow_pos (by decide)
  by_cases he : 0 ≤ e
  · rw [if_pos he, if_pos he]
    refine ⟨hpos _, Nat.one_pos, ?_⟩
    rw [Nat.cast_one, div_one, ten_pow_toNat he]
  · rw [if_neg he, if_neg he]
    refine ⟨Nat.one_pos, hpos _, ?_⟩
    rw [Nat.cast_one, ten_pow_toNat (by omega), zpow_neg, one_div, inv_inv]

theorem width_bounds {n : Nat} (hn : 0 < n) : 10 ^ (width n - 1) ≤ n ∧ n < 10 ^ width n := by
  have hpos : 0 < width n := Nat.length_toDigits_pos
  refine ⟨?_, (Nat.length_toDigits_le_iff (by decide) hpos).mp (Nat.le_refl _)⟩
  rcases Nat.eq_zero_or_pos (width n - 1) with hone | hmore
  · rw [hone]
    exact hn
  · refine Nat.not_lt.mp fun hless => ?_
    have hle : width n ≤ width n - 1 := (Nat.length_toDigits_le_iff (by decide) hmore).mpr hless
    omega

/-- A fraction reaches the power of ten below its magnitude. -/
theorem power_le {num den : Nat} (hnum : 0 < num) (hden : 0 < den) :
    (10 : ℚ) ^ (magnitude num den - 1) ≤ num / den := by
  have hnumpos : (0 : ℚ) < num := Nat.cast_pos.mpr hnum
  have hdenpos : (0 : ℚ) < den := Nat.cast_pos.mpr hden
  rw [magnitude]
  -- the whole part of the fraction, or that of its inverse, has as many digits as there are places
  by_cases hle : den ≤ num
  · rw [if_pos hle]
    have hquotient : 0 < num / den := Nat.div_pos hle hden
    have hwidth : 0 < width (num / den) := Nat.length_toDigits_pos
    have hexponent : Int.ofNat (width (num / den)) - 1 = ((width (num / den) - 1 : Nat) : Int) := by
      rw [Int.ofNat_eq_natCast]
      omega
    have hpower : ((10 ^ (width (num / den) - 1) : Nat) : ℚ) ≤ (num / den : Nat) :=
      Nat.cast_le.mpr (width_bounds hquotient).1
    rw [hexponent, zpow_natCast]
    exact le_trans (by exact_mod_cast hpower) Nat.cast_div_le
  · rw [if_neg hle]
    have hquotient : 0 < den / num := Nat.div_pos (by omega) hnum
    have hexponent :
        1 - Int.ofNat (width (den / num)) - 1 = -((width (den / num) : Nat) : Int) := by
      rw [Int.ofNat_eq_natCast]
      omega
    have hbelow : den < 10 ^ width (den / num) * num :=
      (Nat.div_lt_iff_lt_mul hnum).mp (width_bounds hquotient).2
    rw [hexponent, zpow_neg, zpow_natCast, inv_le_comm₀ (by positivity) (by positivity), inv_div,
      div_le_iff₀ hnumpos]
    exact_mod_cast hbelow.le

/-! ## The interval -/

namespace Interval

variable {m : Magnitude}

/-- The ends and the middle of the interval of a double. -/
theorem of_bounds (hpos : 0 < m.mantissa) :
    0 < (of m).den ∧ ((of m).low : ℚ) / (of m).den = (m.mantissa - m.slack) * 2 ^ m.exponent ∧
      ((of m).mid : ℚ) / (of m).den = m.value ∧
      ((of m).high : ℚ) / (of m).den = (m.mantissa + 1 / 2) * 2 ^ m.exponent := by
  -- a quarter of the unit, as a fraction
  obtain ⟨scale, den, hscale, hden, hdenpos, hquarter⟩ : ∃ scale den : Nat,
      (if 0 ≤ m.exponent then 1 <<< m.exponent.toNat else 1) = scale ∧
        (if 0 ≤ m.exponent then 4 else 1 <<< ((-m.exponent).toNat + 2)) = den ∧ 0 < den ∧
        (scale : ℚ) / den = 2 ^ m.exponent / 4 := by
    by_cases he : 0 ≤ m.exponent
    · refine ⟨2 ^ m.exponent.toNat, 4, ?_, if_pos he, by decide, ?_⟩
      · rw [if_pos he, Nat.one_shiftLeft]
      · rw [two_zpow_toNat he, Nat.cast_ofNat]
    · refine ⟨1, 2 ^ ((-m.exponent).toNat + 2), if_neg he, ?_, by positivity, ?_⟩
      · rw [if_neg he, Nat.one_shiftLeft]
      · rw [Nat.pow_add, Nat.cast_mul, two_zpow_toNat (by omega), zpow_neg]
        push_cast
        field_simp
  have hbelow : ((4 * m.mantissa - (if m.mantissa = leastFull ∧ -1074 < m.exponent then 1 else 2)
      : Nat) : ℚ) = 4 * (m.mantissa - m.slack) := by
    rw [Nat.cast_sub (by split <;> omega), Magnitude.slack]
    split
    · push_cast
      ring
    · push_cast
      ring
  simp only [of, hscale, hden]
  refine ⟨hdenpos, ?_, ?_, ?_⟩
  · rw [Nat.cast_mul, hbelow, mul_div_assoc, hquarter]
    ring
  · rw [Nat.cast_mul, mul_div_assoc, hquarter, Magnitude.value]
    push_cast
    ring
  · rw [Nat.cast_mul, mul_div_assoc, hquarter]
    push_cast
    ring

/-- The interval of a double holds what is near to it. -/
theorem contains_iff_near (hpos : 0 < m.mantissa) {num den : Nat} (hden : 0 < den) :
    (of m).contains num den = true ↔ m.Near (num / den) := by
  obtain ⟨hdenpos, hlow, -, hhigh⟩ := of_bounds hpos
  have hdenQ : (0 : ℚ) < den := Nat.cast_pos.mpr hden
  have hdenposQ : (0 : ℚ) < (of m).den := Nat.cast_pos.mpr hdenpos
  -- the ends as fractions, compared with another fraction by multiplying out
  have hge : (of m).low * den ≤ num * (of m).den
      ↔ (m.mantissa - m.slack) * 2 ^ m.exponent ≤ (num : ℚ) / den := by
    rw [← hlow, div_le_div_iff₀ hdenposQ hdenQ]
    norm_cast
  have hle : num * (of m).den ≤ (of m).high * den
      ↔ (num : ℚ) / den ≤ (m.mantissa + 1 / 2) * 2 ^ m.exponent := by
    rw [← hhigh, div_le_div_iff₀ hdenQ hdenposQ]
    norm_cast
  have hgt : (of m).low * den < num * (of m).den
      ↔ (m.mantissa - m.slack) * 2 ^ m.exponent < (num : ℚ) / den := by
    rw [← hlow, div_lt_div_iff₀ hdenposQ hdenQ]
    norm_cast
  have hlt : num * (of m).den < (of m).high * den
      ↔ (num : ℚ) / den < (m.mantissa + 1 / 2) * 2 ^ m.exponent := by
    rw [← hhigh, div_lt_div_iff₀ hdenQ hdenposQ]
    norm_cast
  have hclosed : (of m).closed = (m.mantissa % 2 == 0) := rfl
  rw [contains, hclosed]
  -- the ends belong to the interval if the mantissa is even
  by_cases heven : m.mantissa % 2 = 0
  · rw [beq_iff_eq.mpr heven, if_pos rfl, decide_eq_true_eq, hge, hle]
    exact ⟨fun h => ⟨h.1, h.2, fun hodd => by omega⟩, fun h => ⟨h.ge, h.le⟩⟩
  · rw [beq_eq_false_iff_ne.mpr heven, if_neg Bool.false_ne_true, decide_eq_true_eq, hgt, hlt]
    exact ⟨fun h => ⟨h.1.le, h.2.le, fun _ => h⟩, fun h => h.odd (by omega)⟩

theorem slack_pos (m : Magnitude) : 0 < m.slack := by
  rw [Magnitude.slack]
  split <;> norm_num

theorem near_of_lt {q : ℚ} (hlow : (m.mantissa - m.slack) * 2 ^ m.exponent < q)
    (hhigh : q < (m.mantissa + 1 / 2) * 2 ^ m.exponent) : m.Near q :=
  ⟨hlow.le, hhigh.le, fun _ => ⟨hlow, hhigh⟩⟩

/-- A double is near to itself. -/
theorem near_value (m : Magnitude) : m.Near m.value := by
  have hslack := slack_pos m
  rw [Magnitude.value]
  refine near_of_lt ?_ ?_
  · gcongr
    linarith
  · gcongr
    linarith

/-! ## One grid -/

/-- What is found on a grid of points `n * up / down`: the middle of the interval if it is one of
them, else a point inside, and none only if neither neighbour of the middle is inside. -/
theorem nearest_hits (i : Interval) (tie : Tie) (exponent : Int) {up down : Nat}
    (hup : (if 0 ≤ exponent then Nat.pow 10 exponent.toNat else 1) = up)
    (hdown : (if 0 ≤ exponent then 1 else Nat.pow 10 (-exponent).toNat) = down) :
    (i.mid * down % (i.den * up) = 0 ∧
        i.nearest tie exponent = some (i.mid * down / (i.den * up))) ∨
      (∃ n, i.nearest tie exponent = some n ∧ i.contains (n * up) down = true) ∨
      (i.nearest tie exponent = none ∧
        i.contains (i.mid * down / (i.den * up) * up) down = false ∧
        i.contains ((i.mid * down / (i.den * up) + 1) * up) down = false) := by
  unfold nearest
  rw [hup, hdown]
  dsimp only
  generalize i.mid * down / (i.den * up) = floor
  -- the middle is a point of the grid, or lies between two of them
  by_cases hexact : i.mid * down % (i.den * up) = 0
  · exact .inl ⟨hexact, if_pos hexact⟩
  · rw [if_neg hexact]
    -- whichever neighbours are inside, one of these is taken
    cases hfloor : i.contains (floor * up) down with
    | false =>
        cases hceil : i.contains ((floor + 1) * up) down with
        | false => exact .inr (.inr ⟨rfl, rfl, rfl⟩)
        | true => exact .inr (.inl ⟨floor + 1, rfl, hceil⟩)
    | true =>
        cases hceil : i.contains ((floor + 1) * up) down with
        | false => exact .inr (.inl ⟨floor, rfl, hfloor⟩)
        | true =>
            dsimp only
            split
            · exact .inr (.inl ⟨floor, rfl, hfloor⟩)
            · split
              · exact .inr (.inl ⟨floor + 1, rfl, hceil⟩)
              · cases tie with
                | up => exact .inr (.inl ⟨floor + 1, rfl, hceil⟩)
                | even =>
                    rcases Nat.mod_two_eq_zero_or_one floor with heven | hodd
                    · exact .inr (.inl ⟨floor, by rw [heven]; rfl, hfloor⟩)
                    · exact .inr (.inl ⟨floor + 1, by rw [hodd], hceil⟩)

/-- A value lies between two neighbouring multiples of a step, and is the lower one where the
division leaves no remainder. -/
theorem floor_steps {num den : Nat} {value step : ℚ} (hden : 0 < den) (hstep : 0 < step)
    (h : value / step = (num : ℚ) / den) :
    ((num / den : Nat) : ℚ) * step ≤ value ∧ value < ((num / den : Nat) + 1) * step ∧
      (num % den = 0 → ((num / den : Nat) : ℚ) * step = value) := by
  have hdenQ : (0 : ℚ) < den := Nat.cast_pos.mpr hden
  refine ⟨?_, ?_, fun hexact => ?_⟩
  · rw [← le_div_iff₀ hstep, h, le_div_iff₀ hdenQ]
    exact_mod_cast Nat.div_mul_le_self num den
  · rw [← div_lt_iff₀ hstep, h, div_lt_iff₀ hdenQ]
    exact_mod_cast Nat.lt_mul_of_div_lt (Nat.lt_succ_self (num / den)) hden
  · rw [← eq_div_iff hstep.ne', h, eq_div_iff hdenQ.ne']
    exact_mod_cast Nat.div_mul_cancel (Nat.dvd_of_mod_eq_zero hexact)

/-- The two points of a grid around a double, and what is found on the grid: a point near to the
double, and none only if neither of the two is near. -/
theorem nearest_cases (hpos : 0 < m.mantissa) (tie : Tie) (exponent : Int) :
    ∃ floor : Nat, (floor : ℚ) * 10 ^ exponent ≤ m.value ∧
      m.value < (floor + 1) * 10 ^ exponent ∧
      ((∃ n : Nat, (of m).nearest tie exponent = some n ∧ m.Near (n * 10 ^ exponent)) ∨
        (of m).nearest tie exponent = none ∧ ¬m.Near (floor * 10 ^ exponent) ∧
          ¬m.Near ((floor + 1) * 10 ^ exponent)) := by
  obtain ⟨hden, -, hmid, -⟩ := of_bounds hpos
  obtain ⟨hup, hdown, hpower⟩ := exists_power exponent
  have hhits := nearest_hits (of m) tie exponent rfl rfl
  generalize (if 0 ≤ exponent then Nat.pow 10 exponent.toNat else 1) = up at *
  generalize (if 0 ≤ exponent then 1 else Nat.pow 10 (-exponent).toNat) = down at *
  have hupQ : (0 : ℚ) < up := Nat.cast_pos.mpr hup
  have hdownQ : (0 : ℚ) < down := Nat.cast_pos.mpr hdown
  have hdenQ : (0 : ℚ) < (of m).den := Nat.cast_pos.mpr hden
  have hinside (n : Nat) : (of m).contains (n * up) down = true ↔ m.Near (n * 10 ^ exponent) := by
    rw [contains_iff_near hpos hdown, Nat.cast_mul, mul_div_assoc, hpower]
  have houtside {n : Nat} (h : (of m).contains (n * up) down = false) :
      ¬m.Near (n * 10 ^ exponent) := by
    rw [← hinside, h]
    exact Bool.false_ne_true
  -- the double, counted in points of the grid
  have hscaled : m.value / 10 ^ exponent
      = ((of m).mid * down : Nat) / ((of m).den * up : Nat) := by
    rw [← hmid, ← hpower]
    push_cast
    field_simp
  obtain ⟨hlow, hhigh, hpoint⟩ := floor_steps (Nat.mul_pos hden hup) (by positivity) hscaled
  generalize (of m).mid * down = num at *
  generalize (of m).den * up = den at *
  refine ⟨num / den, hlow, hhigh, ?_⟩
  rcases hhits with ⟨hexact, heq⟩ | ⟨n, heq, hn⟩ | ⟨hnone, hfloor, hceil⟩
  · exact .inl ⟨num / den, heq, hpoint hexact ▸ near_value m⟩
  · exact .inl ⟨n, heq, (hinside n).mp hn⟩
  · exact .inr ⟨hnone, houtside hfloor, Nat.cast_succ (R := ℚ) (num / den) ▸ houtside hceil⟩

theorem near_of_nearest (hpos : 0 < m.mantissa) {tie : Tie} {exponent : Int} {n : Nat}
    (h : (of m).nearest tie exponent = some n) : m.Near (n * 10 ^ exponent) := by
  obtain ⟨floor, -, -, ⟨n', heq, hnear⟩ | ⟨hnone, -⟩⟩ := nearest_cases hpos tie exponent
  · rw [h] at heq
    cases heq
    exact hnear
  · rw [h] at hnone
    cases hnone

/-- On a grid finer than the unit, and than half of it at a power of two, something is found. -/
theorem exists_nearest (hpos : 0 < m.mantissa) (tie : Tie) {exponent : Int}
    (hfine : (10 : ℚ) ^ exponent < 2 ^ m.exponent)
    (hfiner : m.mantissa = leastFull → (10 : ℚ) ^ exponent < 2 ^ m.exponent / 2) :
    ∃ n, (of m).nearest tie exponent = some n := by
  obtain ⟨floor, hlow, hhigh, ⟨n, heq, -⟩ | ⟨-, hfloor, hceil⟩⟩ := nearest_cases hpos tie exponent
  · exact ⟨n, heq⟩
  · exfalso
    have hunit : (0 : ℚ) < 2 ^ m.exponent := by positivity
    have hslack := slack_pos m
    rw [Magnitude.value] at hlow hhigh
    rw [add_mul, one_mul] at hhigh hceil
    by_cases hhalf : (floor : ℚ) * 10 ^ exponent + 10 ^ exponent
        < (m.mantissa + 1 / 2) * 2 ^ m.exponent
    · -- the point above the double is less than half a unit away
      refine hceil (near_of_lt ?_ hhalf)
      calc (m.mantissa - m.slack) * 2 ^ m.exponent < m.mantissa * 2 ^ m.exponent := by
            gcongr
            linarith
        _ < _ := hhigh
    · -- if it is not, then the one below is
      have hmantissa : m.mantissa ≠ leastFull := by
        intro hfull
        have := hfiner hfull
        refine hhalf ?_
        linarith
      have hwide : m.slack = 1 / 2 := if_neg fun h => hmantissa h.1
      refine hfloor (near_of_lt ?_ ?_)
      · rw [hwide]
        linarith
      · linarith

/-! ## Several grids -/

theorem near_of_search (hpos : 0 < m.mantissa) {tie : Tie} {top : Int} {count steps : Nat}
    {d : Digits} (h : (of m).search tie top count steps = some d) : m.Near d.value := by
  induction steps generalizing count with
  | zero => cases h
  | succ steps ih =>
      rw [search] at h
      cases hfound : (of m).nearest tie (top - Int.ofNat count) with
      | some n =>
          rw [hfound] at h
          cases h
          exact near_of_nearest hpos hfound
      | none =>
          rw [hfound] at h
          exact ih h

theorem exists_search {tie : Tie} {top : Int} {count steps last n : Nat}
    (hfirst : count ≤ last) (hlast : last < count + steps)
    (h : (of m).nearest tie (top - Int.ofNat last) = some n) :
    ∃ d, (of m).search tie top count steps = some d := by
  induction steps generalizing count with
  | zero => omega
  | succ steps ih =>
      rw [search]
      cases hfound : (of m).nearest tie (top - Int.ofNat count) with
      | some n' => exact ⟨_, rfl⟩
      | none =>
          have hne : count ≠ last := by
            rintro rfl
            rw [hfound] at h
            cases h
          exact ih (by omega) (by omega)

/-- The unit of the last of seventeen digits is less than the unit of the double, and less than half
of it for a power of two. -/
theorem fine_of_seventeen {grid mantissa unit : ℚ} (h : grid * 10 ^ 16 ≤ mantissa * unit)
    (hunit : 0 < unit) (hmantissa : mantissa < 2 ^ 53) :
    grid < unit ∧ (mantissa = 2 ^ 52 → grid < unit / 2) := by
  constructor
  · have hless : mantissa * unit < 2 ^ 53 * unit := by gcongr
    linarith
  · rintro rfl
    linarith

/-- The grid of seventeen digits is fine enough. -/
theorem exists_hit (hfits : m.Fits) (hpos : 0 < m.mantissa) (tie : Tie) :
    ∃ d, (of m).search tie (magnitude (of m).mid (of m).den) 1 17 = some d := by
  obtain ⟨hden, -, hmid, -⟩ := of_bounds hpos
  have hunit : (0 : ℚ) < 2 ^ m.exponent := by positivity
  have hmidpos : 0 < (of m).mid := by
    have hvalue : 0 < m.value := mul_pos (Nat.cast_pos.mpr hpos) hunit
    rw [← hmid] at hvalue
    by_contra h
    rw [Nat.eq_zero_of_not_pos h, Nat.cast_zero, zero_div] at hvalue
    exact lt_irrefl _ hvalue
  -- a unit of the last of seventeen digits is small against the double
  have hgrid : (10 : ℚ) ^ (magnitude (of m).mid (of m).den - Int.ofNat 17) * 10 ^ 16
      ≤ m.mantissa * 2 ^ m.exponent := by
    have hpower := power_le hmidpos hden
    rw [hmid, Magnitude.value] at hpower
    refine le_trans (le_of_eq ?_) hpower
    rw [← zpow_natCast, ← zpow_add₀ (by norm_num)]
    congr 1
    rw [Int.ofNat_eq_natCast]
    omega
  have hmantissa : (m.mantissa : ℚ) < 2 ^ 53 := by
    have hless := hfits.mantissa_lt
    rw [Binary64.leastFull_eq] at hless
    exact_mod_cast hless
  obtain ⟨hfine, hfiner⟩ := fine_of_seventeen hgrid hunit hmantissa
  obtain ⟨n, hn⟩ := exists_nearest hpos tie hfine fun hfull =>
    hfiner (hfull ▸ leastFull_cast)
  exact exists_search (by decide) (by decide) hn

end Interval

/-! ## The digits found -/

theorem value_normal (d : Digits) (fuel : Nat) : (d.normal fuel).value = d.value := by
  induction fuel generalizing d with
  | zero => rfl
  | succ fuel ih =>
      rw [Digits.normal]
      split
      · next h =>
          have hdigits : d.digits = 10 * (d.digits / 10) := by omega
          rw [ih, Digits.value, Digits.value, zpow_add_one₀ (by norm_num)]
          nth_rewrite 2 [hdigits]
          push_cast
          ring
      · rfl

/-- The digits of a positive double are near to it. -/
theorem near_shortest (tie : Tie) {m : Magnitude} (hfits : m.Fits) (hpos : 0 < m.mantissa) :
    m.Near (shortest tie m).value := by
  obtain ⟨d, hd⟩ := Interval.exists_hit hfits hpos tie
  rw [shortest, if_neg (Nat.ne_of_gt hpos)]
  dsimp only
  rw [hd]
  dsimp only
  rw [value_normal]
  exact Interval.near_of_search hpos hd

end Formula.Decimal
