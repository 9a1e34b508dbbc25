import Formula.Format.Yaml.Scalar
import Mathlib.Data.List.TakeWhile

set_option autoImplicit false

/-! # Natural numbers in texts

A natural number is written as a numeral: decimal digits of which the first is a zero only if it is
the only one. The formats read a numeral each in its own way, and all find the same number.
-/

namespace Formula

namespace Decimal

/-- Digits without a needless zero in front. -/
structure Numeral (cs : List Char) : Prop where
  ne_nil : cs ≠ []
  isDigit : ∀ c ∈ cs, c.isDigit = true
  eq_nil : ∀ more, cs = '0' :: more → more = []

/-- Digits that start with a zero are those of zero. -/
theorem eq_zero_of_toDigits {n : Nat} {cs : List Char} (h : Nat.toDigits 10 n = '0' :: cs) :
    n = 0 := by
  induction n using Nat.base_induction 10 (by decide) generalizing cs with
  | single m hm =>
      rw [Nat.toDigits_of_lt_base hm] at h
      exact Nat.digitChar_eq_zero.mp (List.cons.inj h).1
  | digit m k hk hm ih =>
      rw [← Nat.toDigits_append_toDigits (by decide) hm hk] at h
      rcases List.append_eq_cons_iff.mp h with ⟨hnil, -⟩ | ⟨more, hmore, -⟩
      · exact absurd hnil Nat.toDigits_ne_nil
      · have hzero := ih hmore
        omega

theorem numeral_toDigits (n : Nat) : Numeral (Nat.toDigits 10 n) where
  ne_nil := Nat.toDigits_ne_nil
  isDigit := fun _ hc => Nat.isDigit_of_mem_toDigits (by decide) (by decide) hc
  eq_nil := by
    intro more h
    rw [eq_zero_of_toDigits h, Nat.toDigits_zero] at h
    exact (List.cons.inj h).2.symm

theorem digitsValue_toDigits (n : Nat) : digitsValue (Nat.toDigits 10 n) = n :=
  Nat.ofDigitChars_ten_toDigits

theorem toList_toString (n : Nat) : (toString (n : Int)).toList = Nat.toDigits 10 n := by
  show n.repr.toList = _
  rw [Nat.toList_repr]

variable {cs : List Char}

theorem Numeral.spanDigits_eq (h : Numeral cs) : spanDigits cs = (cs, []) := by
  rw [spanDigits, List.takeWhile_eq_self_iff.mpr h.isDigit, List.dropWhile_eq_nil_iff.mpr h.isDigit]

/-- A numeral begins with a digit. -/
theorem Numeral.exists_cons (h : Numeral cs) :
    ∃ c more, cs = c :: more ∧ c.isDigit = true := by
  obtain ⟨c, more, rfl⟩ := List.exists_cons_of_ne_nil h.ne_nil
  exact ⟨c, more, rfl, h.isDigit c List.mem_cons_self⟩

theorem ne_of_eq_false {p : Char → Bool} {c d : Char} (h : p c = true) (hd : p d = false) :
    c ≠ d := by
  rintro rfl
  rw [h] at hd
  exact nomatch hd

/-- A numeral begins with nothing but a digit. -/
theorem Numeral.ne_cons (h : Numeral cs) {d : Char} (hd : d.isDigit = false) (rest : List Char) :
    cs ≠ d :: rest := by
  rintro rfl
  exact ne_of_eq_false (h.isDigit d List.mem_cons_self) hd rfl

/-- A numeral is no word in which no digit stands. -/
theorem Numeral.ofList_ne (h : Numeral cs) {word : String}
    (hword : word.toList.any Char.isDigit = false) : String.ofList cs ≠ word := by
  rintro rfl
  obtain ⟨c, more, rfl, hc⟩ := h.exists_cons
  rw [String.toList_ofList, List.any_cons, hc] at hword
  exact nomatch hword

/-- A numeral is not taken for a number to another base. -/
theorem Numeral.ne_zero_cons (h : Numeral cs) (c : Char) (rest : List Char) :
    cs ≠ '0' :: c :: rest := by
  rintro rfl
  exact nomatch h.eq_nil _ rfl

theorem Numeral.takeSign_eq (h : Numeral cs) : takeSign cs = (false, cs) := by
  rw [takeSign]
  · exact fun rest heq => h.ne_cons (by decide) rest heq
  · exact fun rest heq => h.ne_cons (by decide) rest heq

end Decimal

/-! ## Digits to a base -/

namespace Yaml

open Decimal

variable {cs : List Char}

theorem digit?_of_isDigit {c : Char} (h : c.isDigit = true) :
    digit? 10 c = some (c.toNat - 48) := by
  have hrange : '0' ≤ c ∧ c ≤ '9' := by
    simp only [Char.isDigit, Bool.and_eq_true, decide_eq_true_eq] at h
    exact h
  have hbound : c.toNat ≤ 57 := hrange.2
  have hhex : Json.hexDigit? c = some (c.toNat - 48) := if_pos hrange
  simp only [digit?, hhex, Option.bind_eq_bind, Option.bind_some]
  rw [if_pos (by omega)]

theorem foldlM_digit? (h : ∀ c ∈ cs, c.isDigit = true) (n : Nat) :
    cs.foldlM (fun n c => (digit? 10 c).map (10 * n + ·)) n
      = some (cs.foldl (fun n c => 10 * n + (c.toNat - 48)) n) := by
  induction cs generalizing n with
  | nil => rfl
  | cons c rest ih =>
      obtain ⟨hc, hrest⟩ := List.forall_mem_cons.mp h
      rw [List.foldlM_cons, digit?_of_isDigit hc, Option.map_some, Option.bind_eq_bind,
        Option.bind_some, ih hrest, List.foldl_cons]

theorem natural?_of_numeral (h : Numeral cs) :
    natural? 10 cs = some (digitsValue cs) := by
  obtain ⟨c, more, rfl, -⟩ := h.exists_cons
  exact foldlM_digit? h.isDigit 0

theorem hasNeedlessZero_of_numeral (h : Numeral cs) : hasNeedlessZero cs = false := by
  unfold hasNeedlessZero
  split
  · next c rest => exact absurd rfl (h.ne_zero_cons c rest)
  · rfl

end Yaml

end Formula
