import Formula.Decimal.Layout
import Formula.Text.Blank
import Mathlib.Data.List.Basic

set_option autoImplicit false

/-! # Texts that are not trimmed

Trimming leaves a text alone that neither begins nor ends with a blank. Numbers are such texts: they
are written with digits, a point and a sign.
-/

namespace Formula

namespace Text

theorem dropWhile_of_head {p : Char → Bool} {cs : List Char}
    (h : ∀ c, cs.head? = some c → p c = false) : cs.dropWhile p = cs := by
  cases cs with
  | nil => rfl
  | cons c rest =>
      rw [List.dropWhile_cons_of_neg]
      rw [h c rfl]
      exact nofun

theorem trimChars_of_ends {cs : List Char} (hfirst : ∀ c, cs.head? = some c → isBlank c = false)
    (hlast : ∀ c, cs.getLast? = some c → isBlank c = false) : trimChars cs = cs := by
  have hreverse : ∀ c, cs.reverse.head? = some c → isBlank c = false := by
    intro c hc
    rw [List.head?_reverse] at hc
    exact hlast c hc
  rw [trimChars, dropWhile_of_head hfirst, dropWhile_of_head hreverse, List.reverse_reverse]

theorem trimChars_of_forall {cs : List Char} (h : ∀ c ∈ cs, isBlank c = false) :
    trimChars cs = cs :=
  trimChars_of_ends (fun c hc => h c (List.mem_of_mem_head? hc)) fun c hc =>
    h c (List.mem_of_getLast? hc)

theorem isBlank_of_isDigit {c : Char} (h : c.isDigit = true) : isBlank c = false := by
  have hrange : 48 ≤ c.toNat ∧ c.toNat ≤ 57 := by
    simp only [Char.isDigit, Bool.and_eq_true, decide_eq_true_eq] at h
    exact h
  simp only [isBlank, Bool.or_eq_false_iff, Bool.and_eq_false_iff, beq_eq_false_iff_ne,
    decide_eq_false_iff_not]
  omega

end Text

namespace Decimal

/-- A character of a number that is written with its point in place. -/
def IsPlain (c : Char) : Prop := c.isDigit = true ∨ c = '.' ∨ c = '-'

theorem IsPlain.isBlank_eq {c : Char} (h : IsPlain c) : Text.isBlank c = false := by
  rcases h with h | rfl | rfl
  · exact Text.isBlank_of_isDigit h
  · decide
  · decide

/-- With the point in place there are the digits, the point, and zeros to fill up. -/
theorem mem_positionalText {digits : List Char} {exponent : Int} {c : Char}
    (hc : c ∈ positionalText digits exponent false) : c ∈ digits ∨ c = '0' ∨ c = '.' := by
  have hzeros {n : Nat} (hc : c ∈ List.replicate n '0') : c ∈ digits ∨ c = '0' ∨ c = '.' :=
    .inr (.inl (List.eq_of_mem_replicate hc))
  simp only [positionalText] at hc
  split at hc
  · rw [if_neg nofun, List.append_nil] at hc
    rcases List.mem_append.mp hc with hc | hc
    · exact .inl hc
    · exact hzeros hc
  · split at hc
    · rcases List.mem_append.mp hc with hc | hc
      · exact .inl (List.mem_of_mem_take hc)
      · rcases List.mem_cons.mp hc with hc | hc
        · exact .inr (.inr hc)
        · exact .inl (List.mem_of_mem_drop hc)
    · rcases List.mem_cons.mp hc with hc | hc
      · exact .inr (.inl hc)
      · rcases List.mem_cons.mp hc with hc | hc
        · exact .inr (.inr hc)
        · rcases List.mem_append.mp hc with hc | hc
          · exact hzeros hc
          · exact .inl hc

theorem isPlain_positionalText {digits : List Char} (h : ∀ c ∈ digits, c.isDigit = true)
    (exponent : Int) : ∀ c ∈ positionalText digits exponent false, IsPlain c := by
  intro c hc
  rcases mem_positionalText hc with hc | rfl | rfl
  · exact .inl (h c hc)
  · exact .inl rfl
  · exact .inr (.inl rfl)

/-- The digits of a number that is shown are written with the point in place. -/
theorem isPlain_digitsText (d : Digits) : ∀ c ∈ plain.digitsText d, IsPlain c := by
  have hdigits : ∀ c ∈ Nat.toDigits 10 d.digits, c.isDigit = true := fun c hc =>
    Nat.isDigit_of_mem_toDigits (by decide) (by decide) hc
  have hpositional : plain.positional = fun _ => true := rfl
  have hpoint : plain.keepPoint = false := rfl
  rw [Layout.digitsText, hpositional, hpoint]
  dsimp only
  split
  · exact isPlain_positionalText hdigits 0
  · exact isPlain_positionalText hdigits d.exponent

/-- No blanks are in the text of a number. -/
theorem isBlank_text (x : Float) : ∀ c ∈ (text x).toList, Text.isBlank c = false := by
  have hwords : ∀ word ∈ ["inf", "-inf", "NaN"], ∀ c ∈ word.toList, Text.isBlank c = false := by
    intro word hword c hc
    have hall : ∀ word ∈ ["inf", "-inf", "NaN"],
        word.toList.all (fun c => !Text.isBlank c) = true := by decide
    exact (Bool.not_eq_true' _).mp (List.all_eq_true.mp (hall word hword) c hc)
  -- a finite number is digits, signs and a point, the rest are three words
  rw [text, Layout.text]
  split
  · next m _ =>
      rw [String.toList_ofList]
      intro c hc
      split at hc
      · rcases List.mem_cons.mp hc with rfl | hc
        · decide
        · exact (isPlain_digitsText _ c hc).isBlank_eq
      · exact (isPlain_digitsText _ c hc).isBlank_eq
  · split
    · exact hwords "NaN" (by decide)
    · split
      · exact hwords "-inf" (by decide)
      · exact hwords "inf" (by decide)

end Decimal

end Formula
