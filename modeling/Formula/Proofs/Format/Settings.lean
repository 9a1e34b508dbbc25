import Formula.Format.Yaml.Write
import Formula.Proofs.Decimal.Natural
import Formula.Word

set_option autoImplicit false

/-! # Settings in texts

The names in files of settings consist of lower-case letters and underscores. A setting is a truth
value, a count of 64 bits or a word of lower-case letters, so that it stands in a text as it is.
-/

namespace Formula

/-- A lower-case letter, a digit or an underscore. -/
def isWordChar (c : Char) : Bool := c.isLower || c.isDigit || c == '_'

theorem isWordChar_of_isLower {c : Char} (h : c.isLower = true) : isWordChar c = true := by
  rw [isWordChar, h]
  rfl

theorem isWordChar_of_isDigit {c : Char} (h : c.isDigit = true) : isWordChar c = true := by
  rw [isWordChar, h, Bool.or_true]
  rfl

theorem toNat_of_isWordChar {c : Char} (h : isWordChar c = true) :
    48 ≤ c.toNat ∧ c.toNat ≤ 122 := by
  rw [isWordChar, Bool.or_eq_true, Bool.or_eq_true, beq_iff_eq] at h
  rcases h with (hlower | hdigit) | rfl
  · obtain ⟨hlow, hhigh⟩ := Bool.and_eq_true_iff.mp hlower
    have hlow : 97 ≤ c.toNat := of_decide_eq_true hlow
    have hhigh : c.toNat ≤ 122 := of_decide_eq_true hhigh
    omega
  · obtain ⟨hlow, hhigh⟩ := Char.isDigit_iff_toNat.mp hdigit
    have hlow : 48 ≤ c.toNat := hlow
    have hhigh : c.toNat ≤ 57 := hhigh
    omega
  · decide

/-- A name that is written as it is in front of a setting. -/
structure IsName (name : String) : Prop where
  ne_nil : name.toList ≠ []
  letter : name.toList.all (fun c => c.isLower || c == '_') = true
  short : name.toList.length ≤ Yaml.maxKeyWidth

instance (name : String) : Decidable (IsName name) :=
  decidable_of_iff
    (name.toList ≠ [] ∧ name.toList.all (fun c => c.isLower || c == '_') = true ∧
      name.toList.length ≤ Yaml.maxKeyWidth)
    ⟨fun h => ⟨h.1, h.2.1, h.2.2⟩, fun h => ⟨h.ne_nil, h.letter, h.short⟩⟩

theorem IsName.of_mem {name : String} (h : IsName name) :
    ∀ c ∈ name.toList, c.isLower = true ∨ c = '_' := by
  intro c hc
  have hletter := List.all_eq_true.mp h.letter c hc
  rwa [Bool.or_eq_true, beq_iff_eq] at hletter

theorem IsName.isWordChar_of_mem {name : String} (h : IsName name) :
    ∀ c ∈ name.toList, isWordChar c = true := by
  intro c hc
  rcases h.of_mem c hc with hlower | rfl
  · exact isWordChar_of_isLower hlower
  · decide

/-- A name begins with a character that stands for nothing else. -/
theorem IsName.exists_cons {name : String} (h : IsName name) :
    ∃ c more, name.toList = c :: more ∧ isWordChar c = true := by
  obtain ⟨c, more, hname⟩ := List.exists_cons_of_ne_nil h.ne_nil
  exact ⟨c, more, hname, h.isWordChar_of_mem c (by rw [hname]; exact List.mem_cons_self)⟩

/-- What a file sets a name to. -/
inductive IsSetting : Document → Prop where
  | bool (b : Bool) : IsSetting (.bool b)
  | count {n : Nat} (h : n < Word.size) : IsSetting (.integer n)
  | word {s : String} (h : Yaml.isPlain s = true) : IsSetting (.string s)

theorem isLower_of_isPlain {s : String} (h : Yaml.isPlain s = true) :
    ∀ c ∈ s.toList, c.isLower = true := by
  simp only [Yaml.isPlain, Bool.and_eq_true, List.all_eq_true] at h
  exact h.1.2

theorem ne_nil_of_isPlain {s : String} (h : Yaml.isPlain s = true) : s.toList ≠ [] := by
  simp only [Yaml.isPlain, Bool.and_eq_true, bne_iff_ne] at h
  intro hnil
  exact h.1.1 (String.toList_eq_nil_iff.mp hnil)

end Formula
