import Formula.Format.Json

set_option autoImplicit false

/-! # Scalars in JSON texts

A string is read back from its text whatever its characters are: what stands for a character is
read as that character and never begins with the quote that closes the string. The text of a number
is read in the same way wherever a value may end behind it, so a number that is read back from its
text alone (`ReadsBack`) is read back inside of arrays and objects.
-/

namespace Formula.Json

open Decimal (spanDigits)

/-! ## Numbers -/

/-- A character that a value ends in front of: a blank, a comma or a closing bracket. -/
def EndsValue (c : Char) : Prop := isSpace c = true ∨ c = ',' ∨ c = ']' ∨ c = '\x7d'

/-- No number goes on with a character that ends values. -/
theorem EndsValue.not_number {c : Char} (h : EndsValue c) :
    c.isDigit = false ∧ c ≠ '.' ∧ ¬(c = 'e' ∨ c = 'E') := by
  rcases h with h | rfl | rfl | rfl
  · simp only [isSpace, Bool.or_eq_true, beq_iff_eq] at h
    rcases h with ((rfl | rfl) | rfl) | rfl <;> decide
  · decide
  · decide
  · decide

/-- The text behind a value: nothing, or a text that begins with a character that ends values. -/
def Ends (rest : List Char) : Prop := ∀ c more, rest = c :: more → EndsValue c

theorem ends_cons {c : Char} (h : EndsValue c) (rest : List Char) : Ends (c :: rest) := by
  intro d more heq
  cases heq
  exact h

theorem Ends.spanDigits_eq {rest : List Char} (h : Ends rest) : spanDigits rest = ([], rest) := by
  cases rest with
  | nil => rfl
  | cons c more =>
      have hc : c.isDigit = false := (h c more rfl).not_number.1
      rw [spanDigits, List.takeWhile_cons_of_neg (by simp [hc]),
        List.dropWhile_cons_of_neg (by simp [hc])]

/-- No digits are taken from the text behind a value. -/
theorem spanDigits_append (cs : List Char) {rest : List Char} (h : Ends rest) :
    spanDigits (cs ++ rest) = ((spanDigits cs).1, (spanDigits cs).2 ++ rest) := by
  induction cs with
  | nil => exact h.spanDigits_eq
  | cons c cs ih =>
      simp only [spanDigits, Prod.mk.injEq] at ih
      by_cases hc : c.isDigit = true
      · simp only [spanDigits, List.cons_append, List.takeWhile_cons_of_pos hc,
          List.dropWhile_cons_of_pos hc, ih]
      · simp only [spanDigits, List.cons_append, List.takeWhile_cons_of_neg hc,
          List.dropWhile_cons_of_neg hc]

theorem wholeDigits?_append {cs digits more rest : List Char}
    (hcs : wholeDigits? cs = some (digits, more)) (h : Ends rest) :
    wholeDigits? (cs ++ rest) = some (digits, more ++ rest) := by
  unfold wholeDigits? at hcs ⊢
  rw [spanDigits_append cs h]
  cases hspan : spanDigits cs with
  | mk whole left =>
      rw [hspan] at hcs
      split at hcs
      · exact nomatch hcs
      · cases hcs
        simp_all
      · exact nomatch hcs
      · simp_all

theorem places?_cons {c : Char} (h : c ≠ '.') (cs : List Char) :
    places? (c :: cs) = some ([], c :: cs) := by
  unfold places?
  split
  · next heq =>
      cases heq
      exact absurd rfl h
  · rfl

theorem places?_append {cs digits more rest : List Char}
    (hcs : places? cs = some (digits, more)) (h : Ends rest) :
    places? (cs ++ rest) = some (digits, more ++ rest) := by
  cases cs with
  | nil =>
      cases hcs
      cases rest with
      | nil => rfl
      -- no digits behind a point: what ends a value does not begin with one
      | cons c left => exact places?_cons (h c left rfl).not_number.2.1 left
  | cons c cs =>
      rw [List.cons_append]
      by_cases hpoint : c = '.'
      · subst hpoint
        simp only [places?] at hcs ⊢
        rw [spanDigits_append cs h]
        split at hcs
        · exact nomatch hcs
        · simp_all
      · rw [places?_cons hpoint] at hcs ⊢
        cases hcs
        rfl

/-- A sign is taken from the same place, unless there is no text to take it from. -/
theorem takeSign_append (c : Char) (cs rest : List Char) :
    Decimal.takeSign (c :: cs ++ rest)
      = ((Decimal.takeSign (c :: cs)).1, (Decimal.takeSign (c :: cs)).2 ++ rest) := by
  rw [List.cons_append]
  unfold Decimal.takeSign
  split <;> simp_all

theorem power?_append {cs more rest : List Char} {power : Option Int}
    (hcs : power? cs = some (power, more)) (h : Ends rest) :
    power? (cs ++ rest) = some (power, more ++ rest) := by
  cases cs with
  | nil =>
      cases hcs
      cases rest with
      | nil => rfl
      | cons c left =>
          -- what ends a value does not begin with the letter of a power either
          rw [List.nil_append, power?, if_neg (h c left rfl).not_number.2.2]
  | cons c cs =>
      rw [List.cons_append]
      simp only [power?] at hcs ⊢
      by_cases hletter : c = 'e' ∨ c = 'E'
      · rw [if_pos hletter] at hcs ⊢
        cases cs with
        | nil => exact nomatch hcs
        | cons sign cs =>
            simp only [takeSign_append, spanDigits_append _ h]
            split at hcs
            · exact nomatch hcs
            · simp_all
      · rw [if_neg hletter] at hcs ⊢
        cases hcs
        rfl

/-- A number without its sign. -/
def unsigned? (negative : Bool) (cs : List Char) : Option (Document × List Char) := do
  let (whole, rest) ← wholeDigits? cs
  let (places, rest) ← places? rest
  let (power, rest) ← power? rest
  if places = [] ∧ power = none then some (wholeNumber negative whole, rest)
  else some (realNumber negative whole places (power.getD 0), rest)

theorem number?_minus (cs : List Char) : number? ('-' :: cs) = unsigned? true cs := rfl

theorem number?_of_ne {cs : List Char} (h : ∀ rest, cs ≠ '-' :: rest) :
    number? cs = unsigned? false cs := by
  unfold number?
  split
  next negative more heq =>
    split at heq
    · exact absurd rfl (h _)
    · cases heq
      rfl

theorem unsigned?_append {negative : Bool} {cs rest : List Char} {d : Document}
    (hcs : unsigned? negative cs = some (d, [])) (h : Ends rest) :
    unsigned? negative (cs ++ rest) = some (d, rest) := by
  obtain ⟨⟨whole, behindWhole⟩, hwhole, hcs⟩ := Option.bind_eq_some_iff.mp hcs
  obtain ⟨⟨places, behindPlaces⟩, hplaces, hcs⟩ := Option.bind_eq_some_iff.mp hcs
  obtain ⟨⟨power, behindPower⟩, hpower, hcs⟩ := Option.bind_eq_some_iff.mp hcs
  simp only [unsigned?, wholeDigits?_append hwhole h, places?_append hplaces h,
    power?_append hpower h, Option.bind_eq_bind, Option.bind_some]
  dsimp only at hcs
  by_cases hwhole : places = [] ∧ power = none
  · rw [if_pos hwhole] at hcs ⊢
    cases hcs
    rfl
  · rw [if_neg hwhole] at hcs ⊢
    cases hcs
    rfl

/-- A number is read in the same way whatever follows it. -/
theorem number?_append {cs rest : List Char} {d : Document} (hcs : number? cs = some (d, []))
    (h : Ends rest) : number? (cs ++ rest) = some (d, rest) := by
  by_cases hminus : ∃ more, cs = '-' :: more
  · obtain ⟨more, rfl⟩ := hminus
    rw [number?_minus] at hcs
    exact unsigned?_append hcs h
  · have hne : ∀ more, cs ≠ '-' :: more := fun more heq => hminus ⟨more, heq⟩
    rw [number?_of_ne hne] at hcs
    rw [number?_of_ne, unsigned?_append hcs h]
    intro more heq
    cases cs with
    | nil => exact nomatch hcs
    | cons c cs =>
        cases heq
        exact hne cs rfl

theorem isDigit_of_unsigned? {negative : Bool} {c : Char} {cs : List Char}
    {r : Document × List Char} (h : unsigned? negative (c :: cs) = some r) : c.isDigit = true := by
  obtain ⟨whole, hwhole, -⟩ := Option.bind_eq_some_iff.mp h
  cases hc : c.isDigit with
  | true => rfl
  | false =>
      rw [wholeDigits?, spanDigits, List.takeWhile_cons_of_neg (by rw [hc]; nofun)] at hwhole
      exact nomatch hwhole

/-- A character that a number begins with. -/
def OpensNumber (c : Char) : Prop := c = '-' ∨ c.isDigit = true

theorem OpensNumber.ne {c d : Char} (h : OpensNumber c) (hd : d ≠ '-' ∧ d.isDigit = false) :
    c ≠ d := by
  rintro rfl
  rcases h with rfl | h
  · exact hd.1 rfl
  · rw [hd.2] at h
    exact nomatch h

theorem exists_eq_of_number? {cs : List Char} {r : Document × List Char}
    (h : number? cs = some r) : ∃ c more, cs = c :: more ∧ OpensNumber c := by
  cases cs with
  | nil => exact nomatch h
  | cons c more =>
      refine ⟨c, more, rfl, ?_⟩
      by_cases hminus : c = '-'
      · exact .inl hminus
      · rw [number?_of_ne fun rest heq => hminus (List.cons.inj heq).1] at h
        exact .inr (isDigit_of_unsigned? h)

/-! ## Strings -/

theorem hexDigit?_hexDigit (n : Nat) (h : n < 16) : hexDigit? (hexDigit n) = some n := by
  have hall : ∀ n : Fin 16, hexDigit? (hexDigit n.val) = some n.val := by decide
  exact hall ⟨n, h⟩

theorem hexUnit?_control {n : Nat} (h : n < 0x20) (rest : List Char) :
    hexUnit? ('0' :: '0' :: hexDigit (n / 16) :: hexDigit (n % 16) :: rest) = some (n, rest) := by
  have hzero : hexDigit? '0' = some 0 := by decide
  have hunit : ((0 * 16 + 0) * 16 + n / 16) * 16 + n % 16 = n := by omega
  rw [hexUnit?, hzero, hexDigit?_hexDigit (n / 16) (by omega),
    hexDigit?_hexDigit (n % 16) (by omega)]
  simp only [Option.bind_eq_bind, Option.bind_some, hunit]

theorem stringChar?_control {c : Char} (h : c.toNat < 0x20) (rest : List Char) :
    stringChar? ('\\' :: 'u' :: '0' :: '0' :: hexDigit (c.toNat / 16) :: hexDigit (c.toNat % 16)
      :: rest) = some (c, rest) := by
  rw [stringChar?, unicodeEscape?, hexUnit?_control h]
  simp only [Option.bind_eq_bind, Option.bind_some]
  rw [if_neg (by omega), if_neg (by omega), Char.ofNat_toNat]

theorem stringChar?_plain {c : Char} (hslash : c ≠ '\\') (hcontrol : ¬c.toNat < 0x20)
    (rest : List Char) : stringChar? (c :: rest) = some (c, rest) := by
  unfold stringChar?
  split
  · next heq => exact nomatch heq
  · next heq =>
      cases heq
      exact absurd rfl hslash
  · next heq =>
      cases heq
      exact absurd rfl hslash
  · next heq =>
      cases heq
      rw [if_neg (not_or.mpr ⟨hslash, hcontrol⟩)]

/-- What stands for a character is read as that character. -/
theorem stringChar?_escape (c : Char) (rest : List Char) :
    stringChar? (escape c ++ rest) = some (c, rest) := by
  unfold escape
  split
  · rfl
  · rfl
  · rfl
  · rfl
  · rfl
  · rfl
  · rfl
  · next hquote hslash _ _ _ _ _ =>
      split
      · next hcontrol => exact stringChar?_control hcontrol rest
      · next hcontrol => exact stringChar?_plain hslash hcontrol rest

/-- What stands for a character is not empty and does not begin with a quote. -/
theorem exists_escape_eq (c : Char) : ∃ d more, escape c = d :: more ∧ d ≠ '"' := by
  unfold escape
  split
  any_goals exact ⟨_, _, rfl, by decide⟩
  next hquote _ _ _ _ _ _ =>
    split
    · exact ⟨_, _, rfl, by decide⟩
    · exact ⟨c, [], rfl, hquote⟩

theorem stringBody?_escape (fuel : Nat) (c : Char) (rest : List Char) :
    stringBody? (fuel + 1) (escape c ++ rest)
      = (stringBody? fuel rest).map fun r => (c :: r.1, r.2) := by
  rw [stringBody?]
  · rw [stringChar?_escape]
    simp only [Option.bind_eq_bind, Option.bind_some]
    cases stringBody? fuel rest <;> rfl
  · intro more h
    obtain ⟨d, behind, hescape, hquote⟩ := exists_escape_eq c
    rw [hescape] at h
    exact hquote (List.cons.inj h).1

theorem stringBody?_escaped (cs rest : List Char) {fuel : Nat} (h : cs.length < fuel) :
    stringBody? fuel (cs.flatMap escape ++ '"' :: rest) = some (cs, rest) := by
  induction cs generalizing fuel with
  | nil =>
      obtain ⟨fuel, rfl⟩ : ∃ n, fuel = n + 1 := ⟨fuel - 1, by omega⟩
      rfl
  | cons c cs ih =>
      obtain ⟨fuel, rfl⟩ : ∃ n, fuel = n + 1 := ⟨fuel - 1, by omega⟩
      rw [List.length_cons] at h
      rw [List.flatMap_cons, List.append_assoc, stringBody?_escape, ih (by omega)]
      rfl

theorem length_le_flatMap_escape (cs : List Char) : cs.length ≤ (cs.flatMap escape).length := by
  induction cs with
  | nil => exact Nat.le_refl 0
  | cons c cs ih =>
      obtain ⟨d, behind, hescape, -⟩ := exists_escape_eq c
      rw [List.flatMap_cons, List.length_append, hescape, List.length_cons, List.length_cons]
      omega

theorem string?_escaped (s : String) (rest : List Char) :
    string? (s.toList.flatMap escape ++ '"' :: rest) = some (s, rest) := by
  have hlength := length_le_flatMap_escape s.toList
  rw [string?, stringBody?_escaped, Option.map_some, String.ofList_toList]
  rw [List.length_append]
  omega

/-! ## Scalars -/

/-- The text of a scalar is read as that scalar. -/
def ReadsBack (d : Document) : Prop := simple? (simple d) = some (d, [])

theorem quoted_append (s : String) (rest : List Char) :
    quoted s ++ rest = '"' :: (s.toList.flatMap escape ++ '"' :: rest) := by
  rw [quoted, List.cons_append, List.append_assoc]
  rfl

theorem simple?_quoted (s : String) (rest : List Char) :
    simple? (quoted s ++ rest) = some (.string s, rest) := by
  rw [quoted_append, simple?, string?_escaped, Option.map_some]

theorem readsBack_bool (b : Bool) : ReadsBack (.bool b) := by cases b <;> rfl

theorem readsBack_string (s : String) : ReadsBack (.string s) := by
  have h := simple?_quoted s []
  rwa [List.append_nil] at h

/-- What is read as neither null nor a truth value nor a string is read as a number. -/
theorem number?_of_simple? {cs : List Char} {d : Document} {rest : List Char}
    (h : simple? cs = some (d, rest)) :
    number? cs = some (d, rest) ∨ d = .null ∨ (∃ b, d = .bool b) ∨ ∃ s, d = .string s := by
  -- by what the text begins with: a quotation mark, one of the three words, or anything else
  unfold simple? at h
  split at h
  · obtain ⟨r, -, hr⟩ := Option.map_eq_some_iff.mp h
    cases hr
    exact .inr (.inr (.inr ⟨_, rfl⟩))
  · obtain ⟨r, -, hr⟩ := Option.map_eq_some_iff.mp h
    cases hr
    exact .inr (.inl rfl)
  · obtain ⟨r, -, hr⟩ := Option.map_eq_some_iff.mp h
    cases hr
    exact .inr (.inr (.inl ⟨_, rfl⟩))
  · obtain ⟨r, -, hr⟩ := Option.map_eq_some_iff.mp h
    cases hr
    exact .inr (.inr (.inl ⟨_, rfl⟩))
  · exact .inl h

theorem simple?_number {c : Char} (h : OpensNumber c) (cs : List Char) :
    simple? (c :: cs) = number? (c :: cs) := by
  unfold simple?
  split
  · next heq => exact absurd (List.cons.inj heq).1 (h.ne (by decide))
  · next heq => exact absurd (List.cons.inj heq).1 (h.ne (by decide))
  · next heq => exact absurd (List.cons.inj heq).1 (h.ne (by decide))
  · next heq => exact absurd (List.cons.inj heq).1 (h.ne (by decide))
  · rfl

theorem simple?_of_number? {cs : List Char} {r : Document × List Char}
    (h : number? cs = some r) : simple? cs = some r := by
  obtain ⟨c, more, rfl, hopens⟩ := exists_eq_of_number? h
  rwa [simple?_number hopens]

/-- The text of a scalar is read as that scalar whatever follows it. -/
theorem simple?_append {d : Document} (h : ReadsBack d) {rest : List Char} (hrest : Ends rest) :
    simple? (simple d ++ rest) = some (d, rest) := by
  rcases number?_of_simple? h with hnumber | rfl | ⟨b, rfl⟩ | ⟨s, rfl⟩
  · exact simple?_of_number? (number?_append hnumber hrest)
  · rfl
  · cases b <;> rfl
  · exact simple?_quoted s rest

end Formula.Json
