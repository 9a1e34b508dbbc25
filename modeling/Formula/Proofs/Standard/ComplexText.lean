import Formula.Proofs.Decimal.ReadBack
import Formula.Standard.Elementary

set_option autoImplicit false

/-! # Complex numbers read back from their text

A complex number is written as one of its parts or as both, and it is read by looking for the sign
between them. In the text of a number there is no sign but in front, and none behind the letter of a
power of ten, since no number is written with one. So the sign that is found is the one between the
parts, if both are written, and each part is read back (`makeComplex_text`). What is lost is the
sign of a part that is zero and not written.
-/

namespace Formula

namespace Binary64

/-- Two doubles are the same, or both are zeros. -/
def Alike (x y : Float) : Prop := x = y ∨ (x == 0) = true ∧ (y == 0) = true

/-- What is equal to a number other than zero is that number. -/
theorem eq_of_beq {x y : Float} (hy : y ≠ 0 ∧ y ≠ -0) (h : (x == y) = true) : x = y := by
  rw [Float.beq_iff_ne_nan_and_eq] at h
  obtain ⟨-, -, h | ⟨-, h⟩ | ⟨-, h⟩⟩ := h
  · exact h
  · exact absurd h hy.2
  · exact absurd h hy.1

end Binary64

namespace Decimal

variable {x : Float}

/-- A sign in front of a number or between two parts. -/
def isSign (c : Char) : Bool := c = '+' ∨ c = '-'

/-- The text without a sign is quiet: nothing in it is a sign or the letter of a power of ten. -/
theorem quiet_unsignedText (x : Float) :
    ∀ c ∈ unsignedText x, isSign c = false ∧ c ≠ 'e' ∧ c ≠ 'E' := by
  intro c hc
  cases hfinite : Binary64.finite? x with
  | some m =>
      rcases isDigit_of_mem_unsignedText hfinite hc with hdigit | rfl
      · have hne {d : Char} (hd : d.isDigit = false) : c ≠ d := ne_of_eq_false hdigit hd
        refine ⟨decide_eq_false (not_or.mpr ⟨?_, ?_⟩), ?_, ?_⟩
        all_goals exact hne (by decide)
      · decide
  | none =>
      rw [unsignedText_infinite hfinite] at hc
      simp only [List.mem_cons, List.not_mem_nil, or_false] at hc
      rcases hc with rfl | rfl | rfl
      all_goals decide

/-- No text of a number ends with the letter of an imaginary part. -/
theorem getLast?_unsignedText (x : Float) : (unsignedText x).getLast? ≠ some 'i' := by
  intro h
  have hmem := List.mem_of_getLast? h
  cases hfinite : Binary64.finite? x with
  | some m =>
      rcases isDigit_of_mem_unsignedText hfinite hmem with hdigit | hpoint
      · exact absurd hdigit (by decide)
      · exact absurd hpoint (by decide)
  | none =>
      rw [unsignedText_infinite hfinite] at h
      exact absurd h (by decide)

theorem unsignedText_ne_nil (x : Float) : unsignedText x ≠ [] := by
  obtain ⟨c, more, heq, -⟩ := exists_unsignedText_eq x
  rw [heq]
  exact List.cons_ne_nil c more

end Decimal

namespace Complex

open Decimal
open Binary64 (Alike eq_of_beq)

/-! ## The sign between the parts -/

section

variable {before front cs rest : List Char}

/-- Without a sign there is nothing to split at. -/
theorem splitAtSign_of_forall (h : ∀ c ∈ cs, isSign c = false) (before : List Char) :
    splitAtSign before cs = none := by
  induction cs generalizing before with
  | nil => rfl
  | cons c rest ih =>
      obtain ⟨hc, hrest⟩ := List.forall_mem_cons.mp h
      rw [splitAtSign, ih hrest]
      cases before with
      | nil => rfl
      | cons last before => exact if_neg fun hsplit => of_decide_eq_false hc hsplit.1

/-- A sign in front is not split at. -/
theorem splitAtSign_front (c : Char) (h : ∀ c ∈ rest, isSign c = false) :
    splitAtSign [] (c :: rest) = none := by
  rw [splitAtSign, splitAtSign_of_forall h]

theorem splitAtSign_append {parts : List Char × List Char} (front : List Char)
    (h : splitAtSign (front.reverse ++ before) cs = some parts) :
    splitAtSign before (front ++ cs) = some parts := by
  induction front generalizing before with
  | nil => exact h
  | cons c front ih =>
      rw [List.reverse_cons, List.append_assoc, List.singleton_append] at h
      rw [List.cons_append, splitAtSign, ih h]

/-- A text is split at its last sign, if there is something in front of the sign that ends with no
letter of a power of ten. -/
theorem splitAtSign_last {sign : Char} (hsign : isSign sign = true) {last : Char}
    (hlast : front.getLast? = some last) (hpower : last ≠ 'e' ∧ last ≠ 'E')
    (hrest : ∀ c ∈ rest, isSign c = false) :
    splitAtSign [] (front ++ sign :: rest) = some (front, sign :: rest) := by
  refine splitAtSign_append front ?_
  rw [List.append_nil, splitAtSign, splitAtSign_of_forall hrest]
  obtain ⟨more, hmore⟩ : ∃ more, front.reverse = last :: more := by
    rw [← List.head?_reverse] at hlast
    exact List.head?_eq_some_iff.mp hlast
  rw [hmore]
  dsimp only
  rw [if_pos ⟨of_decide_eq_true hsign, hpower⟩, ← hmore, List.reverse_reverse]

end

/-! ## Parts -/

variable {x : Float} {z : Complex}

/-- Blanks do not count. -/
theorem compact_of_forall {cs : List Char} (h : ∀ c ∈ cs, Text.isBlank c = false) :
    cs.filter (fun c => !Text.isBlank c) = cs :=
  List.filter_eq_self.mpr fun c hc => by rw [h c hc]; rfl

theorem text_ne_nil (hx : x.isNaN = false) : (Decimal.text x).toList ≠ [] := by
  rw [toList_text hx]
  split
  · exact List.cons_ne_nil _ _
  · exact unsignedText_ne_nil x

theorem getLast?_text (hx : x.isNaN = false) :
    ∃ last, (Decimal.text x).toList.getLast? = some last ∧
      last ≠ 'e' ∧ last ≠ 'E' ∧ last ≠ 'i' := by
  obtain ⟨last, hlast⟩ : ∃ last, (unsignedText x).getLast? = some last :=
    ⟨_, List.getLast?_eq_some_getLast (unsignedText_ne_nil x)⟩
  obtain ⟨-, hpower⟩ := quiet_unsignedText x last (List.mem_of_getLast? hlast)
  have hletter : last ≠ 'i' := fun h => getLast?_unsignedText x (h ▸ hlast)
  refine ⟨last, ?_, hpower.1, hpower.2, hletter⟩
  rw [toList_text hx]
  split
  · rw [List.getLast?_cons, hlast]
    rfl
  · exact hlast

/-- The only sign in the text of a number is in front. -/
theorem splitAtSign_text (hx : x.isNaN = false) :
    splitAtSign [] ((Decimal.text x).toList ++ ['i']) = none := by
  have hquiet : ∀ c ∈ unsignedText x ++ ['i'], isSign c = false := by
    refine List.forall_mem_append.mpr ⟨fun c hc => (quiet_unsignedText x c hc).1, ?_⟩
    exact List.forall_mem_singleton.mpr rfl
  rw [toList_text hx]
  split
  · exact splitAtSign_front '-' hquiet
  · exact splitAtSign_of_forall hquiet []

/-! ### Factors -/

/-- A number is read as the factor that it is. -/
theorem readFactor_text (hx : x.isNaN = false) : readFactor (Decimal.text x).toList = some x := by
  have hread := read?_text hx
  rw [← String.ofList_toList (s := Decimal.text x)] at hread
  unfold readFactor
  split
  · next heq => exact absurd heq (text_ne_nil hx)
  · next heq =>
      rw [heq] at hread
      cases hread
  · next heq =>
      rw [heq] at hread
      cases hread
  · exact hread

/-- So is a number with a sign in front, if it has none itself. -/
theorem readFactor_signed (hx : x.isNaN = false) (hsign : Binary64.isNegative x = false) :
    readFactor ('+' :: (Decimal.text x).toList) = some x ∧
      readFactor ('-' :: (Decimal.text x).toList) = some (-x) := by
  obtain ⟨hplus, hminus⟩ := read?_signed hx hsign
  have hne := text_ne_nil hx
  constructor
  · unfold readFactor
    split
    · next heq => cases heq
    · next heq => exact absurd (List.cons.inj heq).2 hne
    · next heq => cases heq
    · exact hplus
  · unfold readFactor
    split
    · next heq => cases heq
    · next heq => cases heq
    · next heq => exact absurd (List.cons.inj heq).2 hne
    · exact hminus

/-! ### The three forms -/

/-- A real part alone. -/
theorem read?_real (hx : x.isNaN = false) : read? (Decimal.text x) = some ⟨x, 0⟩ := by
  obtain ⟨last, hlast, -, -, hletter⟩ := getLast?_text hx
  have hreal : (Decimal.text x).toList.getLast? ≠ some 'i' := by
    rw [hlast]
    exact fun h => hletter (Option.some.inj h)
  rw [read?, compact_of_forall (isBlank_text x), if_neg (text_ne_nil hx), if_pos hreal,
    String.ofList_toList, read?_text hx]
  rfl

/-- An imaginary part alone. -/
theorem read?_imaginary {text : String} (factor : List Char)
    (htext : text.toList = factor ++ ['i']) (hblank : ∀ c ∈ factor, Text.isBlank c = false)
    (hsplit : splitAtSign [] (factor ++ ['i']) = none) (hread : readFactor factor = some x) :
    read? text = some ⟨0, x⟩ := by
  have hcompact : text.toList.filter (fun c => !Text.isBlank c) = factor ++ ['i'] := by
    rw [htext, List.filter_append, compact_of_forall hblank]
    rfl
  rw [read?, hcompact, if_neg (by simp), if_neg (by simp), hsplit]
  dsimp only
  rw [List.dropLast_concat, hread]
  rfl

/-- Both parts, with a sign between blanks. -/
theorem read?_sum {text : String} {sign : Char} {im : Float} (factor : List Char)
    (hx : x.isNaN = false) (hsign : isSign sign = true)
    (htext : text.toList = (Decimal.text x).toList ++ ' ' :: sign :: ' ' :: (factor ++ ['i']))
    (hblank : ∀ c ∈ factor, Text.isBlank c = false) (hquiet : ∀ c ∈ factor, isSign c = false)
    (hread : readFactor (sign :: factor) = some im) : read? text = some ⟨x, im⟩ := by
  have hsolid : Text.isBlank sign = false := by
    rcases of_decide_eq_true hsign with rfl | rfl
    · decide
    · decide
  -- the blanks around the sign go, those inside of the parts do not exist
  have hcompact : text.toList.filter (fun c => !Text.isBlank c)
      = (Decimal.text x).toList ++ sign :: (factor ++ ['i']) := by
    rw [htext, List.filter_append, compact_of_forall (isBlank_text x),
      List.filter_cons_of_neg (by decide), List.filter_cons_of_pos (by rw [hsolid]; rfl),
      List.filter_cons_of_neg (by decide), List.filter_append, compact_of_forall hblank]
    rfl
  have hletter : ((Decimal.text x).toList ++ sign :: (factor ++ ['i'])).getLast? = some 'i' := by
    rw [← List.cons_append, ← List.append_assoc, List.getLast?_concat]
  have hfactor : (sign :: (factor ++ ['i'])).dropLast = sign :: factor := by
    rw [← List.cons_append, List.dropLast_concat]
  obtain ⟨last, hlast, hpower, hpower', -⟩ := getLast?_text hx
  -- no sign stands behind the one in the middle, so the text is split there
  have hbehind : ∀ c ∈ factor ++ ['i'], isSign c = false :=
    List.forall_mem_append.mpr ⟨hquiet, List.forall_mem_singleton.mpr rfl⟩
  rw [read?, hcompact, if_neg (by simp), if_neg (fun h => h hletter),
    splitAtSign_last hsign hlast ⟨hpower, hpower'⟩ hbehind]
  dsimp only
  rw [String.ofList_toList, read?_text hx, hfactor, hread]
  rfl

/-- Both parts, the imaginary one without a minus of its own, and not written if it is one. -/
theorem read?_parts {sign : Char} {size im : Float} (hx : x.isNaN = false)
    (hsize : size.isNaN = false) (hpositive : Binary64.isNegative size = false)
    (hsign : isSign sign = true)
    (hread : readFactor (sign :: (Decimal.text size).toList) = some im)
    (hunit : (size == 1) = true → readFactor [sign] = some im) :
    read? (Decimal.text x ++ String.ofList [' ', sign, ' ']
      ++ (if size == 1 then "i" else Decimal.text size ++ "i")) = some ⟨x, im⟩ := by
  split
  · next hone =>
      refine read?_sum [] hx hsign ?_ nofun nofun (hunit hone)
      simp
  · refine read?_sum (Decimal.text size).toList hx hsign ?_ (isBlank_text size) ?_ hread
    · simp
    · rw [toList_text hsize, hpositive, if_neg Bool.false_ne_true]
      exact fun c hc => (quiet_unsignedText size c hc).1

/-! ## Complex numbers -/

/-- What is read from the text of a complex number. -/
theorem read?_text (hre : z.re.isNaN = false) (him : z.im.isNaN = false) :
    ∃ w, read? z.text = some w ∧ Alike w.re z.re ∧ Alike w.im z.im := by
  rw [text]
  by_cases hreal : (z.im == 0) = true
  · rw [if_pos hreal]
    exact ⟨_, read?_real hre, .inl rfl, .inr ⟨Binary64.zero_beq_zero, hreal⟩⟩
  · rw [if_neg hreal]
    by_cases himaginary : (z.re == 0) = true
    · rw [if_pos himaginary]
      -- the real part is not written, and zero is read for it whatever its sign was
      refine ⟨⟨0, z.im⟩, ?_, .inr ⟨Binary64.zero_beq_zero, himaginary⟩, .inl rfl⟩
      split
      · next hone =>
          rw [eq_of_beq (by decide) hone]
          exact read?_imaginary [] rfl nofun rfl rfl
      · split
        · next hone =>
            rw [eq_of_beq (by decide) hone]
            exact read?_imaginary ['-'] rfl (List.forall_mem_singleton.mpr (by decide)) rfl rfl
        · exact read?_imaginary _ String.toList_append (isBlank_text z.im) (splitAtSign_text him)
            (readFactor_text him)
    · rw [if_neg himaginary]
      refine ⟨z, ?_, .inl rfl, .inl rfl⟩
      -- the sign between the parts is that of the imaginary part, and its size follows
      have hbelow := Binary64.lt_zero_iff him (Bool.eq_false_iff.mpr hreal)
      cases hsign : Binary64.isNegative z.im with
      | false =>
          have habs : z.im.abs = z.im := by
            rw [Binary64.abs_eq him, hsign, if_neg Bool.false_ne_true]
          rw [if_neg (by rw [hbelow, hsign]; exact nofun), habs]
          refine read?_parts hre him hsign rfl (readFactor_signed him hsign).1 fun hone => ?_
          rw [eq_of_beq (by decide) hone]
          rfl
      | true =>
          have habs : z.im.abs = -z.im := by
            rw [Binary64.abs_eq him, hsign, if_pos rfl]
          have hnan : (-z.im).isNaN = false := (Binary64.isNaN_neg z.im).trans him
          have hpositive : Binary64.isNegative (-z.im) = false := by
            rw [Binary64.isNegative_neg him, hsign]
            rfl
          have hread := (readFactor_signed hnan hpositive).2
          rw [Binary64.neg_neg] at hread
          rw [if_pos (hbelow.mpr hsign), habs]
          refine read?_parts hre hnan hpositive rfl hread fun hone => ?_
          rw [← Binary64.neg_neg z.im, eq_of_beq (by decide) hone]
          rfl

end Complex

/-- A complex number without NaN is made again from its text, but for the signs of zeros. -/
theorem makeComplex_text {z : Complex} (hre : z.re.isNaN = false) (him : z.im.isNaN = false) :
    ∃ w, makeComplex [.string z.text] = .ok (.complex w) ∧ Binary64.Alike w.re z.re ∧
      Binary64.Alike w.im z.im := by
  obtain ⟨w, hread, hw⟩ := Complex.read?_text hre him
  refine ⟨w, ?_, hw⟩
  rw [makeComplex, hread]

/-- The number `-0.5 - ∞i`. -/
theorem makeComplex_text_infinite :
    (Float.ofBits 0xbfe0000000000000).isNaN = false ∧
      (Float.ofBits 0xfff0000000000000).isNaN = false ∧
      Complex.text ⟨Float.ofBits 0xbfe0000000000000, Float.ofBits 0xfff0000000000000⟩
        = "-0.5 - infi" ∧
      ∃ w, makeComplex [.string "-0.5 - infi"] = .ok (.complex w) ∧
        Binary64.Alike w.re (Float.ofBits 0xbfe0000000000000) ∧
        Binary64.Alike w.im (Float.ofBits 0xfff0000000000000) := by
  have hre : (Float.ofBits 0xbfe0000000000000).isNaN = false := by decide
  have him : (Float.ofBits 0xfff0000000000000).isNaN = false := by decide
  have htext : Complex.text ⟨Float.ofBits 0xbfe0000000000000, Float.ofBits 0xfff0000000000000⟩
      = "-0.5 - infi" := by rfl
  have hmade := @makeComplex_text ⟨Float.ofBits 0xbfe0000000000000, Float.ofBits 0xfff0000000000000⟩
    hre him
  rw [htext] at hmade
  exact ⟨hre, him, htext, hmade⟩

end Formula
