import Formula.Format.Yaml.Line
import Formula.Proofs.Format.Settings
import Formula.Proofs.Text.Trim

set_option autoImplicit false

/-! # Lines that are cut apart again

A text of lines without quotes and comments is cut where its lines end, and nothing of a line is
lost but its indentation, which is counted.
-/

namespace Formula.Yaml

open Decimal (ne_of_eq_false)

/-- A character that stands for itself: it shows or is a space, and it neither opens a string nor a
comment. -/
def isPlainChar (c : Char) : Bool :=
  0x20 ≤ c.toNat && c.toNat ≤ 0x7E && c != '"' && c != '\'' && c != '#'

theorem isPlainChar_of_isWordChar {c : Char} (h : isWordChar c = true) : isPlainChar c = true := by
  have hrange := toNat_of_isWordChar h
  have hquote : c ≠ '"' := ne_of_eq_false h (by decide)
  have hsingle : c ≠ '\'' := ne_of_eq_false h (by decide)
  have hmark : c ≠ '#' := ne_of_eq_false h (by decide)
  simp only [isPlainChar, Bool.and_eq_true, decide_eq_true_eq, bne_iff_ne]
  exact ⟨⟨⟨⟨by omega, by omega⟩, hquote⟩, hsingle⟩, hmark⟩

theorem isAllowed_of_isPlainChar {c : Char} (h : isPlainChar c = true) : isAllowed c = true := by
  simp only [isPlainChar, Bool.and_eq_true, decide_eq_true_eq] at h
  simp only [isAllowed, Bool.or_eq_true, Bool.and_eq_true, decide_eq_true_eq]
  omega

theorem isBreak_of_isPlainChar {c : Char} (h : isPlainChar c = true) : isBreak c = false := by
  simp only [isBreak, Bool.or_eq_false_iff, beq_eq_false_iff_ne]
  refine ⟨⟨⟨⟨?_, ?_⟩, ?_⟩, ?_⟩, ?_⟩ <;> exact ne_of_eq_false h (by decide)

theorem isBlank_of_isWordChar {c : Char} (h : isWordChar c = true) : isBlank c = false := by
  simp only [isBlank, Bool.or_eq_false_iff, beq_eq_false_iff_ne]
  exact ⟨ne_of_eq_false h (by decide), ne_of_eq_false h (by decide)⟩

/-! ## Cutting -/

/-- Lines of characters that stand for themselves. -/
def Plain (lines : List (List Char)) : Prop := ∀ cs ∈ lines, ∀ c ∈ cs, isPlainChar c = true

/-- Lines, each with its end. -/
def unlines (lines : List (List Char)) : List Char := lines.flatMap (· ++ ['\n'])

theorem unlines_nil : unlines [] = [] := rfl

theorem unlines_cons (cs : List Char) (lines : List (List Char)) :
    unlines (cs :: lines) = cs ++ '\n' :: unlines lines := by
  rw [unlines, List.flatMap_cons, ← unlines, List.append_assoc, List.singleton_append]

theorem unlines_append (lines more : List (List Char)) :
    unlines (lines ++ more) = unlines lines ++ unlines more := List.flatMap_append

theorem Plain.of_mem_unlines {lines : List (List Char)} (h : Plain lines) {c : Char}
    (hc : c ∈ unlines lines) : isPlainChar c = true ∨ c = '\n' := by
  obtain ⟨cs, hcs, hmem⟩ := List.mem_flatMap.mp hc
  rcases List.mem_append.mp hmem with hmem | hmem
  · exact .inl (h cs hcs c hmem)
  · exact .inr (List.mem_singleton.mp hmem)

theorem length_le_length_unlines (lines : List (List Char)) :
    lines.length ≤ (unlines lines).length := by
  induction lines with
  | nil => exact Nat.le_refl 0
  | cons cs rest ih =>
      rw [unlines_cons]
      simp only [List.length_cons, List.length_append]
      omega

theorem isAllowed_unlines {lines : List (List Char)} (h : Plain lines) :
    (unlines lines).all isAllowed = true := by
  rw [List.all_eq_true]
  intro c hc
  rcases h.of_mem_unlines hc with hplain | rfl
  · exact isAllowed_of_isPlainChar hplain
  · decide

theorem singleBreaks_of_forall {cs : List Char} (h : ∀ c ∈ cs, c ≠ '\r') :
    singleBreaks cs = cs := by
  induction cs with
  | nil => rfl
  | cons c rest ih =>
      obtain ⟨hc, hrest⟩ := List.forall_mem_cons.mp h
      rw [singleBreaks, ih hrest]
      exact fun _ heq => absurd heq hc

theorem singleBreaks_unlines {lines : List (List Char)} (h : Plain lines) :
    singleBreaks (unlines lines) = unlines lines := by
  refine singleBreaks_of_forall fun c hc => ?_
  rcases h.of_mem_unlines hc with hplain | rfl
  · exact ne_of_eq_false hplain (by decide)
  · decide

namespace Cut

theorem take_plain {c : Char} (h : isPlainChar c = true) (done : List (List Char))
    (line : List Char) : take ⟨done, line, .outside⟩ c = ⟨done, c :: line, .outside⟩ := by
  have hquote : (c == '"') = false := beq_eq_false_iff_ne.mpr (ne_of_eq_false h (by decide))
  have hsingle : (c == '\'') = false := beq_eq_false_iff_ne.mpr (ne_of_eq_false h (by decide))
  have hmark : c ≠ '#' := ne_of_eq_false h (by decide)
  show takeOutside _ c = _
  rw [takeOutside]
  simp only [isBreak_of_isPlainChar h, hquote, hsingle, hmark]
  rfl

theorem foldl_take_plain {cs : List Char} (h : ∀ c ∈ cs, isPlainChar c = true)
    (done : List (List Char)) (line : List Char) :
    cs.foldl take ⟨done, line, .outside⟩ = ⟨done, cs.reverse ++ line, .outside⟩ := by
  induction cs generalizing line with
  | nil => rfl
  | cons c rest ih =>
      obtain ⟨hc, hrest⟩ := List.forall_mem_cons.mp h
      rw [List.foldl_cons, take_plain hc, ih hrest, List.reverse_cons, List.append_assoc,
        List.singleton_append]

/-- Each line is laid down when its end is met. -/
theorem foldl_take_unlines {lines : List (List Char)} (h : Plain lines)
    (done : List (List Char)) :
    (unlines lines).foldl take ⟨done, [], .outside⟩
      = ⟨(lines.map List.reverse).reverse ++ done, [], .outside⟩ := by
  induction lines generalizing done with
  | nil => rfl
  | cons cs rest ih =>
      obtain ⟨hcs, hrest⟩ := List.forall_mem_cons.mp h
      have hbreak : take ⟨done, cs.reverse, .outside⟩ '\n'
          = ⟨cs.reverse :: done, [], .outside⟩ := rfl
      rw [unlines_cons, List.foldl_append, foldl_take_plain hcs, List.append_nil, List.foldl_cons,
        hbreak, ih hrest, List.map_cons, List.reverse_cons, List.append_assoc,
        List.singleton_append]

theorem lines_unlines {lines : List (List Char)} (h : Plain lines) :
    Cut.lines (unlines lines) = lines ++ [[]] := by
  rw [Cut.lines, foldl_take_unlines h, List.append_nil]
  simp

end Cut

/-! ## Lines -/

/-- The characters of a line with its indentation. -/
def Line.chars (l : Line) : List Char := List.replicate l.indent ' ' ++ l.text

/-- A line that is found again: it holds something, and no blanks stand at its ends. -/
structure Line.IsTrim (l : Line) : Prop where
  ne_nil : l.text ≠ []
  first : ∀ c, l.text.head? = some c → isBlank c = false
  last : ∀ c, l.text.getLast? = some c → isBlank c = false
  plain : ∀ c ∈ l.text, isPlainChar c = true

theorem trimEnd_of_last {cs : List Char} (h : ∀ c, cs.getLast? = some c → isBlank c = false) :
    trimEnd cs = cs := by
  have hreverse : ∀ c, cs.reverse.head? = some c → isBlank c = false := by
    intro c hc
    rw [List.head?_reverse] at hc
    exact h c hc
  rw [trimEnd, Text.dropWhile_of_head hreverse, List.reverse_reverse]

theorem Line.IsTrim.ofChars?_eq {l : Line} (h : l.IsTrim) : Line.ofChars? l.chars = some l := by
  have hspaces : ∀ c ∈ List.replicate l.indent ' ', (c == ' ') = true := by
    intro c hc
    rw [List.eq_of_mem_replicate hc]
    rfl
  have hfirst : ∀ c, l.text.head? = some c → (c == ' ') = false := by
    intro c hc
    exact (Bool.or_eq_false_iff.mp (h.first c hc)).1
  have hbehind : l.chars.dropWhile (· == ' ') = l.text := by
    rw [Line.chars, List.dropWhile_append_of_pos hspaces, Text.dropWhile_of_head hfirst]
  have hindent : l.chars.length - l.text.length = l.indent := by
    rw [Line.chars, List.length_append, List.length_replicate]
    omega
  rw [Line.ofChars?, hbehind, if_neg h.ne_nil, trimEnd_of_last h.last, hindent]
  dsimp only
  rw [if_neg h.ne_nil]

theorem Line.IsTrim.plain_chars {l : Line} (h : l.IsTrim) :
    ∀ c ∈ l.chars, isPlainChar c = true := by
  intro c hc
  rcases List.mem_append.mp hc with hc | hc
  · rw [List.eq_of_mem_replicate hc]
    decide
  · exact h.plain c hc

theorem plain_of_isTrim {lines : List Line} (h : ∀ l ∈ lines, l.IsTrim) :
    Plain (lines.map Line.chars) := by
  intro cs hcs
  obtain ⟨l, hl, rfl⟩ := List.mem_map.mp hcs
  exact (h l hl).plain_chars

/-- The lines of a text are those it was put together from. -/
theorem linesOf_unlines {lines : List Line} (h : ∀ l ∈ lines, l.IsTrim) :
    linesOf (unlines (lines.map Line.chars)) = lines := by
  have hplain := plain_of_isTrim h
  have hread : (lines.map Line.chars).filterMap Line.ofChars? = lines := by
    rw [List.filterMap_map]
    have hall : ∀ l ∈ lines, (Line.ofChars? ∘ Line.chars) l = some l := fun l hl =>
      (h l hl).ofChars?_eq
    rw [List.filterMap_congr hall, List.filterMap_some]
  rw [linesOf, singleBreaks_unlines hplain, Cut.lines_unlines hplain, List.filterMap_append, hread]
  exact List.append_nil lines

end Formula.Yaml
