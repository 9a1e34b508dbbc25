import Formula.Proofs.Format.Json.Scalar

set_option autoImplicit false

/-! # Documents in JSON texts

`Reads d cs` says that the text `cs` is read as the document `d` wherever a value may stand. There
is one rule for each way in which a text is put together: a scalar, and items or members in brackets
with commas between them and blanks anywhere. So whatever writes documents, its texts are read back
if they are put together by these rules, as the compact text of a document is.
-/

namespace Formula

/-! ## Levels -/

namespace Document

mutual

/-- The number of levels of arrays and objects inside each other. -/
def nesting : Document → Nat
  | .sequence items => 1 + nestingItems items
  | .mapping entries => 1 + nestingEntries entries
  | _ => 0

/-- The largest number of levels in several documents. -/
def nestingItems : List Document → Nat
  | [] => 0
  | d :: rest => max (nesting d) (nestingItems rest)

/-- The largest number of levels in the values of some entries. -/
def nestingEntries : List (String × Document) → Nat
  | [] => 0
  | (_, d) :: rest => max (nesting d) (nestingEntries rest)

end

end Document

namespace Json

/-! ## Blanks -/

/-- A text of blanks only. -/
def Blank (cs : List Char) : Prop := ∀ c ∈ cs, isSpace c = true

theorem blank_nil : Blank [] := nofun

theorem Blank.skip_append {blanks : List Char} (h : Blank blanks) (cs : List Char) :
    skip (blanks ++ cs) = skip cs := List.dropWhile_append_of_pos h

theorem skip_cons {c : Char} (h : isSpace c = false) (cs : List Char) :
    skip (c :: cs) = c :: cs := by
  rw [skip, List.dropWhile_cons_of_neg]
  rw [h]
  exact nofun

theorem skip_skip (cs : List Char) : skip (skip cs) = skip cs := by
  induction cs with
  | nil => rfl
  | cons c rest ih =>
      by_cases h : isSpace c = true
      · rw [skip, skip, List.dropWhile_cons_of_pos h]
        exact ih
      · have hskip := skip_cons (Bool.not_eq_true _ ▸ h) rest
        rw [hskip, hskip]

/-- A value is read from the first character that is no blank. -/
theorem value?_skip (levels fuel : Nat) (cs : List Char) :
    value? levels fuel (skip cs) = value? levels fuel cs := by
  cases fuel with
  | zero => rw [value?, value?]
  | succ fuel =>
      unfold value?
      rw [skip_skip]

theorem items?_skip (levels fuel : Nat) (cs : List Char) :
    items? levels fuel (skip cs) = items? levels fuel cs := by
  cases fuel with
  | zero => rw [items?, items?]
  | succ fuel => rw [items?, items?, value?_skip]

theorem members?_skip (levels fuel : Nat) (cs : List Char) :
    members? levels fuel (skip cs) = members? levels fuel cs := by
  cases fuel with
  | zero => rw [members?, members?]
  | succ fuel => rw [members?, members?, key?, key?, skip_skip]

theorem Blank.value?_append {blanks : List Char} (h : Blank blanks) (levels fuel : Nat)
    (cs : List Char) : value? levels fuel (blanks ++ cs) = value? levels fuel cs := by
  rw [← value?_skip, h.skip_append, value?_skip]

/-- A value may end in front of blanks and what ends it. -/
theorem Blank.ends {blanks : List Char} (h : Blank blanks) {rest : List Char} (hrest : Ends rest) :
    Ends (blanks ++ rest) := by
  cases blanks with
  | nil => exact hrest
  | cons c more => exact ends_cons (.inl (h c List.mem_cons_self)) _

/-! ## Texts of documents -/

/-- A text is read as a document wherever a value may stand. Each character takes at most one unit
of fuel, and each level of the document opens one level of the text. -/
def Reads (d : Document) (cs : List Char) : Prop :=
  ∀ levels fuel rest, d.nesting ≤ levels → cs.length < fuel → Ends rest →
    value? levels fuel (cs ++ rest) = some (d, rest)

/-- A text is read as the items of an array, which is closed behind it. -/
def ReadsItems (items : List Document) (cs : List Char) : Prop :=
  ∀ levels fuel rest, Document.nestingItems items ≤ levels → cs.length + 1 < fuel →
    items? levels fuel (cs ++ ']' :: rest) = some (items, rest)

/-- A text is read as the members of an object, which is closed behind it. -/
def ReadsMembers (entries : List (String × Document)) (cs : List Char) : Prop :=
  ∀ levels fuel rest, Document.nestingEntries entries ≤ levels → cs.length + 1 < fuel →
    members? levels fuel (cs ++ '\x7d' :: rest) = some (entries, rest)

/-! ### Scalars -/

/-- A character that a scalar begins with: no blank, and no opening bracket. -/
def OpensScalar (c : Char) : Prop := isSpace c = false ∧ c ≠ '[' ∧ c ≠ '\x7b'

instance (c : Char) : Decidable (OpensScalar c) := inferInstanceAs (Decidable (_ ∧ _))

theorem OpensNumber.opensScalar {c : Char} (h : OpensNumber c) : OpensScalar c := by
  have hne {d : Char} (hd : d ≠ '-' ∧ d.isDigit = false) : c ≠ d := h.ne hd
  refine ⟨?_, hne (by decide), hne (by decide)⟩
  simp only [isSpace, Bool.or_eq_false_iff, beq_eq_false_iff_ne]
  exact ⟨⟨⟨hne (by decide), hne (by decide)⟩, hne (by decide)⟩, hne (by decide)⟩

theorem value?_scalar {c : Char} (h : OpensScalar c) (levels fuel : Nat) (cs : List Char) :
    value? levels (fuel + 1) (c :: cs) = simple? (c :: cs) := by
  obtain ⟨hspace, hbracket, hbrace⟩ := h
  have hskip := skip_cons hspace cs
  rw [value?.eq_4, hskip]
  · intro behind inner heq
    rw [hskip] at heq
    exact absurd (List.cons.inj heq).1 hbracket
  · intro behind inner heq
    rw [hskip] at heq
    exact absurd (List.cons.inj heq).1 hbrace

theorem exists_simple_eq {d : Document} (h : ReadsBack d) :
    ∃ c more, simple d = c :: more ∧ OpensScalar c := by
  rcases number?_of_simple? h with hnumber | rfl | ⟨b, rfl⟩ | ⟨s, rfl⟩
  · obtain ⟨c, more, hsimple, hopens⟩ := exists_eq_of_number? hnumber
    exact ⟨c, more, hsimple, OpensNumber.opensScalar hopens⟩
  · exact ⟨_, _, rfl, by decide⟩
  · cases b
    · exact ⟨'f', ['a', 'l', 's', 'e'], rfl, by decide⟩
    · exact ⟨'t', ['r', 'u', 'e'], rfl, by decide⟩
  · exact ⟨_, _, rfl, by decide⟩

theorem reads_simple {d : Document} (h : ReadsBack d) : Reads d (simple d) := by
  intro levels fuel rest _ hfuel hrest
  obtain ⟨fuel, rfl⟩ : ∃ n, fuel = n + 1 := ⟨fuel - 1, by omega⟩
  have happend := simple?_append h hrest
  obtain ⟨c, more, hsimple, hopens⟩ := exists_simple_eq h
  rw [hsimple, List.cons_append] at happend ⊢
  rw [value?_scalar hopens, happend]

theorem reads_number {d : Document} {cs : List Char} (h : number? cs = some (d, [])) :
    Reads d cs := by
  intro levels fuel rest _ hfuel hrest
  obtain ⟨fuel, rfl⟩ : ∃ n, fuel = n + 1 := ⟨fuel - 1, by omega⟩
  have happend := simple?_of_number? (number?_append h hrest)
  obtain ⟨c, more, rfl, hopens⟩ := exists_eq_of_number? h
  rw [List.cons_append] at happend ⊢
  rw [value?_scalar hopens.opensScalar, happend]

/-! ### Arrays -/

theorem reads_sequence_nil : Reads (.sequence []) ['[', ']'] := by
  intro levels fuel rest hlevels hfuel _
  obtain ⟨fuel, rfl⟩ : ∃ n, fuel = n + 1 := ⟨fuel - 1, by omega⟩
  rw [Document.nesting] at hlevels
  obtain ⟨levels, rfl⟩ : ∃ n, levels = n + 1 := ⟨levels - 1, by omega⟩
  rfl

/-- No item begins with a closing bracket. -/
theorem items?_closing (levels fuel : Nat) (cs : List Char) :
    items? levels fuel (']' :: cs) = none := by
  rcases fuel with _ | _ | fuel
  · rfl
  · rfl
  · rw [items?, value?_scalar (by decide)]
    rfl

theorem ReadsItems.reads {items : List Document} {cs : List Char} (h : ReadsItems items cs) :
    Reads (.sequence items) ('[' :: (cs ++ [']'])) := by
  intro levels fuel rest hlevels hfuel _
  rw [List.length_cons, List.length_append, List.length_singleton] at hfuel
  rw [Document.nesting] at hlevels
  obtain ⟨fuel, rfl⟩ : ∃ n, fuel = n + 1 := ⟨fuel - 1, by omega⟩
  obtain ⟨levels, rfl⟩ : ∃ n, levels = n + 1 := ⟨levels - 1, by omega⟩
  have hitems := h levels fuel rest (by omega) (by omega)
  rw [List.cons_append, List.append_assoc, List.singleton_append,
    value?.eq_2 _ _ _ _ (skip_cons (by decide) _)]
  split
  · next heq =>
      rw [← items?_skip, heq, items?_closing] at hitems
      exact nomatch hitems
  · rw [items?_skip, hitems, Option.map_some]

theorem Reads.last_item {d : Document} {before cs behind : List Char} (h : Reads d cs)
    (hbefore : Blank before) (hbehind : Blank behind) :
    ReadsItems [d] (before ++ (cs ++ behind)) := by
  intro levels fuel rest hlevels hfuel
  rw [List.length_append, List.length_append] at hfuel
  rw [Document.nestingItems, Nat.max_le] at hlevels
  obtain ⟨fuel, rfl⟩ : ∃ n, fuel = n + 1 := ⟨fuel - 1, by omega⟩
  have hvalue := h levels fuel (behind ++ ']' :: rest) hlevels.1 (by omega)
    (hbehind.ends (ends_cons (.inr (.inr (.inl rfl))) rest))
  rw [List.append_assoc, List.append_assoc, items?, hbefore.value?_append, hvalue]
  simp only [Option.bind_eq_bind, Option.bind_some, hbehind.skip_append]
  rfl

theorem Reads.cons_item {d : Document} {items : List Document} {before cs behind more : List Char}
    (h : Reads d cs) (hbefore : Blank before) (hbehind : Blank behind)
    (hitems : ReadsItems items more) :
    ReadsItems (d :: items) (before ++ (cs ++ (behind ++ ',' :: more))) := by
  intro levels fuel rest hlevels hfuel
  simp only [List.length_append, List.length_cons] at hfuel
  rw [Document.nestingItems, Nat.max_le] at hlevels
  obtain ⟨fuel, rfl⟩ : ∃ n, fuel = n + 1 := ⟨fuel - 1, by omega⟩
  have hvalue := h levels fuel (behind ++ ',' :: (more ++ ']' :: rest)) hlevels.1 (by omega)
    (hbehind.ends (ends_cons (.inr (.inl rfl)) _))
  have hmore := hitems levels fuel rest hlevels.2 (by omega)
  simp only [List.append_assoc, List.cons_append]
  rw [items?, hbefore.value?_append, hvalue]
  simp only [Option.bind_eq_bind, Option.bind_some, hbehind.skip_append]
  rw [skip_cons (by decide)]
  simp only [hmore, Option.map_some]

/-! ### Objects -/

theorem reads_mapping_nil : Reads (.mapping []) ['\x7b', '\x7d'] := by
  intro levels fuel rest hlevels hfuel _
  obtain ⟨fuel, rfl⟩ : ∃ n, fuel = n + 1 := ⟨fuel - 1, by omega⟩
  rw [Document.nesting] at hlevels
  obtain ⟨levels, rfl⟩ : ∃ n, levels = n + 1 := ⟨levels - 1, by omega⟩
  rfl

theorem members?_closing (levels fuel : Nat) (cs : List Char) :
    members? levels fuel ('\x7d' :: cs) = none := by
  cases fuel <;> rfl

theorem ReadsMembers.reads {entries : List (String × Document)} {cs : List Char}
    (h : ReadsMembers entries cs) : Reads (.mapping entries) ('\x7b' :: (cs ++ ['\x7d'])) := by
  intro levels fuel rest hlevels hfuel _
  rw [List.length_cons, List.length_append, List.length_singleton] at hfuel
  rw [Document.nesting] at hlevels
  obtain ⟨fuel, rfl⟩ : ∃ n, fuel = n + 1 := ⟨fuel - 1, by omega⟩
  obtain ⟨levels, rfl⟩ : ∃ n, levels = n + 1 := ⟨levels - 1, by omega⟩
  have hmembers := h levels fuel rest (by omega) (by omega)
  rw [List.cons_append, List.append_assoc, List.singleton_append,
    value?.eq_3 _ _ _ _ (skip_cons (by decide) _)]
  split
  · next heq =>
      rw [← members?_skip, heq, members?_closing] at hmembers
      exact nomatch hmembers
  · rw [members?_skip, hmembers, Option.map_some]

theorem key?_quoted {before : List Char} (h : Blank before) (key : String) (rest : List Char) :
    key? (before ++ (quoted key ++ ':' :: rest)) = some (key, rest) := by
  have hstring := string?_escaped key (':' :: rest)
  rw [quoted_append, key?, h.skip_append, skip_cons (by decide)]
  simp only [hstring, Option.bind_eq_bind, Option.bind_some]
  rfl

theorem Reads.last_member {d : Document} {before between cs behind : List Char} (key : String)
    (h : Reads d cs) (hbefore : Blank before) (hbetween : Blank between) (hbehind : Blank behind) :
    ReadsMembers [(key, d)] (before ++ (quoted key ++ ':' :: (between ++ (cs ++ behind)))) := by
  intro levels fuel rest hlevels hfuel
  simp only [List.length_append, List.length_cons] at hfuel
  rw [Document.nestingEntries, Nat.max_le] at hlevels
  obtain ⟨fuel, rfl⟩ : ∃ n, fuel = n + 1 := ⟨fuel - 1, by omega⟩
  have hvalue := h levels fuel (behind ++ '\x7d' :: rest) hlevels.1 (by omega)
    (hbehind.ends (ends_cons (.inr (.inr (.inr rfl))) rest))
  simp only [List.append_assoc, List.cons_append]
  rw [members?, key?_quoted hbefore]
  simp only [Option.bind_eq_bind, Option.bind_some, hbetween.value?_append, hvalue,
    hbehind.skip_append]
  rfl

theorem Reads.cons_member {d : Document} {entries : List (String × Document)}
    {before between cs behind more : List Char} (key : String) (h : Reads d cs)
    (hbefore : Blank before) (hbetween : Blank between) (hbehind : Blank behind)
    (hentries : ReadsMembers entries more) :
    ReadsMembers ((key, d) :: entries)
      (before ++ (quoted key ++ ':' :: (between ++ (cs ++ (behind ++ ',' :: more))))) := by
  intro levels fuel rest hlevels hfuel
  simp only [List.length_append, List.length_cons] at hfuel
  rw [Document.nestingEntries, Nat.max_le] at hlevels
  obtain ⟨fuel, rfl⟩ : ∃ n, fuel = n + 1 := ⟨fuel - 1, by omega⟩
  -- the value ends where the blanks and the comma behind it begin
  have hvalue := h levels fuel (behind ++ ',' :: (more ++ '\x7d' :: rest)) hlevels.1 (by omega)
    (hbehind.ends (ends_cons (.inr (.inl rfl)) _))
  have hmore := hentries levels fuel rest hlevels.2 (by omega)
  simp only [List.append_assoc, List.cons_append]
  -- what is read in turn: the key and its colon, the value, the comma, the other members
  rw [members?, key?_quoted hbefore]
  simp only [Option.bind_eq_bind, Option.bind_some, hbetween.value?_append, hvalue,
    hbehind.skip_append]
  rw [skip_cons (by decide)]
  simp only [hmore, Option.map_some]

/-! ## Compact texts -/

/-- A document whose scalars are read back from their texts, all numbers being finite. -/
inductive Faithful : Document → Prop where
  | scalar {d : Document} (hread : ReadsBack d) (hfinite : isFinite d = true) : Faithful d
  | sequence {items : List Document} (h : ∀ d ∈ items, Faithful d) : Faithful (.sequence items)
  | mapping {entries : List (String × Document)} (h : ∀ e ∈ entries, Faithful e.2) :
      Faithful (.mapping entries)

theorem Faithful.of_mem_items {items : List Document} (h : Faithful (.sequence items)) :
    ∀ d ∈ items, Faithful d := by
  cases h with
  | scalar hread hfinite => exact nomatch hread
  | sequence h => exact h

theorem Faithful.of_mem_entries {entries : List (String × Document)}
    (h : Faithful (.mapping entries)) : ∀ e ∈ entries, Faithful e.2 := by
  cases h with
  | scalar hread hfinite => exact nomatch hread
  | mapping h => exact h

theorem chars_of_readsBack {d : Document} (h : ReadsBack d) : chars d = simple d := by
  cases d with
  | sequence items => exact nomatch h
  | mapping entries => exact nomatch h
  | _ => rw [chars] <;> exact nofun

mutual

/-- The text of a document is read as the document. -/
theorem reads_chars (d : Document) (h : Faithful d) : Reads d (chars d) := by
  -- what is read in one piece, and else by the kind of brackets
  by_cases hread : ReadsBack d
  · rw [chars_of_readsBack hread]
    exact reads_simple hread
  match d with
  | .sequence items =>
      rw [chars]
      by_cases hempty : items = []
      · subst hempty
        exact reads_sequence_nil
      · exact (readsItems_charsItems items h.of_mem_items hempty).reads
  | .mapping entries =>
      rw [chars]
      by_cases hempty : entries = []
      · subst hempty
        exact reads_mapping_nil
      · exact (readsMembers_charsMembers entries h.of_mem_entries hempty).reads
  | .null | .bool _ | .integer _ | .real _ | .string _ =>
      cases h
      contradiction

theorem readsItems_charsItems (items : List Document) (h : ∀ d ∈ items, Faithful d)
    (hne : items ≠ []) : ReadsItems items (charsItems items) := by
  match items with
  | [] => exact absurd rfl hne
  | d :: others =>
      obtain ⟨hd, hothers⟩ := List.forall_mem_cons.mp h
      have hread := reads_chars d hd
      match others with
      | [] =>
          have hlast := hread.last_item blank_nil blank_nil
          rw [List.nil_append, List.append_nil] at hlast
          rwa [charsItems]
      | next :: others =>
          rw [charsItems]
          · exact hread.cons_item blank_nil blank_nil
              (readsItems_charsItems (next :: others) hothers nofun)
          · exact nofun

theorem readsMembers_charsMembers (entries : List (String × Document))
    (h : ∀ e ∈ entries, Faithful e.2) (hne : entries ≠ []) :
    ReadsMembers entries (charsMembers entries) := by
  match entries with
  | [] => exact absurd rfl hne
  | (key, d) :: others =>
      obtain ⟨hd, hothers⟩ := List.forall_mem_cons.mp h
      have hread := reads_chars d hd
      -- only the last member has no comma behind it
      match others with
      | [] =>
          have hlast := hread.last_member key blank_nil blank_nil blank_nil
          rw [List.nil_append, List.nil_append, List.append_nil] at hlast
          rwa [charsMembers]
      | next :: others =>
          rw [charsMembers]
          · exact hread.cons_member key blank_nil blank_nil blank_nil
              (readsMembers_charsMembers (next :: others) hothers nofun)
          · exact nofun

end

theorem allItems_of_forall {p : Document → Bool} {items : List Document}
    (h : ∀ d ∈ items, d.all p = true) : Document.allItems p items = true := by
  induction items with
  | nil => rfl
  | cons d rest ih =>
      obtain ⟨hd, hrest⟩ := List.forall_mem_cons.mp h
      rw [Document.allItems, hd, ih hrest]
      rfl

theorem allEntries_of_forall {p : Document → Bool} {entries : List (String × Document)}
    (h : ∀ e ∈ entries, e.2.all p = true) : Document.allEntries p entries = true := by
  induction entries with
  | nil => rfl
  | cons e rest ih =>
      obtain ⟨he, hrest⟩ := List.forall_mem_cons.mp h
      rw [Document.allEntries, he, ih hrest]
      rfl

theorem all_isFinite {d : Document} (h : Faithful d) : d.all isFinite = true := by
  induction h with
  | @scalar d hread hfinite =>
      cases d with
      | sequence items => exact nomatch hread
      | mapping entries => exact nomatch hread
      | _ => exact hfinite
  | sequence _ ih =>
      rw [Document.all]
      exact allItems_of_forall ih
  | mapping _ ih =>
      rw [Document.all]
      exact allEntries_of_forall ih

/-! ## Whole texts -/

theorem Reads.front?_eq {d : Document} {cs : List Char} (h : Reads d cs)
    (hfinite : d.all isFinite = true) (hlevels : d.nesting ≤ maxNesting) :
    front? cs = some (d, []) := by
  have hvalue : value? maxNesting (cs.length + 1) (cs ++ []) = some (d, []) :=
    h maxNesting _ [] hlevels (Nat.lt_succ_self _) nofun
  rw [List.append_nil] at hvalue
  rw [front?, finiteValue?, hvalue, Option.filter_some, if_pos hfinite]

theorem Reads.parse_eq {d : Document} {text : String} (h : Reads d text.toList)
    (hfinite : d.all isFinite = true) (hlevels : d.nesting ≤ maxNesting) :
    parse text = some d := by
  rw [parse, h.front?_eq hfinite hlevels]
  rfl

/-- The compact text of a document holds that document, and nothing is left of it. -/
theorem front?_chars {d : Document} (h : Faithful d) (hlevels : d.nesting ≤ maxNesting) :
    front? (chars d) = some (d, []) := (reads_chars d h).front?_eq (all_isFinite h) hlevels

theorem parse_write {d : Document} (h : Faithful d) (hlevels : d.nesting ≤ maxNesting) :
    parse (write d) = some d := by
  refine Reads.parse_eq ?_ (all_isFinite h) hlevels
  rw [write, String.toList_ofList]
  exact reads_chars d h

end Json

end Formula
