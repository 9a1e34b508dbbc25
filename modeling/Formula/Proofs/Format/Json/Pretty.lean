import Formula.Proofs.Decimal.Natural
import Formula.Proofs.Format.Json.Value
import Formula.Word

set_option autoImplicit false

/-! # JSON texts over several lines

The text of a document with one item or member per line is put together by the same rules as the
compact one, with line ends and indentation for blanks. So it is read back as well, and since each
level of the document takes two brackets, reading without a limit never runs out of levels.
-/

namespace Formula.Json

open Decimal

/-! ## Counts -/

theorem wholeDigits?_of_numeral {cs : List Char} (h : Numeral cs) :
    wholeDigits? cs = some (cs, []) := by
  rw [wholeDigits?, h.spanDigits_eq]
  split
  · next heq =>
      cases heq
      exact absurd rfl h.ne_nil
  · next heq =>
      cases heq
      rfl
  · next more _ hne heq =>
      cases heq
      cases h.eq_nil more rfl
      exact (hne rfl).elim
  · next heq =>
      cases heq
      rfl

/-- A numeral is read as an integer if it fits 64 bits. -/
theorem number?_of_numeral {cs : List Char} (h : Numeral cs) (hfits : digitsValue cs < Word.size) :
    number? cs = some (.integer (digitsValue cs), []) := by
  have hwhole : wholeNumber false cs = .integer (digitsValue cs) := by
    have hunsigned : fitsUnsigned 64 (digitsValue cs) = true := by
      have hsize : Int.ofNat (1 <<< 64) = Word.size := by decide
      rw [fitsUnsigned, hsize, decide_eq_true_eq]
      omega
    rw [wholeNumber, if_neg (fun hand => nomatch hand.1), if_pos ⟨rfl, hunsigned⟩]
    rfl
  rw [number?_of_ne (h.ne_cons (by decide))]
  simp only [unsigned?, wholeDigits?_of_numeral h, places?, power?, Option.bind_eq_bind,
    Option.bind_some, and_self, if_true, hwhole]

theorem readsBack_count {n : Nat} (h : n < Word.size) : ReadsBack (.integer n) := by
  have hnumeral := numeral_toDigits n
  obtain ⟨c, more, hcs, hc⟩ := hnumeral.exists_cons
  have hnumber := number?_of_numeral hnumeral (by rwa [digitsValue_toDigits])
  rw [ReadsBack, simple, toList_toString]
  rw [digitsValue_toDigits, hcs] at hnumber
  rw [hcs, simple?_number (.inr hc), hnumber]

/-! ## Documents -/

theorem blank_newLine (level : Nat) : Blank (newLine level) := by
  intro c hc
  rcases List.mem_cons.mp hc with rfl | hc
  · rfl
  · rw [List.eq_of_mem_replicate hc]
    rfl

theorem pretty_of_readsBack {d : Document} (h : ReadsBack d) (level : Nat) :
    pretty level d = simple d := by
  cases d with
  | sequence items => exact nomatch h
  | mapping entries => exact nomatch h
  | _ => rw [pretty] <;> exact nofun

mutual

/-- The text of a document is read as the document, whatever level it is written at. -/
theorem reads_pretty (d : Document) (h : Faithful d) (level : Nat) :
    Reads d (pretty level d) := by
  -- what is read in one piece looks the same in both layouts
  by_cases hread : ReadsBack d
  · rw [pretty_of_readsBack hread]
    exact reads_simple hread
  match d with
  | .sequence [] => exact reads_sequence_nil
  | .sequence (item :: items) =>
      rw [pretty]
      · have hitems := readsItems_pretty (item :: items) h.of_mem_items nofun (level + 1)
          (blank_newLine level)
        exact hitems.reads
      · exact nofun
  | .mapping [] => exact reads_mapping_nil
  | .mapping (entry :: entries) =>
      rw [pretty]
      · have hentries := readsMembers_pretty (entry :: entries) h.of_mem_entries nofun (level + 1)
          (blank_newLine level)
        exact hentries.reads
      · exact nofun
  -- a faithful document of one piece has been read back above
  | .null | .bool _ | .integer _ | .real _ | .string _ =>
      cases h
      contradiction

theorem readsItems_pretty (items : List Document) (h : ∀ d ∈ items, Faithful d)
    (hne : items ≠ []) (level : Nat) {behind : List Char} (hbehind : Blank behind) :
    ReadsItems items (prettyItems level items ++ behind) := by
  match items with
  | [] => exact absurd rfl hne
  | [d] =>
      have hread := reads_pretty d (h d List.mem_cons_self) level
      rw [prettyItems, List.append_assoc]
      exact hread.last_item (blank_newLine level) hbehind
  | d :: next :: others =>
      obtain ⟨hd, hothers⟩ := List.forall_mem_cons.mp h
      have hread := reads_pretty d hd level
      have hrest := readsItems_pretty (next :: others) hothers nofun level hbehind
      have hcons := hread.cons_item (blank_newLine level) blank_nil hrest
      rw [prettyItems]
      · simpa only [List.append_assoc, List.nil_append, List.cons_append] using hcons
      · exact nofun

theorem readsMembers_pretty (entries : List (String × Document))
    (h : ∀ e ∈ entries, Faithful e.2) (hne : entries ≠ []) (level : Nat) {behind : List Char}
    (hbehind : Blank behind) : ReadsMembers entries (prettyMembers level entries ++ behind) := by
  have hspace : Blank [' '] := by
    intro c hc
    rw [List.mem_singleton.mp hc]
    rfl
  match entries with
  | [] => exact absurd rfl hne
  -- the last member has the line of the closing brace behind it, the others a comma
  | [(key, d)] =>
      have hread := reads_pretty d (h (key, d) List.mem_cons_self) level
      have hlast := hread.last_member key (blank_newLine level) hspace hbehind
      rw [prettyMembers]
      simpa only [List.append_assoc, List.cons_append, List.nil_append] using hlast
  | (key, d) :: next :: others =>
      obtain ⟨hd, hothers⟩ := List.forall_mem_cons.mp h
      have hread := reads_pretty d hd level
      have hrest := readsMembers_pretty (next :: others) hothers nofun level hbehind
      have hcons := hread.cons_member key (blank_newLine level) hspace blank_nil hrest
      rw [prettyMembers]
      · simpa only [List.append_assoc, List.nil_append, List.cons_append] using hcons
      · exact nofun

end

mutual

/-- Each level of a document takes two characters at least. -/
theorem nesting_le_length_pretty (d : Document) (level : Nat) :
    2 * d.nesting ≤ (pretty level d).length := by
  match d with
  | .sequence [] => exact Nat.le_refl 2
  | .sequence (item :: items) =>
      have hitems := nesting_le_length_prettyItems (item :: items) (level + 1)
      -- the brackets of this level are two characters more than those of the items
      rw [Document.nesting, pretty]
      · simp only [List.length_cons, List.length_append]
        omega
      · exact nofun
  | .mapping [] => exact Nat.le_refl 2
  | .mapping (entry :: entries) =>
      have hentries := nesting_le_length_prettyMembers (entry :: entries) (level + 1)
      rw [Document.nesting, pretty]
      · simp only [List.length_cons, List.length_append]
        omega
      · exact nofun
  | .null | .bool _ | .integer _ | .real _ | .string _ => exact Nat.zero_le _

theorem nesting_le_length_prettyItems (items : List Document) (level : Nat) :
    2 * Document.nestingItems items ≤ (prettyItems level items).length := by
  match items with
  | [] => exact Nat.zero_le _
  | [d] =>
      have hd := nesting_le_length_pretty d level
      rw [Document.nestingItems, Document.nestingItems, prettyItems, List.length_append]
      omega
  | d :: next :: others =>
      have hd := nesting_le_length_pretty d level
      have hothers := nesting_le_length_prettyItems (next :: others) level
      rw [Document.nestingItems, prettyItems]
      · simp only [List.length_cons, List.length_append]
        omega
      · exact nofun

theorem nesting_le_length_prettyMembers (entries : List (String × Document)) (level : Nat) :
    2 * Document.nestingEntries entries ≤ (prettyMembers level entries).length := by
  match entries with
  | [] => exact Nat.zero_le _
  | [(key, d)] =>
      have hd := nesting_le_length_pretty d level
      rw [Document.nestingEntries, Document.nestingEntries, prettyMembers]
      simp only [List.length_cons, List.length_append]
      omega
  | (key, d) :: next :: others =>
      have hd := nesting_le_length_pretty d level
      have hothers := nesting_le_length_prettyMembers (next :: others) level
      rw [Document.nestingEntries, prettyMembers]
      · simp only [List.length_cons, List.length_append]
        omega
      · exact nofun

end

/-! ## Whole texts -/

theorem Reads.parseFreely_eq {d : Document} {text : String} (h : Reads d text.toList)
    (hlevels : d.nesting ≤ text.toList.length) : parseFreely text = some d := by
  have hvalue := h text.toList.length (text.toList.length + 1) [] hlevels (Nat.lt_succ_self _) nofun
  rw [List.append_nil] at hvalue
  simp only [parseFreely, hvalue]
  rfl

/-- The text of a document over several lines holds that document. -/
theorem parseFreely_writePretty {d : Document} (h : Faithful d) :
    parseFreely (writePretty d) = some d := by
  have hlevels := nesting_le_length_pretty d 0
  refine Reads.parseFreely_eq ?_ ?_
  · rw [writePretty, String.toList_ofList]
    exact reads_pretty d h 0
  · rw [writePretty, String.toList_ofList]
    omega

end Formula.Json
