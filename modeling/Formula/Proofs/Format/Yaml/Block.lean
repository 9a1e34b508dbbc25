import Formula.Format.Yaml.Basic
import Formula.Format.Yaml.Write
import Formula.Proofs.Format.Yaml.Line

set_option autoImplicit false

/-! # Blocks of settings in YAML texts

A tree of settings is written as a block whose lines are indented by the levels they are at. The
lines are read back one entry after the other; a block ends where a line of a lower level follows.
-/

namespace Formula.Yaml

open Decimal

/-! ## Keys -/

theorem quoted?_of_isWordChar {c : Char} (h : isWordChar c = true) (rest : List Char) :
    quoted? (c :: rest) = none := by
  rw [quoted?]
  · exact fun _ heq => absurd (List.cons.inj heq).1 (ne_of_eq_false h (by decide))
  · exact fun _ heq => absurd (List.cons.inj heq).1 (ne_of_eq_false h (by decide))

theorem isIndicator_of_isWordChar {c : Char} (h : isWordChar c = true) : isIndicator c = false := by
  cases hc : isIndicator c with
  | false => rfl
  | true =>
      have hnone : [',', '[', ']', '\x7b', '\x7d', '#', '&', '*', '!', '|', '>', '\'', '"', '%',
          '@', '\x60'].any isWordChar = false := by decide
      have hmem := List.contains_iff_mem.mp hc
      exact absurd h (List.any_eq_false.mp hnone c hmem)

theorem startsPlain_of_isWordChar {c : Char} (h : isWordChar c = true) (rest : List Char) :
    startsPlain (c :: rest) = true := by
  have hne {d : Char} (hd : isWordChar d = false) : (c == d) = false :=
    beq_eq_false_iff_ne.mpr (ne_of_eq_false h hd)
  have hdash := hne (d := '-') (by decide)
  have hquestion := hne (d := '?') (by decide)
  have hcolon := hne (d := ':') (by decide)
  have hspace : c ≠ ' ' := ne_of_eq_false h (by decide)
  have htab : c ≠ '\t' := ne_of_eq_false h (by decide)
  simp only [startsPlain, hdash, hquestion, hcolon, isIndicator_of_isWordChar h,
    bne_iff_ne.mpr hspace, bne_iff_ne.mpr htab]
  rfl

theorem plainKey?_cons {c : Char} (h : c ≠ ':') (rest : List Char) :
    plainKey? (c :: rest) = (plainKey? rest).map fun r => (c :: r.1, r.2) := by
  rw [plainKey?]
  · exact fun heq _ => absurd heq h
  · exact fun _ _ heq => absurd heq h

theorem plainKey?_append {cs : List Char} (h : ∀ c ∈ cs, c ≠ ':') (rest : List Char) :
    plainKey? (cs ++ rest) = (plainKey? rest).map fun r => (cs ++ r.1, r.2) := by
  induction cs with
  | nil =>
      rw [List.nil_append]
      cases plainKey? rest <;> rfl
  | cons c more ih =>
      obtain ⟨hc, hmore⟩ := List.forall_mem_cons.mp h
      rw [List.cons_append, plainKey?_cons hc, ih hmore]
      cases plainKey? rest <;> rfl

theorem plainKey?_of_forall {cs : List Char} (h : ∀ c ∈ cs, c ≠ ':') : plainKey? cs = none := by
  have happend := plainKey?_append h []
  rwa [List.append_nil] at happend

/-- A word is no key of its own. -/
theorem key?_word {cs : List Char} (h : ∀ c ∈ cs, isWordChar c = true) : key? cs = none := by
  have hplain := plainKey?_of_forall fun c hc => ne_of_eq_false (h c hc) (d := ':') (by decide)
  have hquoted : quoted? cs = none := by
    cases cs with
    | nil => rfl
    | cons c more => exact quoted?_of_isWordChar (h c List.mem_cons_self) more
  have hany : anyKey? cs = none := by
    simp only [anyKey?, hquoted, hplain, Option.map_none, ite_self]
  rw [key?, hany, Option.filter_none]

theorem trimEnd_word {cs : List Char} (h : ∀ c ∈ cs, isWordChar c = true) : trimEnd cs = cs :=
  trimEnd_of_last fun c hc => isBlank_of_isWordChar (h c (List.mem_of_getLast? hc))

theorem anyKey?_name {name : String} (h : IsName name) {behind rest : List Char}
    (hbehind : plainKey? behind = some ([], rest)) :
    anyKey? (name.toList ++ behind) = some (name, rest) := by
  have hchars := h.isWordChar_of_mem
  have hplain := plainKey?_append
    (fun c hc => ne_of_eq_false (hchars c hc) (d := ':') (by decide)) behind
  have htrim := trimEnd_word hchars
  obtain ⟨c, more, hname, hc⟩ := h.exists_cons
  rw [hbehind, Option.map_some, List.append_nil] at hplain
  rw [hname] at hplain htrim ⊢
  rw [List.cons_append] at hplain ⊢
  rw [anyKey?, quoted?_of_isWordChar hc, startsPlain_of_isWordChar hc, hplain]
  simp only [if_true, Option.map_some, htrim]
  rw [← hname, String.ofList_toList]

theorem key?_heading {name : String} (h : IsName name) :
    key? (name.toList ++ [':']) = some (name, []) := by
  have hshort := h.short
  rw [key?, anyKey?_name h rfl, Option.filter_some, if_pos]
  simp only [List.length_append, List.length_singleton, if_true, decide_eq_true_eq]
  omega

theorem key?_entry {name : String} (h : IsName name) {value : List Char} (hvalue : value ≠ []) :
    key? (name.toList ++ ':' :: ' ' :: value) = some (name, value) := by
  have hshort := h.short
  rw [key?, anyKey?_name h rfl, Option.filter_some, if_pos]
  simp only [List.length_append, List.length_cons, if_neg hvalue, decide_eq_true_eq]
  omega

/-! ## Values -/

/-- A text that stands for a value on the line of its key. -/
structure Stands (d : Document) (cs : List Char) : Prop where
  ne_nil : cs ≠ []
  word : ∀ c ∈ cs, isWordChar c = true
  plain : ∀ empty, plain empty cs = d

theorem unsigned?_of_numeral {cs : List Char} (h : Numeral cs) :
    unsigned? cs = some (digitsValue cs) := by
  rw [unsigned?, hasNeedlessZero_of_numeral h, if_neg nofun, natural?_of_numeral h]
  · exact fun rest heq => h.ne_zero_cons 'x' rest heq
  · exact fun rest heq => h.ne_zero_cons 'o' rest heq
  · exact fun rest heq => h.ne_zero_cons 'b' rest heq

theorem integer?_of_numeral {cs : List Char} (h : Numeral cs) :
    integer? cs = some (digitsValue cs : Int) := by
  rw [integer?, unsigned?_of_numeral h]
  · rfl
  · exact fun rest heq => h.ne_cons (by decide) rest heq
  · exact fun rest heq => h.ne_cons (by decide) rest heq

theorem plain_of_numeral {cs : List Char} (h : Numeral cs) (hfits : digitsValue cs < Word.size)
    (empty : Document) : plain empty cs = .integer (digitsValue cs) := by
  have hne {word : String} (hword : word.toList.any Char.isDigit = false) :
      String.ofList cs ≠ word := h.ofList_ne hword
  -- digits are none of the words with a meaning of their own
  have hnull : ¬(String.ofList cs = "null" ∨ String.ofList cs = "Null" ∨
      String.ofList cs = "NULL" ∨ String.ofList cs = "~") := by
    simp only [not_or]
    exact ⟨hne (by decide), hne (by decide), hne (by decide), hne (by decide)⟩
  have htrue : ¬(String.ofList cs = "true" ∨ String.ofList cs = "True" ∨
      String.ofList cs = "TRUE") := by
    simp only [not_or]
    exact ⟨hne (by decide), hne (by decide), hne (by decide)⟩
  have hfalse : ¬(String.ofList cs = "false" ∨ String.ofList cs = "False" ∨
      String.ofList cs = "FALSE") := by
    simp only [not_or]
    exact ⟨hne (by decide), hne (by decide), hne (by decide)⟩
  -- a count is well below the widest integers
  have hnarrow : fits 128 (digitsValue cs) = true := by
    have hsize : Word.size ≤ 1 <<< 128 := by decide
    have hbound : (digitsValue cs : Int) < Int.ofNat (1 <<< 128) := by
      show (digitsValue cs : Int) < ((1 <<< 128 : Nat) : Int)
      omega
    rw [fits, fitsUnsigned, decide_eq_true ⟨Int.natCast_nonneg _, hbound⟩, Bool.or_true]
  rw [plain, if_neg h.ne_nil, if_neg hnull, if_neg htrue, if_neg hfalse, integer?_of_numeral h]
  exact if_pos hnarrow

/-- What stands for something stands for the same whatever stands for nothing. -/
theorem plain_congr {cs : List Char} (h : cs ≠ []) (empty empty' : Document) :
    plain empty cs = plain empty' cs := by
  rw [plain, plain, if_neg h, if_neg h]

theorem plain_of_isPlain {s : String} (h : isPlain s = true) (empty : Document) :
    plain empty s.toList = .string s := by
  rw [plain_congr (ne_nil_of_isPlain h) empty .null]
  simp only [isPlain, Bool.and_eq_true] at h
  obtain ⟨-, h⟩ := h
  split at h
  · next t heq => rw [heq, beq_iff_eq.mp h]
  · cases h

/-- The text of a setting stands for it. -/
theorem stands_of_isSetting {d : Document} (h : IsSetting d) : Stands d (lineText d).toList := by
  cases h with
  | bool b =>
      cases b
      · exact ⟨by decide, List.all_eq_true.mp (by decide), fun _ => rfl⟩
      · exact ⟨by decide, List.all_eq_true.mp (by decide), fun _ => rfl⟩
  | @count n hn =>
      have hnumeral := numeral_toDigits n
      -- the digits of a count are read as the count again
      have htext : (lineText (.integer n)).toList = Nat.toDigits 10 n := by
        rw [← toList_toString]
        exact String.toList_ofList
      rw [← digitsValue_toDigits n] at hn
      rw [htext]
      refine ⟨hnumeral.ne_nil, fun c hc => isWordChar_of_isDigit (hnumeral.isDigit c hc), ?_⟩
      intro empty
      rw [plain_of_numeral hnumeral hn, digitsValue_toDigits]
  | @word s hs =>
      have htext : lineText (.string s) = s := if_pos hs
      rw [htext]
      exact ⟨ne_nil_of_isPlain hs, fun c hc => isWordChar_of_isLower (isLower_of_isPlain hs c hc),
        plain_of_isPlain hs⟩

/-! ## Lines of blocks -/

/-- Lines behind a block: the next one is not indented as far as the block. -/
def Below (indent : Nat) (lines : List Line) : Prop := ∀ l ∈ lines.head?, l.indent < indent

theorem below_nil (indent : Nat) : Below indent [] := nofun

theorem Below.takeWhile_eq {indent : Nat} {lines : List Line} (h : Below indent lines) :
    lines.takeWhile (fun l => indent ≤ l.indent) = [] := by
  cases lines with
  | nil => rfl
  | cons l rest =>
      have hl : l.indent < indent := h l rfl
      rw [List.takeWhile_cons_of_neg]
      rw [decide_eq_true_eq]
      omega

/-- A value on the line of its key does not go on behind that line. -/
theorem inline?_of_stands {d : Document} {cs : List Char} (h : Stands d cs) (empty : Document)
    {inside : Nat} {rest : List Line} (hrest : Below inside rest) :
    inline? empty inside cs rest = some (d, rest) := by
  have hkey := key?_word h.word
  have hplain := h.plain empty
  obtain ⟨c, more, rfl⟩ := List.exists_cons_of_ne_nil h.ne_nil
  have hc := h.word c List.mem_cons_self
  rw [inline?, hkey, quoted?_of_isWordChar hc]
  · dsimp only
    rw [hrest.takeWhile_eq, startsPlain_of_isWordChar hc]
    simp only [List.any_nil, List.foldl_nil, List.length_nil, List.drop_zero, hplain]
    rfl
  · exact fun _ heq => absurd (List.cons.inj heq).1 (ne_of_eq_false hc (by decide))
  · exact fun _ heq => absurd (List.cons.inj heq).1 (ne_of_eq_false hc (by decide))

mutual

/-- The lines of an entry. -/
def entryLines (level : Nat) (key : String) : Document → List Line
  | .mapping (e :: es) =>
      ⟨2 * level, key.toList ++ [':']⟩ :: blockLines (level + 1) (e :: es)
  | d => [⟨2 * level, key.toList ++ ':' :: ' ' :: (lineText d).toList⟩]

/-- The lines of the entries of a mapping. -/
def blockLines (level : Nat) : List (String × Document) → List Line
  | [] => []
  | (key, d) :: rest => entryLines level key d ++ blockLines level rest

end

/-- Settings in mappings inside each other, none of which is empty. -/
inductive IsTree : Document → Prop where
  | setting {d : Document} (h : IsSetting d) : IsTree d
  | block {entries : List (String × Document)} (hne : entries ≠ [])
      (hnames : ∀ e ∈ entries, IsName e.1) (h : ∀ e ∈ entries, IsTree e.2) :
      IsTree (.mapping entries)

theorem entryLines_of_isSetting {d : Document} (h : IsSetting d) (level : Nat) (key : String) :
    entryLines level key d = [⟨2 * level, key.toList ++ ':' :: ' ' :: (lineText d).toList⟩] := by
  cases h <;> rfl

theorem entryLines_of_ne_nil {entries : List (String × Document)} (h : entries ≠ []) (level : Nat)
    (key : String) :
    entryLines level key (.mapping entries)
      = ⟨2 * level, key.toList ++ [':']⟩ :: blockLines (level + 1) entries := by
  obtain ⟨e, es, rfl⟩ := List.exists_cons_of_ne_nil h
  rw [entryLines]

/-! ## Reading -/

theorem isItem_of_isWordChar {c : Char} (h : isWordChar c = true) (rest : List Char) :
    isItem (c :: rest) = false := by
  have hdash : c ≠ '-' := ne_of_eq_false h (by decide)
  rw [isItem]
  · exact fun heq => absurd (List.cons.inj heq).1 hdash
  · exact fun _ heq => absurd (List.cons.inj heq).1 hdash

/-- A line that starts an entry. -/
def StartsEntry (l : Line) : Prop :=
  ∃ c cs, l.text = c :: cs ∧ isWordChar c = true ∧ (key? l.text).isSome = true

theorem StartsEntry.isItem_eq {l : Line} (h : StartsEntry l) : isItem l.text = false := by
  obtain ⟨c, cs, htext, hc, -⟩ := h
  rw [htext]
  exact isItem_of_isWordChar hc cs

theorem StartsEntry.isSome_key? {l : Line} (h : StartsEntry l) : (key? l.text).isSome = true := by
  obtain ⟨c, cs, -, -, hkey⟩ := h
  exact hkey

/-- The first line of an entry starts it, at the level of the entry. -/
theorem exists_entryLines_eq {key : String} {d : Document} (hname : IsName key) (h : IsTree d)
    (level : Nat) :
    ∃ l more, entryLines level key d = l :: more ∧ l.indent = 2 * level ∧ StartsEntry l := by
  obtain ⟨c, cs, hkey, hc⟩ := hname.exists_cons
  cases h with
  | setting h =>
      have hread := key?_entry hname (stands_of_isSetting h).ne_nil
      refine ⟨_, [], entryLines_of_isSetting h level key, rfl, c,
        cs ++ ':' :: ' ' :: (lineText d).toList, ?_, hc, ?_⟩
      · rw [hkey, List.cons_append]
      · rw [hread]
        rfl
  | block hne hnames h =>
      refine ⟨_, _, entryLines_of_ne_nil hne level key, rfl, c, cs ++ [':'], ?_, hc, ?_⟩
      · rw [hkey, List.cons_append]
      · rw [key?_heading hname]
        rfl

/-- The first line of a block starts an entry. -/
theorem exists_blockLines_eq {entries : List (String × Document)} (h : IsTree (.mapping entries))
    (level : Nat) :
    ∃ l more, blockLines level entries = l :: more ∧ l.indent = 2 * level ∧ StartsEntry l := by
  cases h with
  | setting h => exact nomatch h
  | block hne hnames h =>
      obtain ⟨⟨key, d⟩, others, rfl⟩ := List.exists_cons_of_ne_nil hne
      obtain ⟨l, more, hlines, hstarts⟩ := exists_entryLines_eq (hnames (key, d) List.mem_cons_self)
        (h (key, d) List.mem_cons_self) level
      exact ⟨l, more ++ blockLines level others, by rw [blockLines, hlines, List.cons_append],
        hstarts⟩

/-- A block is read as the mapping of its entries. -/
theorem block?_blockLines {entries : List (String × Document)} (h : IsTree (.mapping entries))
    (empty : Document) (level fuel inside : Nat) (rest : List Line) :
    block? empty (fuel + 1) inside (blockLines level entries ++ rest)
      = (entries? empty fuel (2 * level) (blockLines level entries ++ rest)).map
          fun r => (.mapping r.1, r.2) := by
  obtain ⟨l, more, hlines, hindent, hstarts⟩ := exists_blockLines_eq h level
  rw [hlines, List.cons_append, block?, hstarts.isItem_eq, if_neg Bool.false_ne_true,
    if_pos hstarts.isSome_key?, hindent]

theorem nested?_blockLines {entries : List (String × Document)} (h : IsTree (.mapping entries))
    (empty : Document) (level fuel inside : Nat) (hinside : inside ≤ 2 * level)
    (rest : List Line) :
    nested? empty (fuel + 2) inside (blockLines level entries ++ rest)
      = (entries? empty fuel (2 * level) (blockLines level entries ++ rest)).map
          fun r => (.mapping r.1, r.2) := by
  have hblock := block?_blockLines h empty level fuel inside rest
  obtain ⟨l, more, hlines, hindent, -⟩ := exists_blockLines_eq h level
  rw [hlines, List.cons_append] at hblock ⊢
  rw [nested?, if_pos (by omega), hblock]

theorem entries?_nil (empty : Document) {fuel indent : Nat} (hfuel : 0 < fuel) {rest : List Line}
    (hrest : Below indent rest) : entries? empty fuel indent rest = some ([], rest) := by
  obtain ⟨fuel, rfl⟩ : ∃ n, fuel = n + 1 := ⟨fuel - 1, by omega⟩
  cases rest with
  | nil => rw [entries?]
  | cons l more =>
      have hl : l.indent < indent := hrest l rfl
      rw [entries?, if_pos (by omega)]

/-- An entry with its value on its own line. -/
theorem entries?_setting {d : Document} {key : String} (hname : IsName key) (h : IsSetting d)
    (empty : Document) (level fuel : Nat) {rest : List Line} (hrest : Below (2 * level + 1) rest) :
    entries? empty (fuel + 1) (2 * level) (entryLines level key d ++ rest)
      = (entries? empty fuel (2 * level) rest).map fun r => ((key, d) :: r.1, r.2) := by
  have hstands := stands_of_isSetting h
  have hkey := key?_entry hname hstands.ne_nil
  have hbody : (lineText d).toList.dropWhile isBlank = (lineText d).toList := by
    refine Text.dropWhile_of_head fun c hc => ?_
    exact isBlank_of_isWordChar (hstands.word c (List.mem_of_mem_head? hc))
  have hinline := inline?_of_stands hstands empty hrest
  rw [entryLines_of_isSetting h, List.singleton_append, entries?, if_neg (by simp)]
  simp only [hkey, hbody, if_pos hstands.ne_nil, hinline, Option.bind_eq_bind, Option.bind_some]
  cases entries? empty fuel (2 * level) rest <;> rfl

/-- An entry with a block behind its line. -/
theorem entries?_block {inner : List (String × Document)} {key : String} (hname : IsName key)
    (h : IsTree (.mapping inner)) (empty : Document) (level fuel : Nat) {rest : List Line}
    (hinner : entries? empty fuel (2 * (level + 1)) (blockLines (level + 1) inner ++ rest)
      = some (inner, rest)) :
    entries? empty (fuel + 3) (2 * level) (entryLines level key (.mapping inner) ++ rest)
      = (entries? empty (fuel + 2) (2 * level) rest).map
          fun r => ((key, .mapping inner) :: r.1, r.2) := by
  have hne : inner ≠ [] := by
    cases h with
    | setting h => cases h
    | block hne => exact hne
  have hnested := nested?_blockLines h empty (level + 1) fuel (2 * level + 1) (by omega) rest
  obtain ⟨l, more, hlines, hindent, -⟩ := exists_blockLines_eq h (level + 1)
  -- the block is indented further than its heading
  have hdeeper : (l.indent == 2 * level) = false := by
    rw [beq_eq_false_iff_ne]
    omega
  rw [hinner, Option.map_some] at hnested
  -- nothing stands behind the key on its line, so the lines below are looked at
  rw [entryLines_of_ne_nil hne, List.cons_append, entries?, if_neg (by simp)]
  rw [hlines, List.cons_append] at hnested ⊢
  simp only [key?_heading hname, List.dropWhile_nil, hnested, List.head?_cons, Option.map_some,
    hdeeper, Bool.false_and, Option.bind_eq_bind, Option.bind_some]
  rw [if_neg (not_not.mpr rfl), if_neg (by simp)]
  cases entries? empty (fuel + 2) (2 * level) rest <;> rfl

theorem below_blockLines {entries : List (String × Document)} (hnames : ∀ e ∈ entries, IsName e.1)
    (h : ∀ e ∈ entries, IsTree e.2) {level : Nat} {rest : List Line}
    (hrest : Below (2 * level) rest) :
    Below (2 * level + 1) (blockLines level entries ++ rest) := by
  intro l hl
  by_cases hne : entries = []
  · subst hne
    have hbelow : l.indent < 2 * level := hrest l hl
    omega
  · obtain ⟨first, more, hlines, hindent, -⟩ := exists_blockLines_eq (.block hne hnames h) level
    rw [hlines] at hl
    cases Option.mem_some_iff.mp hl
    omega

/-- The lines of a block are read as its entries. Each line takes at most three units of fuel: one
for its entry and two for a block behind it. -/
theorem entries?_blockLines (entries : List (String × Document))
    (hnames : ∀ e ∈ entries, IsName e.1) (h : ∀ e ∈ entries, IsTree e.2) (empty : Document)
    (level fuel : Nat) (hfuel : 3 * (blockLines level entries).length < fuel)
    {rest : List Line} (hrest : Below (2 * level) rest) :
    entries? empty fuel (2 * level) (blockLines level entries ++ rest) = some (entries, rest) := by
  match entries with
  | [] => exact entries?_nil empty hfuel hrest
  | (key, d) :: others =>
      obtain ⟨hname, hotherNames⟩ := List.forall_mem_cons.mp hnames
      obtain ⟨hd, hotherTrees⟩ := List.forall_mem_cons.mp h
      -- the lines of the other entries, and what comes after them, are indented no further
      have hbelow := below_blockLines hotherNames hotherTrees hrest
      rw [blockLines, List.length_append] at hfuel
      rw [blockLines, List.append_assoc]
      match d, hd with
      | d, .setting hsetting =>
          rw [entryLines_of_isSetting hsetting, List.length_singleton] at hfuel
          obtain ⟨fuel, rfl⟩ : ∃ n, fuel = n + 1 := ⟨fuel - 1, by omega⟩
          have hothers := entries?_blockLines others hotherNames hotherTrees empty level fuel
            (by omega) hrest
          rw [entries?_setting hname hsetting empty level fuel hbelow, hothers]
          rfl
      | .mapping inner, .block hne hinnerNames hinner =>
          rw [entryLines_of_ne_nil hne, List.length_cons] at hfuel
          -- one unit is for the entry, two are for going into its block
          obtain ⟨fuel, rfl⟩ : ∃ n, fuel = n + 3 := ⟨fuel - 3, by omega⟩
          have hdeeper : Below (2 * (level + 1)) (blockLines level others ++ rest) := by
            intro l hl
            have hl := hbelow l hl
            omega
          have hblock := entries?_blockLines inner hinnerNames hinner empty (level + 1) fuel
            (by omega) hdeeper
          have hothers := entries?_blockLines others hotherNames hotherTrees empty level (fuel + 2)
            (by omega) hrest
          rw [entries?_block hname (.block hne hinnerNames hinner) empty level fuel hblock, hothers]
          rfl

/-! ## Whole texts -/

theorem toList_indentation (level : Nat) :
    (indentation level).toList = List.replicate (2 * level) ' ' := String.toList_ofList

theorem entryText_of_isSetting {d : Document} (h : IsSetting d) (level : Nat) :
    entryText level d = " " ++ lineText d ++ "\n" := by
  cases h <;> rfl

theorem entryText_of_ne_nil {entries : List (String × Document)} (h : entries ≠ []) (level : Nat) :
    entryText level (.mapping entries) = "\n" ++ blockText (level + 1) entries := by
  obtain ⟨e, es, rfl⟩ := List.exists_cons_of_ne_nil h
  rw [entryText]

/-- What is written for a block are its lines. -/
theorem toList_blockText (level : Nat) (entries : List (String × Document))
    (h : ∀ e ∈ entries, IsTree e.2) :
    (blockText level entries).toList = unlines ((blockLines level entries).map Line.chars) := by
  match entries with
  | [] => rfl
  | (key, d) :: others =>
      obtain ⟨hd, hotherTrees⟩ := List.forall_mem_cons.mp h
      have hothers := toList_blockText level others hotherTrees
      rw [blockText, String.toList_append, hothers, blockLines, List.map_append, unlines_append]
      -- one entry at a time: its text are its lines
      congr 1
      match d, hd with
      | d, .setting hsetting =>
          rw [entryText_of_isSetting hsetting, entryLines_of_isSetting hsetting]
          simp [unlines_nil, unlines_cons, Line.chars, toList_indentation, String.toList_append]
      | .mapping inner, .block hne hnames hinner =>
          have hblock := toList_blockText (level + 1) inner hinner
          rw [entryText_of_ne_nil hne, entryLines_of_ne_nil hne]
          simp [unlines_cons, Line.chars, toList_indentation, String.toList_append, hblock]

/-- A line is trim that begins with a name and does not end with a blank. -/
theorem isTrim_of_isName {name : String} (h : IsName name) (indent : Nat) {tail : List Char}
    (hplain : ∀ c ∈ tail, isPlainChar c = true)
    (hlast : ∀ c, tail.getLast? = some c → isBlank c = false) (hne : tail ≠ []) :
    Line.IsTrim ⟨indent, name.toList ++ tail⟩ := by
  obtain ⟨c, cs, hname, hc⟩ := h.exists_cons
  -- not empty, a first and a last character that are not blank, and plain characters only
  refine ⟨?_, ?_, ?_, ?_⟩
  · rw [hname]
    exact nofun
  · intro d hd
    rw [hname] at hd
    cases Option.some.inj hd
    exact isBlank_of_isWordChar hc
  · intro d hd
    rw [List.getLast?_append_of_ne_nil _ hne] at hd
    exact hlast d hd
  · intro d hd
    rcases List.mem_append.mp hd with hd | hd
    · exact isPlainChar_of_isWordChar (h.isWordChar_of_mem d hd)
    · exact hplain d hd

theorem isTrim_heading {name : String} (h : IsName name) (indent : Nat) :
    Line.IsTrim ⟨indent, name.toList ++ [':']⟩ := by
  have hcolon : ∀ c ∈ [':'], isPlainChar c = true := List.all_eq_true.mp (by decide)
  refine isTrim_of_isName h indent hcolon (fun c hc => ?_) nofun
  cases Option.some.inj hc
  decide

theorem isTrim_entry {name : String} (h : IsName name) (indent : Nat) {d : Document}
    {value : List Char} (hvalue : Stands d value) :
    Line.IsTrim ⟨indent, name.toList ++ ':' :: ' ' :: value⟩ := by
  have hplain : ∀ c ∈ value, isPlainChar c = true := fun c hc =>
    isPlainChar_of_isWordChar (hvalue.word c hc)
  have hcolon : isPlainChar ':' = true := by decide
  have hspace : isPlainChar ' ' = true := by decide
  refine isTrim_of_isName h indent ?_ (fun c hc => ?_) nofun
  · exact List.forall_mem_cons.mpr ⟨hcolon, List.forall_mem_cons.mpr ⟨hspace, hplain⟩⟩
  · have hlast : ([':', ' '] ++ value).getLast? = value.getLast? :=
      List.getLast?_append_of_ne_nil _ hvalue.ne_nil
    rw [show ':' :: ' ' :: value = [':', ' '] ++ value from rfl, hlast] at hc
    exact isBlank_of_isWordChar (hvalue.word c (List.mem_of_getLast? hc))

theorem isTrim_blockLines (entries : List (String × Document)) (hnames : ∀ e ∈ entries, IsName e.1)
    (h : ∀ e ∈ entries, IsTree e.2) (level : Nat) : ∀ l ∈ blockLines level entries, l.IsTrim := by
  match entries with
  | [] => exact nofun
  | (key, d) :: others =>
      obtain ⟨hname, hotherNames⟩ := List.forall_mem_cons.mp hnames
      obtain ⟨hd, hotherTrees⟩ := List.forall_mem_cons.mp h
      have hothers := isTrim_blockLines others hotherNames hotherTrees level
      rw [blockLines]
      -- the lines of the first entry, and those of the others by recursion
      refine List.forall_mem_append.mpr ⟨?_, hothers⟩
      match d, hd with
      | d, .setting hsetting =>
          rw [entryLines_of_isSetting hsetting]
          exact List.forall_mem_singleton.mpr (isTrim_entry hname _ (stands_of_isSetting hsetting))
      | .mapping inner, .block hne hinnerNames hinner =>
          rw [entryLines_of_ne_nil hne]
          exact List.forall_mem_cons.mpr ⟨isTrim_heading hname _,
            isTrim_blockLines inner hinnerNames hinner (level + 1)⟩

theorem write_of_ne_nil {entries : List (String × Document)} (h : entries ≠ []) :
    write (.mapping entries) = blockText 0 entries := by
  obtain ⟨e, es, rfl⟩ := List.exists_cons_of_ne_nil h
  rw [write]

/-- A tree of settings is read back from what is written for it, whatever stands for nothing. -/
theorem parse_write {entries : List (String × Document)} (h : IsTree (.mapping entries))
    (empty : Document) : parse empty (write (.mapping entries)) = some (.mapping entries) := by
  obtain ⟨hne, hnames, htrees⟩ : entries ≠ [] ∧ (∀ e ∈ entries, IsName e.1) ∧
      ∀ e ∈ entries, IsTree e.2 := by
    cases h with
    | setting h => exact nomatch h
    | block hne hnames htrees => exact ⟨hne, hnames, htrees⟩
  have htrim := isTrim_blockLines entries hnames htrees 0
  have htext : (write (.mapping entries)).toList
      = unlines ((blockLines 0 entries).map Line.chars) := by
    rw [write_of_ne_nil hne, toList_blockText 0 entries htrees]
  have hlines : linesOf (write (.mapping entries)).toList = blockLines 0 entries := by
    rw [htext, linesOf_unlines htrim]
  have hallowed : (write (.mapping entries)).toList.all isAllowed = true := by
    rw [htext]
    exact isAllowed_unlines (plain_of_isTrim htrim)
  -- No document marker is in front, for the first line begins with a name.
  have hmarker : ((blockLines 0 entries).head?.map Line.text) ≠ some ['-', '-', '-'] := by
    obtain ⟨l, more, hfirst, -, c, cs, hl, hc, -⟩ := exists_blockLines_eq h 0
    rw [hfirst, List.head?_cons, Option.map_some, hl]
    intro heq
    exact ne_of_eq_false hc (by decide) (List.cons.inj (Option.some.inj heq)).1
  have hlength : (blockLines 0 entries).length ≤ (write (.mapping entries)).toList.length := by
    have hbound := length_le_length_unlines ((blockLines 0 entries).map Line.chars)
    rwa [List.length_map, ← htext] at hbound
  have hentries := entries?_blockLines entries hnames htrees empty 0
    (4 * (write (.mapping entries)).toList.length + 3) (by omega) (below_nil _)
  have hblock := block?_blockLines h empty 0
    (4 * (write (.mapping entries)).toList.length + 3) 0 []
  rw [hentries, List.append_nil] at hblock
  simp only [parse, hallowed, hlines, if_true, if_neg hmarker]
  rw [Nat.mul_add, hblock]
  rfl

end Formula.Yaml
