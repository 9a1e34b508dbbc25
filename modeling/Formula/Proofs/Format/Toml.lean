import Formula.Format.Toml
import Formula.Proofs.Format.Settings
import Mathlib.Data.List.Basic

set_option autoImplicit false

/-! # Sections of settings in TOML texts

`Takes cs r r'` says that the text `cs` in front of any other takes the document read so far from
`r` to `r'`. Each line is such a step, so the lines of an entry, of a section and of a whole text
are steps one after the other. What is written is read back because the steps add one entry at a
time, in the order of the entries.
-/

namespace Formula.Toml

open Decimal

/-- The entries outside of sections, and the sections from the last one on. -/
abbrev Partial := List (String × Document) × List Section

/-- Reads a text into a document. -/
def readInto (r : Partial) (cs : List Char) : Option Partial :=
  lines? cs >>= fun lines => lines.foldlM (fun r line => add r.1 r.2 line) r

/-- A text in front of any other takes a document from one state to another. -/
def Takes (cs : List Char) (r r' : Partial) : Prop :=
  ∀ rest, readInto r (cs ++ rest) = readInto r' rest

theorem parse_eq (text : String) :
    parse text = (readInto ([], []) text.toList).map fun r =>
      .mapping (r.1 ++ r.2.reverse.map fun s => (s.1, .mapping s.2)) := by
  rw [parse, readInto]
  cases lines? text.toList with
  | none => rfl
  | some lines =>
      simp only [Option.bind_eq_bind, Option.bind_some]
      cases lines.foldlM (fun r line => add r.1 r.2 line) ([], []) <;> rfl

theorem Takes.nil (r : Partial) : Takes [] r r := fun _ => rfl

theorem Takes.append {cs cs' : List Char} {r r' r'' : Partial} (h : Takes cs r r')
    (h' : Takes cs' r' r'') : Takes (cs ++ cs') r r'' := by
  intro rest
  rw [List.append_assoc, h, h']

/-! ## Lines -/

/-- The characters of a line. -/
def OnLine (cs : List Char) : Prop := ∀ c ∈ cs, c ≠ '\n' ∧ c ≠ '\r'

theorem plainEnds_cons {c : Char} (h : c ≠ '\r') (rest : List Char) :
    plainEnds (c :: rest) = c :: plainEnds rest := by
  rw [plainEnds]
  exact fun _ heq => absurd heq h

theorem plainEnds_line {cs : List Char} (h : OnLine cs) (rest : List Char) :
    plainEnds (cs ++ '\n' :: rest) = cs ++ '\n' :: plainEnds rest := by
  induction cs with
  | nil => exact plainEnds_cons (by decide) rest
  | cons c more ih =>
      obtain ⟨hc, hmore⟩ := List.forall_mem_cons.mp h
      rw [List.cons_append, plainEnds_cons hc.2, ih hmore, List.cons_append]

theorem lines?_line {cs : List Char} (h : OnLine cs) (rest : List Char) :
    lines? (cs ++ '\n' :: rest)
      = (line? cs).bind fun line => (lines? rest).map (line :: ·) := by
  have hnotin : '\n' ∉ cs := fun hmem => (h _ hmem).1 rfl
  rw [lines?, plainEnds_line h, List.splitOn_append_cons_self_of_not_mem hnotin, List.mapM_cons]
  cases line? cs with
  | none => rfl
  | some line =>
      rw [lines?]
      cases ((plainEnds rest).splitOn '\n').mapM line? <;> rfl

theorem Takes.line {cs : List Char} {root : List (String × Document)} {done : List Section}
    {line : Line} {r : Partial} (h : OnLine cs) (hline : line? cs = some line)
    (hadd : add root done line = some r) : Takes (cs ++ ['\n']) (root, done) r := by
  intro rest
  rw [List.append_assoc, List.singleton_append, readInto, lines?_line h, hline, Option.bind_some,
    readInto]
  cases lines? rest with
  | none => rfl
  | some lines =>
      simp only [Option.map_some, Option.bind_eq_bind, Option.bind_some, List.foldlM_cons, hadd]

/-! ## Headers and entries -/

theorem isKeyChar_of_isName {name : String} (h : IsName name) :
    ∀ c ∈ name.toList, isKeyChar c = true := by
  intro c hc
  rcases h.of_mem c hc with hlower | rfl
  · have halpha : c.isAlpha = true := Bool.or_eq_true_iff.mpr (.inr hlower)
    simp only [isKeyChar, Char.isAlphanum, halpha, Bool.true_or]
  · decide

theorem skip_cons {c : Char} (h : isSpace c = false) (rest : List Char) :
    skip (c :: rest) = c :: rest := by
  rw [skip, List.dropWhile_cons_of_neg]
  rw [h]
  exact nofun

theorem isSpace_of_isWordChar {c : Char} (h : isWordChar c = true) : isSpace c = false := by
  have hspace : c ≠ ' ' := ne_of_eq_false h (by decide)
  have htab : c ≠ '\t' := ne_of_eq_false h (by decide)
  simp only [isSpace, beq_eq_false_iff_ne.mpr hspace, beq_eq_false_iff_ne.mpr htab, Bool.or_self]

theorem string?_of_isWordChar {c : Char} (h : isWordChar c = true) (rest : List Char) :
    string? (c :: rest) = none := by
  rw [string?]
  · exact fun _ heq => absurd (List.cons.inj heq).1 (ne_of_eq_false h (by decide))
  · exact fun _ heq => absurd (List.cons.inj heq).1 (ne_of_eq_false h (by decide))

theorem isBlank_of_isWordChar {c : Char} (h : isWordChar c = true) (rest : List Char) :
    isBlank (c :: rest) = false := by
  rw [isBlank, skip_cons (isSpace_of_isWordChar h)]
  split
  · next heq => exact nomatch heq
  · next heq => exact absurd (List.cons.inj heq).1 (ne_of_eq_false h (by decide))
  · rfl

/-- A key ends in front of anything that may not stand in it. -/
theorem key?_name {name : String} (h : IsName name) {c : Char} (hc : isKeyChar c = false)
    (rest : List Char) : key? (name.toList ++ c :: rest) = some (name, c :: rest) := by
  have hchars := isKeyChar_of_isName h
  obtain ⟨d, more, hname, hd⟩ := h.exists_cons
  have hstring : string? (name.toList ++ c :: rest) = none := by
    rw [hname]
    exact string?_of_isWordChar hd _
  have htake : (name.toList ++ c :: rest).takeWhile isKeyChar = name.toList := by
    rw [List.takeWhile_append_of_pos hchars, List.takeWhile_cons_of_neg (by simp [hc]),
      List.append_nil]
  have hdrop : (name.toList ++ c :: rest).dropWhile isKeyChar = c :: rest := by
    rw [List.dropWhile_append_of_pos hchars, List.dropWhile_cons_of_neg (by simp [hc])]
  simp only [key?, hstring, htake, hdrop]
  split
  · next heq => exact absurd heq h.ne_nil
  · rw [String.ofList_toList]

theorem line?_header {name : String} (h : IsName name) :
    line? ('[' :: (name.toList ++ [']'])) = some (.header name) := by
  have hkey := key?_name h (c := ']') (by decide) []
  obtain ⟨d, more, hname, hd⟩ := h.exists_cons
  have hskip : skip (name.toList ++ [']']) = name.toList ++ [']'] := by
    rw [hname]
    exact skip_cons (isSpace_of_isWordChar hd) _
  have hblank : isBlank ('[' :: (name.toList ++ [']'])) = false := rfl
  rw [line?, hblank, skip_cons (by decide)]
  simp only [hskip, hkey, Option.bind_eq_bind, Option.bind_some]
  rfl

theorem line?_entry {name : String} (h : IsName name) {value : List Char} {d : Document}
    (hskip : skip value = value) (hvalue : value? value = some d) :
    line? (name.toList ++ ' ' :: '=' :: ' ' :: value) = some (.entry name d) := by
  have hkey := key?_name h (c := ' ') (by decide) ('=' :: ' ' :: value)
  obtain ⟨c, more, hname, hc⟩ := h.exists_cons
  have hequals : skip (' ' :: '=' :: ' ' :: value) = '=' :: ' ' :: value := rfl
  have hbehind : skip (' ' :: value) = value := hskip
  rw [hname] at hkey ⊢
  rw [List.cons_append] at hkey ⊢
  rw [line?, isBlank_of_isWordChar hc, skip_cons (isSpace_of_isWordChar hc)]
  split
  · next heq => exact absurd heq nofun
  · split
    · next heq => exact absurd (List.cons.inj heq).1 (ne_of_eq_false hc (by decide))
    · simp only [hkey, Option.bind_eq_bind, Option.bind_some, hequals, hbehind, hvalue,
        Option.map_some]

/-! ## Values -/

theorem endsWord_of_isWordChar {c : Char} (h : isWordChar c = true) : endsWord c = false := by
  rw [endsWord, isSpace_of_isWordChar h,
    beq_eq_false_iff_ne.mpr (ne_of_eq_false (d := '#') h (by decide))]
  rfl

/-- A word that fills a line is a value of its own. -/
theorem value?_word {cs : List Char} (hne : cs ≠ []) (h : ∀ c ∈ cs, isWordChar c = true) :
    value? cs = word? cs := by
  obtain ⟨c, more, rfl⟩ := List.exists_cons_of_ne_nil hne
  have hword : ∀ d ∈ c :: more, (fun d => !endsWord d) d = true := by
    intro d hd
    simp only [endsWord_of_isWordChar (h d hd), Bool.not_false]
  have htake := List.takeWhile_eq_self_iff.mpr hword
  have hdrop := List.dropWhile_eq_nil_iff.mpr hword
  rw [value?, string?_of_isWordChar (h c List.mem_cons_self)]
  dsimp only at htake hdrop ⊢
  rw [htake, hdrop]
  rfl

theorem joined?_of_forall {cs : List Char} (hne : cs ≠ []) (h : ∀ c ∈ cs, c ≠ '_') :
    joined? cs = some cs := by
  induction cs with
  | nil => exact absurd rfl hne
  | cons c rest ih =>
      obtain ⟨hc, hrest⟩ := List.forall_mem_cons.mp h
      cases rest with
      | nil =>
          rw [joined?]
          exact hc
      | cons d rest =>
          have hd := hrest d List.mem_cons_self
          rw [joined?, if_neg hc, ih nofun hrest, Option.map_some]
          · exact nofun
          · exact nofun
          · exact fun _ heq => absurd (List.cons.inj heq).1 hd

theorem natural?_of_numeral {cs : List Char} (h : Numeral cs) :
    natural? 10 cs = some (digitsValue cs) := by
  have hjoined := joined?_of_forall h.ne_nil fun c hc =>
    ne_of_eq_false (h.isDigit c hc) (by decide)
  rw [natural?, hjoined, Option.bind_eq_bind, Option.bind_some, Yaml.natural?_of_numeral h]

theorem decimal?_of_numeral {cs : List Char} (h : Numeral cs) :
    decimal? cs = some (digitsValue cs : Int) := by
  have hzero : ¬(cs.head? = some '0' ∧ cs ≠ ['0']) := by
    rintro ⟨hhead, hne⟩
    obtain ⟨more, hcs⟩ := List.head?_eq_some_iff.mp hhead
    rw [h.eq_nil more hcs] at hcs
    exact hne hcs
  simp only [decimal?, h.takeSign_eq, natural?_of_numeral h, Option.bind_eq_bind,
    Option.bind_some, if_neg hzero]
  rfl

theorem integer?_of_numeral {cs : List Char} (h : Numeral cs)
    (hfits : fitsSigned 64 (digitsValue cs) = true) :
    integer? cs = some (digitsValue cs : Int) := by
  have hany : anyInteger? cs = decimal? cs := by
    rw [anyInteger?]
    · exact fun rest heq => h.ne_zero_cons 'x' rest heq
    · exact fun rest heq => h.ne_zero_cons 'o' rest heq
    · exact fun rest heq => h.ne_zero_cons 'b' rest heq
  rw [integer?, hany, decimal?_of_numeral h, Option.filter_some, if_pos hfits]

theorem word?_of_numeral {cs : List Char} (h : Numeral cs)
    (hfits : fitsSigned 64 (digitsValue cs) = true) :
    word? cs = some (.integer (digitsValue cs)) := by
  have htrue : String.ofList cs ≠ "true" := h.ofList_ne (by decide)
  have hfalse : String.ofList cs ≠ "false" := h.ofList_ne (by decide)
  rw [word?, if_neg htrue, if_neg hfalse, integer?_of_numeral h hfits]

/-! ### Strings -/

theorem escape_of_isLower {c : Char} (h : c.isLower = true) : Json.escape c = [c] := by
  have hrange := toNat_of_isWordChar (isWordChar_of_isLower h)
  unfold Json.escape
  split
  · exact absurd h (by decide)
  · exact absurd h (by decide)
  · exact absurd h (by decide)
  · exact absurd h (by decide)
  · exact absurd h (by decide)
  · exact absurd h (by decide)
  · exact absurd h (by decide)
  · rw [if_neg (by omega)]

theorem quoted_of_isLower {s : String} (h : ∀ c ∈ s.toList, c.isLower = true) :
    Json.quoted s = '"' :: (s.toList ++ ['"']) := by
  have hescape : s.toList.flatMap Json.escape = s.toList := by
    rw [List.flatMap_congr fun c hc => escape_of_isLower (h c hc), List.flatMap_singleton']
  rw [Json.quoted, hescape]

theorem quotedChar?_of_isLower {c : Char} (h : c.isLower = true) (rest : List Char) :
    quotedChar? (c :: rest) = some (c, rest) := by
  have hrange := toNat_of_isWordChar (isWordChar_of_isLower h)
  have hslash : c ≠ '\\' := ne_of_eq_false h (by decide)
  have hshown : isShown c = true := by
    simp only [isShown, Bool.or_eq_true, Bool.and_eq_true, decide_eq_true_eq, bne_iff_ne]
    omega
  rw [quotedChar?, if_pos ⟨hslash, hshown⟩]
  · exact fun _ heq => absurd heq hslash
  · exact fun _ heq => absurd heq hslash
  · exact fun _ _ heq => absurd heq hslash

theorem stringBody?_of_isLower {cs : List Char} (h : ∀ c ∈ cs, c.isLower = true)
    (rest : List Char) {fuel : Nat} (hfuel : cs.length < fuel) :
    stringBody? fuel (cs ++ '"' :: rest) = some (cs, rest) := by
  induction cs generalizing fuel with
  | nil =>
      obtain ⟨fuel, rfl⟩ : ∃ n, fuel = n + 1 := ⟨fuel - 1, by omega⟩
      rfl
  | cons c more ih =>
      obtain ⟨hc, hmore⟩ := List.forall_mem_cons.mp h
      rw [List.length_cons] at hfuel
      obtain ⟨fuel, rfl⟩ : ∃ n, fuel = n + 1 := ⟨fuel - 1, by omega⟩
      have hbody : stringBody? fuel (more ++ '"' :: rest) = some (more, rest) :=
        ih hmore (by omega)
      rw [List.cons_append, stringBody?]
      · simp only [quotedChar?_of_isLower hc, Option.bind_eq_bind, Option.bind_some, hbody]
      · exact fun _ heq => absurd (List.cons.inj heq).1 (ne_of_eq_false hc (by decide))

theorem value?_quoted {s : String} (h : ∀ c ∈ s.toList, c.isLower = true) :
    value? (Json.quoted s) = some (.string s) := by
  have hlength : s.toList.length < (s.toList ++ ['"']).length + 1 := by
    rw [List.length_append]
    omega
  have hbody := stringBody?_of_isLower h [] hlength
  have hstring : string? ('"' :: (s.toList ++ ['"'])) = some (s, []) := by
    rw [string?, hbody, Option.map_some, String.ofList_toList]
  rw [quoted_of_isLower h, value?, hstring]
  rfl

/-! ### Settings -/

/-- A text that stands for a value on the line of its name. -/
structure Fills (d : Document) (cs : List Char) : Prop where
  value : value? cs = some d
  skip : skip cs = cs
  onLine : OnLine cs

theorem onLine_of_all {cs : List Char} (h : cs.all (fun c => c != '\n' && c != '\r') = true) :
    OnLine cs := by
  intro c hc
  have hboth := List.all_eq_true.mp h c hc
  rwa [Bool.and_eq_true, bne_iff_ne, bne_iff_ne] at hboth

theorem onLine_of_isWordChar {cs : List Char} (h : ∀ c ∈ cs, isWordChar c = true) : OnLine cs :=
  fun c hc => ⟨ne_of_eq_false (h c hc) (by decide), ne_of_eq_false (h c hc) (by decide)⟩

theorem OnLine.append {cs cs' : List Char} (h : OnLine cs) (h' : OnLine cs') : OnLine (cs ++ cs') :=
  List.forall_mem_append.mpr ⟨h, h'⟩

/-- Digits are characters of a word, and no other reading of the word comes first. -/
theorem fills_count {n : Nat} (hfits : fitsSigned 64 n = true) :
    Fills (.integer n) (Nat.toDigits 10 n) := by
  have hnumeral := numeral_toDigits n
  rw [← digitsValue_toDigits n] at hfits
  have hvalue := word?_of_numeral hnumeral hfits
  rw [digitsValue_toDigits] at hvalue
  have hword : ∀ c ∈ Nat.toDigits 10 n, isWordChar c = true := fun c hc =>
    isWordChar_of_isDigit (hnumeral.isDigit c hc)
  refine ⟨(value?_word hnumeral.ne_nil hword).trans hvalue, ?_, onLine_of_isWordChar hword⟩
  obtain ⟨c, more, hcs, hc⟩ := hnumeral.exists_cons
  rw [hcs]
  exact skip_cons (isSpace_of_isWordChar (isWordChar_of_isDigit hc)) more

/-- A word of small letters is quoted without an escape. -/
theorem fills_quoted {s : String} (h : ∀ c ∈ s.toList, c.isLower = true) :
    Fills (.string s) (Json.quoted s) := by
  refine ⟨value?_quoted h, skip_cons (by decide) _, ?_⟩
  have hquote : OnLine ['"'] := onLine_of_all (by decide)
  have hword : OnLine s.toList := onLine_of_isWordChar fun c hc => isWordChar_of_isLower (h c hc)
  rw [quoted_of_isLower h]
  exact hquote.append (hword.append hquote)

/-- What is written for a setting is read as the setting. -/
theorem fills_of_isSetting {d : Document} (hd : IsSetting d) {text : String}
    (htext : scalarText? d = some text) : Fills d text.toList := by
  cases hd with
  | bool b =>
      cases Option.some.inj htext
      cases b
      · exact ⟨rfl, rfl, onLine_of_all (by decide)⟩
      · exact ⟨rfl, rfl, onLine_of_all (by decide)⟩
  | count _ =>
      rw [scalarText?] at htext
      split at htext
      · next hfits =>
          rw [← Option.some.inj htext, toList_toString]
          exact fills_count hfits
      · exact nomatch htext
  | word h =>
      rw [← Option.some.inj htext, String.toList_ofList]
      exact fills_quoted (isLower_of_isPlain h)

/-! ## Sections -/

theorem lookup_eq_none {α : Type} {key : String} {entries : List (String × α)}
    (h : key ∉ entries.map Prod.fst) : entries.lookup key = none := by
  rw [List.lookup_eq_none_iff]
  intro e he
  have hne : key ≠ e.1 := fun heq => h (heq ▸ List.mem_map_of_mem he)
  rw [bne_iff_ne]
  exact hne

theorem onLine_of_isName {name : String} (h : IsName name) : OnLine name.toList :=
  onLine_of_isWordChar h.isWordChar_of_mem

/-- The entries of a section: settings under names that do not repeat. -/
structure IsEntries (entries : List (String × Document)) : Prop where
  names : ∀ e ∈ entries, IsName e.1
  settings : ∀ e ∈ entries, IsSetting e.2
  distinct : (entries.map Prod.fst).Nodup

variable {root before : List (String × Document)} {done : List Section} {heading : String}

/-- The line of an entry adds that entry to the last section. -/
theorem takes_entry {e : String × Document} {text : String} (hname : IsName e.1)
    (hsetting : IsSetting e.2) (hfresh : e.1 ∉ before.map Prod.fst)
    (htext : entryText? e = some text) :
    Takes text.toList (root, (heading, before) :: done)
      (root, (heading, before ++ [e]) :: done) := by
  obtain ⟨value, hvalue, rfl⟩ := Option.map_eq_some_iff.mp htext
  have hfills := fills_of_isSetting hsetting hvalue
  have honline : OnLine (e.1.toList ++ ([' ', '=', ' '] ++ value.toList)) := by
    have hequals : OnLine [' ', '=', ' '] := onLine_of_all (by decide)
    exact (onLine_of_isName hname).append (hequals.append hfills.onLine)
  -- the name is new in its section, so that it is not refused as given twice
  have hadd : add root ((heading, before) :: done) (.entry e.1 e.2)
      = some (root, (heading, before ++ [e]) :: done) := by
    rw [add, lookup_eq_none hfresh]
    rfl
  have hchars : (e.1 ++ " = " ++ value ++ "\n").toList
      = e.1.toList ++ ([' ', '=', ' '] ++ value.toList) ++ ['\n'] := by
    simp [String.toList_append]
  rw [hchars]
  exact Takes.line honline (line?_entry hname hfills.skip hfills.value) hadd

theorem toList_intercalate_cons (text : String) (texts : List String) :
    ("".intercalate (text :: texts)).toList = text.toList ++ ("".intercalate texts).toList := by
  cases texts with
  | nil => simp
  | cons next others => simp

theorem takes_entries {entries : List (String × Document)} {texts : List String}
    (h : IsEntries entries) (hfresh : ∀ e ∈ entries, e.1 ∉ before.map Prod.fst)
    (htexts : entries.mapM entryText? = some texts) :
    Takes ("".intercalate texts).toList (root, (heading, before) :: done)
      (root, (heading, before ++ entries) :: done) := by
  induction entries generalizing before texts with
  | nil =>
      cases Option.some.inj htexts
      rw [List.append_nil]
      exact Takes.nil _
  | cons e rest ih =>
      obtain ⟨hname, hnames⟩ := List.forall_mem_cons.mp h.names
      obtain ⟨hsetting, hsettings⟩ := List.forall_mem_cons.mp h.settings
      obtain ⟨hnotin, hdistinct⟩ := List.nodup_cons.mp h.distinct
      obtain ⟨hfirst, hothers⟩ := List.forall_mem_cons.mp hfresh
      rw [List.mapM_cons] at htexts
      obtain ⟨text, htext, htexts⟩ := Option.bind_eq_some_iff.mp htexts
      obtain ⟨texts, hmore, hcons⟩ := Option.bind_eq_some_iff.mp htexts
      cases Option.some.inj hcons
      -- the names still to come differ from the one that is added now
      have hbehind : ∀ d ∈ rest, d.1 ∉ (before ++ [e]).map Prod.fst := by
        intro d hd hmem
        rw [List.map_append, List.mem_append] at hmem
        rcases hmem with hmem | hmem
        · exact hothers d hd hmem
        · rw [List.map_singleton, List.mem_singleton] at hmem
          exact hnotin (hmem ▸ List.mem_map_of_mem hd)
      have hstep : Takes text.toList (root, (heading, before) :: done)
          (root, (heading, before ++ [e]) :: done) := takes_entry hname hsetting hfirst htext
      have hrest := ih ⟨hnames, hsettings, hdistinct⟩ hbehind hmore
      rw [List.append_assoc, List.singleton_append] at hrest
      rw [toList_intercalate_cons]
      exact hstep.append hrest

/-- The lines of a section add that section. -/
theorem takes_section {s : Section} {text : String} (hname : IsName s.1) (h : IsEntries s.2)
    (hfresh : s.1 ∉ done.map Prod.fst) (htext : sectionText? (s.1, .mapping s.2) = some text) :
    Takes text.toList ([], done) ([], s :: done) := by
  obtain ⟨texts, htexts, hlines⟩ := Option.bind_eq_some_iff.mp htext
  cases Option.some.inj hlines
  have honline : OnLine ('[' :: (s.1.toList ++ [']'])) := by
    have hopening : OnLine ['['] := onLine_of_all (by decide)
    have hclosing : OnLine [']'] := onLine_of_all (by decide)
    exact hopening.append ((onLine_of_isName hname).append hclosing)
  have hadd : add [] done (.header s.1) = some ([], (s.1, []) :: done) := by
    rw [add, lookup_eq_none hfresh]
    rfl
  -- the header opens an empty section, which the lines of the entries fill
  have hheader := Takes.line honline (line?_header hname) hadd
  have hentries : Takes ("".intercalate texts).toList ([], (s.1, []) :: done)
      ([], (s.1, [] ++ s.2) :: done) := takes_entries h (fun _ _ => nofun) htexts
  have hchars : ("[" ++ s.1 ++ "]\n" ++ "".intercalate texts).toList
      = '[' :: (s.1.toList ++ [']']) ++ ['\n'] ++ ("".intercalate texts).toList := by
    simp [String.toList_append]
  rw [hchars]
  exact hheader.append hentries

theorem takes_blank (r : Partial) : Takes ['\n'] r r := by
  have hblank : Takes ([] ++ ['\n']) r r := Takes.line nofun rfl rfl
  exact hblank

/-- Sections under names that do not repeat. -/
structure IsSections (sections : List Section) : Prop where
  names : ∀ s ∈ sections, IsName s.1
  entries : ∀ s ∈ sections, IsEntries s.2
  distinct : (sections.map Prod.fst).Nodup

/-- The sections of a document. -/
def document (sections : List Section) : Document :=
  .mapping (sections.map fun s => (s.1, .mapping s.2))

theorem takes_sections {sections : List Section} {texts : List String} (h : IsSections sections)
    (hfresh : ∀ s ∈ sections, s.1 ∉ done.map Prod.fst)
    (htexts : (sections.map fun s => (s.1, Document.mapping s.2)).mapM sectionText? = some texts) :
    Takes ("\n".intercalate texts).toList ([], done) ([], sections.reverse ++ done) := by
  induction sections generalizing done texts with
  | nil =>
      cases Option.some.inj htexts
      exact Takes.nil _
  | cons s rest ih =>
      obtain ⟨hname, hnames⟩ := List.forall_mem_cons.mp h.names
      obtain ⟨hentries, hothers⟩ := List.forall_mem_cons.mp h.entries
      obtain ⟨hnotin, hdistinct⟩ := List.nodup_cons.mp h.distinct
      obtain ⟨hfirst, hbehind⟩ := List.forall_mem_cons.mp hfresh
      rw [List.map_cons, List.mapM_cons] at htexts
      obtain ⟨text, htext, htexts⟩ := Option.bind_eq_some_iff.mp htexts
      obtain ⟨texts, hmore, hcons⟩ := Option.bind_eq_some_iff.mp htexts
      cases Option.some.inj hcons
      -- the headings still to come differ from the one that is added now
      have hstill : ∀ d ∈ rest, d.1 ∉ (s :: done).map Prod.fst := by
        intro d hd hmem
        rcases List.mem_cons.mp hmem with heq | hmem
        · exact hnotin (heq ▸ List.mem_map_of_mem hd)
        · exact hbehind d hd hmem
      have hstep := takes_section hname hentries hfirst htext
      have hrest := ih ⟨hnames, hothers, hdistinct⟩ hstill hmore
      rw [List.reverse_cons, List.append_assoc, List.singleton_append]
      -- sections are parted by a blank line, which nothing follows in the end
      cases texts with
      | nil =>
          rw [String.intercalate_singleton]
          simpa using hstep.append hrest
      | cons next others =>
          rw [String.intercalate_cons_cons, String.toList_append, String.toList_append]
          exact (hstep.append (takes_blank _)).append hrest

/-- Sections of settings are read back from what is written for them. Nothing is written where a
count takes more than 63 bits. -/
theorem parse_of_write? {sections : List Section} (h : IsSections sections) {text : String}
    (htext : write? (document sections) = some text) : parse text = some (document sections) := by
  obtain ⟨texts, htexts, rfl⟩ := Option.map_eq_some_iff.mp htext
  have htakes : Takes ("\n".intercalate texts).toList ([], []) ([], sections.reverse ++ []) :=
    takes_sections h (fun _ _ => nofun) htexts
  have hread : readInto ([], []) ("\n".intercalate texts).toList
      = some ([], sections.reverse) := by
    have hall := htakes []
    rwa [List.append_nil, List.append_nil] at hall
  rw [parse_eq, hread, Option.map_some, List.nil_append, List.reverse_reverse]
  rfl

end Formula.Toml
