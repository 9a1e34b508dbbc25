import Formula.Config.File
import Formula.Proofs.Format.Json.Pretty
import Formula.Proofs.Format.Toml
import Formula.Proofs.Format.Yaml.Block

set_option autoImplicit false

/-! # Configurations in files

A configuration is a tree of settings in sections, whose limits are counts of 64 bits. Each format
reads back what it writes for such a tree, and the tree is read as the configuration it was made of.
Since a file of any name is read in the format it is written in, what is written to a file under
some name is read back from a file of that name.
-/

namespace Formula

namespace Config

/-- A configuration whose limits are counts of 64 bits. -/
structure Fits (c : Config) : Prop where
  depth : c.eval.maxDepth < Word.size
  elements : c.eval.maxElements < Word.size

/-! ## Documents -/

theorem bind_of_eq_some {α β : Type} {x : Option α} {a : α} (h : x = some a)
    (f : α → Option β) : (x >>= f) = f a := by
  rw [h, Option.bind_eq_bind, Option.bind_some]

theorem readCount_of_lt {n : Nat} (h : n < Word.size) : readCount (.integer n) = some n := by
  have hbounds : 0 ≤ (n : Int) ∧ (n : Int) < Word.size := by omega
  rw [readCount, if_pos hbounds, Int.toNat_natCast]

/-- A value that is given is read, whatever the default. -/
theorem readOr_eq_some {α : Type} {read : Document → Option α} {d : Document} {x : α}
    (h : read d = some x) (default : α) : readOr default read (some d) = some x := h

theorem readOr_bool (b default : Bool) :
    readOr default Document.bool? (some (.bool b)) = some b := rfl

theorem readEval_toDocument {s : EvalSettings} (hdepth : s.maxDepth < Word.size)
    (helements : s.maxElements < Word.size) : readEval s.toDocument = some s := by
  have hgiven : given EvalSettings.names s.toDocument
      = some [some (.integer s.maxDepth), some (.integer s.maxElements), some (.bool s.constants),
          some (.bool s.verbose)] := rfl
  rw [readEval, bind_of_eq_some hgiven]
  dsimp only
  rw [bind_of_eq_some (readOr_eq_some (readCount_of_lt hdepth) _),
    bind_of_eq_some (readOr_eq_some (readCount_of_lt helements) _),
    bind_of_eq_some (readOr_bool s.constants _), bind_of_eq_some (readOr_bool s.verbose _)]

theorem notationOfToken?_token (n : Notation) : notationOfToken? n.token = some n := by
  cases n <;> rfl

theorem readOutput_toDocument (keyed : Bool) (s : OutputSettings) :
    readOutput keyed s.toDocument = some s := by
  have hgiven : given OutputSettings.names s.toDocument
      = some [some (.string s.echoAs.token), some (.bool s.echo), some (.bool s.timing)] := rfl
  have htoken : (readName keyed (.string s.echoAs.token) >>= notationOfToken?) = some s.echoAs :=
    notationOfToken?_token s.echoAs
  rw [readOutput, bind_of_eq_some hgiven]
  dsimp only
  rw [bind_of_eq_some (readOr_eq_some htoken _), bind_of_eq_some (readOr_bool s.echo _),
    bind_of_eq_some (readOr_bool s.timing _)]

theorem levelOfToken?_token (l : Level) : levelOfToken? l.token = some l := by
  cases l <;> rfl

theorem readLog_toDocument (keyed : Bool) (s : LogSettings) :
    readLog keyed s.toDocument = some s := by
  have hgiven : given LogSettings.names s.toDocument
      = some [some (.string s.level.token), some (.bool s.debug)] := rfl
  have htoken : (readName keyed (.string s.level.token) >>= levelOfToken?) = some s.level :=
    levelOfToken?_token s.level
  rw [readLog, bind_of_eq_some hgiven]
  dsimp only
  rw [bind_of_eq_some (readOr_eq_some htoken _), bind_of_eq_some (readOr_bool s.debug _)]

/-- The document of a configuration is read as that configuration. -/
theorem ofDocument_toDocument (keyed : Bool) {c : Config} (h : Fits c) :
    ofDocument keyed c.toDocument = some c := by
  have hgiven : given names c.toDocument
      = some [some c.eval.toDocument, some c.output.toDocument, some c.logging.toDocument] := rfl
  have heval := readEval_toDocument h.depth h.elements
  have houtput := readOutput_toDocument keyed c.output
  have hlogging := readLog_toDocument keyed c.logging
  rw [ofDocument, bind_of_eq_some hgiven]
  dsimp only
  rw [bind_of_eq_some (readOr_eq_some heval _), bind_of_eq_some (readOr_eq_some houtput _),
    bind_of_eq_some (readOr_eq_some hlogging _)]

/-! ## Sections of settings -/

/-- The entries of the settings of evaluation. -/
def evalEntries (s : EvalSettings) : List (String × Document) :=
  [("max_depth", .integer s.maxDepth), ("max_elements", .integer s.maxElements),
    ("constants", .bool s.constants), ("verbose", .bool s.verbose)]

/-- The entries of the settings of the output. -/
def outputEntries (s : OutputSettings) : List (String × Document) :=
  [("notation", .string s.echoAs.token), ("echo", .bool s.echo), ("timing", .bool s.timing)]

/-- The entries of the settings of logging. -/
def logEntries (s : LogSettings) : List (String × Document) :=
  [("level", .string s.level.token), ("debug", .bool s.debug)]

/-- The sections of a configuration. -/
def sections (c : Config) : List Toml.Section :=
  [("eval", evalEntries c.eval), ("output", outputEntries c.output),
    ("logging", logEntries c.logging)]

theorem document_sections (c : Config) : Toml.document c.sections = c.toDocument := rfl

/-- Settings are entries if their names are names of entries, of which none stands twice. -/
theorem isEntries_of_names (names : List String) {entries : List (String × Document)}
    (h : entries.map Prod.fst = names) (hnames : ∀ name ∈ names, IsName name)
    (hdistinct : names.Nodup) (hsettings : ∀ e ∈ entries, IsSetting e.2) :
    Toml.IsEntries entries where
  names := fun e he => hnames e.1 (h ▸ List.mem_map_of_mem he)
  settings := hsettings
  distinct := h ▸ hdistinct

theorem isEntries_eval {s : EvalSettings} (hdepth : s.maxDepth < Word.size)
    (helements : s.maxElements < Word.size) : Toml.IsEntries (evalEntries s) := by
  refine isEntries_of_names EvalSettings.names rfl (by decide) (by decide) ?_
  simp only [evalEntries, List.forall_mem_cons]
  exact ⟨.count hdepth, .count helements, .bool _, .bool _, nofun⟩

theorem isSetting_echoAs (n : Notation) : IsSetting (.string n.token) := by
  cases n
  · exact .word (by decide)
  · exact .word (by decide)

theorem isEntries_output (s : OutputSettings) : Toml.IsEntries (outputEntries s) := by
  refine isEntries_of_names OutputSettings.names rfl (by decide) (by decide) ?_
  simp only [outputEntries, List.forall_mem_cons]
  exact ⟨isSetting_echoAs s.echoAs, .bool _, .bool _, nofun⟩

theorem isSetting_level (l : Level) : IsSetting (.string l.token) := by
  cases l
  · exact .word (by decide)
  · exact .word (by decide)
  · exact .word (by decide)
  · exact .word (by decide)
  · exact .word (by decide)

theorem isEntries_log (s : LogSettings) : Toml.IsEntries (logEntries s) := by
  refine isEntries_of_names LogSettings.names rfl (by decide) (by decide) ?_
  simp only [logEntries, List.forall_mem_cons]
  exact ⟨isSetting_level s.level, .bool _, nofun⟩

theorem isSections_sections {c : Config} (h : Fits c) : Toml.IsSections c.sections where
  names := by
    have hnames : ∀ name ∈ names, IsName name := by decide
    exact fun s hs => hnames s.1 (List.mem_map_of_mem (f := Prod.fst) hs)
  entries := by
    simp only [sections, List.forall_mem_cons]
    exact ⟨isEntries_eval h.depth h.elements, isEntries_output c.output, isEntries_log c.logging,
      nofun⟩
  distinct := by
    have hdistinct : names.Nodup := by decide
    exact hdistinct

theorem ne_nil_of_mem_sections {c : Config} : ∀ s ∈ c.sections, s.2 ≠ [] := by
  simp only [sections, List.forall_mem_cons]
  exact ⟨nofun, nofun, nofun, nofun⟩

/-- Sections of which none is empty are a tree. -/
theorem isTree_document {sections : List Toml.Section} (h : Toml.IsSections sections)
    (hne : sections ≠ []) (hfull : ∀ s ∈ sections, s.2 ≠ []) :
    Yaml.IsTree (Toml.document sections) := by
  refine .block (by simpa using hne) ?_ ?_
  · intro e he
    obtain ⟨s, hs, rfl⟩ := List.mem_map.mp he
    exact h.names s hs
  · intro e he
    obtain ⟨s, hs, rfl⟩ := List.mem_map.mp he
    have hentries := h.entries s hs
    exact .block (hfull s hs) hentries.names fun e he => .setting (hentries.settings e he)

theorem isTree_toDocument {c : Config} (h : Fits c) : Yaml.IsTree c.toDocument :=
  isTree_document (isSections_sections h) nofun ne_nil_of_mem_sections

theorem faithful_of_isSetting {d : Document} (h : IsSetting d) : Json.Faithful d := by
  cases h with
  | bool b => exact .scalar (Json.readsBack_bool b) rfl
  | count hn => exact .scalar (Json.readsBack_count hn) rfl
  | word hs => exact .scalar (Json.readsBack_string _) rfl

theorem faithful_of_isTree {d : Document} (h : Yaml.IsTree d) : Json.Faithful d := by
  induction h with
  | setting h => exact faithful_of_isSetting h
  | block _ _ _ ih => exact .mapping ih

/-! ## Texts -/

theorem ofYaml?_write {c : Config} (h : Fits c) : ofYaml? (Yaml.write c.toDocument) = some c := by
  have hread : Yaml.parse (.mapping []) (Yaml.write c.toDocument) = some c.toDocument :=
    Yaml.parse_write (isTree_toDocument h) _
  rw [ofYaml?, bind_of_eq_some hread, ofDocument_toDocument false h]

theorem ofJson?_writePretty {c : Config} (h : Fits c) :
    ofJson? (Json.writePretty c.toDocument) = some c := by
  have hread := Json.parseFreely_writePretty (faithful_of_isTree (isTree_toDocument h))
  rw [ofJson?, bind_of_eq_some hread, ofDocument_toDocument true h]

theorem ofToml?_of_write? {c : Config} (h : Fits c) {text : String}
    (htext : Toml.write? c.toDocument = some text) : ofToml? text = some c := by
  rw [← document_sections] at htext
  have hread := Toml.parse_of_write? (isSections_sections h) htext
  rw [ofToml?, bind_of_eq_some hread, document_sections, ofDocument_toDocument false h]

/-- For TOML, a text is what the writer makes of the configuration, which may be nothing. -/
theorem write?_of_toText {c : Config} {path text : String}
    (hformat : FileFormat.ofPath path = .toml) (htext : toText path c = .ok text) :
    Toml.write? c.toDocument = some text := by
  unfold toText at htext
  -- The writer must not be run on the configuration when the cases are told apart.
  generalize Toml.write? c.toDocument = written at htext ⊢
  rw [hformat] at htext
  cases written with
  | none => exact nomatch htext
  | some written => rw [Except.ok.inj htext]

/-- The text of a configuration for a path is read back under that path, whatever format the path
asks for. Only TOML refuses to write some configurations. -/
theorem ofText_of_toText {c : Config} (h : Fits c) {path text : String}
    (htext : toText path c = .ok text) : ofText path text = .ok c := by
  have hyaml := ofYaml?_write h
  have hjson := ofJson?_writePretty h
  -- what is written for an unknown format is YAML, the first one that is tried for it
  cases hformat : FileFormat.ofPath path with
  | yaml =>
      simp only [toText, hformat, Except.ok.injEq] at htext
      rw [htext] at hyaml
      simp only [ofText, hformat, hyaml]
  | json =>
      simp only [toText, hformat, Except.ok.injEq] at htext
      rw [htext] at hjson
      simp only [ofText, hformat, hjson]
  | toml =>
      have hread := ofToml?_of_write? h (write?_of_toText hformat htext)
      simp only [ofText, hformat, hread]
  | other =>
      simp only [toText, hformat, Except.ok.injEq] at htext
      rw [htext] at hyaml
      simp only [ofText, hformat, hyaml]
      rfl

end Config

end Formula
