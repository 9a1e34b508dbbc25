import Formula.Command.Basic
import Formula.Proofs.Config.File
import Formula.Proofs.Files

set_option autoImplicit false

/-! # Configurations that are saved and loaded

A host keeps what is written to a path if it reads it back from there, as files in memory do. On
such a host a configuration that has been saved under some path is loaded from it.
-/

namespace Formula.Command

open Config (Fits)

variable {σ : Type}

/-- Right after a text has been written to a path it is read from there. -/
def Host.Keeps (host : Host (StateM σ)) (path : String) : Prop :=
  ∀ text s s', (host.write path text).run s = (.ok (), s') →
    ∃ s'', (host.read path).run s' = (.ok text, s'')

theorem run_write_inMemory (directory : String) (home : Option String)
    (environment : String → Option String) (elapsed path text : String) (fs : Files) :
    ((Host.inMemory directory home environment elapsed).write path text).run fs
      = match fs.write (Path.join directory path) text with
        | .error e => (.error e, fs)
        | .ok fs' => (.ok (), fs') := by
  show StateT.run (match fs.write (Path.join directory path) text with
    | .error e => (pure (.error e) : StateM Files (Except FileError Unit))
    | .ok fs' => do
        set fs'
        pure (.ok ())) fs = _
  cases fs.write (Path.join directory path) text <;> rfl

/-- Files in memory keep what is written. -/
theorem keeps_inMemory (directory : String) (home : Option String)
    (environment : String → Option String) (elapsed path : String) :
    (Host.inMemory directory home environment elapsed).Keeps path := by
  intro text fs fs' hwrite
  rw [run_write_inMemory] at hwrite
  split at hwrite
  · exact nomatch (Prod.mk.inj hwrite).1
  · next written hfile =>
      cases (Prod.mk.inj hwrite).2
      refine ⟨fs', ?_⟩
      show (fs'.read (Path.join directory path), fs') = _
      rw [Files.read_of_write hfile]

/-! ## Runs -/

variable {host : Host (StateM σ)} {path text : String} {c : Config} {p p' q : Progress} {s s' : σ}

/-- A run that uses the host goes on from what the host answers. -/
theorem run_ask_bind {α β : Type} (x : StateM σ α) (f : α → Run (StateM σ) β) (p : Progress)
    (s : σ) :
    ((ask x >>= f).run p).run s = ((f (x.run s).1).run p).run (x.run s).2 := rfl

/-- A configuration is saved by writing its text, and the path is logged. -/
theorem saveConfig_of_write (htext : Config.toText path c = .ok text)
    (hwrite : (host.write path text).run s = (.ok (), s')) :
    ((saveConfig host path c).run p).run s
      = ((.ok (), { p with events := p.events ++ #[.saved path] }), s') := by
  rw [saveConfig, htext]
  dsimp only
  rw [run_ask_bind, hwrite]
  rfl

/-- Nothing is saved unless there is a text and the host writes it. -/
theorem saveConfig_eq_ok (h : ((saveConfig host path c).run p).run s = ((.ok (), p'), s')) :
    ∃ text, Config.toText path c = .ok text ∧ (host.write path text).run s = (.ok (), s') := by
  unfold saveConfig at h
  generalize Config.toText path c = written at h ⊢
  -- there may be no text, and the host may refuse to write it
  cases written with
  | error fault => exact nomatch h
  | ok text =>
      refine ⟨text, rfl, ?_⟩
      dsimp only at h
      rw [run_ask_bind] at h
      cases hwrite : (host.write path text).run s with
      | mk answer reached =>
          rw [hwrite] at h
          cases answer with
          | error e => exact nomatch h
          | ok _ =>
              cases h
              rfl

/-- A configuration is loaded from the text of its file. -/
theorem loadConfig_of_read (hread : (host.read path).run s = (.ok text, s'))
    (htext : Config.ofText path text = .ok c) :
    ((loadConfig host path).run p).run s = ((.ok c, p), s') := by
  rw [loadConfig, run_ask_bind, hread]
  dsimp only
  rw [htext]
  rfl

/-- A configuration that has been saved under a path is loaded from it, whatever format the
extension of the path asks for. -/
theorem loadConfig_of_saveConfig (hkeeps : host.Keeps path) (hfits : Fits c)
    (hsave : ((saveConfig host path c).run p).run s = ((.ok (), p'), s')) :
    ∃ s'', ((loadConfig host path).run q).run s' = ((.ok c, q), s'') := by
  obtain ⟨text, htext, hwrite⟩ := saveConfig_eq_ok hsave
  obtain ⟨s'', hread⟩ := hkeeps text s s' hwrite
  exact ⟨s'', loadConfig_of_read hread (Config.ofText_of_toText hfits htext)⟩

/-- Files in memory, all at the root. -/
def rootHost : Host (StateM Files) := .inMemory "/" none (fun _ => none) "0"

/-- A configuration with the largest depth. -/
def deepest : Config := { eval := { maxDepth := Word.last } }

/-- The largest depth is loaded from a file whose extension stands for no format. -/
theorem loadConfig_of_saveConfig_deepest :
    rootHost.Keeps "/c.JSON" ∧ deepest.Fits ∧
      ∃ p' s' s'', ((saveConfig rootHost "/c.JSON" deepest).run {}).run {} = ((.ok (), p'), s') ∧
        ((loadConfig rootHost "/c.JSON").run {}).run s' = ((.ok deepest, {}), s'') := by
  have hkeeps : rootHost.Keeps "/c.JSON" := keeps_inMemory _ _ _ _ _
  have hfits : deepest.Fits := ⟨by decide, by decide⟩
  have hformat : Config.FileFormat.ofPath "/c.JSON" = .other := by decide
  have htext : Config.toText "/c.JSON" deepest = .ok (Yaml.write deepest.toDocument) := by
    rw [Config.toText, hformat]
  have hjoin : Path.join "/" "/c.JSON" = "/c.JSON" := by simp [Path.join]
  have hfile : Files.write {} "/c.JSON" (Yaml.write deepest.toDocument)
      = .ok ⟨[], [(["c.JSON"], Yaml.write deepest.toDocument)]⟩ := rfl
  have hwrite : (rootHost.write "/c.JSON" (Yaml.write deepest.toDocument)).run {}
      = (.ok (), ⟨[], [(["c.JSON"], Yaml.write deepest.toDocument)]⟩) := by
    rw [rootHost, run_write_inMemory, hjoin, hfile]
  have hsave := saveConfig_of_write (p := {}) htext hwrite
  obtain ⟨s'', hload⟩ := loadConfig_of_saveConfig (q := {}) hkeeps hfits hsave
  exact ⟨hkeeps, hfits, _, _, s'', hsave, hload⟩

end Formula.Command
