import Formula.Files
import Formula.Proofs.Outcome
import Mathlib.Data.List.Basic

set_option autoImplicit false

/-! # Files that are read back

Where a path leads depends on the directories only, and writing a file changes none of them. So a
file is found where it was written.
-/

namespace Formula.Files

open Outcome

/-- A path is followed part by part. -/
theorem follow_append (fs : Files) (place : List String) (names more : List String) :
    fs.follow place (names ++ more)
      = (fs.follow place names).bind fun reached => fs.follow reached more := by
  induction names generalizing place with
  | nil => rfl
  | cons name rest ih =>
      rw [List.cons_append, follow, follow]
      split
      · exact ih _
      · split <;> rfl

/-- Where a path leads in one file system it leads in another one with the same directories. -/
theorem follow_of_directories {fs fs' : Files} (h : fs'.directories = fs.directories)
    {place reached : List String} {names : List String}
    (hfollow : fs.follow place names = .ok reached) : fs'.follow place names = .ok reached := by
  induction names generalizing place with
  | nil => exact hfollow
  | cons name rest ih =>
      have hsame : fs'.isDirectory place = fs.isDirectory place := by
        rw [isDirectory, isDirectory, h]
      rw [follow] at hfollow ⊢
      rw [hsame]
      split at hfollow
      · next hdirectory =>
          rw [if_pos hdirectory]
          exact ih hfollow
      · split at hfollow <;> exact nomatch hfollow

/-- The last part of a path is what is left behind all the others. -/
theorem dropLast_append_drop (names : List String) :
    names.dropLast ++ names.drop (names.length - 1) = names := by
  rw [List.dropLast_eq_take, List.take_append_drop]

/-- What writing does if it succeeds: the text stands at a place that is no directory, to which the
path leads, and the directories are those from before. -/
theorem write_eq_ok {fs fs' : Files} {path text : String} (h : fs.write path text = .ok fs') :
    ∃ place, fs.follow [] (parts path) = .ok place ∧ fs.isDirectory place = false ∧
      fs'.directories = fs.directories ∧ fs'.text? place = some text := by
  obtain ⟨parent, hparent, h⟩ := bind_eq_ok.mp h
  dsimp only at h
  split at h
  · exact nomatch h
  · obtain ⟨place, hplace, h⟩ := bind_eq_ok.mp h
    split at h
    · exact nomatch h
    · next hfile =>
        have hpath : fs.follow [] (parts path) = .ok place := by
          rw [← dropLast_append_drop (parts path), follow_append, hparent]
          exact hplace
        cases h
        refine ⟨place, hpath, Bool.eq_false_iff.mpr hfile, rfl, ?_⟩
        rw [text?, List.lookup_cons_self]

/-- A file is read as what was written to it. -/
theorem read_of_write {fs fs' : Files} {path text : String} (h : fs.write path text = .ok fs') :
    fs'.read path = .ok text := by
  obtain ⟨place, hfollow, hfile, hdirectories, htext⟩ := write_eq_ok h
  have hsame : fs'.isDirectory place = false := by
    rw [isDirectory, hdirectories, ← isDirectory, hfile]
  have hreached := follow_of_directories hdirectories hfollow
  refine bind_eq_ok.mpr ⟨place, hreached, ?_⟩
  dsimp only
  rw [hsame, if_neg nofun, htext]

end Formula.Files
