import Formula.Table
import Mathlib.Data.String.Basic

set_option autoImplicit false

/-! # Entries of tables

What a name is found to have is an entry, and inserting brings in no entry but the new one.
Inserting also keeps the names of a table strictly in order, and in a table in order the entries are
exactly what its names are found to have.
-/

namespace Formula.Table

variable {α : Type} {t : Table α}

theorem mem_of_find? {name : String} {a : α} (h : t.find? name = some a) : (name, a) ∈ t := by
  induction t with
  | nil => exact nomatch h
  | cons e rest ih =>
      obtain ⟨key, old⟩ := e
      rw [find?] at h
      split at h
      · next same =>
          subst same
          cases h
          exact List.mem_cons_self
      · exact List.mem_cons_of_mem _ (ih h)

/-- An entry of a table that a value has been inserted into is the new one or an old one. -/
theorem mem_insert {name : String} {a : α} {e : String × α} (h : e ∈ t.insert name a) :
    e = (name, a) ∨ e ∈ t := by
  induction t with
  | nil => exact .inl (List.mem_singleton.mp h)
  | cons first rest ih =>
      obtain ⟨key, old⟩ := first
      rw [insert] at h
      split at h
      · exact (List.mem_cons.mp h).imp_right (List.mem_cons_of_mem _)
      · split at h
        · exact List.mem_cons.mp h
        · rcases List.mem_cons.mp h with h | h
          · exact .inr (h ▸ List.mem_cons_self)
          · exact (ih h).imp_right (List.mem_cons_of_mem _)

/-! ## Tables in order -/

/-- The names are strictly in order. -/
def Sorted (t : Table α) : Prop := t.Pairwise fun a b => a.1 < b.1

theorem Sorted.insert (h : Sorted t) (name : String) (a : α) : Sorted (t.insert name a) := by
  induction t with
  | nil => exact List.pairwise_singleton _ _
  | cons first rest ih =>
      obtain ⟨key, old⟩ := first
      obtain ⟨hfirst, hrest⟩ := List.pairwise_cons.mp h
      rw [Table.insert]
      split
      · next hname =>
          subst hname
          exact List.pairwise_cons.mpr ⟨hfirst, hrest⟩
      · next hname =>
          split
          · next hlt =>
              refine List.pairwise_cons.mpr ⟨fun e he => ?_, h⟩
              rcases List.mem_cons.mp he with rfl | he
              · exact hlt
              · exact lt_trans hlt (hfirst e he)
          · next hge =>
              -- the new entry goes behind the first one
              have hgt : key < name := lt_of_le_of_ne (not_lt.mp hge) (Ne.symm hname)
              refine List.pairwise_cons.mpr ⟨fun e he => ?_, ih hrest⟩
              rcases mem_insert he with rfl | he
              · exact hgt
              · exact hfirst e he

theorem Sorted.insertAll (h : Sorted t) (entries : List (String × α)) :
    Sorted (t.insertAll entries) := by
  rw [Table.insertAll]
  induction entries generalizing t with
  | nil => exact h
  | cons e rest ih => exact ih (h.insert e.1 e.2)

/-- In a table in order, the entries are what the names are found to have. -/
theorem Sorted.mem_iff_find? (h : Sorted t) {name : String} {a : α} :
    (name, a) ∈ t ↔ t.find? name = some a := by
  induction t with
  | nil => exact ⟨nofun, nofun⟩
  | cons first rest ih =>
      obtain ⟨key, old⟩ := first
      obtain ⟨hfirst, hrest⟩ := List.pairwise_cons.mp h
      rw [find?, List.mem_cons, ih hrest]
      split
      · next hkey =>
          -- a later entry of the same name would be out of order
          subst hkey
          constructor
          · rintro (heq | hfound)
            · cases heq
              rfl
            · exact absurd (hfirst _ (mem_of_find? hfound)) (lt_irrefl _)
          · intro heq
            cases heq
            exact .inl rfl
      · next hkey =>
          constructor
          · rintro (heq | hfound)
            · exact absurd (congrArg Prod.fst heq).symm hkey
            · exact hfound
          · exact .inr

end Formula.Table
