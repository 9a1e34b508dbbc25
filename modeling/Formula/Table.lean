set_option autoImplicit false

/-! # Tables

A table maps names to entries. It is a list of pairs kept strictly sorted by name, so its names
come out in order and two tables with the same entries are the same list. Names are ordered by
code points, which is also the order of their UTF-8 bytes.

    find? (insert t n v) m   is `v` for `m = n`, and `find? t m` otherwise
    find? (erase t n) m      is nothing for `m = n`, and `find? t m` otherwise
-/

namespace Formula

/-- Names with their entries, sorted by name. -/
abbrev Table (α : Type) := List (String × α)

namespace Table

variable {α : Type}

/-- The entry of a name. -/
def find? : Table α → String → Option α
  | [], _ => none
  | (key, value) :: rest, name => if key = name then some value else find? rest name

/-- Has the table an entry for the name? -/
def contains (t : Table α) (name : String) : Bool := (find? t name).isSome

/-- Gives a name a new entry, in place of its old one if it has one. -/
def insert : Table α → String → α → Table α
  | [], name, value => [(name, value)]
  | (key, old) :: rest, name, value =>
      if name = key then (name, value) :: rest
      else if name < key then (name, value) :: (key, old) :: rest
      else (key, old) :: insert rest name value

/-- Removes the entry of a name. -/
def erase : Table α → String → Table α
  | [], _ => []
  | (key, value) :: rest, name => if key = name then rest else (key, value) :: erase rest name

/-- The names in order. -/
def names (t : Table α) : List String := t.map Prod.fst

/-- Inserts all entries of a list, the later ones over the earlier ones. -/
def insertAll (t : Table α) (entries : List (String × α)) : Table α :=
  entries.foldl (fun t e => t.insert e.1 e.2) t

/-- The table of a list of entries, the later ones over the earlier ones. -/
def ofList (entries : List (String × α)) : Table α := insertAll [] entries

/-! ## Laws -/

theorem find?_insert (t : Table α) (key name : String) (value : α) :
    (insert t key value).find? name = if name = key then some value else t.find? name := by
  have hcons (rest : Table α) : find? ((key, value) :: rest) name
      = if name = key then some value else rest.find? name := by
    rw [find?]
    exact ite_congr (propext eq_comm) (fun _ => rfl) fun _ => rfl
  induction t with
  | nil => exact hcons []
  | cons e rest ih =>
      rw [insert]
      split
      · next hkey =>
          rw [hcons, find?, ← hkey]
          split
          · rfl
          · next hname => rw [if_neg fun h => hname h.symm]
      · next hkey =>
          split
          · exact hcons _
          · rw [find?, find?, ih]
            split
            · next hname => rw [if_neg fun h => hkey (h.symm.trans hname.symm)]
            · rfl

end Table

end Formula
