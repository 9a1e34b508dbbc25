import Formula.Matrix.Sparse

set_option autoImplicit false

/-! # Columns as functions of the row

A column is a list of elements with their rows. It is sorted if its rows increase strictly. A
sorted column holds at most one element in a row, so it is determined by `List.lookup`, and it can
be rebuilt from it: `tabulate` lists the elements that a function of the row gives, and a sorted
column is the tabulation of its own lookup (`Sorted.eq_tabulate`). Writing into a row replaces the
elements in that row and keeps the ones below and above it.
-/

namespace Formula

/-- Elements with their rows. -/
abbrev Column := List (Nat × Scalar)

namespace Column

/-- The rows of a column increase strictly. -/
def Sorted (column : Column) : Prop := column.Pairwise fun a b => a.1 < b.1

/-- A sorted column of nonzero elements in the first `rows` rows. -/
structure Canonical (rows : Nat) (column : Column) : Prop where
  sorted : Sorted column
  inside : ∀ e ∈ column, e.1 < rows
  nonzero : ∀ e ∈ column, e.2.isZero = false

/-- The column of the elements that a function of the row gives for the rows below `rows`. -/
def tabulate (rows : Nat) (cell : Nat → Option Scalar) : Column :=
  (List.range rows).filterMap fun r => (cell r).map fun x => (r, x)

/-- The elements below a row. -/
def below (column : Column) (row : Nat) : Column := column.filter fun e => e.1 < row

/-- The elements above a row. -/
def above (column : Column) (row : Nat) : Column := column.filter fun e => row < e.1

/-- The column with a row emptied or with one element in it. -/
def put (column : Column) (row : Nat) (cell : Option Scalar) : Column :=
  column.below row ++ ((cell.map fun x => (row, x)).toList ++ column.above row)

/-- What is held where an element is written. -/
def kept (x : Scalar) : Option Scalar := if x.isZero then none else some x

/-! ## Looking up -/

/-- Nothing is held in front of the first row. -/
theorem lookup_eq_none_of_lt {column : Column} {row : Nat} (h : ∀ e ∈ column, row < e.1) :
    List.lookup row column = none := by
  rw [List.lookup_eq_none_iff]
  intro e he
  have hlt : row < e.1 := h e he
  simp only [bne_iff_ne, ne_eq]
  omega

/-- A sorted column holds `x` in a row exactly if looking the row up gives `x`. -/
theorem Sorted.lookup_eq_some_iff {column : Column} (h : Sorted column) (row : Nat) (x : Scalar) :
    List.lookup row column = some x ↔ (row, x) ∈ column := by
  induction column with
  | nil => simp
  | cons e rest ih =>
      obtain ⟨r, y⟩ := e
      obtain ⟨hlt, hrest⟩ := List.pairwise_cons.mp h
      by_cases hr : row = r
      · subst hr
        rw [List.lookup_cons_self]
        constructor
        · intro hx
          exact List.mem_cons.mpr (Or.inl (by rw [Option.some.inj hx]))
        · intro hmem
          rcases List.mem_cons.mp hmem with heq | hmem
          · rw [(Prod.mk.inj heq).2]
          · exact absurd (hlt _ hmem) (Nat.lt_irrefl row)
      · have hne : (row == r) = false := by simpa using hr
        rw [List.lookup_cons, hne]
        simp only [ih hrest, List.mem_cons, Prod.mk.injEq, hr, false_and, false_or]

/-- Two sorted columns with the same elements are the same list. -/
theorem Sorted.ext {a b : Column} (ha : Sorted a) (hb : Sorted b)
    (h : ∀ row, List.lookup row a = List.lookup row b) : a = b := by
  have nodup : ∀ {c : Column}, Sorted c → c.Nodup := by
    intro c hc
    refine List.Pairwise.imp ?_ hc
    rintro e e' hlt rfl
    exact Nat.lt_irrefl _ hlt
  have hperm : List.Perm a b := by
    rw [List.perm_ext_iff_of_nodup (nodup ha) (nodup hb)]
    rintro ⟨row, x⟩
    rw [← ha.lookup_eq_some_iff, ← hb.lookup_eq_some_iff, h row]
  refine List.Perm.eq_of_pairwise ?_ ha hb hperm
  intro e e' _ _ hlt hgt
  exact absurd (Nat.lt_trans hlt hgt) (Nat.lt_irrefl _)

/-! ## Tabulation -/

theorem mem_tabulate {rows : Nat} {cell : Nat → Option Scalar} {e : Nat × Scalar} :
    e ∈ tabulate rows cell ↔ e.1 < rows ∧ cell e.1 = some e.2 := by
  obtain ⟨r, x⟩ := e
  simp only [tabulate, List.mem_filterMap, List.mem_range, Option.map_eq_some_iff, Prod.mk.injEq]
  constructor
  · rintro ⟨r', hr', y, hy, rfl, rfl⟩
    exact ⟨hr', hy⟩
  · rintro ⟨hr, hx⟩
    exact ⟨r, hr, x, hx, rfl, rfl⟩

theorem sorted_tabulate (rows : Nat) (cell : Nat → Option Scalar) :
    Sorted (tabulate rows cell) := by
  refine List.Pairwise.filterMap _ ?_ (List.pairwise_lt_range (n := rows))
  intro r r' hlt e he e' he'
  obtain ⟨x, -, rfl⟩ := Option.map_eq_some_iff.mp he
  obtain ⟨y, -, rfl⟩ := Option.map_eq_some_iff.mp he'
  exact hlt

theorem canonical_tabulate (rows : Nat) (cell : Nat → Option Scalar)
    (h : ∀ r < rows, ∀ x, cell r = some x → x.isZero = false) :
    Canonical rows (tabulate rows cell) := by
  refine ⟨sorted_tabulate rows cell, fun e he => (mem_tabulate.mp he).1, fun e he => ?_⟩
  obtain ⟨hlt, hx⟩ := mem_tabulate.mp he
  exact h e.1 hlt e.2 hx

theorem lookup_tabulate (rows : Nat) (cell : Nat → Option Scalar) (row : Nat) :
    List.lookup row (tabulate rows cell) = if row < rows then cell row else none := by
  refine Option.ext fun x => ?_
  rw [(sorted_tabulate rows cell).lookup_eq_some_iff, mem_tabulate]
  by_cases h : row < rows <;> simp [h]

/-- A canonical column is the tabulation of its own lookup. -/
theorem Canonical.eq_tabulate {column : Column} {rows : Nat} (h : Canonical rows column) :
    column = tabulate rows fun row => List.lookup row column := by
  refine h.sorted.ext (sorted_tabulate _ _) fun row => ?_
  rw [lookup_tabulate]
  by_cases hr : row < rows
  · rw [if_pos hr]
  · rw [if_neg hr]
    refine Option.eq_none_iff_forall_ne_some.mpr fun x hx => hr ?_
    exact h.inside _ ((h.sorted.lookup_eq_some_iff row x).mp hx)

/-! ## Writing -/

theorem kept_eq_some_iff {x y : Scalar} : kept x = some y ↔ x = y ∧ y.isZero = false := by
  unfold kept
  by_cases hzero : x.isZero
  · rw [if_pos hzero]
    refine iff_of_false (fun h => nomatch h) ?_
    rintro ⟨rfl, hy⟩
    rw [hy] at hzero
    cases hzero
  · rw [if_neg hzero, Option.some.injEq]
    refine ⟨?_, And.left⟩
    rintro rfl
    exact ⟨rfl, Bool.eq_false_iff.mpr hzero⟩

theorem mem_below {column : Column} {row : Nat} {e : Nat × Scalar} :
    e ∈ column.below row ↔ e ∈ column ∧ e.1 < row := by
  simp [below]

theorem mem_above {column : Column} {row : Nat} {e : Nat × Scalar} :
    e ∈ column.above row ↔ e ∈ column ∧ row < e.1 := by
  simp [above]

/-- Writing changes the row to the cell and keeps the elements of the other rows. -/
theorem mem_put {column : Column} {row : Nat} {cell : Option Scalar} {e : Nat × Scalar} :
    e ∈ column.put row cell ↔ (e.1 = row ∧ cell = some e.2) ∨ (e ∈ column ∧ e.1 ≠ row) := by
  -- the column is cut at the row: what is below, the cell, what is above
  have hcell : e ∈ (cell.map fun x => (row, x)).toList ↔ e.1 = row ∧ cell = some e.2 := by
    obtain ⟨r, x⟩ := e
    cases cell with
    | none => simp
    | some y => simp [eq_comm]
  rw [put, List.mem_append, List.mem_append, hcell, mem_below, mem_above]
  constructor
  · rintro (⟨he, hlt⟩ | he | ⟨he, hlt⟩)
    · exact Or.inr ⟨he, Nat.ne_of_lt hlt⟩
    · exact Or.inl he
    · exact Or.inr ⟨he, Nat.ne_of_gt hlt⟩
  · rintro (he | ⟨he, hne⟩)
    · exact Or.inr (Or.inl he)
    · rcases Nat.lt_or_gt_of_ne hne with hlt | hlt
      · exact Or.inl ⟨he, hlt⟩
      · exact Or.inr (Or.inr ⟨he, hlt⟩)

theorem Sorted.put {column : Column} (h : Sorted column) (row : Nat) (cell : Option Scalar) :
    Sorted (column.put row cell) := by
  have hbelow : ∀ e ∈ column.below row, e.1 < row := fun e he => (mem_below.mp he).2
  have habove : ∀ e ∈ column.above row, row < e.1 := fun e he => (mem_above.mp he).2
  unfold Sorted Column.put
  cases cell with
  | none =>
      refine List.pairwise_append.mpr ⟨List.Pairwise.filter _ h, List.Pairwise.filter _ h, ?_⟩
      intro e he e' he'
      exact Nat.lt_trans (hbelow e he) (habove e' he')
  | some x =>
      refine List.pairwise_append.mpr ⟨List.Pairwise.filter _ h, ?_, ?_⟩
      · exact List.pairwise_cons.mpr ⟨habove, List.Pairwise.filter _ h⟩
      · intro e he e' he'
        rcases List.mem_cons.mp he' with rfl | he'
        · exact hbelow e he
        · exact Nat.lt_trans (hbelow e he) (habove e' he')

theorem Canonical.put {column : Column} {rows : Nat} (h : Canonical rows column) {row : Nat}
    (hrow : row < rows) (x : Scalar) : Canonical rows (column.put row (kept x)) := by
  refine ⟨h.sorted.put row _, fun e he => ?_, fun e he => ?_⟩
  · rcases mem_put.mp he with ⟨rfl, -⟩ | ⟨he, -⟩
    · exact hrow
    · exact h.inside e he
  · rcases mem_put.mp he with ⟨-, hx⟩ | ⟨he, -⟩
    · exact (kept_eq_some_iff.mp hx).2
    · exact h.nonzero e he

/-- Writing into a row changes what is held there and nothing else. -/
theorem Sorted.lookup_put {column : Column} (h : Sorted column) (row : Nat)
    (cell : Option Scalar) (r : Nat) :
    List.lookup r (column.put row cell) = if r = row then cell else List.lookup r column := by
  refine Option.ext fun y => ?_
  rw [(h.put row cell).lookup_eq_some_iff, mem_put]
  by_cases hr : r = row
  · simp [hr]
  · simp [hr, h.lookup_eq_some_iff]

/-- A sorted column is what lies below a row, what it holds in the row, and what lies above. -/
theorem Sorted.eq_put {column : Column} (h : Sorted column) (row : Nat) :
    column = column.put row (List.lookup row column) := by
  refine h.ext (h.put row _) fun r => ?_
  rw [h.lookup_put]
  by_cases hr : r = row
  · rw [if_pos hr, hr]
  · rw [if_neg hr]

/-- Picking the elements of a row out of a sorted column gives what is held in the row. -/
theorem Sorted.filterMap_row {α : Type} {column : Column} (h : Sorted column) (row : Nat)
    (f : Scalar → α) :
    column.filterMap (fun e => if e.1 = row then some (f e.2) else none)
      = ((List.lookup row column).map f).toList := by
  induction column with
  | nil => rfl
  | cons e rest ih =>
      obtain ⟨r, y⟩ := e
      obtain ⟨hlt, hrest⟩ := List.pairwise_cons.mp h
      by_cases hr : r = row
      · -- the rows behind are greater
        have hnone : List.lookup row rest = none :=
          lookup_eq_none_of_lt fun e he => by rw [← hr]; exact hlt e he
        have htail := ih hrest
        rw [hnone] at htail
        simp only [Option.map_none, Option.toList_none] at htail
        simp [hr, htail]
      · have hne : (row == r) = false := by simpa using Ne.symm hr
        simp [hr, hne, List.lookup_cons, ih hrest]

/-! ## The place of a row -/

/-- The first elements of a sorted column are the ones below a row. -/
theorem Sorted.row_lt_iff {column : Column} (h : Sorted column) (row : Nat) {i : Nat}
    (hi : i < column.length) : column[i].1 < row ↔ i < (column.below row).length := by
  have hsplit : column = column.put row (List.lookup row column) := h.eq_put row
  rw [List.getElem_of_eq hsplit hi]
  by_cases hlt : i < (column.below row).length
  · have hmem : (column.below row)[i] ∈ column.below row := List.getElem_mem hlt
    simp only [Column.put, List.getElem_append_left hlt, hlt, iff_true]
    exact (mem_below.mp hmem).2
  · have hge : (column.below row).length ≤ i := Nat.le_of_not_lt hlt
    simp only [Column.put, List.getElem_append_right hge, hlt, iff_false, Nat.not_lt]
    -- what is not below the row lies in it or above it
    have hrest : ∀ e ∈ ((List.lookup row column).map fun x => (row, x)).toList ++ column.above row,
        row ≤ e.1 := by
      intro e he
      rcases List.mem_append.mp he with he | he
      · obtain ⟨x, -, rfl⟩ := Option.map_eq_some_iff.mp (Option.mem_toList.mp he)
        exact Nat.le_refl row
      · exact Nat.le_of_lt (mem_above.mp he).2
    exact hrest _ (List.getElem_mem _)

/-- Behind the elements below a row stands the one in the row, if there is one. -/
theorem Sorted.getElem?_length_below {column : Column} (h : Sorted column) (row : Nat) :
    column[(column.below row).length]?
      = (((List.lookup row column).map fun x => (row, x)).toList ++ column.above row).head? := by
  have hsplit : column = column.put row (List.lookup row column) := h.eq_put row
  have hget := congrArg (fun other : Column => other[(column.below row).length]?) hsplit
  refine hget.trans ?_
  simp only [Column.put]
  rw [List.getElem?_append_right (Nat.le_refl _), Nat.sub_self, List.head?_eq_getElem?]

end Column

end Formula
