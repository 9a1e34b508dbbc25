import Formula.Proofs.Matrix.Datatype
import Formula.Proofs.Matrix.Element
import Formula.Proofs.Matrix.Extent

set_option autoImplicit false

/-! # Assignment to a selection

An assignment writes one element after the other. Each write covers its position and changes the
element there (`WellFormed.set`), so after all of them the shape has grown to every position, and an
element is the one written last at its position, or the old one (`Written`). Together with the
numbering of the positions selected this describes an assignment as a whole (`setSubset_assigned`).

Two things are counted without a check on the way. The row behind the last count wraps to the first
one in a sparse matrix, and a sparse replacement of `2 ^ 64` positions or more is expanded with two
of its elements in one place. In both cases the assignment goes wrong (`assignment_goes_wrong`).
-/

namespace Formula.Matrix

variable {m r q : Matrix}

/-! ## Elements by number -/

/-- The element with a number, row-major. -/
def nth (m : Matrix) (n : Nat) : Scalar := ((Shape.positions m.shape)[n]?.map m.element).getD .zero

/-- The element of a replacement that is meant for the position with a number: the only one, or the
one with this number. -/
def elementFor (m : Matrix) (n : Nat) : Scalar := if m.numel = 1 then m.nth 0 else m.nth n

/-- A dense matrix has as many elements as a word makes of its extents; a sparse one is well
formed. -/
def Built (m : Matrix) : Prop :=
  match m.storage with
  | .dense d => d.data.size = Word.product d.shape
  | .sparse s => s.WellFormed

/-- A place that the wrapping product counts belongs to a position. -/
theorem entry_eq_nth {d : Dense} (hsize : d.data.size = Word.product d.shape) {n : Nat}
    (hn : n < Word.product d.shape) (datatype : Option DataType) :
    d.entry n = nth ⟨.dense d, datatype⟩ n := by
  have hcount : Word.product d.shape ≤ Shape.count d.shape := by
    rw [Word.product_eq_mod]
    exact Nat.mod_le _ _
  obtain ⟨p, hp⟩ : ∃ p, (Shape.positions d.shape)[n]? = some p := by
    refine ⟨_, List.getElem?_eq_getElem ?_⟩
    rw [Shape.length_positions]
    exact Nat.lt_of_lt_of_le hn hcount
  have hget : d.get p = .ok (d.entry n) :=
    Dense.get_of_getElem? (Nat.lt_trans hn (Word.product_lt d.shape)) (hsize ▸ hn) hp
  show _ = ((Shape.positions d.shape)[n]?.map (element ⟨.dense d, datatype⟩)).getD .zero
  rw [hp, Option.map_some, Option.getD_some, element]
  show _ = ((d.get p).toOption).getD .zero
  rw [hget]
  rfl

/-- The elements of a matrix in turn. -/
theorem Built.elements (h : m.Built) (hcountable : m.Countable) :
    m.elements.size = m.numel ∧ ∀ n < m.numel, m.elements.getD n .zero = m.nth n := by
  obtain ⟨storage, datatype⟩ := m
  cases storage with
  | dense d =>
      have hsize : d.data.size = Word.product d.shape := h
      exact ⟨hsize, fun n hn => entry_eq_nth hsize hn datatype⟩
  | sparse s =>
      have hs : s.WellFormed := h
      have hsmall : s.rows * s.cols < Word.size := by
        rw [← Shape.count_pair]
        exact hcountable rfl
      have hsize : s.toDense.data.size = Word.product [s.rows, s.cols] := hs.size_toDense
      refine ⟨hsize, fun n hn => ?_⟩
      -- the expansion has the same elements at the same positions
      have hsame : element ⟨.dense s.toDense, datatype⟩ = element ⟨.sparse s, datatype⟩ :=
        funext fun p => element_toDense hs hsmall datatype p
      calc s.toDense.entry n = nth ⟨.dense s.toDense, datatype⟩ n := entry_eq_nth hsize hn datatype
        _ = nth ⟨.sparse s, datatype⟩ n := by
              rw [nth, nth, hsame]
              rfl

/-! ## Writes -/

/-- What is read at a position after writes: the number written there last, settled by the storage,
or what was there before. -/
def readBack (kind : StorageKind) (position : List Nat) (old : Scalar)
    (writes : List (List Nat × Scalar)) : Scalar :=
  writes.foldl (fun x write => if position = write.1 then kind.settle write.2 else x) old

theorem readBack_of_forall_ne {kind : StorageKind} {position : List Nat}
    {writes : List (List Nat × Scalar)} (h : ∀ write ∈ writes, write.1 ≠ position) (old : Scalar) :
    readBack kind position old writes = old := by
  induction writes with
  | nil => rfl
  | cons write writes ih =>
      obtain ⟨hwrite, hwrites⟩ := List.forall_mem_cons.mp h
      rw [readBack, List.foldl_cons, if_neg hwrite.symm]
      exact ih hwrites

/-- The last write at a position decides. -/
theorem readBack_of_last {kind : StorageKind} {position : List Nat}
    {writes : List (List Nat × Scalar)} {n : Nat} {x : Scalar}
    (hn : writes[n]? = some (position, x))
    (hlast : position ∉ (writes.map Prod.fst).drop (n + 1)) (old : Scalar) :
    readBack kind position old writes = kind.settle x := by
  obtain ⟨hlt, heq⟩ := List.getElem?_eq_some_iff.mp hn
  have hlater : ∀ write ∈ writes.drop (n + 1), write.1 ≠ position := by
    rintro write hwrite rfl
    rw [← List.map_drop] at hlast
    exact hlast (List.mem_map_of_mem hwrite)
  have hsplit : writes = writes.take n ++ (position, x) :: writes.drop (n + 1) := by
    rw [← heq, List.getElem_cons_drop, List.take_append_drop]
  -- whatever stood at the position before is overwritten, and nothing behind writes to it again
  calc readBack kind position old writes
      = readBack kind position (kind.settle x) (writes.drop (n + 1)) := by
        rw [hsplit, readBack, List.foldl_append, List.foldl_cons, if_pos rfl, ← hsplit]
        rfl
    _ = kind.settle x := readBack_of_forall_ne hlater _

/-- The second matrix is the first one after some writes. -/
structure Written (writes : List (List Nat × Scalar)) (m r : Matrix) : Prop where
  wellFormed : r.WellFormed
  storageKind : r.storageKind = m.storageKind
  datatype : r.datatype = m.datatype
  rank : ∀ write ∈ writes, write.1.length = m.rank
  below : ∀ write ∈ writes, ∀ i ∈ write.1, i < Word.last
  shape : r.shape = (writes.map Prod.fst).foldl Shape.cover m.shape
  element : ∀ position,
    r.element position = readBack m.storageKind position (m.element position) writes

namespace Written

variable {writes writes' : List (List Nat × Scalar)}

theorem targets_rank (h : Written writes m r) :
    ∀ p ∈ writes.map Prod.fst, p.length = m.shape.length :=
  List.forall_mem_map.mpr h.rank

theorem targets_below (h : Written writes m r) :
    ∀ p ∈ writes.map Prod.fst, ∀ i ∈ p, i < Word.last :=
  List.forall_mem_map.mpr h.below

theorem rank_eq (h : Written writes m r) : r.rank = m.rank := by
  rw [Matrix.rank, h.shape, Shape.length_foldl_cover h.targets_rank]
  rfl

/-- Whatever is written to lies inside afterwards. -/
theorem contains (h : Written writes m r) {p : List Nat} (hp : p ∈ writes.map Prod.fst) :
    Shape.contains r.shape p = true := by
  have hfits := Shape.within_refl r.shape
  rw [congrArg (List.Forall₂ (· ≤ ·) · r.shape) h.shape,
    Shape.foldl_cover_within h.targets_rank h.targets_below] at hfits
  exact hfits.2 p hp

theorem nil (h : m.WellFormed) : Written [] m m :=
  ⟨h, rfl, rfl, nofun, nofun, rfl, fun _ => rfl⟩

theorem append (h : Written writes m q) (h' : Written writes' q r) :
    Written (writes ++ writes') m r := by
  refine ⟨h'.wellFormed, h'.storageKind.trans h.storageKind, h'.datatype.trans h.datatype,
    ?_, ?_, ?_, fun position => ?_⟩
  · refine List.forall_mem_append.mpr ⟨h.rank, fun write hwrite => ?_⟩
    rw [h'.rank write hwrite, h.rank_eq]
  · exact List.forall_mem_append.mpr ⟨h.below, h'.below⟩
  · rw [h'.shape, h.shape, List.map_append, List.foldl_append]
  · rw [h'.element, h.element, h.storageKind, readBack, readBack, readBack, List.foldl_append]

end Written

/-- One write to a sparse matrix. -/
theorem written_sparse {s : Sparse} (hs : s.WellFormed) {row col : Nat} (hrow : row < Word.last)
    (hcol : col < Word.last) (x : Scalar) (datatype : Option DataType) :
    Written [([row, col], x)] ⟨.sparse s, datatype⟩ ⟨.sparse (s.set row col x), datatype⟩ := by
  have hrow' : row + 1 < Word.size := Nat.add_lt_of_lt_sub hrow
  have hcol' : col + 1 < Word.size := Nat.add_lt_of_lt_sub hcol
  have hwf : (s.set row col x).WellFormed := hs.set hrow' hcol' x
  have hbelow : ∀ i ∈ [row, col], i < Word.last := by simp [hrow, hcol]
  have hshape : [(s.set row col x).rows, (s.set row col x).cols]
      = Shape.cover [s.rows, s.cols] [row, col] := by
    rw [hs.rows_set hrow' hcol', hs.cols_set hrow' hcol', Shape.cover_eq hbelow]
    rfl
  refine ⟨hwf, rfl, rfl, by simp [rank, Matrix.shape], by simpa using hbelow, hshape, fun p => ?_⟩
  show _ = if p = [row, col] then StorageKind.sparse.settle x else element ⟨.sparse s, datatype⟩ p
  by_cases hp : p.length = 2
  · obtain ⟨r, c, rfl⟩ := List.length_eq_two.mp hp
    -- what is held of the number written is read as the storage settles it
    rw [element_sparse hwf, element_sparse hs, hs.cell?_set hrow' hcol']
    by_cases hrc : r = row ∧ c = col
    · obtain ⟨rfl, rfl⟩ := hrc
      rw [if_pos ⟨rfl, rfl⟩, if_pos rfl, Sparse.getD_kept]
    · rw [if_neg hrc, if_neg]
      simpa using hrc
  · have houtside : ∀ t : Sparse, element ⟨.sparse t, datatype⟩ p = .zero := fun t =>
      element_outside fun hin => hp (Shape.length_of_contains hin)
    rw [houtside, houtside, if_neg]
    rintro rfl
    exact hp rfl

/-- One write. In dense storage the check on the number of elements keeps the indices below the last
count. -/
theorem WellFormed.set (h : m.WellFormed) {position : List Nat} {x : Scalar}
    (hbelow : m.storageKind = .sparse → ∀ i ∈ position, i < Word.last)
    (hset : m.set position x = .ok r) : Written [(position, x)] m r := by
  obtain ⟨-, htag, hstorage⟩ := set_cases hset
  obtain ⟨storage, datatype⟩ := m
  obtain ⟨storage', datatype'⟩ := r
  obtain rfl : datatype' = datatype := htag
  rcases hstorage with ⟨d, written, rfl, hwritten, rfl⟩ | ⟨s, row, col, rfl, rfl, -, rfl⟩
  · have hd : d.WellFormed := h
    obtain ⟨hwf, hrank, hshape, hin, -, helement⟩ := hd.set hwritten
    refine ⟨hwf, rfl, rfl, ?_, ?_, hshape, helement⟩
    · exact List.forall_mem_singleton.mpr hrank
    · exact List.forall_mem_singleton.mpr (Shape.lt_last_of_contains hin hwf.small)
  · have hlt := hbelow rfl
    simp only [List.forall_mem_cons] at hlt
    exact written_sparse h hlt.1 hlt.2.1 x datatype'

/-- A list of writes, all of which succeed. -/
theorem WellFormed.writeAll (h : m.WellFormed) {writes : List (List Nat × Scalar)}
    (hbelow : m.storageKind = .sparse → ∀ write ∈ writes, ∀ i ∈ write.1, i < Word.last)
    (hr : m.writeAll writes = (.ok (), r)) : Written writes m r := by
  induction writes generalizing m with
  | nil =>
      cases hr
      exact .nil h
  | cons write writes ih =>
      obtain ⟨position, x⟩ := write
      rw [Matrix.writeAll] at hr
      cases hset : m.set position x with
      | error fault =>
          rw [hset] at hr
          cases hr
      | ok written =>
          rw [hset] at hr
          -- the first write and the others by induction, from the matrix that it leaves
          have hfirst : Written [(position, x)] m written :=
            h.set (fun hkind => hbelow hkind _ List.mem_cons_self) hset
          refine hfirst.append (ih hfirst.wellFormed (fun hkind write hwrite => ?_) hr)
          rw [hfirst.storageKind] at hkind
          exact hbelow hkind write (List.mem_cons_of_mem _ hwrite)

/-! ## Assignments -/

/-- The writes of an assignment go to the positions selected, in order. -/
theorem map_fst_assignments {lists : List (List Nat)} {replacement : Matrix}
    {writes : List (List Nat × Scalar)} (h : m.assignments lists replacement = .ok writes) :
    writes.map Prod.fst = Shape.selection lists := by
  obtain ⟨-, ⟨-, rfl⟩ | ⟨-, hcount, rfl⟩⟩ := assignments_cases h
  · exact List.map_map.trans (List.map_id _)
  · exact List.map_fst_zip (by simp [hcount])

/-- Each position selected is given the element meant for it. -/
theorem assignments_listed {lists : List (List Nat)} {replacement : Matrix}
    (hbuilt : replacement.Built) (hcountable : replacement.Countable)
    {writes : List (List Nat × Scalar)} (h : m.assignments lists replacement = .ok writes) :
    ∀ n p, (Shape.selection lists)[n]? = some p →
      writes[n]? = some (p, replacement.elementFor n) := by
  obtain ⟨hsize, helements⟩ := hbuilt.elements hcountable
  -- one element for all positions, or one for each of them
  obtain ⟨-, ⟨hone, rfl⟩ | ⟨hmany, hcount, rfl⟩⟩ := assignments_cases h
  · have hnumel : replacement.numel = 1 := hsize.symm.trans hone
    intro n p hp
    rw [List.getElem?_map, hp, elementFor, if_pos hnumel, ← helements 0 (by omega)]
    rfl
  · have hnumel : replacement.numel ≠ 1 := fun hnumel => hmany (hsize.trans hnumel)
    intro n p hp
    obtain ⟨hn, -⟩ := List.getElem?_eq_some_iff.mp hp
    have hlt : n < replacement.elements.size := by omega
    have hvalue : replacement.elements.toList[n]? = some (replacement.nth n) := by
      rw [← helements n (by omega)]
      simp [hlt]
    rw [elementFor, if_neg hnumel, List.getElem?_zip_eq_some]
    exact ⟨hp, hvalue⟩

/-- An assignment that succeeds has made all its writes. -/
theorem WellFormed.setSubset (h : m.WellFormed) {lists : List (List Nat)}
    {replacement : Matrix}
    (hbelow : m.storageKind = .sparse → ∀ p ∈ Shape.selection lists, ∀ i ∈ p, i < Word.last)
    (hr : m.setSubset lists replacement = (.ok (), r)) :
    ∃ writes, m.assignments lists replacement = .ok writes ∧ Written writes m r := by
  rw [Matrix.setSubset] at hr
  cases hwrites : m.assignments lists replacement with
  | error fault =>
      rw [hwrites] at hr
      cases hr
  | ok writes =>
      rw [hwrites] at hr
      exact ⟨writes, rfl, h.writeAll (fun hkind write hwrite =>
        hbelow hkind _ (mem_selection_of_assignments hwrites write hwrite)) hr⟩

/-- What an assignment of a replacement to a selection makes of a matrix. The shape is extended to
the selection. At a position that is selected stands the element meant for the last target there, at
any other one the old element, or zero where the matrix has grown. -/
structure Assigned (m : Matrix) (lists : List (List Nat)) (replacement r : Matrix) : Prop where
  shape : r.shape = Shape.extended m.shape lists
  written : ∀ n p, (Shape.selection lists)[n]? = some p →
    p ∉ (Shape.selection lists).drop (n + 1) →
    r.get p = .ok (m.storageKind.settle (replacement.elementFor n))
  kept : ∀ p, Shape.contains r.shape p = true → p ∉ Shape.selection lists →
    r.get p = if Shape.contains m.shape p then m.get p else .ok .zero

/-- An assignment that succeeds does what it says, as long as no index of a position in a sparse
matrix is the last count and a sparse replacement has fewer than `2 ^ 64` positions. -/
theorem setSubset_assigned {m r replacement : Matrix} {lists : List (List Nat)}
    (hm : m.WellFormed) (hbuilt : replacement.Built) (hcountable : replacement.Countable)
    (hbelow : m.storageKind = .sparse → ∀ p ∈ Shape.selection lists, ∀ i ∈ p, i < Word.last)
    (h : m.setSubset lists replacement = (.ok (), r)) : Assigned m lists replacement r := by
  obtain ⟨writes, hwrites, hwritten⟩ := hm.setSubset hbelow h
  have htargets : writes.map Prod.fst = Shape.selection lists := map_fst_assignments hwrites
  have hlisted := assignments_listed hbuilt hcountable hwrites
  refine ⟨?_, fun n p hp hlast => ?_, fun p hin hp => ?_⟩
  · rw [hwritten.shape, htargets]
    refine Shape.foldl_cover_selection (assignments_cases hwrites).1 ?_
    rw [← htargets]
    exact hwritten.targets_below
  · -- a target lies inside, and its last write decides
    have hmem : p ∈ writes.map Prod.fst := htargets ▸ List.mem_of_getElem? hp
    rw [hwritten.wellFormed.get_eq (hwritten.contains hmem), hwritten.element]
    rw [← htargets] at hlast
    rw [readBack_of_last (hlisted n p hp) hlast]
  · -- no write goes to the position, so it is read as before, or as a zero that growth added
    have hother : ∀ write ∈ writes, write.1 ≠ p := by
      rintro write hwrite rfl
      exact hp (htargets ▸ List.mem_map_of_mem hwrite)
    rw [hwritten.wellFormed.get_eq hin, hwritten.element, readBack_of_forall_ne hother]
    by_cases hold : Shape.contains m.shape p = true
    · rw [if_pos hold, hm.get_eq hold]
    · rw [if_neg hold, element_outside hold]

theorem eq_of_isOk {result : Except EvalError Unit × Matrix} (h : result.1.isOk = true) :
    result = (.ok (), result.2) := by
  obtain ⟨_ | _, r⟩ := result
  · exact nomatch h
  · rfl

/-- Rows of a sparse matrix are given out of order, twice and outside, and one of them a zero. -/
theorem setSubset_assigned_repeated :
    let m : Matrix := ⟨.sparse ((Sparse.zeros 2 2).set 0 0 (.real 5)), none⟩
    let lists := [[2, 0, 2], [0]]
    let replacement := ofReals [7, 0, 9]
    m.WellFormed ∧ replacement.Built ∧ replacement.Countable ∧
      (m.storageKind = .sparse → ∀ p ∈ Shape.selection lists, ∀ i ∈ p, i < Word.last) ∧
      ∃ r, m.setSubset lists replacement = (.ok (), r) ∧ Assigned m lists replacement r ∧
        r.shape = [3, 2] ∧ r.get [2, 0] = .ok (.real 9) ∧ r.get [0, 0] = .ok .zero ∧
        r.get [2, 1] = .ok .zero := by
  intro m lists replacement
  have hm : m.WellFormed := (Sparse.wellFormed_zeros 2 2).set (by decide) (by decide) _
  have hbuilt : replacement.Built := rfl
  have hbelow : ∀ p ∈ Shape.selection lists, ∀ i ∈ p, i < Word.last := by decide
  have hok : (m.setSubset lists replacement).1.isOk = true := by decide +kernel
  have hr := eq_of_isOk hok
  have h : Assigned m lists replacement (m.setSubset lists replacement).2 :=
    setSubset_assigned hm hbuilt nofun (fun _ => hbelow) hr
  have hshape : (m.setSubset lists replacement).2.shape = [3, 2] := by
    rw [h.shape]
    decide +kernel
  -- sparse storage keeps a number that is no zero
  have hnine : StorageKind.sparse.settle (.real 9) = .real 9 := by
    rw [StorageKind.settle, if_neg (by decide +kernel)]
  refine ⟨hm, hbuilt, nofun, fun _ => hbelow, _, hr, h, hshape, ?_, ?_, ?_⟩
  -- the last of the two writes counts
  · rw [h.written 2 [2, 0] rfl (by decide)]
    exact congrArg Except.ok hnine
  · rw [h.written 1 [0, 0] rfl (by decide)]
    exact congrArg Except.ok (StorageKind.settle_zero .sparse)
  · rw [h.kept [2, 1] (by rw [hshape]; decide) (by decide), if_neg (by decide +kernel)]

/-- The last row counted does not fit into a sparse matrix with it, which then has fewer rows than
were assigned; and of a sparse replacement with `2 ^ 63 + 1` rows and two columns, the element in
row `2 ^ 63` is taken for the first one. -/
theorem assignment_goes_wrong :
    let column : Matrix := ⟨.sparse ((Sparse.zeros 1 1).set 0 0 (.real 5)), none⟩
    let rows := [[Word.last, 30000], [0]]
    let tall : Matrix :=
      ⟨.sparse (((Sparse.zeros (2 ^ 63 + 1) 2).set 0 0 (.real 5)).set (2 ^ 63) 0 (.real 7)), none⟩
    (column.WellFormed ∧ (ofReals [1]).Built ∧
      ∃ r, column.setSubset rows (ofReals [1]) = (.ok (), r) ∧
        ¬Assigned column rows (ofReals [1]) r) ∧
      (ofReals [0, 0]).WellFormed ∧ tall.Built ∧
      ∃ r, (ofReals [0, 0]).setSubset [[0, 1]] tall = (.ok (), r) ∧
        ¬Assigned (ofReals [0, 0]) [[0, 1]] tall r := by
  intro column rows tall
  have hcolumn : column.WellFormed := (Sparse.wellFormed_zeros 1 1).set (by decide) (by decide) _
  have hfirst : ((Sparse.zeros (2 ^ 63 + 1) 2).set 0 0 (.real 5)).WellFormed :=
    (Sparse.wellFormed_zeros _ _).set (by decide) (by decide) _
  have htall : tall.Built := hfirst.set (by decide) (by decide) _
  have hfive : tall.elementFor 0 = .real 5 := by
    have hshape : tall.shape = [2 ^ 63 + 1, 2] := by decide +kernel
    have hmany : tall.numel ≠ 1 := by decide +kernel
    have hlisted : (Shape.positions tall.shape)[0]? = some [0, 0] := by
      rw [hshape]
      exact @Shape.getElem?_positions [2 ^ 63 + 1, 2] [0, 0] (by decide)
    rw [elementFor, if_neg hmany, nth, hlisted, Option.map_some, Option.getD_some,
      element_sparse htall, hfirst.cell?_set (by decide) (by decide), if_neg (by decide),
      (Sparse.wellFormed_zeros _ _).cell?_set (by decide) (by decide), if_pos ⟨rfl, rfl⟩,
      Column.kept, if_neg (by decide +kernel)]
    rfl
  refine ⟨⟨hcolumn, rfl, _, eq_of_isOk (by decide +kernel), fun h => ?_⟩, ⟨rfl, by decide⟩, htall,
    _, eq_of_isOk (by decide +kernel), fun h => ?_⟩
  · -- there are as many rows as fit, not one more than the last count
    have hshape : (column.setSubset rows (ofReals [1])).2.shape ≠ Shape.extended [1, 1] rows := by
      decide +kernel
    exact hshape h.shape
  · have hread := h.written 0 [0] rfl (by decide)
    rw [hfive] at hread
    have hwrong : ((((ofReals [0, 0]).setSubset [[0, 1]] tall).2.get [0]).toOption.any
        fun x => x == .real 5) = false := by decide +kernel
    rw [hread] at hwrong
    exact absurd hwrong (by decide +kernel)

end Formula.Matrix
