import Formula.Proofs.Matrix.Assignment

set_option autoImplicit false

/-! # Room for writes

A write is refused for its extents if a dense matrix would have to grow beyond `maxElements`, or if
the column is behind the last one that a sparse matrix may have. A matrix has room up to a bound if
neither happens at the positions of the bound. A write there leaves the shape within the bound and
so keeps the room (`Room.set`), hence in a list of writes, whatever their order, none can fail but
for the datatype (`Room.writeAll`).

An assignment whose targets there is room for, and whose numbers the datatype admits, is made as a
whole; one that is refused at its first target, or before, changes nothing
(`setSubset_all_or_nothing`). If what is refused comes later, the writes made before stay
(`assignment_fails_halfway`).
-/

namespace Formula

/-! ## Dense matrices within a bound -/

theorem Shape.count_le_of_within {shape bound : List Nat} (h : List.Forall₂ (· ≤ ·) shape bound) :
    count shape ≤ count bound := by
  induction h with
  | nil => exact Nat.le_refl _
  | cons hd _ ih => exact Nat.mul_le_mul hd ih

namespace Dense

variable {d : Dense} {bound position : List Nat}

/-- The shape is within the bound, and has reached it if the bound exceeds the limit. -/
def Within (d : Dense) (bound : List Nat) : Prop :=
  List.Forall₂ (· ≤ ·) d.shape bound ∧ (d.shape = bound ∨ Shape.count bound ≤ maxElements)

theorem within_shape (d : Dense) : d.Within d.shape := ⟨Shape.within_refl d.shape, Or.inl rfl⟩

theorem WellFormed.small_of_within (h : d.WellFormed) (hwithin : d.Within bound) :
    Shape.count bound < Word.size := by
  rcases hwithin.2 with rfl | hlimit
  · exact h.small
  · exact Nat.lt_of_le_of_lt hlimit (by decide)

/-- A matrix within a bound can grow to the positions of the bound. -/
theorem WellFormed.grow_within (h : d.WellFormed) (hwithin : d.Within bound)
    (hin : Shape.contains bound position = true) : ∃ grown, d.grow position = .ok grown := by
  have hrank : position.length = d.shape.length := by
    rw [Shape.length_of_contains hin, hwithin.1.length_eq]
  have hbelow : ∀ i ∈ position, i < Word.last :=
    Shape.lt_last_of_contains hin (h.small_of_within hwithin)
  rw [Dense.grow]
  by_cases hgrows : d.growsAt position = true
  · rw [if_pos hgrows]
    -- a matrix that has reached the bound does not grow
    have hlimit : Shape.count bound ≤ maxElements := by
      refine hwithin.2.resolve_left fun hshape => ?_
      rw [growsAt, hshape, hin, Bool.not_true, Bool.and_false] at hgrows
      cases hgrows
    have hcover : List.Forall₂ (· ≤ ·) (Shape.cover d.shape position) bound :=
      (Shape.cover_within hrank hbelow).mpr ⟨hwithin.1, hin⟩
    have hcount : Shape.count (Shape.cover d.shape position) ≤ maxElements :=
      Nat.le_trans (Shape.count_le_of_within hcover) hlimit
    have hself := Shape.contains_cover_self hrank hbelow
    have hpos : 0 < Shape.count (Shape.cover d.shape position) :=
      Nat.lt_of_le_of_lt (Nat.zero_le _) (Shape.place_lt hself)
    have hcounted : Shape.Counted (Shape.cover d.shape position) :=
      Shape.counted_of_pos hpos (Nat.lt_of_le_of_lt hcount (by decide))
    dsimp only
    rw [Shape.checkedCount_of_counted hcounted hcount]
    exact ⟨_, rfl⟩
  · rw [if_neg hgrows]
    exact ⟨d, rfl⟩

/-- A write that would make the matrix too large is refused. -/
theorem set_too_large (hout : ¬Shape.contains d.shape position = true)
    (hlarge : maxElements < Shape.count (Shape.cover d.shape position)) (x : Scalar) :
    ∃ fault, d.set position x = .error fault := by
  by_cases hrank : position.length = d.shape.length
  · have hgrows : d.growsAt position = true := by
      rw [growsAt, hrank, BEq.rfl, Bool.true_and, Bool.not_eq_true']
      exact Bool.eq_false_iff.mpr hout
    rw [Dense.set, Dense.grow, if_pos hgrows]
    dsimp only
    cases hcount : Shape.checkedCount (Shape.cover d.shape position) maxElements with
    | error fault => exact ⟨fault, rfl⟩
    | ok n =>
        obtain ⟨rfl, hfew, -⟩ := Shape.checkedCount_eq_ok hcount
        exact absurd hfew (Nat.not_le.mpr hlarge)
  · obtain ⟨fault, hfault⟩ := set_of_rank_ne hrank x
    exact ⟨_, hfault⟩

/-- A write at a position of the bound succeeds and stays within the bound. -/
theorem WellFormed.set_within (h : d.WellFormed) (hwithin : d.Within bound)
    (hin : Shape.contains bound position = true) (x : Scalar) :
    ∃ written, d.set position x = .ok written ∧ written.WellFormed ∧ written.Within bound := by
  have hrank : position.length = d.shape.length := by
    rw [Shape.length_of_contains hin, hwithin.1.length_eq]
  have hbelow : ∀ i ∈ position, i < Word.last :=
    Shape.lt_last_of_contains hin (h.small_of_within hwithin)
  obtain ⟨grown, hgrow⟩ := h.grow_within hwithin hin
  obtain ⟨written, hwritten⟩ := h.set_of_grow hrank hbelow hgrow x
  obtain ⟨hwf, -, hshape, -⟩ := h.set hwritten
  refine ⟨written, hwritten, hwf, ?_, ?_⟩
  · rw [hshape]
    exact (Shape.cover_within hrank hbelow).mpr ⟨hwithin.1, hin⟩
  · refine hwithin.2.imp_left fun hreached => ?_
    rw [hshape, hreached, Shape.cover_of_contains hin]

end Dense

namespace Matrix

open Outcome

variable {m r : Matrix} {bound position : List Nat} {writes : List (List Nat × Scalar)}

/-! ## Room up to a bound -/

/-- Writes at positions of the bound are not refused for their extents. -/
def Room (m : Matrix) (bound : List Nat) : Prop :=
  match m.storage with
  | .dense d => d.WellFormed ∧ d.Within bound
  | .sparse _ => ∃ rows cols, bound = [rows, cols] ∧ cols ≤ maxElements

/-- A number is refused for the datatype only. -/
theorem checkStore_eq_error {datatype : Option DataType} {x : Scalar} {fault : EvalError}
    (h : checkStore datatype x = .error fault) : ∃ why, fault = .type why := by
  cases datatype with
  | none => cases h
  | some datatype =>
      rw [checkStore] at h
      split at h
      · cases h
      · exact ⟨_, (Except.error.inj h).symm⟩

/-- A number that the datatype does not admit is not written. -/
theorem set_eq_error {x : Scalar} {fault : EvalError} (h : checkStore m.datatype x = .error fault)
    (position : List Nat) : m.set position x = .error fault := by
  obtain ⟨storage, datatype⟩ := m
  have hcheck : checkStore datatype x = .error fault := h
  -- both storages ask the datatype first
  cases storage with
  | dense d =>
      show (checkStore datatype x).bind _ = _
      rw [hcheck]
      rfl
  | sparse s =>
      show (checkStore datatype x).bind _ = _
      rw [hcheck]
      rfl

/-- A number that the datatype admits is written where there is room, and the room is kept. -/
theorem Room.set (h : m.Room bound) (hin : Shape.contains bound position = true) {x : Scalar}
    (hx : checkStore m.datatype x = .ok ()) :
    ∃ r, m.set position x = .ok r ∧ r.Room bound ∧ r.datatype = m.datatype := by
  obtain ⟨storage, datatype⟩ := m
  have hcheck : checkStore datatype x = .ok () := hx
  cases storage with
  | dense d =>
      have hd : d.WellFormed ∧ d.Within bound := h
      obtain ⟨written, hwritten, hroom⟩ := hd.1.set_within hd.2 hin x
      refine ⟨⟨.dense written, datatype⟩, ?_, hroom, rfl⟩
      rw [Matrix.set, hcheck]
      show (d.set position x).bind _ = _
      rw [hwritten]
      rfl
  | sparse s =>
      obtain ⟨rows, cols, rfl, hcols⟩ := h
      obtain ⟨row, col, rfl, -, hcol⟩ := exists_of_contains_pair hin
      -- only the column of a sparse matrix is limited, and the bound limits it
      refine ⟨⟨.sparse (s.set row col x), datatype⟩, ?_, ⟨rows, cols, rfl, hcols⟩, rfl⟩
      rw [Matrix.set, hcheck]
      exact if_neg (Nat.not_le.mpr (Nat.lt_of_lt_of_le hcol hcols))

/-- Writes at positions of the bound all succeed, or one of them has a number that the datatype does
not admit. -/
theorem Room.writeAll (h : m.Room bound)
    (hin : ∀ write ∈ writes, Shape.contains bound write.1 = true) :
    (∃ r, m.writeAll writes = (.ok (), r)) ∨
      ∃ write ∈ writes, ∃ fault, checkStore m.datatype write.2 = .error fault ∧
        (m.writeAll writes).1 = .error fault := by
  induction writes generalizing m with
  | nil => exact Or.inl ⟨m, rfl⟩
  | cons write writes ih =>
      obtain ⟨position, x⟩ := write
      obtain ⟨hposition, hrest⟩ := List.forall_mem_cons.mp hin
      rw [Matrix.writeAll]
      -- the first write is refused for its number, or it is made and leaves the room for the others
      cases hcheck : checkStore m.datatype x with
      | error fault =>
          rw [set_eq_error hcheck]
          exact Or.inr ⟨(position, x), List.mem_cons_self, fault, hcheck, rfl⟩
      | ok _ =>
          obtain ⟨written, hwritten, hroom, htag⟩ := h.set hposition hcheck
          rw [hwritten, ← htag]
          refine (ih hroom hrest).imp_right ?_
          rintro ⟨write, hwrite, hfault⟩
          exact ⟨write, List.mem_cons_of_mem _ hwrite, hfault⟩

/-! ## All or nothing -/

/-- The datatype admits the number. -/
def Admits (m : Matrix) (x : Scalar) : Prop := ∀ datatype ∈ m.datatype, datatype.admits x = true

theorem checkStore_of_admits {x : Scalar} (h : m.Admits x) : checkStore m.datatype x = .ok () := by
  cases hdatatype : m.datatype with
  | none => rfl
  | some datatype => exact if_pos (h datatype hdatatype)

theorem checkStore_of_not_admits {x : Scalar} (h : ¬m.Admits x) :
    ∃ fault, checkStore m.datatype x = .error fault := by
  cases hdatatype : m.datatype with
  | none =>
      refine absurd (fun datatype hsome => ?_) h
      rw [hdatatype] at hsome
      cases hsome
  | some datatype =>
      have hnot : ¬datatype.admits x = true := fun hadmits => h fun datatype' hsome => by
        rw [hdatatype] at hsome
        cases hsome
        exact hadmits
      exact ⟨_, if_neg hnot⟩

/-- There is no room for the position: a dense matrix would have more than `maxElements` elements
with it, a sparse one more columns. -/
def Crowded (m : Matrix) (position : List Nat) : Prop :=
  match m.storage with
  | .dense d => ¬Shape.contains d.shape position = true ∧
      maxElements < Shape.count (Shape.cover d.shape position)
  | .sparse _ => maxElements ≤ position.getD 1 0

/-- A write is refused where there is no room for it. -/
theorem Crowded.set (h : m.Crowded position) (x : Scalar) :
    ∃ fault, m.set position x = .error fault := by
  cases hcheck : checkStore m.datatype x with
  | error fault => exact ⟨fault, set_eq_error hcheck position⟩
  | ok _ =>
      obtain ⟨storage, datatype⟩ := m
      have hcheck : checkStore datatype x = .ok () := hcheck
      cases storage with
      | dense d =>
          obtain ⟨fault, hfault⟩ := Dense.set_too_large h.1 h.2 x
          refine ⟨fault, ?_⟩
          show (checkStore datatype x).bind (fun _ => (d.set position x).bind _) = _
          rw [hcheck, hfault]
          rfl
      | sparse s =>
          have hcol : maxElements ≤ position.getD 1 0 := h
          show ∃ fault, (checkStore datatype x).bind _ = .error fault
          rw [hcheck]
          rcases position with _ | ⟨row, _ | ⟨col, _ | ⟨k, rest⟩⟩⟩
          -- a position of another rank is refused for its rank
          · exact ⟨_, rfl⟩
          · exact ⟨_, rfl⟩
          · exact ⟨_, if_pos hcol⟩
          · exact ⟨_, rfl⟩

/-- The matrix takes a replacement for a selection as a whole: the datatype admits all its numbers,
and there is room up to a bound for all targets. -/
structure Accepts (m : Matrix) (lists : List (List Nat)) (replacement : Matrix) : Prop where
  admits : ∀ x ∈ replacement.elements, m.Admits x
  room : ∃ bound, m.Room bound ∧ ∀ target ∈ Shape.selection lists,
    Shape.contains bound target = true

/-- The matrix refuses a replacement at the first target, for the number to be written there or for
the target. -/
inductive Declines (m : Matrix) (lists : List (List Nat)) (replacement : Matrix) : Prop where
  | number (h : ¬m.Admits (replacement.elements.getD 0 .zero))
  | target (h : ∀ first ∈ (Shape.selection lists).head?, m.Crowded first)

section assignments

variable {lists : List (List Nat)} {replacement : Matrix}

/-- What is assigned to a selection are numbers of the replacement. -/
theorem mem_elements_of_assignments (h : m.assignments lists replacement = .ok writes) :
    ∀ write ∈ writes, write.2 ∈ replacement.elements := by
  rintro ⟨target, x⟩ hwrite
  obtain ⟨-, ⟨hone, rfl⟩ | ⟨-, -, rfl⟩⟩ := assignments_cases h
  · obtain ⟨p, -, hp⟩ := List.mem_map.mp hwrite
    cases hp
    have hfirst : 0 < replacement.elements.size := hone ▸ Nat.one_pos
    rw [Array.getD_eq_getD_getElem?, Array.getElem?_eq_getElem hfirst]
    exact Array.getElem_mem hfirst
  · exact Array.mem_def.mpr (List.of_mem_zip hwrite).2

/-- The first write of an assignment puts the first number into the first target. -/
theorem head_of_assignments {x : Scalar} {rest : List (List Nat × Scalar)}
    (h : m.assignments lists replacement = .ok ((position, x) :: rest)) :
    (Shape.selection lists).head? = some position ∧ replacement.elements.getD 0 .zero = x := by
  obtain ⟨-, ⟨-, hwrites⟩ | ⟨-, -, hwrites⟩⟩ := assignments_cases h
  · cases htargets : Shape.selection lists with
    | nil =>
        rw [htargets] at hwrites
        cases hwrites
    | cons target targets =>
        rw [htargets] at hwrites
        cases hwrites
        exact ⟨rfl, rfl⟩
  · cases htargets : Shape.selection lists with
    | nil =>
        rw [htargets] at hwrites
        cases hwrites
    | cons target targets =>
        cases helements : replacement.elements.toList with
        | nil =>
            rw [htargets, helements] at hwrites
            cases hwrites
        | cons y ys =>
            rw [htargets, helements] at hwrites
            cases hwrites
            refine ⟨rfl, ?_⟩
            rw [Array.getD_eq_getD_getElem?, ← Array.getElem?_toList, helements]
            rfl

/-- An assignment that is accepted is made, once its numbers are matched with the targets. -/
theorem Accepts.setSubset (h : m.Accepts lists replacement)
    (hwrites : m.assignments lists replacement = .ok writes) :
    ∃ r, m.setSubset lists replacement = (.ok (), r) := by
  obtain ⟨bound, hroom, hin⟩ := h.room
  rw [Matrix.setSubset, hwrites]
  have htargets : ∀ write ∈ writes, Shape.contains bound write.1 = true := fun write hwrite =>
    hin _ (mem_selection_of_assignments hwrites write hwrite)
  rcases hroom.writeAll htargets with hr | ⟨write, hwrite, fault, hfault, -⟩
  · exact hr
  · have hadmits := h.admits _ (mem_elements_of_assignments hwrites write hwrite)
    rw [checkStore_of_admits hadmits] at hfault
    cases hfault

/-- An assignment that is declined changes nothing if it fails. -/
theorem Declines.setSubset (h : m.Declines lists replacement)
    (hwrites : m.assignments lists replacement = .ok writes) {fault : EvalError}
    (hr : m.setSubset lists replacement = (.error fault, r)) : r = m := by
  rw [Matrix.setSubset, hwrites] at hr
  cases writes with
  | nil => cases hr
  | cons write rest =>
      obtain ⟨position, x⟩ := write
      obtain ⟨hhead, hfirst⟩ := head_of_assignments hwrites
      -- the first write is the one that fails, and nothing has been written before it
      obtain ⟨fault', hfault⟩ : ∃ fault, m.set position x = .error fault := by
        cases h with
        | number hnumber =>
            rw [hfirst] at hnumber
            obtain ⟨fault, hcheck⟩ := checkStore_of_not_admits hnumber
            exact ⟨fault, set_eq_error hcheck position⟩
        | target htarget => exact (htarget position hhead).set x
      have hr : m.writeAll ((position, x) :: rest) = (.error fault, r) := hr
      rw [Matrix.writeAll, hfault] at hr
      exact (congrArg Prod.snd hr).symm

/-- An assignment that is accepted as a whole, or declined at its first target, changes nothing if
it fails. What is accepted fails only if its numbers cannot be matched with the targets. -/
theorem setSubset_all_or_nothing
    (h : (m.assignments lists replacement).isOk = true →
      m.Accepts lists replacement ∨ m.Declines lists replacement) :
    (∀ fault r, m.setSubset lists replacement = (.error fault, r) → r = m) ∧
      (m.Accepts lists replacement → (m.assignments lists replacement).isOk = true →
        ∃ r, m.setSubset lists replacement = (.ok (), r)) := by
  cases hwrites : m.assignments lists replacement with
  | error fault' =>
      refine ⟨fun fault r hr => ?_, fun _ hok => by cases hok⟩
      -- what does not match the selection is refused before anything is written
      rw [Matrix.setSubset, hwrites] at hr
      exact (congrArg Prod.snd hr).symm
  | ok writes =>
      rw [hwrites] at h
      refine ⟨fun fault r hr => ?_, fun haccepts _ => haccepts.setSubset hwrites⟩
      rcases h rfl with haccepts | hdeclines
      · obtain ⟨r', hr'⟩ := haccepts.setSubset hwrites
        rw [hr'] at hr
        cases hr
      · exact hdeclines.setSubset hwrites hr

end assignments

theorem exists_of_isOk_eq_false {result : Except EvalError Unit × Matrix}
    (h : result.1.isOk = false) : ∃ fault, result = (.error fault, result.2) := by
  obtain ⟨fault | _, r⟩ := result
  · exact ⟨fault, rfl⟩
  · cases h

/-- A matrix of real numbers grows to the first of two targets and is written at both; it declines
an imaginary number for the first one. A short matrix declines a target that would make it too
large, and is not written at the other one. -/
theorem setSubset_all_or_nothing_grown :
    let m : Matrix := ⟨.dense ⟨[2], #[.real 1, .real 2]⟩, some .number⟩
    let mixed := ofDense ⟨[2], #[.complex ⟨0, 1⟩, .real 5]⟩
    let short := ofReals [0]
    (m.Accepts [[3, 0]] (ofReals [7, 8]) ∧
        ∃ r, m.setSubset [[3, 0]] (ofReals [7, 8]) = (.ok (), r)) ∧
      (m.Declines [[3, 0]] mixed ∧
        ∃ fault r, m.setSubset [[3, 0]] mixed = (.error fault, r) ∧ r = m) ∧
      short.Declines [[maxElements, 0]] (ofReals [5]) ∧
        ∃ fault r, short.setSubset [[maxElements, 0]] (ofReals [5]) = (.error fault, r) ∧
          r = short := by
  intro m mixed short
  have haccepts : m.Accepts [[3, 0]] (ofReals [7, 8]) := by
    refine ⟨fun x hx datatype hdatatype => ?_, [4], ⟨⟨rfl, by decide⟩, ?_⟩, by decide⟩
    · cases hdatatype
      obtain ⟨y, -, rfl⟩ := List.mem_map.mp (List.mem_toArray.mp hx)
      rfl
    · exact ⟨.cons (by decide) .nil, Or.inr (by decide)⟩
  have hmixed : m.Declines [[3, 0]] mixed :=
    .number fun hadmits => absurd (hadmits .number rfl) (by decide)
  have hshort : short.Declines [[maxElements, 0]] (ofReals [5]) :=
    .target fun first hfirst => by
      cases hfirst
      exact ⟨by decide, by decide⟩
  obtain ⟨fault, hfault⟩ := exists_of_isOk_eq_false
    (show (short.setSubset [[maxElements, 0]] (ofReals [5])).1.isOk = false by decide +kernel)
  exact ⟨⟨haccepts, (setSubset_all_or_nothing fun _ => .inl haccepts).2 haccepts rfl⟩,
    ⟨hmixed, _, _, rfl, (setSubset_all_or_nothing fun _ => .inr hmixed).1 _ _ rfl⟩,
    hshort, fault, _, hfault, (setSubset_all_or_nothing fun _ => .inr hshort).1 _ _ hfault⟩

/-- The second number is a complex one, the second target is behind the last element that a dense
matrix may have, or behind the last column of a sparse one. The first number has been written by
then, and the matrix has grown to it. -/
theorem assignment_fails_halfway :
    let real : Matrix := ⟨.dense ⟨[2], #[.zero, .zero]⟩, some .number⟩
    let numbers := ofDense ⟨[2], #[.real 1, .complex ⟨0, 1⟩]⟩
    let short := ofReals [0]
    let narrow : Matrix := ⟨.sparse (Sparse.zeros 1 1), none⟩
    (real.WellFormed ∧
      ∃ fault r, real.setSubset [[0, 1]] numbers = (.error fault, r) ∧ r ≠ real) ∧
      (short.WellFormed ∧
        ∃ fault r, short.setSubset [[1, maxElements]] (ofReals [5]) = (.error fault, r) ∧
          r ≠ short) ∧
      narrow.WellFormed ∧
        ∃ fault r, narrow.setSubset [[0], [1, maxElements]] (ofReals [5]) = (.error fault, r) ∧
          r ≠ narrow := by
  intro real numbers short narrow
  refine ⟨⟨⟨rfl, by decide⟩, ?_⟩, ⟨⟨rfl, by decide⟩, ?_⟩, Sparse.wellFormed_zeros 1 1, ?_⟩
  · obtain ⟨fault, hfault⟩ := exists_of_isOk_eq_false
      (show (real.setSubset [[0, 1]] numbers).1.isOk = false by decide +kernel)
    refine ⟨fault, _, hfault, fun hsame => ?_⟩
    -- what has changed is seen in the number of nonzero elements, or else in the shape
    have hread := congrArg (fun m : Matrix => m.nonzeros) hsame
    exact absurd hread (by decide +kernel)
  · obtain ⟨fault, hfault⟩ := exists_of_isOk_eq_false
      (show (short.setSubset [[1, maxElements]] (ofReals [5])).1.isOk = false by decide +kernel)
    refine ⟨fault, _, hfault, fun hsame => ?_⟩
    have hshape := congrArg (fun m : Matrix => m.shape) hsame
    exact absurd hshape (by decide +kernel)
  · obtain ⟨fault, hfault⟩ := exists_of_isOk_eq_false
      (show (narrow.setSubset [[0], [1, maxElements]] (ofReals [5])).1.isOk = false by
        decide +kernel)
    refine ⟨fault, _, hfault, fun hsame => ?_⟩
    have hshape := congrArg (fun m : Matrix => m.shape) hsame
    exact absurd hshape (by decide +kernel)

end Matrix

end Formula
