import Formula.Proofs.Matrix.Agreement
import Formula.Proofs.Matrix.Expand

set_option autoImplicit false

/-! # Sparse storage simulates dense storage

A sparse matrix and a dense one in agreement are read and written alike. Steps that read or write
one element or a selection are run on both; as long as no step of the dense run is refused for its
extents, both runs answer alike and their matrices stay in agreement, also after a step that fails
halfway.
-/

namespace Formula.Matrix

/-- A sparse matrix and a dense one of the same datatype agree. -/
inductive Agree : Matrix → Matrix → Prop where
  | intro {s : Sparse} {d : Dense} (datatype : Option DataType) (h : s.Agrees d) :
      Agree ⟨.sparse s, datatype⟩ ⟨.dense d, datatype⟩

/-- They agree, and have no more columns than a sparse matrix may grow to. -/
inductive Related : Matrix → Matrix → Prop where
  | intro {s : Sparse} {d : Dense} (datatype : Option DataType) (h : s.Agrees d)
      (hcols : s.cols ≤ maxElements) : Related ⟨.sparse s, datatype⟩ ⟨.dense d, datatype⟩

section steps

variable {m n : Matrix}

theorem Related.agree (h : Related m n) : Agree m n := by
  obtain ⟨datatype, h, -⟩ := h
  exact ⟨datatype, h⟩

theorem Agree.nonzeros_eq (h : Agree m n) : m.nonzeros = n.nonzeros := by
  obtain ⟨datatype, h⟩ := h
  exact h.nonzeros_eq

theorem Agree.rank_eq (h : Agree m n) : m.rank = n.rank := by
  obtain ⟨datatype, h⟩ := h
  exact (congrArg List.length h.plane.shape).symm

/-! ## One element -/

theorem get_sparse_rank (s : Sparse) (datatype : Option DataType) {position : List Nat}
    (h : position.length ≠ 2) :
    ∃ fault, get ⟨.sparse s, datatype⟩ position = .error (.index fault) := by
  rcases position with _ | ⟨row, _ | ⟨col, _ | ⟨k, rest⟩⟩⟩
  · exact ⟨_, rfl⟩
  · exact ⟨_, rfl⟩
  · exact absurd rfl h
  · exact ⟨_, rfl⟩

/-- Reading gives like answers. -/
theorem Agree.get (h : Agree m n) (position : List Nat) :
    Matches Scalar.Alike (m.get position) (n.get position) := by
  obtain ⟨datatype, h⟩ := h
  rename_i s d
  by_cases hrank : position.length = 2
  · obtain ⟨row, col, rfl⟩ := List.length_eq_two.mp hrank
    show Matches _ (s.get row col) (d.get [row, col])
    -- inside both give like elements, outside both refuse the position
    by_cases hin : row < s.rows ∧ col < s.cols
    · obtain ⟨x, y, hx, hy, hxy⟩ := h.alike row hin.1 col hin.2
      rw [hx, hy]
      exact .ok hxy
    · obtain ⟨fault, hd⟩ := h.plane.get_outside hin
      rw [hd, Sparse.get, if_neg hin]
      exact .error rfl
  · obtain ⟨fault, hs⟩ := get_sparse_rank s datatype hrank
    obtain ⟨fault', hd⟩ := h.plane.get_rank hrank
    rw [hs]
    show Matches _ _ (d.get position)
    rw [hd]
    exact .error rfl

/-- Writing one element keeps the matrices related, or fails alike. -/
theorem Related.set (h : Related m n) {position : List Nat} (hbelow : ∀ i ∈ position, i < Word.last)
    (x : Scalar) : Simulates Related (m.set position x) (n.set position x) := by
  obtain ⟨datatype, h, hcols⟩ := h
  rename_i s d
  -- both storages ask the datatype first
  show Simulates _ ((checkStore datatype x).bind _) ((checkStore datatype x).bind _)
  cases checkStore datatype x with
  | error fault => exact Or.inr (.error rfl)
  | ok _ =>
      by_cases hrank : position.length = 2
      · obtain ⟨row, col, rfl⟩ := List.length_eq_two.mp hrank
        have hrow : row < Word.last := hbelow row (by simp)
        have hcol : col < Word.last := hbelow col (by simp)
        -- a column that sparse storage refuses makes the dense plane too large as well
        show Simulates _ (if maxElements ≤ col then _ else _) ((d.set [row, col] x).bind _)
        rcases h.plane.set_cases hrow hcol x with ⟨fault, hd⟩ | ⟨written, hd, hplane, hbound, hcell⟩
        · rw [hd]
          exact Or.inl ⟨fault, rfl⟩
        · have hmax : max s.cols (col + 1) ≤ maxElements := hbound hcols
          rw [hd, if_neg (by omega)]
          have hagrees : (s.set row col x).Agrees written := h.set hrow hcol hplane hcell
          have hcols' : (s.set row col x).cols = max s.cols (col + 1) :=
            h.wellFormed.cols_set (Nat.add_lt_of_lt_sub hrow) (Nat.add_lt_of_lt_sub hcol) x
          exact Or.inr (.ok (.intro datatype hagrees (by rw [hcols']; exact hmax)))
      · obtain ⟨fault, hd⟩ := h.plane.set_rank hrank x
        show Simulates _ _ ((d.set position x).bind _)
        rw [hd]
        rcases position with _ | ⟨row, _ | ⟨col, _ | ⟨k, rest⟩⟩⟩
        · exact Or.inr (.error rfl)
        · exact Or.inr (.error rfl)
        · exact absurd rfl hrank
        · exact Or.inr (.error rfl)

/-! ## Selections -/

theorem length_selection_pair (rows cols : List Nat) :
    (Shape.selection [rows, cols]).length = rows.length * cols.length := by
  rw [Shape.length_selection]
  simp

/-- Elements that are alike in one list and in another are alike at every place. -/
theorem alike_getD {xs ys : List Scalar} (h : List.Forall₂ Scalar.Alike xs ys) (k : Nat) :
    (xs.toArray.getD k .zero).Alike (ys.toArray.getD k .zero) := by
  simp only [Array.getD_eq_getD_getElem?, List.getElem?_toArray]
  induction h generalizing k with
  | nil => exact Or.inl rfl
  | cons hxy _ ih =>
      cases k with
      | zero => exact hxy
      | succ k => exact ih k

/-- The nonzero elements of a plane agree with any plane of like elements. -/
theorem agrees_planar {rows cols : Nat} {d d' : Dense} (hplane : d'.Plane rows cols)
    (h : ∀ k, (d.entry k).Alike (d'.entry k)) : (Sparse.ofDense.planar d rows cols).Agrees d' := by
  have hwf : (Sparse.ofDense.planar d rows cols).WellFormed := Sparse.wellFormed_planar d rows cols
  rw [Sparse.planar_eq] at hwf ⊢
  have hcols := Sparse.cols_tabulate rows cols
  refine .of_cells hwf (by rw [hcols]; exact hplane) fun row hrow col hcol => ?_
  rw [hcols] at hcol ⊢
  rw [Sparse.cell?_tabulate, if_pos ⟨hrow, hcol⟩]
  exact (Sparse.alike_kept _).trans (h _)

/-- Selecting gives matrices in agreement, or fails alike. -/
theorem Agree.subset (h : Agree m n) (lists : List (List Nat)) :
    Simulates Agree (m.subset lists) (n.subset lists) := by
  have hget := h.get
  have hrank := h.rank_eq
  obtain ⟨datatype, h⟩ := h
  rename_i s d
  have hrank' : Matrix.rank ⟨.dense d, datatype⟩ = 2 := congrArg List.length h.plane.shape
  rw [Matrix.subset, Matrix.subset, hrank, hrank']
  by_cases hlists : lists.length = 2
  · rw [if_pos hlists, if_pos hlists]
    obtain ⟨rows, cols, rfl⟩ := List.length_eq_two.mp hlists
    -- memory is asked for alike on both sides
    show Simulates _ ((reserve [rows.length, cols.length]).bind _)
      ((reserve [rows.length, cols.length]).bind _)
    cases reserve [rows.length, cols.length] with
    | error fault => exact Or.inr (.error rfl)
    | ok granted =>
    refine (Matches.mapM hget (Shape.selection [rows, cols])).bind ?_
    rintro xs ys ⟨hxy, hlength⟩
    rw [length_selection_pair] at hlength
    have hsizes : xs.length = ys.length := hxy.length_eq
    show Simulates _ ((Dense.ofData xs.toArray [rows.length, cols.length]).bind _)
      ((Dense.ofData ys.toArray [rows.length, cols.length]).bind _)
    simp only [Dense.ofData, List.size_toArray, hsizes]
    -- only the number of elements can be refused, and it is the same on both sides
    by_cases hcount : ys.length = Word.product [rows.length, cols.length]
    · have hsmall : Word.product [rows.length, cols.length] < Word.size := Word.wrap_lt _
      have hplane :
          (Dense.mk [rows.length, cols.length] ys.toArray).Plane rows.length cols.length :=
        ⟨rfl, hlength, by rw [← hlength, hcount]; exact hsmall⟩
      have hpacked : Dense.WellFormed ⟨[rows.length, cols.length], xs.toArray⟩ :=
        ⟨hsizes.trans hplane.wellFormed.size, hplane.wellFormed.small⟩
      rw [if_pos hcount, if_pos hcount]
      show Simulates _ (intoStorage ⟨.dense ⟨_, xs.toArray⟩, datatype⟩ .sparse) (.ok _)
      rw [intoStorage_sparse hpacked]
      exact Or.inr (.ok (.intro datatype (agrees_planar hplane (alike_getD hxy))))
    · rw [if_neg hcount, if_neg hcount]
      exact Or.inl ⟨_, rfl⟩
  · rw [if_neg hlists, if_neg hlists]
    exact Or.inr (.error rfl)

/-! ## Writing a selection -/

theorem lt_of_mem_selection {lists : List (List Nat)} {bound : Nat}
    (h : ∀ indices ∈ lists, ∀ i ∈ indices, i < bound) {position : List Nat}
    (hposition : position ∈ Shape.selection lists) : ∀ i ∈ position, i < bound := by
  induction lists generalizing position with
  | nil =>
      rw [Shape.selection, List.mem_singleton] at hposition
      rw [hposition]
      exact fun i hi => absurd hi List.not_mem_nil
  | cons indices lists ih =>
      simp only [Shape.selection, List.mem_flatMap, List.mem_map] at hposition
      obtain ⟨i, hi, rest, hrest, rfl⟩ := hposition
      intro j hj
      rcases List.mem_cons.mp hj with rfl | hj
      · exact h indices List.mem_cons_self j hi
      · exact ih (fun l hl => h l (List.mem_cons_of_mem _ hl)) hrest j hj

/-- What is assigned depends on the number of axes only. -/
theorem assignments_eq (h : m.rank = n.rank) (lists : List (List Nat)) (replacement : Matrix) :
    m.assignments lists replacement = n.assignments lists replacement := by
  simp only [assignments, h]

/-- What is assigned to a selection: the only element of the replacement everywhere, or its elements
in turn, one for each position. -/
theorem assignments_cases {lists : List (List Nat)} {replacement : Matrix}
    {writes : List (List Nat × Scalar)} (h : m.assignments lists replacement = .ok writes) :
    lists.length = m.rank ∧
      ((replacement.elements.size = 1 ∧
          writes = (Shape.selection lists).map fun p => (p, replacement.elements.getD 0 .zero)) ∨
        (replacement.elements.size ≠ 1 ∧
          replacement.elements.size = (Shape.selection lists).length ∧
          writes = (Shape.selection lists).zip replacement.elements.toList)) := by
  unfold assignments at h
  by_cases hrank : lists.length ≠ m.rank
  · rw [if_pos hrank] at h
    cases h
  · rw [if_neg hrank] at h
    refine ⟨not_not.mp hrank, ?_⟩
    obtain ⟨values, hvalues, h⟩ := Outcome.bind_eq_ok.mp h
    obtain ⟨count, hcount, h⟩ := Outcome.bind_eq_ok.mp h
    obtain rfl := eq_elements_of_expand hvalues
    -- the positions that are counted are those of the selection
    have hlength : count = (Shape.selection lists).length := by
      rw [Shape.length_selection]
      exact (Shape.checkedCount_eq_ok hcount).1
    change (if replacement.elements.size = 1 then _ else _) = _ at h
    by_cases hone : replacement.elements.size = 1
    · rw [if_pos hone] at h
      exact Or.inl ⟨hone, (Except.ok.inj h).symm⟩
    · rw [if_neg hone] at h
      change (if replacement.elements.size ≠ count then _ else _) = _ at h
      by_cases hsize : replacement.elements.size ≠ count
      · rw [if_pos hsize] at h
        cases h
      · rw [if_neg hsize] at h
        exact Or.inr ⟨hone, (not_not.mp hsize).trans hlength, (Except.ok.inj h).symm⟩

/-- Assignments are made to selected positions. -/
theorem mem_selection_of_assignments {lists : List (List Nat)} {replacement : Matrix}
    {writes : List (List Nat × Scalar)} (h : m.assignments lists replacement = .ok writes) :
    ∀ write ∈ writes, write.1 ∈ Shape.selection lists := by
  intro write hwrite
  obtain ⟨-, ⟨-, rfl⟩ | ⟨-, -, rfl⟩⟩ := assignments_cases h
  · obtain ⟨p, hp, rfl⟩ := List.mem_map.mp hwrite
    exact hp
  · exact (List.of_mem_zip hwrite).1

/-- A list of writes is made alike up to the first failure, which leaves the matrices related. -/
theorem Related.writeAll (h : Related m n) {writes : List (List Nat × Scalar)}
    (hbelow : ∀ write ∈ writes, ∀ i ∈ write.1, i < Word.last) :
    Refused (n.writeAll writes).1 ∨
      (Matches (fun _ _ => True) (m.writeAll writes).1 (n.writeAll writes).1 ∧
        Related (m.writeAll writes).2 (n.writeAll writes).2) := by
  induction writes generalizing m n with
  | nil => exact Or.inr ⟨.ok trivial, h⟩
  | cons write writes ih =>
      obtain ⟨position, x⟩ := write
      have hset := h.set (hbelow _ List.mem_cons_self) x
      rw [Matrix.writeAll, Matrix.writeAll]
      generalize m.set position x = a at hset
      generalize n.set position x = b at hset
      rcases hset with ⟨fault, rfl⟩ | hset
      · exact Or.inl ⟨fault, rfl⟩
      · cases hset with
        -- the first failure ends the writes on both sides, with the matrices as they were
        | error he => exact Or.inr ⟨.error he, h⟩
        | ok hwritten =>
            exact ih hwritten fun write hwrite => hbelow write (List.mem_cons_of_mem _ hwrite)

/-- Assigning to a selection keeps the matrices related, also where it fails halfway. -/
theorem Related.setSubset (h : Related m n) {lists : List (List Nat)}
    (hbelow : ∀ indices ∈ lists, ∀ i ∈ indices, i < Word.last) (replacement : Matrix) :
    Refused (n.setSubset lists replacement).1 ∨
      (Matches (fun _ _ => True) (m.setSubset lists replacement).1
          (n.setSubset lists replacement).1 ∧
        Related (m.setSubset lists replacement).2 (n.setSubset lists replacement).2) := by
  rw [Matrix.setSubset, Matrix.setSubset, assignments_eq h.agree.rank_eq]
  cases hwrites : n.assignments lists replacement with
  | error fault => exact Or.inr ⟨.error rfl, h⟩
  | ok writes =>
      refine h.writeAll fun write hwrite => ?_
      exact lt_of_mem_selection hbelow (mem_selection_of_assignments hwrites write hwrite)

end steps

/-! ## Runs -/

/-- One step on a matrix. -/
inductive Access where
  | get (position : List Nat)
  | set (position : List Nat) (x : Scalar)
  | subset (lists : List (List Nat))
  | setSubset (lists : List (List Nat)) (replacement : Matrix)

/-- What a step answers. -/
inductive Answer where
  | done
  | element (x : Scalar)
  | selection (m : Matrix)

/-- Two steps answer alike: with elements that are alike, or with selections in agreement. -/
inductive Answer.Alike : Answer → Answer → Prop where
  | done : Alike .done .done
  | element {x y : Scalar} (h : x.Alike y) : Alike (.element x) (.element y)
  | selection {m n : Matrix} (h : Agree m n) : Alike (.selection m) (.selection n)

namespace Access

/-- All indices of a step are below the last count. -/
def Below : Access → Prop
  | get position => ∀ i ∈ position, i < Word.last
  | set position _ => ∀ i ∈ position, i < Word.last
  | subset lists => ∀ indices ∈ lists, ∀ i ∈ indices, i < Word.last
  | setSubset lists _ => ∀ indices ∈ lists, ∀ i ∈ indices, i < Word.last

/-- The answer of a step and the matrix after it. -/
def run (m : Matrix) : Access → Except EvalError Answer × Matrix
  | get position => ((m.get position).map .element, m)
  | set position x =>
      match m.set position x with
      | .ok written => (.ok .done, written)
      | .error fault => (.error fault, m)
  | subset lists => ((m.subset lists).map .selection, m)
  | setSubset lists replacement =>
      let assigned := m.setSubset lists replacement
      (assigned.1.map fun _ => .done, assigned.2)

end Access

/-- The answers and the matrices of a run, step by step. -/
def trace (m : Matrix) : List Access → List (Except EvalError Answer × Matrix)
  | [] => []
  | access :: accesses =>
      let step := access.run m
      step :: trace step.2 accesses

/-- One step on related matrices: the dense one is refused for its extents, or the answers match
and the matrices stay related. -/
theorem Related.run {m n : Matrix} (h : Related m n) {access : Access} (hbelow : access.Below) :
    Refused (access.run n).1 ∨
      (Matches Answer.Alike (access.run m).1 (access.run n).1 ∧
        Related (access.run m).2 (access.run n).2) := by
  cases access with
  | get position =>
      have hget := h.agree.get position
      simp only [Access.run]
      generalize m.get position = a at hget
      generalize n.get position = b at hget
      cases hget with
      | ok hxy => exact Or.inr ⟨.ok (.element hxy), h⟩
      | error he => exact Or.inr ⟨.error he, h⟩
  | set position x =>
      have hset := h.set hbelow x
      simp only [Access.run]
      generalize m.set position x = a at hset
      generalize n.set position x = b at hset
      rcases hset with ⟨fault, rfl⟩ | hset
      · exact Or.inl ⟨fault, rfl⟩
      · cases hset with
        | ok hwritten => exact Or.inr ⟨.ok .done, hwritten⟩
        | error he => exact Or.inr ⟨.error he, h⟩
  | subset lists =>
      have hsubset := h.agree.subset lists
      simp only [Access.run]
      generalize m.subset lists = a at hsubset
      generalize n.subset lists = b at hsubset
      rcases hsubset with ⟨fault, rfl⟩ | hsubset
      · exact Or.inl ⟨fault, rfl⟩
      · cases hsubset with
        | ok hselected => exact Or.inr ⟨.ok (.selection hselected), h⟩
        | error he => exact Or.inr ⟨.error he, h⟩
  | setSubset lists replacement =>
      have hassign := h.setSubset hbelow replacement
      simp only [Access.run]
      generalize m.setSubset lists replacement = a at hassign
      generalize n.setSubset lists replacement = b at hassign
      -- an assignment can fail halfway, so the matrices matter even if it does
      obtain ⟨a, m'⟩ := a
      obtain ⟨b, n'⟩ := b
      rcases hassign with ⟨fault, hb⟩ | ⟨hmatch, hrelated⟩
      · simp only at hb
        rw [hb]
        exact Or.inl ⟨fault, rfl⟩
      · simp only at hmatch
        cases hmatch with
        | ok _ => exact Or.inr ⟨.ok .done, hrelated⟩
        | error he => exact Or.inr ⟨.error he, hrelated⟩

/-- Sparse storage simulates dense storage: as long as no step of the dense run is refused for its
extents, both runs answer alike step by step, and after every step the matrices are related and
count the same number of nonzero elements. -/
theorem sparse_simulates_dense {m n : Matrix} (h : Related m n) {accesses : List Access}
    (hbelow : ∀ access ∈ accesses, access.Below)
    (hextents : ∀ step ∈ trace n accesses, ¬Refused step.1) :
    List.Forall₂ (fun sparse dense => Matches Answer.Alike sparse.1 dense.1 ∧
        sparse.2.nonzeros = dense.2.nonzeros ∧ Related sparse.2 dense.2)
      (trace m accesses) (trace n accesses) := by
  induction accesses generalizing m n with
  | nil => exact .nil
  | cons access accesses ih =>
      rw [trace] at hextents
      rcases h.run (hbelow access List.mem_cons_self) with hrefused | ⟨hanswer, hrelated⟩
      · exact absurd hrefused (hextents _ List.mem_cons_self)
      · rw [trace, trace]
        refine .cons ⟨hanswer, hrelated.agree.nonzeros_eq, hrelated⟩ (ih hrelated ?_ ?_)
        · exact fun access haccess => hbelow access (List.mem_cons_of_mem _ haccess)
        · exact fun step hstep => hextents step (List.mem_cons_of_mem _ hstep)

/-- Zeros are related in both storages. -/
theorem related_zeros {rows cols : Nat} (hsmall : rows * cols < Word.size)
    (hcols : cols ≤ maxElements) :
    Related ⟨.sparse (Sparse.zeros rows cols), none⟩ ⟨.dense (Dense.zeros [rows, cols]), none⟩ := by
  have hcount : Shape.count [rows, cols] < Word.size := by rwa [Shape.count_pair]
  have hplane : (Dense.zeros [rows, cols]).Plane rows cols :=
    (Dense.wellFormed_zeros hcount).plane rfl
  refine .intro none (.of_cells (Sparse.wellFormed_zeros rows cols) hplane ?_) hcols
  intro row _ col _
  have hentry : ∀ place, (Dense.zeros [rows, cols]).entry place = .zero := by
    intro place
    simp only [Dense.entry, Dense.zeros, Array.getD_eq_getD_getElem?, Array.getElem?_replicate]
    split <;> rfl
  rw [Sparse.cell?_zeros, Dense.cell, hentry]
  exact Or.inl rfl

instance {α : Type} : (outcome : Except EvalError α) → Decidable (Refused outcome)
  | .ok _ => isFalse (by rintro ⟨_, h⟩; cases h)
  | .error (.dimension fault) => isTrue ⟨fault, rfl⟩
  | .error (.undefinedSymbol _) => isFalse (by rintro ⟨_, h⟩; cases h)
  | .error (.type _) => isFalse (by rintro ⟨_, h⟩; cases h)
  | .error (.index _) => isFalse (by rintro ⟨_, h⟩; cases h)
  | .error (.argument _) => isFalse (by rintro ⟨_, h⟩; cases h)
  | .error (.notCallable _) => isFalse (by rintro ⟨_, h⟩; cases h)
  | .error (.recursionLimit _) => isFalse (by rintro ⟨_, h⟩; cases h)
  | .error (.abort _) => isFalse (by rintro ⟨_, h⟩; cases h)

/-- A matrix of zeros grows, is read outside, loses an element and is cut. -/
theorem sparse_simulates_dense_zeros :
    let sparse : Matrix := ⟨.sparse (Sparse.zeros 1 1), none⟩
    let dense : Matrix := ⟨.dense (Dense.zeros [1, 1]), none⟩
    let accesses : List Access :=
      [.set [1, 2] (.real 5), .get [2, 0], .setSubset [[0], [0, 2]] (ofReals [7, 0]),
        .set [1, 2] .zero, .subset [[1, 0], [2]]]
    Related sparse dense ∧ (∀ access ∈ accesses, access.Below) ∧
      (∀ step ∈ trace dense accesses, ¬Refused step.1) ∧
      List.Forall₂ (fun sparse dense => Matches Answer.Alike sparse.1 dense.1 ∧
          sparse.2.nonzeros = dense.2.nonzeros ∧ Related sparse.2 dense.2)
        (trace sparse accesses) (trace dense accesses) := by
  intro sparse dense accesses
  have hrelated : Related sparse dense := related_zeros (by decide) (by decide)
  have hbelow : ∀ access ∈ accesses, access.Below := by
    simp [accesses, Access.Below, Word.last, Word.size]
  -- the dense matrix stays small, so that none of its answers is about its extents
  have hextents : ∀ step ∈ trace dense accesses, ¬Refused step.1 := by
    decide
  exact ⟨hrelated, hbelow, hextents, sparse_simulates_dense hrelated hbelow hextents⟩

end Formula.Matrix
