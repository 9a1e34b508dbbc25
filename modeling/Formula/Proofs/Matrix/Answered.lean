import Formula.Proofs.Matrix.Product
import Formula.Proofs.Matrix.Selection

set_option autoImplicit false

/-! # Matrices that answer

A computation breaks off where it writes out a sparse matrix whose positions a word cannot count,
where it reads behind the end of data that are too few, or where it asks for more memory than can be
addressed. It answers if it does none of these, be the answer a result or an error.

A matrix is `Addressable` if it is well formed and not too large to be written out. Such a matrix
answers whatever it is asked for: products, powers and copies, selected parts and assignments.
-/

namespace Formula

/-- The computation ends with a result or with an error, and does not break off. -/
def Answered {α : Type} (outcome : Except EvalError α) : Prop :=
  ∀ cause, outcome ≠ .error (.abort cause)

/-- Does the computation break off? -/
def breaksOff {α : Type} : Except EvalError α → Bool
  | .error fault => fault.isAbort
  | .ok _ => false

section outcomes

variable {α β ι : Type} {x : Except EvalError α}

theorem answered_iff : Answered x ↔ breaksOff x = false := by
  cases x with
  | ok a => exact iff_of_true nofun rfl
  | error fault =>
      cases fault with
      | abort cause => exact iff_of_false (fun h => h cause rfl) nofun
      | _ => exact iff_of_true nofun rfl

theorem answered_ok (a : α) : Answered (.ok a : Except EvalError α) := nofun

/-- A computation answers with any error that does not break it off. -/
theorem answered_refused {fault : EvalError} (h : fault.isAbort = false) :
    Answered (.error fault : Except EvalError α) := answered_iff.mpr h

theorem answered_of_eq_ok {a : α} (h : x = .ok a) : Answered x := h ▸ answered_ok a

/-- The error of a computation that answers is none that breaks off another one. -/
theorem Answered.error {fault : EvalError} (h : Answered (.error fault : Except EvalError α)) :
    Answered (.error fault : Except EvalError β) :=
  fun cause hbreaks => h cause (congrArg Except.error (Except.error.inj hbreaks))

theorem answered_bind {k : α → Except EvalError β} (hx : Answered x)
    (hk : ∀ a, x = .ok a → Answered (k a)) : Answered (x >>= k) := by
  cases x with
  | error fault => exact hx.error
  | ok a => exact hk a rfl

theorem answered_map (hx : Answered x) (f : α → β) : Answered (x.map f) := by
  cases x with
  | error fault => exact hx.error
  | ok a => exact answered_ok (f a)

theorem answered_ite {p : Prop} [Decidable p] {y : Except EvalError α} (hx : p → Answered x)
    (hy : ¬p → Answered y) : Answered (if p then x else y) := by
  split
  · next h => exact hx h
  · next h => exact hy h

theorem answered_mapM {f : ι → Except EvalError α} {items : List ι}
    (h : ∀ item ∈ items, Answered (f item)) : Answered (items.mapM f) := by
  intro cause hbreaks
  obtain ⟨item, hitem, hfault⟩ := Outcome.exists_of_mapM_eq_error hbreaks
  exact h item hitem cause hfault

theorem answered_array_mapM {f : ι → Except EvalError α} {items : Array ι}
    (h : ∀ item ∈ items, Answered (f item)) : Answered (items.mapM f) := by
  rw [Array.mapM_eq_mapM_toList]
  exact answered_map (answered_mapM fun item hitem => h item (Array.mem_def.mpr hitem)) _

end outcomes

/-! ## Matrices -/

theorem Shape.checkedCount_answered (shape : List Nat) (limit : Nat) :
    Answered (checkedCount shape limit) := by
  rw [checkedCount]
  split
  · exact answered_ite (fun _ => answered_ok _) fun _ => answered_refused rfl
  · exact answered_refused rfl

namespace Matrix

/-- The matrix is well formed, and it is not too large to be written out or to be transposed: there
can be data for all its positions, and pointers to all its rows and columns. -/
structure Addressable (m : Matrix) : Prop where
  wellFormed : m.WellFormed
  count_le : Shape.count m.shape ≤ Dense.capacity
  extent_le : ∀ extent ∈ m.shape, extent ≤ Dense.capacity

variable {m n a b r : Matrix} {lists : List (List Nat)}

theorem Addressable.small (h : m.Addressable) : Shape.count m.shape < Word.size :=
  Nat.lt_of_le_of_lt h.count_le capacity_lt_size

theorem Addressable.expand_eq (h : m.Addressable) : m.expand = .ok m.elements :=
  h.wellFormed.expand_eq h.small

theorem Addressable.expand_answered (h : m.Addressable) : Answered m.expand :=
  answered_of_eq_ok h.expand_eq

theorem addressable_empty : empty.Addressable :=
  ⟨⟨by decide, by decide⟩, by decide, by decide⟩

theorem ofData_answered (data : Array Scalar) (shape : List Nat) :
    Answered (ofData data shape) := by
  refine answered_map ?_ _
  rw [Dense.ofData]
  exact answered_ite (fun _ => answered_ok _) fun _ => answered_refused rfl

/-- Reading an element outside is an error, reading one inside is none. -/
theorem WellFormed.get_answered (h : m.WellFormed) (position : List Nat) :
    Answered (m.get position) := by
  by_cases hin : Shape.contains m.shape position = true
  · exact answered_of_eq_ok (h.get_eq hin)
  · obtain ⟨fault, hfault⟩ := get_outside hin
    rw [hfault]
    exact answered_refused rfl

theorem Addressable.zipWith_answered (hm : m.Addressable) (hn : n.Addressable)
    {f : Scalar → Scalar → Except EvalError Scalar} (hf : ∀ x y, Answered (f x y)) :
    Answered (m.zipWith n f) := by
  refine answered_ite (fun _ => ?_) fun _ => answered_refused rfl
  refine answered_bind hm.expand_answered fun xs _ => ?_
  refine answered_bind hn.expand_answered fun ys _ => ?_
  refine answered_bind (answered_array_mapM fun e _ => hf e.1 e.2) fun data _ => ?_
  exact ofData_answered data m.shape

theorem WellFormed.transposeWith_answered (h : m.WellFormed) (f : Scalar → Scalar) :
    Answered (m.transposeWith f) := by
  obtain ⟨storage, datatype⟩ := m
  rw [Matrix.transposeWith]
  cases storage with
  | dense d =>
      have hd : d.WellFormed := h
      dsimp only
      split
      · exact answered_ok _
      · exact answered_ok _
      · refine answered_ite (fun _ => answered_refused rfl) fun _ => ?_
        exact answered_map (answered_of_eq_ok hd.readPlane_eq) _
      · exact answered_refused rfl
  | sparse s => exact answered_ite (fun _ => answered_refused rfl) fun _ => answered_ok _

/-! ### Copies -/

theorem Addressable.intoStorage_answered (h : m.Addressable) (kind : StorageKind) :
    Answered (m.intoStorage kind) := by
  obtain ⟨storage, datatype⟩ := m
  cases storage with
  | dense d =>
      cases kind with
      | dense => exact answered_ok _
      | sparse =>
          have hd : d.WellFormed := h.wellFormed
          rw [intoStorage_sparse hd]
          refine answered_map ?_ _
          rw [Sparse.ofDense]
          split
          · exact answered_ok _
          · exact answered_ok _
          · exact answered_refused rfl
  | sparse s =>
      cases kind with
      | dense =>
          have hs : s.WellFormed := h.wellFormed
          have hsmall : s.rows * s.cols < Word.size := by
            rw [← Shape.count_pair]
            exact h.small
          exact answered_of_eq_ok (intoStorage_dense hs hsmall datatype)
      | sparse => exact answered_ok _

/-- What has been put into another storage can be written out. -/
theorem Addressable.expand_intoStorage (h : m.Addressable) {kind : StorageKind}
    (hr : m.intoStorage kind = .ok r) : Answered r.expand := by
  obtain ⟨storage, datatype⟩ := m
  cases storage with
  | dense d =>
      cases kind with
      | dense =>
          cases hr
          exact answered_ok _
      | sparse =>
          have hd : d.WellFormed := h.wellFormed
          rw [intoStorage_sparse hd] at hr
          obtain ⟨s, hs, rfl⟩ := Outcome.map_eq_ok.mp hr
          -- the nonzero elements of a dense matrix have its places
          have hsmall : s.rows * s.cols < Word.size := by
            rw [← Shape.count_pair, Sparse.count_ofDense hs]
            exact h.small
          exact answered_map (answered_of_eq_ok ((Sparse.wellFormed_ofDense hs).expand_eq hsmall)) _
  | sparse s =>
      cases kind with
      | dense =>
          obtain ⟨d, -, rfl⟩ := Outcome.map_eq_ok.mp hr
          exact answered_ok _
      | sparse =>
          cases hr
          exact h.expand_answered

theorem Addressable.withOptions_answered (h : m.Addressable) (kind : Option StorageKind)
    (datatype : Option DataType) : Answered (m.withOptions kind datatype) := by
  have htag (stored : Matrix) (hstored : Answered stored.expand) (datatype : DataType) :
      Answered (stored.withDatatype datatype) := by
    refine answered_bind hstored fun data _ => ?_
    split
    · exact answered_refused rfl
    · exact answered_ok _
  cases kind with
  | none =>
      cases datatype with
      | none => exact answered_ok m
      | some datatype => exact htag m h.expand_answered datatype
  | some kind =>
      refine answered_bind (h.intoStorage_answered kind) fun stored hstored => ?_
      cases datatype with
      | none => exact answered_ok stored
      | some datatype => exact htag stored (h.expand_intoStorage hstored) datatype

theorem parseStorage_answered (token : Option String) : Answered (parseStorage token) := by
  cases token with
  | none => exact answered_ok none
  | some token =>
      refine answered_map ?_ _
      rw [StorageKind.parse]
      split
      · exact answered_ok _
      · exact answered_refused rfl

theorem parseDatatype_answered (token : Option String) : Answered (parseDatatype token) := by
  cases token with
  | none => exact answered_ok none
  | some token =>
      refine answered_map ?_ _
      rw [DataType.parse]
      split
      · exact answered_ok _
      · exact answered_refused rfl

theorem Addressable.copy_answered (h : m.Addressable) (storage datatype : Option String) :
    Answered (m.copy storage datatype) := by
  refine answered_bind (parseStorage_answered storage) fun kind _ => ?_
  refine answered_bind (parseDatatype_answered datatype) fun datatype _ => ?_
  exact h.withOptions_answered kind _

/-- Making an empty matrix. -/
theorem construct_answered (storage datatype : Option String) :
    Answered (construct none storage datatype) := by
  refine answered_bind (parseStorage_answered storage) fun kind _ => ?_
  refine answered_bind (parseDatatype_answered datatype) fun datatype _ => ?_
  have hsparse : Addressable ⟨.sparse (Sparse.zeros 0 0), none⟩ :=
    ⟨Sparse.wellFormed_zeros 0 0, by decide, by decide⟩
  cases kind with
  | none => exact addressable_empty.withOptions_answered none datatype
  | some kind =>
      cases kind with
      | dense => exact addressable_empty.withOptions_answered (some .dense) datatype
      | sparse => exact hsparse.withOptions_answered (some .sparse) datatype

/-! ### Products and powers -/

theorem factor_answered (m : Matrix) (ofVector : Nat → Nat × Nat) :
    Answered (m.factor ofVector) := by
  rw [factor]
  split
  · exact answered_ok _
  · exact answered_ok _
  · exact answered_refused rfl

/-- A factor has as many positions as the matrix it is made of. -/
theorem count_of_factor {ofVector : Nat → Nat × Nat}
    (hvector : ∀ n, (ofVector n).1 * (ofVector n).2 = n) {rows cols : Nat}
    (h : m.factor ofVector = .ok (rows, cols)) : Shape.count m.shape = rows * cols := by
  rw [factor] at h
  split at h
  · next n hshape =>
      have hrows : (ofVector n).1 = rows := congrArg Prod.fst (Except.ok.inj h)
      have hcols : (ofVector n).2 = cols := congrArg Prod.snd (Except.ok.inj h)
      rw [hshape, ← hrows, ← hcols, hvector]
      exact Nat.mul_one n
  · next rows cols hshape =>
      cases h
      rw [hshape, Shape.count_pair]
  · cases h

theorem Addressable.product_answered (ha : a.Addressable) (hb : b.Addressable) :
    Answered (a.product b) := by
  have hsize (m : Matrix) (hm : m.Addressable) : m.elements.size = Shape.count m.shape := by
    rw [hm.wellFormed.size_elements, numel, Word.product_of_lt hm.small]
  refine answered_bind (factor_answered a _) fun left hleft => ?_
  refine answered_bind (factor_answered b _) fun right hright => ?_
  obtain ⟨rows, inner⟩ := left
  obtain ⟨height, cols⟩ := right
  refine answered_ite (fun _ => answered_refused rfl) fun hfit => ?_
  obtain rfl : inner = height := not_not.mp hfit
  refine answered_bind ha.expand_answered fun x hx => ?_
  refine answered_bind hb.expand_answered fun y hy => ?_
  obtain rfl := eq_elements_of_expand hx
  obtain rfl := eq_elements_of_expand hy
  refine answered_bind (Shape.checkedCount_answered _ _) fun _ _ => ?_
  -- both factors have an element for each place that is read
  have hread : readFactors a.elements b.elements rows inner cols = .ok () := by
    rw [readFactors_eq_ok, hsize a ha, hsize b hb, count_of_factor Nat.one_mul hleft,
      count_of_factor Nat.mul_one hright]
    exact fun _ => ⟨Nat.le_refl _, Nat.le_refl _⟩
  refine answered_bind (answered_of_eq_ok hread) fun _ _ => ?_
  dsimp only
  split
  · exact answered_ok _
  · exact answered_map (ofData_answered _ _) _
  · exact answered_map (ofData_answered _ _) _
  · exact answered_map (ofData_answered _ _) _

/-- A product of matrices with two axes can be a factor again. -/
theorem Addressable.of_product (ha : a.Addressable) (hb : b.Addressable) (hrank : a.rank = 2)
    (hrank' : b.rank = 2) {v : Value} (h : a.product b = .ok v) :
    ∃ p, v = .matrix p ∧ p.Addressable ∧ p.rank = 2 := by
  obtain ⟨rows, inner, cols, hleft, hright, hcount, -⟩ :=
    fits_of_product ha.wellFormed hb.wellFormed hrank hrank' h
  rw [product_eq ha.wellFormed hb.wellFormed ha.small hb.small hleft hright hcount] at h
  obtain ⟨-, hlimit, hfew⟩ := Shape.checkedCount_eq_ok hcount
  rw [← Shape.count_pair] at hlimit hfew
  refine ⟨_, (Except.ok.inj h).symm, ⟨wellFormed_planeProduct hfew, ?_, ?_⟩, rfl⟩
  · exact Nat.le_trans hlimit (by decide)
  · rintro extent hextent
    rcases List.mem_pair.mp hextent with rfl | rfl
    · exact ha.extent_le extent (by rw [hleft]; exact List.mem_cons_self)
    · exact hb.extent_le extent (by rw [hright]; exact List.mem_cons_of_mem _ List.mem_cons_self)

theorem Addressable.timesRepeated_answered (hm : m.Addressable) (hrank : m.rank = 2) (n : Nat)
    (hr : r.Addressable) (hrank' : r.rank = 2) : Answered (timesRepeated m n r) := by
  induction n generalizing r with
  | zero => exact answered_ok r
  | succ n ih =>
      refine answered_bind (hr.product_answered hm) fun v hv => ?_
      obtain ⟨p, rfl, hp, hprank⟩ := hr.of_product hm hrank' hrank hv
      exact ih hp hprank

theorem Addressable.power_answered (hm : m.Addressable) (n : Float) : Answered (m.power n) := by
  rw [power]
  split
  · next rows cols hshape =>
      refine answered_ite (fun _ => answered_refused rfl) fun hsquare => ?_
      obtain rfl : rows = cols := not_not.mp hsquare
      refine answered_ite (fun _ => answered_refused rfl) fun _ => ?_
      -- the power starts with the diagonal matrix of the same shape
      have hsmall := hm.small
      have hcount := hm.count_le
      have hextent := hm.extent_le
      rw [hshape] at hsmall hcount hextent
      have hdiagonal : (diagonal rows rows).Addressable :=
        ⟨Dense.wellFormed_tabulate hsmall _, hcount, hextent⟩
      exact hm.timesRepeated_answered (congrArg List.length hshape) _ hdiagonal rfl
  · exact answered_refused rfl

/-! ### Selections -/

/-- A selection is read if memory for it can be asked for, and what is read can be read again. -/
theorem Addressable.subset_answered (h : m.Addressable)
    (hroom : lists.length = m.rank → Shape.count (lists.map List.length) ≤ Dense.capacity) :
    Answered (m.subset lists) ∧ ∀ r, m.subset lists = .ok r → r.WellFormed := by
  by_cases hin : Shape.Selects m.shape lists
  · obtain ⟨r, hr, hselected⟩ := h.wellFormed.subset hin (hroom hin.1)
    refine ⟨answered_of_eq_ok hr, fun r' hr' => ?_⟩
    rw [hr] at hr'
    cases hr'
    exact hselected.wellFormed
  · obtain ⟨fault, hfault⟩ := h.wellFormed.subset_refused hroom hin
    rw [hfault]
    exact ⟨answered_refused rfl, nofun⟩

theorem checkStore_answered (datatype : Option DataType) (x : Scalar) :
    Answered (checkStore datatype x) := by
  cases datatype with
  | none => exact answered_ok ()
  | some datatype => exact answered_ite (fun _ => answered_ok _) fun _ => answered_refused rfl

theorem set_dense_answered {d : Dense} (h : d.WellFormed) {position : List Nat}
    (hbelow : ∀ i ∈ position, i < Word.last) (x : Scalar) : Answered (d.set position x) := by
  by_cases hrank : position.length = d.shape.length
  · cases hgrow : d.grow position with
    | ok grown =>
        obtain ⟨written, hwritten⟩ := h.set_of_grow hrank hbelow hgrow x
        exact answered_of_eq_ok hwritten
    | error fault =>
        have hanswered : Answered (d.grow position) :=
          answered_ite (fun _ => answered_map (Shape.checkedCount_answered _ _) _)
            fun _ => answered_ok d
        rw [Dense.set, hgrow]
        rw [hgrow] at hanswered
        exact hanswered.error
  · obtain ⟨fault, hfault⟩ := Dense.set_of_rank_ne hrank x
    rw [hfault]
    exact answered_refused rfl

theorem WellFormed.set_answered (h : m.WellFormed) {position : List Nat}
    (hbelow : ∀ i ∈ position, i < Word.last) (x : Scalar) : Answered (m.set position x) := by
  obtain ⟨storage, datatype⟩ := m
  cases storage with
  | dense d =>
      refine answered_bind (checkStore_answered datatype x) fun _ _ => ?_
      refine answered_bind (set_dense_answered h hbelow x) fun written _ => ?_
      exact answered_ok _
  | sparse s =>
      refine answered_bind (checkStore_answered datatype x) fun _ _ => ?_
      split
      · exact answered_ite (fun _ => answered_refused rfl) fun _ => answered_ok _
      · exact answered_refused rfl

/-- Writes at positions that growing can reach answer one after the other. -/
theorem WellFormed.writeAll_answered (h : m.WellFormed) {writes : List (List Nat × Scalar)}
    (hbelow : ∀ write ∈ writes, ∀ i ∈ write.1, i < Word.last) :
    Answered (m.writeAll writes).1 := by
  induction writes generalizing m with
  | nil => exact answered_ok ()
  | cons write rest ih =>
      obtain ⟨position, x⟩ := write
      obtain ⟨hposition, hrest⟩ := List.forall_mem_cons.mp hbelow
      have hset := h.set_answered hposition x
      rw [Matrix.writeAll]
      cases hwritten : m.set position x with
      | ok written => exact ih (h.set (fun _ => hposition) hwritten).wellFormed hrest
      | error fault =>
          rw [hwritten] at hset
          exact hset.error

theorem WellFormed.setSubset_answered (h : m.WellFormed) (hr : r.Addressable)
    (hbelow : ∀ indices ∈ lists, ∀ i ∈ indices, i < Word.last) :
    Answered (m.setSubset lists r).1 := by
  have hassignments : Answered (m.assignments lists r) := by
    refine answered_ite (fun _ => answered_refused rfl) fun _ => ?_
    refine answered_bind hr.expand_answered fun values _ => ?_
    refine answered_bind (Shape.checkedCount_answered _ _) fun count _ => ?_
    refine answered_ite (fun _ => answered_ok _) fun _ => ?_
    exact answered_ite (fun _ => answered_refused rfl) fun _ => answered_ok _
  rw [Matrix.setSubset]
  cases hwrites : m.assignments lists r with
  | ok writes =>
      refine h.writeAll_answered fun write hwrite => ?_
      -- an index of a target is one of the list for its axis
      have htarget := mem_selection_of_assignments hwrites write hwrite
      rw [Shape.mem_selection] at htarget
      intro i hi
      obtain ⟨k, hk, rfl⟩ := List.mem_iff_getElem.mp hi
      have hlength : k < lists.length := htarget.length_eq ▸ hk
      exact hbelow _ (List.getElem_mem hlength) _ (htarget.get hk hlength)
  | error fault =>
      rw [hwrites] at hassignments
      exact hassignments.error

end Matrix

end Formula
