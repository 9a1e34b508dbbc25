import Formula.Matrix.Select
import Formula.Proofs.Matrix.Holds
import Formula.Proofs.Matrix.Simulation
import Formula.Proofs.Outcome

set_option autoImplicit false

/-! # Matrices of real numbers

A matrix gets the datatype `number` only if each of its elements is real, and from then on stores
real numbers only, however it is written to, rearranged or converted. What is checked are the
elements of the expanded matrix, so a sparse matrix has to be small enough to be expanded without
one element hiding another: tagging one with `2 ^ 64` elements or more can miss a complex number
(`tag_misses_hidden`).
-/

namespace Formula.Matrix

open Outcome

/-! ## What a matrix stores -/

/-- The elements that a matrix stores. -/
def stored (m : Matrix) : Array Scalar :=
  match m.storage with
  | .dense d => d.data
  | .sparse s => s.values

/-- Every element that a matrix stores satisfies a condition. -/
def Holds (good : Scalar → Prop) (m : Matrix) : Prop := ∀ x ∈ m.stored, good x

/-- Every element that a matrix stores is a real number. -/
def AllReal (m : Matrix) : Prop := m.Holds fun x => x.isReal = true

instance (m : Matrix) : Decidable m.AllReal :=
  inferInstanceAs (Decidable (∀ x ∈ m.stored, x.isReal = true))

section holds

variable {good : Scalar → Prop} {m : Matrix}

theorem Holds.get (h : m.Holds good) (hzero : good .zero) {position : List Nat} {x : Scalar}
    (hget : m.get position = .ok x) : good x := by
  obtain ⟨storage, datatype⟩ := m
  cases storage with
  | dense d => exact Dense.Holds.get h hzero hget
  | sparse s =>
      rw [Matrix.get] at hget
      dsimp only at hget
      split at hget
      · exact Sparse.Holds.get h hzero hget
      · cases hget

theorem Holds.toDense (h : m.Holds good) (hzero : good .zero) : m.toDense.Holds good := by
  obtain ⟨storage, datatype⟩ := m
  cases storage with
  | dense d => exact h
  | sparse s => exact Sparse.Holds.toDense h hzero

end holds

/-! ## Sound matrices -/

/-- A sparse matrix is well formed, and one of the datatype `number` stores real numbers. -/
structure Sound (m : Matrix) : Prop where
  wellFormed : ∀ s, m.storage = .sparse s → s.WellFormed
  real : m.datatype = some .number → m.AllReal

/-- A dense matrix, or a sparse one of fewer than `2 ^ 64` elements, zeros counted. -/
def Countable (m : Matrix) : Prop := m.storageKind = .sparse → Shape.count m.shape < Word.size

instance (m : Matrix) : Decidable m.Countable :=
  inferInstanceAs (Decidable (m.storageKind = .sparse → Shape.count m.shape < Word.size))

theorem isReal_zero : Scalar.zero.isReal = true := rfl

theorem isReal_conj (x : Scalar) (h : x.isReal = true) : x.conj.isReal = true := by
  cases x with
  | real x => rfl
  | complex z => exact nomatch h

section sound

variable {m r : Matrix}

/-- A matrix of another datatype may hold any numbers. -/
theorem Sound.of_datatype (hwf : ∀ s, m.storage = .sparse s → s.WellFormed)
    (h : m.datatype ≠ some .number) : m.Sound := ⟨hwf, fun htag => absurd htag h⟩

theorem sound_dense {d : Dense} {datatype : Option DataType}
    (h : datatype = some .number → d.Holds fun x => x.isReal = true) :
    Sound ⟨.dense d, datatype⟩ := ⟨nofun, h⟩

theorem sound_sparse {s : Sparse} {datatype : Option DataType} (hs : s.WellFormed)
    (h : datatype = some .number → s.Holds fun x => x.isReal = true) :
    Sound ⟨.sparse s, datatype⟩ := by
  refine ⟨fun t ht => ?_, h⟩
  cases ht
  exact hs

/-- A number is only stored if the datatype admits it. -/
theorem isReal_of_checkStore {x : Scalar} (h : checkStore (some .number) x = .ok ()) :
    x.isReal = true := by
  cases hx : x.isReal with
  | true => rfl
  | false =>
      rw [checkStore] at h
      simp only [DataType.admits, hx] at h
      exact nomatch h

/-- What a write does: the datatype admits the number, and the storage is written to. -/
theorem set_cases {position : List Nat} {x : Scalar} (h : m.set position x = .ok r) :
    (m.datatype = some .number → x.isReal = true) ∧ r.datatype = m.datatype ∧
      ((∃ d written, m.storage = .dense d ∧ d.set position x = .ok written ∧
          r.storage = .dense written) ∨
        (∃ s row col, m.storage = .sparse s ∧ position = [row, col] ∧ col < maxElements ∧
          r.storage = .sparse (s.set row col x))) := by
  have hx : ∀ {datatype : Option DataType}, checkStore datatype x = .ok () →
      datatype = some .number → x.isReal = true := by
    rintro _ hcheck rfl
    exact isReal_of_checkStore hcheck
  obtain ⟨storage, datatype⟩ := m
  unfold Matrix.set at h
  cases storage with
  | dense d =>
      obtain ⟨_, hcheck, h⟩ := bind_eq_ok.mp h
      obtain ⟨written, hwritten, h⟩ := bind_eq_ok.mp h
      cases h
      exact ⟨hx hcheck, rfl, .inl ⟨d, written, rfl, hwritten, rfl⟩⟩
  | sparse s =>
      obtain ⟨_, hcheck, h⟩ := bind_eq_ok.mp h
      -- a sparse matrix has positions of exactly two indices
      rcases position with _ | ⟨row, _ | ⟨col, _ | ⟨k, rest⟩⟩⟩
      · exact nomatch h
      · exact nomatch h
      · change (if maxElements ≤ col then _ else _) = _ at h
        split at h
        · exact nomatch h
        · next hcol =>
            cases h
            exact ⟨hx hcheck, rfl, .inr ⟨s, row, col, rfl, rfl, Nat.lt_of_not_le hcol, rfl⟩⟩
      · exact nomatch h

theorem storageKind_set {position : List Nat} {x : Scalar} (h : m.set position x = .ok r) :
    r.storageKind = m.storageKind := by
  rcases (set_cases h).2.2 with ⟨d, written, hm, -, hr⟩ | ⟨s, row, col, hm, -, -, hr⟩
  · simp only [storageKind, hm, hr]
  · simp only [storageKind, hm, hr]

theorem Sound.set (h : m.Sound) {position : List Nat} {x : Scalar}
    (hbelow : m.storageKind = .sparse → ∀ i ∈ position, i < Word.last)
    (hset : m.set position x = .ok r) : r.Sound := by
  obtain ⟨hx, htag, hstorage⟩ := set_cases hset
  obtain ⟨storage, datatype⟩ := m
  obtain ⟨storage', datatype'⟩ := r
  dsimp only at htag hx
  subst htag
  rcases hstorage with ⟨d, written, rfl, hwritten, rfl⟩ | ⟨s, row, col, rfl, rfl, hcol, rfl⟩
  · exact sound_dense fun htag => Dense.Holds.set (h.real htag) isReal_zero (hx htag) hwritten
  · have hs : s.WellFormed := h.wellFormed s rfl
    have hrow : row + 1 < Word.size :=
      Nat.add_lt_of_lt_sub (hbelow rfl row List.mem_cons_self)
    have hcol' : col + 1 < Word.size := Nat.lt_trans (Nat.succ_lt_succ hcol) (by decide)
    exact sound_sparse (hs.set hrow hcol' x) fun htag =>
      Sparse.Holds.set (h.real htag) hs hrow hcol' (hx htag)

/-- Writes are made to sound matrices one after the other. -/
theorem Sound.writeAll (h : m.Sound) {writes : List (List Nat × Scalar)}
    (hbelow : m.storageKind = .sparse → ∀ write ∈ writes, ∀ i ∈ write.1, i < Word.last) :
    (m.writeAll writes).2.Sound := by
  induction writes generalizing m with
  | nil => exact h
  | cons write writes ih =>
      obtain ⟨position, x⟩ := write
      rw [Matrix.writeAll]
      cases hset : m.set position x with
      | error fault => exact h
      | ok written =>
          have hwritten : written.Sound :=
            h.set (fun hkind => hbelow hkind _ List.mem_cons_self) hset
          refine ih hwritten fun hkind write hwrite => ?_
          rw [storageKind_set hset] at hkind
          exact hbelow hkind write (List.mem_cons_of_mem _ hwrite)

theorem Sound.setSubset (h : m.Sound) {lists : List (List Nat)} (replacement : Matrix)
    (hbelow : m.storageKind = .sparse → ∀ indices ∈ lists, ∀ i ∈ indices, i < Word.last) :
    (m.setSubset lists replacement).2.Sound := by
  rw [Matrix.setSubset]
  cases hwrites : m.assignments lists replacement with
  | error fault => exact h
  | ok writes =>
      refine h.writeAll fun hkind write hwrite => ?_
      exact lt_of_mem_selection (hbelow hkind)
        (mem_selection_of_assignments hwrites write hwrite)

/-! ## Storage and tag -/

/-- A change of storage keeps the datatype, and the elements become sparse ones or expanded
ones. -/
theorem intoStorage_cases {kind : StorageKind} (h : m.intoStorage kind = .ok r) :
    r = m ∨
      (∃ d s, m.storage = .dense d ∧ Sparse.ofDense d = .ok s ∧ r = ⟨.sparse s, m.datatype⟩) ∨
      ∃ s, m.storage = .sparse s ∧ r = ⟨.dense s.toDense, m.datatype⟩ := by
  obtain ⟨storage, datatype⟩ := m
  cases storage with
  | dense d =>
      cases kind with
      | dense => exact .inl (Except.ok.inj h).symm
      | sparse =>
          obtain ⟨-, -, h⟩ := bind_eq_ok.mp h
          obtain ⟨s, hs, h⟩ := map_eq_ok.mp h
          exact .inr (.inl ⟨d, s, rfl, hs, h.symm⟩)
  | sparse s =>
      cases kind with
      | dense =>
          obtain ⟨d, hd, h⟩ := map_eq_ok.mp h
          rw [Sparse.eq_toDense_of_expand hd] at h
          exact .inr (.inr ⟨s, rfl, h.symm⟩)
      | sparse => exact .inl (Except.ok.inj h).symm

theorem datatype_intoStorage {kind : StorageKind} (h : m.intoStorage kind = .ok r) :
    r.datatype = m.datatype := by
  rcases intoStorage_cases h with rfl | ⟨d, s, -, -, rfl⟩ | ⟨s, -, rfl⟩
  · rfl
  · rfl
  · rfl

theorem Sound.intoStorage (h : m.Sound) {kind : StorageKind} (hr : m.intoStorage kind = .ok r) :
    r.Sound := by
  obtain ⟨storage, datatype⟩ := m
  rcases intoStorage_cases hr with rfl | ⟨d, s, hd, hs, rfl⟩ | ⟨s, hs, rfl⟩
  · exact h
  · cases hd
    exact sound_sparse (Sparse.wellFormed_ofDense hs) fun htag =>
      Sparse.holds_ofDense (h.real htag) isReal_zero hs
  · cases hs
    exact sound_dense fun htag => Sparse.Holds.toDense (h.real htag) isReal_zero

/-- The number of elements stays the same, also where a vector becomes a column. -/
theorem count_intoStorage {kind : StorageKind} (h : m.intoStorage kind = .ok r) :
    Shape.count r.shape = Shape.count m.shape := by
  obtain ⟨storage, datatype⟩ := m
  rcases intoStorage_cases h with rfl | ⟨d, s, hd, hs, rfl⟩ | ⟨s, hs, rfl⟩
  · rfl
  · cases hd
    exact Sparse.count_ofDense hs
  · cases hs
    rfl

/-- A tag is set if all elements fit it, and nothing else changes. -/
theorem withDatatype_cases {datatype : DataType} (h : m.withDatatype datatype = .ok r) :
    (∀ x ∈ m.elements, datatype.admits x = true) ∧ r = { m with datatype := some datatype } := by
  obtain ⟨data, hdata, h⟩ := bind_eq_ok.mp h
  obtain rfl := eq_elements_of_expand hdata
  cases hfind : m.elements.find? fun x => !datatype.admits x with
  | some x =>
      rw [hfind] at h
      exact nomatch h
  | none =>
      rw [hfind] at h
      refine ⟨fun x hx => ?_, (Except.ok.inj h).symm⟩
      simpa using Array.find?_eq_none.mp hfind x hx

/-- In a matrix that can be counted, all elements are real if those of its expansion are. -/
theorem Sound.allReal_of_elements (h : m.Sound) (hcountable : m.Countable)
    (helements : ∀ x ∈ m.elements, x.isReal = true) : m.AllReal := by
  obtain ⟨storage, datatype⟩ := m
  cases storage with
  | dense d => exact helements
  | sparse s =>
      have hsmall : Shape.count [s.rows, s.cols] < Word.size := hcountable rfl
      rw [Shape.count_pair] at hsmall
      exact (h.wellFormed s rfl).holds_of_toDense hsmall helements

/-- A tag that is new needs a matrix that can be counted. -/
theorem Sound.withDatatype (h : m.Sound) {datatype : DataType}
    (hr : m.withDatatype datatype = .ok r)
    (hcountable : m.datatype ≠ some .number → r.datatype = some .number → r.Countable) :
    r.Sound := by
  obtain ⟨hadmits, rfl⟩ := withDatatype_cases hr
  refine ⟨h.wellFormed, fun htag => ?_⟩
  by_cases hold : m.datatype = some .number
  · exact h.real hold
  · cases htag
    exact h.allReal_of_elements (hcountable hold rfl) hadmits

theorem withOptions_cases {kind : Option StorageKind} {datatype : Option DataType}
    (h : m.withOptions kind datatype = .ok r) :
    ∃ stored, (stored = m ∨ ∃ kind, m.intoStorage kind = .ok stored) ∧
      (r = stored ∧ datatype = none ∨
        ∃ tag, datatype = some tag ∧ stored.withDatatype tag = .ok r) := by
  cases kind with
  | none =>
      refine ⟨m, .inl rfl, ?_⟩
      cases datatype with
      | none => exact .inl ⟨(Except.ok.inj h).symm, rfl⟩
      | some tag => exact .inr ⟨tag, rfl, h⟩
  | some kind =>
      obtain ⟨stored, hstored, h⟩ := bind_eq_ok.mp h
      refine ⟨stored, .inr ⟨kind, hstored⟩, ?_⟩
      cases datatype with
      | none => exact .inl ⟨(Except.ok.inj h).symm, rfl⟩
      | some tag => exact .inr ⟨tag, rfl, h⟩

/-- Options give the tag asked for, or leave the old one. -/
theorem datatype_withOptions {kind : Option StorageKind} {datatype : Option DataType}
    (h : m.withOptions kind datatype = .ok r) : r.datatype = datatype.or m.datatype := by
  obtain ⟨stored, hstored, ⟨rfl, rfl⟩ | ⟨tag, rfl, htag⟩⟩ := withOptions_cases h
  · rcases hstored with rfl | ⟨kind, hkind⟩
    · rfl
    · exact datatype_intoStorage hkind
  · rw [(withDatatype_cases htag).2]
    rfl

theorem count_withOptions {kind : Option StorageKind} {datatype : Option DataType}
    (h : m.withOptions kind datatype = .ok r) : Shape.count r.shape = Shape.count m.shape := by
  obtain ⟨stored, hstored, hr⟩ := withOptions_cases h
  have hcount : Shape.count stored.shape = Shape.count m.shape := by
    rcases hstored with rfl | ⟨kind, hkind⟩
    · rfl
    · exact count_intoStorage hkind
  rcases hr with ⟨rfl, -⟩ | ⟨tag, -, htag⟩
  · exact hcount
  · rw [← hcount, (withDatatype_cases htag).2]
    rfl

theorem Sound.withOptions (h : m.Sound) {kind : Option StorageKind} {datatype : Option DataType}
    (hr : m.withOptions kind datatype = .ok r)
    (hcountable : m.datatype ≠ some .number → r.datatype = some .number → r.Countable) :
    r.Sound := by
  obtain ⟨stored, hstored, hr⟩ := withOptions_cases hr
  have hsound : stored.Sound ∧ stored.datatype = m.datatype := by
    rcases hstored with rfl | ⟨kind, hkind⟩
    · exact ⟨h, rfl⟩
    · exact ⟨h.intoStorage hkind, datatype_intoStorage hkind⟩
  rcases hr with ⟨rfl, -⟩ | ⟨tag, -, htag⟩
  · exact hsound.1
  · exact hsound.1.withDatatype htag (hsound.2 ▸ hcountable)

/-! ## Selections, maps and transposition -/

/-- A selection is a dense matrix of elements read, put into the storage of the matrix. -/
theorem subset_cases {lists : List (List Nat)} (h : m.subset lists = .ok r) :
    ∃ data, (Shape.selection lists).mapM m.get = .ok data ∧
      intoStorage ⟨.dense ⟨lists.map List.length, data.toArray⟩, m.datatype⟩ m.storageKind
        = .ok r := by
  rw [subset] at h
  split at h
  · obtain ⟨-, -, h⟩ := bind_eq_ok.mp h
    obtain ⟨data, hdata, h⟩ := bind_eq_ok.mp h
    obtain ⟨selected, hselected, h⟩ := bind_eq_ok.mp h
    obtain ⟨-, rfl⟩ := Dense.ofData_eq_ok_iff_size.mp hselected
    exact ⟨data, hdata, h⟩
  · cases h

theorem datatype_subset {lists : List (List Nat)} (h : m.subset lists = .ok r) :
    r.datatype = m.datatype := by
  obtain ⟨data, -, hr⟩ := subset_cases h
  have hselected := datatype_intoStorage hr
  exact hselected

theorem Sound.subset (h : m.Sound) {lists : List (List Nat)} (hr : m.subset lists = .ok r) :
    r.Sound := by
  obtain ⟨data, hdata, hr⟩ := subset_cases hr
  refine Sound.intoStorage (sound_dense fun htag x hx => ?_) hr
  obtain ⟨position, -, hget⟩ := of_mem_mapM hdata (List.mem_toArray.mp hx)
  exact Holds.get (h.real htag) isReal_zero hget

theorem datatype_map (m : Matrix) (f : Scalar → Scalar) : (m.map f).datatype = none := by
  obtain ⟨storage, datatype⟩ := m
  rw [Matrix.map]
  cases storage with
  | dense d => rfl
  | sparse s =>
      dsimp only
      split
      · split
        · rfl
        · rfl
      · rfl

/-- A map forgets the datatype. -/
theorem sound_map (m : Matrix) (f : Scalar → Scalar) : (m.map f).Sound := by
  refine .of_datatype (fun s hs => ?_) (by rw [datatype_map]; exact nofun)
  obtain ⟨storage, datatype⟩ := m
  cases storage with
  | dense d => exact nomatch hs
  | sparse t =>
      rw [Matrix.map] at hs
      dsimp only at hs
      split at hs
      · split at hs
        · next hsparse =>
            cases hs
            exact Sparse.wellFormed_ofDense hsparse
        · exact nomatch hs
      · exact nomatch hs

/-- Transposition exchanges rows and columns, or keeps the shape of a vector. -/
theorem transposeWith_cases {f : Scalar → Scalar} (h : m.transposeWith f = .ok r) :
    (∃ d, m.storage = .dense d ∧ (r = ⟨.dense (d.map f), m.datatype⟩ ∨
        ∃ rows cols, r = ⟨.dense (d.transpose rows cols f), m.datatype⟩)) ∨
      ∃ s, m.storage = .sparse s ∧ r = ⟨.sparse (s.transpose f), m.datatype⟩ := by
  obtain ⟨storage, datatype⟩ := m
  unfold transposeWith at h
  cases storage with
  | dense d =>
      dsimp only at h
      split at h
      · exact .inl ⟨d, rfl, .inl (Except.ok.inj h).symm⟩
      · exact .inl ⟨d, rfl, .inl (Except.ok.inj h).symm⟩
      -- only with two axes there are rows and columns to exchange
      · next rows cols _ =>
          split at h
          · exact nomatch h
          · obtain ⟨-, -, h⟩ := map_eq_ok.mp h
            exact .inl ⟨d, rfl, .inr ⟨rows, cols, h.symm⟩⟩
      · exact nomatch h
  | sparse s =>
      dsimp only at h
      split at h
      · exact nomatch h
      · exact .inr ⟨s, rfl, (Except.ok.inj h).symm⟩

theorem datatype_transposeWith {f : Scalar → Scalar} (h : m.transposeWith f = .ok r) :
    r.datatype = m.datatype := by
  rcases transposeWith_cases h with ⟨d, -, rfl | ⟨rows, cols, rfl⟩⟩ | ⟨s, -, rfl⟩
  · rfl
  · rfl
  · rfl

/-- Transposition keeps a matrix sound, also one that computes real numbers from real ones. -/
theorem Sound.transposeWith (h : m.Sound) {f : Scalar → Scalar}
    (hzero : ∀ x, (f x).isZero = x.isZero) (hreal : ∀ x, x.isReal = true → (f x).isReal = true)
    (hr : m.transposeWith f = .ok r) : r.Sound := by
  obtain ⟨storage, datatype⟩ := m
  rcases transposeWith_cases hr with ⟨d, hd, rfl | ⟨rows, cols, rfl⟩⟩ | ⟨s, hs, rfl⟩
  · cases hd
    exact sound_dense fun htag => Dense.Holds.map (h.real htag) hreal
  · cases hd
    exact sound_dense fun htag => Dense.Holds.transpose (h.real htag) isReal_zero hreal rows cols
  · cases hs
    have hwf : s.WellFormed := h.wellFormed s rfl
    exact sound_sparse (hwf.transpose hzero) fun htag =>
      Sparse.Holds.transpose (h.real htag) hwf hreal

end sound

end Formula.Matrix
