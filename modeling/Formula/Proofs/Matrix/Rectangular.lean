import Formula.Proofs.Matrix.Dense

set_option autoImplicit false

/-! # Rectangular sequences

A nested sequence has levels: the sequence itself, its items, the items of these, and so on. It is
rectangular if on each level there are sequences of one length or only numbers. Its shape is found
by following the first items and comparing the rest with them, its elements by a walk over all
numbers. Both agree with the levels: there is a shape exactly if the sequence is rectangular, the
extents are the lengths on the levels (`length?_of_mem_level`), and the place of a position is that
of the number which the position leads to (`follow_eq_scalar_iff`).
-/

namespace Formula

namespace Nested

/-- The items on a level of nesting; on level zero there is the sequence itself. -/
def level : Nat → Nested → List Nested
  | 0, n => [n]
  | _ + 1, .scalar _ => []
  | k + 1, .seq items => items.flatMap (level k)

/-- The number of items of a sequence. A number has none. -/
def length? : Nested → Option Nat
  | .scalar _ => none
  | .seq items => some items.length

/-- On each level the first sequence has what the second one has: sequences of one length, or only
numbers. -/
def Conform (a b : Nested) : Prop := ∀ k, ∀ x ∈ a.level k, ∀ y ∈ b.level k, x.length? = y.length?

/-- All sequences on a level have the same length, and there are no numbers beside them. -/
def Rectangular (n : Nested) : Prop := Conform n n

mutual

/-- The number of levels on which there are sequences. -/
def depth : Nested → Nat
  | .scalar _ => 0
  | .seq items => depthAll items + 1

/-- The largest depth of several items. -/
def depthAll : List Nested → Nat
  | [] => 0
  | item :: rest => max (depth item) (depthAll rest)

end

/-- The item that a position leads to, one index for each level. -/
def follow : List Nat → Nested → Option Nested
  | [], n => some n
  | _ :: _, .scalar _ => none
  | i :: is, .seq items => items[i]?.bind (follow is)

mutual

/-- What holds of numbers, and of a sequence whenever it holds of its items, holds of every nested
sequence. -/
theorem items_induction {motive : Nested → Prop} (scalar : ∀ x, motive (.scalar x))
    (seq : ∀ items, (∀ item ∈ items, motive item) → motive (.seq items)) :
    (n : Nested) → motive n
  | .scalar x => scalar x
  | .seq items => seq items (items_induction_all scalar seq items)

theorem items_induction_all {motive : Nested → Prop} (scalar : ∀ x, motive (.scalar x))
    (seq : ∀ items, (∀ item ∈ items, motive item) → motive (.seq items)) :
    (items : List Nested) → ∀ item ∈ items, motive item
  | [] => nofun
  | item :: rest => List.forall_mem_cons.mpr
      ⟨items_induction scalar seq item, items_induction_all scalar seq rest⟩

end

/-! ## Shapes -/

/-- Items that are compared with a shape have it. -/
theorem shape_of_sameShape {inner : List Nat} {items : List Nested}
    (h : sameShape inner items = .ok ()) : ∀ item ∈ items, item.shape = .ok inner := by
  induction items with
  | nil => exact nofun
  | cons item rest ih =>
      rw [sameShape, Outcome.bind_eq_ok] at h
      obtain ⟨other, hitem, h⟩ := h
      split at h
      · next hsame => exact List.forall_mem_cons.mpr ⟨hsame ▸ hitem, ih h⟩
      · cases h

/-- An empty sequence has the extent zero. Other sequences have a shape exactly if all their items
have one shape, which then stands behind their number. -/
theorem shape_seq_eq_ok_iff {items : List Nested} {shape : List Nat} :
    (Nested.seq items).shape = .ok shape ↔
      (items = [] ∧ shape = [0]) ∨
        ∃ inner, items ≠ [] ∧ (∀ item ∈ items, item.shape = .ok inner) ∧
          shape = items.length :: inner := by
  constructor
  · intro h
    cases items with
    | nil => exact Or.inl ⟨rfl, (Except.ok.inj h).symm⟩
    | cons first rest =>
        rw [Nested.shape, Outcome.bind_eq_ok] at h
        obtain ⟨inner, hfirst, h⟩ := h
        obtain ⟨_, hrest, h⟩ := Outcome.bind_eq_ok.mp h
        -- the first item has the shape that the others are compared with
        have hall : ∀ item ∈ first :: rest, item.shape = .ok inner :=
          List.forall_mem_cons.mpr ⟨hfirst, shape_of_sameShape hrest⟩
        exact Or.inr ⟨inner, List.cons_ne_nil first rest, hall, (Except.ok.inj h).symm⟩
  · rintro (⟨rfl, rfl⟩ | ⟨inner, hne, hall, rfl⟩)
    · rfl
    · exact Dense.shape_seq hne hall

/-- Items that cannot be compared with a shape have another one, or none themselves. -/
theorem sameShape_eq_error {inner : List Nat} {items : List Nested}
    (hitems : ∀ item ∈ items, ∀ fault, item.shape = .error fault → ∃ why, fault = .dimension why)
    {fault : EvalError} (h : sameShape inner items = .error fault) :
    ∃ why, fault = .dimension why := by
  induction items with
  | nil => cases h
  | cons item rest ih =>
      obtain ⟨hitem, hrest⟩ := List.forall_mem_cons.mp hitems
      rw [sameShape] at h
      rcases Outcome.bind_eq_error.mp h with hfault | ⟨other, -, hother⟩
      · exact hitem fault hfault
      · split at hother
        · exact ih hrest hother
        · cases hother
          exact ⟨_, rfl⟩

/-- A nested sequence without a shape has items of two shapes somewhere. -/
theorem shape_eq_error (n : Nested) {fault : EvalError} (h : n.shape = .error fault) :
    ∃ why, fault = .dimension why := by
  induction n using items_induction generalizing fault with
  | scalar x => cases h
  | seq items ih =>
      cases items with
      | nil => cases h
      | cons first rest =>
          obtain ⟨hfirst, hrest⟩ := List.forall_mem_cons.mp ih
          rw [Nested.shape] at h
          rcases Outcome.bind_eq_error.mp h with hfault | ⟨inner, -, h⟩
          · exact hfirst hfault
          · rcases Outcome.bind_eq_error.mp h with hfault | ⟨_, -, h⟩
            · exact sameShape_eq_error (fun item hitem _ => hrest item hitem) hfault
            · cases h

/-! ## Levels -/

variable {n : Nested} {shape : List Nat}

/-- The extents are the lengths on the levels, and behind them there are only numbers. -/
theorem length?_of_mem_level (h : n.shape = .ok shape) (k : Nat) :
    ∀ item ∈ n.level k, item.length? = shape[k]? := by
  induction n using items_induction generalizing shape k with
  | scalar x =>
      cases h
      cases k with
      | zero => exact List.forall_mem_singleton.mpr rfl
      | succ k => exact nofun
  | seq items ih =>
      rcases shape_seq_eq_ok_iff.mp h with ⟨rfl, rfl⟩ | ⟨inner, -, hall, rfl⟩
      · cases k with
        | zero => exact List.forall_mem_singleton.mpr rfl
        | succ k => exact nofun
      · cases k with
        | zero => exact List.forall_mem_singleton.mpr rfl
        | succ k =>
            -- a level of the sequence is the level above of one of its items
            intro x hx
            obtain ⟨item, hitem, hx⟩ := List.mem_flatMap.mp hx
            exact ih item hitem (hall item hitem) k x hx

/-- On each level that has an extent there is something. -/
theorem level_ne_nil (h : n.shape = .ok shape) {k : Nat} (hk : k < shape.length) :
    n.level k ≠ [] := by
  induction n using items_induction generalizing shape k with
  | scalar x =>
      cases h
      exact absurd hk (Nat.not_lt_zero k)
  | seq items ih =>
      cases k with
      | zero => exact List.cons_ne_nil _ _
      | succ k =>
          rcases shape_seq_eq_ok_iff.mp h with ⟨rfl, rfl⟩ | ⟨inner, hne, hall, rfl⟩
          · exact absurd (Nat.lt_of_succ_lt_succ hk) (Nat.not_lt_zero k)
          · obtain ⟨first, hfirst⟩ := List.exists_mem_of_ne_nil items hne
            intro hnil
            refine ih first hfirst (hall first hfirst) (Nat.lt_of_succ_lt_succ hk) ?_
            exact List.flatMap_eq_nil_iff.mp hnil first hfirst

/-- Items of one depth, at least one of them, have this depth together. -/
theorem depthAll_of_forall {items : List Nested} {d : Nat} (hne : items ≠ [])
    (h : ∀ item ∈ items, item.depth = d) : depthAll items = d := by
  induction items with
  | nil => exact absurd rfl hne
  | cons item rest ih =>
      obtain ⟨hitem, hrest⟩ := List.forall_mem_cons.mp h
      rw [depthAll, hitem]
      by_cases hnil : rest = []
      · subst hnil
        exact Nat.max_zero d
      · rw [ih hnil hrest, Nat.max_self]

/-- The depth is the number of extents. -/
theorem depth_of_shape (h : n.shape = .ok shape) : n.depth = shape.length := by
  induction n using items_induction generalizing shape with
  | scalar x =>
      cases h
      rfl
  | seq items ih =>
      rcases shape_seq_eq_ok_iff.mp h with ⟨rfl, rfl⟩ | ⟨inner, hne, hall, rfl⟩
      · rfl
      · have hdepth : ∀ item ∈ items, item.depth = inner.length := fun item hitem =>
          ih item hitem (hall item hitem)
        rw [depth, depthAll_of_forall hne hdepth, List.length_cons]

/-- Sequences that conform have the same shape, as far as they have one. -/
theorem shape_eq_of_conform {a b : Nested} {s t : List Nat} (h : Conform a b)
    (ha : a.shape = .ok s) (hb : b.shape = .ok t) : s = t := by
  induction a using items_induction generalizing b s t with
  | scalar x =>
      have hlength := h 0 _ List.mem_cons_self b List.mem_cons_self
      cases b with
      | scalar y =>
          cases ha
          cases hb
          rfl
      | seq items => cases hlength
  | seq items ih =>
      have hlength := h 0 _ List.mem_cons_self b List.mem_cons_self
      cases b with
      | scalar y => cases hlength
      | seq items' =>
          have hsame : items.length = items'.length := Option.some.inj hlength
          rcases shape_seq_eq_ok_iff.mp ha with ⟨rfl, rfl⟩ | ⟨inner, hne, hall, rfl⟩
          · have hnil : items' = [] := List.eq_nil_of_length_eq_zero hsame.symm
            subst hnil
            exact Except.ok.inj hb
          · rcases shape_seq_eq_ok_iff.mp hb with ⟨rfl, rfl⟩ | ⟨inner', hne', hall', rfl⟩
            · exact absurd (List.eq_nil_of_length_eq_zero hsame) hne
            · obtain ⟨first, hfirst⟩ := List.exists_mem_of_ne_nil items hne
              obtain ⟨first', hfirst'⟩ := List.exists_mem_of_ne_nil items' hne'
              -- the levels of an item are among the levels of the sequence, one further down
              have hitems : Conform first first' := fun k x hx y hy =>
                h (k + 1) x (List.mem_flatMap.mpr ⟨first, hfirst, hx⟩) y
                  (List.mem_flatMap.mpr ⟨first', hfirst', hy⟩)
              rw [hsame, ih first hfirst hitems (hall first hfirst) (hall' first' hfirst')]

/-- There is a shape exactly if the sequence is rectangular. -/
theorem exists_shape_iff (n : Nested) : (∃ shape, n.shape = .ok shape) ↔ n.Rectangular := by
  constructor
  · rintro ⟨shape, hshape⟩ k x hx y hy
    rw [length?_of_mem_level hshape k x hx, length?_of_mem_level hshape k y hy]
  · intro h
    induction n using items_induction with
    | scalar x => exact ⟨[], rfl⟩
    | seq items ih =>
        -- two items have the same lengths on every level, as they are one level below the sequence
        have hconform : ∀ a ∈ items, ∀ b ∈ items, Conform a b := fun a ha b hb k x hx y hy =>
          h (k + 1) x (List.mem_flatMap.mpr ⟨a, ha, hx⟩) y (List.mem_flatMap.mpr ⟨b, hb, hy⟩)
        by_cases hne : items = []
        · subst hne
          exact ⟨[0], rfl⟩
        -- so all of them have the shape that the first one has
        · obtain ⟨first, hfirst⟩ := List.exists_mem_of_ne_nil items hne
          obtain ⟨inner, hinner⟩ := ih first hfirst (hconform first hfirst first hfirst)
          have hall : ∀ item ∈ items, item.shape = .ok inner := by
            intro item hitem
            obtain ⟨shape, hshape⟩ := ih item hitem (hconform item hitem item hitem)
            rw [hshape, shape_eq_of_conform (hconform item hitem first hfirst) hshape hinner]
          exact ⟨items.length :: inner, shape_seq_eq_ok_iff.mpr (Or.inr ⟨inner, hne, hall, rfl⟩)⟩

/-! ## Numbers -/

/-- Where all items have the same number of leaves, the leaves of an item stand together. -/
theorem getElem?_leavesAll {items : List Nested} {size : Nat}
    (h : ∀ item ∈ items, item.leaves.length = size) (i : Nat) {j : Nat} (hj : j < size) :
    (leavesAll items)[i * size + j]? = items[i]?.bind fun item => item.leaves[j]? := by
  induction items generalizing i with
  | nil => rfl
  | cons item rest ih =>
      obtain ⟨hitem, hrest⟩ := List.forall_mem_cons.mp h
      rw [leavesAll]
      cases i with
      | zero =>
          rw [Nat.zero_mul, Nat.zero_add, List.getElem?_append_left (by omega)]
          rfl
      | succ i =>
          -- the leaves of the first item are left behind
          have hplace : (i + 1) * size + j = item.leaves.length + (i * size + j) := by
            rw [hitem, Nat.succ_mul]
            omega
          rw [hplace, List.getElem?_append_right (Nat.le_add_right _ _), Nat.add_sub_cancel_left,
            ih hrest i]
          rfl

/-- A position leads to a number if it lies inside the shape, and then to the leaf at its place. -/
theorem follow_eq_scalar_iff (h : n.shape = .ok shape) (position : List Nat) (x : Scalar) :
    n.follow position = some (.scalar x) ↔
      Shape.contains shape position = true ∧ n.leaves[Shape.place shape position]? = some x := by
  induction n using items_induction generalizing shape position with
  | scalar y =>
      cases h
      cases position with
      | nil => simp [follow, Shape.contains, leaves, Shape.place]
      | cons i is => simp [follow, Shape.contains]
  | seq items ih =>
      rcases shape_seq_eq_ok_iff.mp h with ⟨rfl, rfl⟩ | ⟨inner, -, hall, rfl⟩
      · cases position with
        | nil => simp [follow, Shape.contains]
        | cons i is => simp [follow, Shape.contains]
      · cases position with
        | nil => simp [follow, Shape.contains]
        | cons i is =>
            have hsize : ∀ item ∈ items, item.leaves.length = Shape.count inner :=
              fun item hitem => length_leaves item (hall item hitem)
            cases hitem : items[i]? with
            | none =>
                have hout : ¬i < items.length := by
                  rwa [List.getElem?_eq_none_iff, ← Nat.not_lt] at hitem
                simp [follow, Shape.contains, hout]
            | some item =>
                obtain ⟨hi, -⟩ := List.getElem?_eq_some_iff.mp hitem
                have hmem : item ∈ items := List.mem_of_getElem? hitem
                have hfollow : follow (i :: is) (.seq items) = item.follow is := by
                  rw [follow, hitem, Option.bind_some]
                -- the first index leads to an item, the others go on from there
                have hcontains : Shape.contains (items.length :: inner) (i :: is)
                    = Shape.contains inner is := by
                  rw [Shape.contains, decide_eq_true hi, Bool.true_and]
                rw [hfollow, hcontains, ih item hmem (hall item hmem) is]
                refine and_congr_right fun hin => ?_
                rw [leaves, Shape.place, getElem?_leavesAll hsize i (Shape.place_lt hin), hitem,
                  Option.bind_some]

end Nested

namespace Matrix

/-- A matrix has the extents and the numbers of a nested sequence. -/
structure Arranges (m : Matrix) (n : Nested) : Prop where
  storageKind : m.storageKind = .dense
  datatype : m.datatype = none
  rank : m.rank = n.depth
  extent : ∀ k < m.rank, n.level k ≠ [] ∧ ∀ item ∈ n.level k, item.length? = m.shape[k]?
  size : m.elements.size = Shape.count m.shape
  get : ∀ position x, m.get position = .ok x ↔ n.follow position = some (.scalar x)

/-- What is made of a nested sequence has its extents and numbers. -/
theorem arranges_of_ofNested {m : Matrix} {n : Nested} (h : ofNested n = .ok m) :
    m.Arranges n := by
  obtain ⟨items, shape, -, hshape, hsmall, rfl⟩ := ofNested_eq_ok_iff.mp h
  have hlength : n.leaves.length = Shape.count shape := Nested.length_leaves n hshape
  have hd : Dense.WellFormed ⟨shape, n.leaves.toArray⟩ := ⟨hlength, hsmall⟩
  refine
    { storageKind := rfl
      datatype := rfl
      rank := (Nested.depth_of_shape hshape).symm
      extent := fun k hk =>
        ⟨Nested.level_ne_nil hshape hk, Nested.length?_of_mem_level hshape k⟩
      size := hlength
      get := fun position x => ?_ }
  -- both sides find the leaf at the place of the position, or nothing outside
  rw [Nested.follow_eq_scalar_iff hshape]
  show Dense.get _ position = .ok x ↔ _
  by_cases hin : Shape.contains shape position = true
  · have hplace : Shape.place shape position < n.leaves.length := by
      rw [hlength]
      exact Shape.place_lt hin
    rw [hd.get_eq hin]
    simp [hin, Dense.entry, hplace]
  · obtain ⟨fault, hfault⟩ := Dense.get_outside (d := ⟨shape, n.leaves.toArray⟩) hin
    simp [hin, hfault]

/-- A sequence that is refused has items of two shapes, or more numbers than a word counts. -/
theorem ofNested_eq_error {items : List Nested} {fault : EvalError}
    (h : ofNested (.seq items) = .error fault) : ∃ why, fault = .dimension why := by
  rw [ofNested] at h
  rcases Outcome.bind_eq_error.mp h with hfault | ⟨shape, -, hdata⟩
  · exact Nested.shape_eq_error _ hfault
  · rw [ofData, Dense.ofData] at hdata
    split at hdata
    · cases hdata
    · cases hdata
      exact ⟨_, rfl⟩

/-- A matrix is made of exactly the rectangular sequences (of fewer numbers than a word counts), and
has their extents and numbers. A bare number is refused for its type, any other sequence for its
dimensions. -/
theorem ofNested_rectangular (n : Nested) (hsmall : n.leaves.length < Word.size) :
    ((∃ m, ofNested n = .ok m) ↔ (∃ items, n = .seq items) ∧ n.Rectangular) ∧
      (∀ m, ofNested n = .ok m → m.Arranges n) ∧
      (∀ x, n = .scalar x → ∃ why, ofNested n = .error (.type why)) ∧
      ∀ items fault, n = .seq items → ofNested n = .error fault →
        ∃ why, fault = .dimension why := by
  refine ⟨?_, fun m hm => arranges_of_ofNested hm, ?_, ?_⟩
  · rw [← Nested.exists_shape_iff]
    constructor
    · rintro ⟨m, hm⟩
      obtain ⟨items, shape, hseq, hshape, -⟩ := ofNested_eq_ok_iff.mp hm
      exact ⟨⟨items, hseq⟩, shape, hshape⟩
    · rintro ⟨⟨items, hseq⟩, shape, hshape⟩
      -- a sequence that has a shape fails only for its count, which is that of the leaves
      rw [Nested.length_leaves n hshape] at hsmall
      exact ⟨_, ofNested_eq_ok_iff.mpr ⟨items, shape, hseq, hshape, hsmall, rfl⟩⟩
  · rintro x rfl
    exact ⟨_, rfl⟩
  · rintro items fault rfl hfault
    exact ofNested_eq_error hfault

/-- Two rows of two numbers make a matrix; a row of an empty row beside an empty one does not. -/
theorem ofNested_rectangular_rows :
    let i := Scalar.complex ⟨0, 1⟩
    let n := Nested.seq [.seq [.scalar (.real 1), .scalar i],
      .seq [.scalar (.real 2), .scalar (.real 3)]]
    let ragged := Nested.seq [.seq [.seq []], .seq []]
    n.leaves.length < Word.size ∧ ragged.leaves.length < Word.size ∧ n.Rectangular ∧
      (∃ m, ofNested n = .ok m ∧ m.Arranges n ∧ m.get [0, 1] = .ok i) ∧
      ¬ragged.Rectangular ∧ ∃ why, ofNested ragged = .error (.dimension why) := by
  intro i n ragged
  have hsmall : n.leaves.length < Word.size := by decide
  have hsmall' : ragged.leaves.length < Word.size := by decide
  have hn : n.Rectangular := (Nested.exists_shape_iff n).mp ⟨[2, 2], rfl⟩
  obtain ⟨haccepts, harranges, -⟩ := ofNested_rectangular n hsmall
  obtain ⟨m, hm⟩ := haccepts.mpr ⟨⟨_, rfl⟩, hn⟩
  have hm' := harranges m hm
  have hi : m.get [0, 1] = .ok i := (hm'.get [0, 1] i).mpr rfl
  -- on level one there are a sequence of one item and one without items
  have hragged : ¬ragged.Rectangular := fun h => by
    have hlength := h 1 (.seq [.seq []]) (by simp [ragged, Nested.level]) (.seq [])
      (by simp [ragged, Nested.level])
    cases hlength
  obtain ⟨-, -, -, hrefused⟩ := ofNested_rectangular ragged hsmall'
  cases hfault : ofNested ragged with
  | ok m' => cases hfault
  | error fault =>
      obtain ⟨why, rfl⟩ := hrefused _ fault rfl hfault
      exact ⟨hsmall, hsmall', hn, ⟨m, hm, hm', hi⟩, hragged, why, rfl⟩

end Matrix

end Formula
