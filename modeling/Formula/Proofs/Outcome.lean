import Mathlib.Data.List.Forall2

set_option autoImplicit false

/-! # Computations that may fail

A sequence of computations succeeds exactly if each of them does. The lemmas take such a sequence
apart, so that a proof about a success has the results of all its steps. A computation that keeps a
state as well goes on from the state that a step leaves. Two computations are `Alike` if both
succeed with related results or both fail, for whatever reasons.
-/

namespace Formula.Outcome

variable {ε α β ι : Type}

theorem bind_eq_ok {x : Except ε α} {f : α → Except ε β} {b : β} :
    (x >>= f) = .ok b ↔ ∃ a, x = .ok a ∧ f a = .ok b := by
  cases x with
  | error e =>
      refine iff_of_false nofun ?_
      rintro ⟨a, ha, -⟩
      exact nomatch ha
  | ok a =>
      constructor
      · intro h
        exact ⟨a, rfl, h⟩
      · rintro ⟨a', ha, hb⟩
        cases ha
        exact hb

theorem bind_eq_error {x : Except ε α} {f : α → Except ε β} {e : ε} :
    (x >>= f) = .error e ↔ x = .error e ∨ ∃ a, x = .ok a ∧ f a = .error e := by
  cases x with
  | error e' =>
      constructor
      · intro h
        cases h
        exact Or.inl rfl
      · rintro (h | ⟨a, ha, -⟩)
        · cases h
          rfl
        · cases ha
  | ok a =>
      constructor
      · intro h
        exact Or.inr ⟨a, rfl, h⟩
      · rintro (h | ⟨a', ha, h⟩)
        · cases h
        · cases ha
          exact h

theorem map_eq_ok {x : Except ε α} {f : α → β} {b : β} :
    x.map f = .ok b ↔ ∃ a, x = .ok a ∧ f a = b := by
  cases x with
  | error e =>
      refine iff_of_false nofun ?_
      rintro ⟨a, ha, -⟩
      exact nomatch ha
  | ok a =>
      constructor
      · intro h
        exact ⟨a, rfl, Except.ok.inj h⟩
      · rintro ⟨a', ha, rfl⟩
        cases ha
        rfl

theorem map_of_bind {γ : Type} (x : Except ε α) (k : α → Except ε β) (f : β → γ) :
    (x >>= k).map f = x >>= fun a => (k a).map f := by
  cases x with
  | error e => rfl
  | ok a => rfl

/-- The results for several items are results for each of them. -/
theorem mapM_eq_ok {f : ι → Except ε α} {items : List ι} {as : List α} :
    items.mapM f = .ok as ↔ List.Forall₂ (fun item a => f item = .ok a) items as := by
  induction items generalizing as with
  | nil =>
      rw [List.forall₂_nil_left_iff]
      constructor
      · intro h
        exact (Except.ok.inj h).symm
      · rintro rfl
        rfl
  | cons item items ih =>
      rw [List.mapM_cons, bind_eq_ok, List.forall₂_cons_left_iff]
      constructor
      · rintro ⟨a, ha, h⟩
        obtain ⟨rest, hrest, h⟩ := bind_eq_ok.mp h
        exact ⟨a, rest, ha, ih.mp hrest, (Except.ok.inj h).symm⟩
      · rintro ⟨a, rest, ha, hrest, rfl⟩
        exact ⟨a, ha, bind_eq_ok.mpr ⟨rest, ih.mpr hrest, rfl⟩⟩

/-- A result is the result for one of the items. -/
theorem of_mem_mapM {f : ι → Except ε α} {items : List ι} {as : List α}
    (h : items.mapM f = .ok as) {a : α} (ha : a ∈ as) : ∃ item ∈ items, f item = .ok a := by
  have hall := mapM_eq_ok.mp h
  induction hall with
  | nil => exact absurd ha List.not_mem_nil
  | cons hhead hrest ih =>
      rcases List.mem_cons.mp ha with rfl | ha
      · exact ⟨_, List.mem_cons_self, hhead⟩
      · obtain ⟨item, hitem, hf⟩ := ih (mapM_eq_ok.mpr hrest) ha
        exact ⟨item, List.mem_cons_of_mem _ hitem, hf⟩

/-- If several items have results, each of them has one. -/
theorem exists_of_mapM_eq_ok {f : ι → Except ε α} {items : List ι} {as : List α}
    (h : items.mapM f = .ok as) {item : ι} (hitem : item ∈ items) : ∃ a, f item = .ok a := by
  have hall := mapM_eq_ok.mp h
  clear h
  induction hall with
  | nil => exact absurd hitem List.not_mem_nil
  | cons hhead _ ih =>
      rcases List.mem_cons.mp hitem with rfl | hitem
      · exact ⟨_, hhead⟩
      · exact ih hitem

/-- A failure is the failure of one of the items. -/
theorem exists_of_mapM_eq_error {f : ι → Except ε α} {items : List ι} {e : ε}
    (h : items.mapM f = .error e) : ∃ item ∈ items, f item = .error e := by
  induction items with
  | nil => exact nomatch h
  | cons item items ih =>
      rw [List.mapM_cons] at h
      rcases bind_eq_error.mp h with hitem | ⟨a, -, h⟩
      · exact ⟨item, List.mem_cons_self, hitem⟩
      · rcases bind_eq_error.mp h with hrest | ⟨as, -, hpure⟩
        · obtain ⟨later, hlater, hf⟩ := ih hrest
          exact ⟨later, List.mem_cons_of_mem _ hlater, hf⟩
        · exact nomatch hpure

/-! ## Computations with a state -/

section state

variable {σ : Type} {x : ExceptT ε (StateM σ) α} {s s' : σ}

/-- One computation after the other, from a state. -/
theorem bind_apply (x : ExceptT ε (StateM σ) α) (k : α → ExceptT ε (StateM σ) β) (s : σ) :
    (x >>= k) s = ExceptT.bindCont k (x s).1 (x s).2 := rfl

/-- After a result a computation goes on with it. -/
theorem bind_of_ok {a : α} (h : x s = (.ok a, s')) (k : α → ExceptT ε (StateM σ) β) :
    (x >>= k) s = k a s' := by
  rw [bind_apply, h]
  rfl

/-- A result of two computations is one of the second, which went on with a result of the first. -/
theorem exists_of_bind_eq_ok {k : α → ExceptT ε (StateM σ) β} {b : β} {last : σ}
    (h : (x >>= k) s = (.ok b, last)) :
    ∃ a after, x s = (.ok a, after) ∧ k a after = (.ok b, last) := by
  rw [bind_apply] at h
  cases hx : x s with
  | mk outcome after =>
      rw [hx] at h
      cases outcome with
      | error fault => exact nomatch h
      | ok a => exact ⟨a, after, rfl, h⟩

/-- A failure ends a computation. -/
theorem bind_of_error {e : ε} (h : x s = (.error e, s')) (k : α → ExceptT ε (StateM σ) β) :
    (x >>= k) s = (.error e, s') := by
  rw [bind_apply, h]
  rfl

theorem map_of_ok {a : α} (h : x s = (.ok a, s')) (f : α → β) :
    (f <$> x) s = (.ok (f a), s') := by
  rw [map_eq_pure_bind, bind_of_ok h]
  rfl

theorem map_of_error {e : ε} (h : x s = (.error e, s')) (f : α → β) :
    (f <$> x) s = (.error e, s') := by
  rw [map_eq_pure_bind, bind_of_error h]

end state

/-! ## Two outcomes -/

variable {α' β' : Type}

/-- Both outcomes are successes with related results, or both are failures. -/
inductive Alike (related : α → α' → Prop) : Except ε α → Except ε α' → Prop where
  | ok {a : α} {a' : α'} (h : related a a') : Alike related (.ok a) (.ok a')
  | error (e e' : ε) : Alike related (.error e) (.error e')

namespace Alike

variable {related : α → α' → Prop} {related' : β → β' → Prop} {x : Except ε α}
  {y : Except ε α'}

theorem bind (h : Alike related x y) {f : α → Except ε β} {g : α' → Except ε β'}
    (hfg : ∀ a a', related a a' → Alike related' (f a) (g a')) :
    Alike related' (x >>= f) (y >>= g) := by
  cases h with
  | ok h => exact hfg _ _ h
  | error e e' => exact .error e e'

theorem of_eq {x y : Except ε α} (h : x = y) : Alike (· = ·) x y := by
  subst h
  cases x with
  | ok a => exact .ok rfl
  | error e => exact .error e e

theorem exists_ok (h : Alike related x y) {a : α} (hx : x = .ok a) :
    ∃ a', y = .ok a' ∧ related a a' := by
  cases h with
  | ok h =>
      cases hx
      exact ⟨_, rfl, h⟩
  | error e e' => exact nomatch hx

/-- Outcomes are alike if a success of either is one of both. -/
theorem of_exists_ok (h : ∀ a, x = .ok a → ∃ a', y = .ok a' ∧ related a a')
    (h' : ∀ a', y = .ok a' → ∃ a, x = .ok a) : Alike related x y := by
  cases hx : x with
  | ok a =>
      obtain ⟨a', hy, ha⟩ := h a hx
      rw [hy]
      exact .ok ha
  | error e =>
      cases hy : y with
      | ok a' =>
          obtain ⟨a, ha⟩ := h' a' hy
          rw [hx] at ha
          exact nomatch ha
      | error e' => exact .error e e'

theorem map_of_eq {x y : Except ε α} (h : Alike (· = ·) x y) (f : α → β) :
    Alike (· = ·) (x.map f) (y.map f) := by
  cases h with
  | ok h => exact .ok (congrArg f h)
  | error e e' => exact .error e e'

theorem symm {x y : Except ε α} (h : Alike (· = ·) x y) : Alike (· = ·) y x := by
  cases h with
  | ok h => exact .ok h.symm
  | error e e' => exact .error e' e

theorem trans_of {related : α → α → Prop} {x y z : Except ε α}
    (htrans : ∀ {a b c}, related a b → related b c → related a c) (h : Alike related x y)
    (h' : Alike related y z) : Alike related x z := by
  cases h with
  | ok h =>
      cases h' with
      | ok h' => exact .ok (htrans h h')
  | error e e' =>
      cases h' with
      | error _ e'' => exact .error e e''

theorem trans {x y z : Except ε α} (h : Alike (· = ·) x y) (h' : Alike (· = ·) y z) :
    Alike (· = ·) x z := h.trans_of Eq.trans h'

/-- Outcomes that are alike are successes with one result or failures. -/
theorem eq_ok_iff {x y : Except ε α} (h : Alike (· = ·) x y) (a : α) : x = .ok a ↔ y = .ok a := by
  cases h with
  | ok h => rw [h]
  | error e e' => exact iff_of_false nofun nofun

end Alike

end Formula.Outcome
