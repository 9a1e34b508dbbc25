import Formula.Proofs.Eval.Written
import Formula.Proofs.Session.Act
import Formula.Proofs.Table
import Formula.Proofs.Value.Identical

set_option autoImplicit false

/-! # What a run has assigned

A run says which variables it has bound or changed. It finds them by comparing the variables before
and after, name by name. Plain numbers are compared bit by bit and functions by their stamps, but
complex numbers and matrices by equality: one that holds NaN counts as changed whatever the run has
done, and a zero that changes its sign does not count. Apart from that, the names are exactly those
whose values are others than before.

There is one NaN among the numbers here, where a machine has many, with other bits. Whether a NaN
in the place of a NaN has other bits cannot be said of these numbers, so what is said of a plain
NaN is that it is not listed if nothing is written to its name, and that it is listed if there has
been another value.
-/

namespace Formula

/-! ## Sessions that a host can have -/

/-- The function is one of the first `i` that have been made, and its snapshot is in order. -/
structure Closure.Made (i : Nat) (f : Closure Value) : Prop where
  stamp_lt : f.stamp < i
  sorted : Table.Sorted f.vars

theorem Closure.Made.later {i j : Nat} {f : Closure Value} (h : f.Made i) (hij : i ≤ j) :
    f.Made j := ⟨Nat.lt_of_lt_of_le h.stamp_lt hij, h.sorted⟩

/-- The functions that host functions hand out have been made before, or are within reach of the
arguments. -/
def HandsOut (registry : Registry) (i : Nat) : Prop :=
  ∀ g ∈ registry, ∀ args v, g args = .ok v → ∀ f, v.Reaches f →
    (∃ a ∈ args, a.Reaches f) ∨ f.Made i

theorem HandsOut.later {registry : Registry} {i j : Nat} (h : HandsOut registry i) (hij : i ≤ j) :
    HandsOut registry j :=
  fun g hg args v hv f hf => (h g hg args v hv f hf).imp_right fun hmade => hmade.later hij

/-- Evaluation keeps the variables in order, and every function within reach has been made. What
hosts hand out after `base` functions have been made has been made by then. -/
def Kept.made {registry : Registry} {base : Nat} (hhost : HandsOut registry base) :
    Kept registry where
  Function := fun i f => f.Made (max base i)
  Frame := fun _ t => Table.Sorted t.vars
  laterFunction := fun hij hf => hf.later (max_le_max_left base hij)
  laterFrame := fun _ ht => ht
  set := fun ht name v => ht.insert name v
  snapshot := fun ht _ _ _ =>
    ⟨Nat.lt_of_lt_of_le (Nat.lt_succ_self _) (Nat.le_max_right _ _), ht⟩
  frame := by
    intro i s f _ hf args depth
    exact (hf.sorted.insert f.name (.function f)).insertAll (f.params.zip args)
  host := by
    intro g hg args v hv i hargs f hf
    rcases hhost g hg args v hv f hf with ⟨a, ha, haf⟩ | hmade
    · exact hargs a ha f haf
    · exact hmade.later (Nat.le_max_left base i)

namespace Session

/-- The session's tables are in order, and all functions that it can come upon have been made. -/
structure Valid (s : Session) : Prop where
  sorted : Table.Sorted s.scope.vars
  functions : Table.All (Closure.Made s.made) s.scope.vars
  host : HandsOut s.library.registry s.made

variable {s : Session}

theorem Valid.scope (h : s.Valid) : (Kept.made h.host).Scope s.made s.scope where
  frame := h.sorted
  functions := h.functions.mono fun _ hf => hf.later (Nat.le_max_left _ _)

/-- A session over the standard functions is as it should be at its start, if the scope has its
variables in order and no functions among them. -/
theorem valid_start {scope : Scope} (hsorted : Table.Sorted scope.vars)
    (hfunctions : Table.All (Closure.Made 0) scope.vars) : (start scope).Valid where
  sorted := hsorted
  functions := hfunctions
  host := fun g hg => absurd hg (Array.not_mem_empty g)

theorem sorted_standard : Table.Sorted Scope.standard.vars :=
  Table.Sorted.insertAll (t := []) List.Pairwise.nil constants

theorem valid_standard : (start Scope.standard).Valid :=
  valid_start sorted_standard (Scope.all_standard _)

/-- Whatever a host does, the session stays as it should be, if the values that are set reach only
functions that have been made by then. -/
theorem Valid.act (h : s.Valid) (a : Act)
    (hgiven : ∀ name v, a = .set name v → v.All (Closure.Made s.made)) : (s.act a).Valid := by
  rcases s.act_cases a with
    ⟨name, v, rfl, ha⟩ | ⟨code, ha⟩ | ⟨hlibrary, hmade, hvars, -⟩ | ⟨rfl, ha⟩
  · rw [ha]
    exact ⟨h.sorted.insert name v, h.functions.insert (hgiven name v rfl) name, h.host⟩
  -- values reach functions of the machine only, and the stamps that the run gives are new
  · have hafter := (Kept.made h.host).after_code (m := s.machine) h.scope Word.last code
    have hmade : s.made ≤ (s.act a).made := ha.made_eq ▸ hafter.made_le
    refine ⟨?_, ?_, ?_⟩
    · rw [ha.scope_eq]
      exact hafter.scope.frame
    · rw [ha.scope_eq, ha.made_eq]
      have hmax : max s.made (s.performed code).made = (s.performed code).made :=
        Nat.max_eq_right hafter.made_le
      exact hafter.scope.functions.mono fun f hf => hmax ▸ hf
    · rw [ha.library_eq]
      exact h.host.later hmade
  · refine ⟨hvars ▸ h.sorted, ?_, ?_⟩
    · rw [hvars, hmade]
      exact h.functions
    · rw [hlibrary, hmade]
      exact h.host
  · rw [ha]
    exact ⟨sorted_standard, Scope.all_standard _, h.host⟩

theorem Valid.after (h : s.Valid) (acts : List Act)
    (hgiven : ∀ before name v, before ++ [.set name v] <+: acts →
      v.All (Closure.Made (s.after before).made)) : (s.after acts).Valid := by
  induction acts generalizing s with
  | nil => exact h
  | cons a rest ih =>
      have hact : (s.act a).Valid := by
        refine h.act a fun name v ha => ?_
        subst ha
        exact hgiven [] name v ⟨rest, rfl⟩
      refine ih hact fun before name v hlonger => ?_
      exact hgiven (a :: before) name v ((List.prefix_cons_inj a).mpr hlonger)

/-! ## Which names are listed -/

/-- A run that succeeds lists the names that are found to have changed. -/
theorem assigned_run {code : Code} {outcome : Outcome} (h : (s.run code).1 = .ok outcome) :
    outcome.assigned = s.scope.changed (s.run code).2.scope := by
  rw [(s.performs_run code).scope_eq]
  rw [run] at h
  dsimp only at h
  split at h
  · cases h
  · next v after hperform =>
      have hafter := congrArg Prod.snd hperform
      cases h
      subst hafter
      rfl

/-- The value of the name, if it has one, is ordinary. -/
def OrdinaryAt (scope : Scope) (name : String) : Prop :=
  ∀ v, scope.get? name = some v → v.Ordinary

/-- The name does not hold a plain NaN on both sides. Two NaNs may have other bits, which are not
told apart here. -/
def Settled (before after : Scope) (name : String) : Prop :=
  before.get? name = some (.number Float.nan) → after.get? name ≠ some (.number Float.nan)

theorem mem_changed {before after : Scope} (hsorted : Table.Sorted after.vars) {name : String}
    (hbefore : OrdinaryAt before name) (hafter : OrdinaryAt after name) :
    name ∈ before.changed after ↔ ∃ v, after.get? name = some v ∧
      ∀ old, before.get? name = some old → ¬old.Identical v := by
  rw [Scope.changed, List.mem_map]
  constructor
  · rintro ⟨⟨key, v⟩, he, rfl⟩
    rw [List.mem_filter] at he
    obtain ⟨hmem, hchanged⟩ := he
    have hv : after.get? key = some v := hsorted.mem_iff_find?.mp hmem
    refine ⟨v, hv, fun old hold hsame => ?_⟩
    -- an entry that is identical to the old one is filtered out
    have hunchanged : old.unchanged v :=
      (Value.unchanged_iff (hbefore old hold) (hafter v hv)).mpr hsame
    dsimp only at hchanged
    rw [hold] at hchanged
    dsimp only at hchanged
    rw [hunchanged] at hchanged
    exact nomatch hchanged
  · rintro ⟨v, hv, hdiffers⟩
    refine ⟨(name, v), List.mem_filter.mpr ⟨hsorted.mem_iff_find?.mpr hv, ?_⟩, rfl⟩
    dsimp only
    cases hold : before.get? name with
    | none => rfl
    | some old =>
        have hchanged : ¬old.unchanged v := fun hunchanged => hdiffers old hold
          ((Value.unchanged_iff (hbefore old hold) (hafter v hv)).mp hunchanged)
        rw [Bool.not_eq_true] at hchanged
        dsimp only
        rw [hchanged]
        rfl

/-- The names are listed in order. -/
theorem pairwise_changed {before after : Scope} (hsorted : Table.Sorted after.vars) :
    (before.changed after).Pairwise (· < ·) :=
  List.Pairwise.map Prod.fst (fun _ _ hlt => hlt) (List.Pairwise.filter _ hsorted)

/-- A definition binds its name to a function that has not been there before. -/
theorem scope_run_define (name : String) (params : List String) (body : Code) :
    (s.run (.define name params body)).2.scope
      = s.scope.set name (.function (s.scope.snapshot name params body s.made)) := by
  rw [(s.performs_run _).scope_eq, performed, Eval.run, Eval.code]
  rfl

/-- A variable whose name the tree does not write is as it was. -/
theorem get?_run {tree : Node} {code : Code} (h : (tree.compile s.library.entries).1 = .ok code)
    {name : String} (hname : ¬tree.Writes name) :
    (s.run code).2.scope.get? name = s.scope.get? name := by
  have hwrites : Compiler.WritesWithin tree code := by
    rw [Node.compile_fst] at h
    exact Compiler.node_yields s.library.entries tree.locals tree #[] code h
  have hconfined : s.scope.Confined tree.Writes (s.run code).2.scope := by
    rw [(s.performs_run code).scope_eq]
    exact Eval.code_confined (Eval.confined_call s.library.registry Word.last) code hwrites
      s.machine
  exact hconfined.kept name hname

/-- A function that has been made since is found to be another value than there was before. -/
theorem mem_changed_of_made (valid : s.Valid) {after : Scope} (hsorted : Table.Sorted after.vars)
    {name : String} {f : Closure Value} (hf : after.get? name = some (.function f))
    (hstamp : s.made ≤ f.stamp) : name ∈ s.scope.changed after := by
  rw [Scope.changed, List.mem_map]
  refine ⟨(name, .function f), List.mem_filter.mpr ⟨hsorted.mem_iff_find?.mpr hf, ?_⟩, rfl⟩
  dsimp only
  cases hold : s.scope.get? name with
  | none => rfl
  | some old =>
      cases old with
      | function g =>
          -- the old function had its stamp before the run, so the two stamps differ
          have hearlier := (Value.all_function.mp (valid.functions.find? hold)).1.stamp_lt
          have hstamps : (g.stamp == f.stamp) = false := by
            rw [beq_eq_false_iff_ne]
            omega
          show (!(g.name == f.name && g.params == f.params && g.stamp == f.stamp)) = true
          rw [hstamps, Bool.and_false, Bool.not_false]
      | null | boolean _ | number _ | complex _ | string _ | matrix _ => rfl

/-- What is bound as before to an ordinary value is not listed. -/
theorem notMem_changed_of_kept {before after : Scope} (hsorted : Table.Sorted after.vars)
    {name : String} (hkept : after.get? name = before.get? name)
    (hbefore : OrdinaryAt before name) : name ∉ before.changed after := by
  intro hname
  have hafter : OrdinaryAt after name := by
    rw [OrdinaryAt, hkept]
    exact hbefore
  obtain ⟨v, hv, hdiffers⟩ := (mem_changed hsorted hbefore hafter).mp hname
  rw [hkept] at hv
  exact hdiffers v hv v.identical_refl

/-- **A run lists what it has assigned.** Let a run succeed in a session. It lists names in strict
order. A name whose values before and afterwards are ordinary, so that no complex number or matrix
among them has NaN or a negative zero as a part, and are not both a plain NaN, is listed exactly if
it is bound afterwards to a value that is not identical to a value it had before. A function that
the run has made counts as another one than any before, so a definition always lists its name. A
name that the tree does not write is not listed if its value is ordinary, a plain NaN as any other
number; so a tree that writes no variable lists nothing, if all values are ordinary. -/
theorem assigned_exactly (valid : s.Valid) {code : Code} {outcome : Outcome}
    (h : (s.run code).1 = .ok outcome) :
    outcome.assigned.Pairwise (· < ·) ∧
    (∀ name, OrdinaryAt s.scope name → OrdinaryAt (s.run code).2.scope name →
      Settled s.scope (s.run code).2.scope name →
      (name ∈ outcome.assigned ↔ ∃ v, (s.run code).2.scope.get? name = some v ∧
        ∀ old, s.scope.get? name = some old → ¬old.Identical v)) ∧
    (∀ name f, (s.run code).2.scope.get? name = some (.function f) → s.made ≤ f.stamp →
      name ∈ outcome.assigned) ∧
    (∀ name params body, code = .define name params body → name ∈ outcome.assigned) ∧
    (∀ tree : Node, (tree.compile s.library.entries).1 = .ok code →
      (∀ name, ¬tree.Writes name → OrdinaryAt s.scope name → name ∉ outcome.assigned) ∧
      ((∀ name, ¬tree.Writes name) → (∀ name, OrdinaryAt s.scope name) →
        outcome.assigned = [])) := by
  have hsorted : Table.Sorted (s.run code).2.scope.vars :=
    (valid.act (.run code) nofun).sorted
  have hmade : ∀ name f, (s.run code).2.scope.get? name = some (.function f) →
      s.made ≤ f.stamp → name ∈ s.scope.changed (s.run code).2.scope :=
    fun _ _ hf hstamp => mem_changed_of_made valid hsorted hf hstamp
  rw [assigned_run h]
  refine ⟨pairwise_changed hsorted, fun name hbefore hafter _ => ?_, hmade, ?_, ?_⟩
  · exact mem_changed hsorted hbefore hafter
  · rintro name params body rfl
    have hvalue : (s.run (.define name params body)).2.scope.get? name
        = some (.function (s.scope.snapshot name params body s.made)) := by
      rw [scope_run_define, Scope.get?_set, if_pos rfl]
    exact hmade name _ hvalue (Nat.le_refl _)
  · intro tree hcompile
    have hunwritten : ∀ name, ¬tree.Writes name → OrdinaryAt s.scope name →
        name ∉ s.scope.changed (s.run code).2.scope :=
      fun name hname hbefore =>
        notMem_changed_of_kept hsorted (get?_run hcompile hname) hbefore
    refine ⟨hunwritten, fun hnone hbefore => ?_⟩
    exact List.eq_nil_iff_forall_not_mem.mpr fun name => hunwritten name (hnone name) (hbefore name)

/-- A session with a function and a truth value. -/
def furnished : Session :=
  (start Scope.empty).after [.run (.define "f" ["x"] (.symbol "x")), .set "b" (.boolean true)]

/-- The same function is defined again, the same truth value is assigned, and a name is bound. -/
def refurnishing : Code :=
  .block [(.define "f" ["x"] (.symbol "x"), false),
    (.assign "b" (.constant (.boolean true)), false), (.assign "c" (.constant .null), true)]

theorem valid_empty : (start Scope.empty).Valid := valid_start List.Pairwise.nil nofun

theorem valid_furnished : furnished.Valid := by
  refine (valid_empty.act (.run (.define "f" ["x"] (.symbol "x"))) nofun).act
    (.set "b" (.boolean true)) fun name v hset => ?_
  cases hset
  exact Value.all_of_kind nofun

/-- The function and the new name are listed, and the truth value is not. -/
theorem assigned_exactly_refurnishing :
    furnished.Valid ∧ (furnished.run refurnishing).1 = .ok ⟨.null, ["c", "f"]⟩ ∧
      ["c", "f"].Pairwise (· < ·) ∧
      ∀ name, name ∈ ["c", "f"] ↔
        ∃ v, (furnished.run refurnishing).2.scope.get? name = some v ∧
          ∀ old, furnished.scope.get? name = some old → ¬old.Identical v := by
  have hrun : (furnished.run refurnishing).1 = .ok ⟨.null, ["c", "f"]⟩ := by rfl
  have hvars : furnished.scope.vars = [("b", .boolean true),
      ("f", .function (Scope.empty.snapshot "f" ["x"] (.symbol "x") 0))] := by rfl
  have hbefore : ∀ e ∈ furnished.scope.vars, e.2.Ordinary := by
    simp [hvars, Value.Ordinary]
  have hafter : ∀ e ∈ (furnished.run refurnishing).2.scope.vars, e.2.Ordinary := by
    have hvars : (furnished.run refurnishing).2.scope.vars = [("b", .boolean true), ("c", .null),
        ("f", .function (furnished.scope.snapshot "f" ["x"] (.symbol "x") 1))] := by rfl
    simp [hvars, Value.Ordinary]
  obtain ⟨hordered, hmem, -⟩ := assigned_exactly valid_furnished hrun
  refine ⟨valid_furnished, hrun, hordered, fun name => hmem name ?_ ?_ ?_⟩
  · exact fun v hv => hbefore _ (Table.mem_of_find? hv)
  · exact fun v hv => hafter _ (Table.mem_of_find? hv)
  · exact fun hnan => absurd (Table.mem_of_find? hnan) (by simp [hvars])

/-! ## What is listed without need -/

/-- A session with a complex number whose real part is NaN. -/
def unsettled : Session := (start Scope.empty).set "z" (.complex ⟨Float.nan, 0⟩)

/-- A tree that changes nothing. -/
def idle : Node := .constant (.boolean true)

theorem nan_changes :
    (Value.complex ⟨Float.nan, 0⟩).unchanged (.complex ⟨Float.nan, 0⟩) = false := by
  show (Float.nan == Float.nan && (0 : Float) == 0) = false
  rw [Float.nan_beq_eq_false, Bool.false_and]

/-- **A complex number with NaN is listed although nothing has changed it.** -/
theorem unchanged_nan_listed :
    unsettled.Valid ∧ (idle.compile unsettled.library.entries).1 = .ok (.constant (.boolean true)) ∧
      (∀ name, ¬idle.Writes name) ∧
      (unsettled.run (.constant (.boolean true))).2.scope = unsettled.scope ∧
      (unsettled.run (.constant (.boolean true))).1 = .ok ⟨.boolean true, ["z"]⟩ := by
  refine ⟨?_, rfl, ?_, rfl, ?_⟩
  · exact valid_empty.act (.set "z" (.complex ⟨Float.nan, 0⟩)) fun name v hset => by
      cases hset
      exact Value.all_of_kind nofun
  · rintro name ⟨node, _ | ⟨-, hchild, -⟩, hname⟩
    · exact nomatch hname
    · exact nomatch hchild
  · have hrun : (unsettled.run (.constant (.boolean true))).1
        = .ok ⟨.boolean true, unsettled.scope.changed unsettled.scope⟩ := rfl
    have hvars : unsettled.scope.vars = [("z", .complex ⟨Float.nan, 0⟩)] := rfl
    have hbefore : unsettled.scope.get? "z" = some (.complex ⟨Float.nan, 0⟩) := rfl
    rw [hrun, Scope.changed, hvars]
    -- NaN differs from itself, so the only entry passes the filter
    simp only [List.filter_cons, hbefore, nan_changes, Bool.not_false, if_true, List.filter_nil,
      List.map_cons, List.map_nil]

end Session

end Formula
