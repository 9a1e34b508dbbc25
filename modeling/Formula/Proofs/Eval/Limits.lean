import Formula.Proofs.Eval.Comparison
import Formula.Proofs.Eval.Range
import Formula.Proofs.Matrix.Dense

set_option autoImplicit false

/-! # Limits only refuse

A larger limit on the depth of calls or on elements changes no result: whatever an evaluation gives
within some limits it also gives within larger ones. The two results need not be the same, because
a function that the evaluation makes takes the limits of its frame with it, and so does what such
a function makes in turn. They agree: they are the same but for the limits in functions that have
been made since the evaluations began.
-/

namespace Formula

/-- A limit on elements is the same on both sides, or larger on the second side but no larger than
any limit may be. -/
def ElementLimits (small large : Nat) : Prop :=
  small = large ∨ small ≤ large ∧ large ≤ maxElements

mutual

/-- The two values are the same, but functions with stamps from `since` on may have larger limits
in the second value. -/
inductive Value.Agrees (since : Nat) : Value → Value → Prop where
  | same (v : Value) : Value.Agrees since v v
  | made {f g : Closure Value} (hname : f.name = g.name) (hparams : f.params = g.params)
      (hbody : f.body = g.body) (hstamp : f.stamp = g.stamp) (hsince : since ≤ f.stamp)
      (hdepth : f.maxDepth ≤ g.maxDepth) (helements : ElementLimits f.maxElements g.maxElements)
      (hvars : Table.Agrees since f.vars g.vars) : Value.Agrees since (.function f) (.function g)

/-- The names are the same and their values agree. -/
inductive Table.Agrees (since : Nat) : List (String × Value) → List (String × Value) → Prop where
  | nil : Table.Agrees since [] []
  | cons {name : String} {v w : Value} {t u : List (String × Value)} (hvw : Value.Agrees since v w)
      (htu : Table.Agrees since t u) : Table.Agrees since ((name, v) :: t) ((name, w) :: u)

end

/-- The scopes are the same, but the limits may be larger in the second one, and so may those of
functions with stamps from `since` on. -/
structure Scope.Agrees (since : Nat) (s t : Scope) : Prop where
  vars : Table.Agrees since s.vars t.vars
  depth_eq : s.depth = t.depth
  maxDepth_le : s.maxDepth ≤ t.maxDepth
  elements : ElementLimits s.maxElements t.maxElements

variable {since : Nat}

/-! ## Values and variables -/

theorem Value.Agrees.alike {v w : Value} (h : v.Agrees since w) : v.Alike w := by
  cases h with
  | same => exact .same v
  | made => exact .functions _ _

namespace Table

theorem agrees_refl (t : Table Value) : Agrees since t t := by
  induction t with
  | nil => exact .nil
  | cons e rest ih => exact .cons (.same e.2) ih

theorem Agrees.find? {t u : Table Value} (h : Agrees since t u) (name : String) :
    Option.Rel (Value.Agrees since) (Table.find? t name) (Table.find? u name) := by
  induction t generalizing u with
  | nil =>
      cases h
      exact .none
  | cons _ t ih =>
      cases h with
      | cons hvw htu =>
          rw [Table.find?, Table.find?]
          split
          · exact .some hvw
          · exact ih htu

theorem Agrees.insert {t u : Table Value} {v w : Value} (h : Agrees since t u)
    (hvw : v.Agrees since w) (name : String) :
    Agrees since (t.insert name v) (u.insert name w) := by
  induction t generalizing u with
  | nil =>
      cases h
      exact .cons hvw .nil
  | cons _ t ih =>
      cases h with
      | cons hfirst htu =>
          rw [Table.insert, Table.insert]
          split
          · exact .cons hvw htu
          · split
            · exact .cons hvw (.cons hfirst htu)
            · exact .cons hfirst (ih htu)

theorem Agrees.insertAll {t u : Table Value} {vs ws : List Value} (h : Agrees since t u)
    (hvs : List.Forall₂ (Value.Agrees since) vs ws) (names : List String) :
    Agrees since (t.insertAll (names.zip vs)) (u.insertAll (names.zip ws)) := by
  induction hvs generalizing t u names with
  | nil =>
      rw [List.zip_nil_right]
      exact h
  | cons hvw _ ih =>
      cases names with
      | nil => exact h
      | cons name names => exact ih (h.insert hvw name) names

end Table

/-- Functions that agree have agreeing frames for arguments that agree. -/
theorem Closure.agrees_frame {f g : Closure Value} {args args' : List Value}
    (h : (Value.function f).Agrees since (.function g))
    (hargs : List.Forall₂ (Value.Agrees since) args args') (depth : Nat) :
    (f.frame args depth).Agrees since (g.frame args' depth) := by
  have hself := h
  cases h with
  | same =>
      have hvars := (Table.agrees_refl f.vars).insert hself f.name
      exact ⟨hvars.insertAll hargs f.params, rfl, UInt64.le_refl _, .inl rfl⟩
  | made hname hparams _ _ _ hdepth helements hvars =>
      have hvars := hvars.insert hself f.name
      refine ⟨?_, rfl, hdepth, helements⟩
      show Table.Agrees since (Table.insertAll _ (f.params.zip args))
        (Table.insertAll (Table.insert g.vars g.name _) (g.params.zip args'))
      rw [← hname, ← hparams]
      exact hvars.insertAll hargs f.params

/-! ## Limits on elements -/

theorem ElementLimits.le {small large : Nat} (h : ElementLimits small large) : small ≤ large := by
  rcases h with rfl | ⟨h, -⟩
  · exact Nat.le_refl _
  · exact h

namespace Eval

theorem checkGrowth_mono {m : Matrix} {lists : List (List Nat)} {small large : Nat}
    (hlimits : small ≤ large) (h : checkGrowth m lists small = .ok ()) :
    checkGrowth m lists large = .ok () := by
  unfold checkGrowth at h ⊢
  cases hkind : m.storageKind with
  | sparse => rfl
  | dense =>
      rw [hkind] at h
      dsimp only at h ⊢
      cases hcount : Shape.checkedCount (grownShape m.shape lists) small with
      | error fault =>
          rw [hcount] at h
          exact nomatch h
      | ok count =>
          rw [Shape.checkedCount_mono hlimits hcount]
          rfl

theorem rangeValues_mono {first last step : Float} {small large : Nat} {xs : List Float}
    (hlimits : ElementLimits small large) (h : rangeValues first last step small = .ok xs) :
    rangeValues first last step large = .ok xs := by
  rcases hlimits with rfl | ⟨hle, hlarge⟩
  · exact h
  · exact rangeValues_of_le hle hlarge h

/-! ## Evaluations -/

/-- Evaluations within some limits and within larger ones, from when functions with the stamp
`since` are made. -/
def largerLimits {registry : Registry} (blind : Blind registry) (since : Nat) :
    Comparison registry where
  Values := fun _ => Value.Agrees since
  Scopes := fun i s t => s.Agrees since t ∧ since ≤ i
  Sound := fun _ _ => True
  sound := fun _ => trivial
  laterValues := fun _ hvw => hvw
  laterScopes := fun hij hst => ⟨hst.1, Nat.le_trans hst.2 hij⟩
  alike := Value.Agrees.alike
  plain := fun _ v _ => .same v
  function := by
    intro _ f g h
    cases h with
    | same => exact ⟨rfl, rfl, UInt64.le_refl _⟩
    | made _ hparams hbody _ _ hdepth _ _ => exact ⟨hparams, hbody, hdepth⟩
  depth := fun hst => hst.1.depth_eq
  get? := fun hst name => hst.1.vars.find? name
  set := fun hst hvw name =>
    ⟨⟨hst.1.vars.insert hvw name, hst.1.depth_eq, hst.1.maxDepth_le, hst.1.elements⟩, hst.2⟩
  snapshot := by
    intro i s t hst name params body
    obtain ⟨h, hsince⟩ := hst
    exact .made rfl rfl rfl rfl hsince h.maxDepth_le h.elements h.vars
  frame := fun hst hfg hargs depth => ⟨Closure.agrees_frame hfg hargs depth, hst.2⟩
  range := fun hst _ _ _ _ hxs => rangeValues_mono hst.1.elements hxs
  growth := fun hst _ _ hgrowth => checkGrowth_mono hst.1.elements.le hgrowth
  entry := by
    intro _ args args' hargs entry v hv
    have halike := hargs.imp fun _ _ => Value.Agrees.alike
    exact ⟨v, (Entry.call_alike blind entry halike).symm.trans hv, .same v⟩

end Eval

/-- **Limits only refuse.** Let no function of the host tell functions apart, and let two scopes be
the same but for limits that are at least as large in the second one, no limit on elements being
larger than any may be. If evaluating code in the first scope gives a value, evaluating it in the
second one gives a value, too. The two values and the two scopes afterwards are the same, but for
the limits of the scopes and those in the functions that the evaluations have made. -/
theorem run_within_larger_limits {registry : Registry} (blind : Blind registry) (c : Code)
    {m n : Machine} (hvars : n.scope.vars = m.scope.vars)
    (hdepth : n.scope.depth = m.scope.depth) (hmade : n.made = m.made)
    (hmaxDepth : m.scope.maxDepth ≤ n.scope.maxDepth)
    (hmaxElements : m.scope.maxElements ≤ n.scope.maxElements)
    (hlargest : n.scope.maxElements ≤ maxElements) {v : Value}
    (hv : (Eval.run registry c m).1 = .ok v) :
    ∃ w, (Eval.run registry c n).1 = .ok w ∧ v.Agrees m.made w ∧
      (Eval.run registry c m).2.scope.Agrees m.made (Eval.run registry c n).2.scope := by
  -- the variables agree because they are the same, with limits and all
  have hscopes : m.scope.Agrees m.made n.scope := by
    refine ⟨?_, hdepth.symm, hmaxDepth, .inr ⟨hmaxElements, hlargest⟩⟩
    rw [hvars]
    exact Table.agrees_refl _
  have hmachines : (Eval.largerLimits blind m.made).Machines m n :=
    ⟨⟨hscopes, Nat.le_refl _⟩, hmade.symm⟩
  obtain ⟨-, -, hresult⟩ :=
    (Eval.largerLimits blind m.made).rel_run c m.made m n hmachines (Nat.le_refl _)
  obtain ⟨w, hw, hvw, hafter⟩ := hresult v hv
  exact ⟨w, hw, hvw, hafter.scopes.1⟩

/-- A function is defined, called, and is the value. -/
def identityCode : Code :=
  .block [(.define "f" ["x"] (.symbol "x"), false),
    (.call "f" none [.constant (.boolean true)], false), (.symbol "f", true)]

/-- A machine without variables, with these limits. -/
def limited (maxDepth : UInt64) (maxElements : Nat) : Machine :=
  ⟨(Scope.empty.withMaxDepth maxDepth).withMaxElements maxElements, 0, #[]⟩

/-- The function that the two evaluations make has the limits of the one or the other. -/
theorem run_within_larger_limits_identity :
    Blind Library.standard.registry ∧
      (Eval.run Library.standard.registry identityCode (limited 1 5)).1
        = .ok (.function ((limited 1 5).scope.snapshot "f" ["x"] (.symbol "x") 0)) ∧
      ∃ w, (Eval.run Library.standard.registry identityCode (limited 7 9)).1 = .ok w ∧
        (Value.function ((limited 1 5).scope.snapshot "f" ["x"] (.symbol "x") 0)).Agrees 0 w ∧
        w = .function ((limited 7 9).scope.snapshot "f" ["x"] (.symbol "x") 0) ∧
        (Eval.run Library.standard.registry identityCode (limited 1 5)).2.scope.Agrees 0
          (Eval.run Library.standard.registry identityCode (limited 7 9)).2.scope := by
  have hv : (Eval.run Library.standard.registry identityCode (limited 1 5)).1
      = .ok (.function ((limited 1 5).scope.snapshot "f" ["x"] (.symbol "x") 0)) := rfl
  obtain ⟨w, hw, hvw, hafter⟩ := run_within_larger_limits (m := limited 1 5) (n := limited 7 9)
    blind_standard identityCode rfl rfl rfl (by decide) (by decide) (by decide) hv
  have hlarger : (Eval.run Library.standard.registry identityCode (limited 7 9)).1
      = .ok (.function ((limited 7 9).scope.snapshot "f" ["x"] (.symbol "x") 0)) := rfl
  exact ⟨blind_standard, hv, w, hw, hvw, Except.ok.inj (hw.symm.trans hlarger), hafter⟩

end Formula
