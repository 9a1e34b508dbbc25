import Formula.Proofs.Outcome
import Formula.Proofs.Standard
import Formula.Proofs.Standard.Blind

set_option autoImplicit false

/-! # Comparing two evaluations of the same code

Two evaluations of the same code go the same way as long as the values that they meet are alike. A
`Comparison` says which values and which scopes are taken to agree, and has a rule for each thing
that an evaluation does with them. It then holds of whole evaluations: wherever the first one has a
result, the second one has a result that agrees with it.

With agreement taken for being the same and having some property, the same theorem says that
evaluation keeps the property. That also concerns evaluations that fail, whose scopes are `Sound`.

Agreement may depend on how many functions have been made, and once things agree they do so when
more functions have been made, too.
-/

namespace Formula.Eval

/-- What it means that values and scopes agree, after a number of functions has been made, and the
rules that it has to satisfy. -/
structure Comparison (registry : Registry) where
  Values : Nat → Value → Value → Prop
  Scopes : Nat → Scope → Scope → Prop
  /-- What holds of the first one of two scopes that agree. -/
  Sound : Nat → Scope → Prop
  sound : ∀ {i : Nat} {s t : Scope}, Scopes i s t → Sound i s
  laterValues : ∀ {i j : Nat} {v w : Value}, i ≤ j → Values i v w → Values j v w
  laterScopes : ∀ {i j : Nat} {s t : Scope}, i ≤ j → Scopes i s t → Scopes j s t
  alike : ∀ {i : Nat} {v w : Value}, Values i v w → v.Alike w
  plain : ∀ (i : Nat) {v : Value}, v.kind ≠ .function → Values i v v
  function : ∀ {i : Nat} {f g : Closure Value}, Values i (.function f) (.function g) →
    f.params = g.params ∧ f.body = g.body ∧ f.maxDepth ≤ g.maxDepth
  depth : ∀ {i : Nat} {s t : Scope}, Scopes i s t → s.depth = t.depth
  get? : ∀ {i : Nat} {s t : Scope}, Scopes i s t → ∀ name,
    Option.Rel (Values i) (s.get? name) (t.get? name)
  set : ∀ {i : Nat} {s t : Scope} {v w : Value}, Scopes i s t → Values i v w → ∀ name,
    Scopes i (s.set name v) (t.set name w)
  snapshot : ∀ {i : Nat} {s t : Scope}, Scopes i s t → ∀ name params body,
    Values (i + 1) (.function (s.snapshot name params body i))
      (.function (t.snapshot name params body i))
  /-- The frames of calls from scopes that agree. -/
  frame : ∀ {i : Nat} {s t : Scope} {f g : Closure Value} {args args' : List Value},
    Scopes i s t → Values i (.function f) (.function g) → List.Forall₂ (Values i) args args' →
    ∀ depth, Scopes i (f.frame args depth) (g.frame args' depth)
  range : ∀ {i : Nat} {s t : Scope}, Scopes i s t → ∀ first last step xs,
    rangeValues first last step s.maxElements = .ok xs →
      rangeValues first last step t.maxElements = .ok xs
  growth : ∀ {i : Nat} {s t : Scope}, Scopes i s t → ∀ m lists,
    checkGrowth m lists s.maxElements = .ok () → checkGrowth m lists t.maxElements = .ok ()
  entry : ∀ {i : Nat} {args args' : List Value}, List.Forall₂ (Values i) args args' →
    ∀ (entry : Entry) v, entry.call registry args = .ok v →
      ∃ w, entry.call registry args' = .ok w ∧ Values i v w

namespace Comparison

variable {registry : Registry} (C : Comparison registry) {α β : Type} {i : Nat}

/-- The machines of the two evaluations agree. -/
structure Machines (m n : Machine) : Prop where
  scopes : C.Scopes m.made m.scope n.scope
  made_eq : m.made = n.made

/-- From machines that agree and have made `i` functions at least, the second computation has a
result wherever the first one has, the results are related by `R`, and the machines agree again. If
the first computation fails, its scope is sound all the same. -/
def Rel (i : Nat) (R : Nat → α → α → Prop) (x y : Eval α) : Prop :=
  ∀ m n, C.Machines m n → i ≤ m.made →
    m.made ≤ (x m).2.made ∧ C.Sound (x m).2.made (x m).2.scope ∧
      ∀ a, (x m).1 = .ok a →
        ∃ b, (y n).1 = .ok b ∧ R (x m).2.made a b ∧ C.Machines (x m).2 (y n).2

/-! ## Computations -/

theorem rel_pure {R : Nat → α → α → Prop} {a b : α} (h : ∀ j, i ≤ j → R j a b) :
    C.Rel i R (pure a) (pure b) := by
  intro m n hm hi
  refine ⟨Nat.le_refl _, C.sound hm.scopes, fun c hc => ?_⟩
  cases hc
  exact ⟨b, rfl, h _ hi, hm⟩

theorem rel_value {v w : Value} (h : C.Values i v w) : C.Rel i C.Values (pure v) (pure w) :=
  C.rel_pure fun _ hj => C.laterValues hj h

theorem rel_bind {R : Nat → α → α → Prop} {R' : Nat → β → β → Prop} {x y : Eval α}
    {k l : α → Eval β} (h : C.Rel i R x y)
    (hk : ∀ j, i ≤ j → ∀ a b, R j a b → C.Rel j R' (k a) (l b)) :
    C.Rel i R' (x >>= k) (y >>= l) := by
  intro m n hm hi
  obtain ⟨hmade, hsound, hresult⟩ := h m n hm hi
  rw [Outcome.bind_apply, Outcome.bind_apply]
  cases hx : (x m).1 with
  | error fault => exact ⟨hmade, hsound, nofun⟩
  | ok a =>
      obtain ⟨b, hy, hab, hafter⟩ := hresult a hx
      obtain ⟨hlater, hrest⟩ :=
        hk _ (Nat.le_trans hi hmade) a b hab _ _ hafter (Nat.le_refl _)
      rw [hy]
      exact ⟨Nat.le_trans hmade hlater, hrest⟩

/-- A computation that fails at once is compared with anything. -/
theorem rel_fail {R : Nat → α → α → Prop} (fault : EvalError) (y : Eval α) :
    C.Rel i R (fail fault) y :=
  fun _ _ hm _ => ⟨Nat.le_refl _, C.sound hm.scopes, nofun⟩

theorem rel_ofExcept {R : α → α → Prop} {o o' : Except EvalError α}
    (h : ∀ a, o = .ok a → ∃ b, o' = .ok b ∧ R a b) :
    C.Rel i (fun _ => R) (ofExcept o) (ofExcept o') := by
  cases o with
  | error fault => exact C.rel_fail fault _
  | ok a =>
      obtain ⟨b, rfl, hab⟩ := h a rfl
      exact C.rel_pure fun _ _ => hab

/-- The same outcome agrees with itself. -/
theorem rel_same (o : Except EvalError α) :
    C.Rel i (fun _ => (· = ·)) (ofExcept o) (ofExcept o) :=
  C.rel_ofExcept fun a ha => ⟨a, ha, rfl⟩

/-- A value that is no function agrees with itself. -/
theorem rel_plain {o : Except EvalError Value} (h : Plain o) :
    C.Rel i C.Values (ofExcept o) (ofExcept o) := by
  cases o with
  | error fault => exact C.rel_fail fault _
  | ok v => exact C.rel_value (C.plain i (h v rfl))

theorem rel_scope : C.Rel i C.Scopes scope scope := by
  intro m n hm _
  refine ⟨Nat.le_refl _, C.sound hm.scopes, fun s hs => ?_⟩
  cases hs
  exact ⟨n.scope, rfl, hm.scopes, hm⟩

theorem rel_report (events events' : List Event) :
    C.Rel i (fun _ _ _ => True) (report events) (report events') :=
  fun _ _ hm _ => ⟨Nat.le_refl _, C.sound hm.scopes,
    fun _ _ => ⟨(), rfl, trivial, hm.scopes, hm.made_eq⟩⟩

theorem rel_assign {v w : Value} (h : C.Values i v w) (name : String) :
    C.Rel i (fun _ _ _ => True) (assign name v) (assign name w) := by
  intro m n hm hi
  have hscopes := C.set hm.scopes (C.laterValues hi h) name
  exact ⟨Nat.le_refl _, C.sound hscopes, fun _ _ => ⟨(), rfl, trivial, hscopes, hm.made_eq⟩⟩

/-- A stamp is the same on both sides, and has been used afterwards. -/
theorem rel_freshStamp :
    C.Rel i (fun j a b => a = b ∧ i ≤ a ∧ a + 1 ≤ j) freshStamp freshStamp := by
  intro m n hm hi
  have hlater : m.made ≤ m.made + 1 := Nat.le_succ _
  have hscopes := C.laterScopes hlater hm.scopes
  refine ⟨hlater, C.sound hscopes, fun a ha => ?_⟩
  cases ha
  exact ⟨n.made, rfl, ⟨hm.made_eq, hi, Nat.le_refl _⟩, hscopes, congrArg (· + 1) hm.made_eq⟩

/-- Computations in frames that agree are compared like the computations. -/
theorem rel_inFrame {R : Nat → α → α → Prop} {s t : Scope} {x y : Eval α}
    (hst : ∀ j, i ≤ j → ∀ {s' t'}, C.Scopes j s' t' → C.Scopes j s t) (h : C.Rel i R x y) :
    C.Rel i R (inFrame s x) (inFrame t y) := by
  intro m n hm hi
  have hframes : C.Machines { m with scope := s } { n with scope := t } :=
    ⟨hst _ hi hm.scopes, hm.made_eq⟩
  obtain ⟨hmade, -, hresult⟩ := h _ _ hframes hi
  have hscopes := C.laterScopes hmade hm.scopes
  refine ⟨hmade, C.sound hscopes, fun a ha => ?_⟩
  obtain ⟨b, hy, hab, hafter⟩ := hresult a ha
  exact ⟨b, hy, hab, hscopes, hafter.made_eq⟩

theorem rel_callEntry {args args' : List Value} (h : List.Forall₂ (C.Values i) args args')
    (entry : Entry) :
    C.Rel i C.Values (callEntry registry entry args) (callEntry registry entry args') := by
  refine C.rel_bind (C.rel_report _ _) fun j hj _ _ _ => ?_
  cases hv : entry.call registry args with
  | error fault => exact C.rel_fail fault _
  | ok v =>
      obtain ⟨w, hw, hvw⟩ := C.entry h entry v hv
      rw [hw]
      exact C.rel_value (C.laterValues hj hvw)

/-! ## Steps of an evaluation -/

section steps

variable {v w : Value} {vs ws : List Value}

theorem laterAll {j : Nat} (hij : i ≤ j) (h : List.Forall₂ (C.Values i) vs ws) :
    List.Forall₂ (C.Values j) vs ws := h.imp fun _ _ => C.laterValues hij

theorem allAlike (h : List.Forall₂ (C.Values i) vs ws) : List.Forall₂ Value.Alike vs ws :=
  h.imp fun _ _ => C.alike

theorem rel_truth (h : C.Values i v w) :
    C.Rel i (fun _ => (· = ·)) (ofExcept v.truth) (ofExcept w.truth) := by
  rw [(C.alike h).truth_eq]
  exact C.rel_same _

theorem rel_toReal (h : C.Values i v w) :
    C.Rel i (fun _ => (· = ·)) (ofExcept v.toReal) (ofExcept w.toReal) := by
  rw [(C.alike h).toReal_eq]
  exact C.rel_same _

theorem rel_collect (h : List.Forall₂ (C.Values i) vs ws) :
    C.Rel i C.Values (ofExcept (Value.collect vs)) (ofExcept (Value.collect ws)) := by
  rw [Value.collect_alike (C.allAlike h)]
  exact C.rel_plain (Value.collect_plain ws)

theorem rel_indices (h : List.Forall₂ (C.Values i) vs ws) :
    C.Rel i (fun _ => (· = ·)) (ofExcept (vs.mapM indices)) (ofExcept (ws.mapM indices)) := by
  rw [mapM_alike Value.Alike.indices_eq (C.allAlike h)]
  exact C.rel_same _

theorem rel_select (h : C.Values i v w) (lists : List (List Nat)) :
    C.Rel i C.Values (ofExcept (select v lists)) (ofExcept (select w lists)) := by
  rw [(C.alike h).select_eq]
  exact C.rel_plain (select_plain w lists)

/-- A range has the same values within limits that agree. -/
theorem rel_range {s t : Scope} (h : C.Scopes i s t) (first last step : Float) :
    C.Rel i C.Values
      (do let xs ← ofExcept (rangeValues first last step s.maxElements)
          pure (.matrix (.ofReals xs)))
      (do let xs ← ofExcept (rangeValues first last step t.maxElements)
          pure (.matrix (.ofReals xs))) := by
  have hrange : C.Rel i (fun _ => (· = ·)) (ofExcept (rangeValues first last step s.maxElements))
      (ofExcept (rangeValues first last step t.maxElements)) :=
    C.rel_ofExcept fun xs hxs => ⟨xs, C.range h first last step xs hxs, rfl⟩
  refine C.rel_bind hrange fun j _ xs _ hsame => ?_
  subst hsame
  exact C.rel_value (C.plain j fun hkind => by cases hkind)

/-- A variable holds the same matrix on both sides, if it holds one. -/
theorem variableMatrix_eq {s t : Scope} (h : C.Scopes i s t) (name : String) :
    variableMatrix s name = variableMatrix t name := by
  have hvalues := C.get? h name
  rw [variableMatrix, variableMatrix]
  generalize s.get? name = held at hvalues ⊢
  generalize t.get? name = held' at hvalues ⊢
  cases hvalues with
  | none => rfl
  | some hvw => cases C.alike hvw <;> rfl

theorem rel_updateVariable (h : C.Values i v w) (name : String) (lists : List (List Nat)) :
    C.Rel i (fun _ _ _ => True) (updateVariable name lists v) (updateVariable name lists w) := by
  refine C.rel_bind C.rel_scope fun _ _ s t hst => ?_
  rw [C.variableMatrix_eq hst, (C.alike h).replacement_eq]
  refine C.rel_bind (C.rel_same _) fun _ _ m _ hsame => ?_
  subst hsame
  refine C.rel_bind (C.rel_same _) fun j _ r _ hsame => ?_
  subst hsame
  have hgrowth : C.Rel j (fun _ _ _ => True) (ofExcept (checkGrowth m lists s.maxElements))
      (ofExcept (checkGrowth m lists t.maxElements)) :=
    C.rel_ofExcept fun a ha => ⟨a, C.growth hst m lists ha, trivial⟩
  refine C.rel_bind hgrowth fun _ _ _ _ _ => ?_
  refine C.rel_bind (C.rel_report _ _) fun _ _ _ _ _ => ?_
  refine C.rel_bind (C.rel_same (m.setSubset lists r).1) fun k _ _ _ _ => ?_
  exact C.rel_assign (C.plain k (v := .matrix _) nofun) name

/-- A value is assigned and passed on. -/
theorem rel_assigned (h : C.Values i v w) (name : String) :
    C.Rel i C.Values (do assign name v; pure v) (do assign name w; pure w) :=
  C.rel_bind (C.rel_assign h name) fun _ hj _ _ _ => C.rel_value (C.laterValues hj h)

end steps

/-! ## Code -/

section code

variable {call call' : Caller Eval}

/-- Calls of functions that agree with arguments that agree are compared, from any frame. -/
def Calls (call call' : Caller Eval) : Prop :=
  ∀ i f g args args' depth, C.Values i (.function f) (.function g) →
    List.Forall₂ (C.Values i) args args' →
      C.Rel i C.Values (call f args depth) (call' g args' depth)

/-- A name stands for functions that agree, or for the same entry. -/
theorem rel_callNamed (hcall : C.Calls call call') (name : String) (fallback : Option Entry)
    {args args' : List Value} (hargs : List.Forall₂ (C.Values i) args args') :
    C.Rel i C.Values (callNamed registry call name fallback args)
      (callNamed registry call' name fallback args') := by
  refine C.rel_bind C.rel_scope fun j hj s t hst => ?_
  have hargs := C.laterAll hj hargs
  -- the name is bound on both sides or on neither, so both sides choose alike
  have hvalues := C.get? hst name
  rw [C.depth hst]
  generalize s.get? name = held at hvalues ⊢
  generalize t.get? name = held' at hvalues ⊢
  cases hvalues with
  | none =>
      cases fallback with
      | none => exact C.rel_fail _ _
      | some entry => exact C.rel_callEntry hargs entry
  | @some v w hvw =>
      cases C.alike hvw with
      | functions f g => exact hcall j f g args args' _ hvw hargs
      -- values that are the same on both sides are functions on both or on neither
      | same v =>
          cases v with
          | function f => exact hcall j f f args args' _ hvw hargs
          | _ => exact C.rel_fail _ _

mutual

/-- Evaluations of the same code are compared if the calls that they make are. -/
theorem rel_code (hcall : C.Calls call call') (c : Code) (i : Nat) :
    C.Rel i C.Values (code registry call c) (code registry call' c) := by
  match c with
  | .constant value =>
      rw [code, code]
      refine C.rel_value (C.plain i ?_)
      cases value <;> nofun
  | .symbol name =>
      rw [code, code]
      refine C.rel_bind C.rel_scope fun j _ s t hst => ?_
      have hvalues := C.get? hst name
      -- what the two scopes hold is all that is used of them
      generalize s.get? name = held at hvalues ⊢
      generalize t.get? name = held' at hvalues ⊢
      cases hvalues with
      | none => exact C.rel_fail _ _
      | some hvw => exact C.rel_value hvw
  | .builtin entry args =>
      rw [code, code]
      exact C.rel_bind (rel_codes hcall args i) fun _ _ _ _ hargs => C.rel_callEntry hargs entry
  | .call name fallback args =>
      rw [code, code]
      exact C.rel_bind (rel_codes hcall args i) fun _ _ _ _ hargs =>
        C.rel_callNamed hcall name fallback hargs
  | .array items =>
      rw [code, code]
      exact C.rel_bind (rel_codes hcall items i) fun _ _ _ _ hitems => C.rel_collect hitems
  | .assign name expr =>
      rw [code, code]
      exact C.rel_bind (rel_code hcall expr i) fun _ _ _ _ hvw => C.rel_assigned hvw name
  | .block entries =>
      rw [code, code]
      exact rel_blockEntries hcall (C.plain i (v := .null) nofun) entries
  | .conditional condition whenTrue whenFalse =>
      rw [code, code]
      refine C.rel_bind (rel_code hcall condition i) fun _ _ v w hvw => ?_
      refine C.rel_bind (C.rel_truth hvw) fun j _ b _ hsame => ?_
      subst hsame
      -- the conditions are the same truth, so both sides take the same branch
      cases b with
      | true => exact rel_code hcall whenTrue j
      | false => exact rel_code hcall whenFalse j
  | .define name params body =>
      rw [code, code]
      refine C.rel_bind C.rel_scope fun _ _ s t hst => ?_
      refine C.rel_bind C.rel_freshStamp fun j _ stamp _ hstamp => ?_
      -- the stamps are the same, and from here on used up on both sides
      obtain ⟨rfl, hscope, hused⟩ := hstamp
      have hmade := C.snapshot (C.laterScopes hscope hst) name params body
      exact C.rel_assigned (C.laterValues hused hmade) name
  | .index object dimensions =>
      rw [code, code]
      refine C.rel_bind (rel_code hcall object i) fun j _ v w hvw => ?_
      refine C.rel_bind (rel_codes hcall dimensions j) fun k hk vs ws hvs => ?_
      refine C.rel_bind (C.rel_indices hvs) fun l hl lists _ hsame => ?_
      subst hsame
      exact C.rel_select (C.laterValues (Nat.le_trans hk hl) hvw) lists
  | .range start stop none =>
      rw [code, code]
      refine C.rel_bind (rel_code hcall start i) fun _ _ v v' hv => ?_
      refine C.rel_bind (C.rel_toReal hv) fun j _ first _ hfirst => ?_
      refine C.rel_bind (rel_code hcall stop j) fun _ _ w w' hw => ?_
      refine C.rel_bind (C.rel_toReal hw) fun _ _ last _ hlast => ?_
      refine C.rel_bind C.rel_scope fun _ _ s t hst => ?_
      subst hfirst hlast
      exact C.rel_range hst first last 1
  | .range start stop (some step) =>
      rw [code, code]
      refine C.rel_bind (rel_code hcall start i) fun _ _ v v' hv => ?_
      refine C.rel_bind (C.rel_toReal hv) fun j _ first _ hfirst => ?_
      refine C.rel_bind (rel_code hcall stop j) fun _ _ w w' hw => ?_
      refine C.rel_bind (C.rel_toReal hw) fun k _ last _ hlast => ?_
      refine C.rel_bind (rel_code hcall step k) fun _ _ u u' hu => ?_
      refine C.rel_bind (C.rel_toReal hu) fun _ _ stride _ hstride => ?_
      refine C.rel_bind C.rel_scope fun _ _ s t hst => ?_
      subst hfirst hlast hstride
      exact C.rel_range hst first last stride
  | .update name dimensions expr =>
      rw [code, code]
      refine C.rel_bind (rel_codes hcall dimensions i) fun _ _ vs ws hvs => ?_
      refine C.rel_bind (C.rel_indices hvs) fun j _ lists _ hsame => ?_
      subst hsame
      refine C.rel_bind (rel_code hcall expr j) fun _ _ v w hvw => ?_
      exact C.rel_bind (C.rel_updateVariable hvw name lists) fun _ hk _ _ _ =>
        C.rel_value (C.laterValues hk hvw)

theorem rel_codes (hcall : C.Calls call call') (cs : List Code) (i : Nat) :
    C.Rel i (fun j => List.Forall₂ (C.Values j)) (codes registry call cs)
      (codes registry call' cs) := by
  match cs with
  | [] =>
      rw [codes, codes]
      exact C.rel_pure fun _ _ => .nil
  | first :: rest =>
      rw [codes, codes]
      refine C.rel_bind (rel_code hcall first i) fun j _ v w hvw => ?_
      refine C.rel_bind (rel_codes hcall rest j) fun k hk vs ws hvs => ?_
      exact C.rel_pure fun l hl => C.laterAll hl (.cons (C.laterValues hk hvw) hvs)

theorem rel_blockEntries (hcall : C.Calls call call') {v w : Value} {i : Nat}
    (hvw : C.Values i v w) (entries : List (Code × Bool)) :
    C.Rel i C.Values (blockEntries registry call v entries)
      (blockEntries registry call' w entries) := by
  match entries with
  | [] =>
      rw [blockEntries, blockEntries]
      exact C.rel_value hvw
  | (first, visible) :: rest =>
      rw [blockEntries, blockEntries]
      refine C.rel_bind (rel_code hcall first i) fun j hj v' w' hnext => ?_
      -- only a visible entry replaces the value so far, which is old by now
      cases visible with
      | true => exact rel_blockEntries hcall hnext rest
      | false => exact rel_blockEntries hcall (C.laterValues hj hvw) rest

end

end code

/-! ## Calls -/

/-- Calls with the same room are compared. A function with a larger limit is not refused where one
with a smaller limit is called. -/
theorem rel_call (room : Nat) : C.Calls (call registry room) (call registry room) := by
  induction room with
  | zero =>
      intro i f g args args' depth _ _
      unfold call
      split
      · exact C.rel_fail _ _
      · split
        · exact C.rel_fail _ _
        · exact C.rel_fail _ _
  | succ room ih =>
      intro i f g args args' depth hfg hargs
      obtain ⟨hparams, hbody, hlimit⟩ := C.function hfg
      rw [UInt64.le_iff_toNat_le] at hlimit
      unfold call
      rw [hparams, hargs.length_eq, ← hbody]
      split
      · exact C.rel_fail _ _
      · split
        · exact C.rel_fail _ _
        · next hallowed =>
            -- the second function allows at least the depth that the first one does
            rw [if_neg fun h => hallowed (Nat.lt_of_le_of_lt hlimit h)]
            refine C.rel_inFrame (fun j hj _ _ hst => ?_) (C.rel_code ih f.body i)
            exact C.frame hst (C.laterValues hj hfg) (C.laterAll hj hargs) depth

/-- Evaluations of the same code at the top level are compared. -/
theorem rel_run (c : Code) (i : Nat) : C.Rel i C.Values (run registry c) (run registry c) :=
  C.rel_code (C.rel_call Word.last) c i

end Comparison

end Formula.Eval
