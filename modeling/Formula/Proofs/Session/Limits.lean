import Mathlib
import Formula.Proofs.Eval.Moment
import Formula.Proofs.Session.Act

set_option autoImplicit false

/-! # Which limits are in force

The limits of a session are those of its scope. An evaluation is held to them as long as it is not
in the body of a function. A function captures the limits together with the variables when it is
made, and its body is held to these, whatever the limits of the session have become: to lower a
limit does not reach the functions that there are. So the limits of every frame have been the
limits of the session at some moment before the function was made, unless the function was given
to the session from outside, or was made in the body of such a function.
-/

namespace Formula

namespace Session

/-- The moment when an evaluation of code begins in the session. -/
def moment (s : Session) (code : Code) : Moment := .top code s.machine

/-- The functions that come into a session from outside, while the host acts. -/
inductive Supplied (s : Session) (acts : List Act) (f : Closure Value) : Prop where
  /-- The function is there at the beginning. -/
  | initial {name : String} {v : Value} (hv : (name, v) ∈ s.scope.vars) (hf : v.Reaches f)
  /-- The host sets a variable to a value that reaches the function, and no variable has reached
  it before. -/
  | set {before : List Act} {name : String} {v : Value} (hact : before ++ [.set name v] <+: acts)
      (hf : v.Reaches f)
      (hnew : ∀ earlier, earlier <+: before → ∀ e ∈ (s.after earlier).scope.vars, ¬e.2.Reaches f)
  /-- A function of the host returns it, and no argument reaches it. -/
  | host {g : HostFunction} {args : List Value} {v : Value} (hg : g ∈ s.library.registry)
      (hv : g args = .ok v) (hf : v.Reaches f) (hnew : ∀ a ∈ args, ¬a.Reaches f)

/-- A function that there can be after the acts, and where its limits come from: it was supplied, or
it was there before the last act, or the last act has made it. Then its limits are those of the
session at that time, or those of a function that was there before. -/
inductive Granted (s : Session) : List Act → Closure Value → Prop where
  | supplied {acts : List Act} {f : Closure Value} (h : s.Supplied acts f) : Granted s acts f
  | earlier {acts : List Act} {f : Closure Value} (h : Granted s acts f) (a : Act) :
      Granted s (acts ++ [a]) f
  | made {acts : List Act} {a : Act} {f : Closure Value}
      (hbefore : (s.after acts).made ≤ f.stamp) (hafter : f.stamp < (s.after (acts ++ [a])).made)
      (hlimits : f.limits = (s.after acts).scope.limits) : Granted s (acts ++ [a]) f
  | inherited {acts : List Act} {a : Act} {f g : Closure Value}
      (hbefore : (s.after acts).made ≤ f.stamp) (hafter : f.stamp < (s.after (acts ++ [a])).made)
      (hg : Granted s acts g) (hlimits : f.limits = g.limits) : Granted s (acts ++ [a]) f

/-- The limits of frames in an evaluation after the acts: the session's own limits, or those of a
function that there was before the evaluation. -/
def InForce (s : Session) (acts : List Act) (limits : Limits) : Prop :=
  limits = (s.after acts).scope.limits ∨ ∃ g, s.Granted acts g ∧ limits = g.limits

/-- Functions in an evaluation after the acts: those that there were before, and those that the
evaluation makes, which have limits that are in force. -/
def Present (s : Session) (acts : List Act) (f : Closure Value) : Prop :=
  s.Granted acts f ∨ (s.after acts).made ≤ f.stamp ∧ s.InForce acts f.limits

variable {s : Session} {acts : List Act}

theorem Granted.later {earlier : List Act} {f : Closure Value} (h : s.Granted earlier f)
    (hlonger : earlier <+: acts) : s.Granted acts f := by
  obtain ⟨rest, rfl⟩ := hlonger
  induction rest using List.reverseRecOn with
  | nil =>
      rw [List.append_nil]
      exact h
  | append_singleton rest a ih =>
      rw [← List.append_assoc]
      exact ih.earlier a

variable (s acts)

/-- In an evaluation after the acts, frames and functions that are made have limits that are in
force. -/
def grants : Kept s.library.registry where
  Function := fun i f => s.Granted acts f ∨
    ((s.after acts).made ≤ f.stamp ∧ f.stamp < i ∧ s.InForce acts f.limits)
  Frame := fun i t => (s.after acts).made ≤ i ∧ s.InForce acts t.limits
  laterFunction := by
    rintro i j f hij (h | ⟨hbefore, hstamp, h⟩)
    · exact .inl h
    · exact .inr ⟨hbefore, Nat.lt_of_lt_of_le hstamp hij, h⟩
  laterFrame := fun hij h => ⟨Nat.le_trans h.1 hij, h.2⟩
  set := fun h _ _ => h
  snapshot := fun h _ _ _ => .inr ⟨h.1, Nat.lt_succ_self _, h.2⟩
  frame := by
    rintro i t f ⟨hbefore, -⟩ (h | ⟨-, -, h⟩) args depth
    · exact ⟨hbefore, .inr ⟨f, h, rfl⟩⟩
    · exact ⟨hbefore, h⟩
  host := by
    intro g hg args v hv i hargs f hf
    by_cases hold : ∃ a ∈ args, a.Reaches f
    · obtain ⟨a, ha, haf⟩ := hold
      exact hargs a ha f haf
    · have hnew : ∀ a ∈ args, ¬a.Reaches f := fun a ha haf => hold ⟨a, ha, haf⟩
      exact .inl (.supplied (.host hg hv hf hnew))

variable {s acts}

theorem present_of_grants {i : Nat} {f : Closure Value} (h : (s.grants acts).Function i f) :
    s.Present acts f := by
  rcases h with h | ⟨hbefore, -, h⟩
  · exact .inl h
  · exact .inr ⟨hbefore, h⟩

/-- A scope whose functions have been granted is one that evaluation keeps so. -/
theorem scope_grants (h : Table.All (s.Granted acts) (s.after acts).scope.vars) :
    (s.grants acts).Scope (s.after acts).made (s.after acts).scope :=
  ⟨⟨Nat.le_refl _, .inl rfl⟩, h.mono fun _ hf => .inl hf⟩

/-- The functions that an evaluation leaves have been granted. -/
theorem granted_performed (h : Table.All (s.Granted acts) (s.after acts).scope.vars) {a : Act}
    {code : Code} (ha : (s.after acts).Performs code ((s.after acts).act a)) :
    Table.All (s.Granted (acts ++ [a])) ((s.after acts).act a).scope.vars := by
  have hregistry : (s.after acts).library.registry = s.library.registry := by
    rw [library_after]
  have hafter := (s.grants acts).after_code (m := (s.after acts).machine) (scope_grants h)
    Word.last code
  rw [ha.scope_eq, performed, Eval.run, hregistry]
  refine hafter.scope.functions.mono fun f hf => ?_
  rcases hf with hf | ⟨hbefore, hstamp, hlimits⟩
  · exact hf.earlier a
  · have hmade : f.stamp < (s.after (acts ++ [a])).made := by
      rw [after_concat, ha.made_eq, performed, Eval.run, hregistry]
      exact hstamp
    rcases hlimits with hlimits | ⟨g, hg, hlimits⟩
    · exact .made hbefore hmade hlimits
    · exact .inherited hbefore hmade hg hlimits

/-- At any time, the functions within reach of the variables have been granted. -/
theorem granted_after (s : Session) (acts : List Act) : ∀ before, before <+: acts →
    Table.All (s.Granted before) (s.after before).scope.vars := by
  induction acts using List.reverseRecOn with
  | nil =>
      intro before hbefore
      rw [List.prefix_nil.mp hbefore]
      exact fun e he f hf => .supplied (.initial he hf)
  | append_singleton acts a ih =>
      intro before hbefore
      rcases List.prefix_concat_iff.mp hbefore with rfl | hbefore
      · have hnow := ih acts (List.prefix_refl acts)
        have hkept : Table.All (s.Granted (acts ++ [a])) (s.after acts).scope.vars :=
          hnow.mono fun f hf => hf.earlier a
        rw [after_concat]
        rcases (s.after acts).act_cases a with
          ⟨name, v, rfl, ha⟩ | ⟨code, ha⟩ | ⟨-, -, hvars, -⟩ | ⟨rfl, ha⟩
        · rw [ha]
          refine hkept.insert (fun f hf => ?_) name
          by_cases hold : ∃ earlier, earlier <+: acts ∧
              ∃ e ∈ (s.after earlier).scope.vars, e.2.Reaches f
          · obtain ⟨earlier, hearlier, e, he, hef⟩ := hold
            have hgranted := ih earlier hearlier e he f hef
            exact hgranted.later (List.IsPrefix.trans hearlier (List.prefix_append acts _))
          · have hnew : ∀ earlier, earlier <+: acts →
                ∀ e ∈ (s.after earlier).scope.vars, ¬e.2.Reaches f :=
              fun earlier hearlier e he hef => hold ⟨earlier, hearlier, e, he, hef⟩
            exact .supplied (.set (List.prefix_refl _) hf hnew)
        · exact granted_performed hnow ha
        · rw [hvars]
          exact hkept
        · rw [ha]
          exact Scope.all_standard _
      · exact ih before hbefore

/-! ## Limits on elements -/

theorem Supplied.later {earlier : List Act} {f : Closure Value} (h : s.Supplied earlier f)
    (hlonger : earlier <+: acts) : s.Supplied acts f := by
  cases h with
  | initial hv hf => exact .initial hv hf
  | set hact hf hnew => exact .set (List.IsPrefix.trans hact hlonger) hf hnew
  | host hg hv hf hnew => exact .host hg hv hf hnew

/-- No function has a limit on elements that is larger than any may be. -/
theorem Granted.elements_le {f : Closure Value} (h : s.Granted acts f)
    (hstart : s.scope.maxElements ≤ maxElements)
    (hsupplied : ∀ f, s.Supplied acts f → f.maxElements ≤ maxElements) :
    f.limits.elements ≤ maxElements := by
  induction h with
  | supplied h => exact hsupplied _ h
  | @earlier acts f _ a ih =>
      exact ih fun g hg => hsupplied g (hg.later (List.prefix_append acts [a]))
  | @made acts a f _ _ hlimits =>
      rw [hlimits]
      exact s.maxElements_after acts hstart
  | @inherited acts a f g _ _ _ hlimits ih =>
      rw [hlimits]
      exact ih fun g hg => hsupplied g (hg.later (List.prefix_append acts [a]))

theorem InForce.elements_le {limits : Limits} (h : s.InForce acts limits)
    (hstart : s.scope.maxElements ≤ maxElements)
    (hsupplied : ∀ f, s.Supplied acts f → f.maxElements ≤ maxElements) :
    limits.elements ≤ maxElements := by
  rcases h with rfl | ⟨g, hg, rfl⟩
  · exact s.maxElements_after acts hstart
  · exact hg.elements_le hstart hsupplied

/-- **Which limits are in force.** Let a host act on a session and then have it evaluate code, and
take any moment of that evaluation. Outside of the bodies of functions the frame is at depth `0`
and has the limits that the session has then. In the body of a function it is no deeper than the
function allows, and has the limits of the function; these are limits that the session had when the
evaluation began that has made the function, or those of a function that was there before that
evaluation, unless the function was supplied. A definition makes a function with the limits of its
frame, and a range has no more values than its frame allows. -/
theorem moment_within_limits (hdepth : s.scope.depth = 0)
    (hlimit : s.scope.maxElements ≤ maxElements)
    (hsupplied : ∀ f, s.Supplied acts f → f.maxElements ≤ maxElements) (code : Code) {μ : Moment}
    (hμ : Moment.Comes s.library.registry ((s.after acts).moment code) μ) :
    (μ.function = none →
      μ.machine.scope.limits = (s.after acts).scope.limits ∧ μ.machine.scope.depth = 0) ∧
    (∀ f, μ.function = some f → s.Present acts f ∧ μ.machine.scope.limits = f.limits ∧
      μ.machine.scope.depth ≤ f.maxDepth.toNat) ∧
    (∀ name params body, μ.code = .define name params body →
      ∃ f, (μ.outcome s.library.registry).1 = .ok (.function f) ∧
        f.limits = μ.machine.scope.limits ∧ (s.after acts).made ≤ f.stamp) ∧
    (∀ start stop step v, μ.code = .range start stop step →
      (μ.outcome s.library.registry).1 = .ok v → Eval.Row μ.machine.scope.maxElements v) := by
  have hgranted := s.granted_after acts acts (List.prefix_refl acts)
  have hstart : (s.after acts).scope.depth = 0 := s.depth_after acts hdepth
  have hregular : Moment.Regular (s.grants acts) (s.after acts).scope μ :=
    hμ.regular (Moment.regular_top (m := (s.after acts).machine) (scope_grants hgranted) hstart
      code)
  obtain ⟨hbefore, hinForce⟩ := hregular.scope.frame
  refine ⟨fun hnone => ?_, fun f hf => ?_, fun name params body hcode => ?_,
    fun start stop step v hcode hv => ?_⟩
  · obtain ⟨hlimits, htop⟩ := hregular.outside hnone
    exact ⟨hlimits, htop.trans hstart⟩
  · obtain ⟨hfunction, hlimits, hdeep⟩ := hregular.inside f hf
    exact ⟨present_of_grants hfunction, hlimits, hdeep⟩
  · refine ⟨μ.machine.scope.snapshot name params body μ.machine.made, ?_, rfl, hbefore⟩
    rw [Moment.outcome, hcode, Eval.code]
    rfl
  · have helements := hinForce.elements_le hlimit hsupplied
    rw [Moment.outcome, hcode] at hv
    exact Eval.ranges_code s.library.registry μ.room helements start stop step μ.machine rfl v hv

/-! ## A limit that is lowered -/

/-- A function that gives back its argument. -/
def identity : Closure Value := Scope.empty.snapshot "f" ["x"] (.symbol "x") 0

/-- The function is defined, and then no call is allowed any more. -/
def lowered : List Act :=
  [.evaluate (.functionAssignment "f" ["x"] (.symbol "x")), .limitDepth 0]

/-- A tree that calls the function. That it also assigns to `f`, in a branch that is not taken, has
`f` looked up among the variables. -/
def calling : Node :=
  .conditional (.constant (.boolean true)) (.function "f" [.constant (.boolean true)])
    (.assignment "f" (.constant .null))

/-- The code of the tree. -/
def callingCode : Code :=
  .conditional (.constant (.boolean true)) (.call "f" none [.constant (.boolean true)])
    (.assign "f" (.constant .null))

theorem compile_calling : (calling.compile Library.standard.entries).1 = .ok callingCode := by
  cbv

/-- The machine of a session that has the function and allows no call. -/
def lowMachine : Machine := ⟨(Scope.empty.set "f" (.function identity)).withMaxDepth 0, 1, #[]⟩

theorem machine_lowered : ((start Scope.empty).after lowered).machine = lowMachine := by rfl

/-- When an evaluation is in the body of the function. -/
def inBody (room : Nat) : Moment :=
  ⟨some identity, room, .symbol "x", ⟨identity.frame [.boolean true] 1, 1, #[]⟩⟩

/-- The evaluation of the tree comes to the body of the function. -/
theorem comes_inBody (room : Nat) :
    Moment.Comes #[] ⟨none, room + 1, callingCode, lowMachine⟩ (inBody room) := by
  have hbranch : Moment.Leads #[] ⟨none, room + 1, callingCode, lowMachine⟩
      ⟨none, room + 1, .call "f" none [.constant (.boolean true)], lowMachine⟩ :=
    @Moment.Leads.branch #[] none (room + 1) _ _ _ lowMachine lowMachine (.boolean true) true
      rfl rfl
  have hbody : Moment.Leads #[]
      ⟨none, room + 1, .call "f" none [.constant (.boolean true)], lowMachine⟩ (inBody room) :=
    @Moment.Leads.body #[] none room "f" none _ lowMachine lowMachine [.boolean true] identity
      rfl rfl rfl (by decide)
  exact .tail (.single hbranch) hbody

theorem moment_lowered :
    ((start Scope.empty).after lowered).moment callingCode
      = ⟨none, Word.last - 1 + 1, callingCode, lowMachine⟩ := by
  rw [moment, machine_lowered, Moment.top]
  rfl

/-- **A limit that is lowered does not reach a function that there is.** The function is defined,
the limit on the depth of calls is set to `0`, and an evaluation still enters the body of the
function, in a frame of depth `1`. -/
theorem lowered_limit_exceeded :
    ((start Scope.empty).after lowered).scope.maxDepth = 0 ∧
      (calling.compile Library.standard.entries).1 = .ok callingCode ∧
      ∃ μ, Moment.Comes Library.standard.registry
          (((start Scope.empty).after lowered).moment callingCode) μ ∧
        μ.function = some identity ∧ μ.machine.scope.depth = 1 := by
  refine ⟨rfl, compile_calling, inBody (Word.last - 1), ?_, rfl, rfl⟩
  rw [moment_lowered]
  exact comes_inBody (Word.last - 1)

/-- No function is supplied. -/
theorem not_supplied_lowered (f : Closure Value) : ¬(start Scope.empty).Supplied lowered f := by
  intro h
  cases h with
  | initial hv _ => exact nomatch hv
  | @set before name v hact _ _ =>
      have hmem : Act.set name v ∈ lowered :=
        hact.subset (List.mem_append_right before (List.mem_singleton.mpr rfl))
      rw [lowered, List.mem_cons, List.mem_singleton] at hmem
      rcases hmem with hmem | hmem <;> exact nomatch hmem
  | host hg _ _ _ => exact absurd hg (Array.not_mem_empty _)

/-- In the body the limits are those that the session had when the evaluation began that has made
the function. -/
theorem moment_within_limits_lowered :
    Moment.Comes (start Scope.empty).library.registry
        (((start Scope.empty).after lowered).moment callingCode) (inBody (Word.last - 1)) ∧
      (start Scope.empty).Present lowered identity ∧
      (inBody (Word.last - 1)).machine.scope.limits = ⟨256, maxElements⟩ ∧
      (inBody (Word.last - 1)).machine.scope.depth ≤ 256 := by
  have hcomes : Moment.Comes (start Scope.empty).library.registry
      (((start Scope.empty).after lowered).moment callingCode) (inBody (Word.last - 1)) := by
    rw [moment_lowered]
    exact comes_inBody (Word.last - 1)
  obtain ⟨-, hinside, -⟩ := moment_within_limits (s := start Scope.empty) rfl (Nat.le_refl _)
    (fun f hf => absurd hf (not_supplied_lowered f)) callingCode hcomes
  obtain ⟨hpresent, hlimits, hdepth⟩ := hinside identity rfl
  exact ⟨hcomes, hpresent, hlimits, hdepth⟩

end Session

end Formula
