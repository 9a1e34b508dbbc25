import Formula.Proofs.Eval.Depth
import Formula.Proofs.Eval.Moment
import Formula.Proofs.Matrix.Overflow
import Formula.Proofs.Standard.Answered

set_option autoImplicit false

/-! # Evaluations that answer

An evaluation ends with a value or with an error, unless it breaks off. It does not break off as
long as what it computes can be written out: the value of each piece of code that it comes to, the
variables afterwards, and what an index selects (`Moment.Addressable`). The proof follows the
moments of the evaluation, over the room and then over the code.
-/

namespace Formula

open Moment

variable {registry : Registry} {room : Nat} {function : Option (Closure Value)}

/-- The functions of a host always answer. -/
def Total (registry : Registry) : Prop := ∀ g ∈ registry, ∀ args, Answered (g args)

/-- The standard library has no functions of a host. -/
theorem total_standard : Total Library.standard.registry :=
  fun g hg => absurd hg (Array.not_mem_empty g)

theorem Entry.call_answered (total : Total registry) (entry : Entry) {args : List Value}
    (h : ∀ v ∈ args, v.Addressable) : Answered (entry.call registry args) := by
  refine answered_ite (fun _ => ?_) fun _ => answered_refused rfl
  unfold perform
  split
  · exact Operation.apply_answered _ h
  · split
    · next g found => exact total g (Array.mem_of_getElem? found) args
    · exact answered_refused rfl

/-! ## Steps of an evaluation -/

namespace Eval

section steps

variable {α β : Type} {m : Machine}

theorem bind_answered {x : Eval α} {k : α → Eval β} (hx : Answered (x m).1)
    (hk : ∀ a after, x m = (.ok a, after) → Answered (k a after).1) :
    Answered ((x >>= k) m).1 := by
  rw [Outcome.bind_apply]
  cases h : x m with
  | mk outcome after =>
      rw [h] at hx
      cases outcome with
      | error fault => exact hx.error
      | ok a => exact hk a after h

theorem ofExcept_answered {outcome : Except EvalError α} (h : Answered outcome) (m : Machine) :
    Answered (ofExcept outcome m).1 := by
  cases outcome with
  | error fault => exact h
  | ok a => exact answered_ok a

theorem bind_ofExcept_answered {outcome : Except EvalError α} {k : α → Eval β}
    (hx : Answered outcome) (hk : ∀ a, outcome = .ok a → Answered (k a m).1) :
    Answered ((ofExcept outcome >>= k) m).1 := by
  cases outcome with
  | error fault => exact hx.error
  | ok a => exact hk a rfl

theorem callEntry_answered (total : Total registry) (entry : Entry) {args : List Value}
    (h : ∀ v ∈ args, v.Addressable) (m : Machine) :
    Answered (callEntry registry entry args m).1 :=
  bind_answered (answered_ok ()) fun _ after _ =>
    ofExcept_answered (entry.call_answered total h) after

end steps

/-! ### Positions and selections -/

theorem indexOf_answered (position : Float) : Answered (indexOf position) :=
  answered_ite (fun _ => answered_refused rfl) fun _ => answered_ok _

theorem indices_answered {v : Value} (h : v.Addressable) : Answered (indices v) := by
  cases v with
  | matrix m =>
      have hm : m.Addressable := h
      refine answered_bind hm.expand_answered fun data _ => answered_mapM fun x _ => ?_
      cases x with
      | real x => exact indexOf_answered x
      | complex z => exact answered_refused rfl
  | null | boolean _ | number _ | complex _ | string _ | function _ =>
      refine answered_bind (Value.toReal_answered _) fun x _ => ?_
      exact answered_map (indexOf_answered x) _

/-- Every index is one that a matrix can grow to. -/
theorem lt_last_of_indices {v : Value} {list : List Nat} (h : indices v = .ok list) :
    ∀ i ∈ list, i < Word.last := by
  intro i hi
  cases v with
  | matrix m =>
      obtain ⟨data, -, h⟩ := Outcome.bind_eq_ok.mp h
      obtain ⟨x, -, hx⟩ := Outcome.of_mem_mapM h hi
      cases x with
      | real x => exact Matrix.lt_last_of_indexOf hx
      | complex z => nomatch hx
  | null | boolean _ | number _ | complex _ | string _ | function _ =>
      obtain ⟨x, -, h⟩ := Outcome.bind_eq_ok.mp h
      obtain ⟨k, hk, rfl⟩ := Outcome.map_eq_ok.mp h
      obtain rfl := List.mem_singleton.mp hi
      exact Matrix.lt_last_of_indexOf hk

theorem select_answered {target : Value} {lists : List (List Nat)} (h : target.Addressable)
    (hroom : ∀ m, target = .matrix m → lists.length = m.rank →
      Shape.count (lists.map List.length) ≤ Dense.capacity) : Answered (select target lists) := by
  cases target with
  | matrix m =>
      have hm : m.Addressable := h
      obtain ⟨hanswered, hpart⟩ := hm.subset_answered (hroom m rfl)
      refine answered_bind hanswered fun part hsubset => ?_
      refine answered_ite (fun _ => ?_) fun _ => answered_ok _
      exact answered_map ((hpart part hsubset).get_answered _) _
  | string s =>
      match lists with
      | [list] =>
          refine answered_map (answered_mapM fun i _ => ?_) _
          unfold charAt
          split
          · exact answered_ok _
          · exact answered_refused rfl
      | [] | _ :: _ :: _ => exact answered_refused rfl
  | null | boolean _ | number _ | complex _ | function _ => exact answered_refused rfl

theorem rangeValues_answered (start stop step : Float) (limit : Nat) :
    Answered (rangeValues start stop step limit) := by
  refine answered_ite (fun _ => answered_refused rfl) fun _ => ?_
  refine answered_ite (fun _ => answered_refused rfl) fun _ => ?_
  refine answered_ite (fun _ => answered_ok _) fun _ => ?_
  exact answered_ite (fun _ => answered_ok _) fun _ => answered_refused rfl

/-! ### Updates -/

theorem replacement_answered {v : Value} (h : v.Addressable) : Answered (replacement v) := by
  cases v with
  | matrix m => exact answered_ok m
  | null | boolean _ | number _ | complex _ | string _ | function _ =>
      refine answered_bind (Value.toScalar_answered h) fun x _ => ?_
      exact Matrix.ofData_answered #[x] [1]

/-- A number that is assigned is a matrix of one element. -/
theorem addressable_replacement {v : Value} (h : v.Addressable) {r : Matrix}
    (hr : replacement v = .ok r) : r.Addressable := by
  cases v with
  | matrix m =>
      cases hr
      exact h
  | null | boolean _ | number _ | complex _ | string _ | function _ =>
      obtain ⟨x, -, hr⟩ := Outcome.bind_eq_ok.mp hr
      obtain rfl := Except.ok.inj hr
      have hone : Shape.count [1] ≤ Dense.capacity := by decide
      have hsmall : Shape.count [1] < Word.size := Nat.lt_of_le_of_lt hone Matrix.capacity_lt_size
      exact ⟨⟨rfl, hsmall⟩, hone, fun extent hextent => List.mem_singleton.mp hextent ▸ hone⟩

theorem updateVariable_answered (name : String) {lists : List (List Nat)} {v : Value} {m : Machine}
    (hv : v.Addressable) (hvars : ∀ w, m.scope.get? name = some w → w.Addressable)
    (hbelow : ∀ list ∈ lists, ∀ i ∈ list, i < Word.last) :
    Answered (updateVariable name lists v m).1 := by
  refine bind_answered (answered_ok m.scope) fun s after hscope => ?_
  cases hscope
  refine bind_ofExcept_answered ?_ fun a ha => ?_
  · unfold variableMatrix
    split
    · exact answered_ok _
    · exact answered_refused rfl
    · exact answered_refused rfl
  -- the matrix to be updated is what the variable holds
  have hname : m.scope.get? name = some (.matrix a) := by
    unfold variableMatrix at ha
    split at ha
    · next held found =>
        cases ha
        exact found
    · cases ha
    · cases ha
  have hm : a.Addressable := hvars _ hname
  refine bind_ofExcept_answered (replacement_answered hv) fun r hr => ?_
  refine bind_ofExcept_answered ?_ fun _ _ => ?_
  · unfold checkGrowth
    split
    · exact answered_map (Shape.checkedCount_answered _ _) _
    · exact answered_ok ()
  have hset := hm.wellFormed.setSubset_answered (addressable_replacement hv hr) hbelow
  refine bind_answered (answered_ok ()) fun _ after hreport => ?_
  exact bind_ofExcept_answered hset fun _ _ => answered_ok ()

end Eval

/-! ## Moments that can be written out -/

namespace Moment

/-- What is computed at a moment can be written out: the value of the code, and the variables
afterwards. Of what an index is to select there can be memory for each element. -/
structure Addressable (registry : Registry) (μ : Moment) : Prop where
  value : ∀ v, (μ.outcome registry).1 = .ok v → v.Addressable
  vars : ∀ name v, (μ.outcome registry).2.scope.get? name = some v → v.Addressable
  selection : ∀ object dimensions, μ.code = .index object dimensions →
    ∀ m after values last lists,
      Eval.code registry (Eval.call registry μ.room) object μ.machine = (.ok (.matrix m), after) →
      Eval.codes registry (Eval.call registry μ.room) dimensions after = (.ok values, last) →
      values.mapM Eval.indices = .ok lists → lists.length = m.rank →
      Shape.count (lists.map List.length) ≤ Dense.capacity

/-- All that is computed from a moment on can be written out. -/
def Clear (registry : Registry) (μ : Moment) : Prop :=
  ∀ ν, Comes registry μ ν → ν.Addressable registry

variable {μ ν : Moment}

theorem Clear.own (h : Clear registry μ) : μ.Addressable registry := h μ .refl

theorem Clear.next (h : Clear registry μ) (hstep : Leads registry μ ν) : Clear registry ν :=
  fun κ hκ => h κ (.head hstep hκ)

theorem clear_of_leads (own : μ.Addressable registry)
    (h : ∀ ν, Leads registry μ ν → Clear registry ν) : Clear registry μ := by
  intro κ hκ
  obtain rfl | ⟨ν, hstep, hrest⟩ := hκ.cases_head
  · exact own
  · exact h ν hstep κ hrest

/-- All that is computed in several pieces of code in turn can be written out. -/
abbrev ClearInTurn (registry : Registry) (function : Option (Closure Value)) (room : Nat) :
    List Code → Machine → Prop :=
  AllInTurn registry room fun c m => Clear registry ⟨function, room, c, m⟩

theorem Clear.parts {c : Code} {m : Machine} (h : Clear registry ⟨function, room, c, m⟩) :
    ClearInTurn registry function room c.parts m := fun _ _ hturn => h.next (.part hturn)

/-- The value of a piece of code can be written out. -/
theorem Clear.value {c : Code} {m after : Machine} (h : Clear registry ⟨function, room, c, m⟩)
    {v : Value} (hc : Eval.code registry (Eval.call registry room) c m = (.ok v, after)) :
    v.Addressable := h.own.value v (congrArg Prod.fst hc)

/-- The values of several pieces of code can be written out. -/
theorem addressable_values {cs : List Code} {m after : Machine} {values : List Value}
    (h : ClearInTurn registry function room cs m)
    (hcs : Eval.codes registry (Eval.call registry room) cs m = (.ok values, after)) :
    ∀ v ∈ values, v.Addressable := by
  induction cs generalizing m values with
  | nil =>
      rw [Eval.codes] at hcs
      cases hcs
      exact fun v hv => absurd hv List.not_mem_nil
  | cons first cs ih =>
      rw [Eval.codes] at hcs
      obtain ⟨v, between, hfirst, hcs⟩ := Outcome.exists_of_bind_eq_ok hcs
      obtain ⟨vs, last, hvs, hcs⟩ := Outcome.exists_of_bind_eq_ok hcs
      cases hcs
      exact List.forall_mem_cons.mpr ⟨h.head.value hfirst, ih (h.tail hfirst) hvs⟩

/-! ## Over the code -/

/-- The bodies of functions answer if there is room for one frame less. -/
def BodiesAnswer (registry : Registry) (room : Nat) : Prop :=
  ∀ inner, room = inner + 1 → ∀ (f : Closure Value) (m : Machine),
    Clear registry ⟨some f, inner, f.body, m⟩ →
      Answered (Eval.code registry (Eval.call registry inner) f.body m).1

/-- A name that is called answers, because the body that it calls is come to. -/
theorem callNamed_answered (total : Total registry) (hbodies : BodiesAnswer registry room)
    {name : String} {fallback : Option Entry} {args : List Code} {m after : Machine}
    {values : List Value}
    (h : Clear registry ⟨function, room, .call name fallback args, m⟩)
    (hargs : Eval.codes registry (Eval.call registry room) args m = (.ok values, after)) :
    Answered (Eval.callNamed registry (Eval.call registry room) name fallback values after).1 := by
  refine Eval.bind_answered (answered_ok after.scope) fun s last hscope => ?_
  cases hscope
  generalize hfound : after.scope.get? name = found
  cases found with
  | none =>
      cases fallback with
      | none => exact answered_refused rfl
      | some entry =>
          exact Eval.callEntry_answered total entry (addressable_values h.parts hargs) after
  | some v =>
      cases v with
      | function f =>
          show Answered (Eval.call registry room f values (Word.succ after.scope.depth) after).1
          unfold Eval.call
          by_cases hcount : values.length ≠ f.params.length
          · rw [if_pos hcount]
            exact answered_refused rfl
          rw [if_neg hcount]
          by_cases hlimit : f.maxDepth.toNat < Word.succ after.scope.depth
          · rw [if_pos hlimit]
            exact answered_refused rfl
          rw [if_neg hlimit]
          cases room with
          | zero => exact answered_refused rfl
          | succ inner =>
              have hbody := h.next (.body hargs hfound (not_not.mp hcount) (Nat.not_lt.mp hlimit))
              exact hbodies inner rfl f _ hbody
      | null | boolean _ | number _ | complex _ | string _ | matrix _ =>
          exact answered_refused rfl

mutual

/-- Code answers if all that is computed in it can be written out. -/
theorem code_answered (total : Total registry) (hbodies : BodiesAnswer registry room) (c : Code)
    {m : Machine} (h : Clear registry ⟨function, room, c, m⟩) :
    Answered (Eval.code registry (Eval.call registry room) c m).1 := by
  match c with
  | .constant value =>
      rw [Eval.code]
      exact answered_ok _
  | .symbol name =>
      rw [Eval.code]
      refine Eval.bind_answered (answered_ok m.scope) fun s after _ => ?_
      cases s.get? name with
      | none => exact answered_refused rfl
      | some v => exact answered_ok v
  | .builtin entry args =>
      rw [Eval.code]
      refine Eval.bind_answered (codes_answered total hbodies args h.parts)
        fun values after hvalues => ?_
      exact Eval.callEntry_answered total entry (addressable_values h.parts hvalues) after
  | .call name fallback args =>
      rw [Eval.code]
      refine Eval.bind_answered (codes_answered total hbodies args h.parts)
        fun values after hvalues => ?_
      exact callNamed_answered total hbodies h hvalues
  | .array items =>
      rw [Eval.code]
      refine Eval.bind_answered (codes_answered total hbodies items h.parts)
        fun values after hvalues => ?_
      have haddressable := addressable_values h.parts hvalues
      exact Eval.ofExcept_answered (Value.collect_answered haddressable) after
  | .assign name expr =>
      rw [Eval.code]
      refine Eval.bind_answered (code_answered total hbodies expr h.parts.head) fun v after _ => ?_
      exact answered_ok v
  | .block entries =>
      rw [Eval.code]
      exact blockEntries_answered total hbodies .null entries h.parts
  | .conditional condition whenTrue whenFalse =>
      rw [Eval.code]
      refine Eval.bind_answered (code_answered total hbodies condition h.parts.head)
        fun v after hv => ?_
      refine Eval.bind_ofExcept_answered v.truth_answered fun b hb => ?_
      have hbranch := h.next (.branch hv hb)
      cases b with
      | true => exact code_answered total hbodies whenTrue hbranch
      | false => exact code_answered total hbodies whenFalse hbranch
  | .define name params body =>
      rw [Eval.code]
      exact answered_ok _
  | .index object dimensions =>
      rw [Eval.code]
      refine Eval.bind_answered (code_answered total hbodies object h.parts.head)
        fun target after htarget => ?_
      have hrest := h.parts.tail htarget
      refine Eval.bind_answered (codes_answered total hbodies dimensions hrest)
        fun values last hvalues => ?_
      have haddressable := addressable_values hrest hvalues
      refine Eval.bind_ofExcept_answered
        (answered_mapM fun v hv => Eval.indices_answered (haddressable v hv)) fun lists hlists => ?_
      refine Eval.ofExcept_answered (Eval.select_answered (h.parts.head.value htarget) ?_) last
      rintro a rfl hrank
      exact h.own.selection object dimensions rfl a after values last lists htarget hvalues hlists
        hrank
  | .range start stop none =>
      rw [Eval.code]
      refine Eval.bind_answered (code_answered total hbodies start h.parts.head)
        fun v after hv => ?_
      refine Eval.bind_ofExcept_answered v.toReal_answered fun first _ => ?_
      refine Eval.bind_answered (code_answered total hbodies stop (h.parts.tail hv).head)
        fun w last _ => ?_
      refine Eval.bind_ofExcept_answered w.toReal_answered fun last _ => ?_
      refine Eval.bind_answered (answered_ok _) fun s _ _ => ?_
      exact Eval.bind_ofExcept_answered (Eval.rangeValues_answered _ _ _ _) fun _ _ =>
        answered_ok _
  | .range start stop (some step) =>
      rw [Eval.code]
      refine Eval.bind_answered (code_answered total hbodies start h.parts.head)
        fun v after hv => ?_
      refine Eval.bind_ofExcept_answered v.toReal_answered fun first _ => ?_
      have hrest := h.parts.tail hv
      refine Eval.bind_answered (code_answered total hbodies stop hrest.head) fun w last hw => ?_
      refine Eval.bind_ofExcept_answered w.toReal_answered fun last _ => ?_
      refine Eval.bind_answered (code_answered total hbodies step (hrest.tail hw).head)
        fun u last _ => ?_
      refine Eval.bind_ofExcept_answered u.toReal_answered fun stride _ => ?_
      refine Eval.bind_answered (answered_ok _) fun s _ _ => ?_
      exact Eval.bind_ofExcept_answered (Eval.rangeValues_answered _ _ _ _) fun _ _ =>
        answered_ok _
  | .update name dimensions expr =>
      rw [Eval.code]
      have hparts : ClearInTurn registry function room (dimensions ++ [expr]) m := h.parts
      refine Eval.bind_answered (codes_answered total hbodies dimensions hparts.left)
        fun values after hvalues => ?_
      have haddressable := addressable_values hparts.left hvalues
      refine Eval.bind_ofExcept_answered
        (answered_mapM fun v hv => Eval.indices_answered (haddressable v hv)) fun lists hlists => ?_
      have hlast := hparts.right hvalues
      refine Eval.bind_answered (code_answered total hbodies expr hlast.head) fun v last hv => ?_
      -- the variables after the new value has been computed are those that are updated
      have hvars : ∀ w, last.scope.get? name = some w → w.Addressable := fun w hw =>
        hlast.head.own.vars name w (by rw [Moment.outcome, hv]; exact hw)
      refine Eval.bind_answered (Eval.updateVariable_answered name (hlast.head.value hv) hvars ?_)
        fun _ _ _ => answered_ok v
      intro list hlist
      obtain ⟨w, -, hw⟩ := Outcome.of_mem_mapM hlists hlist
      exact Eval.lt_last_of_indices hw

theorem codes_answered (total : Total registry) (hbodies : BodiesAnswer registry room)
    (cs : List Code) {m : Machine} (h : ClearInTurn registry function room cs m) :
    Answered (Eval.codes registry (Eval.call registry room) cs m).1 := by
  match cs with
  | [] =>
      rw [Eval.codes]
      exact answered_ok []
  | first :: rest =>
      rw [Eval.codes]
      refine Eval.bind_answered (code_answered total hbodies first h.head) fun v after hv => ?_
      exact Eval.bind_answered (codes_answered total hbodies rest (h.tail hv))
        fun vs last _ => answered_ok _

theorem blockEntries_answered (total : Total registry) (hbodies : BodiesAnswer registry room)
    (last : Value) (entries : List (Code × Bool)) {m : Machine}
    (h : ClearInTurn registry function room (entries.map Prod.fst) m) :
    Answered (Eval.blockEntries registry (Eval.call registry room) last entries m).1 := by
  match entries with
  | [] =>
      rw [Eval.blockEntries]
      exact answered_ok last
  | (first, visible) :: rest =>
      rw [Eval.blockEntries]
      refine Eval.bind_answered (code_answered total hbodies first h.head) fun v after hv => ?_
      exact blockEntries_answered total hbodies _ rest (h.tail hv)

end

/-! ## Over the room -/

theorem bodiesAnswer (total : Total registry) (room : Nat) : BodiesAnswer registry room := by
  induction room with
  | zero => nofun
  | succ room ih =>
      intro inner hinner f m h
      cases hinner
      exact code_answered total ih f.body h

end Moment

/-- **No call goes beyond the limits, and evaluation ends.** Let `M` be the largest limit within
reach of a scope outside of all calls. Evaluating code in it ends, with a value or an error, as long
as what is computed at each moment can be written out; and it ends in the same way however much room
there is from `M` on. In the whole evaluation no body runs in a frame deeper than `M`, the frame of
a body is one deeper than the frame that calls, and a call that would exceed the limit of its
function is refused with that limit. -/
theorem run_within_limits (registry : Registry) (closed : Sealed registry) (total : Total registry)
    (c : Code) (start : Machine) (outside : start.scope.depth = 0) :
    ∃ outcome after, Eval.run registry c start = (outcome, after) ∧
      ((∀ μ, Comes registry (top c start) μ → μ.Addressable registry) →
        (∃ v, outcome = .ok v) ∨ ∃ fault, outcome = .error fault ∧ fault.isAbort = false) ∧
      ∀ room, start.scope.deepest ≤ room → room ≤ Word.last →
        ∃ calls, Observed.run registry room c [] start = ((outcome, calls), after) ∧
          ∀ call ∈ calls, call.Lawful start.scope.deepest := by
  refine ⟨_, _, rfl, fun hclear => ?_, fun room enough last => ?_⟩
  case refine_2 => exact run_observed closed c outside enough last
  have hanswered : Answered (Eval.run registry c start).1 :=
    code_answered total (bodiesAnswer total Word.last) c hclear
  rw [answered_iff] at hanswered
  cases houtcome : (Eval.run registry c start).1 with
  | ok v => exact Or.inl ⟨v, houtcome⟩
  | error fault =>
      rw [houtcome] at hanswered
      exact Or.inr ⟨fault, houtcome, hanswered⟩

/-! ## Runs -/

/-- A function that calls itself for ever, and a call of it. -/
def endless : Code :=
  .block [(.define "f" ["x"] (.call "f" none [.symbol "x"]), false),
    (.call "f" none [.constant .null], true)]

/-- A machine without variables that allows two frames inside each other. -/
def shallow : Machine := ⟨Scope.empty.withMaxDepth 2, 0, #[]⟩

/-- A machine with a vector of one number. -/
def vectorial (x : Float) : Machine := ⟨Scope.empty.set "b" (.matrix (.ofReals [x])), 0, #[]⟩

/-- The number in the vector is replaced by the value of an expression. -/
def replacing (expr : Code) : Code := .update "b" [.constant (.number 1)] expr

theorem addressable_single (x : Float) : Matrix.Addressable (.ofReals [x]) :=
  Eval.addressable_replacement (v := .number x) trivial rfl

theorem addressable_vectorial {x : Float} {name : String} {v : Value}
    (h : (vectorial x).scope.get? name = some v) : v.Addressable := by
  have hb := List.mem_singleton.mp (Table.mem_of_find? h)
  obtain rfl : v = .matrix (.ofReals [x]) := congrArg Prod.snd hb
  exact addressable_single x

/-- Replacing a number by another one computes nothing but numbers and a vector. -/
theorem clear_replacing :
    Clear registry (top (replacing (.constant (.number 7))) (vectorial 0)) := by
  have hconstant (value : Float) :
      Clear registry ⟨none, Word.last, .constant (.number value), vectorial 0⟩ := by
    refine clear_of_leads ⟨?_, fun _ _ => addressable_vectorial, nofun⟩ fun ν hstep => ?_
    · rintro v ⟨⟩
      trivial
    -- a constant has no parts that the evaluation could come to
    · cases hstep with
      | part hpart => nomatch hpart
  have hrun : (top (replacing (.constant (.number 7))) (vectorial 0)).outcome registry
      = (.ok (.number 7), vectorial 7) := rfl
  refine clear_of_leads ⟨?_, ?_, nofun⟩ fun ν hstep => ?_
  · rw [hrun]
    rintro v ⟨⟩
    trivial
  · rw [hrun]
    exact fun _ _ => addressable_vectorial
  · cases hstep with
    | part hpart =>
        rcases hpart with _ | ⟨⟨⟩, _ | ⟨⟨⟩, ⟨⟩⟩⟩
        · exact hconstant 1
        · exact hconstant 7

/-- The function that calls itself for ever is stopped by the limit of the scope that it is defined
in. A number is replaced by another one, and the new one is answered. -/
theorem run_within_limits_endless :
    Sealed Library.standard.registry ∧ Total Library.standard.registry ∧
      shallow.scope.depth = 0 ∧ (vectorial 0).scope.depth = 0 ∧
      (∃ after, Eval.run Library.standard.registry endless shallow
          = (.error (.recursionLimit 2), after) ∧
        ∀ room, 2 ≤ room → room ≤ Word.last →
          ∃ calls, Observed.run Library.standard.registry room endless [] shallow
              = ((.error (.recursionLimit 2), calls), after) ∧ ∀ call ∈ calls, call.Lawful 2) ∧
      ∃ outcome after, Eval.run Library.standard.registry
          (replacing (.constant (.number 7))) (vectorial 0) = (outcome, after) ∧
        ((∃ v, outcome = .ok v) ∨ ∃ fault, outcome = .error fault ∧ fault.isAbort = false) := by
  obtain ⟨outcome, after, hrun, -, hobserved⟩ :=
    run_within_limits Library.standard.registry sealed_standard total_standard endless shallow rfl
  have hanswer : (Eval.run Library.standard.registry endless shallow).1
      = .error (.recursionLimit 2) := rfl
  rw [hrun] at hanswer
  cases hanswer
  obtain ⟨outcome', after', hrun', hends, -⟩ :=
    run_within_limits Library.standard.registry sealed_standard total_standard
      (replacing (.constant (.number 7))) (vectorial 0) rfl
  exact ⟨sealed_standard, total_standard, rfl, rfl, ⟨after, hrun, hobserved⟩, outcome', after',
    hrun', hends clear_replacing⟩

/-- A sparse matrix grows to `2 ^ 63` rows and two columns, and is assigned to an element of a
vector. A word counts none of its positions, and the evaluation breaks off where the last one is
written out. -/
theorem evaluation_breaks_off :
    let s := (Sparse.zeros 0 0).set 0x7fffffffffffffff 1 (.real 1)
    let scope := (vectorial 0).scope.set "s" (.matrix ⟨.sparse s, none⟩)
    let start : Machine := ⟨scope, 0, #[]⟩
    s.WellFormed ∧ start.scope.depth = 0 ∧
      ¬Answered (Eval.run Library.standard.registry (replacing (.symbol "s")) start).1 := by
  intro s scope start
  refine ⟨(Sparse.wellFormed_zeros 0 0).set (by decide) (by decide) _, rfl, ?_⟩
  rw [answered_iff, Bool.not_eq_false]
  decide +kernel

end Formula
