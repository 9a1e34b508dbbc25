import Formula.Proofs.Eval.Observed

set_option autoImplicit false

/-! # Calls stay within the limits

Let `M` be the largest limit within reach of a scope. Whatever is evaluated in the scope, no body
runs in a frame deeper than `M`, so the frames inside each other are `M` at most, and room for `M`
of them is as good as room for more.

The proof goes over the code for a fixed way of calling, and then over the room: a call in a frame
of some depth needs as much room as there is from that depth to `M`.
-/

namespace Formula

variable {M depth : Nat}

/-! ## Over the code -/

/-- Calls from a frame of this depth by `call` are watched by `watched`. -/
def Watches (M depth : Nat) (call : Eval.Caller Eval) (watched : Eval.Caller Observed) : Prop :=
  ∀ (f : Closure Value) (args : List Value), f.deepest ≤ M → (∀ v ∈ args, v.Within M) →
    Observes M depth (Value.Within M) (call f args (Word.succ depth))
      (watched f args (Word.succ depth))

section code

variable {registry : Registry} {call : Eval.Caller Eval} {watched : Eval.Caller Observed}

/-- What a computation that changes nothing returns is arbitrary. -/
theorem observes_ofExcept {α : Type} (outcome : Except EvalError α) :
    Observes M depth (fun _ => True) (liftM (Eval.ofExcept outcome))
      (liftM (Eval.ofExcept outcome)) :=
  observes_lift (Eval.keeps_ofExcept fun _ _ => trivial)

theorem observes_scope : Observes M depth (fun s => s.depth = depth ∧ s.deepest ≤ M)
    (liftM Eval.scope) (liftM Eval.scope) := observes_lift Eval.keeps_scope

theorem observes_assign {v : Value} (hv : v.Within M) (name : String) :
    Observes M depth (Value.Within M) (do liftM (Eval.assign name v); pure v)
      (do liftM (Eval.assign name v); pure v) :=
  observes_bind (observes_lift (Eval.keeps_assign hv name)) fun _ _ => observes_pure hv

/-- A name is called by calling the function that its variable holds. -/
theorem callNamed_observes (closed : Sealed registry) (hcall : Watches M depth call watched)
    (name : String) (fallback : Option Entry) {args : List Value}
    (hargs : ∀ v ∈ args, v.Within M) :
    Observes M depth (Value.Within M) (Eval.callNamed registry call name fallback args)
      (Eval.callNamed registry watched name fallback args) := by
  refine observes_bind observes_scope fun s hs => ?_
  obtain ⟨hdepth, hdeepest⟩ := hs
  subst hdepth
  split
  · next f found =>
      -- the frame reaches the function, so the function reaches no further than the frame
      have hf := Scope.deepest_of_get? hdeepest found
      rw [Value.deepest] at hf
      exact hcall f args hf hargs
  · exact observes_lift (Eval.keeps_fail _ _)
  · exact observes_lift (Eval.keeps_callEntry closed _ args)
  · exact observes_lift (Eval.keeps_fail _ _)

mutual

/-- Code is watched wherever the calls it makes are. -/
theorem code_observes (closed : Sealed registry) (hcall : Watches M depth call watched)
    (c : Code) : Observes M depth (Value.Within M) (Eval.code registry call c)
      (Eval.code registry watched c) := by
  match c with
  | .constant value =>
      rw [Eval.code, Eval.code]
      refine observes_pure (Value.within_of_kind ?_)
      cases value <;> nofun
  | .symbol name =>
      rw [Eval.code, Eval.code]
      refine observes_bind observes_scope fun s hs => ?_
      split
      · next v found => exact observes_pure (Scope.deepest_of_get? hs.2 found)
      · exact observes_lift (Eval.keeps_fail _ _)
  | .builtin entry args =>
      rw [Eval.code, Eval.code]
      refine observes_bind (codes_observes closed hcall args) fun values _ => ?_
      exact observes_lift (Eval.keeps_callEntry closed entry values)
  | .call name fallback args =>
      rw [Eval.code, Eval.code]
      refine observes_bind (codes_observes closed hcall args) fun values hvalues => ?_
      exact callNamed_observes closed hcall name fallback hvalues
  | .array items =>
      rw [Eval.code, Eval.code]
      refine observes_bind (codes_observes closed hcall items) fun values _ => ?_
      exact observes_lift (Eval.keeps_plain (Value.collect_plain values))
  | .assign name expr =>
      rw [Eval.code, Eval.code]
      refine observes_bind (code_observes closed hcall expr) fun v hv => ?_
      exact observes_assign hv name
  | .block entries =>
      rw [Eval.code, Eval.code]
      exact blockEntries_observes closed hcall (@Value.within_of_kind M .null nofun) entries
  | .conditional condition whenTrue whenFalse =>
      rw [Eval.code, Eval.code]
      refine observes_bind (code_observes closed hcall condition) fun v _ => ?_
      refine observes_bind (observes_ofExcept v.truth) fun b _ => ?_
      cases b with
      | true => exact code_observes closed hcall whenTrue
      | false => exact code_observes closed hcall whenFalse
  | .define name params body =>
      rw [Eval.code, Eval.code]
      refine observes_bind observes_scope fun s hs => ?_
      refine observes_bind (observes_lift Eval.keeps_freshStamp) fun stamp _ => ?_
      refine observes_assign ?_ name
      -- the new function captures the limit and the variables of the frame
      rw [Value.Within, Value.deepest, Scope.deepest_snapshot]
      exact hs.2
  | .index object dimensions =>
      rw [Eval.code, Eval.code]
      refine observes_bind (code_observes closed hcall object) fun target _ => ?_
      refine observes_bind (codes_observes closed hcall dimensions) fun values _ => ?_
      refine observes_bind (observes_ofExcept _) fun lists _ => ?_
      exact observes_lift (Eval.keeps_plain (Eval.select_plain target lists))
  | .range start stop none =>
      rw [Eval.code, Eval.code]
      refine observes_bind (code_observes closed hcall start) fun v _ => ?_
      refine observes_bind (observes_ofExcept v.toReal) fun first _ => ?_
      refine observes_bind (code_observes closed hcall stop) fun w _ => ?_
      refine observes_bind (observes_ofExcept w.toReal) fun last _ => ?_
      refine observes_bind observes_scope fun s _ => ?_
      refine observes_bind (observes_ofExcept _) fun values _ => ?_
      exact observes_pure (Value.within_of_kind nofun)
  | .range start stop (some step) =>
      rw [Eval.code, Eval.code]
      refine observes_bind (code_observes closed hcall start) fun v _ => ?_
      refine observes_bind (observes_ofExcept v.toReal) fun first _ => ?_
      refine observes_bind (code_observes closed hcall stop) fun w _ => ?_
      refine observes_bind (observes_ofExcept w.toReal) fun last _ => ?_
      refine observes_bind (code_observes closed hcall step) fun u _ => ?_
      refine observes_bind (observes_ofExcept u.toReal) fun stride _ => ?_
      refine observes_bind observes_scope fun s _ => ?_
      refine observes_bind (observes_ofExcept _) fun values _ => ?_
      exact observes_pure (Value.within_of_kind nofun)
  | .update name dimensions expr =>
      rw [Eval.code, Eval.code]
      refine observes_bind (codes_observes closed hcall dimensions) fun values _ => ?_
      refine observes_bind (observes_ofExcept _) fun lists _ => ?_
      refine observes_bind (code_observes closed hcall expr) fun v hv => ?_
      refine observes_bind (observes_lift (Eval.keeps_updateVariable name lists v)) fun _ _ => ?_
      exact observes_pure hv

/-- Several pieces of code are watched like each of them. -/
theorem codes_observes (closed : Sealed registry) (hcall : Watches M depth call watched)
    (cs : List Code) : Observes M depth (fun vs => ∀ v ∈ vs, v.Within M)
      (Eval.codes registry call cs) (Eval.codes registry watched cs) := by
  match cs with
  | [] =>
      rw [Eval.codes, Eval.codes]
      exact observes_pure nofun
  | first :: rest =>
      rw [Eval.codes, Eval.codes]
      refine observes_bind (code_observes closed hcall first) fun v hv => ?_
      refine observes_bind (codes_observes closed hcall rest) fun vs hvs => ?_
      exact observes_pure (List.forall_mem_cons.mpr ⟨hv, hvs⟩)

theorem blockEntries_observes (closed : Sealed registry) (hcall : Watches M depth call watched)
    {last : Value} (hlast : last.Within M) (entries : List (Code × Bool)) :
    Observes M depth (Value.Within M) (Eval.blockEntries registry call last entries)
      (Eval.blockEntries registry watched last entries) := by
  match entries with
  | [] =>
      rw [Eval.blockEntries, Eval.blockEntries]
      exact observes_pure hlast
  | (first, visible) :: rest =>
      rw [Eval.blockEntries, Eval.blockEntries]
      refine observes_bind (code_observes closed hcall first) fun v hv => ?_
      cases visible with
      | true => exact blockEntries_observes closed hcall hv rest
      | false => exact blockEntries_observes closed hcall hlast rest

end

end code

/-! ## Over the room -/

/-- A body that runs has a lawful call. -/
theorem Call.lawful_entered {f : Closure Value} {args : List Value}
    (hlimit : depth + 1 ≤ f.maxDepth.toNat) (hf : f.deepest ≤ M) (r : Except EvalError Value) :
    Call.Lawful M ⟨f, args, depth, some (depth + 1), r⟩ := by
  have hbound : f.maxDepth.toNat ≤ M := Closure.maxDepth_le hf
  constructor
  · intro inner hinner
    cases hinner
    exact Nat.le_trans hlimit hbound
  · intro inner hinner
    cases hinner
    rfl
  · intro _ hexceeds
    exact absurd hlimit (Nat.not_le.mpr hexceeds)
  · intro _ _
    rfl

/-- A call that would exceed the limit is lawfully refused with the limit. -/
theorem Call.lawful_exceeding {f : Closure Value} {args : List Value}
    (hlimit : f.maxDepth.toNat < depth + 1) :
    Call.Lawful M ⟨f, args, depth, none, .error (.recursionLimit f.maxDepth.toNat)⟩ := by
  constructor
  · nofun
  · nofun
  · intro _ _
    exact ⟨rfl, rfl⟩
  · intro _ hallowed
    exact absurd hlimit (Nat.not_lt.mpr hallowed)

/-- A call with a wrong number of arguments is lawfully refused. -/
theorem Call.lawful_miscounted {f : Closure Value} {args : List Value} (fault : EvalError)
    (hargs : args.length ≠ f.params.length) :
    Call.Lawful M ⟨f, args, depth, none, .error fault⟩ := by
  constructor
  · nofun
  · nofun
  · intro hsame _
    exact absurd hsame hargs
  · intro hsame _
    exact absurd hsame hargs

/-- With room from a frame to the largest limit, and never beyond the last depth there is, calls
from the frame are watched. How much room there is beyond that does not matter. -/
theorem call_observes {registry : Registry} (closed : Sealed registry) {room room' : Nat}
    (enough : M ≤ depth + room) (enough' : M ≤ depth + room')
    (last : depth + room ≤ Word.last) (last' : depth + room' ≤ Word.last) :
    Watches M depth (Eval.call registry room) (Observed.call registry room') := by
  induction room using Nat.strongRecOn generalizing room' depth with
  | ind room ih =>
      intro f args hf hargs
      unfold Eval.call Observed.call
      by_cases hcount : args.length ≠ f.params.length
      · rw [if_pos hcount, if_pos hcount]
        exact observes_refuse (Call.lawful_miscounted _ hcount)
      rw [if_neg hcount, if_neg hcount]
      by_cases hexceeds : f.maxDepth.toNat < depth + 1
      · have hrefuse := observes_refuse (@Call.lawful_exceeding M depth f args hexceeds)
        by_cases htold : f.maxDepth.toNat < Word.succ depth
        · rw [if_pos htold, if_pos htold]
          exact hrefuse
        -- the next depth is not above the limit because the depth wraps, so there is no room
        have hlast : Word.size ≤ depth + 1 := by
          refine Nat.not_lt.mp fun hfits => htold ?_
          rw [Word.succ_of_lt hfits]
          exact hexceeds
        have hsize : Word.last + 1 = Word.size := rfl
        obtain rfl : room = 0 := by omega
        obtain rfl : room' = 0 := by omega
        rw [if_neg htold, if_neg htold]
        exact hrefuse
      · have hallowed : depth + 1 ≤ f.maxDepth.toNat := Nat.not_lt.mp hexceeds
        have hbound : f.maxDepth.toNat ≤ M := Closure.maxDepth_le hf
        have hsucc : Word.succ depth = depth + 1 :=
          Word.succ_of_lt (Nat.lt_of_le_of_lt hallowed f.maxDepth.toNat_lt)
        -- the limit is above the depth, so there is room on both sides
        obtain ⟨inner, rfl⟩ : ∃ inner, room = inner + 1 := ⟨room - 1, by omega⟩
        obtain ⟨inner', rfl⟩ : ∃ inner', room' = inner' + 1 := ⟨room' - 1, by omega⟩
        rw [hsucc, if_neg hexceeds, if_neg hexceeds]
        have hcalls : Watches M (depth + 1) (Eval.call registry inner)
            (Observed.call registry inner') :=
          ih inner (Nat.lt_succ_self inner) (by omega) (by omega) (by omega) (by omega)
        exact observes_enter rfl (Closure.deepest_frame_le hf hargs _)
          (code_observes closed hcalls f.body) (Call.lawful_entered hallowed hf)

/-- Evaluating code outside of all calls is the same however much room there is from the largest
limit within reach on, and all its calls are lawful. -/
theorem run_observed {registry : Registry} (closed : Sealed registry) (c : Code) {start : Machine}
    (outside : start.scope.depth = 0) {room : Nat} (enough : start.scope.deepest ≤ room)
    (last : room ≤ Word.last) :
    ∃ calls, Observed.run registry room c [] start
        = (((Eval.run registry c start).1, calls), (Eval.run registry c start).2) ∧
      ∀ call ∈ calls, call.Lawful start.scope.deepest := by
  have hfits : start.Fits start.scope.deepest 0 := ⟨outside, Nat.le_refl _⟩
  have hdeepest : start.scope.deepest ≤ 0 + Word.last := by
    rw [Nat.zero_add]
    exact start.scope.deepest_le_last
  have hcalls : Watches start.scope.deepest 0 (Eval.call registry Word.last)
      (Observed.call registry room) :=
    call_observes closed hdeepest (by omega) (by omega) (by omega)
  exact (code_observes closed hcalls c).agrees start [] hfits nofun

end Formula
