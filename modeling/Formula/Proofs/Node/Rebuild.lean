import Formula.Proofs.Node.Document
import Formula.Proofs.Outcome

set_option autoImplicit false

/-! # Rebuilding keeps trees valid

A tree is valid if every operator in it has one or two arguments and every update changes an index
node. No field of a node enforces this, so each function that makes a node has to. A node that is
rebuilt with valid children is valid, and so is a tree in which nodes have been exchanged for
valid ones.
-/

namespace Formula.Node

theorem valid_iff (node : Node) :
    node.Valid ↔ node.isSound = true ∧ ∀ child ∈ node.children, child.Valid := by
  constructor
  · intro h
    cases h with
    | mk sound inside => exact ⟨sound, inside⟩
  · rintro ⟨sound, inside⟩
    exact ⟨sound, inside⟩

/-- Only operators and updates have rules to keep. -/
theorem isSound_of_kind {node : Node} (hoperator : node.kind ≠ .operator)
    (hupdate : node.kind ≠ .update) : node.isSound = true := by
  cases node with
  | operator => exact absurd rfl hoperator
  | update => exact absurd rfl hupdate
  | _ => rfl

theorem Valid.of_within {node tree : Node} (h : Within node tree) (hvalid : tree.Valid) :
    node.Valid := by
  induction h with
  | root => exact hvalid
  | child hchild _ ih => exact ih (hvalid.of_mem_children hchild)

/-! ## Making nodes -/

theorem eq_of_makeOperator {op fn : String} {args : List Node} {node : Node}
    (h : makeOperator op fn args = .ok node) :
    node = .operator op fn args false ∧ (args.length = 1 ∨ args.length = 2) := by
  rw [makeOperator] at h
  split at h
  · next hcount =>
      cases h
      exact ⟨rfl, hcount⟩
  · cases h

theorem eq_of_makeUpdate {target expr node : Node} (h : makeUpdate target expr = .ok node) :
    node = .update target expr ∧ target.kind = .index := by
  rw [makeUpdate] at h
  split at h
  · next hkind =>
      cases h
      exact ⟨rfl, hkind⟩
  · cases h

/-- The flag of an operator does not matter. -/
theorem valid_operator {op fn : String} {args : List Node} {node : Node} (implicit : Bool)
    (h : makeOperator op fn args = .ok node) (hargs : ∀ arg ∈ args, arg.Valid) :
    (Node.operator op fn args implicit).Valid := by
  obtain ⟨-, hcount⟩ := eq_of_makeOperator h
  refine ⟨?_, hargs⟩
  rw [isSound, Bool.or_eq_true, beq_iff_eq, beq_iff_eq]
  exact hcount

theorem valid_of_makeOperator {op fn : String} {args : List Node} {node : Node}
    (h : makeOperator op fn args = .ok node) (hargs : ∀ arg ∈ args, arg.Valid) : node.Valid := by
  obtain ⟨rfl, -⟩ := eq_of_makeOperator h
  exact valid_operator false h hargs

theorem valid_of_makeUpdate {target expr node : Node} (h : makeUpdate target expr = .ok node)
    (htarget : target.Valid) (hexpr : expr.Valid) : node.Valid := by
  obtain ⟨rfl, hkind⟩ := eq_of_makeUpdate h
  refine ⟨?_, List.forall_mem_cons.mpr ⟨htarget, List.forall_mem_singleton.mpr hexpr⟩⟩
  rw [isSound, hkind]
  rfl

/-! ## Rebuilding -/

/-- What is made of a node and a list of children that fits it, kind by kind. -/
inductive Rebuilds : Node → List Node → Node → Prop where
  | constant (value : Literal) : Rebuilds (.constant value) [] (.constant value)
  | symbol (name : String) : Rebuilds (.symbol name) [] (.symbol name)
  | operator {op fn : String} {args cs : List Node} {implicit : Bool}
      (count : cs.length = args.length) :
      Rebuilds (.operator op fn args implicit) cs (.operator op fn cs implicit)
  | function {name : String} {args cs : List Node} (count : cs.length = args.length) :
      Rebuilds (.function name args) cs (.function name cs)
  | array {items cs : List Node} (count : cs.length = items.length) :
      Rebuilds (.array items) cs (.array cs)
  | assignment (name : String) (old new : Node) :
      Rebuilds (.assignment name old) [new] (.assignment name new)
  | block {entries : List (Node × Bool)} {cs : List Node} (count : cs.length = entries.length) :
      Rebuilds (.block entries) cs (.block (cs.zip (entries.map Prod.snd)))
  | conditional (a b c condition whenTrue whenFalse : Node) :
      Rebuilds (.conditional a b c) [condition, whenTrue, whenFalse]
        (.conditional condition whenTrue whenFalse)
  | functionAssignment (name : String) (params : List String) (old new : Node) :
      Rebuilds (.functionAssignment name params old) [new] (.functionAssignment name params new)
  | index {old object : Node} {dimensions cs : List Node} (count : cs.length = dimensions.length) :
      Rebuilds (.index old dimensions) (object :: cs) (.index object cs)
  | range (a b start stop : Node) :
      Rebuilds (.range a b none) [start, stop] (.range start stop none)
  | rangeStep (a b c start stop step : Node) :
      Rebuilds (.range a b (some c)) [start, stop, step] (.range start stop (some step))
  | update (a b : Node) {target : Node} (expr : Node) (kind : target.kind = .index) :
      Rebuilds (.update a b) [target, expr] (.update target expr)

theorem rebuilds_of_withChildren {node rebuilt : Node} {cs : List Node}
    (h : node.withChildren cs = .ok rebuilt) : Rebuilds node cs rebuilt := by
  -- kinds with any number of children compare counts, the others have a fixed number of them
  cases node with
  | operator | function | array | block =>
      rw [withChildren, ite_eq_iff] at h
      obtain ⟨hcount, h⟩ | ⟨-, h⟩ := h
      · cases h
        constructor
        exact hcount
      · cases h
  | index =>
      cases cs with
      | nil => cases h
      | cons object cs =>
          rw [withChildren, ite_eq_iff] at h
          obtain ⟨hcount, h⟩ | ⟨-, h⟩ := h
          · cases h
            exact .index hcount
          · cases h
  | constant | symbol =>
      cases cs with
      | nil =>
          cases h
          constructor
      | cons => cases h
  | assignment | functionAssignment =>
      rcases cs with _ | ⟨a, _ | ⟨b, rest⟩⟩ <;> cases h
      constructor
  | conditional =>
      rcases cs with _ | ⟨a, _ | ⟨b, _ | ⟨c, _ | ⟨d, rest⟩⟩⟩⟩ <;> cases h
      constructor
  | range start stop step =>
      cases step with
      | none | some step =>
          rcases cs with _ | ⟨a, _ | ⟨b, _ | ⟨c, _ | ⟨d, rest⟩⟩⟩⟩ <;> cases h
          constructor
  | update =>
      rcases cs with _ | ⟨a, _ | ⟨b, _ | ⟨c, rest⟩⟩⟩
      · cases h
      · cases h
      · obtain ⟨rfl, hkind⟩ := eq_of_makeUpdate h
        exact .update _ _ _ hkind
      · cases h

/-- The children of a rebuilt node are the new ones. -/
theorem children_of_withChildren {node rebuilt : Node} {cs : List Node}
    (h : node.withChildren cs = .ok rebuilt) : rebuilt.children = cs := by
  cases rebuilds_of_withChildren h with
  | block count =>
      rw [children, List.map_fst_zip]
      rw [List.length_map]
      exact Nat.le_of_eq count
  | _ => rfl

/-- A rebuilt node keeps the rules of the node: it has as many children, and the first child of an
update is checked. -/
theorem isSound_of_withChildren {node rebuilt : Node} {cs : List Node}
    (hsound : node.isSound = true) (h : node.withChildren cs = .ok rebuilt) :
    rebuilt.isSound = true := by
  cases rebuilds_of_withChildren h with
  | operator count =>
      rw [isSound, count]
      exact hsound
  | update _ _ _ kind =>
      rw [isSound, kind]
      rfl
  | _ => rfl

theorem Valid.withChildren {node rebuilt : Node} {cs : List Node} (hvalid : node.Valid)
    (hcs : ∀ c ∈ cs, c.Valid) (h : node.withChildren cs = .ok rebuilt) : rebuilt.Valid := by
  refine (valid_iff rebuilt).mpr ⟨?_, ?_⟩
  · exact isSound_of_withChildren ((valid_iff node).mp hvalid).1 h
  · rw [children_of_withChildren h]
    exact hcs

theorem Valid.mapChildren {node rebuilt : Node} {f : Node → Nat → Node} (hvalid : node.Valid)
    (hf : ∀ i child, node.children[i]? = some child → (f child i).Valid)
    (h : node.mapChildren f = .ok rebuilt) : rebuilt.Valid := by
  refine hvalid.withChildren (fun c hc => ?_) h
  obtain ⟨⟨child, i⟩, hplace, rfl⟩ := List.mem_map.mp hc
  exact hf i child (List.mem_zipIdx_iff_getElem?.mp hplace)

/-! ## Transforming -/

section transform

variable {ε σ α β : Type}

/-- What a callback supplies. -/
def given : Except ε (Option Node) → List Node
  | .ok (some node) => [node]
  | _ => []

/-- The callback that also notes what it supplies. -/
def noting (replace : Visit → ExceptT ε (StateM σ) (Option Node)) :
    Visit → ExceptT ε (StateM (σ × List Node)) (Option Node) := fun visit (s, noted) =>
  let (outcome, after) := replace visit s
  (outcome, after, noted ++ given outcome)

/-- All nodes that a callback supplies while a tree is transformed. -/
def supplied (fault : NodeError → ε) (replace : Visit → ExceptT ε (StateM σ) (Option Node))
    (node : Node) (s : σ) : List Node :=
  (node.transform (fun e => throw (fault e)) (noting replace) (s, [])).2.2

/-- Noting is all that `y` does besides what `x` does, and the result of both satisfies `good` if
all nodes that are noted are valid. -/
def Noted (good : α → Prop) (x : ExceptT ε (StateM σ) α)
    (y : ExceptT ε (StateM (σ × List Node)) α) : Prop :=
  ∀ s before, ∃ more, y (s, before) = ((x s).1, (x s).2, before ++ more) ∧
    ((∀ node ∈ more, node.Valid) → ∀ a, (x s).1 = .ok a → good a)

theorem noted_pure {good : α → Prop} {a : α} (h : good a) :
    Noted good (pure a : ExceptT ε (StateM σ) α) (pure a) := by
  intro s before
  refine ⟨[], ?_, fun _ b hb => ?_⟩
  · rw [List.append_nil]
    rfl
  · cases hb
    exact h

theorem noted_throw {good : α → Prop} (fault : ε) :
    Noted good (throw fault : ExceptT ε (StateM σ) α) (throw fault) := by
  intro s before
  refine ⟨[], ?_, fun _ b hb => nomatch hb⟩
  rw [List.append_nil]
  rfl

theorem noted_bind {good : α → Prop} {good' : β → Prop} {x : ExceptT ε (StateM σ) α}
    {y : ExceptT ε (StateM (σ × List Node)) α} {k : α → ExceptT ε (StateM σ) β}
    {l : α → ExceptT ε (StateM (σ × List Node)) β} (h : Noted good x y)
    (hk : ∀ a, Noted (fun b => good a → good' b) (k a) (l a)) :
    Noted good' (x >>= k) (y >>= l) := by
  intro s before
  obtain ⟨more, hy, hgood⟩ := h s before
  rw [Outcome.bind_apply, Outcome.bind_apply, hy]
  cases hx : (x s).1 with
  | error fault => exact ⟨more, rfl, fun _ b hb => nomatch hb⟩
  | ok a =>
      obtain ⟨later, hl, hlater⟩ := hk a (x s).2 (before ++ more)
      refine ⟨more ++ later, ?_, fun hvalid b hb => ?_⟩
      · rw [← List.append_assoc]
        exact hl
      · rw [List.forall_mem_append] at hvalid
        exact hlater hvalid.2 b hb (hgood hvalid.1 a hx)

/-- What a callback supplies is noted. -/
theorem noted_noting (replace : Visit → ExceptT ε (StateM σ) (Option Node)) (visit : Visit) :
    Noted (fun r => ∀ node ∈ r, node.Valid) (replace visit) (noting replace visit) := by
  intro s before
  refine ⟨given (replace visit s).1, rfl, fun hvalid r hr => ?_⟩
  rw [hr] at hvalid
  cases r with
  | none => exact nofun
  | some node =>
      rintro _ ⟨⟩
      exact hvalid node List.mem_cons_self

variable (fault : NodeError → ε) (replace : Visit → ExceptT ε (StateM σ) (Option Node))

/-- Children are transformed to valid trees if each of them is. -/
theorem transformAll_noted (parent : Node) {children : List Node} (i : Nat)
    (h : ∀ child ∈ children, ∀ index parent,
      Noted Valid (transformAt (fun e => throw (fault e)) replace index parent child)
        (transformAt (fun e => throw (fault e)) (noting replace) index parent child)) :
    Noted (fun cs => ∀ c ∈ cs, c.Valid)
      (transformAll (fun e => throw (fault e)) replace parent i children)
      (transformAll (fun e => throw (fault e)) (noting replace) parent i children) := by
  induction children generalizing i with
  | nil =>
      rw [transformAll, transformAll]
      exact noted_pure (List.forall_mem_nil _)
  | cons child rest ih =>
      obtain ⟨hchild, hrest⟩ := List.forall_mem_cons.mp h
      rw [transformAll, transformAll]
      refine noted_bind (hchild _ _) fun here => ?_
      refine noted_bind (ih (i + 1) hrest) fun later => ?_
      exact noted_pure fun hlater hhere => List.forall_mem_cons.mpr ⟨hhere, hlater⟩

/-- Noting is all that a transform of a valid tree does besides, and with valid nodes for those that
it exchanges its result is valid. -/
theorem transformAt_noted (node : Node) (hvalid : node.Valid) (index : Option Nat)
    (parent : Option Node) :
    Noted Valid (transformAt (fun e => throw (fault e)) replace index parent node)
      (transformAt (fun e => throw (fault e)) (noting replace) index parent node) := by
  induction node using children_induction generalizing index parent with
  | step node ih =>
      rw [transformAt, transformAt]
      refine noted_bind (noted_noting replace _) fun replacement => ?_
      cases replacement with
      | some other => exact noted_pure fun hsupplied => hsupplied other rfl
      | none =>
          have hchildren := transformAll_noted fault replace node 0 fun child hchild =>
            ih child hchild (hvalid.of_mem_children hchild)
          refine noted_bind hchildren fun cs => ?_
          cases hrebuilt : node.withChildren cs with
          | ok rebuilt => exact noted_pure fun hcs _ => hvalid.withChildren hcs hrebuilt
          | error e => exact noted_throw (fault e)

/-- A valid tree is transformed to a valid one if all nodes that are supplied are valid. -/
theorem Valid.transform {node after : Node} (hvalid : node.Valid) {s : σ}
    (hsupplied : ∀ other ∈ supplied fault replace node s, other.Valid)
    (h : (node.transform (fun e => throw (fault e)) replace s).1 = .ok after) : after.Valid := by
  obtain ⟨more, hrun, hgood⟩ := transformAt_noted fault replace node hvalid none none s []
  rw [supplied, Node.transform, hrun, List.nil_append] at hsupplied
  exact hgood hsupplied after h

end transform

end Formula.Node
