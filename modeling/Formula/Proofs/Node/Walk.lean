import Formula.Proofs.Outcome
import Formula.Proofs.Node.Address
import Formula.Proofs.Node.Children

set_option autoImplicit false

/-! # Walks as loops

Three functions walk over trees, each with a recursion of its own. All of them are the same loop
over the list of visits: a callback is called for one visit after the other, and what they return
is made of its answers (`traverseAt_eq`, `filterAt_eq`, `transformAt_eq`). This holds in every
monad. If the callback keeps a state and may fail, the loop ends with the first call that fails
(`loop_cases`).
-/

namespace Formula.Node

/-- Every update in the tree changes an index node. -/
def Indexed (tree : Node) : Prop :=
  ∀ target expr, Within (.update target expr) tree → target.kind = .index

theorem Indexed.of_mem_children {node child : Node} (h : node.Indexed)
    (hchild : child ∈ node.children) : child.Indexed := fun target expr hwithin =>
  h target expr (.child hchild hwithin)

theorem indexed_iff (node : Node) :
    node.Indexed ↔ (∀ target expr, node = .update target expr → target.kind = .index) ∧
      ∀ child ∈ node.children, child.Indexed := by
  constructor
  · intro h
    exact ⟨fun target expr heq => h target expr (heq ▸ .root _),
      fun child hchild => h.of_mem_children hchild⟩
  · rintro ⟨hroot, hinside⟩ target expr hwithin
    cases hwithin with
    | root => exact hroot target expr rfl
    | child hchild hwithin => exact hinside _ hchild target expr hwithin

theorem indexed_update_symbols (name source : String) :
    (Node.update (.index (.symbol name) []) (.symbol source)).Indexed := by
  have hsymbol (name : String) : Indexed (.symbol name) :=
    (indexed_iff _).mpr ⟨nofun, List.forall_mem_nil _⟩
  have htarget : Indexed (.index (.symbol name) []) :=
    (indexed_iff _).mpr ⟨nofun, List.forall_mem_singleton.mpr (hsymbol name)⟩
  refine (indexed_iff _).mpr ⟨fun target expr heq => ?_, ?_⟩
  · obtain ⟨rfl, -⟩ := Node.update.inj heq
    rfl
  · exact List.forall_mem_cons.mpr ⟨htarget, List.forall_mem_singleton.mpr (hsymbol source)⟩

/-- A node that gets its own children back is the same node. -/
theorem withChildren_children {node : Node} (h : node.Indexed) :
    node.withChildren node.children = .ok node := by
  refine withChildren_self ⟨rfl, fun hkind => ?_⟩
  cases node with
  | update target expr => exact ⟨target, rfl, h target expr (.root _)⟩
  | _ => cases hkind

/-! ## One loop -/

section

variable {m : Type → Type} [Monad m] [LawfulMonad m] {α : Type}

/-- A visit with the answer of a callback. -/
def answer (call : Visit → m α) (visit : Visit) : m (Visit × α) :=
  (fun reply => (visit, reply)) <$> call visit

/-- The nodes of the visits that are answered by `true`. -/
def chosen (answers : List (Visit × Bool)) : List Node :=
  (answers.filter Prod.snd).map fun reply => reply.1.node

theorem chosen_append (answers later : List (Visit × Bool)) :
    chosen (answers ++ later) = chosen answers ++ chosen later := by
  rw [chosen, List.filter_append, List.map_append]
  rfl

/-- A visitor that ignores the answers of a callback. -/
def visiting (call : Visit → m α) (visit : Visit) : m Unit := (fun _ => ()) <$> call visit

/-- A mapper that ignores the answers of a callback and replaces nothing. -/
def keeping (call : Visit → m α) (visit : Visit) : m (Option Node) := (fun _ => none) <$> call visit

theorem traverseAll_eq (call : Visit → m α) (parent : Node) {children : List Node}
    (h : ∀ child ∈ children, ∀ place parent, traverseAt (visiting call) place parent child
      = (fun _ => ()) <$> (visitsAt place parent child).mapM (answer call)) (i : Nat) :
    traverseAll (visiting call) parent i children
      = (fun _ => ()) <$> (visitsAll parent i children).mapM (answer call) := by
  induction children generalizing i with
  | nil => rw [traverseAll, visitsAll, List.mapM_nil, map_pure]
  | cons child rest ih =>
      obtain ⟨hchild, hrest⟩ := List.forall_mem_cons.mp h
      rw [traverseAll, visitsAll, List.mapM_append, hchild, ih hrest]
      simp only [map_eq_pure_bind, bind_assoc, pure_bind]

theorem traverseAt_eq (call : Visit → m α) (place : Option Nat) (parent : Option Node)
    (node : Node) : traverseAt (visiting call) place parent node
      = (fun _ => ()) <$> (visitsAt place parent node).mapM (answer call) := by
  induction node using children_induction generalizing place parent with
  | step node ih =>
      rw [traverseAt, visitsAt, List.mapM_cons, traverseAll_eq call node ih]
      simp only [visiting, answer, map_eq_pure_bind, bind_assoc, pure_bind]

theorem filterAll_eq (keep : Visit → m Bool) (parent : Node) {children : List Node}
    (h : ∀ child ∈ children, ∀ place parent, filterAt keep place parent child
      = chosen <$> (visitsAt place parent child).mapM (answer keep)) (i : Nat) :
    filterAll keep parent i children
      = chosen <$> (visitsAll parent i children).mapM (answer keep) := by
  induction children generalizing i with
  | nil =>
      rw [filterAll, visitsAll, List.mapM_nil, map_pure]
      rfl
  | cons child rest ih =>
      obtain ⟨hchild, hrest⟩ := List.forall_mem_cons.mp h
      rw [filterAll, visitsAll, List.mapM_append, hchild, ih hrest]
      simp only [map_eq_pure_bind, bind_assoc, pure_bind, chosen_append]

theorem filterAt_eq (keep : Visit → m Bool) (place : Option Nat) (parent : Option Node)
    (node : Node) : filterAt keep place parent node
      = chosen <$> (visitsAt place parent node).mapM (answer keep) := by
  have hfirst : ∀ (visit : Visit) (reply : Bool) (later : List (Visit × Bool)),
      chosen ((visit, reply) :: later)
        = if reply then visit.node :: chosen later else chosen later := by
    intro visit reply later
    cases reply <;> rfl
  induction node using children_induction generalizing place parent with
  | step node ih =>
      rw [filterAt, visitsAt, List.mapM_cons, filterAll_eq keep node ih]
      simp only [answer, map_eq_pure_bind, bind_assoc, pure_bind, hfirst]

theorem transformAll_eq (fail : NodeError → m Node) (call : Visit → m α) (parent : Node)
    {children : List Node} (h : ∀ child ∈ children, ∀ place parent,
      transformAt fail (keeping call) place parent child
        = (fun _ => child) <$> (visitsAt place parent child).mapM (answer call)) (i : Nat) :
    transformAll fail (keeping call) parent i children
      = (fun _ => children) <$> (visitsAll parent i children).mapM (answer call) := by
  induction children generalizing i with
  | nil => rw [transformAll, visitsAll, List.mapM_nil, map_pure]
  | cons child rest ih =>
      obtain ⟨hchild, hrest⟩ := List.forall_mem_cons.mp h
      rw [transformAll, visitsAll, List.mapM_append, hchild, ih hrest]
      simp only [map_eq_pure_bind, bind_assoc, pure_bind]

/-- A tree of which nothing is replaced is rebuilt as it was. -/
theorem transformAt_eq (fail : NodeError → m Node) (call : Visit → m α) {node : Node}
    (hnode : node.Indexed) (place : Option Nat) (parent : Option Node) :
    transformAt fail (keeping call) place parent node
      = (fun _ => node) <$> (visitsAt place parent node).mapM (answer call) := by
  induction node using children_induction generalizing place parent with
  | step node ih =>
      have hchildren : transformAll fail (keeping call) node 0 node.children
          = (fun _ => node.children) <$> (visitsAll node 0 node.children).mapM (answer call) :=
        transformAll_eq fail call node
          (fun child hchild => ih child hchild (hnode.of_mem_children hchild)) 0
      rw [transformAt, visitsAt, List.mapM_cons, hchildren]
      simp only [keeping, answer, map_eq_pure_bind, bind_assoc, pure_bind,
        withChildren_children hnode]

end

/-! ## Calls that may fail -/

section

open Outcome

variable {ε σ α : Type}

/-- The callback that also notes the visits it is called for. -/
def noted (call : Visit → ExceptT ε (StateM σ) α) :
    Visit → ExceptT ε (StateM (σ × List Visit)) α := fun visit (s, calls) =>
  let (outcome, after) := call visit s
  (outcome, after, calls ++ [visit])

/-- A callback that is called for several visits one after the other answers each of them. -/
inductive Answered (call : Visit → ExceptT ε (StateM σ) α) :
    σ → List (Visit × α) → σ → Prop where
  | nil (s : σ) : Answered call s [] s
  | cons {visit : Visit} {reply : α} {later : List (Visit × α)} {s s' s'' : σ}
      (hcall : call visit s = (.ok reply, s')) (hlater : Answered call s' later s'') :
      Answered call s ((visit, reply) :: later) s''

/-- The loop calls the callback for all visits, or for those up to the first call that fails. -/
theorem loop_cases (call : Visit → ExceptT ε (StateM σ) α) (visits : List Visit) (s : σ)
    (before : List Visit) :
    (∃ answers s', Answered call s answers s' ∧ answers.map Prod.fst = visits ∧
      visits.mapM (answer (noted call)) (s, before) = (.ok answers, s', before ++ visits)) ∨
    ∃ answers visit later s' fault s'', Answered call s answers s' ∧
      visits = answers.map Prod.fst ++ visit :: later ∧ call visit s' = (.error fault, s'') ∧
      visits.mapM (answer (noted call)) (s, before)
        = (.error fault, s'', before ++ (answers.map Prod.fst ++ [visit])) := by
  induction visits generalizing s before with
  | nil =>
      refine Or.inl ⟨[], s, .nil s, rfl, ?_⟩
      rw [List.append_nil]
      rfl
  | cons visit rest ih =>
      -- the first call fails, or it is answered and the rest of the loop goes on from there
      rw [List.mapM_cons]
      cases hcall : call visit s with
      | mk outcome s₁ =>
          have hnoted : noted call visit (s, before) = (outcome, s₁, before ++ [visit]) := by
            rw [noted, hcall]
          cases outcome with
          | error fault =>
              refine Or.inr ⟨[], visit, rest, s, fault, s₁, .nil s, rfl, hcall, ?_⟩
              exact bind_of_error (map_of_error hnoted _) _
          | ok reply =>
              have hanswer : answer (noted call) visit (s, before)
                  = (.ok (visit, reply), s₁, before ++ [visit]) := map_of_ok hnoted _
              rw [bind_of_ok hanswer]
              rcases ih s₁ (before ++ [visit]) with
                ⟨answers, s', hanswers, rfl, hrest⟩ |
                ⟨answers, failing, later, s', fault, s'', hanswers, rfl, hfailing, hrest⟩
              · refine Or.inl ⟨(visit, reply) :: answers, s', .cons hcall hanswers, rfl, ?_⟩
                rw [bind_of_ok hrest, List.append_assoc]
                rfl
              · refine Or.inr ⟨(visit, reply) :: answers, failing, later, s', fault, s'',
                  .cons hcall hanswers, rfl, hfailing, ?_⟩
                rw [bind_of_error hrest, List.append_assoc]
                rfl

/-- The three walks call a callback for the same visits: for a first part of those at the addresses
of the tree, which are listed in the order of a dictionary. Either all calls are answered, and the
nodes found are those of the visits answered by `true`; or the walk ends with the first call that
fails, and fails in the same way. -/
theorem walks_agree {node : Node} (hnode : node.Indexed) (fault : NodeError → ε)
    (call : Visit → ExceptT ε (StateM σ) Bool) (s : σ) :
    node.visits.map some = node.addresses.map node.visit? ∧
      node.addresses.Pairwise (List.Lex (· < ·)) ∧
      (∀ address, address ∈ node.addresses ↔ (node.lookup? address).isSome = true) ∧
      ((∃ answers s', Answered call s answers s' ∧ answers.map Prod.fst = node.visits ∧
          node.traverse (visiting (noted call)) (s, []) = (.ok (), s', node.visits) ∧
          node.filter (noted call) (s, []) = (.ok (chosen answers), s', node.visits) ∧
          node.transform (fun e => throw (fault e)) (keeping (noted call)) (s, [])
            = (.ok node, s', node.visits)) ∨
        ∃ answers visit later s' e s'', Answered call s answers s' ∧
          node.visits = answers.map Prod.fst ++ visit :: later ∧
          call visit s' = (.error e, s'') ∧
          node.traverse (visiting (noted call)) (s, [])
            = (.error e, s'', answers.map Prod.fst ++ [visit]) ∧
          node.filter (noted call) (s, [])
            = (.error e, s'', answers.map Prod.fst ++ [visit]) ∧
          node.transform (fun e => throw (fault e)) (keeping (noted call)) (s, [])
            = (.error e, s'', answers.map Prod.fst ++ [visit])) := by
  refine ⟨map_some_visits node, pairwise_addresses node, mem_addresses node, ?_⟩
  rw [traverse, filter, transform, traverseAt_eq, filterAt_eq, transformAt_eq _ _ hnode]
  -- each walk is the loop over the visits with its own result made of the answers
  rcases loop_cases call node.visits s [] with
    ⟨answers, s', hanswers, hvisits, hloop⟩ |
    ⟨answers, visit, later, s', e, s'', hanswers, hvisits, hcall, hloop⟩
  · exact Or.inl ⟨answers, s', hanswers, hvisits, map_of_ok hloop _, map_of_ok hloop _,
      map_of_ok hloop _⟩
  · exact Or.inr ⟨answers, visit, later, s', e, s'', hanswers, hvisits, hcall,
      map_of_error hloop _, map_of_error hloop _, map_of_error hloop _⟩

end

/-- A callback that counts its calls and fails at the second one ends all three walks at the index
node of an update. -/
theorem walks_agree_second :
    let target := Node.index (.symbol "A") []
    let node := Node.update target (.symbol "b")
    let call : Visit → ExceptT String (StateM Nat) Bool := fun visit n =>
      (if n = 1 then .error "second" else .ok visit.index.isNone, n + 1)
    let calls : List Visit := [⟨node, none, none⟩, ⟨target, some 0, some node⟩]
    node.Indexed ∧ node.traverse (visiting (noted call)) (0, []) = (.error "second", 2, calls) ∧
      node.filter (noted call) (0, []) = (.error "second", 2, calls) ∧
      node.transform (fun e => throw e.message) (keeping (noted call)) (0, [])
        = (.error "second", 2, calls) := by
  intro target node call calls
  have hnode : node.Indexed := indexed_update_symbols "A" "b"
  obtain ⟨rest, hrest⟩ : ∃ rest, node.visits = calls ++ rest := by
    rw [visits, visitsAt]
    show ∃ rest, ⟨node, none, none⟩ :: visitsAll node 0 [target, .symbol "b"] = calls ++ rest
    rw [visitsAll, visitsAt]
    exact ⟨_, rfl⟩
  -- no second call is answered, so the loop cannot go beyond it
  have hsecond : ∀ {first second : Visit × Bool} {answers : List (Visit × Bool)} {s' : Nat},
      ¬Answered call 0 (first :: second :: answers) s' := by
    intro first second answers s' h
    cases h with
    | cons hfirst hlater =>
        obtain rfl := congrArg Prod.snd hfirst
        cases hlater with
        | cons hsecond _ => cases congrArg Prod.fst hsecond
  obtain ⟨-, -, -, h⟩ := walks_agree hnode NodeError.message call 0
  rcases h with ⟨answers, s', hanswers, hlist, -⟩ |
    ⟨answers, visit, later, s', e, s'', hanswers, hlist, hfail, htraverse, hfilter, htransform⟩
  · rw [hrest] at hlist
    rcases answers with _ | ⟨⟨first, reply⟩, _ | ⟨second, answers⟩⟩
    · cases hlist
    · cases hlist
    · exact absurd hanswers hsecond
  · rw [hrest] at hlist
    rcases answers with _ | ⟨⟨first, reply⟩, _ | ⟨second, answers⟩⟩
    · cases hanswers
      cases congrArg Prod.fst hfail
    · cases hanswers with
      | cons hfirst hnil =>
          obtain rfl := congrArg Prod.snd hfirst
          cases hnil
          cases hfail
          cases hlist
          exact ⟨hnode, htraverse, hfilter, htransform⟩
    · exact absurd hanswers hsecond

end Formula.Node
