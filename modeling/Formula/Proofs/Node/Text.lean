import Formula.Proofs.Node.Preorder
import Formula.Proofs.Node.Reader

set_option autoImplicit false

/-! # What a text tells of a tree

The text of an expression is read back as that expression, up to the functions that its operators
stand for: there are parentheses wherever the strengths of a part and of what stands around it would
lead the reader astray. So two expressions with the same text are the same up to those functions.

A part is left in peace by what follows if that binds the part no tighter than the part holds itself
together; then the reader comes to the end of the part with the part as what it has read so far.
-/

namespace Formula.Node

/-! ## Expressions -/

mutual

/-- The tree with no functions for the operators to stand for. -/
def withoutFns : Node → Node
  | .constant value => .constant value
  | .symbol name => .symbol name
  | .operator op _ args implicit => .operator op "" (allWithoutFns args) implicit
  | .function name args => .function name (allWithoutFns args)
  | .array items => .array (allWithoutFns items)
  | .assignment name expr => .assignment name (withoutFns expr)
  | .block entries => .block (entriesWithoutFns entries)
  | .conditional condition whenTrue whenFalse =>
      .conditional (withoutFns condition) (withoutFns whenTrue) (withoutFns whenFalse)
  | .functionAssignment name params body => .functionAssignment name params (withoutFns body)
  | .index object dimensions => .index (withoutFns object) (allWithoutFns dimensions)
  | .range start stop none => .range (withoutFns start) (withoutFns stop) none
  | .range start stop (some step) =>
      .range (withoutFns start) (withoutFns stop) (some (withoutFns step))
  | .update target expr => .update (withoutFns target) (withoutFns expr)

/-- Several trees with no functions for the operators. -/
def allWithoutFns : List Node → List Node
  | [] => []
  | node :: rest => withoutFns node :: allWithoutFns rest

/-- The statements of a block with no functions for the operators. -/
def entriesWithoutFns : List (Node × Bool) → List (Node × Bool)
  | [] => []
  | (node, visible) :: rest => (withoutFns node, visible) :: entriesWithoutFns rest

end

/-- May the node stand in an expression: is it a name, a call, an array, a selection, a range, a
conditional, or an operator in the place that the operator has? -/
def isExpression : Node → Bool
  | .symbol name => isName name
  | .function name _ => isName name
  | .array _ | .index .. | .range .. | .conditional .. => true
  | .operator op _ [_] false => unaryOperators.contains op
  | .operator op _ [_, _] false => binaryOperators.contains op
  | _ => false

/-- An expression: a tree of such nodes. -/
inductive Expression : Node → Prop where
  | mk {node : Node} (here : node.isExpression = true)
      (inside : ∀ child ∈ node.children, Expression child) : Expression node

/-! ## Parts -/

/-- The text of a node is read as the node, if what follows it leaves the node in peace. -/
structure IsRead (node : Node) : Prop where
  precedence_pos : 1 ≤ node.precedence
  reads {least : Nat} {rest : List Char} (hpos : 1 ≤ least) (hleast : least ≤ node.precedence)
    (hrest : leftLevel (strength rest) ≤ node.precedence) :
    expression? least (node.text.toList ++ rest) = continued? least node.withoutFns rest

section

variable {node : Node} {needed : Bool} {least own : Nat} {rest : List Char}

/-- An expression is read to its end if what follows does not take it as its left part. -/
theorem IsRead.whole (h : IsRead node) (hrest : strength rest = 0) :
    expression? 1 (node.text.toList ++ rest) = some (node.withoutFns, rest) := by
  have hlevel : leftLevel (strength rest) ≤ node.precedence := by
    rw [hrest]
    exact Nat.zero_le _
  rw [h.reads (Nat.le_refl 1) h.precedence_pos hlevel, continued?_of_strength_lt]
  rw [hrest]
  exact Nat.zero_lt_one

theorem strength_of_closing {c : Char} (hc : isClosing c = true) (rest : List Char) :
    strength (c :: rest) = 0 := by
  rw [isClosing, Bool.or_eq_true, beq_iff_eq, beq_iff_eq] at hc
  rcases hc with rfl | rfl
  · rfl
  · rfl

/-- A part is in parentheses or left in peace. -/
theorem IsRead.shown (h : IsRead node) (hpos : 1 ≤ least)
    (hfree : needed = false →
      least ≤ node.precedence ∧ leftLevel (strength rest) ≤ node.precedence) :
    expression? least ((parenthesized needed node.text).toList ++ rest)
      = continued? least node.withoutFns rest := by
  cases needed with
  | false =>
      obtain ⟨hleast, hrest⟩ := hfree rfl
      exact h.reads hpos hleast hrest
  | true =>
      have hinside := h.whole (strength_of_closing (c := ')') rfl rest)
      have htext : (parenthesized true node.text).toList ++ rest
          = '(' :: (node.text.toList ++ ')' :: rest) := by
        simp [parenthesized, String.toList_append]
      rw [htext, expression?_of_operand? (operand?_parentheses hinside) (by simp; omega)]

/-- A part in front of something that is too weak to take it. -/
theorem IsRead.ended (h : IsRead node) (hpos : 1 ≤ least) (hrest : strength rest < least)
    (hfree : needed = false →
      least ≤ node.precedence ∧ leftLevel (strength rest) ≤ node.precedence) :
    expression? least ((parenthesized needed node.text).toList ++ rest)
      = some (node.withoutFns, rest) := by
  rw [h.shown hpos hfree, continued?_of_strength_lt hrest]

/-- The left part of what follows. -/
theorem IsRead.left (h : IsRead node) (hpos : 1 ≤ least) (hleast : least ≤ own)
    (hrest : strength rest = own) (hfree : needed = false → leftLevel own ≤ node.precedence) :
    expression? least ((parenthesized needed node.text).toList ++ rest)
      = continued? least node.withoutFns rest := by
  refine h.shown hpos fun hneeded => ?_
  -- `least ≤ own ≤ leftLevel own`, so what takes the part is stronger than the surroundings
  have hlevel := hfree hneeded
  have hle := le_leftLevel own
  rw [hrest]
  exact ⟨by omega, hlevel⟩

/-- The right part of a whole that is left in peace. -/
theorem IsRead.right (h : IsRead node) (hpos : 1 ≤ own)
    (hrest : leftLevel (strength rest) ≤ own)
    (hfree : needed = false → rightLevel own ≤ node.precedence) :
    expression? (rightLevel own) ((parenthesized needed node.text).toList ++ rest)
      = some (node.withoutFns, rest) := by
  have hle := le_rightLevel own
  refine h.ended (by omega) (lt_rightLevel hrest) fun hneeded => ?_
  have hlevel := hfree hneeded
  exact ⟨hlevel, by omega⟩

end

/-! ## Nodes -/

attribute [local simp] text withoutFns

section

variable (op fn : String) (arg left right : Node) (rest : List Char)

theorem toList_text_leading (hop : Precedence.isTrailing op = false) :
    (Node.operator op fn [arg] false).text.toList ++ rest
      = op.toList ++ ((unaryGap op).toList
        ++ ((parenthesized (arg.precedence < Precedence.leading) arg.text).toList ++ rest)) := by
  simp [hop, Precedence.operator, String.toList_append]

theorem toList_text_trailing (hop : Precedence.isTrailing op = true) :
    (Node.operator op fn [arg] false).text.toList ++ rest
      = (parenthesized (arg.precedence < Precedence.trailing) arg.text).toList
        ++ (op.toList ++ rest) := by
  simp [hop, Precedence.operator, String.toList_append]

theorem toList_text_between :
    (Node.operator op fn [left, right] false).text.toList ++ rest
      = (parenthesized (left.precedence < Precedence.binary op
            || (left.precedence == Precedence.binary op && Precedence.groupsRight op))
          left.text).toList
        ++ ' ' :: (op.toList ++ ' ' ::
          ((parenthesized (right.precedence < Precedence.binary op
              || (right.precedence == Precedence.binary op && !Precedence.groupsRight op))
            right.text).toList ++ rest)) := by
  simp [Precedence.operator, String.toList_append]

end

theorem items?_textAll {close : Char} (hclose : isClosing close = true) {nodes : List Node}
    (h : ∀ node ∈ nodes, IsRead node) (rest : List Char) :
    items? close ((", ".intercalate (textAll nodes)).toList ++ close :: rest)
      = some (allWithoutFns nodes, rest) := by
  cases nodes with
  | nil => exact items?_nil close
  | cons node others =>
      apply items?_of_moreItems? hclose
      -- over the items behind the first one, since only those have a comma in front
      induction others generalizing node with
      | nil =>
          rw [textAll, textAll, String.intercalate_singleton]
          exact moreItems?_last hclose ((h node (by simp)).whole (strength_of_closing hclose rest))
      | cons next others ih =>
          have hnode (more : List Char) : expression? 1 (node.text.toList ++ ',' :: ' ' :: more)
              = some (node.withoutFns, ',' :: ' ' :: more) := (h node (by simp)).whole rfl
          have hothers := ih next fun node hmem => h node (List.mem_cons_of_mem _ hmem)
          rw [textAll, textAll, String.intercalate_cons_cons, ← textAll, String.toList_append,
            String.toList_append, List.append_assoc, List.append_assoc]
          exact moreItems?_cons (hnode _) (by simp; omega) hothers

/-- Behind a whole that is left in peace there is nothing that belongs to a name. -/
theorem endsName_of_leftLevel_le {rest : List Char}
    (h : leftLevel (strength rest) ≤ Precedence.atom) :
    EndsName rest ∧ ∀ more, rest ≠ '(' :: more := by
  -- the strength of what belongs to a name is above all others
  have hne : strength rest ≠ belonging := by
    intro heq
    have hle := le_leftLevel (strength rest)
    rw [heq] at h hle
    exact absurd (Nat.le_trans hle h) (by decide)
  constructor
  · rintro c more rfl
    cases hc : isNameChar c with
    | false => rfl
    | true =>
        exfalso
        have hother {d : Char} (hd : isNameChar d = false) : c ≠ d := by
          rintro rfl
          rw [hd] at hc
          exact nomatch hc
        -- a character of a name would belong to it
        apply hne
        unfold strength
        split
        · next heq => exact nomatch heq
        · next heq => exact absurd (List.cons.inj heq).1 (hother (by decide))
        · next heq =>
            cases heq
            rw [if_neg (hother (by decide)), if_neg, if_neg (hother (by decide)), if_pos (.inr hc)]
            exact not_or.mpr ⟨hother (by decide), hother (by decide)⟩
  · rintro more rfl
    exact hne rfl

theorem IsRead.symbol {name : String} (hname : isName name = true) : IsRead (.symbol name) where
  precedence_pos := Nat.le_of_ble_eq_true rfl
  reads {least rest} hpos hleast hrest := by
    obtain ⟨hends, hcall⟩ := endsName_of_leftLevel_le hrest
    have hshort : rest.length < (name.toList ++ rest).length := by
      have hne : name.toList ≠ [] := by
        intro hnil
        rw [isName, hnil] at hname
        cases hname
      rw [List.length_append]
      exact Nat.lt_add_of_pos_left (List.length_pos_iff.mpr hne)
    rw [text, expression?_of_operand? (operand?_symbol hname hends hcall) hshort, withoutFns]

theorem IsRead.function {name : String} (hname : isName name = true) {args : List Node}
    (h : ∀ arg ∈ args, IsRead arg) : IsRead (.function name args) where
  precedence_pos := Nat.le_of_ble_eq_true rfl
  reads {least rest} hpos hleast hrest := by
    have htext : (Node.function name args).text.toList ++ rest
        = name.toList ++ '(' :: ((", ".intercalate (textAll args)).toList ++ ')' :: rest) := by
      simp [String.toList_append]
    rw [htext, expression?_of_operand? (operand?_function hname (items?_textAll rfl h rest))
      (by simp; omega), withoutFns]

theorem IsRead.array {items : List Node} (h : ∀ item ∈ items, IsRead item) :
    IsRead (.array items) where
  precedence_pos := Nat.le_of_ble_eq_true rfl
  reads {least rest} hpos hleast hrest := by
    have htext : (Node.array items).text.toList ++ rest
        = '[' :: ((", ".intercalate (textAll items)).toList ++ ']' :: rest) := by
      simp [String.toList_append]
    rw [htext, expression?_of_operand? (operand?_array (items?_textAll rfl h rest))
      (by simp; omega), withoutFns]

theorem IsRead.index {object : Node} {dimensions : List Node} (hobject : IsRead object)
    (h : ∀ d ∈ dimensions, IsRead d) : IsRead (.index object dimensions) where
  precedence_pos := Nat.le_of_ble_eq_true rfl
  reads {least rest} hpos hleast hrest := by
    have htext : (Node.index object dimensions).text.toList ++ rest
        = (parenthesized (object.precedence < Precedence.atom) object.text).toList
          ++ '[' :: ((", ".intercalate (textAll dimensions)).toList ++ ']' :: rest) := by
      simp [String.toList_append]
    rw [htext, hobject.left hpos hleast,
      continued?_index hleast (items?_textAll rfl h rest) (by simp; omega), withoutFns]
    · rfl
    · exact fun hfree => Nat.not_lt.mp (of_decide_eq_false hfree)

theorem rangePart_free {node : Node} (h : decide (node.precedence ≤ Precedence.range) = false) :
    Precedence.range + 1 ≤ node.precedence := Nat.not_le.mp (of_decide_eq_false h)

theorem IsRead.range {start stop : Node} (hstart : IsRead start) (hstop : IsRead stop) :
    IsRead (.range start stop none) where
  precedence_pos := Nat.le_of_ble_eq_true rfl
  reads {least rest} hpos hleast hrest := by
    have htext : (Node.range start stop none).text.toList ++ rest
        = (parenthesized (start.precedence ≤ Precedence.range) start.text).toList
          ++ ':' :: ((parenthesized (stop.precedence ≤ Precedence.range) stop.text).toList
            ++ rest) := by
      simp [rangePart, String.toList_append]
    -- a colon behind the range would take its end for a step
    have hbehind : ∀ more, rest ≠ ':' :: more := by
      rintro more rfl
      exact absurd hrest (Nat.not_succ_le_self Precedence.range)
    rw [htext, hstart.left hpos hleast, continued?_range hleast
      (hstop.right (by decide) hrest rangePart_free) (by simp) hbehind, withoutFns]
    · rfl
    · exact rangePart_free

theorem IsRead.range_step {start stop step : Node} (hstart : IsRead start) (hstop : IsRead stop)
    (hstep : IsRead step) : IsRead (.range start stop (some step)) where
  precedence_pos := Nat.le_of_ble_eq_true rfl
  reads {least rest} hpos hleast hrest := by
    have htext : (Node.range start stop (some step)).text.toList ++ rest
        = (parenthesized (start.precedence ≤ Precedence.range) start.text).toList
          ++ ':' :: ((parenthesized (step.precedence ≤ Precedence.range) step.text).toList
            ++ ':' :: ((parenthesized (stop.precedence ≤ Precedence.range) stop.text).toList
              ++ rest)) := by
      simp [rangePart, String.toList_append]
    -- the step ends at the second colon, which is too weak to take it as its left part
    have hmiddle (more : List Char) : expression? (rightLevel Precedence.range)
        ((parenthesized (step.precedence ≤ Precedence.range) step.text).toList ++ ':' :: more)
          = some (step.withoutFns, ':' :: more) :=
      hstep.ended (by decide) (Nat.lt_succ_self Precedence.range) fun hfree =>
        ⟨rangePart_free hfree, rangePart_free hfree⟩
    rw [htext, hstart.left hpos hleast, continued?_range_step hleast (hmiddle _) (by simp; omega)
      (hstop.right (by decide) hrest rangePart_free) (by simp), withoutFns]
    · rfl
    · exact rangePart_free

theorem IsRead.conditional {condition whenTrue whenFalse : Node} (hcondition : IsRead condition)
    (htrue : IsRead whenTrue) (hfalse : IsRead whenFalse) :
    IsRead (.conditional condition whenTrue whenFalse) where
  precedence_pos := Nat.le_refl 1
  reads {least rest} hpos hleast hrest := by
    have htext : (Node.conditional condition whenTrue whenFalse).text.toList ++ rest
        = (parenthesized (condition.precedence < Precedence.conditional + 1) condition.text).toList
          ++ ' ' :: '?' :: ' ' ::
            ((parenthesized (whenTrue.precedence < Precedence.conditional) whenTrue.text).toList
              ++ ' ' :: ':' :: ' ' ::
                ((parenthesized (whenFalse.precedence < Precedence.conditional)
                  whenFalse.text).toList ++ rest)) := by
      simp [String.toList_append]
    -- the middle and the last part are read up to what separates them
    have hmiddle (more : List Char) : expression? (rightLevel Precedence.conditional)
        ((parenthesized (whenTrue.precedence < Precedence.conditional) whenTrue.text).toList
          ++ ' ' :: ':' :: ' ' :: more)
        = some (whenTrue.withoutFns, ' ' :: ':' :: ' ' :: more) :=
      htrue.right (Nat.le_refl 1) (Nat.zero_le 1) fun hfree =>
        Nat.not_lt.mp (of_decide_eq_false hfree)
    have hlast : expression? (rightLevel Precedence.conditional)
        ((parenthesized (whenFalse.precedence < Precedence.conditional) whenFalse.text).toList
          ++ rest)
        = some (whenFalse.withoutFns, rest) :=
      hfalse.right (Nat.le_refl 1) hrest fun hfree => Nat.not_lt.mp (of_decide_eq_false hfree)
    rw [htext, hcondition.left hpos hleast, continued?_conditional hleast (hmiddle _)
      (by simp; omega) hlast (by simp), withoutFns]
    · rfl
    · exact fun hfree => Nat.not_lt.mp (of_decide_eq_false hfree)

/-- An operator in front of its part. -/
theorem IsRead.leading (op : String) (hop : Precedence.isTrailing op = false)
    (hlong : 0 < op.toList.length)
    (hoperand : ∀ cs, operand? (op.toList ++ ((unaryGap op).toList ++ cs)) = leading? op cs)
    (fn : String) {arg : Node} (harg : IsRead arg) : IsRead (.operator op fn [arg] false) := by
  have hprecedence : (Node.operator op fn [arg] false).precedence = Precedence.leading := by
    show (if Precedence.isTrailing op then _ else _) = _
    rw [hop]
    rfl
  refine ⟨by rw [hprecedence]; decide, fun {least rest} hpos hleast hrest => ?_⟩
  rw [hprecedence] at hleast hrest
  -- the part behind the operator is read as far as its level reaches
  have hright : expression? (rightLevel Precedence.leading)
      ((parenthesized (arg.precedence < Precedence.leading) arg.text).toList ++ rest)
      = some (arg.withoutFns, rest) :=
    harg.right (by decide) hrest fun hfree => Nat.not_lt.mp (of_decide_eq_false hfree)
  rw [toList_text_leading op fn arg rest hop,
    expression?_of_operand? ((hoperand _).trans (leading?_of_expression? op hright))
      (by simp only [List.length_append]; omega)]
  rfl

/-- An operator behind its part. -/
theorem IsRead.trailing (op : String) (hop : Precedence.isTrailing op = true)
    (hstrength : ∀ cs, strength (op.toList ++ cs) = Precedence.trailing)
    (hcontinued : ∀ least x cs, least ≤ Precedence.trailing →
      continued? least x (op.toList ++ cs) = continued? least (.unary op "" x) cs)
    (fn : String) {arg : Node} (harg : IsRead arg) : IsRead (.operator op fn [arg] false) := by
  have hprecedence : (Node.operator op fn [arg] false).precedence = Precedence.trailing := by
    show (if Precedence.isTrailing op then _ else _) = _
    rw [hop]
    rfl
  refine ⟨by rw [hprecedence]; decide, fun {least rest} hpos hleast hrest => ?_⟩
  rw [hprecedence] at hleast hrest
  rw [toList_text_trailing op fn arg rest hop, harg.left hpos hleast (hstrength rest),
    hcontinued least _ rest hleast]
  · rfl
  · exact fun hfree => Nat.not_lt.mp (of_decide_eq_false hfree)

theorem IsRead.unary {op : String} (hop : op ∈ unaryOperators) (fn : String) {arg : Node}
    (harg : IsRead arg) : IsRead (.operator op fn [arg] false) := by
  simp only [unaryOperators, List.mem_cons, List.not_mem_nil, or_false] at hop
  rcases hop with rfl | rfl | rfl | rfl | rfl
  · exact leading "-" rfl (by decide) (fun cs => operand?_minus) fn harg
  · exact leading "+" rfl (by decide) (fun cs => operand?_plus) fn harg
  · exact leading "not" rfl (by decide) (fun cs => operand?_not) fn harg
  · exact trailing "'" rfl (fun cs => rfl) (fun least x cs => continued?_transpose) fn harg
  · exact trailing "!" rfl (fun cs => rfl) (fun least x cs => continued?_factorial) fn harg

theorem binary_levels {op : String} (hop : op ∈ binaryOperators) :
    1 ≤ Precedence.binary op
      ∧ leftLevel (Precedence.binary op)
        = Precedence.binary op + (Precedence.groupsRight op).toNat
      ∧ rightLevel (Precedence.binary op)
        = Precedence.binary op + (!Precedence.groupsRight op).toNat := by
  have hall : ∀ op ∈ binaryOperators, 1 ≤ Precedence.binary op
      ∧ leftLevel (Precedence.binary op)
        = Precedence.binary op + (Precedence.groupsRight op).toNat
      ∧ rightLevel (Precedence.binary op)
        = Precedence.binary op + (!Precedence.groupsRight op).toNat := by decide
  exact hall op hop

/-- A part of a binary operator that goes without parentheses. -/
theorem binary_free {own strength : Nat} {grouped : Bool}
    (h : (decide (strength < own) || (strength == own && grouped)) = false) :
    own + grouped.toNat ≤ strength := by
  rw [Bool.or_eq_false_iff, decide_eq_false_iff_not] at h
  cases grouped with
  | false => exact Nat.not_lt.mp h.1
  | true =>
      have hne : strength ≠ own := by simpa using h.2
      rw [Bool.toNat_true]
      omega

theorem IsRead.binary {op : String} (hop : op ∈ binaryOperators) (fn : String) {left right : Node}
    (hleft : IsRead left) (hright : IsRead right) :
    IsRead (.operator op fn [left, right] false) := by
  obtain ⟨hown, hleftLevel, hrightLevel⟩ := binary_levels hop
  refine ⟨hown, fun {least rest} hpos hleast hrest => ?_⟩
  have hlast := hright.right hown hrest fun hfree => hrightLevel ▸ binary_free hfree
  rw [toList_text_between, hleft.left hpos hleast (strength_binary hop),
    continued?_binary hop hleast hlast (by simp)]
  · rfl
  · exact fun hfree => hleftLevel ▸ binary_free hfree

/-! ## Texts -/

/-- The text of an expression is read as the expression. -/
theorem Expression.isRead {node : Node} (h : Expression node) : IsRead node := by
  induction h with
  | @mk node here inside ih =>
      -- by the kind of node, with the parts read by induction
      match node with
      | .symbol name => exact .symbol here
      | .function name args => exact .function here ih
      | .array items => exact .array ih
      | .index object dimensions =>
          exact .index (ih object List.mem_cons_self) fun d hd => ih d (List.mem_cons_of_mem _ hd)
      | .range start stop none =>
          exact .range (ih start (by simp [children])) (ih stop (by simp [children]))
      | .range start stop (some step) =>
          exact .range_step (ih start (by simp [children])) (ih stop (by simp [children]))
            (ih step (by simp [children]))
      | .conditional condition whenTrue whenFalse =>
          exact .conditional (ih condition (by simp [children])) (ih whenTrue (by simp [children]))
            (ih whenFalse (by simp [children]))
      | .operator op fn [arg] false =>
          exact .unary (List.contains_iff_mem.mp here) fn (ih arg (by simp [children]))
      | .operator op fn [left, right] false =>
          exact .binary (List.contains_iff_mem.mp here) fn (ih left (by simp [children]))
            (ih right (by simp [children]))

/-- Expressions with the same text are the same but for the functions that their operators stand
for. -/
theorem withoutFns_eq_of_text_eq {a b : Node} (ha : Expression a) (hb : Expression b)
    (h : a.text = b.text) : a.withoutFns = b.withoutFns := by
  have hread {node : Node} (hnode : Expression node) :
      expression? 1 (node.text.toList ++ []) = some (node.withoutFns, []) := hnode.isRead.whole rfl
  have hboth : some (a.withoutFns, ([] : List Char)) = some (b.withoutFns, []) := by
    rw [← hread ha, h, hread hb]
  exact (Prod.mk.inj (Option.some.inj hboth)).1

/-- The expression `-x[i] ^ (a:b)` for some functions of its operators. -/
def powerSample (minus power : String) : Node :=
  .unary "-" minus
    (.binary "^" power (.index (.symbol "x") [.symbol "i"])
      (.range (.symbol "a") (.symbol "b") none))

theorem withoutFns_eq_of_text_eq_powerSample :
    (powerSample "unaryMinus" "pow").withoutFns = (powerSample "neg" "mpower").withoutFns := by
  have hname {s : String} (hs : isName s = true) : Expression (.symbol s) := ⟨hs, nofun⟩
  have ha : Expression (.symbol "a") := hname (by decide)
  have hb : Expression (.symbol "b") := hname (by decide)
  have hi : Expression (.symbol "i") := hname (by decide)
  have hx : Expression (.symbol "x") := hname (by decide)
  have hrange : Expression (.range (.symbol "a") (.symbol "b") none) :=
    ⟨rfl, by simp [children, ha, hb]⟩
  have hindex : Expression (.index (.symbol "x") [.symbol "i"]) :=
    ⟨rfl, by simp [children, hx, hi]⟩
  have hexpression (minus power : String) : Expression (powerSample minus power) := by
    refine ⟨rfl, List.forall_mem_singleton.mpr ⟨rfl, ?_⟩⟩
    exact List.forall_mem_cons.mpr ⟨hindex, List.forall_mem_singleton.mpr hrange⟩
  exact withoutFns_eq_of_text_eq (hexpression _ _) (hexpression _ _) rfl

end Formula.Node
