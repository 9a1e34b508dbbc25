import Formula.Proofs.Node.Calculation
import Formula.Proofs.Node.Text
import Formula.Proofs.Node.Transform

set_option autoImplicit false

/-! # The sign of a number in a text

The text of a negative number begins with the sign of an operator, and nobody who reads the text can
tell one from the other. So what the text of a calculation tells is the calculation with the sign of
every number as an operator (`signless`).

A negative number goes without parentheses wherever a name does, but its text holds together no
better than an opposite does. What takes such a number with more strength than a minus has, a power
of it or its transpose, is read as the opposite of a power or of a transpose.
-/

namespace Formula.Node

open Calculation (EndsAtom endsAtom_nil endsAtom_cons numberText_of_ne_zero)

/-! ## Signs as operators -/

/-- The number at a visit with its sign as an operator: a negative number as the opposite of one
above zero, and a zero without a sign. -/
def signless (visit : Visit) : Option Node :=
  match visit.node with
  | .constant (.number x) =>
      if x < 0 then some (.unary "-" "unaryMinus" (.constant (.number (-x))))
      else if x == 0 then some (.constant (.number 0))
      else none
  | _ => none

/-- Is the node a negative number? -/
def isNegative : Node → Bool
  | .constant (.number x) => decide (x < 0)
  | _ => false

/-- Is the node a power of a negative number or the transpose of one? -/
def hidesSign : Node → Bool
  | .operator op _ (arg :: _) _ => (op == "^" || op == "'") && arg.isNegative
  | _ => false

/-- The strength with which the text of a node holds together. -/
def grip (node : Node) : Nat := if node.isNegative then Precedence.leading else node.precedence

theorem substituteAt_signless (place : Option Nat) (parent : Option Node) (node : Node) :
    substituteAt signless place parent node = node.substitute signless := by
  unfold substitute substituteAt
  rfl

theorem substitute_unary (op fn : String) (arg : Node) :
    (Node.unary op fn arg).substitute signless = .unary op fn (arg.substitute signless) := by
  rw [← substituteAt_signless (some 0) (some (.unary op fn arg)) arg]
  rfl

theorem substitute_binary (op fn : String) (left right : Node) :
    (Node.binary op fn left right).substitute signless
      = .binary op fn (left.substitute signless) (right.substitute signless) := by
  rw [← substituteAt_signless (some 0) (some (.binary op fn left right)) left,
    ← substituteAt_signless (some 1) (some (.binary op fn left right)) right]
  rfl

theorem substitute_number_of_lt {x : Float} (h : x < 0) :
    (Node.constant (.number x)).substitute signless
      = .unary "-" "unaryMinus" (.constant (.number (-x))) := by
  rw [substitute, substituteAt, signless]
  dsimp only
  rw [if_pos h]
  rfl

theorem substitute_number {x : Float} (h : ¬x < 0) :
    (Node.constant (.number x)).substitute signless
      = .constant (.number (if x == 0 then 0 else x)) := by
  rw [substitute, substituteAt, signless]
  dsimp only
  rw [if_neg h]
  cases x == 0 with
  | true => rfl
  | false => rfl

/-- The text of a negative number is a minus and the text of its opposite. -/
theorem numberText_of_lt {x : Float} (hx : x.isFinite = true) (h : x < 0) :
    numberText x = "-" ++ numberText (-x) := by
  apply String.toList_injective
  have hopposite : (-x).isFinite = true := (Binary64.isFinite_neg x).trans hx
  have hnan : x.isNaN = false := (Binary64.not_isNaN_of_isFinite hx).1
  have hnan' : (-x).isNaN = false := (Binary64.isNaN_neg x).trans hnan
  obtain ⟨hminus, hminus', -, hzero'⟩ := Binary64.neg_of_lt_zero hnan h
  have hzero : (x == 0) = false := (Binary64.neg_beq_zero x).symm.trans hzero'
  rw [numberText_of_ne_zero hx hzero, numberText_of_ne_zero hopposite hzero', String.toList_append,
    Decimal.toList_text hnan, Decimal.toList_text hnan', hminus, hminus', if_pos rfl,
    if_neg Bool.false_ne_true, Decimal.unsignedText_neg]
  rfl

/-! ## Parts -/

/-- What is not a negative number holds together by its own strength. -/
theorem grip_of_isNegative {node : Node} (h : node.isNegative = false) :
    node.grip = node.precedence := by
  rw [grip, h, if_neg Bool.false_ne_true]

theorem grip_le_precedence (node : Node) : node.grip ≤ node.precedence := by
  unfold grip
  split
  · next h =>
      unfold isNegative at h
      split at h
      · exact Nat.le_of_ble_eq_true rfl
      · cases h
  · exact Nat.le_refl _

/-- No text goes on with just the strength of an opposite. -/
theorem strength_ne_leading (rest : List Char) : strength rest ≠ Precedence.leading := by
  have hall : ∀ op ∈ binaryOperators, Precedence.binary op ≠ Precedence.leading := by decide
  unfold strength
  -- each character that can begin a continuation has a strength of its own
  split
  · decide
  · dsimp only
    split
    · decide
    · split
      · next hop => exact hall _ (List.contains_iff_mem.mp hop)
      · decide
  · split
    · decide
    · split
      · decide
      · split
        · decide
        · split <;> decide

/-- What leaves a power in peace leaves an opposite in peace, too. -/
theorem leftLevel_le_leading {q : Nat} (h : leftLevel q ≤ Precedence.power)
    (hne : q ≠ Precedence.leading) : leftLevel q ≤ Precedence.leading := by
  unfold leftLevel at h ⊢
  split at h
  · next hq =>
      rw [if_pos hq]
      exact Nat.lt_of_le_of_ne (Nat.le_of_succ_le_succ h) hne
  · next hq =>
      have hpower : q ≠ Precedence.power := fun heq => hq (.inr (.inr (.inr heq)))
      rw [if_neg hq]
      exact Nat.le_of_lt_succ (Nat.lt_of_le_of_ne h hpower)

/-- What leaves a whole in peace that is no stronger than a power leaves its right part in peace. -/
theorem le_grip {node : Node} {own : Nat} {rest : List Char} (hown : own ≤ Precedence.power)
    (hrest : leftLevel (strength rest) ≤ own) (hpart : rightLevel own ≤ node.precedence) :
    leftLevel (strength rest) ≤ node.grip := by
  unfold grip
  split
  · exact leftLevel_le_leading (Nat.le_trans hrest hown) (strength_ne_leading rest)
  · exact Nat.le_trans hrest (Nat.le_trans (le_rightLevel own) hpart)

namespace Calculation

/-- The text of a node is read as the node with its signs as operators, if what follows it leaves
the text in peace. -/
structure IsRead (node : Node) : Prop where
  precedence_pos : 1 ≤ node.precedence
  reads {least : Nat} {rest : List Char} (hpos : 1 ≤ least) (hleast : least ≤ node.precedence)
    (hrest : leftLevel (strength rest) ≤ node.grip) (hends : EndsAtom rest) :
    expression? least (node.text.toList ++ rest)
      = continued? least (node.substitute signless) rest

section

variable {node : Node} {needed : Bool} {least own : Nat} {rest : List Char}

/-- A calculation is read to its end if what follows does not take it as its left part. -/
theorem IsRead.whole (h : IsRead node) (hrest : strength rest = 0) (hends : EndsAtom rest) :
    expression? 1 (node.text.toList ++ rest) = some (node.substitute signless, rest) := by
  have hlevel : leftLevel (strength rest) ≤ node.grip := by
    rw [hrest]
    exact Nat.zero_le _
  rw [h.reads (Nat.le_refl 1) h.precedence_pos hlevel hends, continued?_of_strength_lt]
  rw [hrest]
  exact Nat.zero_lt_one

/-- A part is in parentheses or left in peace. -/
theorem IsRead.shown (h : IsRead node) (hpos : 1 ≤ least) (hends : EndsAtom rest)
    (hfree : needed = false →
      least ≤ node.precedence ∧ leftLevel (strength rest) ≤ node.grip) :
    expression? least ((parenthesized needed node.text).toList ++ rest)
      = continued? least (node.substitute signless) rest := by
  cases needed with
  | false =>
      obtain ⟨hleast, hrest⟩ := hfree rfl
      exact h.reads hpos hleast hrest hends
  | true =>
      have hinside := h.whole (strength_of_closing (c := ')') rfl rest) (endsAtom_cons (by decide))
      have htext : (parenthesized true node.text).toList ++ rest
          = '(' :: (node.text.toList ++ ')' :: rest) := by
        simp [parenthesized, String.toList_append]
      rw [htext, expression?_of_operand? (operand?_parentheses hinside) (by simp; omega)]

/-- The left part of what follows. -/
theorem IsRead.left (h : IsRead node) (hpos : 1 ≤ least) (hleast : least ≤ own)
    (hrest : strength rest = own) (hends : EndsAtom rest)
    (hfree : needed = false → leftLevel own ≤ node.grip) :
    expression? least ((parenthesized needed node.text).toList ++ rest)
      = continued? least (node.substitute signless) rest := by
  refine h.shown hpos hends fun hneeded => ?_
  -- `least ≤ own ≤ leftLevel own`, and a grip is no more than a strength
  have hlevel := hfree hneeded
  have hle := le_leftLevel own
  have hgrip := grip_le_precedence node
  rw [hrest]
  exact ⟨by omega, hlevel⟩

/-- The right part of a whole that is left in peace. -/
theorem IsRead.right (h : IsRead node) (hpos : 1 ≤ own) (hown : own ≤ Precedence.power)
    (hrest : leftLevel (strength rest) ≤ own) (hends : EndsAtom rest)
    (hfree : needed = false → rightLevel own ≤ node.precedence) :
    expression? (rightLevel own) ((parenthesized needed node.text).toList ++ rest)
      = some (node.substitute signless, rest) := by
  have hle := le_rightLevel own
  rw [h.shown (by omega) hends, continued?_of_strength_lt (lt_rightLevel hrest)]
  exact fun hneeded => ⟨hfree hneeded, le_grip hown hrest (hfree hneeded)⟩

end

/-! ## Nodes -/

theorem IsRead.symbol {name : String} (hname : isIdentifier name = true) :
    IsRead (.symbol name) where
  precedence_pos := Nat.le_of_ble_eq_true rfl
  reads {least rest} hpos hleast hrest hends := by
    rw [text, expression?_symbol hname hends]
    rfl

theorem IsRead.number {x : Float} (hx : x.isFinite = true) :
    IsRead (.constant (.number x)) where
  precedence_pos := Nat.le_of_ble_eq_true rfl
  reads {least rest} hpos hleast hrest hends := by
    show expression? least ((numberText x).toList ++ rest) = _
    by_cases hlt : x < 0
    · have hopposite : (-x).isFinite = true := (Binary64.isFinite_neg x).trans hx
      obtain ⟨-, -, hsign, hzero⟩ :=
        Binary64.neg_of_lt_zero (Binary64.not_isNaN_of_isFinite hx).1 hlt
      have hgrip : (Node.constant (.number x)).grip = Precedence.leading :=
        if_pos (decide_eq_true hlt)
      rw [hgrip] at hrest
      -- the number behind the minus is read up to what is too weak to take an opposite
      have hinside : expression? (rightLevel Precedence.leading)
          ((numberText (-x)).toList ++ rest) = some (.constant (.number (-x)), rest) := by
        rw [expression?_number hopposite hsign hends,
          continued?_of_strength_lt (lt_rightLevel hrest), hzero]
        rfl
      have htext : (numberText x).toList ++ rest = '-' :: ((numberText (-x)).toList ++ rest) := by
        rw [numberText_of_lt hx hlt, String.toList_append]
        rfl
      rw [htext, substitute_number_of_lt hlt,
        expression?_of_operand? (operand?_opposite hinside) (by simp)]
    · rw [expression?_number hx hlt hends, substitute_number hlt]

theorem IsRead.opposite {arg : Node} (harg : IsRead arg) :
    IsRead (.unary "-" "unaryMinus" arg) where
  precedence_pos := Nat.le_of_ble_eq_true rfl
  reads {least rest} hpos hleast hrest hends := by
    have htext : (Node.unary "-" "unaryMinus" arg).text.toList ++ rest = '-' ::
        ((parenthesized (arg.precedence < Precedence.leading) arg.text).toList ++ rest) :=
      toList_text_leading "-" "unaryMinus" arg rest rfl
    have hinside : expression? (rightLevel Precedence.leading)
        ((parenthesized (arg.precedence < Precedence.leading) arg.text).toList ++ rest)
          = some (arg.substitute signless, rest) :=
      harg.right (by decide) (by decide) hrest hends fun hfree =>
        Nat.not_lt.mp (of_decide_eq_false hfree)
    rw [htext, expression?_of_operand? (operand?_opposite hinside) (by simp), substitute_unary]

theorem IsRead.transpose {arg : Node} (harg : IsRead arg)
    (hfree : (Node.unary "'" "ctranspose" arg).hidesSign = false) :
    IsRead (.unary "'" "ctranspose" arg) where
  precedence_pos := Nat.le_of_ble_eq_true rfl
  reads {least rest} hpos hleast hrest hends := by
    have htext : (Node.unary "'" "ctranspose" arg).text.toList ++ rest
        = (parenthesized (arg.precedence < Precedence.trailing) arg.text).toList
          ++ '\'' :: rest := toList_text_trailing "'" "ctranspose" arg rest rfl
    have hgrip : arg.grip = arg.precedence := grip_of_isNegative hfree
    rw [htext, harg.left hpos hleast rfl (endsAtom_cons (by decide)),
      continued?_transpose hleast, substitute_unary]
    exact fun hneeded => hgrip ▸ Nat.not_lt.mp (of_decide_eq_false hneeded)

/-- A left part that no power hides the sign of is left in peace. -/
theorem leftLevel_le_grip {op fn : String} (hop : (op, fn) ∈ operations) {left right : Node}
    (hfree : (Node.binary op fn left right).hidesSign = false)
    (h : leftLevel (Precedence.binary op) ≤ left.precedence) :
    leftLevel (Precedence.binary op) ≤ left.grip := by
  cases hleft : left.isNegative with
  | false => exact grip_of_isNegative hleft ▸ h
  | true =>
      have hall : ∀ e ∈ operations, (e.1 == "^" || e.1 == "'") = false →
          leftLevel (Precedence.binary e.1) ≤ Precedence.leading := by decide
      have hsign : ((op == "^" || op == "'") && left.isNegative) = false := hfree
      rw [hleft, Bool.and_true] at hsign
      rw [grip, hleft, if_pos rfl]
      exact hall _ hop hsign

theorem IsRead.operation {op fn : String} (hop : (op, fn) ∈ operations) {left right : Node}
    (hleft : IsRead left) (hright : IsRead right)
    (hfree : (Node.binary op fn left right).hidesSign = false) :
    IsRead (.binary op fn left right) := by
  have hbinary := (operations_spelled hop).1
  obtain ⟨hown, hleftLevel, hrightLevel⟩ := binary_levels hbinary
  have hpower : Precedence.binary op ≤ Precedence.power := by
    have hall : ∀ e ∈ operations, Precedence.binary e.1 ≤ Precedence.power := by decide
    exact hall _ hop
  refine ⟨hown, fun {least rest} hpos hleast hrest hends => ?_⟩
  have hlast := hright.right hown hpower hrest hends fun hneeded =>
    hrightLevel ▸ binary_free hneeded
  rw [binary, toList_text_between,
    hleft.left hpos hleast (strength_binary hbinary) (endsAtom_cons (by decide)),
    continued?_operation hop hleast hlast (by simp), ← binary, substitute_binary]
  exact fun hneeded => leftLevel_le_grip hop hfree (hleftLevel ▸ binary_free hneeded)

end Calculation

/-! ## Texts -/

/-- The text of a calculation in which no sign is hidden is read as the calculation with its signs
as operators. -/
theorem Calculation.isRead {node : Node} (h : Calculation node)
    (hfree : ∀ part ∈ node.preorder, part.hidesSign = false) : IsRead node := by
  -- what holds for all parts of a node holds for the node and for all parts of its children
  have here {node : Node} (hfree : ∀ part ∈ node.preorder, part.hidesSign = false) :
      node.hidesSign = false := hfree node (by rw [preorder_eq]; exact List.mem_cons_self)
  have inside {node child : Node} (hfree : ∀ part ∈ node.preorder, part.hidesSign = false)
      (hchild : child ∈ node.children) : ∀ part ∈ child.preorder, part.hidesSign = false := by
    intro part hpart
    apply hfree
    rw [preorder_eq]
    exact List.mem_cons_of_mem _ (List.mem_flatMap.mpr ⟨child, hchild, hpart⟩)
  induction h with
  | number hx => exact .number hx
  | symbol hname => exact .symbol hname
  | opposite harg ih => exact .opposite (ih (inside hfree (by simp [unary, children])))
  | transpose harg ih =>
      exact .transpose (ih (inside hfree (by simp [unary, children]))) (here hfree)
  | operation hop hleft hright ihleft ihright =>
      exact .operation hop (ihleft (inside hfree (by simp [binary, children])))
        (ihright (inside hfree (by simp [binary, children]))) (here hfree)

/-- Calculations with the same text are the same with the signs of their numbers as operators, if no
number hides its sign in a power or a transpose. -/
theorem signless_eq_of_text_eq {a b : Node} (ha : Calculation a) (hb : Calculation b)
    (hfreeA : ∀ part ∈ a.preorder, part.hidesSign = false)
    (hfreeB : ∀ part ∈ b.preorder, part.hidesSign = false) (h : a.text = b.text) :
    a.substitute signless = b.substitute signless := by
  have hread {node : Node} (hnode : Calculation node)
      (hfree : ∀ part ∈ node.preorder, part.hidesSign = false) :
      Calculation.expression? 1 (node.text.toList ++ []) = some (node.substitute signless, []) :=
    (hnode.isRead hfree).whole rfl endsAtom_nil
  have hboth :
      some (a.substitute signless, ([] : List Char)) = some (b.substitute signless, []) := by
    rw [← hread ha hfreeA, h, hread hb hfreeB]
  exact (Prod.mk.inj (Option.some.inj hboth)).1

/-- The sum of `x ^ -2` and a last part. -/
def exponentSum (last : Node) : Node :=
  .binary "+" "add" (.binary "^" "pow" (.symbol "x") (.constant (.number (-2)))) last

theorem calculation_exponentSum {last : Node} (hlast : Calculation last) :
    Calculation (exponentSum last) := by
  have hx : Calculation (.symbol "x") := .symbol (by decide)
  have hpower : Calculation (.binary "^" "pow" (.symbol "x") (.constant (.number (-2)))) :=
    .operation (by decide) hx (.number (by decide))
  exact .operation (by decide) hpower hlast

theorem signless_eq_of_text_eq_exponentSum :
    (exponentSum (.constant (.number (-3)))).substitute signless
      = (exponentSum (.unary "-" "unaryMinus" (.constant (.number 3)))).substitute signless :=
  signless_eq_of_text_eq (calculation_exponentSum (.number (by decide)))
    (calculation_exponentSum (.opposite (.number (by decide))))
    (by simp [exponentSum, preorder_eq, children, binary, hidesSign, isNegative])
    (by simp [exponentSum, preorder_eq, children, binary, unary, hidesSign, isNegative])
    rfl

/-! ## Hidden signs -/

/-- A power of a negative number is written like the opposite of a power. -/
theorem text_power_of_lt {x : Float} (hx : x.isFinite = true) (h : x < 0) (right : Node) :
    (Node.binary "^" "pow" (.constant (.number x)) right).text
      = (Node.unary "-" "unaryMinus"
          (.binary "^" "pow" (.constant (.number (-x))) right)).text := by
  let exponent : String := parenthesized (right.precedence < Precedence.power
    || (right.precedence == Precedence.power && !Precedence.groupsRight "^")) right.text
  calc (Node.binary "^" "pow" (.constant (.number x)) right).text
      = numberText x ++ " " ++ "^" ++ " " ++ exponent := rfl
    _ = "-" ++ "" ++ (numberText (-x) ++ " " ++ "^" ++ " " ++ exponent) := by
        simp only [numberText_of_lt hx h, String.append_empty, String.append_assoc]
    _ = _ := rfl

/-- The number minus two to the power of `x`. -/
def negativePower : Node := .binary "^" "pow" (.constant (.number (-2))) (.symbol "x")

/-- The opposite of two to the power of `x`. -/
def oppositePower : Node :=
  .unary "-" "unaryMinus" (.binary "^" "pow" (.constant (.number 2)) (.symbol "x"))

/-- Two calculations with the text `-2 ^ x` that differ in more than their signs. -/
theorem text_eq_and_signless_ne : Calculation negativePower ∧ Calculation oppositePower ∧
    negativePower.text = oppositePower.text ∧
      negativePower.substitute signless ≠ oppositePower.substitute signless := by
  have hx : Calculation (.symbol "x") := .symbol (by decide)
  refine ⟨.operation (by decide) (.number (by decide)) hx,
    .opposite (.operation (by decide) (.number (by decide)) hx),
    text_power_of_lt (by decide) (by decide) _, fun heq => ?_⟩
  rw [negativePower, oppositePower, substitute_binary, substitute_unary] at heq
  exact absurd (Node.operator.inj heq).1 (by decide)

end Formula.Node
