import Formula.Proofs.Decimal.ReadBack
import Formula.Proofs.Node.Reader

set_option autoImplicit false

/-! # Calculations

Trees of numbers and names, put together by sums, differences, products, quotients, powers,
opposites and transposes, and a reader of their texts. It climbs from strength to strength as the
reader of expressions does, but it knows the functions that the signs stand for, and it reads
numbers. A minus in front of something is the opposite of it to the reader, also in front of a
number, so no number that it reads has a sign.
-/

namespace Formula.Node

/-! ## Trees -/

/-- The signs between two parts and the functions that they stand for. -/
def operations : List (String × String) :=
  [("+", "add"), ("-", "subtract"), ("*", "multiply"), ("/", "divide"), ("^", "pow")]

/-- A character that may belong to a name: no blank, no parenthesis and nothing that a sign is
written with. -/
def isPlainChar (c : Char) : Bool := !([' ', '(', ')', '\'', '+', '-', '*', '/', '^'].contains c)

/-- An identifier: any name of such characters that does not begin with a digit. -/
def isIdentifier (s : String) : Bool :=
  s.toList.all isPlainChar && s.toList.head?.any fun c => !c.isDigit

/-- A calculation with finite numbers and identifiers. -/
inductive Calculation : Node → Prop where
  | number {x : Float} (hx : x.isFinite = true) : Calculation (.constant (.number x))
  | symbol {name : String} (hname : isIdentifier name = true) : Calculation (.symbol name)
  | opposite {arg : Node} (harg : Calculation arg) : Calculation (.unary "-" "unaryMinus" arg)
  | transpose {arg : Node} (harg : Calculation arg) : Calculation (.unary "'" "ctranspose" arg)
  | operation {op fn : String} {left right : Node} (hop : (op, fn) ∈ operations)
      (hleft : Calculation left) (hright : Calculation right) :
      Calculation (.binary op fn left right)

theorem operations_spelled {op fn : String} (hop : (op, fn) ∈ operations) :
    op ∈ binaryOperators ∧ operations.lookup op = some fn := by
  have hall : ∀ e ∈ operations, e.1 ∈ binaryOperators ∧ operations.lookup e.1 = some e.2 := by
    decide
  exact hall _ hop

namespace Calculation

/-! ## Reading -/

/-- The number or the identifier in front of a text. What begins with a digit is a number. -/
def atom? (cs : List Char) : Option (Node × List Char) :=
  let word := cs.takeWhile isPlainChar
  let rest := cs.dropWhile isPlainChar
  match word.head? with
  | none => none
  | some c =>
      if c.isDigit then
        (Decimal.read? (String.ofList word)).map fun x => (.constant (.number x), rest)
      else some (.symbol (String.ofList word), rest)

mutual

/-- A calculation of at least a strength. -/
def expression? (least : Nat) (cs : List Char) : Option (Node × List Char) := do
  let (x, rest) ← operand? cs
  if rest.length < cs.length then continued? least x rest else none
termination_by (cs.length, 2)

/-- What a calculation begins with. -/
def operand? (cs : List Char) : Option (Node × List Char) :=
  match cs with
  | '(' :: rest => do
      let (x, rest) ← expression? 1 rest
      match rest with
      | ')' :: rest => some (x, rest)
      | _ => none
  | '-' :: rest => do
      let (x, rest) ← expression? (rightLevel Precedence.leading) rest
      some (.unary "-" "unaryMinus" x, rest)
  | cs => atom? cs
termination_by (cs.length, 1)

/-- A calculation whose first part has been read. -/
def continued? (least : Nat) (x : Node) (cs : List Char) : Option (Node × List Char) :=
  if strength cs < least then some (x, cs)
  else
    match cs with
    | '\'' :: rest => continued? least (.unary "'" "ctranspose" x) rest
    | ' ' :: after => do
        let op := String.ofList (after.takeWhile (· != ' '))
        let rest := (after.dropWhile (· != ' ')).tail
        let fn ← operations.lookup op
        let (y, behind) ← expression? (rightLevel (Precedence.binary op)) rest
        if behind.length ≤ rest.length then continued? least (.binary op fn x y) behind else none
    | _ => none
termination_by (cs.length, 0)
decreasing_by
  all_goals apply Prod.Lex.left
  all_goals rw [List.length_cons]
  · omega
  · exact Nat.lt_succ_of_le (length_behindWord after)
  · have hrest : rest.length ≤ after.length := length_behindWord after
    omega

end

/-! ## Steps -/

section

variable {least : Nat} {cs rest : List Char} {x y : Node}

theorem expression?_of_operand? (h : operand? cs = some (x, rest))
    (hshort : rest.length < cs.length) : expression? least cs = continued? least x rest := by
  rw [expression?, h]
  exact if_pos hshort

theorem operand?_parentheses (h : expression? 1 cs = some (x, ')' :: rest)) :
    operand? ('(' :: cs) = some (x, rest) := by
  rw [operand?]
  simp only [h]
  rfl

theorem operand?_opposite (h : expression? (rightLevel Precedence.leading) cs = some (x, rest)) :
    operand? ('-' :: cs) = some (.unary "-" "unaryMinus" x, rest) := by
  rw [operand?]
  simp only [h]
  rfl

/-- What does not go on with anything strong enough ends here. -/
theorem continued?_of_strength_lt (h : strength cs < least) :
    continued? least x cs = some (x, cs) := by
  unfold continued?
  rw [if_pos h]

theorem continued?_transpose (hleast : least ≤ Precedence.trailing) :
    continued? least x ('\'' :: cs) = continued? least (.unary "'" "ctranspose" x) cs := by
  have hstrength : ¬strength ('\'' :: cs) < least := Nat.not_lt.mpr hleast
  rw [continued?, if_neg hstrength]

theorem continued?_operation {op fn : String} (hop : (op, fn) ∈ operations)
    (hleast : least ≤ Precedence.binary op)
    (h : expression? (rightLevel (Precedence.binary op)) cs = some (y, rest))
    (hshort : rest.length ≤ cs.length) :
    continued? least x (' ' :: (op.toList ++ ' ' :: cs))
      = continued? least (.binary op fn x y) rest := by
  obtain ⟨hbinary, hlookup⟩ := operations_spelled hop
  have hword := binaryOperators_word hbinary
  have hstrength : ¬strength (' ' :: (op.toList ++ ' ' :: cs)) < least := by
    rw [strength_binary hbinary]
    exact Nat.not_lt.mpr hleast
  rw [continued?, if_neg hstrength, takeWhile_word hword, dropWhile_word hword,
    String.ofList_toList]
  dsimp only
  rw [hlookup, List.tail_cons, Option.bind_eq_bind, Option.bind_some, h]
  exact if_pos hshort

/-! ### Atoms -/

/-- What stands behind an atom does not belong to it. -/
def EndsAtom (rest : List Char) : Prop := ∀ c more, rest = c :: more → isPlainChar c = false

theorem endsAtom_nil : EndsAtom [] := nofun

theorem endsAtom_cons {c : Char} (hc : isPlainChar c = false) : EndsAtom (c :: rest) := by
  intro d more heq
  rw [← (List.cons.inj heq).1, hc]

variable {word : List Char} {c : Char}

/-- What begins with a plain character begins with an atom. -/
theorem operand?_atom (hword : ∀ c ∈ word, isPlainChar c = true) (hrest : EndsAtom rest)
    (hfirst : word.head? = some c) : operand? (word ++ rest)
      = if c.isDigit then
          (Decimal.read? (String.ofList word)).map fun x => (.constant (.number x), rest)
        else some (.symbol (String.ofList word), rest) := by
  -- neither an opening parenthesis nor a sign is a plain character
  have hatom : operand? (word ++ rest) = atom? (word ++ rest) := by
    obtain ⟨tail, rfl⟩ := List.head?_eq_some_iff.mp hfirst
    have hne {d : Char} (hd : isPlainChar d = false) : c ≠ d := by
      rintro rfl
      rw [hword c List.mem_cons_self] at hd
      cases hd
    rw [List.cons_append]
    unfold operand?
    split
    · next heq => exact absurd (List.cons.inj heq).1 (hne (by decide))
    · next heq => exact absurd (List.cons.inj heq).1 (hne (by decide))
    · rfl
  rw [hatom, atom?, takeWhile_run hword hrest, dropWhile_run hword hrest, hfirst]

/-- A calculation that begins with an atom goes on behind it. -/
theorem expression?_atom (hfirst : word.head? = some c)
    (h : operand? (word ++ rest) = some (x, rest)) :
    expression? least (word ++ rest) = continued? least x rest := by
  obtain ⟨tail, rfl⟩ := List.head?_eq_some_iff.mp hfirst
  exact expression?_of_operand? h (by simp)

theorem expression?_symbol {name : String} (hname : isIdentifier name = true)
    (hrest : EndsAtom rest) :
    expression? least (name.toList ++ rest) = continued? least (.symbol name) rest := by
  rw [isIdentifier, Bool.and_eq_true, List.all_eq_true, Option.any_eq_true] at hname
  obtain ⟨hplain, c, hfirst, hdigit⟩ := hname
  rw [Bool.not_eq_true'] at hdigit
  apply expression?_atom hfirst
  rw [operand?_atom hplain hrest hfirst, if_neg (ne_true_of_eq_false hdigit), String.ofList_toList]

/-- What numbers are written with are plain characters. -/
theorem isPlainChar_of_isDigit (h : c.isDigit = true ∨ c = '.') : isPlainChar c = true := by
  rw [isPlainChar, Bool.not_eq_true', ← Bool.not_eq_true, List.contains_iff_mem]
  intro hmem
  simp only [List.mem_cons, List.not_mem_nil, or_false] at hmem
  rcases hmem with rfl | rfl | rfl | rfl | rfl | rfl | rfl | rfl | rfl
  all_goals exact absurd h (by decide)

/-- A finite number that is no zero has the text that it has anywhere else. -/
theorem numberText_of_ne_zero {x : Float} (hx : x.isFinite = true) (hzero : (x == 0) = false) :
    numberText x = Decimal.text x := by
  obtain ⟨hnan, hinf⟩ := Binary64.not_isNaN_of_isFinite hx
  rw [numberText, hnan, hinf, hzero]
  rfl

/-- The text of a finite number that is not below zero is an atom and read as that number, or as the
zero without a sign if it is a zero. -/
theorem numberText_atom {x : Float} (hx : x.isFinite = true) (hsign : ¬x < 0) :
    (∀ c ∈ (numberText x).toList, isPlainChar c = true) ∧
      (∃ c, (numberText x).toList.head? = some c ∧ c.isDigit = true) ∧
      Decimal.read? (numberText x) = some (if x == 0 then 0 else x) := by
  obtain ⟨hnan, hinf⟩ := Binary64.not_isNaN_of_isFinite hx
  cases hzero : x == 0 with
  | true =>
      have htext : numberText x = "0" := by
        rw [numberText, hnan, hinf, hzero]
        rfl
      have hplain : "0".toList.all isPlainChar = true := by decide
      rw [htext]
      exact ⟨List.all_eq_true.mp hplain, ⟨'0', rfl, rfl⟩, Decimal.read?_text (x := 0) rfl⟩
  | false =>
      have htext : numberText x = Decimal.text x := numberText_of_ne_zero hx hzero
      -- a number that is neither zero nor below it has no sign
      have hminus : Binary64.isNegative x = false :=
        Bool.eq_false_iff.mpr (mt (Binary64.lt_zero_iff hnan hzero).mpr hsign)
      have hchars : (numberText x).toList = Decimal.unsignedText x := by
        rw [htext, Decimal.toList_text hnan, hminus, if_neg Bool.false_ne_true]
      obtain ⟨m, hm⟩ : ∃ m, Binary64.finite? x = some m :=
        Option.isSome_iff_exists.mp ((Binary64.isSome_finite? x).trans hx)
      have hdigit {c : Char} (hc : c ∈ Decimal.unsignedText x) : c.isDigit = true ∨ c = '.' :=
        Decimal.isDigit_of_mem_unsignedText hm hc
      obtain ⟨c, more, heq, hc⟩ := Decimal.exists_unsignedText_eq x
      -- a finite number is not written as the word of infinity
      have hfirst : c.isDigit = true := by
        rcases hc with hc | rfl
        · exact hc
        · exact absurd (hdigit (heq ▸ List.mem_cons_self)) (by decide)
      rw [hchars]
      exact ⟨fun c hc => isPlainChar_of_isDigit (hdigit hc),
        ⟨c, by rw [heq, List.head?_cons], hfirst⟩, htext ▸ Decimal.read?_text hnan⟩

theorem expression?_number {x : Float} (hx : x.isFinite = true) (hsign : ¬x < 0)
    (hrest : EndsAtom rest) : expression? least ((numberText x).toList ++ rest)
      = continued? least (.constant (.number (if x == 0 then 0 else x))) rest := by
  obtain ⟨hplain, ⟨c, hfirst, hdigit⟩, hread⟩ := numberText_atom hx hsign
  apply expression?_atom hfirst
  rw [operand?_atom hplain hrest hfirst, if_pos hdigit, String.ofList_toList, hread]
  rfl

end

end Calculation

end Formula.Node
