import Formula.Node.Text

set_option autoImplicit false

/-! # A reader of texts

Reads the text of an expression from the left, climbing from the strength of one operator to that
of the next: behind an operand, an operator takes it as its left part if it is at least as strong as
the surroundings ask for, and its right part is read with the strength that the operator asks for.
The reader does not see which function an operator stands for, so its operators have none.
-/

namespace Formula.Node

/-! ## Spelling -/

/-- A character of a name. -/
def isNameChar (c : Char) : Bool := c.isAlphanum || c == '_'

/-- Words that are operators and no names. -/
def reserved : List String := ["or", "xor", "and", "to", "in", "mod", "not"]

/-- A name: letters, digits and underscores, with no digit in front. -/
def isName (s : String) : Bool :=
  s.toList.all isNameChar && (s.toList.head?.any fun c => !c.isDigit) && !reserved.contains s

/-- The operators with a strength of their own that stand between two parts. -/
def binaryOperators : List String :=
  ["or", "||", "xor", "and", "&&", "|", "^|", "&", "==", "!=", "<", ">", "<=", ">=", "<<", ">>",
    ">>>", "to", "in", "+", "-", "*", "/", ".*", "./", "%", "mod", "^", ".^"]

/-- The operators that stand in front of their part or behind it. -/
def unaryOperators : List String := ["-", "+", "not", "'", "!"]

/-! ## Strength -/

/-- Stronger than every node: what stands directly behind a name and belongs to it. -/
def belonging : Nat := Precedence.atom + 1

/-- The strength of what a text goes on with behind an operand; zero if nothing of it takes the
operand as its left part. -/
def strength : List Char → Nat
  | [] => 0
  | ' ' :: rest =>
      let word := String.ofList (rest.takeWhile (· != ' '))
      if word = "?" then Precedence.conditional
      else if binaryOperators.contains word then Precedence.binary word
      else 0
  | c :: _ =>
      if c = ':' then Precedence.range
      else if c = '\'' ∨ c = '!' then Precedence.trailing
      else if c = '[' then Precedence.atom
      else if c = '(' ∨ isNameChar c = true then belonging
      else 0

/-- The least strength of a left part that goes without parentheses. -/
def leftLevel (own : Nat) : Nat :=
  if own = Precedence.conditional ∨ own = Precedence.range ∨ own = Precedence.leading
    ∨ own = Precedence.power
  then own + 1 else own

/-- The least strength of a right part that goes without parentheses. -/
def rightLevel (own : Nat) : Nat :=
  if own = Precedence.conditional ∨ own = Precedence.leading ∨ own = Precedence.power then own
  else own + 1

theorem le_leftLevel (own : Nat) : own ≤ leftLevel own := by
  unfold leftLevel
  split <;> omega

theorem le_rightLevel (own : Nat) : own ≤ rightLevel own := by
  unfold rightLevel
  split <;> omega

/-- What takes a whole as its left part only from some strength on does not take the right part of
a whole of less strength. -/
theorem lt_rightLevel {q own : Nat} (h : leftLevel q ≤ own) : q < rightLevel own := by
  unfold leftLevel at h
  unfold rightLevel
  split at h <;> split <;> omega

/-! ## Reading

The reader goes on with what an expression has left of a text only if that is no longer than the
text, as it always is. So it ends: a text becomes shorter, or what is read in it simpler. -/

theorem length_behindWord (cs : List Char) :
    (cs.dropWhile (· != ' ')).tail.length ≤ cs.length := by
  have hlength := (List.dropWhile_sublist (· != ' ') : List.Sublist _ cs).length_le
  rw [List.length_tail]
  omega

mutual

/-- An expression of at least a strength. -/
def expression? (least : Nat) (cs : List Char) : Option (Node × List Char) := do
  let (x, rest) ← operand? cs
  if rest.length < cs.length then continued? least x rest else none
termination_by (cs.length, 2)

/-- What an expression begins with. -/
def operand? (cs : List Char) : Option (Node × List Char) :=
  match cs with
  | '(' :: rest => do
      let (x, rest) ← expression? 1 rest
      match rest with
      | ')' :: rest => some (x, rest)
      | _ => none
  | '[' :: rest => do
      let (items, rest) ← items? ']' rest
      some (.array items, rest)
  | '-' :: rest => leading? "-" rest
  | '+' :: rest => leading? "+" rest
  | cs => named? cs
termination_by (cs.length, 1)

/-- What begins with a name, unless the name is the operator of what stands behind it. -/
def named? (cs : List Char) : Option (Node × List Char) :=
  let name := String.ofList (cs.takeWhile isNameChar)
  match _ : cs.dropWhile isNameChar with
  | '(' :: rest => do
      let (args, rest) ← items? ')' rest
      some (.function name args, rest)
  | ' ' :: rest =>
      if name = "not" then leading? name rest else some (.symbol name, ' ' :: rest)
  | rest => if name = "" then none else some (.symbol name, rest)
termination_by (cs.length, 0)
decreasing_by
  all_goals
    have hlength : (cs.dropWhile isNameChar).length ≤ cs.length :=
      (List.dropWhile_sublist isNameChar).length_le
    rw [‹cs.dropWhile isNameChar = _›, List.length_cons] at hlength
    exact Prod.Lex.left _ _ hlength

/-- What begins with an operator, behind that operator. -/
def leading? (op : String) (cs : List Char) : Option (Node × List Char) := do
  let (x, rest) ← expression? (rightLevel Precedence.leading) cs
  some (.unary op "" x, rest)
termination_by (cs.length, 3)

/-- An expression whose first part has been read. -/
def continued? (least : Nat) (x : Node) (cs : List Char) : Option (Node × List Char) :=
  if strength cs < least then some (x, cs)
  else
    match cs with
    | '[' :: rest => do
        let (dimensions, behind) ← items? ']' rest
        if behind.length ≤ rest.length then continued? least (.index x dimensions) behind else none
    | '\'' :: rest => continued? least (.unary "'" "" x) rest
    | '!' :: rest => continued? least (.unary "!" "" x) rest
    | ':' :: rest => do
        let (y, behind) ← expression? (rightLevel Precedence.range) rest
        match behind with
        | ':' :: more =>
            if more.length ≤ rest.length then do
              let (z, behind) ← expression? (rightLevel Precedence.range) more
              if behind.length ≤ more.length then continued? least (.range x z (some y)) behind
              else none
            else none
        | behind =>
            if behind.length ≤ rest.length then continued? least (.range x y none) behind else none
    | ' ' :: after => do
        let op := String.ofList (after.takeWhile (· != ' '))
        let rest := (after.dropWhile (· != ' ')).tail
        if op = "?" then do
          let (y, behind) ← expression? (rightLevel Precedence.conditional) rest
          match behind with
          | ' ' :: ':' :: ' ' :: more =>
              if more.length ≤ rest.length then do
                let (z, behind) ← expression? (rightLevel Precedence.conditional) more
                if behind.length ≤ more.length then continued? least (.conditional x y z) behind
                else none
              else none
          | _ => none
        else do
          let (y, behind) ← expression? (rightLevel (Precedence.binary op)) rest
          if behind.length ≤ rest.length then continued? least (.binary op "" x y) behind else none
    | _ => none
termination_by (cs.length, 0)
decreasing_by
  all_goals apply Prod.Lex.left
  all_goals rw [List.length_cons]
  all_goals first
    | omega
    | exact Nat.lt_succ_of_le (length_behindWord after)
    | have hrest : rest.length ≤ after.length := length_behindWord after
      omega

/-- Expressions with commas between them, up to a closing bracket. -/
def items? (close : Char) (cs : List Char) : Option (List Node × List Char) :=
  if cs.head? = some close then some ([], cs.tail) else moreItems? close cs
termination_by (cs.length, 4)

/-- One or more expressions with commas between them, up to a closing bracket. -/
def moreItems? (close : Char) (cs : List Char) : Option (List Node × List Char) := do
  let (x, rest) ← expression? 1 cs
  match rest with
  | ',' :: ' ' :: more =>
      if more.length < cs.length then do
        let (others, rest) ← moreItems? close more
        some (x :: others, rest)
      else none
  | c :: rest => if c = close then some ([x], rest) else none
  | [] => none
termination_by (cs.length, 3)

end

/-! ## Steps -/

section

variable {least : Nat} {cs rest : List Char} {x y z : Node} {xs : List Node}

theorem expression?_of_operand? (h : operand? cs = some (x, rest))
    (hshort : rest.length < cs.length) : expression? least cs = continued? least x rest := by
  rw [expression?, h]
  exact if_pos hshort

theorem operand?_parentheses (h : expression? 1 cs = some (x, ')' :: rest)) :
    operand? ('(' :: cs) = some (x, rest) := by
  rw [operand?]
  simp only [h]
  rfl

theorem operand?_array (h : items? ']' cs = some (xs, rest)) :
    operand? ('[' :: cs) = some (.array xs, rest) := by
  rw [operand?]
  simp only [h]
  rfl

theorem leading?_of_expression? (op : String)
    (h : expression? (rightLevel Precedence.leading) cs = some (x, rest)) :
    leading? op cs = some (.unary op "" x, rest) := by
  rw [leading?, h]
  rfl

theorem operand?_minus : operand? ('-' :: cs) = leading? "-" cs := by rw [operand?]

theorem operand?_plus : operand? ('+' :: cs) = leading? "+" cs := by rw [operand?]

/-- What does not go on with anything strong enough ends here. -/
theorem continued?_of_strength_lt (h : strength cs < least) :
    continued? least x cs = some (x, cs) := by
  unfold continued?
  rw [if_pos h]

theorem continued?_index (hleast : least ≤ Precedence.atom)
    (h : items? ']' cs = some (xs, rest)) (hshort : rest.length ≤ cs.length) :
    continued? least x ('[' :: cs) = continued? least (.index x xs) rest := by
  have hstrength : ¬strength ('[' :: cs) < least := Nat.not_lt.mpr hleast
  rw [continued?, if_neg hstrength, h]
  exact if_pos hshort

theorem continued?_transpose (hleast : least ≤ Precedence.trailing) :
    continued? least x ('\'' :: cs) = continued? least (.unary "'" "" x) cs := by
  have hstrength : ¬strength ('\'' :: cs) < least := Nat.not_lt.mpr hleast
  rw [continued?, if_neg hstrength]

theorem continued?_factorial (hleast : least ≤ Precedence.trailing) :
    continued? least x ('!' :: cs) = continued? least (.unary "!" "" x) cs := by
  have hstrength : ¬strength ('!' :: cs) < least := Nat.not_lt.mpr hleast
  rw [continued?, if_neg hstrength]

theorem continued?_range (hleast : least ≤ Precedence.range)
    (h : expression? (rightLevel Precedence.range) cs = some (y, rest))
    (hshort : rest.length ≤ cs.length) (hrest : ∀ more, rest ≠ ':' :: more) :
    continued? least x (':' :: cs) = continued? least (.range x y none) rest := by
  have hstrength : ¬strength (':' :: cs) < least := Nat.not_lt.mpr hleast
  rw [continued?, if_neg hstrength, h]
  simp only [Option.bind_eq_bind, Option.bind_some, if_pos hshort]

theorem continued?_range_step {more : List Char} (hleast : least ≤ Precedence.range)
    (hy : expression? (rightLevel Precedence.range) cs = some (y, ':' :: more))
    (hmore : more.length ≤ cs.length)
    (hz : expression? (rightLevel Precedence.range) more = some (z, rest))
    (hshort : rest.length ≤ more.length) :
    continued? least x (':' :: cs) = continued? least (.range x z (some y)) rest := by
  have hstrength : ¬strength (':' :: cs) < least := Nat.not_lt.mpr hleast
  rw [continued?, if_neg hstrength, hy]
  simp only [Option.bind_eq_bind, Option.bind_some, if_pos hmore, hz, if_pos hshort]

theorem takeWhile_word {op : String} (hop : ∀ c ∈ op.toList, (c != ' ') = true) :
    (op.toList ++ ' ' :: rest).takeWhile (· != ' ') = op.toList := by
  rw [List.takeWhile_append_of_pos hop, List.takeWhile_cons_of_neg (by decide), List.append_nil]

theorem dropWhile_word {op : String} (hop : ∀ c ∈ op.toList, (c != ' ') = true) :
    (op.toList ++ ' ' :: rest).dropWhile (· != ' ') = ' ' :: rest := by
  rw [List.dropWhile_append_of_pos hop, List.dropWhile_cons_of_neg (by decide)]

theorem binaryOperators_word {op : String} (hop : op ∈ binaryOperators) :
    ∀ c ∈ op.toList, (c != ' ') = true := by
  have hall : (binaryOperators.all fun op => op.toList.all (· != ' ')) = true := by decide
  exact List.all_eq_true.mp (List.all_eq_true.mp hall op hop)

theorem strength_binary {op : String} (hop : op ∈ binaryOperators) :
    strength (' ' :: (op.toList ++ ' ' :: rest)) = Precedence.binary op := by
  have hne : op ≠ "?" := by
    rintro rfl
    exact absurd hop (by decide)
  rw [strength, takeWhile_word (binaryOperators_word hop), String.ofList_toList, if_neg hne,
    if_pos (List.contains_iff_mem.mpr hop)]

theorem continued?_binary {op : String} (hop : op ∈ binaryOperators)
    (hleast : least ≤ Precedence.binary op)
    (h : expression? (rightLevel (Precedence.binary op)) cs = some (y, rest))
    (hshort : rest.length ≤ cs.length) :
    continued? least x (' ' :: (op.toList ++ ' ' :: cs))
      = continued? least (.binary op "" x y) rest := by
  -- the word read is an operator, which the question mark of a conditional is not
  have hne : op ≠ "?" := by
    rintro rfl
    exact absurd hop (by decide)
  have hstrength : ¬strength (' ' :: (op.toList ++ ' ' :: cs)) < least := by
    rw [strength_binary hop]
    exact Nat.not_lt.mpr hleast
  have hword := binaryOperators_word hop
  rw [continued?, if_neg hstrength, takeWhile_word hword, dropWhile_word hword,
    String.ofList_toList]
  dsimp only
  rw [if_neg hne, List.tail_cons, h]
  exact if_pos hshort

theorem continued?_conditional {more : List Char} (hleast : least ≤ Precedence.conditional)
    (hy : expression? (rightLevel Precedence.conditional) cs
      = some (y, ' ' :: ':' :: ' ' :: more))
    (hmore : more.length ≤ cs.length)
    (hz : expression? (rightLevel Precedence.conditional) more = some (z, rest))
    (hshort : rest.length ≤ more.length) :
    continued? least x (' ' :: '?' :: ' ' :: cs) = continued? least (.conditional x y z) rest := by
  have hstrength : ¬strength (' ' :: '?' :: ' ' :: cs) < least := Nat.not_lt.mpr hleast
  rw [continued?, if_neg hstrength]
  show (if String.ofList ['?'] = "?" then _ else _) = _
  rw [if_pos rfl]
  show (expression? _ cs >>= _) = _
  rw [hy]
  refine (if_pos hmore).trans ?_
  rw [hz]
  exact if_pos hshort

/-! ### Names -/

theorem isNameChar_of_isName {s : String} (h : isName s = true) :
    ∀ c ∈ s.toList, isNameChar c = true := by
  rw [isName, Bool.and_eq_true, Bool.and_eq_true] at h
  exact List.all_eq_true.mp h.1.1

/-- What stands behind a name does not belong to it. -/
def EndsName (rest : List Char) : Prop := ∀ c more, rest = c :: more → isNameChar c = false

theorem takeWhile_run {p : Char → Bool} {run : List Char} (hrun : ∀ c ∈ run, p c = true)
    (hrest : ∀ c more, rest = c :: more → p c = false) : (run ++ rest).takeWhile p = run := by
  rw [List.takeWhile_append_of_pos hrun]
  cases rest with
  | nil => exact List.append_nil _
  | cons c more =>
      rw [List.takeWhile_cons_of_neg (by rw [hrest c more rfl]; nofun), List.append_nil]

theorem dropWhile_run {p : Char → Bool} {run : List Char} (hrun : ∀ c ∈ run, p c = true)
    (hrest : ∀ c more, rest = c :: more → p c = false) : (run ++ rest).dropWhile p = rest := by
  rw [List.dropWhile_append_of_pos hrun]
  cases rest with
  | nil => rfl
  | cons c more => rw [List.dropWhile_cons_of_neg (by rw [hrest c more rfl]; nofun)]

/-- What begins with a name is read from that name on. -/
theorem operand?_name {s : String} (hs : isName s = true) (rest : List Char) :
    operand? (s.toList ++ rest) = named? (s.toList ++ rest) := by
  have hchars := isNameChar_of_isName hs
  -- the first character is none of those that `operand?` looks for
  cases hlist : s.toList with
  | nil =>
      rw [isName, hlist] at hs
      exact nomatch hs
  | cons c more =>
      have hc : isNameChar c = true := hchars c (hlist ▸ List.mem_cons_self)
      have hne {d : Char} (hd : isNameChar d = false) : c ≠ d := by
        rintro rfl
        rw [hd] at hc
        exact nomatch hc
      rw [List.cons_append]
      unfold operand?
      split
      · next heq => exact absurd (List.cons.inj heq).1 (hne (by decide))
      · next heq => exact absurd (List.cons.inj heq).1 (hne (by decide))
      · next heq => exact absurd (List.cons.inj heq).1 (hne (by decide))
      · next heq => exact absurd (List.cons.inj heq).1 (hne (by decide))
      · rfl

theorem endsName_cons {c : Char} (hc : isNameChar c = false) : EndsName (c :: rest) := by
  intro d more heq
  rw [← (List.cons.inj heq).1, hc]

theorem operand?_function {s : String} (hs : isName s = true)
    (h : items? ')' cs = some (xs, rest)) :
    operand? (s.toList ++ '(' :: cs) = some (.function s xs, rest) := by
  have hends : EndsName ('(' :: cs) := endsName_cons (by decide)
  have hchars := isNameChar_of_isName hs
  rw [operand?_name hs, named?, takeWhile_run hchars hends, dropWhile_run hchars hends,
    String.ofList_toList]
  show (items? ')' cs >>= _) = _
  rw [h]
  rfl

theorem operand?_symbol {s : String} (hs : isName s = true) (hrest : EndsName rest)
    (hcall : ∀ more, rest ≠ '(' :: more) :
    operand? (s.toList ++ rest) = some (.symbol s, rest) := by
  have hnot : s ≠ "not" := by
    rintro rfl
    exact absurd hs (by decide)
  have hempty : s ≠ "" := by
    rintro rfl
    exact absurd hs (by decide)
  have hchars := isNameChar_of_isName hs
  rw [operand?_name hs]
  unfold named?
  rw [takeWhile_run hchars hrest, dropWhile_run hchars hrest, String.ofList_toList]
  split
  · exact absurd rfl (hcall _)
  · rw [if_neg hnot]
  · rw [if_neg hempty]

theorem operand?_not : operand? ("not".toList ++ ' ' :: cs) = leading? "not" cs := by
  have hends : EndsName (' ' :: cs) := endsName_cons (by decide)
  have hall : "not".toList.all isNameChar = true := by decide
  have hchars := List.all_eq_true.mp hall
  have hnamed : operand? ("not".toList ++ ' ' :: cs) = named? ("not".toList ++ ' ' :: cs) := by
    show operand? ('n' :: 'o' :: 't' :: ' ' :: cs) = _
    unfold operand?
    rfl
  rw [hnamed, named?, takeWhile_run hchars hends, dropWhile_run hchars hends,
    String.ofList_toList]
  rfl

/-! ### Items -/

/-- A bracket that closes items. -/
def isClosing (c : Char) : Bool := c == ')' || c == ']'

theorem expression?_closing {close : Char} (hclose : isClosing close = true) :
    expression? least (close :: cs) = none := by
  have hoperand : operand? (close :: cs) = none := by
    rw [isClosing, Bool.or_eq_true, beq_iff_eq, beq_iff_eq] at hclose
    rcases hclose with rfl | rfl
    · unfold operand? named?
      rfl
    · unfold operand? named?
      rfl
  rw [expression?, hoperand]
  rfl

theorem items?_nil (close : Char) : items? close (close :: rest) = some ([], rest) := by
  rw [items?, List.head?_cons, if_pos rfl, List.tail_cons]

/-- Where items can be read there is no closing bracket. -/
theorem items?_of_moreItems? {close : Char} (hclose : isClosing close = true)
    (h : moreItems? close cs = some (xs, rest)) : items? close cs = some (xs, rest) := by
  rw [items?, if_neg, h]
  -- no expression begins with a closing bracket
  intro hhead
  obtain ⟨more, rfl⟩ := List.head?_eq_some_iff.mp hhead
  rw [moreItems?, expression?_closing hclose] at h
  exact nomatch h

theorem moreItems?_last {close : Char} (hclose : isClosing close = true)
    (h : expression? 1 cs = some (x, close :: rest)) : moreItems? close cs = some ([x], rest) := by
  have hne : close ≠ ',' := by
    rintro rfl
    exact nomatch hclose
  rw [moreItems?, h]
  simp only [Option.bind_eq_bind, Option.bind_some]
  split
  · next heq => exact absurd (List.cons.inj heq).1 hne
  · next heq =>
      obtain ⟨rfl, rfl⟩ := List.cons.inj heq
      rw [if_pos rfl]
  · next heq => exact nomatch heq

theorem moreItems?_cons {close : Char} {more : List Char}
    (h : expression? 1 cs = some (x, ',' :: ' ' :: more)) (hshort : more.length < cs.length)
    (hmore : moreItems? close more = some (xs, rest)) :
    moreItems? close cs = some (x :: xs, rest) := by
  rw [moreItems?, h]
  simp only [Option.bind_eq_bind, Option.bind_some, if_pos hshort, hmore]

end

end Formula.Node
