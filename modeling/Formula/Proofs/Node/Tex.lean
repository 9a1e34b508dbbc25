import Formula.Node.Tex

set_option autoImplicit false

/-! # Arithmetic in TeX

The TeX of sums, differences and products of letters, read from the left. A reader keeps the sum it
is in: what has been added up so far, and the product that is still being read with its sign.
Parentheses start a new sum and multiply it to the product around it.

The tokens of a term are read as the value of the term, unless a sum or a difference is the right
factor of a product: that factor is written without parentheses, and only its first part is read as
a factor. Without such factors, terms with the same TeX have the same value.
-/

namespace Formula

/-! ## Terms -/

/-- A letter. -/
abbrev Letter := {c : Char // Text.isLetter c = true}

/-- The symbol that a letter is the name of. -/
def Letter.name (c : Letter) : String := String.singleton c.val

/-- An operation of arithmetic. -/
inductive RingOp where
  | add
  | subtract
  | multiply
  deriving DecidableEq

namespace RingOp

/-- The operator. -/
def sign : RingOp → String
  | add => "+"
  | subtract => "-"
  | multiply => "*"

/-- The function of the operator. -/
def fn : RingOp → String
  | add => "add"
  | subtract => "subtract"
  | multiply => "multiply"

/-- The operation on integers. -/
def apply : RingOp → Int → Int → Int
  | add, m, n => m + n
  | subtract, m, n => m - n
  | multiply, m, n => m * n

end RingOp

/-- Letters put together by the operations of arithmetic. -/
inductive RingTerm where
  | letter (c : Letter)
  | apply (op : RingOp) (left right : RingTerm)

namespace RingTerm

/-- The tree of a term. -/
def node : RingTerm → Node
  | letter c => .symbol c.name
  | apply op left right => .binary op.sign op.fn left.node right.node

/-- The value of a term for integers in place of the symbols. -/
def value (env : String → Int) : RingTerm → Int
  | letter c => env c.name
  | apply op left right => op.apply (left.value env) (right.value env)

/-- Is the term a sum or a difference? -/
def isSum : RingTerm → Bool
  | letter _ => false
  | apply op _ _ => op != .multiply

/-- Is no sum and no difference the right factor of a product? -/
def isGrouped : RingTerm → Bool
  | letter _ => true
  | apply op left right =>
      !(op == .multiply && right.isSum) && left.isGrouped && right.isGrouped

end RingTerm

/-! ## Tokens -/

/-- A part of the TeX of a term. -/
inductive RingToken where
  | letter (c : Letter)
  | sign (op : RingOp)
  | opening
  | closing
  deriving DecidableEq

namespace RingToken

/-- The characters of a token. -/
def spell : RingToken → List Char
  | letter c => [c.val]
  | sign .add => ['+']
  | sign .subtract => ['-']
  | sign .multiply => ['\\', 'c', 'd', 'o', 't', ' ']
  | opening => ['\\', 'l', 'e', 'f', 't', '(']
  | closing => ['\\', 'r', 'i', 'g', 'h', 't', ')']

/-- Puts tokens into parentheses where they are needed. -/
def enclose (needed : Bool) (ts : List RingToken) : List RingToken :=
  if needed then opening :: (ts ++ [closing]) else ts

/-- The characters of several tokens. -/
def spellAll (ts : List RingToken) : List Char := ts.flatMap spell

end RingToken

open RingToken (spell enclose spellAll)

/-- The tokens of the TeX of a term. -/
def RingTerm.tokens : RingTerm → List RingToken
  | letter c => [.letter c]
  | apply op left right =>
      enclose (op == .multiply && left.isSum) left.tokens ++
        .sign op :: enclose (op == .subtract && right.isSum) right.tokens

theorem toList_tex_binary (op : RingOp) (l r : Node) :
    (Node.binary op.sign op.fn l r).tex.toList
      = (Node.stretched (l.precedence < Node.Precedence.binary op.sign) l.tex).toList
        ++ spell (.sign op)
        ++ (Node.stretched (r.precedence ≤ Node.Precedence.binary op.sign && op == .subtract)
          r.tex).toList := by
  have hcommand : (Node.texBinary op.sign).startsWith "\\" = (op == .multiply) := by
    cases op <;> decide +kernel
  -- neither a quotient nor a power
  rw [Node.binary, Node.tex, if_neg (by cases op <;> decide), if_neg (by cases op <;> decide)]
  dsimp only
  rw [hcommand, if_neg nofun]
  cases op with
  | add =>
      rw [if_neg nofun, String.toList_append, String.toList_append]
      rfl
  | subtract =>
      rw [if_neg nofun, String.toList_append, String.toList_append]
      rfl
  | multiply =>
      rw [if_pos (by rfl), String.toList_append, String.toList_append, String.toList_append,
        List.append_assoc (Node.stretched _ _).toList]
      rfl

theorem toList_stretched {needed : Bool} {s : String} {ts : List RingToken}
    (h : s.toList = spellAll ts) :
    (Node.stretched needed s).toList = spellAll (enclose needed ts) := by
  cases needed with
  | false => exact h
  | true =>
      rw [Node.stretched, if_pos rfl, String.toList_append, String.toList_append, h, enclose,
        if_pos rfl]
      simp [spellAll, spell]

/-- A left part is put into parentheses if it is a sum in front of a product. -/
theorem RingTerm.left_needed (op : RingOp) (t : RingTerm) :
    decide (t.node.precedence < Node.Precedence.binary op.sign)
      = (op == .multiply && t.isSum) := by
  cases t with
  | letter c => cases op <;> rfl
  | apply inner left right => cases op <;> cases inner <;> rfl

/-- A right part is put into parentheses if it is a sum that is subtracted. -/
theorem RingTerm.right_needed (op : RingOp) (t : RingTerm) :
    (decide (t.node.precedence ≤ Node.Precedence.binary op.sign) && op == .subtract)
      = (op == .subtract && t.isSum) := by
  cases t with
  | letter c => cases op <;> rfl
  | apply inner left right => cases op <;> cases inner <;> rfl

theorem toList_tex_letter (c : Letter) : (Node.symbol c.name).tex.toList = [c.val] := by
  have hlength : c.name.length = 1 := String.length_singleton
  have hgreek : c.name ∉ Node.greek := by
    intro h
    have hlong : ∀ s ∈ Node.greek, s.length ≠ 1 := by decide
    exact hlong _ h hlength
  rw [Node.tex, Node.texSymbol, if_neg hgreek, if_pos hlength, Letter.name, String.toList_singleton]

/-- The TeX of a term is spelled by its tokens. -/
theorem RingTerm.toList_tex (t : RingTerm) : t.node.tex.toList = spellAll t.tokens := by
  induction t with
  | letter c => exact toList_tex_letter c
  | apply op left right ihl ihr =>
      rw [node, toList_tex_binary, left_needed, right_needed, toList_stretched ihl,
        toList_stretched ihr]
      simp [tokens, spellAll]

/-! ## One text, one list of tokens -/

theorem Letter.ne (c : Letter) {d : Char} (hd : Text.isLetter d = false) : c.val ≠ d := by
  intro h
  have hc := c.property
  rw [h, hd] at hc
  exact nomatch hc

namespace RingToken

/-- The tokens that are no letters. -/
def marks : List RingToken :=
  [sign .add, sign .subtract, sign .multiply, opening, closing]

theorem letter_or_mem_marks (t : RingToken) : (∃ c, t = letter c) ∨ t ∈ marks := by
  cases t with
  | letter c => exact .inl ⟨c, rfl⟩
  | sign op => cases op <;> exact .inr (by decide)
  | opening => exact .inr (by decide)
  | closing => exact .inr (by decide)

theorem exists_spell_eq {t : RingToken} (h : t ∈ marks) :
    ∃ d more, spell t = d :: more ∧ Text.isLetter d = false := by
  have hall : ∀ t ∈ marks, ((spell t).head?.any fun d => !Text.isLetter d) = true := by decide
  have hhead := hall t h
  cases hspell : spell t with
  | nil =>
      rw [hspell] at hhead
      exact nomatch hhead
  | cons d more =>
      rw [hspell] at hhead
      exact ⟨d, more, rfl, Bool.not_eq_true' _ ▸ hhead⟩

/-- No token begins with another token. -/
theorem eq_of_isPrefix_spell {t u : RingToken} (h : spell t <+: spell u) : t = u := by
  rcases letter_or_mem_marks t with ⟨c, rfl⟩ | ht
  · rcases letter_or_mem_marks u with ⟨d, rfl⟩ | hu
    · exact congrArg letter (Subtype.ext (List.cons_prefix_cons.mp h).1)
    · obtain ⟨d, more, hspell, hd⟩ := exists_spell_eq hu
      rw [hspell] at h
      exact absurd (List.cons_prefix_cons.mp h).1 (c.ne hd)
  · rcases letter_or_mem_marks u with ⟨c, rfl⟩ | hu
    · obtain ⟨d, more, hspell, hd⟩ := exists_spell_eq ht
      rw [hspell] at h
      exact absurd (List.cons_prefix_cons.mp h).1.symm (c.ne hd)
    · have hmarks : ∀ t ∈ marks, ∀ u ∈ marks, spell t <+: spell u → t = u := by decide
      exact hmarks t ht u hu h

theorem spell_ne_nil (t : RingToken) : spell t ≠ [] := by
  rcases letter_or_mem_marks t with ⟨c, rfl⟩ | ht
  · exact nofun
  · obtain ⟨d, more, hspell, -⟩ := exists_spell_eq ht
    rw [hspell]
    exact nofun

/-- The characters of tokens tell the tokens. -/
theorem spellAll_inj {ts us : List RingToken} (h : spellAll ts = spellAll us) : ts = us := by
  induction ts generalizing us with
  | nil =>
      cases us with
      | nil => rfl
      | cons u us => exact absurd (List.append_eq_nil_iff.mp h.symm).1 (spell_ne_nil u)
  | cons t ts ih =>
      cases us with
      | nil => exact absurd (List.append_eq_nil_iff.mp h).1 (spell_ne_nil t)
      | cons u us =>
          rw [spellAll, spellAll, List.flatMap_cons, List.flatMap_cons] at h
          -- one of the two first tokens begins with the other, and no token begins with another one
          have htu : t = u := by
            rcases List.prefix_or_prefix_of_prefix (List.prefix_append _ _)
              (h ▸ List.prefix_append (spell t) _) with hstart | hstart
            · exact (eq_of_isPrefix_spell hstart).symm
            · exact eq_of_isPrefix_spell hstart
          subst htu
          rw [ih (List.append_cancel_left h)]

end RingToken

/-! ## Reading -/

/-- A sum that is being read: what has been added up so far, and the sign and the factors so far of
the product that comes next. -/
structure RunningSum where
  total : Int
  sign : Int
  product : Int

namespace RunningSum

/-- The sum before anything of it has been read. -/
def start : RunningSum := ⟨0, 1, 1⟩

/-- The value of what has been read. -/
def value (s : RunningSum) : Int := s.total + s.sign * s.product

/-- One more factor. -/
def times (s : RunningSum) (n : Int) : RunningSum := { s with product := s.product * n }

/-- A new product with a sign. -/
def next (s : RunningSum) (sign : Int) : RunningSum := ⟨s.value, sign, 1⟩

theorem times_times (s : RunningSum) (m n : Int) : (s.times m).times n = s.times (m * n) := by
  rw [times, times, times, Int.mul_assoc]

theorem value_times_of_fresh (total sign n : Int) :
    ((⟨total, sign, 1⟩ : RunningSum).times n).value = total + sign * n := by
  rw [value, times, Int.one_mul]

end RunningSum

/-- A sum and the sums around it that are still open. -/
abbrev ReaderState := RunningSum × List RunningSum

namespace RingToken

/-- Reads one token. -/
def step (env : String → Int) : ReaderState → RingToken → ReaderState
  | (s, outer), letter c => (s.times (env c.name), outer)
  | (s, outer), sign .add => (s.next 1, outer)
  | (s, outer), sign .subtract => (s.next (-1), outer)
  | (s, outer), sign .multiply => (s, outer)
  | (s, outer), opening => (.start, s :: outer)
  | (s, around :: outer), closing => (around.times s.value, outer)
  | (s, []), closing => (s, [])

/-- Reads several tokens. -/
def run (env : String → Int) (state : ReaderState) (ts : List RingToken) : ReaderState :=
  ts.foldl (step env) state

theorem run_cons (env : String → Int) (state : ReaderState) (t : RingToken)
    (ts : List RingToken) : run env state (t :: ts) = run env (step env state t) ts := rfl

theorem run_append (env : String → Int) (state : ReaderState) (ts us : List RingToken) :
    run env state (ts ++ us) = run env (run env state ts) us := List.foldl_append

/-- Tokens are read as a factor of a value. -/
def Multiplies (env : String → Int) (ts : List RingToken) (n : Int) : Prop :=
  ∀ s outer, run env (s, outer) ts = (s.times n, outer)

/-- Tokens that begin a product, the product not being subtracted, are read as a summand of a
value. -/
def Adds (env : String → Int) (ts : List RingToken) (n : Int) : Prop :=
  ∀ total outer, ∃ s, run env (⟨total, 1, 1⟩, outer) ts = (s, outer) ∧ s.value = total + n

section

variable {env : String → Int} {ts us : List RingToken} {m n : Int}

theorem Multiplies.adds (h : Multiplies env ts n) : Adds env ts n := by
  intro total outer
  refine ⟨_, h ⟨total, 1, 1⟩ outer, ?_⟩
  rw [RunningSum.value_times_of_fresh, Int.one_mul]

/-- A sum in parentheses is a factor. -/
theorem Adds.enclose (h : Adds env ts n) : Multiplies env (enclose true ts) n := by
  intro s outer
  obtain ⟨inner, hinner, hvalue⟩ := h 0 (s :: outer)
  have hopened : step env (s, outer) opening = (⟨0, 1, 1⟩, s :: outer) := rfl
  rw [RingToken.enclose, if_pos rfl, run_cons, hopened, run_append, hinner]
  show (s.times inner.value, outer) = _
  rw [hvalue, Int.zero_add]

theorem Multiplies.multiply (hts : Multiplies env ts m) (hus : Multiplies env us n) :
    Multiplies env (ts ++ sign .multiply :: us) (m * n) := by
  intro s outer
  rw [run_append, hts, run_cons]
  show run env (s.times m, outer) us = _
  rw [hus, RunningSum.times_times]

theorem Adds.add (hts : Adds env ts m) (hus : Adds env us n) :
    Adds env (ts ++ sign .add :: us) (m + n) := by
  intro total outer
  obtain ⟨s, hs, hvalue⟩ := hts total outer
  obtain ⟨s', hs', hvalue'⟩ := hus s.value outer
  refine ⟨s', ?_, by rw [hvalue', hvalue, Int.add_assoc]⟩
  rw [run_append, hs, run_cons]
  exact hs'

theorem Adds.subtract (hts : Adds env ts m) (hus : Multiplies env us n) :
    Adds env (ts ++ sign .subtract :: us) (m - n) := by
  intro total outer
  obtain ⟨s, hs, hvalue⟩ := hts total outer
  refine ⟨(s.next (-1)).times n, ?_, ?_⟩
  · rw [run_append, hs, run_cons]
    exact hus (s.next (-1)) outer
  · rw [RunningSum.next, RunningSum.value_times_of_fresh, hvalue]
    omega

end

end RingToken

open RingToken (Adds Multiplies run)

/-- The tokens of a term are read as its value if no sum is the right factor of a product. -/
theorem RingTerm.reads_tokens (env : String → Int) (t : RingTerm) (h : t.isGrouped = true) :
    Adds env t.tokens (t.value env)
      ∧ (t.isSum = false → Multiplies env t.tokens (t.value env)) := by
  induction t with
  | letter c =>
      have hletter : Multiplies env (letter c).tokens ((letter c).value env) := fun _ _ => rfl
      exact ⟨hletter.adds, fun _ => hletter⟩
  | apply op left right ihl ihr =>
      rw [isGrouped, Bool.and_eq_true, Bool.and_eq_true] at h
      obtain ⟨⟨hright, hl⟩, hr⟩ := h
      obtain ⟨haddl, hmull⟩ := ihl hl
      obtain ⟨haddr, hmulr⟩ := ihr hr
      cases op with
      | add =>
          -- a right summand may be a sum, since nothing is subtracted from it
          exact ⟨haddl.add haddr, nofun⟩
      | subtract =>
          refine ⟨haddl.subtract ?_, nofun⟩
          cases hsum : right.isSum with
          | false => exact hmulr hsum
          | true => exact haddr.enclose
      | multiply =>
          have hleft : Multiplies env (enclose left.isSum left.tokens) (left.value env) := by
            cases hsum : left.isSum with
            | false => exact hmull hsum
            | true => exact haddl.enclose
          -- the right factor is read factor by factor, so it must not be a sum
          have hproduct := hleft.multiply (hmulr (by simpa using hright))
          exact ⟨hproduct.adds, fun _ => hproduct⟩

/-- Terms with the same TeX have the same value whatever the symbols stand for, if no sum and no
difference is the right factor of a product in them. -/
theorem RingTerm.value_eq_of_tex_eq {a b : RingTerm} (ha : a.isGrouped = true)
    (hb : b.isGrouped = true) (h : a.node.tex = b.node.tex) (env : String → Int) :
    a.value env = b.value env := by
  have htokens : a.tokens = b.tokens := by
    apply RingToken.spellAll_inj
    rw [← toList_tex, ← toList_tex, h]
  obtain ⟨s, hs, hvalue⟩ := (reads_tokens env a ha).1 0 []
  obtain ⟨s', hs', hvalue'⟩ := (reads_tokens env b hb).1 0 []
  rw [htokens, hs'] at hs
  cases hs
  omega

namespace RingTerm

/-- The letter `a`. -/
def a : RingTerm := .letter ⟨'a', by decide⟩

/-- The letter `b`. -/
def b : RingTerm := .letter ⟨'b', by decide⟩

/-- The letter `c`. -/
def c : RingTerm := .letter ⟨'c', by decide⟩

/-- Both groupings of a sum of three letters have the same TeX. -/
theorem value_eq_of_tex_eq_sum :
    (apply .add a (apply .add b c)).value (fun _ => 7)
      = (apply .add (apply .add a b) c).value fun _ => 7 := by
  refine value_eq_of_tex_eq (by decide) (by decide) ?_ _
  rw [← String.toList_inj, toList_tex, toList_tex]
  rfl

/-- A sum that is the right factor of a product is written without parentheses, so that the TeX of
`a * (b + c)` is that of `a * b + c`. -/
theorem tex_eq_and_value_ne :
    (apply .multiply a (apply .add b c)).node.tex = (apply .add (apply .multiply a b) c).node.tex
      ∧ (apply .multiply a (apply .add b c)).value (fun _ => 2)
        ≠ (apply .add (apply .multiply a b) c).value fun _ => 2 := by
  refine ⟨?_, by decide⟩
  rw [← String.toList_inj, toList_tex, toList_tex]
  rfl

end RingTerm

end Formula
