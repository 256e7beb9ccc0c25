import RubyCheck.Proofs.Grammar.Fails

/-!
# Operations as trees

An operation is made of integers, parentheses around one statement, prefix operators, powers and the
binary operators of nine levels.  It is written as the kinds and texts of its tokens, without any
parentheses but its own (`Operation.lexemes`), and a node shows it if it has its shape
(`Operation.Shows`).  What is written groups as the operation does if it is canonical.
-/

namespace RubyCheck

/-- The kind of a token and its text. -/
def Token.lexeme (t : Token) : TokenKind × String := (t.kind, t.text)

/-- An integer as written. -/
structure Numeral where
  kind : TokenKind
  text : String
  isInteger : kind.isInteger = true

/-- A prefix operator that stands in the tree with its text. -/
inductive Sign where
  | minus
  | plus
  | tilde
deriving DecidableEq

/-- The mark that a sign is. -/
def Sign.mark : Sign → Punct
  | minus => .minus
  | plus => .plus
  | tilde => .tilde

/-- A binary operator with its level. -/
structure BinaryOperator where
  mark : Punct
  level : Grammar.Level
  ofPunct : Grammar.Level.ofPunct? mark = some level

namespace BinaryOperator

/-- The kind of the node that a binary operator makes of its operands. -/
def nodeKind (operator : BinaryOperator) : NodeKind :=
  match operator.mark with
  | .ampAmp => .and_
  | .pipePipe => .or_
  | _ => .binary

/-- The text of that node. -/
def nodeText (operator : BinaryOperator) : Option String :=
  match operator.mark with
  | .ampAmp | .pipePipe => none
  | mark => some mark.text

lemma mark_ne_comma (operator : BinaryOperator) : operator.mark ≠ .comma := by
  intro hcomma
  have hlevel := operator.ofPunct
  rw [hcomma] at hlevel
  cases hlevel

end BinaryOperator

/-- An operation. -/
inductive Operation where
  | integer (numeral : Numeral)
  /-- One statement between parentheses. -/
  | paren (inner : Operation)
  | not (operand : Operation)
  | signed (sign : Sign) (operand : Operation)
  | power (base exponent : Operation)
  | binary (operator : BinaryOperator) (left right : Operation)

namespace Operation

/-- The token of a mark. -/
def markLexeme (mark : Punct) : TokenKind × String := (.punct mark, mark.text)

/-- What an operation is written as. -/
def lexemes : Operation → List (TokenKind × String)
  | integer numeral => [(numeral.kind, numeral.text)]
  | paren inner => markLexeme .lParen :: (inner.lexemes ++ [markLexeme .rParen])
  | not operand => markLexeme .bang :: operand.lexemes
  | signed sign operand => markLexeme sign.mark :: operand.lexemes
  | power base exponent => base.lexemes ++ markLexeme .pow :: exponent.lexemes
  | binary operator left right => left.lexemes ++ markLexeme operator.mark :: right.lexemes

/-- The level of the binary operator at the top, if there is one. -/
def level? : Operation → Option Grammar.Level
  | binary operator _ _ => some operator.level
  | _ => none

/-- Whether nothing but a parenthesis stands around the operands inside an operation. -/
def isPrimary : Operation → Bool
  | integer _ | paren _ => true
  | _ => false

/-- An operation that needs no more parentheses than it has: no operand of a binary operator has a
looser one at its top, nor has the right operand one of the same level; what is written behind a
prefix operator, or as an exponent, is no binary operation; and the base of a power is neither that
nor anything else that is written with an operator of its own. -/
inductive Canonical : Operation → Prop
  | integer (numeral : Numeral) : Canonical (integer numeral)
  | paren {inner : Operation} : Canonical inner → Canonical (paren inner)
  | not {operand : Operation} : operand.level? = none → Canonical operand → Canonical (not operand)
  | signed (sign : Sign) {operand : Operation} :
      operand.level? = none → Canonical operand → Canonical (signed sign operand)
  | power {base exponent : Operation} :
      base.isPrimary = true → exponent.level? = none → Canonical base → Canonical exponent →
      Canonical (power base exponent)
  | binary (operator : BinaryOperator) {left right : Operation} :
      (∀ l ∈ left.level?, operator.level.rank ≤ l.rank) →
      (∀ l ∈ right.level?, operator.level.rank < l.rank) →
      Canonical left → Canonical right → Canonical (binary operator left right)

/-- A node that has the shape of an operation, wherever it stands in a text. -/
def Shows : Operation → Node → Prop
  | integer numeral, n => n.kind = .integer ∧ n.text = some numeral.text ∧ n.children = []
  | paren inner, n => n.kind = .paren ∧ n.text = none ∧
      ∃ list, n.children = [list] ∧ list.kind = .statements ∧ list.text = none ∧
        ∃ m, list.children = [m] ∧ inner.Shows m
  | not operand, n => n.kind = .not_ ∧ n.text = none ∧
      ∃ m, n.children = [m] ∧ operand.Shows m
  | signed sign operand, n => n.kind = .unary ∧ n.text = some sign.mark.text ∧
      ∃ m, n.children = [m] ∧ operand.Shows m
  | power base exponent, n => n.kind = .binary ∧ n.text = some Punct.pow.text ∧
      ∃ m m', n.children = [m, m'] ∧ base.Shows m ∧ exponent.Shows m'
  | binary operator left right, n => n.kind = operator.nodeKind ∧ n.text = operator.nodeText ∧
      ∃ m m', n.children = [m, m'] ∧ left.Shows m ∧ right.Shows m'

/-- How many constructs inside one another reading an operation takes, below the one that it stands
in.  A statement in parentheses takes two. -/
def depth : Operation → ℕ
  | integer _ => 0
  | paren inner => inner.depth + 2
  | not operand | signed _ operand => operand.depth + 1
  | power left right | binary _ left right => max left.depth (right.depth + 1)

/-- How many binary operators one behind another, each with everything before it to its left, stand
at the top of an operation. -/
def operators : Operation → ℕ
  | binary _ left _ => left.operators + 1
  | _ => 0

variable {o : Operation}

lemma operators_eq_zero (h : o.level? = none) : o.operators = 0 := by
  cases o with
  | binary operator left right => cases h
  | _ => rfl

lemma level?_of_isPrimary (h : o.isPrimary = true) : o.level? = none := by
  cases o with
  | binary operator left right => cases h
  | _ => rfl

lemma operators_lt (o : Operation) : o.operators < o.lexemes.length := by
  induction o with
  | integer numeral => exact Nat.zero_lt_one
  | paren inner ih => exact Nat.succ_pos _
  | not operand ih => exact Nat.succ_pos _
  | signed sign operand ih => exact Nat.succ_pos _
  | power base exponent ihBase ihExponent =>
    simp only [operators, lexemes, List.length_append, List.length_cons]
    omega
  | binary operator left right ihLeft ihRight =>
    simp only [operators, lexemes, List.length_append, List.length_cons]
    omega

lemma markLexeme_ne {mark : Punct} (h : mark ≠ .comma) : (markLexeme mark).1 ≠ .punct .comma :=
  fun hcomma => h (TokenKind.punct.inj hcomma)

/-- Nothing that an operation is written as is a comma. -/
lemma ne_comma_of_mem_lexemes (o : Operation) : ∀ l ∈ o.lexemes, l.1 ≠ .punct .comma := by
  induction o with
  | integer numeral =>
    refine List.forall_mem_singleton.mpr fun hcomma : numeral.kind = _ => ?_
    have hinteger := numeral.isInteger
    rw [hcomma] at hinteger
    cases hinteger
  | paren inner ih =>
    exact List.forall_mem_cons.mpr ⟨markLexeme_ne (by decide), List.forall_mem_append.mpr
      ⟨ih, List.forall_mem_singleton.mpr (markLexeme_ne (by decide))⟩⟩
  | not operand ih => exact List.forall_mem_cons.mpr ⟨markLexeme_ne (by decide), ih⟩
  | signed sign operand ih =>
    refine List.forall_mem_cons.mpr ⟨markLexeme_ne ?_, ih⟩
    cases sign <;> decide
  | power base exponent ihBase ihExponent =>
    exact List.forall_mem_append.mpr
      ⟨ihBase, List.forall_mem_cons.mpr ⟨markLexeme_ne (by decide), ihExponent⟩⟩
  | binary operator left right ihLeft ihRight =>
    exact List.forall_mem_append.mpr
      ⟨ihLeft, List.forall_mem_cons.mpr ⟨markLexeme_ne operator.mark_ne_comma, ihRight⟩⟩

/-- Whether an operation may begin with a token of a kind. -/
def begins : TokenKind → Bool
  | .punct .lParen | .punct .bang | .punct .minus | .punct .plus | .punct .tilde => true
  | k => k.isInteger

/-- Every operation is written with a first token, which tells it from other statements. -/
lemma exists_lexemes_eq (o : Operation) :
    ∃ first rest, o.lexemes = first :: rest ∧ begins first.1 = true := by
  induction o with
  | integer numeral =>
    refine ⟨_, _, rfl, ?_⟩
    obtain ⟨kind, text, hinteger⟩ := numeral
    change begins kind = true
    unfold begins
    split
    · rfl
    · rfl
    · rfl
    · rfl
    · rfl
    · exact hinteger
  | paren inner ih => exact ⟨_, _, rfl, rfl⟩
  | not operand ih => exact ⟨_, _, rfl, rfl⟩
  | signed sign operand ih =>
    refine ⟨_, _, rfl, ?_⟩
    cases sign with
    | minus => rfl
    | plus => rfl
    | tilde => rfl
  | power base exponent ihBase ihExponent =>
    obtain ⟨first, rest, hbase, hbegins⟩ := ihBase
    exact ⟨first, rest ++ markLexeme .pow :: exponent.lexemes, by rw [lexemes, hbase]; rfl, hbegins⟩
  | binary operator left right ihLeft ihRight =>
    obtain ⟨first, rest, hleft, hbegins⟩ := ihLeft
    exact ⟨first, rest ++ markLexeme operator.mark :: right.lexemes,
      by rw [lexemes, hleft]; rfl, hbegins⟩

end Operation

end RubyCheck
