import RubyCheck.Proofs.Scanner.Guide

/-!
# The names of variables that tokens tell

Whether a slash behind a name divides depends on whether the name is that of a variable.  What the
tokens of a text say about that is computed here from the tokens alone, the newest first: a name is
known from where it is assigned on its line, or bound between the bars of a block.  Names met in the
body of a heredoc are known in that body only, so the memory in front of a heredoc is kept until its
end (`Recall`).  `Settled` says that no name that is known, and read as a variable, stands in front
of a regular expression that could have been a division.
-/

namespace RubyCheck

namespace Token

/-- The text behind a token. -/
def behind (source : List Char) (t : Token) : List Char :=
  (Source.dropBytes? source t.span.stop.byte).getD []

/-- Whether a token opens a heredoc. -/
def opensHeredoc (t : Token) : Bool := "<<".toList.isPrefixOf t.text.toList

/-- The line a token begins on. -/
def line (t : Token) : ℕ := t.span.start.line

/-- Whether the name of a method is expected behind some tokens, the newest first. -/
def methodAwaited : List Token → Bool
  | [] => false
  | t :: older => t.awaitsMethod (older.head?.map (·.kind))

/-- Whether block parameters are expected behind some tokens, the newest first. -/
def blockOpened (older : List Token) : Bool :=
  older.head?.any fun t => t.kind == .keyword .do_ || t.kind == .punct .lBrace

end Token

/-- What some tokens say about the names of variables. -/
structure Memory where
  /-- The names that are known. -/
  names : List String
  /-- Behind a `def` that has no name yet. -/
  naming : Bool
  /-- The line of the bar that opened block parameters, if names on it are still bound. -/
  bar : Option ℕ
  /-- The line of the first heredoc that was opened since the last statement ended. -/
  pending : Option ℕ
deriving DecidableEq, Inhabited, Repr

namespace Memory

variable (source : List Char)

/-- The memory of nothing but some names. -/
def ofNames (names : List String) : Memory := ⟨names, false, none, none⟩

/-- Whether a token is the name of a variable rather than of a method. -/
def readsVariable (m : Memory) (older : List Token) (t : Token) : Bool :=
  t.kind == .identifier && !m.naming && !Token.methodAwaited older

/-- Whether a token makes a name known: that of a variable that is assigned or bound here. -/
def binds (m : Memory) (older : List Token) (t : Token) : Bool :=
  m.readsVariable older t && (m.bar == some t.line || Scanner.assigns (t.behind source))

/-- Whether a bar opens block parameters, if no body of a heredoc opened on an earlier line is still
to come. -/
def opensParameters (m : Memory) (older : List Token) (t : Token) : Bool :=
  Token.blockOpened older && !m.naming && m.pending.all (· == t.line)

/-- The memory behind one more token of code. -/
def read (m : Memory) (older : List Token) (t : Token) : Memory where
  names := if m.binds source older t then t.text :: m.names else m.names
  naming := t.kind == .keyword .def_ || (m.naming && t.leavesUnnamed (t.behind source).head?)
  bar :=
    match t.kind with
    | .newline => none
    | .punct .pipe => if m.opensParameters older t then some t.line else none
    | _ => m.bar
  pending := if t.kind == .newline then none else m.pending

/-- The memory to come back to behind a heredoc. -/
def pastHeredoc (m : Memory) (t : Token) : Memory :=
  { m with bar := none, pending := some (m.pending.getD t.line) }

variable {source : List Char} {m : Memory} {older : List Token} {t : Token}

lemma readsVariable_iff : m.readsVariable older t = true ↔
    t.kind = .identifier ∧ m.naming = false ∧ Token.methodAwaited older = false := by
  simp [readsVariable, and_assoc]

lemma binds_iff : m.binds source older t = true ↔
    m.readsVariable older t = true ∧
      (m.bar = some t.line ∨ Scanner.assigns (t.behind source) = true) := by
  simp [binds]

lemma kind_of_binds (h : m.binds source older t = true) : t.kind = .identifier :=
  (readsVariable_iff.mp (binds_iff.mp h).1).1

lemma binds_eq_false (h : t.kind ≠ .identifier) : m.binds source older t = false := by
  rw [← Bool.not_eq_true]
  exact fun hbinds => h (kind_of_binds hbinds)

/-- Behind a line break that ends a statement only the names are known. -/
lemma read_newline (h : t.kind = .newline) : m.read source older t = .ofNames m.names := by
  rw [read, binds_eq_false (by simp [h]), h]
  simp [ofNames, Token.leavesUnnamed, h]

/-- A bar that opens block parameters is remembered. -/
lemma mem_bar_read {l : ℕ} (hl : l ∈ (m.read source older t).bar) :
    l ∈ m.bar ∧ t.kind ≠ .punct .pipe ∨
      l = t.line ∧ t.kind = .punct .pipe ∧ m.opensParameters older t = true := by
  by_cases hpipe : t.kind = .punct .pipe
  · simp only [read, hpipe] at hl
    split at hl
    · rename_i hopens
      exact .inr ⟨(Option.some.inj hl).symm, hpipe, hopens⟩
    · simp at hl
  · refine .inl ⟨?_, hpipe⟩
    simp only [read] at hl
    split at hl <;> simp_all

/-- A token that only parts the code inside a literal from its content says nothing. -/
lemma read_of_parts
    (h : t.kind = .stringContent ∨ t.kind = .interpolationBegin ∨ t.kind = .interpolationEnd) :
    m.read source older t = m := by
  have hbinds : m.binds source older t = false :=
    binds_eq_false (by rcases h with h | h | h <;> simp [h])
  have hdef : (t.kind == .keyword .def_) = false := by
    rcases h with h | h | h <;> rw [h] <;> rfl
  rw [read, hbinds, hdef]
  rcases h with h | h | h <;> simp [h, Token.leavesUnnamed, TokenKind.isOperatorMethod]

end Memory

/-- What some tokens say about the names of variables, and what was said in front of the literals that
are open. -/
structure Recall where
  now : Memory
  /-- For every open literal the memory to come back to at its end, if it is a heredoc. -/
  around : List (Option Memory)
deriving DecidableEq, Inhabited, Repr

namespace Recall

variable (source : List Char)

/-- What is said behind one more token. -/
def read (r : Recall) (older : List Token) (t : Token) : Recall :=
  match t.kind with
  | .stringBegin | .regexBegin =>
    if t.opensHeredoc then ⟨.ofNames r.now.names, some (r.now.pastHeredoc t) :: r.around⟩
    else ⟨{ r.now with bar := none }, none :: r.around⟩
  | .stringEnd => ⟨(r.around.head?.getD none).getD r.now, r.around.tail⟩
  | _ => { r with now := r.now.read source older t }

/-- What some tokens say, the newest first. -/
def ofTokens : List Token → Recall
  | [] => ⟨.ofNames [], []⟩
  | t :: older => (ofTokens older).read source older t

/-- Whether a token behind some others, the newest first, is the name of a variable and known. -/
def knows (older : List Token) (t : Token) : Bool :=
  (ofTokens source older).now.readsVariable older t &&
    (ofTokens source (t :: older)).now.names.contains t.text

/-- No variable that is known stands right in front of a regular expression that could have been a
division. -/
def Settled : List Token → Prop
  | [] => True
  | t :: older =>
    (t.kind = .regexBegin → t.ambiguous = true → older.head?.all fun u =>
      !knows source older.tail u) ∧ Settled older

variable {source : List Char} {older : List Token} {t : Token}

@[simp] lemma ofTokens_nil : ofTokens source [] = ⟨.ofNames [], []⟩ := rfl

lemma ofTokens_cons :
    ofTokens source (t :: older) = (ofTokens source older).read source older t := rfl

/-- A token that neither begins nor ends a literal leaves what is said in front of open ones. -/
lemma ofTokens_code (hbegin : t.kind ≠ .stringBegin) (hregex : t.kind ≠ .regexBegin)
    (hend : t.kind ≠ .stringEnd) :
    ofTokens source (t :: older) = { ofTokens source older with
      now := (ofTokens source older).now.read source older t } := by
  rw [ofTokens_cons, read]
  split <;> simp_all

lemma ofTokens_newline (h : t.kind = .newline) :
    ofTokens source (t :: older) = { ofTokens source older with
      now := .ofNames (ofTokens source older).now.names } := by
  rw [ofTokens_code, Memory.read_newline h] <;> simp [h]

/-- A token that only parts the code inside a literal from its content says nothing. -/
lemma ofTokens_parts
    (h : t.kind = .stringContent ∨ t.kind = .interpolationBegin ∨ t.kind = .interpolationEnd) :
    ofTokens source (t :: older) = ofTokens source older := by
  rw [ofTokens_code, Memory.read_of_parts h] <;> rcases h with h | h | h <;> simp [h]

/-- A literal opens. -/
lemma ofTokens_begin (hkind : t.kind = .stringBegin ∨ t.kind = .regexBegin) :
    ofTokens source (t :: older) =
      if t.opensHeredoc then
        ⟨.ofNames (ofTokens source older).now.names,
          some ((ofTokens source older).now.pastHeredoc t) :: (ofTokens source older).around⟩
      else ⟨{ (ofTokens source older).now with bar := none },
        none :: (ofTokens source older).around⟩ := by
  rw [ofTokens_cons, read]
  rcases hkind with h | h <;> rw [h]

/-- A literal ends. -/
lemma ofTokens_end (hkind : t.kind = .stringEnd) :
    ofTokens source (t :: older) =
      ⟨((ofTokens source older).around.head?.getD none).getD (ofTokens source older).now,
        (ofTokens source older).around.tail⟩ := by
  rw [ofTokens_cons, read, hkind]

lemma Settled.of_append {newer : List Token} (h : Settled source (newer ++ older)) :
    Settled source older := by
  induction newer with
  | nil => exact h
  | cons t newer ih => exact ih h.2

lemma Settled.cons (h : Settled source older) (hkind : t.kind ≠ .regexBegin) :
    Settled source (t :: older) :=
  ⟨fun hregex => absurd hregex hkind, h⟩

lemma knows_iff : knows source older t = true ↔
    (ofTokens source older).now.readsVariable older t = true ∧
      t.text ∈ (ofTokens source (t :: older)).now.names := by
  simp [knows]

end Recall

end RubyCheck
