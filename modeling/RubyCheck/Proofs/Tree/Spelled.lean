import RubyCheck.Grammar.Definition
import RubyCheck.Proofs.Tree.Layout

/-!
# Literals and the tokens they are written with

A number, a character and a symbol is one token; a string or a regular expression without code is a
run of tokens, from an opener over its contents to a closer (`Quotation`).  The text of the node is
told by these tokens (`Node.Spelled`).  Lists of parameters are written as such too: all that stands
in them are parameters, alone or several in parentheses, and the variables of a block.
-/

namespace RubyCheck

/-- A literal with no code in it, token by token. -/
structure Quotation where
  opener : Token
  contents : List Token
  closer : Token

namespace Quotation

/-- The tokens of a literal, one behind another. -/
def tokens (q : Quotation) : List Token := q.opener :: (q.contents ++ [q.closer])

/-- What stands between the opener and the closer. -/
def body (q : Quotation) : String := String.join (q.contents.map (·.text))

/-- A closer that is not written may stand where the opener does. -/
def span (q : Quotation) : Span :=
  ⟨q.opener.span.start, q.closer.span.stop.later q.opener.span.start⟩

/-- The tokens are an opener of some kind, contents and a closer. -/
structure Begins (q : Quotation) (k : TokenKind) : Prop where
  opener : q.opener.kind = k
  contents : ∀ t ∈ q.contents, t.kind = .stringContent
  closer : q.closer.kind = .stringEnd

end Quotation

/-- Kinds of nodes that are written in one way only: literals, and lists of parameters. -/
def NodeKind.isSpelled : NodeKind → Bool
  | integer | float | character | symbol | string | regex | parameters | blockParameters => true
  | _ => false

namespace Node

mutual

/-- Whether a node binds names and does nothing else but for default values: it is a parameter, a
variable of a block, or several parameters in parentheses. -/
def binds : Node → Bool
  | ⟨kind, _, _, children⟩ =>
    kind == .parameter || kind == .blockLocal || kind == .multiTargets && allBind children

/-- The same for each of several nodes. -/
def allBind : List Node → Bool
  | [] => true
  | n :: ns => binds n && allBind ns

end

lemma allBind_eq (ns : List Node) : allBind ns = ns.all binds := by
  induction ns with
  | nil => rfl
  | cons n ns ih => rw [allBind, List.all_cons, ih]

lemma binds_eq (n : Node) : n.binds = (n.kind == .parameter || n.kind == .blockLocal ||
    n.kind == .multiTargets && n.children.all binds) := by
  rw [← allBind_eq]
  cases n
  rfl

/-- The name of a symbol that a token stands for: a symbol, a label, or the name of a method. -/
inductive SymbolName : Token → String → Prop
  | symbol {t : Token} : t.kind = .symbol → SymbolName t (Grammar.symbolName t.text)
  | label {t : Token} : t.kind = .label → SymbolName t (Grammar.labelName t.text)
  | method {t : Token} : Grammar.namesMethod t.kind = true → SymbolName t t.text

/-- If a node has a text, it is a run of some tokens, the first of them of a kind. -/
def Quoted (ts : List Token) (k : TokenKind) (n : Node) : Prop :=
  ∀ text, n.text = some text →
    ∃ q : Quotation, q.tokens <:+: ts ∧ q.Begins k ∧ n = ⟨n.kind, q.span, some q.body, []⟩

/-- A node is written with some of some tokens, as its kind has it. -/
def Spelled (ts : List Token) (n : Node) : Prop :=
  match n.kind with
  | .integer =>
    ∃ t ∈ ts, (t.kind = .integer ∨ t.kind = .legacyOctal) ∧ n = .leaf .integer t.span t.text
  | .float => ∃ t ∈ ts, t.kind = .float ∧ n = .leaf .float t.span t.text
  | .character => ∃ t ∈ ts, t.kind = .character ∧ n = .leaf .character t.span t.text
  | .symbol => ∃ t ∈ ts, ∃ name, SymbolName t name ∧ n = .leaf .symbol t.span name
  | .string =>
    (∃ t ∈ ts, t.kind = .percentLiteral ∧ t.text.startsWith "%q" = true ∧
      n = .leaf .string t.span t.text) ∨ n.Quoted ts .stringBegin
  | .regex => n.Quoted ts .regexBegin
  | .parameters | .blockParameters => ∀ c ∈ n.children, c.binds = true
  | _ => True

/-- Of most kinds nothing is said. -/
lemma spelled_of_not {ts : List Token} {n : Node} (h : n.kind.isSpelled = false) :
    n.Spelled ts := by
  unfold Spelled
  split
  case h_9 => trivial
  all_goals simp_all [NodeKind.isSpelled]

/-- If a node is an integer, it is written as some token of a number is. -/
def Integral (ts : List Token) (n : Node) : Prop :=
  n.kind = .integer →
    ∃ t ∈ ts, (t.kind = .integer ∨ t.kind = .legacyOctal) ∧ n.text = some t.text

lemma Spelled.integral {ts : List Token} {n : Node} (h : n.Spelled ts) : n.Integral ts := by
  intro hkind
  rw [Spelled, hkind] at h
  obtain ⟨t, ht, hnumber, rfl⟩ := h
  exact ⟨t, ht, hnumber, rfl⟩

end Node

end RubyCheck
