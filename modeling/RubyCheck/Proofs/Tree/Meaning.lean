import Mathlib.Data.Finset.Dedup
import RubyCheck.Proofs.Number.Integer
import RubyCheck.Proofs.Scanner.Lexeme
import RubyCheck.Proofs.Tree.BoundedLiteral
import RubyCheck.Proofs.Tree.Spelled

/-!
# What literals denote, by their tokens

The value of a literal is computed from the text of its node, from which the grammar has dropped
quotes, delimiters and options.  Here what a literal denotes is told by the tokens that it is written
with instead (`Node.Denotes`): the number with its digits, a text with what is made of backslashes in
it, a regular expression with its options.  Of that the value keeps all but the options and how a text
is taken (`Meaning.value`); but a `%q` literal has its delimiters in its value too, and a symbol
between delimiters of several bytes has no name there (`Node.Valued`).
-/

namespace RubyCheck

/-- How the content of a text is taken. -/
inductive Manner where
  /-- As it is. -/
  | verbatim
  /-- With escapes, which backslashes begin. -/
  | escaped
  /-- As a command to be run. -/
  | command
  /-- As a list of words. -/
  | words
  /-- As a list of symbols. -/
  | symbols
deriving DecidableEq

/-- A content without backslashes has no escapes. -/
def Manner.on (m : Manner) (content : String) : Manner :=
  if m = .escaped ∧ '\\' ∉ content.toList then .verbatim else m

/-- What a literal denotes. -/
inductive Meaning where
  | integer (value : ℤ)
  /-- A float, by its bits. -/
  | float (bits : ℕ)
  | text (content : String) (manner : Manner)
  | symbol (name : String) (manner : Manner)
  | regex (body : String) (options : Finset Char)
  | nil_
  | true_
  | false_
deriving DecidableEq

namespace Meaning

/-- What the value of a literal keeps of what it denotes. -/
def value : Meaning → LiteralValue
  | integer value => .integer value
  | float bits => .float bits
  | text content _ => .string content
  | symbol name _ => .symbol name
  | regex body _ => .regex body
  | nil_ => .nil_
  | true_ => .true_
  | false_ => .false_

/-- Two literals denote the same, but for the options of regular expressions and how a text is
taken. -/
inductive Alike : Meaning → Meaning → Prop
  | same (d : Meaning) : Alike d d
  | text (content : String) (m m' : Manner) : Alike (.text content m) (.text content m')
  | symbol (name : String) (m m' : Manner) : Alike (.symbol name m) (.symbol name m')
  | regex (body : String) (options options' : Finset Char) :
      Alike (.regex body options) (.regex body options')

variable {d d' : Meaning}

/-- What is alike is all that the value keeps. -/
lemma value_eq_iff : d.value = d'.value ↔ d.Alike d' := by
  constructor
  · intro h
    cases d <;> cases d' <;> cases h
    case text.text.refl => exact .text _ _ _
    case symbol.symbol.refl => exact .symbol _ _ _
    case regex.regex.refl => exact .regex _ _ _
    all_goals exact .same _
  · rintro (_ | _ | _ | _) <;> rfl

end Meaning

/-! ### Tokens -/

/-- How the content of a text is taken, by what opens it. -/
def Quotation.manner (q : Quotation) : Manner :=
  match q.opener.text.toList with
  | ['\''] => .verbatim
  | ['\x60'] | '%' :: 'x' :: _ => .command
  | '%' :: 'W' :: _ => .words
  | '%' :: 'I' :: _ => .symbols
  | '<' :: '<' :: name =>
    if name.getLast? = some '\'' then .verbatim
    else if name.getLast? = some '\x60' then .command
    else .escaped
  | _ => .escaped

/-- The options of a regular expression are the letters behind its closing delimiter. -/
def Quotation.options (q : Quotation) : Finset Char := q.closer.text.toList.tail.toFinset

/-- The name of a symbol has escapes if it stands between double quotes. -/
def Token.manner (t : Token) : Manner :=
  if t.text.toList.take 2 = [':', '"'] then .escaped else .verbatim

/-- A symbol whose delimiters take several bytes each. -/
def Token.Wide (t : Token) : Prop :=
  ∃ d cs, t.text.toList = '%' :: 's' :: d :: (cs ++ [Scanner.closingOf d]) ∧ d.utf8Size ≠ 1

namespace Node

/-- A node of some kind is one of some tokens. -/
structure IsToken (ts : List Token) (k : NodeKind) (n : Node) (t : Token) : Prop where
  kind : n.kind = k
  mem : t ∈ ts
  span : n.span = t.span

/-- A node of some kind is a run of some tokens. -/
structure IsQuotation (ts : List Token) (k : NodeKind) (n : Node) (q : Quotation) : Prop where
  kind : n.kind = k
  tokens : q.tokens <:+: ts
  span : n.span = q.span

/-- What a literal denotes that is written with some tokens. -/
inductive Denotes (ts : List Token) : Node → Meaning → Prop
  | integer {n : Node} {t : Token} {v : ℕ} : n.IsToken ts .integer t →
      t.kind = .integer ∨ t.kind = .legacyOctal → Number.Denotes t.text.toList v →
        Denotes ts n (.integer v)
  | float {n : Node} {t : Token} {bits : ℕ} : n.IsToken ts .float t → t.kind = .float →
      Number.floatBits? t.text.toList = some bits → Denotes ts n (.float bits)
  | character {n : Node} {t : Token} {cs : List Char} : n.IsToken ts .character t →
      t.kind = .character → t.text.toList = '?' :: cs →
        Denotes ts n (.text (.ofList cs) (Manner.escaped.on (.ofList cs)))
  | percent {n : Node} {t : Token} {cs : List Char} : n.IsToken ts .string t →
      t.kind = .percentLiteral → PercentText 'q' t.text.toList cs →
        Denotes ts n (.text (.ofList cs) .verbatim)
  | string {n : Node} {q : Quotation} : n.IsQuotation ts .string q → q.Begins .stringBegin →
      Denotes ts n (.text q.body (q.manner.on q.body))
  | regex {n : Node} {q : Quotation} : n.IsQuotation ts .regex q → q.Begins .regexBegin →
      Denotes ts n (.regex q.body q.options)
  | symbol {n : Node} {t : Token} {cs : List Char} : n.IsToken ts .symbol t → t.kind = .symbol →
      SymbolText t.text.toList cs → Denotes ts n (.symbol (.ofList cs) (t.manner.on (.ofList cs)))
  /-- The colon of a label does not belong to its name. -/
  | label {n : Node} {t : Token} {cs colons : List Char} : n.IsToken ts .symbol t →
      t.kind = .label → t.text.toList = cs ++ colons → (∀ c ∈ colons, c = ':') →
        cs.getLast? ≠ some ':' → Denotes ts n (.symbol (.ofList cs) .verbatim)
  | method {n : Node} {t : Token} : n.IsToken ts .symbol t → Grammar.namesMethod t.kind = true →
      Denotes ts n (.symbol t.text .verbatim)
  | nil_ {n : Node} : n.kind = .nil_ → Denotes ts n .nil_
  | true_ {n : Node} : n.kind = .true_ → Denotes ts n .true_
  | false_ {n : Node} : n.kind = .false_ → Denotes ts n .false_
  | negative {n c : Node} {v : ℤ} : n.kind = .unary → n.text = some "-" → c ∈ n.children.head? →
      Denotes ts c (.integer v) → Denotes ts n (.integer (-v))
  | negativeFloat {n c : Node} {bits : ℕ} : n.kind = .unary → n.text = some "-" →
      c ∈ n.children.head? → Denotes ts c (.float bits) →
        Denotes ts n (.float (Number.negateBits bits))

/-- The options of a regular expression are those of the token that it ends with. -/
lemma Denotes.exists_body {ts : List Token} {n : Node} {d : Meaning} {options : Finset Char}
    (h : n.Denotes ts d) (hkind : n.kind = .regex)
    (hends : ∀ t ∈ ts, t.kind = .stringEnd → t.span.stop.later n.span.start = n.span.stop →
      t.text.toList.tail.toFinset = options) : ∃ body, d = .regex body options := by
  cases h with
  | @regex _ q hq hbegins =>
    have hmem : q.closer ∈ ts := hq.tokens.subset (by simp [Quotation.tokens])
    refine ⟨q.body, congrArg _ (hends q.closer hmem hbegins.closer ?_)⟩
    rw [hq.span]
    rfl
  | integer hn | float hn | character hn | percent hn | symbol hn | label hn | method hn
  | string hn => cases hn.kind.symm.trans hkind
  | nil_ hn | true_ hn | false_ hn | negative hn | negativeFloat hn => cases hn.symm.trans hkind

/-- The value of a literal: what is kept of what it denotes, or all the text of a `%q` literal, or
no name at all for a symbol between wide delimiters. -/
inductive Valued (ts : List Token) (n : Node) : LiteralValue → Prop
  | kept {d : Meaning} : n.Denotes ts d → Valued ts n d.value
  | percent {t : Token} {cs : List Char} : n.IsToken ts .string t → t.kind = .percentLiteral →
      PercentText 'q' t.text.toList cs → Valued ts n (.string t.text)
  | wide {t : Token} : n.IsToken ts .symbol t → t.kind = .symbol → t.Wide → Valued ts n (.symbol "")

end Node

/-! ### Names of symbols -/

lemma unquoted_of_bare {name : List Char} (h : ∀ c ∈ name.head?, c ≠ '"' ∧ c ≠ '\'') :
    Grammar.unquoted name = name := by
  cases name with
  | nil => rfl
  | cons c name =>
    have hquote : Grammar.unquoted.isQuote c = false := by
      simpa [Grammar.unquoted.isQuote] using h c rfl
    simp [Grammar.unquoted, hquote]

lemma unquoted_of_quoted {quote : Char} {name : List Char} (h : quote = '"' ∨ quote = '\'') :
    Grammar.unquoted (quote :: (name ++ [quote])) = name := by
  have hquote : Grammar.unquoted.isQuote quote = true := by
    rcases h with rfl | rfl <;> rfl
  simp [Grammar.unquoted, hquote]

/-- What stands between delimiters of one byte each. -/
lemma slice?_between {d : Char} (hd : d.utf8Size = 1) (cs : List Char) :
    Source.slice? (d :: (cs ++ [Scanner.closingOf d])) 1
      (Source.byteLength (d :: (cs ++ [Scanner.closingOf d])) - 1) = some cs := by
  have hclose : (Scanner.closingOf d).utf8Size = 1 := by
    unfold Scanner.closingOf
    split
    all_goals first | rfl | exact hd
  have hslice := Source.slice?_append [d] cs [Scanner.closingOf d]
  have hfront : Source.byteLength [d] = 1 := by
    rw [Source.byteLength_cons, hd]
    rfl
  have hbehind : Source.byteLength (d :: (cs ++ [Scanner.closingOf d])) - 1 =
      Source.byteLength ([d] ++ cs) := by
    simp [hd, hclose]
    omega
  rw [hbehind]
  rw [hfront] at hslice
  exact hslice

/-- The name of a symbol, unless its delimiters are wide. -/
lemma symbolName_of_symbolText {t : Token} {cs : List Char} (h : SymbolText t.text.toList cs) :
    Grammar.symbolName t.text = .ofList cs ∨ t.Wide ∧ Grammar.symbolName t.text = "" := by
  unfold Grammar.symbolName Token.Wide
  generalize t.text.toList = text at h
  cases h with
  | bare hbare => exact .inl (congrArg String.ofList (unquoted_of_bare hbare))
  | quoted hquote => exact .inl (congrArg String.ofList (unquoted_of_quoted hquote))
  | percent hpercent =>
    obtain ⟨d, rfl⟩ := hpercent
    by_cases hd : d.utf8Size = 1
    · exact .inl (by simp only [slice?_between hd, Option.getD_some])
    · refine .inr ⟨⟨d, cs, rfl, hd⟩, ?_⟩
      have hnone : Source.dropBytes? (d :: (cs ++ [Scanner.closingOf d])) 1 = none := by
        have hpos := Char.utf8Size_pos d
        rw [Source.dropBytes?, if_neg (by omega)]
      have hslice (stop : ℕ) :
          Source.slice? (d :: (cs ++ [Scanner.closingOf d])) 1 stop = none := by
        unfold Source.slice?
        rw [hnone]
        split <;> rfl
      simp only [hslice, Option.getD_none]

/-! ### Values -/

namespace Node

variable {ts : List Token} {t : Token} {n : Node} {span : Span} {text : String}
  {children : List Node} {v : LiteralValue}

/-- A leaf that a token is written as. -/
lemma isToken_of_eq {k : NodeKind} {name : String} (ht : t ∈ ts)
    (h : (⟨k, span, some text, children⟩ : Node) = .leaf k t.span name) :
    IsToken ts k ⟨k, span, some text, children⟩ t ∧ text = name := by
  cases h
  exact ⟨⟨rfl, ht, rfl⟩, rfl⟩

/-- A literal that a run of tokens is written as. -/
lemma isQuotation_of_eq {k : NodeKind} {q : Quotation} (hq : q.tokens <:+: ts)
    (h : (⟨k, span, some text, children⟩ : Node) = ⟨k, q.span, some q.body, []⟩) :
    IsQuotation ts k ⟨k, span, some text, children⟩ q ∧ text = q.body := by
  cases h
  exact ⟨⟨rfl, hq, rfl⟩, rfl⟩

/-- The name of a label ends in front of its colon. -/
lemma denotes_label (hn : n.IsToken ts .symbol t) (hkind : t.kind = .label) :
    n.Denotes ts (.symbol (Grammar.labelName t.text) .verbatim) := by
  have hsplit : t.text.toList = (t.text.toList.reverse.dropWhile (· == ':')).reverse ++
      (t.text.toList.reverse.takeWhile (· == ':')).reverse := by
    rw [← List.reverse_append, List.takeWhile_append_dropWhile, List.reverse_reverse]
  refine .label hn hkind hsplit (fun c hc => ?_) fun hlast => ?_
  · simpa using List.mem_takeWhile_imp (List.mem_reverse.mp hc)
  · rw [List.getLast?_reverse] at hlast
    have hnot := List.head?_dropWhile_not (· == ':') t.text.toList.reverse
    rw [hlast] at hnot
    cases hnot

/-- A symbol has the name that it denotes, unless its delimiters are wide. -/
lemma valued_symbol (hwhole : ∀ t ∈ ts, t.Whole) {name : String} (hn : n.IsToken ts .symbol t)
    (hname : SymbolName t name) : n.Valued ts (.symbol name) := by
  cases hname with
  | symbol hkind =>
    obtain ⟨cs, hcs⟩ := (hwhole t hn.mem).1 hkind
    rcases symbolName_of_symbolText hcs with hname | ⟨hwide, hname⟩
    · rw [hname]
      exact .kept (.symbol hn hkind hcs)
    · rw [hname]
      exact .wide hn hkind hwide
  | label hkind => exact .kept (denotes_label hn hkind)
  | method hkind => exact .kept (.method hn hkind)

/-- A string has the content that it denotes as its value, unless it is a `%q` literal. -/
lemma valued_string (hwhole : ∀ t ∈ ts, t.Whole)
    (h : Node.Spelled ts ⟨.string, span, some text, children⟩) :
    Valued ts ⟨.string, span, some text, children⟩ (.string text) := by
  rcases h with ⟨t, ht, hkind, hstarts, heq⟩ | h
  · obtain ⟨hn, rfl⟩ := isToken_of_eq ht heq
    obtain ⟨letter, cs, d, hcs⟩ := (hwhole t ht).2 hkind
    obtain ⟨rest, hrest⟩ := String.startsWith_string_iff.mp hstarts
    have hletter : letter = 'q' := by
      rw [hcs] at hrest
      exact (List.cons.inj (List.cons.inj hrest).2).1.symm
    exact .percent hn hkind ⟨d, hletter ▸ hcs⟩
  · obtain ⟨q, hq, hbegins, heq⟩ := h text rfl
    obtain ⟨hn, rfl⟩ := isQuotation_of_eq hq heq
    exact .kept (.string hn hbegins)

/-- A number denotes its value. -/
lemma Valued.denotes_integer {w : ℤ} (h : n.Valued ts (.integer w)) :
    n.Denotes ts (.integer w) := by
  generalize hvalue : LiteralValue.integer w = v at h
  cases h with
  | @kept d hd =>
    cases d <;> cases hvalue
    exact hd
  | percent | wide => cases hvalue

lemma Valued.denotes_float {bits : ℕ} (h : n.Valued ts (.float bits)) :
    n.Denotes ts (.float bits) := by
  generalize hvalue : LiteralValue.float bits = v at h
  cases h with
  | @kept d hd =>
    cases d <;> cases hvalue
    exact hd
  | percent | wide => cases hvalue

/-- The value of a literal is told by the tokens that it is written with, if these are whole. -/
theorem valued_of_literal? (hwhole : ∀ t ∈ ts, t.Whole) (h : n.Everywhere (Node.Spelled ts))
    (hv : n.literal? = some v) : n.Valued ts v := by
  fun_induction Node.literal? n generalizing v with
  | case1 span text children =>
    obtain ⟨t, ht, hkind, heq⟩ := h.root
    obtain ⟨hn, rfl⟩ := isToken_of_eq ht heq
    rw [LiteralValue.ofInteger?_eq] at hv
    obtain ⟨_, hvalue, rfl⟩ := Option.map_eq_some_iff.mp hv
    obtain ⟨w, hw, rfl⟩ := Option.map_eq_some_iff.mp hvalue
    exact .kept (.integer hn hkind (Number.integer?_eq_some_iff.mp hw).1)
  | case2 span text children =>
    obtain ⟨t, ht, hkind, heq⟩ := h.root
    obtain ⟨hn, rfl⟩ := isToken_of_eq ht heq
    obtain ⟨bits, hbits, rfl⟩ := Option.map_eq_some_iff.mp hv
    exact .kept (.float hn hkind hbits)
  | case3 span text children =>
    obtain rfl := Option.some.inj hv
    exact valued_string hwhole h.root
  | case4 span text children =>
    obtain ⟨t, ht, hkind, heq⟩ := h.root
    obtain ⟨hn, rfl⟩ := isToken_of_eq ht heq
    unfold LiteralValue.ofCharacter? at hv
    split at hv
    · rename_i cs hcs
      obtain rfl := Option.some.inj hv
      exact .kept (.character hn hkind hcs)
    · cases hv
  | case5 span text =>
    obtain ⟨t, ht, name, hname, heq⟩ := h.root
    obtain ⟨hn, rfl⟩ := isToken_of_eq ht heq
    obtain rfl := Option.some.inj hv
    exact valued_symbol hwhole hn hname
  | case6 span text children =>
    obtain ⟨q, hq, hbegins, heq⟩ := h.root text rfl
    obtain ⟨hn, rfl⟩ := isQuotation_of_eq hq heq
    obtain rfl := Option.some.inj hv
    exact .kept (.regex hn hbegins)
  | case7 span text children =>
    obtain rfl := Option.some.inj hv
    exact .kept (.nil_ rfl)
  | case8 span text children =>
    obtain rfl := Option.some.inj hv
    exact .kept (.true_ rfl)
  | case9 span text children =>
    obtain rfl := Option.some.inj hv
    exact .kept (.false_ rfl)
  | case10 span text operand rest hminus ih =>
    obtain ⟨w, hw, hneg⟩ := Option.bind_eq_some_iff.mp hv
    obtain rfl : text = "-" := by simpa using hminus
    have hoperand := ih (h.children operand List.mem_cons_self) hw
    cases w with
    | integer w =>
      obtain rfl := Option.some.inj hneg
      exact .kept (.negative rfl rfl rfl hoperand.denotes_integer)
    | float bits =>
      obtain rfl := Option.some.inj hneg
      exact .kept (.negativeFloat rfl rfl rfl hoperand.denotes_float)
    | _ => cases hneg
  | case11 | case12 => cases hv

end Node

end RubyCheck
