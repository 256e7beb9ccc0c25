import Mathlib.Data.List.Infix
import Mathlib.Data.List.TakeWhile
import RubyCheck.Number.Bounded
import RubyCheck.Token.Scanner.Step

/-!
# How long lexemes are

Reading a token moves the cursor, because every lexeme has at least one character; a stretch of
content may be empty, but it ends where the literal says it does.  These are the facts about
measured lexemes that the moves of the scanner rest on.

A symbol and a percent literal without code are one token each, and what they hold stands behind a
colon or between delimiters (`SymbolText`, `PercentText`).  Such a token is whole if its delimiters are
all there (`Token.Whole`); one that is not is measured up to the end of the text, and reported.
-/

namespace RubyCheck.Scanner

open Text

/-! ### Numbers and names -/

/-- A lexeme that begins with a character of its class is not empty. -/
private lemma takeWhile_length_pos {p : Char → Bool} {c : Char} {cs : List Char} (hc : p c = true) :
    0 < ((c :: cs).takeWhile p).length := by
  rw [List.takeWhile_cons_of_pos hc]
  exact Nat.succ_pos _

lemma Numeral.ofPrefixed?_length_pos {cs : List Char} {n : Numeral} (h : ofPrefixed? cs = some n) :
    0 < n.length := by
  cases cs with
  | nil => simp [ofPrefixed?] at h
  | cons c cs =>
    rw [ofPrefixed?] at h
    split at h
    · rw [← Option.some.inj h]
      exact Nat.lt_of_lt_of_le Nat.two_pos (Nat.le_add_right _ _)
    · split at h
      · dsimp only at h
        split at h <;> rw [← Option.some.inj h] <;> exact Nat.add_pos_left Nat.one_pos _
      · simp at h

lemma Numeral.ofPrefixed?_kind {cs : List Char} {n : Numeral} (h : ofPrefixed? cs = some n) :
    n.kind = .integer ∨ n.kind = .legacyOctal := by
  cases cs with
  | nil => simp [ofPrefixed?] at h
  | cons c cs =>
    rw [ofPrefixed?] at h
    split at h
    · rw [← Option.some.inj h]
      exact .inl rfl
    · split at h
      · dsimp only at h
        split at h <;> rw [← Option.some.inj h] <;> simp
      · simp at h

lemma Numeral.ofDecimal_length_pos {c : Char} {cs : List Char} (hc : isAsciiDigit c = true) :
    0 < (ofDecimal (c :: cs)).length := by
  have hwhole : 0 < ((c :: cs).takeWhile isDigitOrBar).length :=
    takeWhile_length_pos (by simp [isDigitOrBar, hc])
  simp only [ofDecimal]
  omega

/-- A number has at least one character. -/
theorem Numeral.ofText_length_pos {c : Char} {cs : List Char} (hc : isAsciiDigit c = true) :
    0 < (ofText (c :: cs)).length := by
  have hdecimal := @Numeral.ofDecimal_length_pos c cs hc
  simp only [ofText]
  refine Nat.add_pos_left ?_ _
  cases hp : (if (c :: cs).head? == some '0' then ofPrefixed? (c :: cs).tail else none) with
  | none => simpa using hdecimal
  | some n =>
    rw [Option.getD_some]
    split at hp
    · exact Numeral.ofPrefixed?_length_pos hp
    · simp at hp

/-- A number is an integer, a legacy octal number or a float. -/
theorem Numeral.ofText_kind (cs : List Char) :
    (ofText cs).kind = .integer ∨ (ofText cs).kind = .legacyOctal ∨ (ofText cs).kind = .float := by
  have hdecimal : (ofDecimal cs).kind = .integer ∨ (ofDecimal cs).kind = .float := by
    simp only [ofDecimal]
    split <;> simp
  simp only [ofText]
  cases hp : (if cs.head? == some '0' then ofPrefixed? cs.tail else none) with
  | none => rw [Option.getD_none]; tauto
  | some n =>
    rw [Option.getD_some]
    split at hp
    · have := Numeral.ofPrefixed?_kind hp
      tauto
    · simp at hp

/-- No digit of any base is a sign, and neither is the letter that announces the base. -/
lemma Numeral.isSign_of_baseDigit? {letter : Char} {isDigit : Char → Bool}
    (h : baseDigit? letter = some isDigit) :
    Number.isSign letter = false ∧ ∀ c, isDigit c = true → Number.isSign c = false := by
  unfold baseDigit? at h
  split at h
  case h_9 => cases h
  all_goals
    obtain rfl := Option.some.inj h
    refine ⟨by decide, fun c hc => ?_⟩
    rw [Bool.eq_false_iff]
    intro hsign
    obtain rfl | rfl : c = '+' ∨ c = '-' := by simpa [Number.isSign] using hsign
    all_goals exact absurd hc (by decide)

lemma Numeral.isSign_of_isDigitOrBar {c : Char} (hc : isDigitOrBar c = true) :
    Number.isSign c = false :=
  (@isSign_of_baseDigit? 'o' _ rfl).2 c hc

/-- As many characters as a run has are that run. -/
lemma take_takeWhile_length (p : Char → Bool) (cs : List Char) :
    cs.take (cs.takeWhile p).length = cs.takeWhile p :=
  (List.prefix_iff_eq_take.mp (List.takeWhile_prefix p)).symm

/-- A zero with a base letter and digits behind it, or with digits alone, has no sign. -/
lemma Numeral.isSign_of_mem_ofPrefixed? {cs : List Char} {n : Numeral} (h : ofPrefixed? cs = some n) :
    ∀ c ∈ ('0' :: cs).take n.length, Number.isSign c = false := by
  have hzero : Number.isSign '0' = false := by decide
  cases cs with
  | nil => simp [ofPrefixed?] at h
  | cons letter cs =>
    rw [ofPrefixed?] at h
    split at h
    · rename_i isDigit hbase
      obtain rfl := Option.some.inj h
      obtain ⟨hletter, hdigit⟩ := isSign_of_baseDigit? hbase
      rw [Nat.add_comm, List.take_succ_cons, List.take_succ_cons, take_takeWhile_length]
      simp only [List.forall_mem_cons]
      exact ⟨hzero, hletter, fun c hc => hdigit c (List.mem_takeWhile_imp hc)⟩
    · split at h
      · have hlength : n.length = ((letter :: cs).takeWhile isDigitOrBar).length + 1 := by
          dsimp only at h
          split at h <;> rw [← Option.some.inj h, Nat.add_comm]
        rw [hlength, List.take_succ_cons, take_takeWhile_length]
        refine List.forall_mem_cons.mpr ⟨hzero, fun c hc => ?_⟩
        exact isSign_of_isDigitOrBar (List.mem_takeWhile_imp hc)
      · simp at h

/-- A decimal number that is no float is made of digits. -/
lemma Numeral.isSign_of_mem_ofDecimal {cs : List Char}
    (h : (ofDecimal cs).kind = .integer ∨ (ofDecimal cs).kind = .legacyOctal) :
    ∀ c ∈ cs.take (ofDecimal cs).length, Number.isSign c = false := by
  have hwhole : (ofDecimal cs).length = (cs.takeWhile isDigitOrBar).length := by
    simp only [ofDecimal] at h ⊢
    split at h
    · rename_i hnone
      simp only [Bool.and_eq_true, beq_iff_eq] at hnone
      rw [hnone.2, hnone.1]
      rfl
    · simp at h
  rw [hwhole, take_takeWhile_length]
  exact fun c hc => isSign_of_isDigitOrBar (List.mem_takeWhile_imp hc)

/-- What stands behind a rational or imaginary number is a letter. -/
lemma Numeral.isSign_of_mem_suffix (cs : List Char) :
    ∀ c ∈ cs.take (suffixLength cs), Number.isSign c = false := by
  unfold suffixLength
  split
  · rename_i letter _
    split
    · rename_i hletter
      simp only [Bool.and_eq_true, Bool.or_eq_true, beq_iff_eq] at hletter
      rw [List.take_succ_cons, List.take_zero]
      obtain rfl | rfl := hletter.1
      · simp [Number.isSign]
      · simp [Number.isSign]
    · simp
  · simp

/-- An integer has no sign. -/
theorem Numeral.isSign_of_mem_ofText (cs : List Char)
    (h : (ofText cs).kind = .integer ∨ (ofText cs).kind = .legacyOctal) :
    ∀ c ∈ cs.take (ofText cs).length, Number.isSign c = false := by
  simp only [ofText] at h ⊢
  rw [List.take_add]
  refine List.forall_mem_append.mpr ⟨?_, isSign_of_mem_suffix _⟩
  cases hp : (if cs.head? == some '0' then ofPrefixed? cs.tail else none) with
  | none =>
    rw [hp, Option.getD_none] at h
    exact isSign_of_mem_ofDecimal h
  | some n =>
    rw [Option.getD_some]
    split at hp
    · rename_i hhead
      obtain ⟨tail, rfl⟩ := List.head?_eq_some_iff.mp (beq_iff_eq.mp hhead)
      exact isSign_of_mem_ofPrefixed? hp
    · cases hp

lemma continuesName_of_startsName {c : Char} (hc : startsName c = true) :
    continuesName c = true := by
  simp only [startsName, continuesName, Bool.or_eq_true] at hc ⊢
  tauto

/-- A name has at least one character. -/
theorem nameLength_pos {c : Char} {cs : List Char} (hc : startsName c = true) :
    0 < nameLength (c :: cs) := by
  have hn : 0 < ((c :: cs).takeWhile continuesName).length :=
    takeWhile_length_pos (continuesName_of_startsName hc)
  unfold nameLength
  dsimp only
  split <;> omega

lemma characterLength?_pos {cs : List Char} {n : ℕ} (h : characterLength? cs = some n) : 0 < n := by
  unfold characterLength? at h
  split at h
  · split at h
    · simp at h
    · split at h
      · rw [← Option.some.inj h]
        exact Nat.add_pos_left Nat.two_pos _
      · split at h
        · simp at h
        · rw [← Option.some.inj h]
          exact Nat.two_pos
  · simp at h

/-! ### Literals without code -/

/-- A percent literal without code has at least the characters of its opener. -/
lemma le_verbatimEnd (bracket : Option Char) (close : Char) (nesting n : ℕ) (cs : List Char) :
    n ≤ (verbatimEnd bracket close nesting n cs).1 := by
  fun_induction verbatimEnd bracket close nesting n cs <;> omega

/-! ### Operators -/

lemma length_pos_of_mem_operators : ∀ op ∈ operators, 0 < op.1.length := by
  decide

lemma length_pos_of_mem_definedOperators : ∀ op ∈ definedOperators, 0 < op.length := by
  decide

/-! ### Content -/

/-- The text at which a stretch of content ends, for each of the reasons to end it. -/
inductive StopsAt (l : OpenLiteral) : ContentEnd → List Char → Prop
  | endOfText : StopsAt l .endOfText []
  | interpolation (rest : List Char) (interpolates : l.interpolates = true) :
      StopsAt l .interpolation ('#' :: '\x7b' :: rest)
  | lineBreak (rest : List Char) (single : l.singleLine = true) :
      StopsAt l .lineBreak ('\n' :: rest)
  | delimiter (c : Char) (rest : List Char) (close : l.close = some c) (outermost : l.nesting = 0) :
      StopsAt l .delimiter (c :: rest)

/-- Reading content changes of a literal only whether it has spanned a line break and how many inner
brackets are open. -/
def OpenLiteral.SameOpening (l l' : OpenLiteral) : Prop :=
  l' = { l with hasNewline := l'.hasNewline, nesting := l'.nesting }

lemma OpenLiteral.SameOpening.opener {l l' : OpenLiteral} (h : l.SameOpening l') :
    l'.opener = l.opener := by
  rw [h]

lemma OpenLiteral.SameOpening.close {l l' : OpenLiteral} (h : l.SameOpening l') :
    l'.close = l.close := by
  rw [h]

lemma OpenLiteral.SameOpening.singleLine {l l' : OpenLiteral} (h : l.SameOpening l') :
    l'.singleLine = l.singleLine := by
  rw [h]

/-- A stretch of content counted on from `n` ends somewhere in the text, at what its reason asks
for. -/
theorem contentEnd_spec {l l' : OpenLiteral} {n m : ℕ} {cs : List Char} {stop : ContentEnd}
    (h : contentEnd l n cs = (stop, m, l')) :
    ∃ k, m = n + k ∧ k ≤ cs.length ∧ StopsAt l' stop (cs.drop k) ∧ l.SameOpening l' := by
  fun_induction contentEnd l n cs with
  | case1 l n =>
    obtain ⟨rfl, rfl, rfl⟩ := by simpa using h
    exact ⟨0, by simp, by simp, .endOfText, rfl⟩
  | case2 l n =>
    obtain ⟨rfl, rfl, rfl⟩ := by simpa using h
    exact ⟨1, by simp, by simp, .endOfText, rfl⟩
  | case3 l n cs ih =>
    obtain ⟨k, rfl, hk, hstop, hl⟩ := ih h
    exact ⟨k + 2, by omega, by simpa using hk, by simpa using hstop, hl⟩
  | case4 l n d cs _ ih =>
    obtain ⟨k, rfl, hk, hstop, hl⟩ := ih h
    exact ⟨k + 2, by omega, by simpa using hk, by simpa using hstop, hl⟩
  | case5 l n cs hsingle =>
    obtain ⟨rfl, rfl, rfl⟩ := by simpa using h
    exact ⟨0, by simp, by simp, .lineBreak cs hsingle, rfl⟩
  | case6 l n cs _ ih =>
    obtain ⟨k, rfl, hk, hstop, hl⟩ := ih h
    exact ⟨k + 1, by omega, by simpa using hk, by simpa using hstop, hl⟩
  | case7 l n c cs _ _ _ _ hcode =>
    obtain ⟨rfl, rfl, rfl⟩ := by simpa using h
    simp only [Bool.and_eq_true, beq_iff_eq] at hcode
    obtain ⟨⟨hl, rfl⟩, hbrace⟩ := hcode
    obtain ⟨cs, rfl⟩ : ∃ ds, cs = '\x7b' :: ds := by
      cases cs with
      | nil => simp at hbrace
      | cons d ds => exact ⟨ds, by simpa using hbrace⟩
    exact ⟨0, by simp, by simp, .interpolation cs hl, rfl⟩
  | case8 l n c cs _ _ _ _ _ hclose hnesting =>
    obtain ⟨rfl, rfl, rfl⟩ := by simpa using h
    have hstop : StopsAt l .delimiter (c :: cs) :=
      .delimiter c cs (by simpa using hclose) (by simpa using hnesting)
    exact ⟨0, by simp, by simp, hstop, rfl⟩
  | case9 l n c cs _ _ _ _ _ _ _ ih =>
    obtain ⟨k, rfl, hk, hstop, hl⟩ := ih h
    exact ⟨k + 1, by omega, by simpa using hk, by simpa using hstop, hl⟩
  | case10 l n c cs _ _ _ _ _ _ _ ih =>
    obtain ⟨k, rfl, hk, hstop, hl⟩ := ih h
    exact ⟨k + 1, by omega, by simpa using hk, by simpa using hstop, hl⟩
  | case11 l n c cs _ _ _ _ _ _ _ ih =>
    obtain ⟨k, rfl, hk, hstop, hl⟩ := ih h
    exact ⟨k + 1, by omega, by simpa using hk, by simpa using hstop, hl⟩

/-! ### Documents and bodies -/

/-- An embedded document counted on from `n` that is not ended reaches up to the end of the text. -/
theorem documentEnd_false {n m : ℕ} {cs : List Char} (h : documentEnd n cs = (m, false)) :
    m = n + cs.length := by
  fun_induction documentEnd n cs with
  | case1 n => simpa [eq_comm] using h
  | case2 n cs _ => simp at h
  | case3 n cs _ ih => rw [ih h, List.length_cons]; omega
  | case4 n c cs _ ih => rw [ih h, List.length_cons]; omega

/-- A document that is ended has characters. -/
lemma documentEnd_pos {n m : ℕ} {cs : List Char} (h : documentEnd n cs = (m, true)) : n < m := by
  fun_induction documentEnd n cs with
  | case1 n => simp at h
  | case2 n cs _ =>
    obtain ⟨rfl, -⟩ := Prod.mk.inj h
    omega
  | case3 n cs _ ih => exact (Nat.lt_succ_self n).trans (ih h)
  | case4 n c cs _ ih => exact (Nat.lt_succ_self n).trans (ih h)

lemma ne_nil_of_atWord {word cs : List Char} (hword : word ≠ []) (h : atWord word cs = true) :
    cs ≠ [] := by
  rintro rfl
  cases word with
  | nil => exact hword rfl
  | cons c word => simp [atWord] at h

/-- The opener of a heredoc begins with two angle brackets. -/
theorem rest_of_heredocOpener? {s : Scanner} {o : HeredocOpener} (h : s.heredocOpener? = some o) :
    (∃ after, s.cursor.rest = '<' :: '<' :: after) ∧ 1 < o.length := by
  unfold heredocOpener? at h
  split at h
  · rename_i after hrest
    refine ⟨⟨after, hrest⟩, ?_⟩
    dsimp only at h
    generalize hmarks :
      (if (after.head?.any fun c => c == '~' || c == '-') = true then 3 else 2) = marks at h
    have hpos : 1 < marks := by
      rw [← hmarks]
      split <;> omega
    split at h
    · simp at h
    · split at h
      · obtain ⟨terminator, -, rfl⟩ := Option.map_eq_some_iff.mp h
        dsimp only
        omega
      · split at h
        · simp at h
        · split at h
          · simp at h
          · obtain rfl := Option.some.inj h
            dsimp only
            omega
  · simp at h

/-- The body of a heredoc is a part of its range, and its range a part of the text. -/
theorem HeredocOpener.range_le (o : HeredocOpener) {start n : ℕ} (line cs : List Char)
    (hstart : start ≤ n) :
    (o.range start n line cs).body ≤ (o.range start n line cs).whole ∧
      (o.range start n line cs).whole ≤ n + cs.length := by
  fun_induction HeredocOpener.range o start n line cs with
  | case1 start n line _ => exact ⟨hstart, le_rfl⟩
  | case2 start n line _ => exact ⟨le_rfl, le_rfl⟩
  | case3 start n line cs _ => exact ⟨by dsimp only; omega, by simp⟩
  | case4 start n line cs _ ih =>
    obtain ⟨hbody, hwhole⟩ := ih le_rfl
    exact ⟨hbody, by rw [List.length_cons]; omega⟩
  | case5 start n line c cs _ ih =>
    obtain ⟨hbody, hwhole⟩ := ih (Nat.le_succ_of_le hstart)
    exact ⟨hbody, by rw [List.length_cons]; omega⟩

end RubyCheck.Scanner

/-! ### Delimiters -/

namespace RubyCheck

/-- A percent literal with some letter is written as its content between delimiters. -/
def PercentText (letter : Char) (text content : List Char) : Prop :=
  ∃ d, text = '%' :: letter :: d :: (content ++ [Scanner.closingOf d])

lemma PercentText.unique {letter : Char} {text content content' : List Char}
    (h : PercentText letter text content) (h' : PercentText letter text content') :
    content = content' := by
  obtain ⟨d, rfl⟩ := h
  obtain ⟨d', heq⟩ := h'
  simp only [List.cons.injEq, true_and] at heq
  obtain ⟨rfl, heq⟩ := heq
  exact List.append_cancel_right heq

/-- A symbol is written as its name behind a colon, with quotes around it or without, or as a
percent literal. -/
inductive SymbolText : List Char → List Char → Prop
  | bare {name : List Char} : (∀ c ∈ name.head?, c ≠ '"' ∧ c ≠ '\'') → SymbolText (':' :: name) name
  | quoted {quote : Char} {name : List Char} : quote = '"' ∨ quote = '\'' →
      SymbolText (':' :: quote :: (name ++ [quote])) name
  | percent {text name : List Char} : PercentText 's' text name → SymbolText text name

/-- A symbol or a percent literal is not cut off. -/
def Token.Whole (t : Token) : Prop :=
  (t.kind = .symbol → ∃ name, SymbolText t.text.toList name) ∧
    (t.kind = .percentLiteral → ∃ letter content, PercentText letter t.text.toList content)

lemma Token.whole_of_ne {t : Token} (h : t.kind ≠ .symbol ∧ t.kind ≠ .percentLiteral) : t.Whole :=
  ⟨fun hkind => absurd hkind h.1, fun hkind => absurd hkind h.2⟩

namespace Scanner

variable {cs : List Char} {n m : ℕ} {quote close : Char}

/-- A quoted text reaches over its closing quote. -/
lemma quotedEnd_true (h : quotedEnd quote n cs = (m, true)) :
    ∃ body rest, cs = body ++ quote :: rest ∧ m = n + body.length + 1 := by
  fun_induction quotedEnd quote n cs with
  | case1 n | case2 n => simp at h
  | case3 n c cs ih =>
    obtain ⟨body, rest, rfl, rfl⟩ := ih h
    exact ⟨'\\' :: c :: body, rest, rfl, by simp only [List.length_cons]; omega⟩
  | case4 n cs =>
    obtain rfl : n + 1 = m := by simpa using h
    exact ⟨[], cs, rfl, rfl⟩
  | case5 n c cs _ _ _ ih =>
    obtain ⟨body, rest, rfl, rfl⟩ := ih h
    exact ⟨c :: body, rest, rfl, by simp only [List.length_cons]; omega⟩

/-- A percent literal without code reaches over its closing delimiter. -/
lemma verbatimEnd_true {bracket : Option Char} {nesting : ℕ}
    (h : verbatimEnd bracket close nesting n cs = (m, true)) :
    ∃ body rest, cs = body ++ close :: rest ∧ m = n + body.length + 1 := by
  fun_induction verbatimEnd bracket close nesting n cs with
  | case1 n | case2 n => simp at h
  | case3 nesting n c cs ih =>
    obtain ⟨body, rest, rfl, rfl⟩ := ih h
    exact ⟨'\\' :: c :: body, rest, rfl, by simp only [List.length_cons]; omega⟩
  | case4 n cs =>
    obtain rfl : n + 1 = m := by simpa using h
    exact ⟨[], cs, rfl, rfl⟩
  | case5 | case6 | case7 =>
    rename_i ih
    obtain ⟨body, rest, rfl, rfl⟩ := ih h
    exact ⟨_ :: body, rest, rfl, by simp only [List.length_cons]; omega⟩

/-- The letter of a percent literal stands in front of its delimiter. -/
lemma percentOpener?_letter {letter d : Char} (h : percentOpener? cs = some (some letter, d)) :
    ∃ rest, cs = letter :: d :: rest := by
  cases cs with
  | nil => simp [percentOpener?] at h
  | cons c cs =>
    rw [percentOpener?] at h
    split at h
    · obtain ⟨opener, hhead, hopener⟩ := Option.bind_eq_some_iff.mp h
      obtain ⟨d', hd, rfl⟩ := Option.map_eq_some_iff.mp hhead
      obtain ⟨rest, rfl⟩ := List.head?_eq_some_iff.mp hd
      obtain ⟨rfl, rfl⟩ : c = letter ∧ d' = d := by
        dsimp only at hopener
        split at hopener
        · cases hopener
        · split at hopener
          · cases hopener
          · simpa using hopener
      exact ⟨rest, rfl⟩
    · simp at h

/-- What a colon begins is a symbol. -/
lemma symbolText_of_symbolLength? (h : symbolLength? cs = some (n, true)) :
    ∃ name, SymbolText (':' :: cs.take n) name := by
  cases cs with
  | nil => simp [symbolLength?] at h
  | cons c cs =>
    have hbare (hc : c ≠ '"' ∧ c ≠ '\'') :
        SymbolText (':' :: (c :: cs).take n) ((c :: cs).take n) :=
      .bare fun d hd => by
        cases n with
        | zero => simp at hd
        | succ n =>
          obtain rfl : c = d := by simpa using hd
          exact hc
    rw [symbolLength?] at h
    split at h
    · rename_i hname
      refine ⟨_, hbare ⟨?_, ?_⟩⟩
      all_goals
        rintro rfl
        exact absurd hname (by decide)
    split at h
    · rename_i hsigil
      simp only [Bool.or_eq_true, decide_eq_true_eq] at hsigil
      refine ⟨_, hbare ?_⟩
      rcases hsigil with rfl | rfl <;> decide
    split at h
    · rename_i hquote
      simp only [Bool.or_eq_true, decide_eq_true_eq] at hquote
      obtain ⟨body, rest, rfl, rfl⟩ := quotedEnd_true (Option.some.inj h)
      refine ⟨body, ?_⟩
      have htake : (c :: (body ++ c :: rest)).take (1 + body.length + 1) =
          c :: (body ++ [c]) := by
        rw [Nat.add_comm 1, List.take_succ_cons, List.append_cons,
          List.take_left' (by simp)]
      rw [htake]
      exact .quoted hquote
    · rename_i hquote
      simp only [Bool.or_eq_true, decide_eq_true_eq] at hquote
      exact ⟨_, hbare (not_or.mp hquote)⟩

end Scanner

end RubyCheck
