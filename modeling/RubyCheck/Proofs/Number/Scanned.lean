import RubyCheck.Analysis.Token
import RubyCheck.Proofs.Number.Integer
import RubyCheck.Proofs.Scanner.Bare
import RubyCheck.Proofs.Scanner.Run
import RubyCheck.Token.Stream
import RubyCheck.Tree.LiteralValue

/-!
# Integers as they are scanned

The scanner measures an integer, and its value is computed from its text later: each tells the base
from the text on its own.  `Number.Written` says how an integer is written, underscores included, and
whatever is scanned as one without a fault is written in this way (`Scanner.Scans.plain`); so the value
is the number that its digits denote.

For an octal number behind a zero a warning proposes the same digits behind the letter for base eight.
What it proposes is scanned as one integer again and has the same value, but where only the suffix of a
zero is left it has no digits (`Scanner.Proposes`).
-/

namespace RubyCheck

open Text

namespace Number

variable {base n m : ℕ} {cs ds : List Char} {c : Char}

/-! ### Digits of a base -/

/-- A digit of a base, or the underscore between digits. -/
def isDigitIn (base : ℕ) (c : Char) : Bool := c == '_' || (digitValue? c).any (· < base)

/-- What holds of the code points between those of two characters holds of the characters between them. -/
lemma of_le_of_le {P : Char → Prop} {lo hi : Char}
    (h : ∀ n ≤ hi.toNat, lo.toNat ≤ n → P (Char.ofNat n)) (hlo : lo ≤ c) (hhi : c ≤ hi) : P c := by
  have hholds := h c.toNat (UInt32.le_iff_toNat_le.mp hhi) (UInt32.le_iff_toNat_le.mp hlo)
  rwa [Char.ofNat_toNat] at hholds

/-- What holds of all ten digits holds of every digit. -/
lemma of_isAsciiDigit {P : Char → Prop}
    (h : ∀ n ≤ ('9' : Char).toNat, ('0' : Char).toNat ≤ n → P (Char.ofNat n))
    (hc : isAsciiDigit c = true) : P c := by
  obtain ⟨hlo, hhi⟩ : '0' ≤ c ∧ c ≤ '9' := by simpa [isAsciiDigit] using hc
  exact of_le_of_le h hlo hhi

/-- A digit is a digit of base ten. -/
lemma isDigitIn_of_isAsciiDigit (hc : isAsciiDigit c = true) : isDigitIn 10 c = true :=
  of_isAsciiDigit (P := fun c => isDigitIn 10 c = true) (by decide) hc

/-- A decimal digit but the last two is octal. -/
lemma isDigitIn_octal (hc : isAsciiDigit c = true) (h8 : c ≠ '8') (h9 : c ≠ '9') :
    isDigitIn 8 c = true :=
  of_isAsciiDigit (P := fun c => c ≠ '8' → c ≠ '9' → isDigitIn 8 c = true) (by decide) hc h8 h9

/-- A digit or one of the first six letters is a digit of base sixteen. -/
lemma isDigitIn_of_isAsciiHexDigit (hc : isAsciiHexDigit c = true) : isDigitIn 16 c = true := by
  obtain (hc | ⟨hlo, hhi⟩) | ⟨hlo, hhi⟩ :
      (isAsciiDigit c = true ∨ 'a' ≤ c ∧ c ≤ 'f') ∨ 'A' ≤ c ∧ c ≤ 'F' := by
    simpa [isAsciiHexDigit] using hc
  · exact of_isAsciiDigit (P := fun c => isDigitIn 16 c = true) (by decide) hc
  · exact of_le_of_le (P := fun c => isDigitIn 16 c = true) (by decide) hlo hhi
  · exact of_le_of_le (P := fun c => isDigitIn 16 c = true) (by decide) hlo hhi

/-- An octal digit is a decimal one. -/
lemma isAsciiDigit_of_isDigitIn (hc : isDigitIn 8 c = true) (hbar : c ≠ '_') :
    isAsciiDigit c = true ∧ c ≠ '8' ∧ c ≠ '9' := by
  obtain ⟨d, hd, hlt⟩ : ∃ d, digitValue? c = some d ∧ d < 8 := by
    simpa [isDigitIn, hbar, Option.any_eq_true] using hc
  unfold digitValue? at hd
  split at hd
  · rename_i hdigit
    refine ⟨by simpa [isAsciiDigit] using hdigit, ?_, ?_⟩
    · rintro rfl
      obtain rfl := Option.some.inj hd
      exact absurd hlt (by decide)
    · rintro rfl
      obtain rfl := Option.some.inj hd
      exact absurd hlt (by decide)
  · split at hd
    · have := Option.some.inj hd
      omega
    · split at hd
      · have := Option.some.inj hd
        omega
      · simp at hd

/-- Digits have values. -/
lemma exists_values (h : ∀ c ∈ cs, ∃ d, digitValue? c = some d ∧ d < base) :
    ∃ vs : List ℕ, List.Forall₂ (fun c d => digitValue? c = some d ∧ d < base) cs vs := by
  induction cs with
  | nil => exact ⟨[], .nil⟩
  | cons c cs ih =>
    obtain ⟨⟨d, hd⟩, hcs⟩ := List.forall_mem_cons.mp h
    obtain ⟨vs, hvs⟩ := ih hcs
    exact ⟨d :: vs, .cons hd hvs⟩

/-- Digits of a base, and underscores, denote a number, unless all of them are underscores. -/
lemma exists_digitsDenote (h : ∀ c ∈ ds, isDigitIn base c = true) (hne : withoutUnderscores ds ≠ []) :
    ∃ n, DigitsDenote base (withoutUnderscores ds) n := by
  have hdigits : ∀ c ∈ withoutUnderscores ds, ∃ d, digitValue? c = some d ∧ d < base := by
    intro c hc
    obtain ⟨hmem, hbar⟩ := List.mem_filter.mp hc
    have hbar' : c ≠ '_' := by simpa using hbar
    simpa [isDigitIn, hbar', Option.any_eq_true] using h c hmem
  obtain ⟨vs, hvs⟩ := exists_values hdigits
  exact ⟨_, hne, vs, hvs, rfl⟩

/-! ### How integers are written -/

/-- How an integer is written, with its underscores: its base, and its digits in that base.  A base is
announced by a letter behind a zero; a zero with more digits or underscores behind it makes the
integer octal, and any other integer is decimal. -/
inductive Written : List Char → ℕ → List Char → Prop
  | announced {c : Char} {base : ℕ} {ds : List Char} :
      announcedBase? c = some base → Written ('0' :: c :: ds) base ds
  | octal {c : Char} {ds : List Char} :
      isAsciiDigit c = true ∨ c = '_' → Written ('0' :: c :: ds) 8 (c :: ds)
  | zero : Written ['0'] 10 ['0']
  | decimal {c : Char} {ds : List Char} :
      isAsciiDigit c = true → c ≠ '0' → Written (c :: ds) 10 (c :: ds)

/-- The digits of an integer are its end. -/
lemma Written.suffix (h : Written cs base ds) : ds <:+ cs := by
  cases h with
  | announced => exact (List.suffix_cons _ _).trans (List.suffix_cons _ _)
  | octal => exact List.suffix_cons _ _
  | zero => exact List.suffix_rfl
  | decimal => exact List.suffix_rfl

/-- The number that is written with digits, underscores ignored. -/
def WrittenNumber (cs : List Char) (n : ℕ) : Prop :=
  ∃ base ds, Written cs base ds ∧ DigitsDenote base (withoutUnderscores ds) n

/-- A digit of base eight announces no base. -/
lemma announcedBase?_of_isDigitIn (hc : isDigitIn 8 c = true) : announcedBase? c = none := by
  by_cases hbar : c = '_'
  · exact hbar ▸ rfl
  obtain ⟨hdigit, -⟩ := isAsciiDigit_of_isDigitIn hc hbar
  exact of_isAsciiDigit (P := fun c => announcedBase? c = none) (by decide) hdigit

/-- The digits of a number are digits of its base. -/
lemma DigitsDenote.isDigitIn (h : DigitsDenote base cs n) : ∀ c ∈ cs, isDigitIn base c = true := by
  obtain ⟨-, vs, hvs, -⟩ := h
  induction hvs with
  | nil => simp
  | cons hd _ ih =>
    refine List.forall_mem_cons.mpr ⟨?_, ih⟩
    simp [Number.isDigitIn, hd.1, hd.2]

/-- Only underscores are left out. -/
lemma withoutUnderscores_cons (hc : c ≠ '_') :
    withoutUnderscores (c :: cs) = c :: withoutUnderscores cs := by
  simp [withoutUnderscores, hc]

/-- What does not end in an underscore is not made of underscores alone. -/
lemma withoutUnderscores_ne_nil (hne : cs ≠ []) (hlast : cs.getLast? ≠ some '_') :
    withoutUnderscores cs ≠ [] := by
  rw [List.getLast?_eq_some_getLast hne, ne_eq, Option.some.injEq] at hlast
  exact List.ne_nil_of_mem (List.mem_filter.mpr ⟨List.getLast_mem hne, by simpa using hlast⟩)

/-- Octal digits behind a zero, without their underscores. -/
lemma based_octal (hne : ds ≠ []) (hds : ∀ c ∈ ds, announcedBase? c = none) :
    Based ('0' :: ds) 8 ds := by
  cases ds with
  | nil => exact absurd rfl hne
  | cons c ds => exact .octal (hds c List.mem_cons_self)

/-- The number that is written with digits is what the integer denotes. -/
theorem WrittenNumber.denotes (h : WrittenNumber cs n) : Denotes cs n := by
  obtain ⟨base, ds, hwritten, hdigits⟩ := h
  refine ⟨base, withoutUnderscores ds, ?_, hdigits⟩
  cases hwritten with
  | @announced c _ _ hbase =>
    have hc : c ≠ '_' := by
      rintro rfl
      cases hbase
    rw [withoutUnderscores_cons (by decide), withoutUnderscores_cons hc]
    exact .announced hbase
  | @octal c ds hc =>
    rw [withoutUnderscores_cons (by decide)]
    exact based_octal hdigits.1 fun d hd => announcedBase?_of_isDigitIn (hdigits.isDigitIn d hd)
  | zero => exact .zero
  | @decimal c ds hc hzero =>
    have hbar : c ≠ '_' := by
      rintro rfl
      exact absurd hc (by decide)
    rw [withoutUnderscores_cons hbar]
    exact .decimal (by simpa using hzero)

/-- What is computed for an integer that denotes a number. -/
lemma Denotes.integer?_eq (h : Denotes cs n) :
    integer? cs = if n < 2 ^ 127 then some n else none := by
  split
  · rename_i hlt
    exact integer?_eq_some_iff.mpr ⟨h, hlt⟩
  · rename_i hge
    refine Option.eq_none_iff_forall_ne_some.mpr fun m hm => ?_
    obtain ⟨hdenotes, hlt⟩ := integer?_eq_some_iff.mp hm
    exact hge (h.unique hdenotes ▸ hlt)

/-! ### Other spellings of octal numbers -/

/-- A zero, or the underscore between digits. -/
def isZeroOrBar (c : Char) : Bool := c == '0' || c == '_'

/-- Zeros in front of digits, and underscores, do not count. -/
lemma digitsFrom?_dropWhile (hbase : 0 < base) (ds : List Char) :
    digitsFrom? base 0 (withoutUnderscores (ds.dropWhile isZeroOrBar)) =
      digitsFrom? base 0 (withoutUnderscores ds) := by
  induction ds with
  | nil => rfl
  | cons c ds ih =>
    by_cases hzero : c = '0'
    · subst hzero
      rw [List.dropWhile_cons_of_pos rfl, ih, withoutUnderscores_cons (by decide), digitsFrom?]
      simp [show digitValue? '0' = some 0 from rfl, hbase]
    by_cases hbar : c = '_'
    · subst hbar
      rw [List.dropWhile_cons_of_pos rfl, ih]
      rfl
    · rw [List.dropWhile_cons_of_neg (by simp [isZeroOrBar, hzero, hbar])]

/-- Digits, if there are any, are read from the number zero on. -/
lemma digits?_eq (hne : cs ≠ []) : digits? base cs = digitsFrom? base 0 cs := by
  cases cs with
  | nil => exact absurd rfl hne
  | cons c cs => rfl

/-- What is computed for an integer is computed from its digits in its base. -/
lemma integer?_of_based (h : Based (withoutUnderscores cs) base ds) (hne : ds ≠ []) :
    integer? cs = (digitsFrom? base 0 ds).filter (· < Nat.pow 2 127) := by
  rw [integer?, based_iff.mp h]
  dsimp only
  rw [digits?_eq hne]

/-- The letter for base eight changes nothing, nor do zeros behind it. -/
lemma integer?_proposed {ds' : List Char} (hne : withoutUnderscores ds ≠ [])
    (hne' : withoutUnderscores ds' ≠ []) (hds : ∀ c ∈ ds, announcedBase? c = none)
    (heq : digitsFrom? 8 0 (withoutUnderscores ds') = digitsFrom? 8 0 (withoutUnderscores ds)) :
    integer? ('0' :: 'o' :: ds') = integer? ('0' :: ds) := by
  have hbased : Based (withoutUnderscores ('0' :: ds)) 8 (withoutUnderscores ds) := by
    rw [withoutUnderscores_cons (by decide)]
    exact based_octal hne fun c hc => hds c (List.mem_of_mem_filter hc)
  have hbased' : Based (withoutUnderscores ('0' :: 'o' :: ds')) 8 (withoutUnderscores ds') := by
    rw [withoutUnderscores_cons (by decide), withoutUnderscores_cons (by decide)]
    exact .announced rfl
  rw [integer?_of_based hbased hne, integer?_of_based hbased' hne', heq]

end Number

namespace Scanner

open Number

/-! ### Measured numbers -/

namespace Numeral

variable {cs ds core suffix : List Char} {c : Char}

/-- A digit or the underscore between digits. -/
lemma isDigitOrBar_iff : isDigitOrBar c = true ↔ isAsciiDigit c = true ∨ c = '_' := by
  simp [isDigitOrBar]

/-- Digits are octal if neither eight nor nine is among them. -/
lemma beyondOctal_eq_false_iff : beyondOctal ds = false ↔ ∀ d ∈ ds, d ≠ '8' ∧ d ≠ '9' := by
  simp [beyondOctal]

/-- The letter that announces a base, and the digits that are read behind it. -/
lemma announcedBase?_of_baseDigit? {isDigit : Char → Bool} (h : baseDigit? c = some isDigit) :
    ∃ base, announcedBase? c = some base ∧ ∀ d, isDigit d = true →
      ((c == 'o' || c == 'O') = true → d ≠ '8' ∧ d ≠ '9') → isDigitIn base d = true := by
  have hbar (base : ℕ) : isDigitIn base '_' = true := rfl
  unfold baseDigit? at h
  split at h
  case h_1 | h_2 =>
    obtain rfl := Option.some.inj h
    refine ⟨16, rfl, fun d hd _ => ?_⟩
    obtain hd | rfl : isAsciiHexDigit d = true ∨ d = '_' := by simpa using hd
    · exact isDigitIn_of_isAsciiHexDigit hd
    · exact hbar 16
  case h_3 | h_4 =>
    obtain rfl := Option.some.inj h
    refine ⟨2, rfl, fun d hd _ => ?_⟩
    obtain (rfl | rfl) | rfl : (d = '0' ∨ d = '1') ∨ d = '_' := by simpa using hd
    all_goals rfl
  case h_5 | h_6 =>
    obtain rfl := Option.some.inj h
    refine ⟨8, rfl, fun d hd hfit => ?_⟩
    obtain ⟨h8, h9⟩ := hfit rfl
    obtain hd | rfl := isDigitOrBar_iff.mp hd
    · exact isDigitIn_octal hd h8 h9
    · exact hbar 8
  case h_7 | h_8 =>
    obtain rfl := Option.some.inj h
    refine ⟨10, rfl, fun d hd _ => ?_⟩
    obtain hd | rfl := isDigitOrBar_iff.mp hd
    · exact isDigitIn_of_isAsciiDigit hd
    · exact hbar 10
  case h_9 => cases h

/-- A decimal number that is an integer is its digits. -/
lemma ofDecimal_length (h : (ofDecimal cs).kind ≠ .float) :
    (ofDecimal cs).length = (cs.takeWhile isDigitOrBar).length := by
  simp only [ofDecimal, Bool.and_eq_true, beq_iff_eq] at h ⊢
  split at h
  · omega
  · exact absurd rfl h

/-- How an integer without a suffix is written. -/
structure Plain (kind : TokenKind) (cs : List Char) (base : ℕ) (ds : List Char) : Prop where
  written : Written cs base ds
  digits_ne_nil : ds ≠ []
  digits : ∀ d ∈ ds, isDigitIn base d = true
  octal : kind = .legacyOctal → base = 8 ∧ cs = '0' :: ds

/-- An integer that begins with a zero and is no zero alone. -/
lemma plain_ofPrefixed? {n : Numeral} (h : ofPrefixed? cs = some n) (hwell : n.malformed = false) :
    ∃ base ds, Plain n.kind (('0' :: cs).take n.length) base ds := by
  cases cs with
  | nil => simp [ofPrefixed?] at h
  | cons c cs =>
    rw [ofPrefixed?] at h
    split at h
    · rename_i isDigit hbase
      obtain rfl := Option.some.inj h
      obtain ⟨hne, hfit⟩ : cs.takeWhile isDigit ≠ [] ∧
          ((c == 'o' || c == 'O') = true → beyondOctal (cs.takeWhile isDigit) = false) := by
        simpa using hwell
      obtain ⟨base, hannounced, hdigits⟩ := announcedBase?_of_baseDigit? hbase
      refine ⟨base, cs.takeWhile isDigit, ?_, hne, fun d hd => ?_, by simp⟩
      · rw [Nat.add_comm, List.take_succ_cons, List.take_succ_cons, take_takeWhile_length]
        exact .announced hannounced
      · exact hdigits d (List.mem_takeWhile_imp hd) fun ho =>
          beyondOctal_eq_false_iff.mp (hfit ho) d hd
    · split at h
      · rename_i hc
        dsimp only at h
        split at h
        · obtain rfl := Option.some.inj h
          simp at hwell
        · rename_i hfit
          obtain rfl := Option.some.inj h
          rw [Bool.not_eq_true, beyondOctal_eq_false_iff] at hfit
          have htake : ('0' :: c :: cs).take (1 + ((c :: cs).takeWhile isDigitOrBar).length) =
              '0' :: (c :: cs).takeWhile isDigitOrBar := by
            rw [Nat.add_comm, List.take_succ_cons, take_takeWhile_length]
          rw [htake]
          refine ⟨8, (c :: cs).takeWhile isDigitOrBar, ?_, ?_, fun d hd => ?_, fun _ => ⟨rfl, rfl⟩⟩
          · rw [List.takeWhile_cons_of_pos hc]
            exact .octal (isDigitOrBar_iff.mp hc)
          · simp [List.takeWhile_cons_of_pos hc]
          · rcases isDigitOrBar_iff.mp (List.mem_takeWhile_imp hd) with hdigit | rfl
            · exact isDigitIn_octal hdigit (hfit d hd).1 (hfit d hd).2
            · rfl
      · simp at h

/-- A zero that is followed by no digits is read alone. -/
lemma takeWhile_of_ofPrefixed? (h : ofPrefixed? cs = none) :
    ('0' :: cs).takeWhile isDigitOrBar = ['0'] := by
  rw [List.takeWhile_cons_of_pos (by decide)]
  cases cs with
  | nil => rfl
  | cons c cs =>
    rw [ofPrefixed?] at h
    split at h
    · simp at h
    · split at h
      · dsimp only at h
        split at h <;> simp at h
      · rename_i hc
        rw [List.takeWhile_cons_of_neg hc]

/-- An integer that is read as a decimal one. -/
lemma plain_ofDecimal (hkind : (ofDecimal cs).kind ≠ .float)
    (hwritten : Written (cs.takeWhile isDigitOrBar) 10 (cs.takeWhile isDigitOrBar)) :
    ∃ base ds, Plain (ofDecimal cs).kind (cs.take (ofDecimal cs).length) base ds := by
  have hne : cs.takeWhile isDigitOrBar ≠ [] := by
    intro hempty
    rw [hempty] at hwritten
    cases hwritten
  have hinteger : (ofDecimal cs).kind ≠ .legacyOctal := by
    simp only [ofDecimal]
    split <;> simp
  rw [ofDecimal_length hkind, take_takeWhile_length]
  refine ⟨10, _, hwritten, hne, fun d hd => ?_, fun h => absurd h hinteger⟩
  obtain hd | rfl := isDigitOrBar_iff.mp (List.mem_takeWhile_imp hd)
  · exact isDigitIn_of_isAsciiDigit hd
  · rfl

/-- An integer without a suffix, read at a digit. -/
lemma plain_bare (hc : isAsciiDigit c = true) (hkind : (bare (c :: cs)).kind ≠ .float)
    (hwell : (bare (c :: cs)).malformed = false) :
    ∃ base ds, Plain (bare (c :: cs)).kind ((c :: cs).take (bare (c :: cs)).length) base ds := by
  by_cases hzero : c = '0'
  · subst hzero
    cases hprefixed : ofPrefixed? cs with
    | some n =>
      have hbare : bare ('0' :: cs) = n := by simp [bare, hprefixed]
      rw [hbare] at hwell ⊢
      exact plain_ofPrefixed? hprefixed hwell
    | none =>
      have hbare : bare ('0' :: cs) = ofDecimal ('0' :: cs) := by simp [bare, hprefixed]
      rw [hbare] at hkind ⊢
      refine plain_ofDecimal hkind ?_
      rw [takeWhile_of_ofPrefixed? hprefixed]
      exact .zero
  · have hbare : bare (c :: cs) = ofDecimal (c :: cs) := by simp [bare, hzero]
    rw [hbare] at hkind ⊢
    refine plain_ofDecimal hkind ?_
    rw [List.takeWhile_cons_of_pos (isDigitOrBar_iff.mpr (.inl hc))]
    exact .decimal hc hzero

/-- The suffix of a number is no character or one of two letters. -/
def IsSuffix (cs : List Char) : Prop := cs = [] ∨ cs = ['r'] ∨ cs = ['i']

/-- The suffix that is measured is one. -/
lemma isSuffix_take (cs : List Char) : IsSuffix (cs.take (suffixLength cs)) := by
  unfold IsSuffix
  cases cs with
  | nil => simp
  | cons c cs =>
    rw [suffixLength]
    split
    · rename_i h
      obtain ⟨rfl | rfl, -⟩ : (c = 'r' ∨ c = 'i') ∧ _ := by simpa using h
      all_goals simp
    · simp

/-- No two underscores stand side by side in a part of a number in which none do. -/
lemma hasDoubleBar_of_suffix (h : ds <:+ cs) (hcs : hasDoubleBar cs = false) :
    hasDoubleBar ds = false := by
  obtain ⟨before, rfl⟩ := h
  induction before with
  | nil => exact hcs
  | cons c before ih =>
    refine ih ?_
    rw [List.cons_append, hasDoubleBar.eq_def] at hcs
    split at hcs
    · cases hcs
    · rename_i heq
      obtain ⟨-, rfl⟩ := List.cons.inj heq
      exact hcs
    · rename_i heq
      cases heq

/-- A number behind the letter for base eight, made of its digits and a suffix. -/
lemma ofText_announced (hcore : ∀ d ∈ core, isDigitIn 8 d = true)
    (hsuffix : IsSuffix suffix) :
    ofText ('0' :: 'o' :: (core ++ suffix)) = ⟨('0' :: 'o' :: (core ++ suffix)).length, .integer,
      core.isEmpty || hasDoubleBar ('0' :: 'o' :: (core ++ suffix)) ||
        ('0' :: 'o' :: (core ++ suffix)).getLast? == some '_'⟩ := by
  have hdigit : ∀ d ∈ core, isDigitOrBar d = true ∧ d ≠ '8' ∧ d ≠ '9' := fun d hd => by
    by_cases hbar : d = '_'
    · subst hbar
      decide
    · obtain ⟨hdigit, hfit⟩ := isAsciiDigit_of_isDigitIn (hcore d hd) hbar
      exact ⟨isDigitOrBar_iff.mpr (.inl hdigit), hfit⟩
  have hrest : suffix.takeWhile isDigitOrBar = [] ∧ suffixLength suffix = suffix.length := by
    rcases hsuffix with rfl | rfl | rfl <;> decide
  have htake : (core ++ suffix).takeWhile isDigitOrBar = core := by
    rw [List.takeWhile_append_of_pos fun d hd => (hdigit d hd).1, hrest.1, List.append_nil]
  have hfit : beyondOctal core = false :=
    beyondOctal_eq_false_iff.mpr fun d hd => (hdigit d hd).2
  have hprefixed : ofPrefixed? ('o' :: (core ++ suffix)) =
      some ⟨2 + core.length, .integer, core.isEmpty⟩ := by
    rw [ofPrefixed?]
    simp only [baseDigit?, htake, hfit, Bool.and_false, Bool.or_false]
  have hdrop : ('0' :: 'o' :: (core ++ suffix)).drop (2 + core.length) = suffix := by
    rw [Nat.add_comm, List.drop_succ_cons, List.drop_succ_cons, List.drop_left]
  have hlength : 2 + core.length + suffix.length = ('0' :: 'o' :: (core ++ suffix)).length := by
    simp only [List.length_cons, List.length_append]
    omega
  simp only [ofText, List.head?_cons, List.tail_cons, hprefixed, beq_self_eq_true, if_true,
    Option.getD_some, hdrop, hrest.2, hlength, List.take_length]

end Numeral

/-! ### Scanned numbers -/

/-- The token of the number in front of the scanner. -/
def numberToken (s : Scanner) (spaced : Bool) : Token where
  kind := (Numeral.ofText s.cursor.rest).kind
  text := s.textOf (Numeral.ofText s.cursor.rest).length
  span := s.spanOf (Numeral.ofText s.cursor.rest).length
  spaced := spaced
  ambiguous := false

/-- Scanning a number emits its token, with a fault if it is malformed. -/
lemma scanNumber_eq (s : Scanner) (spaced : Bool) : s.scanNumber spaced =
    { s with
      cursor := .advanceBy (Numeral.ofText s.cursor.rest).length s.cursor
      tokens := s.numberToken spaced :: s.tokens
      faults :=
        if (Numeral.ofText s.cursor.rest).malformed then
          ⟨.invalidNumber (s.numberToken spaced).text, (s.numberToken spaced).span⟩ :: s.faults
        else s.faults
      expects := .operator } := by
  unfold scanNumber
  dsimp only
  split <;> rfl

/-- In front of a digit of code the scanner reads a number. -/
lemma step_of_digit {s : Scanner} {c : Char} {cs : List Char} {nested : Scanner → Option Scanner}
    (hcode : s.InCode) (hrest : s.cursor.rest = c :: cs) (hc : isAsciiDigit c = true)
    (hdefining : s.definingName = false) :
    s.step nested = some (.more ({ s with spaceSeen := false }.scanNumber s.spaceSeen)) := by
  have hbegins : beginsToken c = true :=
    of_isAsciiDigit (P := fun c => beginsToken c = true) (by decide) hc
  have hscan : ({ s with spaceSeen := false } : Scanner).scanTokenAt nested s.spaceSeen c =
      some ({ s with spaceSeen := false }.scanNumber s.spaceSeen) := by
    unfold scanTokenAt
    exact if_pos hc
  rw [step_of_beginsToken hcode hrest hbegins hdefining, hscan]
  rfl

/-- A text that is one number is read as one token, and nothing is read behind it. -/
lemma ofText_of_number {c : Char} {cs : List Char} (hc : isAsciiDigit c = true)
    (hlength : (Numeral.ofText (c :: cs)).length = (c :: cs).length) :
    TokenStream.ofText (c :: cs) = .ofScanner ((ofText (c :: cs)).scanNumber false) := by
  have hfirst : (ofText (c :: cs)).step (run 1) =
      some (.more ((ofText (c :: cs)).scanNumber false)) :=
    step_of_digit ⟨0, [], rfl⟩ rfl hc rfl
  have hlast : ((ofText (c :: cs)).scanNumber false).step (run 0) =
      some (.done ((ofText (c :: cs)).scanNumber false)) := by
    have hmodes : ((ofText (c :: cs)).scanNumber false).modes = [.code 0] := by
      rw [scanNumber_eq]
      rfl
    have hrest : ((ofText (c :: cs)).scanNumber false).cursor.rest = [] := by
      rw [scanNumber_eq, Cursor.rest_advanceBy]
      exact List.drop_eq_nil_of_le hlength.ge
    rw [step_eq ⟨0, hmodes⟩, skipTrivia?_nil hrest, hrest]
    simp [atEndMarker]
  have hrun : run 2 (ofText (c :: cs)) = some ((ofText (c :: cs)).scanNumber false) := by
    rw [run, hfirst]
    dsimp only
    rw [run, hlast]
  have hfinish : (ofText (c :: cs)).finish = some ((ofText (c :: cs)).scanNumber false) := by
    refine run_mono ?_ hrun
    have hpos : 0 < ((ofText (c :: cs)).cursor.rest.length + 2) *
        ((ofText (c :: cs)).cursor.rest.length + 2) *
        ((ofText (c :: cs)).cursor.rest.length + 2) := by positivity
    unfold stepsFor
    omega
  rw [TokenStream.ofText, hfinish]
  rfl

/-- In front of a digit the scanner reads a number, without a fault. -/
structure Scans (s : Scanner) (spaced : Bool) (t : Token) : Prop where
  digit : ∃ c ∈ s.cursor.rest.head?, isAsciiDigit c = true
  tokens : (s.scanNumber spaced).tokens = t :: s.tokens
  faults : (s.scanNumber spaced).faults = s.faults

namespace Scans

variable {s : Scanner} {spaced : Bool} {t : Token}

/-- What is scanned without a fault is the token of the number in front. -/
lemma eq (h : Scans s spaced t) : t = s.numberToken spaced := by
  have htokens := h.tokens
  rw [scanNumber_eq] at htokens
  exact (List.cons.inj htokens).1.symm

/-- A number that is scanned without a fault is not malformed. -/
lemma wellFormed (h : Scans s spaced t) : (Numeral.ofText s.cursor.rest).malformed = false := by
  have hfaults := h.faults
  rw [scanNumber_eq] at hfaults
  dsimp only at hfaults
  split at hfaults
  · exact absurd hfaults (List.cons_ne_self _ _)
  · rename_i hwell
    simpa using hwell

/-- A scanned integer is an integer without a suffix, and perhaps a suffix behind it; no two underscores
stand side by side in it, and none at its end. -/
lemma plain (h : Scans s spaced t) (hkind : t.kind ≠ .float) :
    ∃ base cs ds suffix, t.text.toList = cs ++ suffix ∧ Numeral.Plain t.kind cs base ds ∧
      Numeral.IsSuffix suffix ∧
      Numeral.hasDoubleBar t.text.toList = false ∧ t.text.toList.getLast? ≠ some '_' := by
  obtain ⟨c, hhead, hc⟩ := h.digit
  have hwell := h.wellFormed
  obtain rfl := h.eq
  obtain ⟨rest, hrest⟩ := List.head?_eq_some_iff.mp hhead
  simp only [numberToken, textOf, String.toList_ofList] at hkind ⊢
  rw [hrest] at hwell hkind ⊢
  change (Numeral.bare (c :: rest)).kind ≠ .float at hkind
  have hbare : (Numeral.ofText (c :: rest)).length = (Numeral.bare (c :: rest)).length +
      Numeral.suffixLength ((c :: rest).drop (Numeral.bare (c :: rest)).length) := rfl
  obtain ⟨⟨hplain, hdouble⟩, hlast⟩ : ((Numeral.bare (c :: rest)).malformed = false ∧
      Numeral.hasDoubleBar ((c :: rest).take (Numeral.ofText (c :: rest)).length) = false) ∧
      ((c :: rest).take (Numeral.ofText (c :: rest)).length).getLast? ≠ some '_' := by
    simpa [Numeral.ofText, Numeral.bare] using hwell
  obtain ⟨base, ds, hplain⟩ := Numeral.plain_bare hc hkind hplain
  refine ⟨base, _, ds, _, ?_, hplain,
    Numeral.isSuffix_take ((c :: rest).drop (Numeral.bare (c :: rest)).length), hdouble, hlast⟩
  rw [hbare, List.take_add]

end Scans

/-- A text is read as an integer, without a fault and without a suffix, by a scanner in front of it. -/
def IsInteger (text : String) : Prop :=
  ∃ s spaced t, Scans s spaced t ∧ (t.kind = .integer ∨ t.kind = .legacyOctal) ∧ t.text = text ∧
    text.toList.getLast? ≠ some 'r' ∧ text.toList.getLast? ≠ some 'i'

end Scanner

namespace Number

variable {a b : String} {span span' : Span}

/-- What is read as an integer is written as one number. -/
lemma exists_writtenNumber (h : Scanner.IsInteger a) : ∃ n, WrittenNumber a.toList n := by
  obtain ⟨s, spaced, t, hscans, hkind, rfl, hr, hi⟩ := h
  obtain ⟨base, cs, ds, suffix, htext, hplain, hsuffix, -, hlast⟩ :=
    hscans.plain (by rcases hkind with h | h <;> simp [h])
  obtain rfl : suffix = [] := by
    rcases hsuffix with h | h | h
    · exact h
    · simp [htext, h] at hr
    · simp [htext, h] at hi
  rw [List.append_nil] at htext
  obtain ⟨before, hbefore⟩ := hplain.written.suffix
  rw [htext, ← hbefore, List.getLast?_append_of_ne_nil _ hplain.digits_ne_nil] at hlast
  obtain ⟨n, hn⟩ := exists_digitsDenote hplain.digits
    (withoutUnderscores_ne_nil hplain.digits_ne_nil hlast)
  exact ⟨n, base, ds, htext ▸ hplain.written, hn⟩

/-- What is read as an integer is written as one number and no other, and that is what is computed for
it, if it is less than `2 ^ 127`; beyond that nothing is computed.  So two integers below that bound
are the same value exactly if they are written as the same number, whatever their bases and their
underscores. -/
theorem integer?_of_isInteger (ha : Scanner.IsInteger a) (hb : Scanner.IsInteger b) :
    ∃ v w, (∀ n, WrittenNumber a.toList n ↔ n = v) ∧ (∀ n, WrittenNumber b.toList n ↔ n = w) ∧
      integer? a.toList = (if v < 2 ^ 127 then some v else none) ∧
      (v < 2 ^ 127 → w < 2 ^ 127 →
        ((Node.leaf .integer span a).literal? = (Node.leaf .integer span' b).literal? ↔ v = w)) := by
  have hunique {text : String} {v : ℕ} (hv : WrittenNumber text.toList v) (n : ℕ) :
      WrittenNumber text.toList n ↔ n = v :=
    ⟨fun hn => hn.denotes.unique hv.denotes, fun h => h ▸ hv⟩
  obtain ⟨v, hv⟩ := exists_writtenNumber ha
  obtain ⟨w, hw⟩ := exists_writtenNumber hb
  refine ⟨v, w, hunique hv, hunique hw, hv.denotes.integer?_eq, fun hvlt hwlt => ?_⟩
  have hkey (span : Span) {text : String} {n : ℕ} (hn : WrittenNumber text.toList n)
      (hlt : n < 2 ^ 127) :
      (Node.leaf .integer span text).literal? = some (.integer n) := by
    rw [Node.leaf, Node.literal?, LiteralValue.ofInteger?, hn.denotes.integer?_eq, if_pos hlt]
    rfl
  rw [hkey span hv hvlt, hkey span' hw hwlt, Option.some.injEq, LiteralValue.integer.injEq,
    Int.natCast_inj]

/-- An octal number behind a zero and a hexadecimal one, with underscores in both. -/
theorem integer?_of_isInteger_octal :
    Scanner.IsInteger "0_3_77" ∧ Scanner.IsInteger "0Xf_F" ∧ ∃ v w,
      (∀ n, WrittenNumber "0_3_77".toList n ↔ n = v) ∧ (∀ n, WrittenNumber "0Xf_F".toList n ↔ n = w) ∧
      integer? "0_3_77".toList = (if v < 2 ^ 127 then some v else none) ∧
      (v < 2 ^ 127 → w < 2 ^ 127 →
        ((Node.leaf .integer default "0_3_77").literal? =
          (Node.leaf .integer default "0Xf_F").literal? ↔ v = w)) := by
  have hoctal : Scanner.IsInteger "0_3_77" :=
    ⟨.ofText "0_3_77".toList, false, ⟨.legacyOctal, "0_3_77", ⟨⟨0, 0, 0⟩, ⟨6, 0, 6⟩⟩, false, false⟩,
      ⟨⟨'0', rfl, rfl⟩, by decide, rfl⟩, .inr rfl, rfl, by decide, by decide⟩
  have hhexadecimal : Scanner.IsInteger "0Xf_F" :=
    ⟨.ofText "0Xf_F".toList, false, ⟨.integer, "0Xf_F", ⟨⟨0, 0, 0⟩, ⟨5, 0, 5⟩⟩, false, false⟩,
      ⟨⟨'0', rfl, rfl⟩, by decide, rfl⟩, .inl rfl, rfl, by decide, by decide⟩
  exact ⟨hoctal, hhexadecimal, integer?_of_isInteger hoctal hhexadecimal⟩

end Number

namespace Scanner

open Number Finding

/-! ### What is proposed for octal numbers -/

/-- An octal number behind a zero and what is proposed for it: its digits without the zeros in front of
them, and its suffix; one zero if nothing is left. -/
structure Proposes (text : String) (ds core suffix : List Char) : Prop where
  toList_eq : text.toList = '0' :: (ds ++ suffix)
  digits : ∀ d ∈ ds, isDigitIn 8 d = true
  digits_ne_nil : ds ≠ []
  isSuffix : Numeral.IsSuffix suffix
  octalDigits_eq : octalDigits text = String.ofList (core ++ suffix)
  core_cases : core = ['0'] ∧ suffix = [] ∧ ds.dropWhile isZeroOrBar = [] ∨
    core = ds.dropWhile isZeroOrBar ∧ core ++ suffix ≠ []
  hasDoubleBar : Numeral.hasDoubleBar text.toList = false
  last : text.toList.getLast? ≠ some '_'

/-- A suffix is no digit. -/
lemma dropWhile_append_suffix {ds suffix : List Char} (h : Numeral.IsSuffix suffix) :
    (ds ++ suffix).dropWhile isZeroOrBar = ds.dropWhile isZeroOrBar ++ suffix := by
  have hkept : suffix.dropWhile isZeroOrBar = suffix := by
    rcases h with rfl | rfl | rfl <;> rfl
  rw [List.dropWhile_append, hkept]
  split
  · rename_i hempty
    rw [List.isEmpty_iff.mp hempty, List.nil_append]
  · rfl

/-- Zeros and underscores alone are the number zero. -/
lemma octalDigits_of_dropWhile_eq_nil {text : String}
    (h : text.toList.dropWhile isZeroOrBar = []) : octalDigits text = "0" := by
  unfold octalDigits
  split
  · rfl
  · rename_i hdigits
    exact absurd h hdigits

/-- The digits proposed are those behind the leading zeros and underscores, if any are left. -/
lemma octalDigits_of_dropWhile_ne_nil {text : String}
    (h : text.toList.dropWhile isZeroOrBar ≠ []) :
    octalDigits text = String.ofList (text.toList.dropWhile isZeroOrBar) := by
  unfold octalDigits
  split
  · rename_i hempty
    exact absurd hempty h
  · rfl

/-- For whatever is scanned as octal, its digits behind the zeros are proposed, with its suffix. -/
lemma Scans.proposes {s : Scanner} {spaced : Bool} {t : Token} (h : Scans s spaced t)
    (hkind : t.kind = .legacyOctal) : ∃ ds core suffix, Proposes t.text ds core suffix := by
  obtain ⟨base, cs, ds, suffix, htext, hplain, hsuffix, hdouble, hlast⟩ :=
    h.plain (by simp [hkind])
  obtain ⟨rfl, rfl⟩ := hplain.octal hkind
  rw [List.cons_append] at htext
  have hleft : t.text.toList.dropWhile isZeroOrBar = ds.dropWhile isZeroOrBar ++ suffix := by
    rw [htext, ← dropWhile_append_suffix hsuffix]
    rfl
  by_cases hnone : ds.dropWhile isZeroOrBar ++ suffix = []
  · obtain ⟨hzeros, rfl⟩ := List.append_eq_nil_iff.mp hnone
    exact ⟨ds, ['0'], [], htext, hplain.digits, hplain.digits_ne_nil, .inl rfl,
      octalDigits_of_dropWhile_eq_nil (hleft.trans hnone), .inl ⟨rfl, rfl, hzeros⟩, hdouble, hlast⟩
  · have hdigits := octalDigits_of_dropWhile_ne_nil (hleft.trans_ne hnone)
    rw [hleft] at hdigits
    exact ⟨ds, ds.dropWhile isZeroOrBar, suffix, htext, hplain.digits, hplain.digits_ne_nil,
      hsuffix, hdigits, .inr ⟨rfl, hnone⟩, hdouble, hlast⟩

namespace Proposes

variable {text : String} {ds core suffix : List Char}

/-- What is proposed is one zero, or the end of the text. -/
lemma part (h : Proposes text ds core suffix) :
    core ++ suffix = ['0'] ∨ core ++ suffix ≠ [] ∧ core ++ suffix <:+ text.toList := by
  rcases h.core_cases with ⟨rfl, rfl, -⟩ | ⟨rfl, hne⟩
  · exact .inl rfl
  · refine .inr ⟨hne, ?_⟩
    rw [h.toList_eq, ← dropWhile_append_suffix h.isSuffix]
    exact (List.dropWhile_suffix _).trans (List.suffix_cons _ _)

/-- What is proposed is not empty. -/
lemma ne_nil (h : Proposes text ds core suffix) : core ++ suffix ≠ [] := by
  rcases h.part with hzero | ⟨hne, -⟩
  · simp [hzero]
  · exact hne

/-- What is proposed does not end in an underscore. -/
lemma getLast?_ne (h : Proposes text ds core suffix) : (core ++ suffix).getLast? ≠ some '_' := by
  rcases h.part with hzero | ⟨hne, before, hbefore⟩
  · simp [hzero]
  · have hlast := h.last
    rwa [← hbefore, List.getLast?_append_of_ne_nil _ hne] at hlast

/-- What is proposed has the value of the number. -/
lemma integer?_eq (h : Proposes text ds core suffix) :
    integer? ('0' :: 'o' :: (core ++ suffix)) = integer? text.toList := by
  have hlast := h.last
  have hne : ds ++ suffix ≠ [] := by simp [h.digits_ne_nil]
  rw [h.toList_eq, ← List.singleton_append, List.getLast?_append_of_ne_nil _ hne] at hlast
  rw [h.toList_eq]
  refine integer?_proposed (withoutUnderscores_ne_nil hne hlast)
    (withoutUnderscores_ne_nil h.ne_nil h.getLast?_ne) ?_ ?_
  · intro c hc
    rcases List.mem_append.mp hc with hc | hc
    · exact announcedBase?_of_isDigitIn (h.digits c hc)
    · rcases h.isSuffix with rfl | rfl | rfl
      · simp at hc
      · exact List.mem_singleton.mp hc ▸ rfl
      · exact List.mem_singleton.mp hc ▸ rfl
  · rw [← digitsFrom?_dropWhile (by decide) (ds ++ suffix), dropWhile_append_suffix h.isSuffix]
    rcases h.core_cases with ⟨rfl, rfl, hzeros⟩ | ⟨rfl, -⟩
    · rw [hzeros]
      rfl
    · rfl

/-- What is proposed is malformed if no digits are left. -/
lemma ofText_eq (h : Proposes text ds core suffix) :
    Numeral.ofText ('0' :: 'o' :: (core ++ suffix)) =
      ⟨('0' :: 'o' :: (core ++ suffix)).length, .integer, core.isEmpty⟩ := by
  have hcore : ∀ d ∈ core, isDigitIn 8 d = true := fun d hd => by
    rcases h.core_cases with ⟨rfl, -, -⟩ | ⟨rfl, -⟩
    · exact List.mem_singleton.mp hd ▸ rfl
    · exact h.digits d ((List.dropWhile_sublist _).subset hd)
  have hpart : Numeral.hasDoubleBar (core ++ suffix) = false := by
    rcases h.part with hzero | ⟨-, hpart⟩
    · rw [hzero]
      rfl
    · exact Numeral.hasDoubleBar_of_suffix hpart h.hasDoubleBar
  have hdouble : Numeral.hasDoubleBar ('0' :: 'o' :: (core ++ suffix)) = false := hpart
  have hlast : ('0' :: 'o' :: (core ++ suffix)).getLast? ≠ some '_' := by
    rw [show '0' :: 'o' :: (core ++ suffix) = ['0', 'o'] ++ (core ++ suffix) from rfl,
      List.getLast?_append_of_ne_nil _ h.ne_nil]
    exact h.getLast?_ne
  rw [Numeral.ofText_announced hcore h.isSuffix, hdouble, beq_false_of_ne hlast, Bool.or_false,
    Bool.or_false]

/-- Digits are left unless all of them are zeros and there is a suffix. -/
lemma core_ne_nil_iff (h : Proposes text ds core suffix) : core ≠ [] ↔
    (∀ c ∈ text.toList, isZeroOrBar c = true) ∨
      ∃ c ∈ text.toList, isDigitIn 8 c = true ∧ isZeroOrBar c = false := by
  rw [h.toList_eq]
  rcases h.core_cases with ⟨rfl, rfl, hzeros⟩ | ⟨rfl, hne⟩
  · refine ⟨fun _ => .inl ?_, fun _ => List.cons_ne_nil _ _⟩
    rw [List.append_nil]
    exact List.forall_mem_cons.mpr ⟨rfl, List.dropWhile_eq_nil_iff.mp hzeros⟩
  · have hleft : ds.dropWhile isZeroOrBar ≠ [] ↔ ∃ c ∈ ds, isZeroOrBar c = false := by
      simp [List.dropWhile_eq_nil_iff]
    rw [hleft]
    constructor
    · rintro ⟨c, hc, hzero⟩
      exact .inr ⟨c, List.mem_cons_of_mem _ (List.mem_append_left _ hc), h.digits c hc, hzero⟩
    · rintro (hzeros | ⟨c, hc, hdigit, hzero⟩)
      · refine absurd ?_ hne
        rw [← dropWhile_append_suffix h.isSuffix]
        exact List.dropWhile_eq_nil_iff.mpr fun c hc => hzeros c (List.mem_cons_of_mem _ hc)
      · rcases List.mem_cons.mp hc with rfl | hc
        · exact absurd hzero (by decide)
        rcases List.mem_append.mp hc with hc | hc
        · exact ⟨c, hc, hzero⟩
        · -- Neither letter of a suffix is an octal digit.
          rcases h.isSuffix with rfl | rfl | rfl
          · simp at hc
          · exact absurd (List.mem_singleton.mp hc ▸ hdigit) (by decide)
          · exact absurd (List.mem_singleton.mp hc ▸ hdigit) (by decide)

end Proposes

variable {s : Scanner} {spaced : Bool} {t : Token}

/-- The wording of the warning, with the number that it proposes. -/
lemma message_legacyOctal {text proposed : String} (h : proposed = "0o" ++ octalDigits text) :
    (Cause.legacyOctal text).message =
      s!"integer literal `{text}` has a leading zero and is read as octal; " ++
        s!"write `{proposed}` if that is intended" := by
  have hletter : "write `0o" = "write `" ++ "0o" := by decide
  unfold Cause.message
  simp only [h, hletter, String.append_assoc, toString]

/-- What the warning about an octal number behind a zero proposes is read as one integer of the same
value; without a fault, unless the number is a zero with a suffix. -/
theorem Scans.proposed (h : Scans s spaced t) (hkind : t.kind = .legacyOctal) :
    ∃ f proposed u,
      Analysis.tokenFinding? t = some f ∧
      f.cause.message = s!"integer literal `{t.text}` has a leading zero and is read as octal; " ++
        s!"write `{proposed}` if that is intended" ∧
      integer? proposed.toList = integer? t.text.toList ∧
      (TokenStream.ofText proposed.toList).tokens = [u, TokenStream.endToken u.span.stop] ∧
      u.kind = .integer ∧ u.text = proposed ∧
      ((TokenStream.ofText proposed.toList).faults = [] ↔
        (∀ c ∈ t.text.toList, isZeroOrBar c = true) ∨
          ∃ c ∈ t.text.toList, isDigitIn 8 c = true ∧ isZeroOrBar c = false) := by
  obtain ⟨ds, core, suffix, hproposes⟩ := h.proposes hkind
  have htoList : ("0o" ++ octalDigits t.text).toList = '0' :: 'o' :: (core ++ suffix) := by
    simp [hproposes.octalDigits_eq]
  have hnumber := hproposes.ofText_eq
  have hread := ofText_of_number (c := '0') rfl (congrArg Numeral.length hnumber)
  have hrest : (ofText ('0' :: 'o' :: (core ++ suffix))).cursor.rest =
    '0' :: 'o' :: (core ++ suffix) := rfl
  refine ⟨⟨.legacyOctal t.text, t.span.start⟩, "0o" ++ octalDigits t.text,
    (ofText ('0' :: 'o' :: (core ++ suffix))).numberToken false, ?_, ?_, ?_, ?_, ?_, ?_, ?_⟩
  · rw [Analysis.tokenFinding?, hkind]
  · exact message_legacyOctal rfl
  · rw [htoList]
    exact hproposes.integer?_eq
  · rw [htoList, hread, scanNumber_eq]
    rfl
  · simp only [numberToken, hrest, hnumber]
  · rw [← String.toList_inj, htoList]
    simp only [numberToken, textOf, hrest, hnumber, String.toList_ofList, List.take_length]
  · rw [htoList, hread, scanNumber_eq, hrest, hnumber, ← hproposes.core_ne_nil_iff]
    cases core with
    | nil => simp [TokenStream.ofScanner]
    | cons c core => simp [TokenStream.ofScanner, ofText, ofCursor]

/-- Zeros, an underscore and a suffix. -/
theorem Scans.proposed_underscore :
    let t : Token := ⟨.legacyOctal, "00_17i", ⟨⟨0, 0, 0⟩, ⟨6, 0, 6⟩⟩, false, false⟩
    Scans (ofText "00_17i".toList) false t ∧ t.kind = .legacyOctal ∧ ∃ f proposed u,
      Analysis.tokenFinding? t = some f ∧
      f.cause.message = s!"integer literal `{t.text}` has a leading zero and is read as octal; " ++
        s!"write `{proposed}` if that is intended" ∧
      integer? proposed.toList = integer? t.text.toList ∧
      (TokenStream.ofText proposed.toList).tokens = [u, TokenStream.endToken u.span.stop] ∧
      u.kind = .integer ∧ u.text = proposed ∧
      ((TokenStream.ofText proposed.toList).faults = [] ↔
        (∀ c ∈ t.text.toList, isZeroOrBar c = true) ∨
          ∃ c ∈ t.text.toList, isDigitIn 8 c = true ∧ isZeroOrBar c = false) := by
  intro t
  have hscans : Scans (ofText "00_17i".toList) false t := ⟨⟨'0', rfl, rfl⟩, by decide, rfl⟩
  exact ⟨hscans, rfl, Scans.proposed hscans rfl⟩

/-- For a zero with a suffix a number without digits is proposed, which is a fault. -/
theorem Scans.not_proposed : ∃ t f,
    Scans (ofText "00r".toList) false t ∧ t.kind = .legacyOctal ∧
      Analysis.tokenFinding? t = some f ∧
      f.cause.message = "integer literal `00r` has a leading zero and is read as octal; " ++
        "write `0or` if that is intended" ∧
      (TokenStream.ofText "0or".toList).faults =
        [⟨.invalidNumber "0or", ⟨⟨0, 0, 0⟩, ⟨3, 0, 3⟩⟩⟩] :=
  ⟨⟨.legacyOctal, "00r", ⟨⟨0, 0, 0⟩, ⟨3, 0, 3⟩⟩, false, false⟩, _, ⟨⟨'0', rfl, rfl⟩, by decide, rfl⟩,
    rfl, rfl, by decide, by decide⟩

end Scanner

end RubyCheck
