import Mathlib.Data.List.Forall2
import Mathlib.Data.Nat.Digits.Defs
import RubyCheck.Number.Integer

/-!
# The numbers that integers denote

An integer is written as digits of a base, and denotes the number with these digits
(`Number.Denotes`).  What is computed for it is that number, whenever it is less than `2 ^ 127`
(`integer?_eq_some_iff`).
-/

namespace RubyCheck.Number

variable {base n m : ℕ} {cs ds : List Char}

/-- The base that a letter behind a leading zero announces, in either case. -/
def announcedBase? (c : Char) : Option ℕ :=
  match c.toLower with
  | 'x' => some 16
  | 'b' => some 2
  | 'o' => some 8
  | 'd' => some 10
  | _ => none

/-- How an integer without underscores is written: its base, and its digits in that base. -/
inductive Based : List Char → ℕ → List Char → Prop
  | announced {c : Char} {base : ℕ} {ds : List Char} :
      announcedBase? c = some base → Based ('0' :: c :: ds) base ds
  | octal {c : Char} {ds : List Char} : announcedBase? c = none → Based ('0' :: c :: ds) 8 (c :: ds)
  | zero : Based ['0'] 10 ['0']
  | decimal {ds : List Char} : ds.head? ≠ some '0' → Based ds 10 ds

/-- Some digits of a base denote a number. -/
def DigitsDenote (base : ℕ) (cs : List Char) (n : ℕ) : Prop :=
  cs ≠ [] ∧ ∃ ds : List ℕ, List.Forall₂ (fun c d => digitValue? c = some d ∧ d < base) cs ds ∧
    n = Nat.ofDigits base ds.reverse

/-- An integer denotes a number. Underscores do not count. -/
def Denotes (cs : List Char) (n : ℕ) : Prop :=
  ∃ base ds, Based (withoutUnderscores cs) base ds ∧ DigitsDenote base ds n

/-! ### Digits -/

/-- Digits behind a value are further digits of the same number. -/
lemma digitsFrom?_eq_some_iff {value : ℕ} : digitsFrom? base value cs = some n ↔
    ∃ ds : List ℕ, List.Forall₂ (fun c d => digitValue? c = some d ∧ d < base) cs ds ∧
      n = Nat.ofDigits base ds.reverse + base ^ cs.length * value := by
  induction cs generalizing value with
  | nil => simp [digitsFrom?, eq_comm]
  | cons c cs ih =>
    have hdigit (d : ℕ) (ds : List ℕ) (hlength : cs.length = ds.length) :
        Nat.ofDigits base ds.reverse + base ^ cs.length * (value * base + d) =
          Nat.ofDigits base (d :: ds).reverse + base ^ (c :: cs).length * value := by
      rw [Nat.ofDigits_reverse_cons, List.length_cons, hlength]
      ring
    rw [digitsFrom?]
    constructor
    · intro h
      split at h
      · rename_i d hd
        split at h
        · rename_i hlt
          obtain ⟨ds, hds, rfl⟩ := ih.mp h
          exact ⟨d :: ds, .cons ⟨hd, hlt⟩ hds, hdigit d ds hds.length_eq⟩
        · cases h
      · cases h
    · rintro ⟨_, hds, rfl⟩
      cases hds with
      | @cons _ d _ ds hd hds =>
        rw [hd.1]
        dsimp only
        rw [if_pos hd.2, ih]
        exact ⟨ds, hds, (hdigit d ds hds.length_eq).symm⟩

lemma digits?_eq_some_iff : digits? base cs = some n ↔ DigitsDenote base cs n := by
  cases cs with
  | nil => simp [digits?, DigitsDenote]
  | cons c cs => simp [digits?, DigitsDenote, digitsFrom?_eq_some_iff]

/-! ### Integers -/

/-- The base and the digits of an integer are read off as they are written. -/
lemma based_iff : Based cs base ds ↔ baseAndDigits cs = (base, ds) := by
  constructor
  · intro h
    cases h with
    | announced hbase =>
      unfold announcedBase? at hbase
      unfold baseAndDigits
      split at hbase <;> simp_all
    | octal hbase =>
      unfold announcedBase? at hbase
      unfold baseAndDigits
      split at hbase <;> simp_all
    | zero => rfl
    | decimal hhead =>
      unfold baseAndDigits
      split <;> simp_all
  · intro h
    unfold baseAndDigits at h
    split at h
    · obtain ⟨rfl, rfl⟩ := Prod.mk.inj h
      exact .zero
    · split at h
      all_goals
        obtain ⟨rfl, rfl⟩ := Prod.mk.inj h
        rename_i hletter
      · exact .announced (by simp [announcedBase?, hletter])
      · exact .announced (by simp [announcedBase?, hletter])
      · exact .announced (by simp [announcedBase?, hletter])
      · exact .announced (by simp [announcedBase?, hletter])
      · exact .octal (by unfold announcedBase?; split <;> simp_all)
    · rename_i hzero hprefixed
      obtain ⟨rfl, rfl⟩ := Prod.mk.inj h
      refine .decimal fun hhead => ?_
      obtain ⟨rest, rfl⟩ := List.head?_eq_some_iff.mp hhead
      cases rest with
      | nil => exact hzero rfl
      | cons c rest => exact hprefixed c rest rfl

/-- An integer denotes one number. -/
lemma Denotes.unique (h : Denotes cs n) (h' : Denotes cs m) : n = m := by
  obtain ⟨base, ds, hbased, hdigits⟩ := h
  obtain ⟨base', ds', hbased', hdigits'⟩ := h'
  obtain ⟨rfl, rfl⟩ := Prod.mk.inj ((based_iff.mp hbased).symm.trans (based_iff.mp hbased'))
  rw [← digits?_eq_some_iff] at hdigits hdigits'
  exact Option.some.inj (hdigits.symm.trans hdigits')

/-- What is computed for an integer is the number that it denotes, if that is less than
`2 ^ 127`. -/
theorem integer?_eq_some_iff : integer? cs = some n ↔ Denotes cs n ∧ n < 2 ^ 127 := by
  have hdenotes : Denotes cs n ↔
      DigitsDenote (baseAndDigits (withoutUnderscores cs)).1
        (baseAndDigits (withoutUnderscores cs)).2 n := by
    constructor
    · rintro ⟨base, ds, hbased, hdigits⟩
      rwa [based_iff.mp hbased]
    · exact fun hdigits => ⟨_, _, based_iff.mpr rfl, hdigits⟩
  rw [hdenotes, ← digits?_eq_some_iff, integer?, Option.filter_eq_some_iff, decide_eq_true_iff]
  exact Iff.rfl

end RubyCheck.Number
