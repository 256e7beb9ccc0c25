import Mathlib.Data.List.Basic
import RubyCheck.Json.Text

/-!
# Texts and how they are written

A text is written in a string character by character, and `Escapes` has one rule for each of the
three ways to write a character.  Whatever is written by these rules is read back as it was.
-/

namespace RubyCheck.Json

/-- The characters that are written as a backslash and a letter or sign, with what stands behind the
backslash. -/
def shortForms : List (Char × Char) :=
  [('"', '"'), ('\\', '\\'), ('\x08', 'b'), ('\x0c', 'f'), ('\n', 'n'), ('\r', 'r'), ('\t', 't')]

/-- How a character is written in a string. -/
inductive Escapes : Char → List Char → Prop
  | short {c e : Char} : (c, e) ∈ shortForms → Escapes c ['\\', e]
  /-- Any other control character by its code, in lower case. -/
  | code {c x y : Char} :
      c ∉ shortForms.map Prod.fst → c.toNat < 32 → x = Nat.digitChar (c.toNat / 16) →
      y = Nat.digitChar (c.toNat % 16) → Escapes c ['\\', 'u', '0', '0', x, y]
  /-- All else as it is. -/
  | plain {c : Char} : c ∉ shortForms.map Prod.fst → ¬ c.toNat < 32 → Escapes c [c]

/-- How a text is written in a string. -/
inductive Spells : List Char → List Char → Prop
  | nil : Spells [] []
  | cons {c : Char} {w cs ws : List Char} : Escapes c w → Spells cs ws → Spells (c :: cs) (w ++ ws)

/-! ### Writing -/

lemma escapes_escapeChar (c : Char) : Escapes c (escapeChar c) := by
  unfold escapeChar
  split
  case h_8 hquote hslash hback hfeed hbreak hreturn htab =>
    have hlong : c ∉ shortForms.map Prod.fst := by
      simp only [shortForms, List.map_cons, List.map_nil, List.mem_cons, List.not_mem_nil, or_false,
        not_or]
      exact ⟨hquote, hslash, hback, hfeed, hbreak, hreturn, htab⟩
    split
    · rename_i hcontrol
      have hfirst : c.toNat / 16 % 16 = c.toNat / 16 := Nat.mod_eq_of_lt (by omega)
      exact .code hlong hcontrol (by rw [hexDigit, hfirst]) rfl
    · rename_i hcontrol
      exact .plain hlong hcontrol
  all_goals exact .short (by decide)

lemma spells_escape (cs : List Char) : Spells cs (escape cs) := by
  induction cs with
  | nil => exact .nil
  | cons c cs ih => exact .cons (escapes_escapeChar c) ih

/-! ### Reading -/

/-- A digit stands for its value. -/
lemma hexValue?_digitChar {n : ℕ} (h : n < 16) : hexValue? (Nat.digitChar n) = some n := by
  have hall : ∀ n < 16, hexValue? (Nat.digitChar n) = some n := by decide
  exact hall n h

/-- Two digits are enough for a control character. -/
lemma fourDigits?_control {n : ℕ} (h : n < 32) :
    fourDigits? '0' '0' (Nat.digitChar (n / 16)) (Nat.digitChar (n % 16)) = some n := by
  have hzero : hexValue? '0' = some 0 := by decide
  have hfirst : hexValue? (Nat.digitChar (n / 16)) = some (n / 16) :=
    hexValue?_digitChar (by omega)
  have hsecond : hexValue? (Nat.digitChar (n % 16)) = some (n % 16) :=
    hexValue?_digitChar (Nat.mod_lt n (by decide))
  have hvalue : ((0 * 16 + 0) * 16 + n / 16) * 16 + n % 16 = n := by omega
  simp only [fourDigits?, hzero, hfirst, hsecond, Option.bind_eq_bind, Option.bind_some, hvalue]
  rfl

lemma ne_of_not_short {c : Char} (h : c ∉ shortForms.map Prod.fst) : c ≠ '"' ∧ c ≠ '\\' := by
  constructor
  · rintro rfl
    exact h (by decide)
  · rintro rfl
    exact h (by decide)

/-- What stands behind the backslash of a short form is read as its character, and begins no code. -/
lemma shortEscape?_of_mem {c e : Char} (h : (c, e) ∈ shortForms) :
    shortEscape? e = some c ∧ e ≠ 'u' := by
  have hall : ∀ p ∈ shortForms, shortEscape? p.2 = some p.1 ∧ p.2 ≠ 'u' := by decide
  exact hall (c, e) h

lemma unescape_short {c e : Char} (h : (c, e) ∈ shortForms) (cs : List Char) :
    unescape ('\\' :: e :: cs) = (unescape cs).map (c :: ·) := by
  obtain ⟨hshort, hcode⟩ := shortEscape?_of_mem h
  rw [unescape.eq_def]
  split
  · rename_i heq
    cases heq
  · rename_i heq
    cases heq
    exact absurd rfl hcode
  · rename_i heq
    cases heq
    simp [hshort]

lemma unescape_code {n : ℕ} {x y : Char} (h : fourDigits? '0' '0' x y = some n) (hn : n < 32)
    (cs : List Char) :
    unescape ('\\' :: 'u' :: '0' :: '0' :: x :: y :: cs) =
      (unescape cs).map (Char.ofNat n :: ·) := by
  have hhigh : isHighSurrogate n = false := by
    simp only [isHighSurrogate, Bool.and_eq_false_iff, decide_eq_false_iff_not]
    omega
  have hlow : isLowSurrogate n = false := by
    simp only [isLowSurrogate, Bool.and_eq_false_iff, decide_eq_false_iff_not]
    omega
  rw [unescape.eq_2]
  simp [h, hhigh, hlow]

lemma unescape_plain {c : Char} (h : c ≠ '\\') (cs : List Char) :
    unescape (c :: cs) = (unescape cs).map (c :: ·) := by
  rw [unescape.eq_def]
  split
  · rename_i heq
    cases heq
  · rename_i heq
    cases heq
    exact absurd rfl h
  · rename_i heq
    cases heq
    exact if_neg h

lemma wellEscaped_short {c e : Char} (h : (c, e) ∈ shortForms) (cs : List Char) :
    wellEscaped ('\\' :: e :: cs) = wellEscaped cs := by
  obtain ⟨hshort, hcode⟩ := shortEscape?_of_mem h
  rw [wellEscaped.eq_def]
  split
  · rename_i heq
    cases heq
  · rename_i heq
    cases heq
    exact absurd rfl hcode
  · rename_i heq
    cases heq
    simp [hshort]

lemma wellEscaped_plain {c : Char} (h : c ≠ '\\') (cs : List Char) :
    wellEscaped (c :: cs) = wellEscaped cs := by
  rw [wellEscaped.eq_def]
  split
  · rename_i heq
    cases heq
  · rename_i heq
    cases heq
    exact absurd rfl h
  · rename_i heq
    cases heq
    exact if_neg h

namespace Spells

variable {cs ws : List Char}

/-- What is written is read back. -/
lemma unescape (h : Spells cs ws) : unescape ws = some cs := by
  induction h with
  | nil => rfl
  | @cons _ _ _ ws hchar _ ih =>
    cases hchar with
    | short hmem =>
      rw [List.cons_append, List.singleton_append, unescape_short hmem, ih]
      rfl
    | code _ hcontrol hx hy =>
      subst hx hy
      have hcode := unescape_code (fourDigits?_control hcontrol) hcontrol
      rw [Char.ofNat_toNat] at hcode
      exact (hcode ws).trans (by rw [ih]; rfl)
    | plain hlong _ =>
      rw [List.singleton_append, unescape_plain (ne_of_not_short hlong).2, ih]
      rfl

/-- What is written has escapes of the right form only. -/
lemma wellEscaped (h : Spells cs ws) : wellEscaped ws = true := by
  induction h with
  | nil => rfl
  | cons hchar _ ih =>
    cases hchar with
    | short hmem => rwa [List.cons_append, List.singleton_append, wellEscaped_short hmem]
    | code _ hcontrol hx hy =>
      subst hx hy
      refine (Json.wellEscaped.eq_2 _ _ _ _ _).trans ?_
      rw [fourDigits?_control hcontrol, Option.isSome_some, Bool.true_and]
      exact ih
    | plain hlong _ => rwa [List.singleton_append, wellEscaped_plain (ne_of_not_short hlong).2]

end Spells

end RubyCheck.Json
