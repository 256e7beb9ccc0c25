import Mathlib.Data.List.Basic
import RubyCheck.Fault
import RubyCheck.Token.Kind

/-!
# Texts on one line

A message is one line of a report only if nothing that it quotes breaks lines.  Names of kinds and numbers
never do.
-/

namespace RubyCheck

/-- A text without a line break. -/
def OneLine (text : String) : Prop := '\n' ∉ text.toList

instance (text : String) : Decidable (OneLine text) := inferInstanceAs (Decidable (¬ _))

namespace OneLine

variable {s t : String}

lemma append (hs : OneLine s) (ht : OneLine t) : OneLine (s ++ t) := by
  unfold OneLine at *
  rw [String.toList_append, List.mem_append]
  exact not_or.mpr ⟨hs, ht⟩

/-- Nothing that is written of a text on one line breaks lines. -/
lemma of_subset {cs : List Char} (hs : OneLine s) (h : cs ⊆ s.toList) : OneLine (String.ofList cs) := by
  unfold OneLine at *
  rw [String.toList_ofList]
  exact fun hmem => hs (h hmem)

end OneLine

/-- A number is written on one line. -/
lemma oneLine_toString (n : ℕ) : OneLine (toString n) := by
  intro h
  have hdigits : '\n' ∈ Nat.toDigits 10 n := by simpa [toString, Nat.repr] using h
  have hdigit := Nat.isDigit_of_mem_toDigits (by decide) (by decide) hdigits
  exact absurd hdigit (by decide)

/-- A cause that is found while a text is split into tokens, and said on one line. -/
structure Fault.Cause.Lexical (cause : Fault.Cause) : Prop where
  isLexical : cause.isLexical = true
  oneLine : OneLine cause.message

/-! ### Names of kinds -/

lemma Keyword.oneLine_text (word : Keyword) : OneLine word.text := by
  cases word with
  | _ => decide

lemma Punct.oneLine_text (mark : Punct) : OneLine mark.text := by
  cases mark with
  | _ => decide

lemma TokenKind.oneLine_display (k : TokenKind) : OneLine k.display := by
  cases k with
  | keyword word => exact word.oneLine_text
  | punct mark => exact mark.oneLine_text
  | _ => decide

end RubyCheck
