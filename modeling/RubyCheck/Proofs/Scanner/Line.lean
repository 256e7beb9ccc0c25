import Mathlib.Data.List.TakeWhile
import Mathlib.Tactic.Common
import RubyCheck.Token.Scanner.Step

/-!
# Looking ahead on the line

Every token but a literal, a heredoc and the quoted symbol is measured without looking beyond the end
of its line: a line break, a carriage return and the end of the text look alike to it.  So it is the
same for any two texts that begin with the same line, whatever follows.
-/

namespace RubyCheck.Scanner

open Text

/-- Whether a character stands within a line. -/
def isInLine (c : Char) : Bool := c != '\n' && c != '\r'

/-- What a text begins with up to the end of its line. -/
def lineAhead (cs : List Char) : List Char := cs.takeWhile isInLine

/-! ### Lines -/

@[simp] lemma lineAhead_nil : lineAhead [] = [] := rfl

/-- A character is on the line ahead if it does not end the line. -/
lemma lineAhead_cons (c : Char) (cs : List Char) :
    lineAhead (c :: cs) = if isInLine c then c :: lineAhead cs else [] := by
  unfold lineAhead
  rw [List.takeWhile_cons]

/-- One that stands within a line is. -/
lemma lineAhead_cons_of_in {c : Char} (h : isInLine c = true) (cs : List Char) :
    lineAhead (c :: cs) = c :: lineAhead cs := by
  rw [lineAhead_cons, if_pos h]

@[simp] lemma lineAhead_lineBreak (cs : List Char) : lineAhead ('\n' :: cs) = [] := rfl

@[simp] lemma lineAhead_carriageReturn (cs : List Char) : lineAhead ('\r' :: cs) = [] := rfl

/-- What a text begins with, as far as its line goes: nothing, or a character of the line. -/
inductive LineView : List Char → Prop
  | endOfText : LineView []
  | lineBreak (cs : List Char) : LineView ('\n' :: cs)
  | carriageReturn (cs : List Char) : LineView ('\r' :: cs)
  | more (c : Char) (cs : List Char) (h : isInLine c = true) : LineView (c :: cs)

/-- Every text begins in one of four ways. -/
lemma lineView (cs : List Char) : LineView cs := by
  cases cs with
  | nil => exact .endOfText
  | cons c cs =>
    by_cases hc : isInLine c = true
    · exact .more c cs hc
    · have hend : c = '\n' ∨ c = '\r' := by
        simpa [isInLine, or_iff_not_imp_left] using hc
      rcases hend with rfl | rfl
      · exact .lineBreak cs
      · exact .carriageReturn cs

/-- The line ahead is how the text begins. -/
lemma lineAhead_isPrefix_self (cs : List Char) : lineAhead cs <+: cs := List.takeWhile_prefix _

/-- Behind a part of its line a text goes on with the rest of that line. -/
lemma lineAhead_drop {n : ℕ} {cs : List Char} (h : n ≤ (lineAhead cs).length) :
    lineAhead (cs.drop n) = (lineAhead cs).drop n := by
  induction n generalizing cs with
  | zero => rfl
  | succ n ih =>
    cases lineView cs with
    | endOfText => rfl
    | lineBreak cs => simp at h
    | carriageReturn cs => simp at h
    | more c cs hc =>
      rw [lineAhead_cons_of_in hc] at h ⊢
      exact ih (by simpa using h)

/-- A part of the line ahead is a part of the text. -/
lemma take_lineAhead {n : ℕ} {cs : List Char} (h : n ≤ (lineAhead cs).length) :
    (lineAhead cs).take n = cs.take n := by
  obtain ⟨ds, hds⟩ := lineAhead_isPrefix_self cs
  have htake : (lineAhead cs ++ ds).take n = (lineAhead cs).take n :=
    List.take_append_of_le_length h
  rw [hds] at htake
  exact htake.symm

/-- A class of characters that no line ends with. -/
def Within (p : Char → Bool) : Prop := p '\n' = false ∧ p '\r' = false

instance (p : Char → Bool) : Decidable (Within p) := inferInstanceAs (Decidable (_ ∧ _))

/-- A character of such a class stands within a line. -/
lemma Within.isInLine {p : Char → Bool} (h : Within p) {c : Char} (hc : p c = true) :
    isInLine c = true := by
  simp only [Scanner.isInLine, Bool.and_eq_true, bne_iff_ne]
  constructor
  · rintro rfl
    simp [h.1] at hc
  · rintro rfl
    simp [h.2] at hc

/-- A run of characters that no line ends with lies in its line. -/
lemma takeWhile_lineAhead {p : Char → Bool} (h : Within p) (cs : List Char) :
    (lineAhead cs).takeWhile p = cs.takeWhile p := by
  induction cs with
  | nil => rfl
  | cons c cs ih =>
    rw [lineAhead_cons]
    by_cases hc : p c = true
    · rw [if_pos (h.isInLine hc), List.takeWhile_cons_of_pos hc, List.takeWhile_cons_of_pos hc, ih]
    · by_cases hin : Scanner.isInLine c = true
      · rw [if_pos hin, List.takeWhile_cons_of_neg hc, List.takeWhile_cons_of_neg hc]
      · rw [if_neg hin, List.takeWhile_cons_of_neg hc, List.takeWhile_nil]

/-- Characters of such a class at the head of a text are all on its line. -/
lemma length_takeWhile_le_lineAhead {p : Char → Bool} (h : Within p) (cs : List Char) :
    (cs.takeWhile p).length ≤ (lineAhead cs).length := by
  rw [← takeWhile_lineAhead h]
  exact (List.takeWhile_prefix p).length_le

/-- Whether the first character is of the class is seen on the line. -/
lemma any_head?_lineAhead {p : Char → Bool} (h : Within p) (cs : List Char) :
    (lineAhead cs).head?.any p = cs.head?.any p := by
  cases lineView cs with
  | endOfText => rfl
  | lineBreak cs => exact h.1.symm
  | carriageReturn cs => exact h.2.symm
  | more c cs hc => rw [lineAhead_cons_of_in hc]; rfl

/-- Where all that counts about the next character is whether it is a certain one of the line, the end
of the line is like the end of the text. -/
lemma head?_lineAhead {c : Char} (hc : isInLine c = true) (cs : List Char) :
    ((lineAhead cs).head? == some c) = (cs.head? == some c) := by
  cases lineView cs with
  | endOfText => rfl
  | lineBreak cs =>
    refine (beq_eq_false_iff_ne.mpr ?_).symm
    rintro ⟨⟩
    simp [isInLine] at hc
  | carriageReturn cs =>
    refine (beq_eq_false_iff_ne.mpr ?_).symm
    rintro ⟨⟩
    simp [isInLine] at hc
  | more d cs hd => rw [lineAhead_cons_of_in hd]; rfl

/-- Words that lie in one line. -/
def InLine (word : List Char) : Prop := ∀ c ∈ word, isInLine c = true

instance (word : List Char) : Decidable (InLine word) := List.decidableBAll _ _

/-- A word that lies in one line is found by looking at that line. -/
lemma isPrefixOf_lineAhead {word : List Char} (h : InLine word) (cs : List Char) :
    word.isPrefixOf (lineAhead cs) = word.isPrefixOf cs := by
  induction word generalizing cs with
  | nil => simp
  | cons c word ih =>
    obtain ⟨hc, hword⟩ := List.forall_mem_cons.mp h
    have hne {d : Char} (hd : isInLine d = false) : (c == d) = false := by
      refine beq_false_of_ne ?_
      rintro rfl
      simp [hc] at hd
    cases lineView cs with
    | endOfText => rfl
    | lineBreak cs => simp [lineAhead_cons, isInLine, List.isPrefixOf, hne (d := '\n') rfl]
    | carriageReturn cs => simp [lineAhead_cons, isInLine, List.isPrefixOf, hne (d := '\r') rfl]
    | more d cs hd =>
      rw [lineAhead_cons_of_in hd]
      simp only [List.isPrefixOf, ih hword]

/-- Behind such characters the line goes on as it would in the text. -/
lemma dropWhile_lineAhead {p : Char → Bool} (h : Within p) (cs : List Char) :
    (lineAhead cs).dropWhile p = lineAhead (cs.dropWhile p) := by
  induction cs with
  | nil => rfl
  | cons c cs ih =>
    by_cases hc : p c = true
    · rw [lineAhead_cons_of_in (h.isInLine hc), List.dropWhile_cons_of_pos hc,
        List.dropWhile_cons_of_pos hc, ih]
    · rw [List.dropWhile_cons_of_neg hc, lineAhead_cons]
      by_cases hin : isInLine c = true
      · rw [if_pos hin, List.dropWhile_cons_of_neg hc]
      · rw [if_neg hin, List.dropWhile_nil]

/-- Behind a run of characters a text goes on with the rest of its line. -/
lemma drop_takeWhile_lineAhead {p : Char → Bool} (h : Within p) (cs : List Char) :
    (lineAhead cs).drop (cs.takeWhile p).length = lineAhead (cs.drop (cs.takeWhile p).length) :=
  (lineAhead_drop (length_takeWhile_le_lineAhead h cs)).symm

/-- Whether a text begins with one of several words is seen on its line. -/
lemma any_isPrefixOf_lineAhead {words : List (List Char)} (h : ∀ word ∈ words, InLine word)
    (cs : List Char) : words.any (·.isPrefixOf (lineAhead cs)) = words.any (·.isPrefixOf cs) := by
  rw [Bool.eq_iff_iff]
  simp only [List.any_eq_true]
  refine exists_congr fun word => and_congr_right fun hword => ?_
  rw [isPrefixOf_lineAhead (h word hword)]

/-- With which of several words a text begins is seen on its line. -/
lemma find?_isPrefixOf_lineAhead {words : List (List Char)} (h : ∀ word ∈ words, InLine word)
    (cs : List Char) : words.find? (·.isPrefixOf (lineAhead cs)) = words.find? (·.isPrefixOf cs) := by
  induction words with
  | nil => rfl
  | cons word words ih =>
    obtain ⟨hword, hwords⟩ := List.forall_mem_cons.mp h
    simp only [List.find?_cons, isPrefixOf_lineAhead hword, ih hwords]

end RubyCheck.Scanner
