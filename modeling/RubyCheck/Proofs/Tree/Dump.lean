import Mathlib.Data.List.Basic
import Mathlib.Logic.Function.Basic
import RubyCheck.Tree.Dump

/-!
# What can be told from a dump

A dump has one line for each node, and nothing that a line shows is lost: each of its pieces can be told
from whatever is written behind it (`PrefixFree`), a text between quotes among them, whatever stands in
it.  So a dump is read in one way only, line by line.
-/

namespace RubyCheck

/-! ### Pieces that can be told from what is behind them -/

/-- What is written of something can be told from whatever is written behind it. -/
def PrefixFree {α : Type} (write : α → List Char) : Prop :=
  ∀ a b xs ys, write a ++ xs = write b ++ ys → a = b ∧ xs = ys

/-- A run of characters of one sort ends where one of another sort stands. -/
lemma eq_of_run {p : Char → Bool} {us vs xs ys : List Char} {x y : Char}
    (hus : ∀ c ∈ us, p c = true) (hvs : ∀ c ∈ vs, p c = true) (hx : p x = false) (hy : p y = false)
    (h : us ++ x :: xs = vs ++ y :: ys) : us = vs ∧ x :: xs = y :: ys := by
  have htake := congrArg (List.takeWhile p) h
  have hdrop := congrArg (List.dropWhile p) h
  rw [List.takeWhile_append_of_pos hus, List.takeWhile_append_of_pos hvs,
    List.takeWhile_cons_of_neg (by simp [hx]), List.takeWhile_cons_of_neg (by simp [hy]),
    List.append_nil, List.append_nil] at htake
  rw [List.dropWhile_append_of_pos hus, List.dropWhile_append_of_pos hvs,
    List.dropWhile_cons_of_neg (by simp [hx]), List.dropWhile_cons_of_neg (by simp [hy])] at hdrop
  exact ⟨htake, hdrop⟩

namespace PrefixFree

variable {α : Type} {write : α → List Char}

/-- Runs of characters of one sort, with a character of another sort behind each. -/
lemma of_run {p : Char → Bool} {stop : Char} (hinj : Function.Injective write)
    (hp : ∀ a, ∀ c ∈ write a, p c = true) (hstop : p stop = false) :
    PrefixFree fun a => write a ++ [stop] := by
  intro a b xs ys h
  simp only [List.append_assoc, List.singleton_append] at h
  obtain ⟨heq, hrest⟩ := eq_of_run (hp a) (hp b) hstop hstop h
  exact ⟨hinj heq, (List.cons.inj hrest).2⟩

/-- Several such pieces, one behind another, none of which is empty. -/
lemma eq_of_flatMap_eq (h : PrefixFree write) (hne : ∀ a, write a ≠ []) {as bs : List α}
    (heq : as.flatMap write = bs.flatMap write) : as = bs := by
  induction as generalizing bs with
  | nil =>
    cases bs with
    | nil => rfl
    | cons b bs => exact absurd (List.append_eq_nil_iff.mp heq.symm).1 (hne b)
  | cons a as ih =>
    cases bs with
    | nil => exact absurd (List.append_eq_nil_iff.mp heq).1 (hne a)
    | cons b bs =>
      obtain ⟨rfl, hrest⟩ := h a b _ _ heq
      rw [ih hrest]

end PrefixFree

/-! ### Numbers -/

section Numbers

variable {base n m : ℕ} {c : Char}

/-- The digits of a number are digits of its base. -/
lemma exists_digitChar_of_mem_toDigits (hbase : 1 < base) (h : c ∈ base.toDigits n) :
    ∃ d < base, c = d.digitChar := by
  induction n using Nat.strongRecOn with
  | ind n ih =>
    by_cases hlt : n < base
    · rw [Nat.toDigits_of_lt_base hlt] at h
      exact ⟨n, hlt, List.mem_singleton.mp h⟩
    · rw [Nat.toDigits_of_base_le hbase (Nat.le_of_not_lt hlt), List.mem_append] at h
      rcases h with h | h
      · exact ih _ (Nat.div_lt_self (by omega) hbase) h
      · exact ⟨n % base, Nat.mod_lt _ (by omega), List.mem_singleton.mp h⟩

/-- A number is written in one way in each base. -/
lemma toDigits_injective (hbase : 1 < base) (hle : base ≤ 16) :
    Function.Injective (Nat.toDigits base) := by
  have hdigit : ∀ d < 16, ∀ e < 16, d.digitChar = e.digitChar → d = e := by decide
  intro n
  induction n using Nat.strongRecOn with
  | ind n ih =>
    intro m h
    rw [Nat.toDigits_eq_if hbase (n := n), Nat.toDigits_eq_if hbase (n := m)] at h
    have hn : n % base < base := Nat.mod_lt _ (by omega)
    have hm : m % base < base := Nat.mod_lt _ (by omega)
    split at h <;> split at h
    · rename_i hn hm
      exact hdigit n (by omega) m (by omega) (List.singleton_inj.mp h)
    · exact absurd (List.append_eq_singleton_iff.mp h.symm) (by simp [Nat.toDigits_ne_nil])
    · exact absurd (List.append_eq_singleton_iff.mp h) (by simp [Nat.toDigits_ne_nil])
    · rename_i hge _
      obtain ⟨hfront, hlast⟩ := List.append_inj' h rfl
      have hdiv := ih _ (Nat.div_lt_self (by omega) hbase) hfront
      have hmod := hdigit _ (by omega) _ (by omega) (List.singleton_inj.mp hlast)
      rw [← Nat.div_add_mod n base, hdiv, hmod, Nat.div_add_mod]

lemma ne_of_mem_hexDigits (h : c ∈ Text.hexDigits n) : c ≠ '\x7d' ∧ c ≠ '\n' := by
  obtain ⟨d, hd, rfl⟩ := exists_digitChar_of_mem_toDigits (by decide) h
  exact ⟨Nat.digitChar_ne _ (by decide), Nat.digitChar_ne _ (by decide)⟩

/-- A number in base ten, and the character behind it. -/
def stopped (stop : Char) (n : ℕ) : List Char := Nat.toDigits 10 n ++ [stop]

lemma isDigit_of_mem_toDigits (h : c ∈ Nat.toDigits 10 n) : c.isDigit = true :=
  Nat.isDigit_of_mem_toDigits (by decide) (by decide) h

lemma lineBreak_notMem_toDigits (n : ℕ) : '\n' ∉ Nat.toDigits 10 n := fun h =>
  absurd (isDigit_of_mem_toDigits h) (by decide)

lemma prefixFree_stopped {stop : Char} (hstop : stop.isDigit = false) : PrefixFree (stopped stop) :=
  .of_run (toDigits_injective (by decide) (by decide)) (fun _ _ => isDigit_of_mem_toDigits) hstop

/-- The number comes first. -/
lemma exists_stopped_eq_cons (stop : Char) (n : ℕ) :
    ∃ d ds, stopped stop n = d :: ds ∧ d.isDigit = true := by
  cases hdigits : Nat.toDigits 10 n with
  | nil => exact absurd hdigits Nat.toDigits_ne_nil
  | cons d ds =>
    exact ⟨d, ds ++ [stop], by rw [stopped, hdigits]; rfl,
      isDigit_of_mem_toDigits (hdigits ▸ List.mem_cons_self)⟩

end Numbers

/-! ### Texts between quotes -/

namespace Text

variable {c d : Char}

/-- The characters that are written as a letter behind a backslash, and these letters. -/
def escapes : List (Char × Char) :=
  [('"', '"'), ('\\', '\\'), ('\t', 't'), ('\r', 'r'), ('\n', 'n'), ('\x00', '0')]

/-- How a character is written between quotes: by a letter, by its number, or as it is. -/
inductive Quotes (c : Char) : List Char → Prop
  | letter (e : Char) (h : (c, e) ∈ escapes) : Quotes c ['\\', e]
  | number : Quotes c (['\\', 'u', '\x7b'] ++ hexDigits c.toNat ++ ['\x7d'])
  | itself (quote : c ≠ '"') (backslash : c ≠ '\\') (lineBreak : c ≠ '\n') : Quotes c [c]

lemma quotes_quoteChar (c : Char) : Quotes c (quoteChar c) := by
  unfold quoteChar
  split
  case h_7 hquote hbackslash _ _ hbreak _ =>
    split
    · exact .number
    · exact .itself hquote hbackslash hbreak
  all_goals exact .letter _ (by decide)

/-- A character can be told from what is written behind it. -/
lemma prefixFree_quoteChar : PrefixFree quoteChar := by
  have hsame : ∀ p ∈ escapes, ∀ q ∈ escapes, p.2 = q.2 → p.1 = q.1 := by decide
  have hnumber : ∀ p ∈ escapes, p.2 ≠ 'u' := by decide
  have hnumbers : PrefixFree fun n => hexDigits n ++ ['\x7d'] :=
    .of_run (p := fun c => c != '\x7d') (toDigits_injective (by decide) (by decide))
      (fun n c hc => by simpa using (ne_of_mem_hexDigits hc).1) rfl
  intro c d xs ys h
  have hc := quotes_quoteChar c
  have hd := quotes_quoteChar d
  generalize quoteChar c = us at hc h
  generalize quoteChar d = vs at hd h
  cases hc with
  | letter e he =>
    cases hd with
    | letter e' he' =>
      obtain ⟨rfl, hrest⟩ := List.cons.inj (List.cons.inj h).2
      exact ⟨hsame _ he _ he' rfl, hrest⟩
    | number => exact absurd (List.cons.inj (List.cons.inj h).2).1 (hnumber _ he)
    | itself _ hbackslash _ => exact absurd (List.cons.inj h).1.symm hbackslash
  | number =>
    cases hd with
    | letter e' he' => exact absurd (List.cons.inj (List.cons.inj h).2).1.symm (hnumber _ he')
    | number =>
      rw [List.append_assoc, List.append_assoc, List.append_assoc, List.append_assoc] at h
      obtain ⟨heq, hrest⟩ := hnumbers _ _ xs ys (by simpa using List.append_cancel_left h)
      exact ⟨Char.toNat_inj.mp heq, hrest⟩
    | itself _ hbackslash _ => exact absurd (List.cons.inj h).1.symm hbackslash
  | itself _ hbackslash _ =>
    cases hd with
    | letter => exact absurd (List.cons.inj h).1 hbackslash
    | number => exact absurd (List.cons.inj h).1 hbackslash
    | itself => exact List.cons.inj h

/-- A quote inside a text is never written as it is. -/
lemma exists_quoteChar_eq_cons (c : Char) : ∃ d ds, quoteChar c = d :: ds ∧ d ≠ '"' := by
  have hc := quotes_quoteChar c
  generalize quoteChar c = us at hc ⊢
  cases hc with
  | letter e => exact ⟨'\\', [e], rfl, by decide⟩
  | number => exact ⟨'\\', _, rfl, by decide⟩
  | itself hquote => exact ⟨c, [], rfl, hquote⟩

/-- A text between quotes can be told from what is written behind it. -/
theorem prefixFree_quote : PrefixFree quote := by
  intro cs ds xs ys h
  simp only [quote, List.cons_append, List.append_assoc] at h
  replace h := (List.cons.inj h).2
  induction cs generalizing ds with
  | nil =>
    cases ds with
    | nil => exact ⟨rfl, (List.cons.inj h).2⟩
    | cons d ds =>
      obtain ⟨e, es, heq, hne⟩ := exists_quoteChar_eq_cons d
      rw [List.flatMap_cons, heq] at h
      exact absurd (List.cons.inj h).1.symm hne
  | cons c cs ih =>
    cases ds with
    | nil =>
      obtain ⟨e, es, heq, hne⟩ := exists_quoteChar_eq_cons c
      rw [List.flatMap_cons, heq] at h
      exact absurd (List.cons.inj h).1 hne
    | cons d ds =>
      rw [List.flatMap_cons, List.flatMap_cons, List.append_assoc, List.append_assoc] at h
      obtain ⟨rfl, hrest⟩ := prefixFree_quoteChar c d _ _ h
      obtain ⟨rfl, htail⟩ := ih ds hrest
      exact ⟨rfl, htail⟩

/-- A text between quotes stands on one line. -/
lemma lineBreak_notMem_quote (cs : List Char) : '\n' ∉ quote cs := by
  have hchar : ∀ c, '\n' ∉ quoteChar c := by
    intro c
    have hc := quotes_quoteChar c
    generalize quoteChar c = us at hc ⊢
    cases hc with
    | letter e he =>
      have hletter : ∀ p ∈ escapes, '\n' ∉ ['\\', p.2] := by decide
      exact hletter _ he
    | number =>
      have hdigits : '\n' ∉ hexDigits c.toNat := fun hmem => (ne_of_mem_hexDigits hmem).2 rfl
      simp [hdigits]
    | itself _ _ hbreak => simpa using hbreak.symm
  simp [quote, hchar]

end Text

/-! ### Lines -/

namespace NodeKind

/-- Kinds have different names. -/
lemma name_injective : Function.Injective name := by
  have hlast (k : NodeKind) : k.ctorIdx ≤ paren.ctorIdx := by
    cases k with
    | _ => decide
  have hne : ∀ i ≤ paren.ctorIdx, ∀ j < i, (ofNat i).name ≠ (ofNat j).name := by decide +kernel
  intro k l h
  rw [← ofNat_ctorIdx k, ← ofNat_ctorIdx l] at h ⊢
  rcases Nat.lt_trichotomy k.ctorIdx l.ctorIdx with hlt | heq | hlt
  · exact absurd h.symm (hne _ (hlast l) _ hlt)
  · rw [heq]
  · exact absurd h (hne _ (hlast k) _ hlt)

/-- The name of a kind is made of letters. -/
lemma isAlpha_of_mem_name {k : NodeKind} : ∀ c ∈ k.name.toList, c.isAlpha = true := by
  have hall : k.name.toList.all Char.isAlpha = true := by
    cases k with
    | _ => decide
  exact List.all_eq_true.mp hall

/-- A name begins with a letter. -/
lemma exists_name_eq_cons (k : NodeKind) : ∃ c cs, k.name.toList = c :: cs ∧ c.isAlpha = true := by
  have hne : k.name.toList ≠ [] := by
    cases k with
    | _ => decide
  obtain ⟨c, cs, hname⟩ := List.exists_cons_of_ne_nil hne
  exact ⟨c, cs, hname, isAlpha_of_mem_name c (hname ▸ List.mem_cons_self)⟩

lemma prefixFree_name : PrefixFree fun k : NodeKind => k.name.toList ++ [' '] :=
  .of_run (fun _ _ h => name_injective (String.toList_inj.mp h)) (fun _ => isAlpha_of_mem_name) rfl

end NodeKind

/-- What the line of a node shows. -/
structure Line where
  depth : ℕ
  kind : NodeKind
  text : Option String
  startLine : ℕ
  startColumn : ℕ
  stopLine : ℕ
  stopColumn : ℕ
deriving DecidableEq

namespace Line

/-- The depth and the kind, which stand in front, with a blank behind. -/
def heading (p : ℕ × NodeKind) : List Char :=
  List.replicate (2 * p.1) ' ' ++ (p.2.name.toList ++ [' '])

/-- The text, if there is one, and the line where the node begins. -/
def opening (p : Option String × ℕ) : List Char :=
  (match p.1 with
    | some text => Text.quote text.toList ++ [' ']
    | none => []) ++ stopped ':' p.2

/-- The characters of a line. -/
def written (l : Line) : List Char :=
  heading (l.depth, l.kind) ++ (opening (l.text, l.startLine) ++ (stopped '-' l.startColumn ++
    (stopped ':' l.stopLine ++ stopped '\n' l.stopColumn)))

lemma prefixFree_heading : PrefixFree heading := by
  rintro ⟨depth, kind⟩ ⟨depth', kind'⟩ xs ys h
  simp only [heading, List.append_assoc] at h
  have hblank (n : ℕ) : ∀ c ∈ List.replicate n ' ', (c == ' ') = true := by simp
  have hletter {c : Char} (hc : c.isAlpha = true) : (c == ' ') = false := by
    by_contra hne
    rw [Bool.not_eq_false, beq_iff_eq] at hne
    exact absurd (hne ▸ hc) (by decide)
  obtain ⟨c, cs, hname, hc⟩ := kind.exists_name_eq_cons
  obtain ⟨c', cs', hname', hc'⟩ := kind'.exists_name_eq_cons
  have hrun := h
  rw [hname, hname', List.cons_append, List.cons_append] at hrun
  obtain ⟨hdepth, hrest⟩ := eq_of_run (hblank _) (hblank _) (hletter hc) (hletter hc') hrun
  have hlength := congrArg List.length hdepth
  rw [List.length_replicate, List.length_replicate] at hlength
  obtain rfl : depth = depth' := by omega
  obtain ⟨rfl, hbehind⟩ := NodeKind.prefixFree_name kind kind' xs ys
    (by simpa using List.append_cancel_left h)
  exact ⟨rfl, hbehind⟩

/-- A text begins with a quote, which no number does. -/
lemma prefixFree_opening : PrefixFree opening := by
  have hquote (text : String) (n : ℕ) (xs ys : List Char) :
      Text.quote text.toList ++ xs ≠ stopped ':' n ++ ys := by
    intro h
    obtain ⟨d, ds, hstopped, hd⟩ := exists_stopped_eq_cons ':' n
    rw [hstopped] at h
    exact absurd ((List.cons.inj h).1 ▸ hd) (by decide)
  rintro ⟨text, line⟩ ⟨text', line'⟩ xs ys h
  cases text with
  | none =>
    cases text' with
    | none =>
      obtain ⟨rfl, hrest⟩ := prefixFree_stopped (by decide) _ _ _ _ h
      exact ⟨rfl, hrest⟩
    | some text' =>
      simp only [opening, List.append_assoc] at h
      exact absurd h.symm (hquote _ _ _ _)
  | some text =>
    cases text' with
    | none =>
      simp only [opening, List.append_assoc] at h
      exact absurd h (hquote _ _ _ _)
    | some text' =>
      simp only [opening, List.append_assoc] at h
      obtain ⟨htext, hrest⟩ := Text.prefixFree_quote _ _ _ _ h
      obtain ⟨rfl, hbehind⟩ := prefixFree_stopped (by decide) _ _ _ _ (List.cons.inj hrest).2
      exact ⟨by rw [String.toList_inj.mp htext], hbehind⟩

/-- A line can be told from what is written behind it. -/
theorem prefixFree_written : PrefixFree written := by
  rintro ⟨depth, kind, text, startLine, startColumn, stopLine, stopColumn⟩
    ⟨depth', kind', text', startLine', startColumn', stopLine', stopColumn'⟩ xs ys h
  simp only [written, List.append_assoc] at h
  obtain ⟨hheading, h⟩ := prefixFree_heading _ _ _ _ h
  obtain ⟨hopening, h⟩ := prefixFree_opening _ _ _ _ h
  obtain ⟨hstartColumn, h⟩ := prefixFree_stopped (by decide) _ _ _ _ h
  obtain ⟨hstopLine, h⟩ := prefixFree_stopped (by decide) _ _ _ _ h
  obtain ⟨hstopColumn, hrest⟩ := prefixFree_stopped (by decide) _ _ _ _ h
  obtain ⟨rfl, rfl⟩ := Prod.mk.inj hheading
  obtain ⟨rfl, rfl⟩ := Prod.mk.inj hopening
  subst hstartColumn hstopLine hstopColumn
  exact ⟨rfl, hrest⟩

/-- A line has one line break, its last character. -/
lemma count_written (l : Line) : l.written.count '\n' = 1 := by
  have hheading : '\n' ∉ heading (l.depth, l.kind) := by
    have hname : '\n' ∉ l.kind.name.toList := fun h =>
      absurd (NodeKind.isAlpha_of_mem_name _ h) (by decide)
    simp [heading, hname]
  have hopening : '\n' ∉ opening (l.text, l.startLine) := by
    cases htext : l.text with
    | none => simp [opening, stopped, lineBreak_notMem_toDigits]
    | some text =>
      simp [opening, stopped, lineBreak_notMem_toDigits, Text.lineBreak_notMem_quote]
  simp [written, stopped, List.count_append, List.count_eq_zero.mpr hheading,
    List.count_eq_zero.mpr hopening, List.count_eq_zero.mpr (lineBreak_notMem_toDigits _)]

end Line

namespace Node

/-- What the line of a node shows, with positions counted from one. -/
def line (depth : ℕ) (n : Node) : Line where
  depth := depth
  kind := n.kind
  text := n.text
  startLine := n.span.start.shownLine
  startColumn := n.span.start.shownColumn
  stopLine := n.span.stop.shownLine
  stopColumn := n.span.stop.shownColumn

lemma toList_dumpLine (depth : ℕ) (n : Node) : (n.dumpLine depth).toList = (n.line depth).written := by
  have hshown (p : Position) : p.shown.toList =
      Nat.toDigits 10 p.shownLine ++ ':' :: Nat.toDigits 10 p.shownColumn := by
    simp [Position.shown, toString, Nat.repr_eq_ofList_toDigits]
  cases htext : n.text with
  | none =>
    simp [dumpLine, indentation, quotedText, htext, toString, hshown, line, Line.written, Line.heading,
      Line.opening, stopped]
  | some text =>
    simp [dumpLine, indentation, quotedText, htext, toString, hshown, line, Line.written, Line.heading,
      Line.opening, stopped]

/-! ### Dumps -/

mutual

/-- A tree written by recursion: the line of a node, and behind it its children, one level deeper. -/
def rendering (depth : ℕ) : Node → String
  | ⟨kind, span, text, children⟩ =>
    dumpLine depth ⟨kind, span, text, children⟩ ++ renderingEach (depth + 1) children

/-- Several trees, one behind another. -/
def renderingEach (depth : ℕ) : List Node → String
  | [] => ""
  | n :: ns => rendering depth n ++ renderingEach depth ns

end

mutual

lemma rendering_eq {depth : ℕ} : (n : Node) →
    n.rendering depth = String.join ((n.outline depth).map fun p => p.2.dumpLine p.1)
  | ⟨kind, span, text, children⟩ => by
    rw [rendering, outline, List.map_cons, String.join_cons, renderingEach_eq children]

lemma renderingEach_eq {depth : ℕ} : (ns : List Node) →
    renderingEach depth ns = String.join ((outlineEach depth ns).map fun p => p.2.dumpLine p.1)
  | [] => rfl
  | n :: ns => by
    rw [renderingEach, outlineEach, List.map_append, String.join_append, rendering_eq n,
      renderingEach_eq ns]

end

mutual

lemma length_outline {depth : ℕ} : (n : Node) → (n.outline depth).length = n.size
  | ⟨kind, span, text, children⟩ => by
    rw [outline, List.length_cons, length_outlineEach children, size]

lemma length_outlineEach {depth : ℕ} : (ns : List Node) →
    (outlineEach depth ns).length = sizeEach ns
  | [] => rfl
  | n :: ns => by
    rw [outlineEach, List.length_append, length_outline n, length_outlineEach ns, sizeEach]

end

/-- The lines of a tree, in the order of its nodes. -/
def lines (n : Node) : List Line := (n.outline 0).map fun p => p.2.line p.1

lemma toList_dump (n : Node) : n.dump.toList = n.lines.flatMap Line.written := by
  rw [dump, listing_eq, String.toList_join, List.flatMap_map, lines, List.flatMap_map]
  simp only [toList_dumpLine]

/-- A dump is what recursion over the tree writes, has one line for each node, and loses nothing of what
the lines show: two trees with the same dump have the same lines. -/
theorem dump_lossless (n m : Node) :
    n.dump = n.rendering 0 ∧ n.dump.toList.count '\n' = n.size ∧
      (n.dump = m.dump ↔ n.lines = m.lines) := by
  refine ⟨?_, ?_, fun h => ?_, fun h => ?_⟩
  · rw [dump, listing_eq, rendering_eq]
  · rw [toList_dump, List.count_flatMap]
    simp [Function.comp_def, Line.count_written, lines, length_outline]
  · refine Line.prefixFree_written.eq_of_flatMap_eq ?_ ?_
    · intro l hempty
      have hbreak := l.count_written
      rw [hempty] at hbreak
      cases hbreak
    · rw [← toList_dump, ← toList_dump, h]
  · rw [← String.toList_inj, toList_dump, toList_dump, h]

/-- A text that looks like a line of its own is not one. -/
example : (leaf .string ⟨⟨0, 0, 0⟩, ⟨15, 1, 14⟩⟩ "\n  Nil 1:1-1:4").dump =
    "String \"\\n  Nil 1:1-1:4\" 1:1-2:15\n" := by
  rw [dump, listing_eq]
  decide

end Node

end RubyCheck
